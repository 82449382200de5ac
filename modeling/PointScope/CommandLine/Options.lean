import PointScope.Terminal.Preview

/-!
The options of the command line: their names, which of them take a value, and the record that a
command line is read into.
-/

namespace PointScope.CommandLine

inductive Flag where
  | csv
  | generate
  | function
  | xmin
  | xmax
  | ymin
  | ymax
  | step
  | output
  | terminal
  | ascii
  | invert
  | stretch
  | columns
  | width
  | height
  | rotateX
  | rotateY
  | rotateZ
  | zoom
  | config
  | debug
  | help
  | version
deriving DecidableEq, Repr

inductive Operand where
  | none
  | path
  | text
  | number
  /-- A whole number of 32 bits. -/
  | count
deriving DecidableEq, Repr

namespace Flag

def all : List Flag :=
  [.csv, .generate, .function, .xmin, .xmax, .ymin, .ymax, .step, .output, .terminal, .ascii,
    .invert, .stretch, .columns, .width, .height, .rotateX, .rotateY, .rotateZ, .zoom, .config,
    .debug, .help, .version]

def name : Flag → String
  | csv => "csv"
  | generate => "generate"
  | function => "function"
  | xmin => "xmin"
  | xmax => "xmax"
  | ymin => "ymin"
  | ymax => "ymax"
  | step => "step"
  | output => "output"
  | terminal => "terminal"
  | ascii => "ascii"
  | invert => "invert"
  | stretch => "stretch"
  | columns => "columns"
  | width => "width"
  | height => "height"
  | rotateX => "rotate-x"
  | rotateY => "rotate-y"
  | rotateZ => "rotate-z"
  | zoom => "zoom"
  | config => "config"
  | debug => "debug"
  | help => "help"
  | version => "version"

def letter? : Flag → Option Char
  | output => some 'o'
  | config => some 'c'
  | help => some 'h'
  | version => some 'V'
  | _ => none

def operand : Flag → Operand
  | csv | generate | output | config => .path
  | function => .text
  | xmin | xmax | ymin | ymax | step | rotateX | rotateY | rotateZ | zoom => .number
  | columns | width | height => .count
  | terminal | ascii | invert | stretch | debug | help | version => .none

def takesDash : Flag → Bool
  | function | xmin | xmax | ymin | ymax | rotateX | rotateY | rotateZ => true
  | _ => false

def ofName? (name : String) : Option Flag := all.find? (·.name == name)

def ofLetter? (letter : Char) : Option Flag := all.find? (·.letter? == some letter)

def purpose : Flag → String
  | csv => "Path to CSV file with 3D points"
  | generate => "Write a sample CSV file to PATH and exit"
  | function => "Function to visualize, for instance \"sin(x) * cos(y)\""
  | xmin => "Minimum x value for function sampling [default: -5]"
  | xmax => "Maximum x value for function sampling [default: 5]"
  | ymin => "Minimum y value for function sampling [default: -5]"
  | ymax => "Maximum y value for function sampling [default: 5]"
  | step => "Grid step for function sampling [default: 0.2]"
  | output => "Write the rendered frame to a PNG file"
  | terminal => "Print a preview to the terminal (default without --output)"
  | ascii => "Plain ASCII preview instead of ANSI colors"
  | invert => "Light-on-dark preview for dark terminals"
  | stretch => "Spread the ASCII ramp over the frame's own brightness range"
  | columns => "Terminal preview width in characters [default: 80]"
  | width => "Frame width in pixels [default: 800]"
  | height => "Frame height in pixels [default: 600]"
  | rotateX => "Rotation around the x axis in radians [default: 0]"
  | rotateY => "Rotation around the y axis in radians [default: 0]"
  | rotateZ => "Rotation around the z axis in radians [default: 0]"
  | zoom => "Pixels per world unit, clamped to [5, 500] [default: 50]"
  | config => "Config file path"
  | debug => "Log to stderr (also TRUENO_POINTS_DEBUG=1)"
  | help => "Print help"
  | version => "Print version"

end Flag

structure Options where
  csv : Option String := none
  generate : Option String := none
  function : Option String := none
  xmin : Option Float := none
  xmax : Option Float := none
  ymin : Option Float := none
  ymax : Option Float := none
  step : Option Float := none
  output : Option String := none
  terminal : Bool := false
  ascii : Bool := false
  invert : Bool := false
  stretch : Bool := false
  columns : Nat := Terminal.defaultColumns
  width : Option UInt32 := none
  height : Option UInt32 := none
  rotateX : Float := 0.0
  rotateY : Float := 0.0
  rotateZ : Float := 0.0
  zoom : Option Float := none
  config : Option String := none
  debug : Bool := false

end PointScope.CommandLine

import PointScope.CommandLine.Options
import PointScope.Decimal.Reader

/-!
Reading a command line. Arguments are read from left to right; the first one that is wrong, or
that asks for help or the version, decides. An option may be given once, and at most one of the
three sources of points may be.

The value of an option is what stands behind its equals sign or, for an option of one letter,
right behind it, and otherwise the next argument. That one may begin with a dash only for options
whose values may be negative or formulas.
-/

namespace PointScope.CommandLine

inductive Refusal where
  | unexpected (argument : String)
  | missingValue (flag : Flag)
  | invalidValue (flag : Flag) (text : String)
  | needlessValue (flag : Flag) (text : String)
  | repeated (flag : Flag)
  | severalSources
deriving DecidableEq, Repr

def Refusal.message : Refusal → String
  | unexpected argument => s!"error: unexpected argument '{argument}' found"
  | missingValue flag => s!"error: a value is required for '--{flag.name}' but none was supplied"
  | invalidValue flag text => s!"error: invalid value '{text}' for '--{flag.name}'"
  | needlessValue flag text => s!"error: unexpected value '{text}' for '--{flag.name}' found"
  | repeated flag => s!"error: the argument '--{flag.name}' cannot be used multiple times"
  | severalSources => "error: '--csv', '--generate' and '--function' cannot be used together"

inductive Request where
  | run (options : Options)
  | help
  | version

/-! ### Values -/

def path? (text : String) : Option String := if text.isEmpty then none else some text

def number? (text : String) : Option Float := Decimal.read? text.toList

/-- A whole number of 32 bits; it may have a sign. -/
def count? (text : String) : Option UInt32 :=
  let (negative, ds) := Decimal.splitSign text.toList
  let n := Decimal.naturalOf ds
  if ds.isEmpty || !ds.all Char.isDigit || (negative && n != 0) || decide (UInt32.size ≤ n) then none
  else some n.toUInt32

def Options.put? (o : Options) (flag : Flag) (text : String) : Option Options :=
  match flag with
  | .csv => (path? text).map fun v => { o with csv := some v }
  | .generate => (path? text).map fun v => { o with generate := some v }
  | .function => some { o with function := some text }
  | .xmin => (number? text).map fun v => { o with xmin := some v }
  | .xmax => (number? text).map fun v => { o with xmax := some v }
  | .ymin => (number? text).map fun v => { o with ymin := some v }
  | .ymax => (number? text).map fun v => { o with ymax := some v }
  | .step => (number? text).map fun v => { o with step := some v }
  | .output => (path? text).map fun v => { o with output := some v }
  | .columns => (count? text).map fun v => { o with columns := v.toNat }
  | .width => (count? text).map fun v => { o with width := some v }
  | .height => (count? text).map fun v => { o with height := some v }
  | .rotateX => (number? text).map fun v => { o with rotateX := v }
  | .rotateY => (number? text).map fun v => { o with rotateY := v }
  | .rotateZ => (number? text).map fun v => { o with rotateZ := v }
  | .zoom => (number? text).map fun v => { o with zoom := some v }
  | .config => (path? text).map fun v => { o with config := some v }
  | .terminal | .ascii | .invert | .stretch | .debug | .help | .version => some o

def Options.mark (o : Options) : Flag → Options
  | .terminal => { o with terminal := true }
  | .ascii => { o with ascii := true }
  | .invert => { o with invert := true }
  | .stretch => { o with stretch := true }
  | .debug => { o with debug := true }
  | _ => o

/-! ### Arguments -/

structure Progress where
  options : Options := {}
  given : List Flag := []

def Progress.take (p : Progress) (flag : Flag) (text : String) : Except Refusal Progress :=
  match p.options.put? flag text with
  | none => .error (.invalidValue flag text)
  | some options =>
    if p.given.contains flag then .error (.repeated flag)
    else .ok { options, given := flag :: p.given }

def Progress.mark (p : Progress) (flag : Flag) : Except Refusal Progress :=
  if p.given.contains flag then .error (.repeated flag)
  else .ok { options := p.options.mark flag, given := flag :: p.given }

/-- The request of a command line that has been read to its end. -/
def Progress.finish (p : Progress) : Except Refusal Request :=
  if 1 < ([Flag.csv, .generate, .function].filter p.given.contains).length then
    .error .severalSources
  else .ok (.run p.options)

structure Argument where
  flag : Flag
  /-- The value that is attached to it. -/
  attached : Option String := none

def argument? (text : String) : Option Argument :=
  match text.toList with
  | '-' :: '-' :: body =>
    let name := body.takeWhile (· != '=')
    (Flag.ofName? (String.ofList name)).map fun flag =>
      match body.dropWhile (· != '=') with
      | _ :: value => { flag, attached := some (String.ofList value) }
      | [] => { flag }
  | '-' :: letter :: rest =>
    (Flag.ofLetter? letter).map fun flag =>
      if flag.operand == .none then { flag }
      else
        match rest with
        | [] => { flag }
        | '=' :: value => { flag, attached := some (String.ofList value) }
        | value => { flag, attached := some (String.ofList value) }
  | _ => none

def mayFollow (flag : Flag) (text : String) : Bool :=
  flag.takesDash || text.toList.head? != some '-' || text == "-"

def readOn (p : Progress) : List String → Except Refusal Request
  | [] => p.finish
  | text :: rest =>
    match argument? text with
    | none =>
      match text, rest with
      | "--", [] => p.finish
      | "--", next :: _ => .error (.unexpected next)
      | _, _ => .error (.unexpected text)
    | some ⟨flag, attached⟩ =>
      match flag.operand, attached with
      | .none, some value => .error (.needlessValue flag value)
      | .none, none =>
        if flag = .help then .ok .help
        else if flag = .version then .ok .version
        else
          match p.mark flag with
          | .error e => .error e
          | .ok p => readOn p rest
      | _, some value =>
        match p.take flag value with
        | .error e => .error e
        | .ok p => readOn p rest
      | _, none =>
        match rest with
        | [] => .error (.missingValue flag)
        | value :: rest =>
          if mayFollow flag value then
            match p.take flag value with
            | .error e => .error e
            | .ok p => readOn p rest
          else .error (.missingValue flag)

def read (arguments : List String) : Except Refusal Request := readOn {} arguments

/-! ### Texts -/

def programName : String := "trueno-points"

def programVersion : String := "0.1.0"

def versionText : String := s!"{programName} {programVersion}\n"

def helpLine (flag : Flag) : String :=
  let letter := (flag.letter?.map fun c => s!"-{c}, ").getD "    "
  let value :=
    match flag.operand with
    | .none => ""
    | .path => " <PATH>"
    | .text => " <EXPR>"
    | .number | .count => " <N>"
  s!"  {letter}--{flag.name}{value}\n          {flag.purpose}\n"

def helpText : String :=
  "Render 3D point clouds and sampled functions\n\n" ++
    s!"Usage: {programName} [OPTIONS]\n\nOptions:\n" ++
    String.join (Flag.all.map helpLine)

end PointScope.CommandLine

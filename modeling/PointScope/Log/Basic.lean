import PointScope.Text.Blank

/-!
The log: records with a level, the part of the library they come from and a message. Nothing is
logged until logging is switched on.
-/

namespace PointScope.Log

inductive Level where
  | trace
  | debug
  | info
  | warn
  | error
deriving DecidableEq, Repr

namespace Level

def name : Level → String
  | trace => "TRACE"
  | debug => "DEBUG"
  | info => "INFO"
  | warn => "WARN"
  | error => "ERROR"

def color : Level → Nat
  | trace => 90
  | debug => 36
  | info => 32
  | warn => 33
  | error => 31

end Level

structure Record where
  level : Level
  /-- The part of the library that made the record. -/
  target : String
  message : String
deriving DecidableEq, Repr

/-- Text with characters added on one side up to a width. -/
def padding (width : Nat) (fill : Char) (text : String) : String :=
  String.ofList (List.replicate (width - text.length) fill)

/-- The record without the time it was made. -/
def Record.text (r : Record) : String :=
  let gap := padding 5 ' ' r.level.name
  s!"[{r.level.name}{gap}] [{r.target}] {r.message}"

/-- The record as a line of a terminal, made some milliseconds after logging was switched on. -/
def Record.line (r : Record) (elapsed : Nat) : String :=
  let time := toString elapsed
  let zeros := padding 4 '0' time
  s!"\x1b[{r.level.color}m[+{zeros}{time}ms] {r.text}\x1b[0m"

/-! ### The switch -/

def variableName : String := "TRUENO_POINTS_DEBUG"

def switchesOn (value : String) : Bool :=
  ["1", "true", "yes", "on"].contains
    (String.ofList ((Text.trim value.toList).map Char.toLower))

structure Switch where
  isOn : Bool := false
deriving DecidableEq, Repr

namespace Switch

def enable (_ : Switch) : Switch := ⟨true⟩

def disable (_ : Switch) : Switch := ⟨false⟩

/-- Switches logging on if the variable asks for it, and says whether it does; otherwise the
switch stays as it is. -/
def enableFrom (s : Switch) (value : Option String) : Bool × Switch :=
  if value.any switchesOn then (true, s.enable) else (false, s)

end Switch

end PointScope.Log

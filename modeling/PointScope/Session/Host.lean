import PointScope.Failure
import PointScope.Log.Notice

/-!
What a session needs of its surroundings: files, a place to print to, and a log. Sessions are
written over any monad that has these.
-/

namespace PointScope.Session

structure Host (m : Type → Type) where
  read : String → m (Except FileFault ByteArray)
  /-- Writes a file, replacing what it held. -/
  write : String → ByteArray → m (Except FileFault Unit)
  print : String → m Unit
  note : Notice → m Unit

/-- The surroundings without their log. -/
def Host.silent [Monad m] (host : Host m) : Host m := { host with note := fun _ => pure () }

/-- What a session is started with besides its arguments. -/
structure Environment where
  /-- The value of the variable that switches logging on. -/
  logVariable : Option String := none
  /-- The user's configuration file, which need not exist. -/
  configPath : Option String := none

/-- How a session ends before its last step. -/
inductive Ending where
  | reported (report : Report)
  /-- The program stopped, and nothing more is done. -/
  | stopped

/-- A step of a session, which may end it. -/
abbrev Step (m : Type → Type) := ExceptT Ending m

end PointScope.Session

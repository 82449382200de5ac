import PointScope.Session.Run

/-!
The command line program: a session in the surroundings of the system.
-/

namespace PointScope.Program

open Session (Host Environment)

def faultOf (e : IO.Error) : FileFault :=
  match e with
  | .noFileOrDirectory .. => .notFound
  | .inappropriateType _ code _ =>
    if code = 20 then .notDirectory else if code = 21 then .isDirectory else .system (toString e)
  | _ => .system (toString e)

def trying {α : Type} (action : IO α) : IO (Except FileFault α) := do
  match ← action.toBaseIO with
  | .ok v => return .ok v
  | .error e => return .error (faultOf e)

/-- When logging began and the phases that are going on did, in milliseconds. -/
structure Clock where
  start : Nat
  phases : List Nat := []

/-- The addition to the record of an event that tells how long a phase took. -/
def durationText (clock : Clock) (now : Nat) : Notice → String
  | .ended _ => s!" ({now - clock.phases.headD now}.00ms)"
  | _ => ""

def Clock.after (clock : Clock) (now : Nat) : Notice → Clock
  | .began _ => { clock with phases := now :: clock.phases }
  | .ended _ => { clock with phases := clock.phases.drop 1 }
  | _ => clock

def note (clock : IO.Ref Clock) (event : Notice) : IO Unit := do
  let now ← IO.monoMsNow
  let c ← clock.get
  let record := event.record
  let timed := { record with message := record.message ++ durationText c now event }
  IO.eprintln (timed.line (now - c.start))
  clock.set (c.after now event)

def host (clock : IO.Ref Clock) : Host IO where
  read path := trying (IO.FS.readBinFile path)
  write path content := trying (IO.FS.writeBinFile path content)
  print text := do
    let out ← IO.getStdout
    out.putStr text
    out.flush
  note := note clock

def configDirectory? : IO (Option String) := do
  match ← IO.getEnv "XDG_CONFIG_HOME" with
  | some dir => if dir.startsWith "/" then return some dir
  | none => pure ()
  return (← IO.getEnv "HOME").map (· ++ "/.config")

def environment : IO Environment := do
  return {
    logVariable := ← IO.getEnv Log.variableName
    configPath := (← configDirectory?).map
      (· ++ s!"/{CommandLine.programName}/config.yaml") }

/-- What the system says of a program that stopped before its end. -/
def stopCode : UInt32 := 134

end PointScope.Program

def main (arguments : List String) : IO UInt32 := do
  let clock ← IO.mkRef { start := ← IO.monoMsNow }
  let outcome ← PointScope.Session.run (PointScope.Program.host clock)
    (← PointScope.Program.environment) arguments
  match outcome with
  | .ended exitCode report =>
    if let some report := report then IO.eprintln report
    return exitCode
  | .stopped => return PointScope.Program.stopCode

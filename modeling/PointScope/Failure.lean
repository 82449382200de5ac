import PointScope.Cloud.Csv
import PointScope.Config.Reader
import PointScope.Expr.Error
import PointScope.Frame.Basic

/-!
Failures: everything that can make an operation on files, clouds or frames end without a result,
and how a failure is reported together with what was attempted and what caused it.
-/

namespace PointScope

inductive FileFault where
  | notFound
  | notDirectory
  | isDirectory
  | notText
  | system (text : String)
deriving DecidableEq, Repr

def FileFault.message : FileFault → String
  | notFound => "No such file or directory (os error 2)"
  | notDirectory => "Not a directory (os error 20)"
  | isDirectory => "Is a directory (os error 21)"
  | notText => "stream did not contain valid UTF-8"
  | system text => text

inductive Failure where
  | file (fault : FileFault)
  | emptySize (size : EmptySize)
  | expression (cause : Expr.Error)
  | csv (line : Nat) (fault : Csv.Fault)
  | sampling (fault : GridFault)
  | config (fault : Config.Fault)
  | noConfig (path : String)

namespace Failure

def ofCsv : Csv.Error → Failure
  | .notText => .file .notText
  | .format line fault => .csv line fault

def message : Failure → String
  | file fault => s!"I/O error: {fault.message}"
  | emptySize size => size.message
  | expression cause => s!"Expression error: {cause.message}"
  | csv line fault => s!"CSV format error at line {line}: {fault.message}"
  | sampling fault => fault.report
  | config fault => s!"configuration error at line {fault.line}: {fault.message}"
  | noConfig path => s!"configuration file not found: {path}"

/-- What the failure was caused by, if that has a wording of its own. -/
def causes : Failure → List String
  | file fault => [fault.message]
  | expression cause => [cause.message]
  | _ => []

end Failure

/-- A failure and what was attempted, as far as that is worth saying. -/
structure Report where
  attempt : Option String := none
  failure : Failure

namespace Report

def linesOf (text : String) : List String := text.splitOn "\n"

/-- A cause, which is numbered if there are several. Its further lines are indented alike. -/
def causeText (number : Option Nat) (text : String) : String :=
  let first :=
    match number with
    | some n => String.ofList (List.replicate (5 - (toString n).length) ' ') ++ toString n ++ ": "
    | none => "    "
  let indent := if number.isSome then "       " else "    "
  first ++ ("\n" ++ indent).intercalate (linesOf text)

/-- The report: the attempt and below it the failure and its causes, or without an attempt the
failure and below it its causes. -/
def text (r : Report) : String :=
  let chain := r.attempt.toList ++ r.failure.message :: r.failure.causes
  match chain with
  | [] => ""
  | head :: causes =>
    let below :=
      match causes with
      | [] => []
      | [cause] => [causeText none cause]
      | _ => causes.zipIdx.map fun (cause, n) => causeText (some n) cause
    if below.isEmpty then s!"Error: {head}"
    else "\n".intercalate (s!"Error: {head}" :: "" :: "Caused by:" :: below)

end Report

end PointScope

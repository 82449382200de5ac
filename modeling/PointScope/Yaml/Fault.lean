import PointScope.Yaml.Source

/-!
Why a text is not a YAML document, and on which line.
-/

namespace PointScope.Yaml

inductive Problem where
  | controlCharacter
  | strayCharacter
  | missingColon
  | entryNotAllowed
  | keyNotAllowed
  | valueNotAllowed
  | colonInFlow
  | tabIndentation
  | unclosedQuote
  | documentMarkInQuote
  | unknownEscape
  | badEscapeCode
  | blockIndicator
  | nameExpected
  | tagExpected
  | directive
  | duplicateDirective
  | version
  | documentStartExpected
  | undefinedTagHandle
  | contentExpected
  | entryExpected
  | keyExpected
  | sequenceEndExpected
  | mappingEndExpected
  | unknownAnchor
deriving DecidableEq, Repr

def Problem.message : Problem → String
  | controlCharacter => "control characters are not allowed"
  | strayCharacter => "found character that cannot start any token"
  | missingColon => "could not find expected ':'"
  | entryNotAllowed => "block sequence entries are not allowed in this context"
  | keyNotAllowed => "mapping keys are not allowed in this context"
  | valueNotAllowed => "mapping values are not allowed in this context"
  | colonInFlow => "found unexpected ':'"
  | tabIndentation => "found a tab character that violates indentation"
  | unclosedQuote => "found unexpected end of stream"
  | documentMarkInQuote => "found unexpected document indicator"
  | unknownEscape => "found unknown escape character"
  | badEscapeCode => "found invalid character escape code"
  | blockIndicator => "found invalid block scalar indicator"
  | nameExpected => "did not find expected alphabetic or numeric character"
  | tagExpected => "did not find expected tag"
  | directive => "found invalid directive"
  | duplicateDirective => "found duplicate directive"
  | version => "found incompatible YAML document"
  | documentStartExpected => "did not find expected <document start>"
  | undefinedTagHandle => "found undefined tag handle"
  | contentExpected => "did not find expected node content"
  | entryExpected => "did not find expected '-' indicator"
  | keyExpected => "did not find expected key"
  | sequenceEndExpected => "did not find expected ',' or ']'"
  | mappingEndExpected => "did not find expected ',' or '\x7d'"
  | unknownAnchor => "unknown anchor"

/-- A problem and the line it was found on, counted from one. -/
structure Fault where
  line : Nat
  problem : Problem
deriving DecidableEq, Repr

def Cursor.fault (c : Cursor) (problem : Problem) : Fault := ⟨c.line, problem⟩

end PointScope.Yaml

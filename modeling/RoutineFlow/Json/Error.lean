import RoutineFlow.Cause
import RoutineFlow.Text.Position

namespace RoutineFlow

namespace Json

inductive Problem where
  | expectedValue
  | expectedName
  | expectedColon
  | expectedComma
  | unterminatedText
  | controlCharacter
  | badEscape
  | badUnicodeEscape
  | extraData
  | byteOrderMark
  deriving DecidableEq, Repr

def Problem.message : Problem → String
  | .expectedValue => "Expecting value"
  | .expectedName => "Expecting property name enclosed in double quotes"
  | .expectedColon => "Expecting ':' delimiter"
  | .expectedComma => "Expecting ',' delimiter"
  | .unterminatedText => "Unterminated string starting at"
  | .controlCharacter => "Invalid control character at"
  | .badEscape => "Invalid \\escape"
  | .badUnicodeEscape => "Invalid \\uXXXX escape"
  | .extraData => "Extra data"
  | .byteOrderMark => "Unexpected UTF-8 BOM (decode using utf-8-sig)"

/-- A document could not be read: a fault of its text, or a number that cannot be held. -/
inductive Error where
  | malformed (problem : Problem) (position : Text.Position)
  | failed (cause : Cause)

def Error.message : Error → String
  | .malformed problem p => problem.message ++ s!": line {p.line} column {p.column} (char {p.offset})"
  | .failed cause => cause.message

end Json

end RoutineFlow

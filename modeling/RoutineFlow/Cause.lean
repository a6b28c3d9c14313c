import RoutineFlow.Kind
import RoutineFlow.Text.Quote

namespace RoutineFlow

/-- The arguments that a function takes: the required ones by name, then some more. -/
structure Signature where
  name : String
  required : List String
  optional : Nat

/-- Integers are read and written with at most this many digits. -/
def digitLimit : Nat := 4300

/-- Why an operation on values has no result. -/
inductive Cause where
  | noSum (left right : Kind)
  | listAppend (right : Kind)
  | unordered (symbol : String) (left right : Kind)
  | notNumeric (kind : Kind)
  | badNumeral (text : String)
  | badInteger (text : String)
  | integerFrom (kind : Kind)
  | doubleFrom (kind : Kind)
  | notFinite (text : String)
  | unwritableInteger
  | unreadableInteger (digits : Nat)
  | integerOfNotNumber
  | integerOfInfinity
  | roundedTooLarge
  | integerTooLarge
  | missingArguments (signature : Signature) (given : Nat)
  | extraArguments (signature : Signature) (given : Nat)
  | oneArgument (name : String) (given : Nat)
  | noLength (kind : Kind)
  | emptyChoice (name : String)
  | noMember (kind : Kind) (member : String)
  | badSeparator (kind : Kind)
  | notIterable (kind : Kind)
  | notContainer (kind : Kind)
  | unhashable (kind : Kind)
  | notText (kind : Kind)
  | notName (kind : Kind)
  | notPart (kind : Kind)
  | badPlace (place : Kind)
  | textPlace
  | outOfRange
  | notPair (index : Nat)
  | pairLength (index length : Nat)
  | unwritableDouble (text : Option String)
  | notParsable
  | noBlockMember (member : String)
  | undecodable (problem : String)
  | unencodable (problem : String)
  | nullByte
  | noHome

inductive Cause.Class where
  | type
  | value
  | overflow
  | member
  | index
  | runtime
  deriving DecidableEq, Repr

def Cause.Class.name : Cause.Class → String
  | .type => "TypeError"
  | .value => "ValueError"
  | .overflow => "OverflowError"
  | .member => "AttributeError"
  | .index => "IndexError"
  | .runtime => "RuntimeError"

namespace Cause

def kindOf : Cause → Class
  | badNumeral _ | badInteger _ | notFinite _ | unwritableInteger | unreadableInteger _
  | integerOfNotNumber | emptyChoice _ | pairLength _ _ | unwritableDouble _
  | undecodable _ | unencodable _ | nullByte => .value
  | integerOfInfinity | roundedTooLarge | integerTooLarge => .overflow
  | noMember _ _ | notParsable | noBlockMember _ => .member
  | outOfRange => .index
  | noHome => .runtime
  | _ => .type

def name : Cause → String
  | undecodable _ => "UnicodeDecodeError"
  | unencodable _ => "UnicodeEncodeError"
  | cause => cause.kindOf.name

def quoted (s : String) : String :=
  String.ofList (Text.quote s.toList)

/-- The first two hundred characters of a text as it is quoted. -/
def shortQuoted (s : String) : String :=
  String.ofList ((Text.quote s.toList).take 200)

def missingNames : List String → String
  | [] => ""
  | [a] => s!"'{a}'"
  | [a, b] => s!"'{a}' and '{b}'"
  | a :: rest => s!"'{a}', " ++ missingNames rest

def arguments (count : Nat) : String :=
  if count = 1 then "argument" else "arguments"

def digitLimitText : String :=
  s!"Exceeds the limit ({digitLimit} digits) for integer string conversion"

def raiseLimitText : String :=
  "; use sys.set_int_max_str_digits() to increase the limit"

def message : Cause → String
  | noSum left right => s!"unsupported operand type(s) for +: '{left.name}' and '{right.name}'"
  | listAppend right => s!"can only concatenate list (not \"" ++ right.name ++ "\") to list"
  | unordered symbol left right =>
    s!"'{symbol}' not supported between instances of '{left.name}' and '{right.name}'"
  | notNumeric kind => s!"cannot convert {kind.name} to number"
  | badNumeral text => "could not convert string to float: " ++ quoted text
  | badInteger text => "invalid literal for int() with base 10: " ++ shortQuoted text
  | integerFrom kind => "int() argument must be a string, a bytes-like object or a real number, " ++
      s!"not '{kind.name}'"
  | doubleFrom kind => s!"float() argument must be a string or a real number, not '{kind.name}'"
  | notFinite text => "not a finite number: " ++ quoted text
  | unwritableInteger => digitLimitText ++ raiseLimitText
  | unreadableInteger digits => digitLimitText ++ s!": value has {digits} digits" ++ raiseLimitText
  | integerOfNotNumber => "cannot convert float NaN to integer"
  | integerOfInfinity => "cannot convert float infinity to integer"
  | roundedTooLarge => "rounded value too large to represent"
  | integerTooLarge => "int too large to convert to float"
  | missingArguments f given =>
    let missing := f.required.drop given
    s!"{f.name}() missing {missing.length} required positional {arguments missing.length}: " ++
      missingNames missing
  | extraArguments f given =>
    let least := f.required.length
    let range := if f.optional = 0 then s!"{least}" else s!"from {least} to {least + f.optional}"
    s!"{f.name}() takes {range} positional {arguments (least + f.optional)} but {given} were given"
  | oneArgument name given => s!"{name}() takes exactly one argument ({given} given)"
  | noLength kind => s!"object of type '{kind.name}' has no len()"
  | emptyChoice name => s!"{name}() arg is an empty sequence"
  | noMember kind member => s!"'{kind.name}' object has no attribute '{member}'"
  | badSeparator kind => s!"must be str or None, not {kind.name}"
  | notIterable kind => s!"'{kind.name}' object is not iterable"
  | notContainer kind => s!"argument of type '{kind.name}' is not iterable"
  | unhashable kind => s!"unhashable type: '{kind.name}'"
  | notText kind => s!"expected string or bytes-like object, got '{kind.name}'"
  | notName kind => s!"attribute name must be string, not '{kind.name}'"
  | notPart kind => s!"'in <string>' requires string as left operand, not {kind.name}"
  | badPlace place => s!"list indices must be integers or slices, not {place.name}"
  | textPlace => "string indices must be integers, not 'str'"
  | outOfRange => "list index out of range"
  | notPair index => s!"cannot convert dictionary update sequence element #{index} to a sequence"
  | pairLength index length =>
    s!"dictionary update sequence element #{index} has length {length}; 2 is required"
  | unwritableDouble text => "Out of range float values are not JSON compliant" ++ match text with
    | some text => ": " ++ text
    | none => ""
  | notParsable => "'NoneType' object has no attribute 'char_pos'"
  | noBlockMember member => s!"'types.SimpleNamespace' object has no attribute '{member}'"
  | undecodable problem => problem
  | unencodable problem => problem
  | nullByte => "embedded null byte"
  | noHome => "Could not determine home directory."

end Cause

end RoutineFlow

import RoutineFlow.Text.Case
import RoutineFlow.Text.Split
import RoutineFlow.Value.Order
import RoutineFlow.Value.Text

namespace RoutineFlow

inductive Builtin where
  | len
  | str
  | number
  | int
  | round
  | abs
  | min
  | max
  | upper
  | lower
  | trim
  | split
  | join
  | contains
  | keys
  deriving DecidableEq, Repr

namespace Builtin

def all : List Builtin :=
  [.len, .str, .number, .int, .round, .abs, .min, .max, .upper, .lower, .trim, .split, .join,
    .contains, .keys]

def name : Builtin → String
  | .len => "len"
  | .str => "str"
  | .number => "number"
  | .int => "int"
  | .round => "round"
  | .abs => "abs"
  | .min => "min"
  | .max => "max"
  | .upper => "upper"
  | .lower => "lower"
  | .trim => "trim"
  | .split => "split"
  | .join => "join"
  | .contains => "contains"
  | .keys => "keys"

def ofName? (s : String) : Option Builtin :=
  all.find? (·.name == s)

/-- The arguments of the functions that take a fixed range of them. -/
def signature? : Builtin → Option Signature
  | .len | .min | .max => none
  | .str => some ⟨"to_text", ["value"], 0⟩
  | .number => some ⟨"_to_number", ["value"], 0⟩
  | .int | .abs => some ⟨"<lambda>", ["value"], 0⟩
  | .round => some ⟨"_round", ["value"], 1⟩
  | .upper | .lower | .trim => some ⟨"<lambda>", ["text"], 0⟩
  | .split => some ⟨"_split", ["text"], 1⟩
  | .join => some ⟨"_join", ["items"], 1⟩
  | .contains => some ⟨"_contains", ["container", "item"], 0⟩
  | .keys => some ⟨"<lambda>", ["mapping"], 0⟩

def checkCount (s : Signature) (given : Nat) : Except Cause Unit :=
  if given < s.required.length then .error (.missingArguments s given)
  else if given > s.required.length + s.optional then .error (.extraArguments s given)
  else .ok ()

def lengthOf : Value → Except Cause Value
  | .str s => .ok (.int s.toList.length)
  | .list items => .ok (.int items.length)
  | .map entries => .ok (.int entries.length)
  | v => .error (.noLength v.kind)

/-- The argument that comes first in the order; of equal ones the earliest. -/
def choose (c : Comparison) (best : Value) : List Value → Except Cause Value
  | [] => .ok best
  | v :: rest => do
    if ← Value.ordered c v best then choose c v rest else choose c best rest

def chooseAll (c : Comparison) (name : String) : List Value → Except Cause Value
  | [] => .error (.emptyChoice name)
  | v :: rest => choose c v rest

/-- A single list stands for its members. -/
def candidates : List Value → List Value
  | [.list items] => items
  | values => values

def mapText (f : List Char → List Char) (v : Value) : Except Cause Value :=
  (Value.textChars v).map fun cs => .str (String.ofList (f cs))

def pieces (parts : List (List Char)) : Value :=
  .list (parts.map fun part => .str (String.ofList part))

/-- Cuts at the separator; an empty separator stands for runs of blanks. -/
def splitText (v separator : Value) : Except Cause Value :=
  match v with
  | .str s =>
    if separator.isEmpty then .ok (pieces (Text.words s.toList))
    else match separator with
      | .str sep => .ok (pieces (Text.split sep.toList s.toList))
      | other => .error (.badSeparator other.kind)
  | other => .error (.noMember other.kind "split")

/-- What a value consists of when it is gone through: members, characters or keys. -/
def members (v : Value) : Except Cause (List Value) :=
  match v with
  | .list items => .ok items
  | .str s => .ok (s.toList.map fun c => .str (String.singleton c))
  | .map entries => .ok ((Mapping.keys entries).map .ofKey)
  | other => .error (.notIterable other.kind)

def joinTexts (v separator : Value) : Except Cause Value :=
  match separator with
  | .str sep => do
    let texts ← Value.textItems (← members v)
    return .str (String.ofList (Text.join sep.toList texts))
  | other => .error (.noMember other.kind "join")

def containsItem (container item : Value) : Except Cause Value :=
  match container with
  | .str s => do return .bool (Text.occurs (← Value.textChars item) s.toList)
  | .list items => .ok (.bool (items.any fun x => Value.same x item))
  | .map entries => do return .bool (Mapping.has entries (← item.toKey))
  | other => .error (.notContainer other.kind)

def keysOf : Value → Except Cause Value
  | .map entries => .ok (.list ((Mapping.keys entries).map .ofKey))
  | v => .error (.noMember v.kind "keys")

def roundTo (v places : Value) : Except Cause Value := do
  let n ← v.toNumber
  let digits ← (← places.toNumber).truncate
  return .num (← n.round digits)

def run (f : Builtin) (args : List Value) : Except Cause Value :=
  match f, args with
  | .len, [v] => lengthOf v
  | .len, _ => .error (.oneArgument "len" args.length)
  | .str, [v] => (Value.toText v).map .str
  | .number, [v] => v.toNumber.map .num
  | .int, [v] => do return .int (← (← v.toNumber).truncate)
  | .round, [v] => roundTo v (.int 0)
  | .round, [v, places] => roundTo v places
  | .abs, [v] => do return .num (← v.toNumber).absolute
  | .min, _ => chooseAll .lt "min" (candidates args)
  | .max, _ => chooseAll .gt "max" (candidates args)
  | .upper, [v] => mapText Text.upper v
  | .lower, [v] => mapText Text.lower v
  | .trim, [v] => mapText Text.trim v
  | .split, [v] => splitText v .null
  | .split, [v, separator] => splitText v separator
  | .join, [v] => joinTexts v (.str ",")
  | .join, [v, separator] => joinTexts v separator
  | .contains, [container, item] => containsItem container item
  | .keys, [v] => keysOf v
  | _, _ => .ok .null

def call (f : Builtin) (args : List Value) : Except Cause Value := do
  if let some s := f.signature? then checkCount s args.length
  run f args

end Builtin

end RoutineFlow

import RoutineFlow.Files.Folder

/-!
Bytes that are no text, in the words of their decoder: it stops at the first sequence that stands for no character.
-/

namespace RoutineFlow.Content

/-- How many bytes belong behind a leading byte, and the bounds of the first of them. -/
def following? (lead : Nat) : Option (Nat × Nat × Nat) :=
  if lead < 0x80 then some (0, 0x80, 0xBF)
  else if lead < 0xC2 then none
  else if lead < 0xE0 then some (1, 0x80, 0xBF)
  else if lead = 0xE0 then some (2, 0xA0, 0xBF)
  else if lead = 0xED then some (2, 0x80, 0x9F)
  else if lead < 0xF0 then some (2, 0x80, 0xBF)
  else if lead = 0xF0 then some (3, 0x90, 0xBF)
  else if lead < 0xF4 then some (3, 0x80, 0xBF)
  else if lead = 0xF4 then some (3, 0x80, 0x8F)
  else none

/-- How many bytes stand in a row, up to a number of them, each within its bounds. -/
def inRow : Nat → Nat → Nat → List Nat → Nat
  | count + 1, low, high, byte :: rest =>
    if low ≤ byte ∧ byte ≤ high then 1 + inRow count 0x80 0xBF rest else 0
  | _, _, _, _ => 0

def problemText (place size lead : Nat) (reason : String) : String :=
  "'utf-8' codec can't decode " ++ (if size = 1 then
    s!"byte 0x{String.ofList (Text.hexDigits 2 lead)} in position {place}: "
    else s!"bytes in position {place}-{place + size - 1}: ") ++ reason

def problem (place : Nat) : List Nat → String
  | [] => ""
  | lead :: rest =>
    match following? lead with
    | none => problemText place 1 lead "invalid start byte"
    | some (count, low, high) =>
      let found := inRow count low high rest
      if found = count then problem (place + 1 + count) (rest.drop count)
      else if found = rest.length then problemText place (1 + found) lead "unexpected end of data"
      else problemText place (1 + found) lead "invalid continuation byte"
termination_by bytes => bytes.length
decreasing_by
  simp only [List.length_drop, List.length_cons]
  omega

def ofBytes (bytes : ByteArray) : Content :=
  match String.fromUTF8? bytes with
  | some s => .text s
  | none => .undecodable (problem 0 (bytes.data.toList.map UInt8.toNat))

end RoutineFlow.Content

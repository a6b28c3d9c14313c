import RoutineFlow.Cause

namespace RoutineFlow

/-- What characters are written as: its name, the characters that it has, and what is said of all others. -/
structure Encoding where
  name : String
  has : Char → Bool
  lack : String

namespace Encoding

def utf8 : Encoding := ⟨"utf-8", fun _ => true, "surrogates not allowed"⟩

def ascii : Encoding := ⟨"ascii", fun c => decide (c.toNat < 128), "ordinal not in range(128)"⟩

def spelled (c : Char) : List Char :=
  if c.toNat < 0x100 then '\\' :: 'x' :: Text.hexDigits 2 c.toNat
  else if c.toNat < 0x10000 then '\\' :: 'u' :: Text.hexDigits 4 c.toNat
  else '\\' :: 'U' :: Text.hexDigits 8 c.toNat

def problem (e : Encoding) (place : Nat) (row : List Char) : String :=
  s!"'{e.name}' codec can't encode " ++ (match row with
    | [c] => s!"character '{String.ofList (spelled c)}' in position {place}: "
    | _ => s!"characters in position {place}-{place + row.length - 1}: ") ++ e.lack

/-- Whether a text can be written; else it fails at the first characters that cannot. -/
def check (e : Encoding) (text : String) : Except Cause Unit :=
  let rest := text.toList.dropWhile e.has
  if rest.isEmpty then .ok ()
  else .error (.unencodable (e.problem (text.length - rest.length) (rest.takeWhile fun c => !e.has c)))

end Encoding

end RoutineFlow

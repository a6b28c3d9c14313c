import RoutineFlow.Text.Blank

namespace RoutineFlow.Text

/-- Cuts at the separator, leftmost first and without overlap; `skip` counts the characters of a
separator still to be passed. -/
def splitFrom (separator : List Char) : Nat → List Char → List (List Char)
  | _, [] => [[]]
  | skip + 1, _ :: cs => splitFrom separator skip cs
  | 0, c :: cs =>
    if separator.isPrefixOf (c :: cs) then [] :: splitFrom separator (separator.length - 1) cs
    else extendHead c (splitFrom separator 0 cs)

/-- The pieces of a text between the occurrences of a non-empty separator. -/
def split (separator cs : List Char) : List (List Char) :=
  splitFrom separator 0 cs

def join (separator : List Char) : List (List Char) → List Char
  | [] => []
  | [piece] => piece
  | piece :: rest => piece ++ separator ++ join separator rest

/-- Whether `part` stands somewhere in the text. -/
def occurs (part : List Char) : List Char → Bool
  | [] => part.isEmpty
  | c :: cs => part.isPrefixOf (c :: cs) || occurs part cs

/-- The text before and after the first `mark`, if there is one. -/
def cutAt (mark : Char) : List Char → Option (List Char × List Char)
  | [] => none
  | c :: cs => if c = mark then some ([], cs) else (cutAt mark cs).map fun (a, b) => (c :: a, b)

end RoutineFlow.Text

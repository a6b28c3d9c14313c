namespace RoutineFlow.Text

/-- A place in a text: characters before it, and line and column from one. Only a line feed ends a line. -/
structure Position where
  offset : Nat
  line : Nat
  column : Nat
  deriving DecidableEq, Repr

namespace Position

def start : Position := ⟨0, 1, 1⟩

def next (p : Position) (c : Char) : Position :=
  if c = '\n' then ⟨p.offset + 1, p.line + 1, 1⟩ else ⟨p.offset + 1, p.line, p.column + 1⟩

/-- The place behind some text that stands at a place. -/
def advance (p : Position) (cs : List Char) : Position :=
  cs.foldl next p

end Position

end RoutineFlow.Text

namespace RoutineFlow.Text

/-- Blank characters: white space of any script, line and paragraph separators, and the
information separators U+001C to U+001F. -/
def isBlank (c : Char) : Bool :=
  let n := c.toNat
  (9 ≤ n && n ≤ 13) || (28 ≤ n && n ≤ 32) || n == 0x85 || n == 0xA0 || n == 0x1680 ||
    (0x2000 ≤ n && n ≤ 0x200A) || n == 0x2028 || n == 0x2029 || n == 0x202F || n == 0x205F ||
    n == 0x3000

def trimLeft (cs : List Char) : List Char :=
  cs.dropWhile isBlank

def trim (cs : List Char) : List Char :=
  (trimLeft (trimLeft cs).reverse).reverse

/-- Adds a character in front of the first piece of a split text. -/
def extendHead (c : Char) : List (List Char) → List (List Char)
  | [] => [[c]]
  | piece :: rest => (c :: piece) :: rest

/-- The runs between blanks, the outer ones possibly empty. -/
def runs : List Char → List (List Char)
  | [] => [[]]
  | c :: cs => if isBlank c then [] :: runs cs else extendHead c (runs cs)

/-- The words of a text: its longest runs without a blank. -/
def words (cs : List Char) : List (List Char) :=
  (runs cs).filter fun run => !run.isEmpty

end RoutineFlow.Text

import RoutineFlow.Text.Quote
import RoutineFlow.Text.Split

namespace RoutineFlow

/-- A path: the slashes that it starts with, and the names to follow one after the other. -/
structure Path where
  root : String
  names : List String
  deriving DecidableEq, Repr

namespace Path

/-- One slash or more than two stand for the root; just two have a meaning of their own. -/
def rootOf (cs : List Char) : String :=
  match (cs.takeWhile (· == '/')).length with
  | 0 => ""
  | 2 => "//"
  | _ => "/"

/-- Empty names and single dots lead nowhere. -/
def ofText (s : String) : Path :=
  let names := (Text.split ['/'] s.toList).filter fun name => !name.isEmpty && name != ['.']
  ⟨rootOf s.toList, names.map String.ofList⟩

/-- The shortest spelling of a path; a dot for where one is. -/
def text (p : Path) : String :=
  if p.root.isEmpty && p.names.isEmpty then "." else p.root ++ "/".intercalate p.names

def quoted (p : Path) : String :=
  String.ofList (Text.quote p.text.toList)

def hasNull (p : Path) : Bool :=
  p.names.any fun name => name.toList.contains '\x00'

def append (p : Path) (names : List String) : Path :=
  { p with names := p.names ++ names }

/-- Leaves out each name that is followed by a step back; at the root no step leads back. -/
def straightNames (rooted : Bool) : List String → List String → List String
  | trail, [] => trail.reverse
  | [], name :: rest =>
    straightNames rooted (if rooted && name == ".." then [] else [name]) rest
  | last :: trail, name :: rest =>
    if name = ".." ∧ last ≠ ".." then straightNames rooted trail rest
    else straightNames rooted (name :: last :: trail) rest

def straighten (p : Path) : Path :=
  { p with names := straightNames (!p.root.isEmpty) [] p.names }

end Path

end RoutineFlow

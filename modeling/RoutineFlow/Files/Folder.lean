import RoutineFlow.Files.Encoding
import RoutineFlow.Files.Path
import RoutineFlow.Mapping
import RoutineFlow.Text.Lines

/-!
The files that a command reads and writes, as a value. Paths lead through directories, and what is
wrong with a path is found at the first name that leads nowhere.
-/

namespace RoutineFlow

/-- Bytes as they are read: a text, or what their decoder says where they are none. -/
inductive Content where
  | text (s : String)
  | undecodable (problem : String)
  deriving DecidableEq, Repr

def Content.unifyLineEnds : Content → Content
  | text s => .text (String.ofList (Text.unifyLineEnds s.toList))
  | undecodable problem => .undecodable problem

def Content.decoded : Content → Except Cause String
  | text s => .ok s
  | undecodable problem => .error (.undecodable problem)

inductive Node where
  | file (content : Content)
  | directory
  deriving DecidableEq, Repr

structure FileFault where
  number : Nat
  words : String
  deriving DecidableEq, Repr

namespace FileFault

def missing : FileFault := ⟨2, "No such file or directory"⟩

def denied : FileFault := ⟨13, "Permission denied"⟩

def notDirectory : FileFault := ⟨20, "Not a directory"⟩

def isDirectory : FileFault := ⟨21, "Is a directory"⟩

def name (f : FileFault) : String :=
  match f.number with
  | 2 => "FileNotFoundError"
  | 1 | 13 => "PermissionError"
  | 20 => "NotADirectoryError"
  | 21 => "IsADirectoryError"
  | _ => "OSError"

def message (f : FileFault) (p : Path) : String :=
  s!"[Errno {f.number}] {f.words}: " ++ p.quoted

/-- Faults that only mean that no file is there. -/
def isAbsence (f : FileFault) : Bool :=
  [2, 9, 20, 40].contains f.number

end FileFault

/-- Why a file is not read or written: by the system, or for a path or a text that is no fit. -/
inductive FileFailure where
  | system (fault : FileFault)
  | value (cause : Cause)

inductive Access where
  | look
  | read
  | write
  deriving DecidableEq, Repr

/-- The files and directories around the place where one is, by the texts of their paths; what the system refuses
at them; and the encoding of the files. -/
structure Folder where
  nodes : Mapping String Node
  refuses : Access → String → Option FileFault := fun _ _ => none
  encoding : Encoding := .utf8

namespace Folder

/-- One is always in a directory, as are the places above and the root. -/
def isBase (p : Path) : Bool :=
  p.names.all (· == "..")

def node? (d : Folder) (p : Path) : Option Node :=
  if isBase p then some .directory else Mapping.get? d.nodes p.text

def step (p : Path) (name : String) : Path :=
  if name = ".." ∧ !isBase p then { p with names := p.names.dropLast }
  else if name = ".." ∧ !p.root.isEmpty then p
  else p.append [name]

/-- Follows names from a place; each but the last has to lead to a directory. -/
def follow (d : Folder) : Path → List String → Except FileFault Path
  | place, [] => .ok place
  | place, name :: rest =>
    match d.node? place with
    | some .directory => match d.refuses .look (step place name).text with
      | some fault => .error fault
      | none => follow d (step place name) rest
    | some (.file _) => .error .notDirectory
    | none => .error .missing

def place (d : Folder) (p : Path) : Except FileFault Path :=
  d.follow ⟨p.root, []⟩ p.names

/-- Whether a path leads to a file; an error of the system may keep one from knowing. -/
def isFile (d : Folder) (p : Path) : Except FileFault Bool :=
  if p.hasNull then .ok false
  else match d.place p with
    | .error fault => if fault.isAbsence then .ok false else .error fault
    | .ok place => match d.node? place with
      | some (.file _) => .ok true
      | _ => .ok false

def content (d : Folder) (p : Path) : Except FileFailure Content :=
  if p.hasNull then .error (.value .nullByte)
  else match d.place p with
    | .error fault => .error (.system fault)
    | .ok place => match d.node? place, d.refuses .read place.text with
      | none, _ => .error (.system .missing)
      | some _, some fault => .error (.system fault)
      | some .directory, none => .error (.system .isDirectory)
      | some (.file content), none => .ok content

def read (d : Folder) (p : Path) : Except FileFailure String := do
  let content ← d.content p
  (content.unifyLineEnds.decoded).mapError .value

def target (d : Folder) (p : Path) : Except FileFailure Path :=
  if p.hasNull then .error (.value .nullByte)
  else match d.place p with
    | .error fault => .error (.system fault)
    | .ok place =>
      if d.node? place = some .directory then .error (.system .isDirectory)
      else match d.refuses .write place.text with
        | some fault => .error (.system fault)
        | none => .ok place

def setFile (d : Folder) (place : Path) (text : String) : Folder :=
  { d with nodes := Mapping.insert d.nodes place.text (.file (.text text)) }

def write (d : Folder) (p : Path) (text : String) : Except FileFailure Folder := do
  let place ← d.target p
  (d.encoding.check text).mapError .value
  return d.setFile place text

def touch (d : Folder) (p : Path) : Except FileFailure Folder := do
  let place ← d.target p
  return if (d.node? place).isSome then d else d.setFile place ""

/-- The paths to the named directories that a place stands in, outermost first. -/
def parents (p : Path) : List Path :=
  ((List.range p.names.length).drop 1).map fun n => { p with names := p.names.take n }

def put (d : Folder) (p : Path) (text : String) : Folder :=
  let around := (parents p).map fun parent => (parent.text, Node.directory)
  { d with nodes := Mapping.insert (Mapping.merge d.nodes around) p.text (.file (.text text)) }

def ofFiles (files : Mapping String String) : Folder :=
  files.foldl (fun d (name, text) => d.put (Path.ofText name) text) { nodes := [] }

def files (d : Folder) : Mapping String String :=
  d.nodes.filterMap fun (name, node) => match node with
    | .file (.text text) => some (name, text)
    | _ => none

/-- The files of the second folder that the first does not have with that text. -/
def changes (before after : Folder) : Mapping String String :=
  after.files.filter fun (name, text) => Mapping.get? before.nodes name != some (.file (.text text))

end Folder

end RoutineFlow

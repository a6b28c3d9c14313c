import RoutineFlow.CommandLine.Flag
import RoutineFlow.Number.Basic
import RoutineFlow.Text.Split

/-!
Arguments are first told apart one by one, as flags and plain texts, and then read from left to
right. Unclear spellings are therefore refused before anything else.
-/

namespace RoutineFlow.CommandLine

structure Arguments where
  program : Option String := none
  inputs : Option String := none
  inputsJson : Option String := none
  output : Option String := none
  telemetry : Option String := none
  config : Option String := none
  logFile : Option String := none
  logLevel : Option String := some "WARNING"
  joinWorkers : Option Int := none
  compact : Bool := false
  noValidate : Bool := false
  simulate : Bool := false
  checkExpressions : Bool := false

inductive Stop where
  | help
  | refused (why : Refusal)

abbrev Setting := Flag × Option String

/-- A flag as an argument mentions it: behind one dash or two, and perhaps with a value attached. -/
structure Mention where
  flag : Flag
  short : Bool
  attached : Option String

/-- What a single argument is. Behind the divider all arguments are plain. -/
inductive Item where
  | plain (text : String)
  | divider
  | mention (m : Mention)
  | unknown (text : String)

/-- Whether a text starts with a minus and goes on as a decimal number; a line feed may follow. -/
def isNegativeNumber (cs : List Char) : Bool :=
  let digits (part : List Char) := !part.isEmpty && part.all fun c => (Text.digit? c).isSome
  match cs with
  | '-' :: cs =>
    let cs := if cs.getLast? = some '\n' then cs.dropLast else cs
    digits cs || match Text.cutAt '.' cs with
      | some (whole, fraction) => (whole.isEmpty || digits whole) && digits fraction
      | none => false
  | _ => false

/-- The flags that an argument may stand for, with the spellings meant: the start of a long spelling
suffices, and behind a short one the value may follow at once. -/
def candidates (c : Command) (cs : List Char) : List (String × Mention) :=
  match cs with
  | '-' :: '-' :: _ =>
    let (start, attached) := match Text.cutAt '=' cs with
      | some (start, value) => (start, some (String.ofList value))
      | none => (cs, none)
    c.vocabulary.filterMap fun (spelling, flag) =>
      if start.isPrefixOf spelling.toList then some (spelling, ⟨flag, false, attached⟩) else none
  | '-' :: letter :: value =>
    c.vocabulary.filterMap fun (spelling, flag) =>
      if spelling.toList = ['-', letter] then
        some (spelling, ⟨flag, true, some (String.ofList value)⟩)
      else none
  | _ => []

def isShort (spelling : String) : Bool :=
  spelling.length = 2

def spelledOut? (c : Command) (s : String) : Option Mention :=
  match c.vocabulary.lookup s with
  | some flag => some ⟨flag, isShort s, none⟩
  | none => match Text.cutAt '=' s.toList with
    | none => none
    | some (start, value) =>
      let spelling := String.ofList start
      (c.vocabulary.lookup spelling).map fun flag =>
        ⟨flag, isShort spelling, some (String.ofList value)⟩

/-- Arguments with a dash in front mention flags, apart from a lone dash, negative numbers, and what
has a blank and mentions none. -/
def classify (c : Command) (s : String) : Except Refusal Item :=
  let cs := s.toList
  if cs.head? ≠ some '-' ∨ cs = ['-'] then .ok (.plain s)
  else match spelledOut? c s with
    | some m => .ok (.mention m)
    | none => match candidates c cs with
      | [(_, m)] => .ok (.mention m)
      | [] => .ok (if isNegativeNumber cs || cs.contains ' ' then .plain s else .unknown s)
      | several => .error (.ambiguous s (several.map (·.1)))

def classifyAll (c : Command) : List String → Except Refusal (List Item)
  | [] => .ok []
  | s :: rest =>
    if s = "--" then .ok (.divider :: rest.map .plain)
    else do
      let item ← classify c s
      let items ← classifyAll c rest
      return item :: items

structure Row where
  settings : List Setting
  waiting : Option Flag

def Row.add (setting : Setting) (r : Row) : Row :=
  { r with settings := setting :: r.settings }

/-- Short switches may stand in a row behind one dash; a flag that takes a value ends the row. -/
def rowOf (c : Command) (flag : Flag) : List Char → Except Refusal Row
  | [] => .ok (if flag.isSwitch then ⟨[(flag, none)], none⟩ else ⟨[], some flag⟩)
  | letter :: more =>
    if !flag.isSwitch then .ok ⟨[(flag, some (String.ofList (letter :: more)))], none⟩
    else match c.vocabulary.lookup (String.ofList ['-', letter]) with
      | none => .error (.takesNoValue flag (String.ofList (letter :: more)))
      | some next => (rowOf c next more).map (·.add (flag, none))

def Mention.row (c : Command) (m : Mention) : Except Refusal Row :=
  match m.attached with
  | none => rowOf c m.flag []
  | some value =>
    if !m.flag.isSwitch then .ok ⟨[(m.flag, some value)], none⟩
    else if m.short && !value.isEmpty then rowOf c m.flag value.toList
    else .error (.takesNoValue m.flag value)

/-- A lone divider as a value says nothing. -/
def valueOf (given : Option String) : Option String :=
  given.filter (· ≠ "--")

namespace Arguments

def setWorkers (a : Arguments) (given : Option String) : Except Refusal Arguments :=
  match given with
  | none => .ok { a with joinWorkers := none }
  | some text => match Number.integerOfText text with
    | .ok n => .ok { a with joinWorkers := some n }
    | .error _ => .error (.badInteger .joinWorkers text)

def setLevel (a : Arguments) (given : Option String) : Except Refusal Arguments :=
  match given with
  | none => .ok { a with logLevel := none }
  | some level =>
    if logLevels.contains level then .ok { a with logLevel := some level }
    else .error (.badChoice .logLevel level logLevels)

/-- Of several values for a flag the last one counts. -/
def set (a : Arguments) (setting : Setting) : Except Stop Arguments :=
  let given := valueOf setting.2
  match setting.1 with
  | .help => .error .help
  | .inputs => .ok { a with inputs := given }
  | .inputsJson => .ok { a with inputsJson := given }
  | .output => .ok { a with output := given }
  | .telemetry => .ok { a with telemetry := given }
  | .config => .ok { a with config := given }
  | .logFile => .ok { a with logFile := given }
  | .joinWorkers => (a.setWorkers given).mapError .refused
  | .logLevel => (a.setLevel given).mapError .refused
  | .compact => .ok { a with compact := true }
  | .noValidate => .ok { a with noValidate := true }
  | .simulate => .ok { a with simulate := true }
  | .checkExpressions => .ok { a with checkExpressions := true }

end Arguments

/-- Whether the program is still to come, was the last argument read, or came before that. -/
inductive Progress where
  | awaited
  | justRead
  | past
  deriving DecidableEq, Repr

/-- How far arguments are read: settings made, those that wait for a value, and what is left over. -/
structure Reading where
  arguments : Arguments
  waiting : Option (List Setting × Flag)
  progress : Progress
  extras : List String

namespace Reading

def start : Reading := ⟨{}, none, .awaited, []⟩

def pass (r : Reading) : Reading :=
  if r.progress = .justRead then { r with progress := .past } else r

def leave (r : Reading) (text : String) : Reading :=
  { r.pass with extras := r.extras ++ [text] }

def apply (r : Reading) (settings : List Setting) : Except Stop Reading := do
  let arguments ← settings.foldlM Arguments.set r.arguments
  return { r.pass with arguments := arguments, waiting := none }

/-- The first plain argument that is no value is the program; one divider may stand beside it. -/
def next (c : Command) (r : Reading) (item : Item) : Except Stop Reading :=
  match r.waiting, item with
  | some (settings, flag), .plain value => r.apply (settings ++ [(flag, some value)])
  | some (_, flag), _ => .error (.refused (.needsValue flag))
  | none, .mention m => do
    let row ← (m.row c).mapError .refused
    match row.waiting with
    | none => r.apply row.settings
    | some flag => return { r.pass with waiting := some (row.settings, flag) }
  | none, .unknown text => .ok (r.leave text)
  | none, .plain text =>
    .ok (if r.progress = .awaited then
        { r with arguments := { r.arguments with program := some text }, progress := .justRead }
      else r.leave text)
  | none, .divider =>
    .ok (if r.progress = .past then r.leave "--" else r.pass)

def finish (r : Reading) : Except Stop Arguments :=
  match r.waiting with
  | some (_, flag) => .error (.refused (.needsValue flag))
  | none => if r.extras.isEmpty then .ok r.arguments else .error (.refused (.unrecognized r.extras))

end Reading

def Arguments.read (c : Command) (arguments : List String) : Except Stop Arguments := do
  let items ← (classifyAll c arguments).mapError .refused
  let reading ← items.foldlM (Reading.next c) Reading.start
  reading.finish

def commandOf (arguments : List String) : Command × List String :=
  match arguments with
  | "run" :: rest => (.run, rest)
  | "check" :: rest => (.check, rest)
  | all => (.run, all)

end RoutineFlow.CommandLine

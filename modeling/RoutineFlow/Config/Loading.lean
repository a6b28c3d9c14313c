import RoutineFlow.Config.Basic
import RoutineFlow.Files.Folder
import RoutineFlow.Json.Reader

namespace RoutineFlow.Config

def variableNames : List String :=
  ["HOME", "RFL_CONFIG", "RFL_LLM_PROVIDER", "RFL_LLM_MODEL", "RFL_LLM_API_KEY",
    "RFL_LLM_MAX_TOKENS", "RFL_LLM_MAX_RETRIES", "RFL_LLM_TIMEOUT", "RFL_RUNTIME_JOIN_WORKERS",
    "RFL_RUNTIME_TELEMETRY"]

def fileName : String := "rfl.config.json"

/-- A text that is there and not empty. -/
def given (text : Option String) : Option String :=
  text.filter fun s => !s.isEmpty

/-- The directory at home, without the slashes behind it; a tilde in front says that it is not known. Where the variable is
not set, `vars` has for it what the system knows of the user, or nothing if that is not known either. -/
def home (vars : Variables) : Except Cause Path :=
  match (Mapping.get? vars "HOME").map fun home => (home.toList.reverse.dropWhile (· == '/')).reverse with
  | none | some ('~' :: _) => .error .noHome
  | some [] => .ok (Path.ofText "/")
  | some cs => .ok (Path.ofText (String.ofList cs))

/-- Where a configuration may stand: at the path asked for, else at the path that a variable names, else
where one is, in a hidden directory at home, or in the directory for all. -/
def places (vars : Variables) (asked : Option String) : List (Except Cause Path) :=
  match given asked <|> given (Mapping.get? vars "RFL_CONFIG") with
  | some path => [.ok (Path.ofText path)]
  | none =>
    [.ok (Path.ofText fileName), (home vars).map (·.append [".rfl", fileName]),
      .ok ((Path.ofText "/etc/rfl").append [fileName])]

inductive Failure where
  | document (e : Json.Error)
  | file (path : Path) (fault : FileFault)

/-- The first place with a file. Places behind it are not looked at. -/
def firstFile (folder : Folder) : List (Except Cause Path) → Except Failure (Option Path)
  | [] => .ok none
  | place :: rest => do
    let path ← place.mapError fun cause => .document (.failed cause)
    if ← (folder.isFile path).mapError (.file path) then return some path
    else firstFile folder rest

def ofText (text : String) : Except Json.Error Config := do
  let document ← Json.read text
  (ofDocument document).mapError .failed

/-- Reads the first file among the places; where there is none, the variables count. -/
def load (folder : Folder) (vars : Variables) (asked : Option String) : Except Failure Config := do
  match ← firstFile folder (places vars asked) with
  | none => (ofVariables vars).mapError fun cause => .document (.failed cause)
  | some path => match folder.read path with
    | .ok text => (ofText text).mapError .document
    | .error (.system fault) => .error (.file path fault)
    | .error (.value cause) => .error (.document (.failed cause))

end RoutineFlow.Config

import RoutineFlow.CommandLine.Perform
import RoutineFlow.Files.Bytes
import Std.Time

namespace RoutineFlow

open CommandLine (Arguments Surroundings)

namespace Terminal

/-- What the file system has at a path; what it does not let be read is taken for a file. -/
def look (path : String) : IO (Option (Node × Option FileFault)) := do
  match ← (IO.FS.readBinFile path).toBaseIO with
  | .ok bytes => return some (.file (.ofBytes bytes), none)
  | .error (.inappropriateType ..) => return some (.directory, none)
  | .error (.permissionDenied ..) => return some (.file (.text ""), some .denied)
  | .error _ => return none

/-- Adds what the file system has along a path. -/
def observe (folder : Folder) (place : Path) : List String → IO Folder
  | [] => return folder
  | name :: rest => do
    let next := Folder.step place name
    if Folder.isBase next then observe folder next rest
    else match ← look next.text with
      | none => return folder
      | some (node, fault) =>
        let refuses (access : Access) (text : String) :=
          if access = .read ∧ text = next.text then fault else folder.refuses access text
        let nodes := Mapping.insert folder.nodes next.text node
        observe { folder with nodes := nodes, refuses := refuses } next rest

def observeAll : Folder → List Path → IO Folder
  | folder, [] => return folder
  | folder, p :: rest => do observeAll (← observe folder ⟨p.root, []⟩ p.names) rest

def readVariables : List String → IO Variables
  | [] => return []
  | name :: rest => do
    let others ← readVariables rest
    match ← IO.getEnv name with
    | none => return others
    | some value => return (name, value) :: others

/-- The time of day, to the microsecond. -/
def stamp : IO String := do
  let now ← Std.Time.Timestamp.now
  let moment := Std.Time.DateTime.ofTimestamp now Std.Time.TimeZone.ZoneRules.UTC
  return moment.format "uuuu-MM-dd'T'HH:mm:ss.SSSSSSxxx"

/-- Gathers what the arguments need. An assistant that is asked from here does not answer. -/
def surroundings (arguments : List String) : IO Surroundings := do
  let vars ← readVariables Config.variableNames
  let (command, rest) := CommandLine.commandOf arguments
  match Arguments.read command rest with
  | .error _ => return { folder := { nodes := [] }, vars, input := .text "", client := none, stamp := "" }
  | .ok a =>
    let folder ← observeAll { nodes := [] } (CommandLine.paths vars a)
    let bytes ← if (Config.given a.program).isSome then pure .empty else (← IO.getStdin).readBinToEnd
    return { folder, vars, input := (Content.ofBytes bytes).unifyLineEnds, client := some .unreachable,
             stamp := ← stamp }

def writeAll : List (String × String) → IO Unit
  | [] => return ()
  | (path, text) :: rest => do
    IO.FS.writeFile path text
    writeAll rest

end Terminal

end RoutineFlow

open RoutineFlow in
/-- Runs or checks a program as the arguments say. -/
def main (arguments : List String) : IO UInt32 := do
  let s ← Terminal.surroundings arguments
  match CommandLine.perform s arguments with
  | .error failure =>
    (← IO.getStderr).putStrLn s!"{failure.name}: {failure.message}"
    return 1
  | .ok report =>
    Terminal.writeAll (s.folder.changes report.folder)
    (← IO.getStdout).putStr report.output
    (← IO.getStderr).putStr (String.join (report.errors.map (· ++ "\n")))
    return UInt32.ofNat report.code

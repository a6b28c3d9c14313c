import RoutineFlow.Files.Folder
import RoutineFlow.Program.Loading

namespace RoutineFlow.Program

def unreadable (path : Path) (fault : FileFault) : LoadFailure :=
  if fault.number = FileFault.missing.number then .rejected s!"File not found: {path.text}" none
  else .rejected (s!"Error reading {path.text}: " ++ fault.message path) none

def readFile (folder : Folder) (path : Path) : Except LoadFailure Environment :=
  match folder.read path with
  | .error (.system fault) => .error (unreadable path fault)
  | .error (.value cause) => .error (.failed cause)
  | .ok text => readDocument text (some path.text)

def loadFile (folder : Folder) (path : Path) : Except LoadFailure Program :=
  (readFile folder path).map ofEntries

end RoutineFlow.Program

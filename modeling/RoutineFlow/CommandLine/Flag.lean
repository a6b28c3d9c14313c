import RoutineFlow.Cause

namespace RoutineFlow.CommandLine

inductive Command where
  | run
  | check
  deriving DecidableEq, Repr

def Command.name : Command → String
  | .run => "run"
  | .check => "check"

inductive Flag where
  | help
  | inputs
  | inputsJson
  | output
  | compact
  | noValidate
  | simulate
  | joinWorkers
  | telemetry
  | checkExpressions
  | config
  | logLevel
  | logFile
  deriving DecidableEq, Repr

def Flag.spellings : Flag → List String
  | .help => ["-h", "--help"]
  | .inputs => ["--inputs"]
  | .inputsJson => ["--inputs-json"]
  | .output => ["-o", "--output"]
  | .compact => ["--compact"]
  | .noValidate => ["--no-validate"]
  | .simulate => ["--simulate"]
  | .joinWorkers => ["--join-workers"]
  | .telemetry => ["--telemetry"]
  | .checkExpressions => ["--check-expressions"]
  | .config => ["--config"]
  | .logLevel => ["--log-level"]
  | .logFile => ["--log-file"]

def Flag.isSwitch : Flag → Bool
  | .help | .compact | .noValidate | .simulate | .checkExpressions => true
  | _ => false

def Command.flags : Command → List Flag
  | .run => [.help, .inputs, .inputsJson, .output, .compact, .noValidate, .simulate, .joinWorkers,
      .telemetry, .config, .logLevel, .logFile]
  | .check => [.help, .checkExpressions, .config, .logLevel, .logFile]

def Command.vocabulary (c : Command) : List (String × Flag) :=
  c.flags.flatMap fun flag => flag.spellings.map fun spelling => (spelling, flag)

def logLevels : List String := ["DEBUG", "INFO", "WARNING", "ERROR"]

inductive Refusal where
  | ambiguous (argument : String) (spellings : List String)
  | needsValue (flag : Flag)
  | takesNoValue (flag : Flag) (value : String)
  | badInteger (flag : Flag) (value : String)
  | badChoice (flag : Flag) (value : String) (choices : List String)
  | unrecognized (arguments : List String)

namespace Refusal

def about (flag : Flag) (text : String) : String :=
  "argument " ++ "/".intercalate flag.spellings ++ ": " ++ text

def message : Refusal → String
  | ambiguous argument spellings =>
    s!"ambiguous option: {argument} could match " ++ ", ".intercalate spellings
  | needsValue flag => about flag "expected one argument"
  | takesNoValue flag value => about flag ("ignored explicit argument " ++ Cause.quoted value)
  | badInteger flag value => about flag ("invalid int value: " ++ Cause.quoted value)
  | badChoice flag value choices =>
    about flag ("invalid choice: " ++ Cause.quoted value ++ " (choose from " ++
      ", ".intercalate (choices.map Cause.quoted) ++ ")")
  | unrecognized arguments => "unrecognized arguments: " ++ " ".intercalate arguments

end Refusal

end RoutineFlow.CommandLine

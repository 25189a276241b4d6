import RenderFlow.CommandLine.Arguments

/-!
The program's commands: one analyzes a file, the other runs the service.
-/
namespace RenderFlow.CommandLine

/-- Where the service listens; a host or port that was given without value is none. -/
structure ServeOptions where
  host : Option String := some "127.0.0.1"
  port : Option Int := some 8000
  reload : Bool := false
deriving DecidableEq, Repr

def ServeOptions.address (options : ServeOptions) : String :=
  options.host.getD "" ++ ":" ++ (options.port.map toString).getD ""

inductive Command where
  | analyze (path : String) (layout : Bool)
  | serve (options : ServeOptions)
deriving DecidableEq, Repr

def application : String := "api:app"

def helpOption : OptionSpec := ⟨["-h", "--help"], false⟩

def verboseOption : OptionSpec := ⟨["-v", "--verbose"], false⟩

def layoutOption : OptionSpec := ⟨["--layout"], false⟩

def hostOption : OptionSpec := ⟨["--host"], true⟩

def portOption : OptionSpec := ⟨["--port"], true⟩

def reloadOption : OptionSpec := ⟨["--reload"], false⟩

def commandList : String := "\x7banalyze,serve\x7d"

def mainUsage : String := "usage: renderviz [-h] [-v] " ++ commandList ++ " ..."

def analyzeUsage : String := "usage: renderviz analyze [-h] [--layout] path"

def serveUsage : String :=
  "usage: renderviz serve [-h] [--host HOST] [--port PORT] [--reload]"

def helpText (lines : List String) : String :=
  String.join (lines.map (· ++ "\n"))

def mainHelp : String := helpText [
  mainUsage,
  "",
  "positional arguments:",
  "  " ++ commandList,
  "    analyze        Analyze a component file and print facts JSON",
  "    serve          Run FastAPI server",
  "",
  "options:",
  "  -h, --help       show this help message and exit",
  "  -v, --verbose    Verbose logging"]

def analyzeHelp : String := helpText [
  analyzeUsage,
  "",
  "positional arguments:",
  "  path        Path to a .tsx/.jsx/.ts/.js component file",
  "",
  "options:",
  "  -h, --help  show this help message and exit",
  "  --layout    Also print the graph layout"]

def serveHelp : String := helpText [
  serveUsage,
  "",
  "options:",
  "  -h, --help   show this help message and exit",
  "  --host HOST",
  "  --port PORT",
  "  --reload"]

structure AnalyzeState where
  path : String := ""
  layout : Bool := false

def analyzeForm : Form AnalyzeState where
  program := "renderviz analyze"
  usage := analyzeUsage
  options := [helpOption, layoutOption]
  operand := .word "path"
  start := {}
  act := fun s a =>
    match a with
    | .operand path _ => .ok { s with path := path }
    | .option o _ =>
      if o == helpOption then .error (.stop (.help analyzeHelp)) else .ok { s with layout := true }

def readPort : Option String → Except Refusal (Option Int)
  | none => .ok none
  | some text =>
    match integer? text with
    | some port => .ok (some port)
    | none => .error (.value ("invalid int value: " ++ Text.quoted text))

def serveForm : Form ServeOptions where
  program := "renderviz serve"
  usage := serveUsage
  options := [helpOption, hostOption, portOption, reloadOption]
  operand := .none
  start := {}
  act := fun s a =>
    match a with
    | .operand _ _ => .ok s
    | .option o value =>
      if o == helpOption then .error (.stop (.help serveHelp))
      else if o == hostOption then .ok { s with host := value }
      else if o == portOption then (readPort value).map ({ s with port := · })
      else .ok { s with reload := true }

abbrev Choice := Option (Command × List String)

def stopping (e : Except Stop α) : Except Refusal α :=
  e.mapError .stop

def choose (name : String) (args : List String) : Except Refusal Choice := do
  match name with
  | "analyze" =>
    let (s, extras) ← stopping (analyzeForm.parse args)
    return some (.analyze s.path s.layout, extras)
  | "serve" =>
    let (options, extras) ← stopping (serveForm.parse args)
    return some (.serve options, extras)
  | name =>
    throw (.value ("invalid choice: " ++ Text.quoted name ++ " (choose from 'analyze', 'serve')"))

def mainForm : Form Choice where
  program := "renderviz"
  usage := mainUsage
  options := [helpOption, verboseOption]
  operand := .command "cmd"
  start := none
  act := fun s a =>
    match a with
    | .operand name args => choose name args
    | .option o _ => if o == helpOption then .error (.stop (.help mainHelp)) else .ok s

/-- The command that the arguments ask for. Arguments that neither the program nor its command takes
are a mistake. -/
def Command.parse (args : List String) : Except Stop Command := do
  let (choice, extras) ← mainForm.parse args
  match choice with
  | none => throw (mainForm.mistake "the following arguments are required: cmd")
  | some (command, more) =>
    let extras := extras ++ more
    if extras.isEmpty then return command
    else throw (mainForm.mistake ("unrecognized arguments: " ++ " ".intercalate extras))

end RenderFlow.CommandLine

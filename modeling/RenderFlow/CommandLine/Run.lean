import RenderFlow.CommandLine.Commands
import RenderFlow.CommandLine.Files
import RenderFlow.Facts.Analysis
import RenderFlow.Facts.Json
import RenderFlow.Graph.Assembly
import RenderFlow.Graph.Json
import RenderFlow.Json.Printing

/-!
What the program does with its arguments: it prints a text, refuses them with a message, runs the
service, or meets a text that it cannot read.
-/
namespace RenderFlow.CommandLine

inductive Outcome where
  | printed (text : String)
  | refused (message : String)
  | serving (options : ServeOptions)
  | unreadable

def Outcome.ofStop : Stop → Outcome
  | .help text => .printed text
  | stop => .refused stop.message

def notAFile (path : String) : Outcome :=
  .ofStop (mainForm.mistake ("not a file: " ++ path))

/-- Every kind of line end becomes a line feed. -/
def unifyLineEnds : List Char → List Char
  | [] => []
  | '\r' :: '\n' :: rest => '\n' :: unifyLineEnds rest
  | '\r' :: rest => '\n' :: unifyLineEnds rest
  | c :: rest => c :: unifyLineEnds rest

/-- The report on a source. The layout is there where it is wanted; that of an analysis is never refused,
by `Graph.Layout.build_of_analyze`. -/
def report (facts : Facts) (layout : Bool) : Json :=
  .object <|
    [("facts", facts.toJson), ("summaries", facts.summaries.toJson)]
      ++ if layout then [("layout", (Graph.Layout.ofFacts facts).toJson)] else []

/-- Analyzes a file under its own name, whatever path led to it. -/
def analyzeFile (parser : SyntaxParser) (layout : Bool) (name : String) (bytes : List UInt8) :
    Outcome :=
  match Utf8.decode? bytes with
  | none => .unreadable
  | some chars =>
    let source := RawText.ofString (String.ofList (unifyLineEnds chars))
    match analyze parser source (some (.ofString name)) with
    | .ok facts => .printed ((report facts layout).print ++ "\n")
    | .error _ => .unreadable

def run (parser : SyntaxParser) (files : List (String × List UInt8)) (args : List String) :
    Outcome :=
  match Command.parse args with
  | .error stop => .ofStop stop
  | .ok (.serve options) => .serving options
  | .ok (.analyze path layout) =>
    match (Directory.ofFiles files).file? path with
    | some (name, bytes) => analyzeFile parser layout name bytes
    | none => notAFile path

end RenderFlow.CommandLine

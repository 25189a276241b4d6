import RenderFlow.CommandLine.Run
import RenderFlow.Syntax.Rows

/-!
The program. The syntax tree of an analyzed file comes on the standard input, one row a line.
-/
open RenderFlow CommandLine

namespace RenderFlow.Main

partial def readLines (input : IO.FS.Stream) : IO (List String) := do
  let line ← input.getLine
  if line.isEmpty then return []
  return line :: (← readLines input)

def parserOf (tree : Tree Span) : SyntaxParser :=
  fun _ _ => tree

def emptyTree : Tree Span :=
  .node ⟨"program", none, 0, 0, true, false, false, 0⟩ []

def readTree : IO (Tree Span) := do
  let lines ← readLines (← IO.getStdin)
  let rows := (lines.mapIdx fun i line => Row.ofLine? i line).filterMap id
  return (Row.toTree? rows).getD emptyTree

def analyzePath (path : String) (layout : Bool) : IO Outcome := do
  let bytes? ← try pure (some (← IO.FS.readBinFile path)) catch _ => pure none
  match bytes? with
  | none => return notAFile path
  | some bytes =>
    return analyzeFile (parserOf (← readTree)) layout (FileName.base path) bytes.toList

def outcome (args : List String) : IO Outcome :=
  match Command.parse args with
  | .error stop => return .ofStop stop
  | .ok (.serve options) => return .serving options
  | .ok (.analyze path layout) => analyzePath path layout

def finish : Outcome → IO UInt32
  | .printed text => do
    IO.print text
    return 0
  | .refused message => do
    IO.eprint message
    return 2
  | .serving options => do
    IO.println (application ++ " on " ++ options.address)
    return 0
  | .unreadable => do
    IO.eprintln "the file is no text in UTF-8"
    return 1

end RenderFlow.Main

def main (args : List String) : IO UInt32 := do
  RenderFlow.Main.finish (← RenderFlow.Main.outcome args)

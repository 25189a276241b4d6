import RenderFlow.Json.Printing
import RenderFlow.Text.Quoted

/-!
How a value is spelled inside another text. A text stands as it is, and in quotes when it is a part
of a larger value.
-/
namespace RenderFlow.Json

mutual

def spelledPart : Json → String
  | .null => "None"
  | .bool b => if b then "True" else "False"
  | .int n => toString n
  | .real a => printReal "inf" "nan" a
  | .minusZero => "-0.0"
  | .text s => Text.quoted s
  | .list [] => "[]"
  | .list (item :: rest) => "[" ++ spelledPart item ++ spelledItems rest ++ "]"
  | .object [] => "\x7b\x7d"
  | .object ((key, value) :: rest) =>
    "\x7b" ++ Text.quoted key ++ ": " ++ spelledPart value ++ spelledFields rest ++ "\x7d"

def spelledItems : List Json → String
  | [] => ""
  | item :: rest => ", " ++ spelledPart item ++ spelledItems rest

def spelledFields : List (String × Json) → String
  | [] => ""
  | (key, value) :: rest =>
    ", " ++ Text.quoted key ++ ": " ++ spelledPart value ++ spelledFields rest

end

def spelled : Json → String
  | .text s => s
  | j => spelledPart j

end RenderFlow.Json

import RenderFlow.Json.Reading
import RenderFlow.Text.Utf8

/-!
Requests to the service. A body is checked field by field, and all faults are reported together.
-/
namespace RenderFlow.Service

inductive Field where
  | absent
  | null
  | text (value : RawText)
  | other

inductive Body where
  | empty
  | notObject
  | object (source fileName : Field)

structure Request where
  method : String
  path : String
  body : Body

structure AnalysisRequest where
  source : RawText
  fileName : Option RawText
deriving DecidableEq

/-- What is wrong with a body: it is missing or no object, or one of its fields is missing or no
text. -/
inductive Fault where
  | noBody
  | notObject
  | missing (field : String)
  | notText (field : String)
deriving DecidableEq, Repr

namespace Fault

def kind : Fault → String
  | .noBody | .missing _ => "missing"
  | .notObject => "model_attributes_type"
  | .notText _ => "string_type"

def location : Fault → List String
  | .noBody | .notObject => ["body"]
  | .missing field | .notText field => ["body", field]

def toJson (f : Fault) : Json :=
  .object [("type", .text f.kind), ("loc", .ofTexts f.location)]

end Fault

namespace Field

def required (name : String) : Field → Except Fault RawText
  | .absent => .error (.missing name)
  | .text t => .ok t
  | .null | .other => .error (.notText name)

def nullable (name : String) : Field → Except Fault (Option RawText)
  | .absent | .null => .ok none
  | .text t => .ok (some t)
  | .other => .error (.notText name)

end Field

def Body.check : Body → Except (List Fault) AnalysisRequest
  | .empty => .error [.noBody]
  | .notObject => .error [.notObject]
  | .object source fileName =>
    match source.required "source", fileName.nullable "file_name" with
    | .ok source, .ok fileName => .ok ⟨source, fileName⟩
    | .error first, .error second => .error [first, second]
    | .error fault, .ok _ | .ok _, .error fault => .error [fault]

end RenderFlow.Service

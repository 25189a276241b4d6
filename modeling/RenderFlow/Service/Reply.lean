import RenderFlow.Facts.Analysis
import RenderFlow.Facts.Json
import RenderFlow.Graph.Assembly
import RenderFlow.Graph.Json
import RenderFlow.Service.Request
import RenderFlow.Service.Route
import RenderFlow.Text.Blank

/-!
What the service answers: the facts about a source with a summary in words, or with a layout. The
layouts are kept by the bytes of file name and source.
-/
namespace RenderFlow.Service

structure LayoutResult where
  facts : Facts
  layout : Graph.Layout

inductive Reply where
  | analysis (facts : Facts)
  | layout (result : LayoutResult)
  | page
  | moved
  | blankSource
  | notFound
  | methodNotAllowed
  | invalid (faults : List Fault)
  | failed (error : TextError)

namespace Reply

def status : Reply → Nat
  | .analysis _ | .layout _ | .page => 200
  | .moved => 307
  | .blankSource => 400
  | .notFound => 404
  | .methodNotAllowed => 405
  | .invalid _ => 422
  | .failed _ => 500

def detail (message : String) : Json :=
  .object [("detail", .text message)]

/-- The body as JSON. A page has another form, and a redirection has no body. -/
def body? : Reply → Option Json
  | .analysis facts =>
    some (.object [("facts", facts.toJson), ("summaries", facts.summaries.toJson)])
  | .layout result =>
    some (.object [("facts", result.facts.toJson), ("layout", result.layout.toJson)])
  | .page | .moved | .failed _ => none
  | .blankSource => some (detail "source must not be empty")
  | .notFound => some (detail "Not Found")
  | .methodNotAllowed => some (detail "Method Not Allowed")
  | .invalid faults => some (.list (faults.map (·.toJson)))

end Reply

/-- The bytes of the file name, a zero byte, and the bytes of the source. -/
abbrev CacheKey := List UInt8

def AnalysisRequest.cacheKey (r : AnalysisRequest) : CacheKey :=
  (r.fileName.getD []).encode ++ 0 :: r.source.encode

structure Cache where
  entries : List (CacheKey × LayoutResult) := []

namespace Cache

def get? (c : Cache) (key : CacheKey) : Option LayoutResult :=
  (c.entries.find? (·.1 == key)).map (·.2)

def insert (c : Cache) (key : CacheKey) (result : LayoutResult) : Cache :=
  ⟨c.entries ++ [(key, result)]⟩

def size (c : Cache) : Nat :=
  c.entries.length

end Cache

/-- What a request is answered without any cache. No analysis goes so deep that its layout is refused:
`freshLayout_eq_ok_iff`. -/
def freshLayout (parser : SyntaxParser) (r : AnalysisRequest) : Except TextError LayoutResult :=
  (analyze parser r.source r.fileName).map fun facts => ⟨facts, .ofFacts facts⟩

/-- A layout is computed once for each key and then answered from the cache. A failure is not
kept. -/
def answerLayout (parser : SyntaxParser) (cache : Cache) (r : AnalysisRequest) : Cache × Reply :=
  match cache.get? r.cacheKey with
  | some result => (cache, .layout result)
  | none =>
    match freshLayout parser r with
    | .ok result => (cache.insert r.cacheKey result, .layout result)
    | .error e => (cache, .failed e)

def answerAnalysis (parser : SyntaxParser) (r : AnalysisRequest) : Reply :=
  match analyze parser r.source r.fileName with
  | .ok facts => .analysis facts
  | .error e => .failed e

def answerChecked (parser : SyntaxParser) (cache : Cache) (route : Route) (r : AnalysisRequest) :
    Cache × Reply :=
  if r.source.isBlank then (cache, .blankSource)
  else
    match route with
    | .analyze => (cache, answerAnalysis parser r)
    | .layout => answerLayout parser cache r

def answerRoute (parser : SyntaxParser) (cache : Cache) (route : Route) (request : Request) :
    Cache × Reply :=
  if request.method != "POST" then (cache, .methodNotAllowed)
  else
    match request.body.check with
    | .error faults => (cache, .invalid faults)
    | .ok r => answerChecked parser cache route r

/-- The path comes first, then the method, then the body. -/
def answer (parser : SyntaxParser) (cache : Cache) (request : Request) : Cache × Reply :=
  match Target.ofPath request.path with
  | .route route => answerRoute parser cache route request
  | .page =>
    (cache, if ["GET", "HEAD"].contains request.method then .page else .methodNotAllowed)
  | .slashed => (cache, .moved)
  | .unknown => (cache, .notFound)

end RenderFlow.Service

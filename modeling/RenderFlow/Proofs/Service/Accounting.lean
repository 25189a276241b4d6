import Mathlib.Data.Finset.Card
import RenderFlow.Proofs.Service.Caching

/-!
How many layouts the cache holds. A request that is answered with a layout leaves its key in the cache,
and nothing else ever changes it; so the cache counts the keys of the requests for a layout that were
answered. Main statement: `cache_accounts`.
-/
namespace RenderFlow.Service

/-- The key of a request that posts a readable body to the path of layouts, blank or not. -/
def Request.layoutKey? (request : Request) : Option CacheKey :=
  if request.method = "POST" ∧ Target.ofPath request.path = .route .layout then
    request.body.check.toOption.map (·.cacheKey)
  else none

theorem Request.layoutKey?_of_layoutRequest? {request : Request} {a : AnalysisRequest}
    (asked : request.layoutRequest? = some a) : request.layoutKey? = some a.cacheKey := by
  unfold layoutRequest? at asked
  split at asked
  · rename_i target
    split at asked
    · cases asked
    · rename_i posted
      obtain ⟨checked, -⟩ := Option.filter_eq_some_iff.mp asked
      rw [layoutKey?, if_pos ⟨by simpa using posted, target⟩, checked]
      rfl
  · cases asked

namespace Cache

def keys (cache : Cache) : List CacheKey :=
  cache.entries.map (·.1)

theorem get?_eq_none_iff {cache : Cache} {key : CacheKey} :
    cache.get? key = none ↔ key ∉ cache.keys := by
  rw [get?, Option.map_eq_none_iff, List.find?_eq_none, keys, List.mem_map]
  constructor
  · rintro none ⟨entry, within, same⟩
    exact none entry within (by simpa using same)
  · exact fun new entry within same => new ⟨entry, within, by simpa using same⟩

@[simp] theorem keys_insert (cache : Cache) (key : CacheKey) (result : LayoutResult) :
    (cache.insert key result).keys = cache.keys ++ [key] := by
  simp [keys, insert]

/-- A cache holds a layout for each of some keys, and no two for one key. -/
structure Holds (cache : Cache) (answered : List CacheKey) : Prop where
  keys : ∀ key, key ∈ cache.keys ↔ key ∈ answered
  distinct : cache.keys.Nodup

theorem Holds.size {cache : Cache} {answered : List CacheKey} (holds : cache.Holds answered) :
    cache.size = answered.toFinset.card := by
  have same : cache.keys.toFinset = answered.toFinset := by
    ext key
    simp [holds.keys key]
  rw [← same, List.toFinset_card_of_nodup holds.distinct, Cache.keys, List.length_map, Cache.size]

theorem Holds.insert {cache : Cache} {answered : List CacheKey} (holds : cache.Holds answered)
    {key : CacheKey} (new : key ∉ cache.keys) (result : LayoutResult) :
    (cache.insert key result).Holds (answered ++ [key]) := by
  constructor
  · simp [holds.keys]
  · simpa using holds.distinct.concat new

theorem Holds.again {cache : Cache} {answered : List CacheKey} (holds : cache.Holds answered)
    {key : CacheKey} (old : key ∈ cache.keys) : cache.Holds (answered ++ [key]) := by
  refine ⟨fun other => ?_, holds.distinct⟩
  rw [List.mem_append, List.mem_singleton, holds.keys other]
  refine ⟨.inl, ?_⟩
  rintro (known | rfl)
  · exact known
  · exact (holds.keys other).mp old

end Cache

variable (parser : SyntaxParser)

/-- The key of a request for a layout that is answered with status 200. -/
def answeredKey? (cache : Cache) (request : Request) : Option CacheKey :=
  if (answer parser cache request).2.status = 200 then request.layoutKey? else none

def answeredKeys (cache : Cache) : List Request → List CacheKey
  | [] => []
  | request :: rest =>
    (answeredKey? parser cache request).toList ++
      answeredKeys (answer parser cache request).1 rest

theorem answerLayout_cases (cache : Cache) (a : AnalysisRequest) :
    (∃ result, a.cacheKey ∈ cache.keys ∧ answerLayout parser cache a = (cache, .layout result)) ∨
    (∃ result, a.cacheKey ∉ cache.keys ∧ freshLayout parser a = .ok result ∧
      answerLayout parser cache a = (cache.insert a.cacheKey result, .layout result)) ∨
    ∃ e, freshLayout parser a = .error e ∧ answerLayout parser cache a = (cache, .failed e) := by
  unfold answerLayout
  cases held : cache.get? a.cacheKey with
  | some result =>
    have known : a.cacheKey ∈ cache.keys := by
      by_contra new
      rw [Cache.get?_eq_none_iff.mpr new] at held
      cases held
    exact .inl ⟨result, known, rfl⟩
  | none =>
    cases laidOut : freshLayout parser a with
    | ok result => exact .inr (.inl ⟨result, Cache.get?_eq_none_iff.mp held, rfl, rfl⟩)
    | error e => exact .inr (.inr ⟨e, rfl, rfl⟩)

/-- A request that is not accepted is not answered with a layout, even if it posts one to be laid
out. -/
theorem answeredKey?_eq_none {request : Request} (other : request.layoutRequest? = none)
    (cache : Cache) : answeredKey? parser cache request = none := by
  unfold answeredKey?
  split
  · rename_i answered
    unfold Request.layoutRequest? at other
    unfold Request.layoutKey?
    split
    · rename_i posts
      obtain ⟨posted, target⟩ := posts
      cases checked : request.body.check with
      | error faults => rfl
      | ok a =>
        have blank : a.source.isBlank = true := by
          simpa [target, posted, checked, Except.toOption] using other
        simp [answer, target, answerRoute, posted, checked, answerChecked, blank, Reply.status]
          at answered
    · rfl
  · rfl

theorem answer_cases (cache : Cache) (request : Request) :
    (answeredKey? parser cache request = none ∧ (answer parser cache request).1 = cache) ∨
    ∃ key, answeredKey? parser cache request = some key ∧
      (key ∈ cache.keys ∧ (answer parser cache request).1 = cache ∨
        key ∉ cache.keys ∧ ∃ result, (answer parser cache request).1 = cache.insert key result) := by
  cases asked : request.layoutRequest? with
  | none =>
    rw [answer_of_layoutRequest?_eq_none parser asked]
    exact .inl ⟨answeredKey?_eq_none parser asked cache, rfl⟩
  | some a =>
    rw [answeredKey?, answer_of_layoutRequest? parser asked,
      Request.layoutKey?_of_layoutRequest? asked]
    rcases answerLayout_cases parser cache a with
      ⟨result, known, same⟩ | ⟨result, new, -, same⟩ | ⟨e, -, same⟩
    · rw [same]
      exact .inr ⟨a.cacheKey, rfl, .inl ⟨known, rfl⟩⟩
    · rw [same]
      exact .inr ⟨a.cacheKey, rfl, .inr ⟨new, result, rfl⟩⟩
    · rw [same]
      exact .inl ⟨rfl, rfl⟩

theorem Cache.Holds.answer {cache : Cache} {answered : List CacheKey} (holds : cache.Holds answered)
    (request : Request) :
    (answer parser cache request).1.Holds
      (answered ++ (answeredKey? parser cache request).toList) := by
  rcases answer_cases parser cache request with
    ⟨none, same⟩ | ⟨key, some, ⟨old, same⟩ | ⟨new, result, same⟩⟩
  · rw [none, same, Option.toList_none, List.append_nil]
    exact holds
  · rw [some, same]
    exact holds.again old
  · rw [some, same]
    exact holds.insert new result

theorem Cache.Holds.foldl_answer {cache : Cache} {answered : List CacheKey}
    (holds : cache.Holds answered) (history : List Request) :
    (history.foldl (fun cache request => (Service.answer parser cache request).1) cache).Holds
      (answered ++ answeredKeys parser cache history) := by
  induction history generalizing cache answered with
  | nil => simpa [answeredKeys] using holds
  | cons request rest ih =>
    rw [List.foldl_cons, answeredKeys, ← List.append_assoc]
    exact ih (holds.answer parser request)

theorem holds_cacheAfter (history : List Request) :
    (cacheAfter parser history).Holds (answeredKeys parser {} history) := by
  have empty : Cache.Holds {} [] := ⟨fun _ => Iff.rfl, List.nodup_nil⟩
  exact empty.foldl_answer parser history

theorem entries_isPrefix_answer (cache : Cache) (request : Request) :
    cache.entries <+: (answer parser cache request).1.entries := by
  rcases answer_cases parser cache request with
    ⟨-, same⟩ | ⟨key, -, ⟨-, same⟩ | ⟨-, result, same⟩⟩
  · rw [same]
  · rw [same]
  · rw [same]
    exact List.prefix_append _ _

theorem cacheAfter_append (history more : List Request) :
    cacheAfter parser (history ++ more) =
      more.foldl (fun cache request => (answer parser cache request).1)
        (cacheAfter parser history) :=
  List.foldl_append

theorem entries_isPrefix_foldl (more : List Request) (cache : Cache) :
    cache.entries <+:
      (more.foldl (fun cache request => (answer parser cache request).1) cache).entries := by
  induction more generalizing cache with
  | nil => exact List.prefix_rfl
  | cons request rest ih => exact (entries_isPrefix_answer parser cache request).trans (ih _)

theorem Cache.get?_of_isPrefix {cache later : Cache} (longer : cache.entries <+: later.entries)
    {key : CacheKey} {result : LayoutResult} (held : cache.get? key = some result) :
    later.get? key = some result := by
  obtain ⟨more, longer⟩ := longer
  obtain ⟨entry, found, rfl⟩ := Option.map_eq_some_iff.mp held
  rw [Cache.get?, ← longer, List.find?_append, found]
  rfl

theorem answer_eq_self {cache : Cache} {request : Request}
    (refused : Target.ofPath request.path ≠ .route .layout ∨
      (answer parser cache request).2.status ≠ 200) :
    (answer parser cache request).1 = cache := by
  have uncounted : answeredKey? parser cache request = none := by
    rw [answeredKey?]
    rcases refused with other | failed
    · have keyless : request.layoutKey? = none := if_neg fun posts => other posts.2
      rw [keyless, ite_self]
    · rw [if_neg failed]
  rcases answer_cases parser cache request with ⟨-, same⟩ | ⟨key, counted, -⟩
  · exact same
  · rw [uncounted] at counted
    cases counted

theorem exists_freshLayout_of_damaged {a : AnalysisRequest}
    (damaged : (parsed parser a.source a.fileName).label.damaged = true) :
    ∃ result, freshLayout parser a = .ok result := by
  rw [parsed] at damaged
  simp [freshLayout, analyze, Tree.checked, damaged, Except.map]

/-- After any requests the cache holds one layout for each key of the requests for a layout that were
answered with status 200, a source with a syntax error among them, and its size is the number of those
keys. Every other request leaves it as it was, and what it holds under a key stays there for ever. -/
theorem cache_accounts (parser : SyntaxParser) :
    (∀ history, (cacheAfter parser history).Holds (answeredKeys parser {} history) ∧
      (cacheAfter parser history).size = (answeredKeys parser {} history).toFinset.card) ∧
    (∀ cache request, Target.ofPath request.path ≠ .route .layout ∨
        (answer parser cache request).2.status ≠ 200 →
      (answer parser cache request).1 = cache) ∧
    (∀ cache request a, request.layoutRequest? = some a →
      (parsed parser a.source a.fileName).label.damaged = true →
      answeredKey? parser cache request = some a.cacheKey ∧
        a.cacheKey ∈ (answer parser cache request).1.keys) ∧
    ∀ history more,
      (cacheAfter parser history).entries <+: (cacheAfter parser (history ++ more)).entries ∧
      ∀ key result, (cacheAfter parser history).get? key = some result →
        (cacheAfter parser (history ++ more)).get? key = some result := by
  refine ⟨fun history => ?_, fun cache request => answer_eq_self parser, ?_, fun history more => ?_⟩
  · have holds := holds_cacheAfter parser history
    exact ⟨holds, holds.size⟩
  · intro cache request a asked damaged
    obtain ⟨result, laidOut⟩ := exists_freshLayout_of_damaged parser damaged
    rw [answeredKey?, answer_of_layoutRequest? parser asked,
      Request.layoutKey?_of_layoutRequest? asked]
    rcases answerLayout_cases parser cache a with
      ⟨result, known, same⟩ | ⟨result, -, -, same⟩ | ⟨e, failed, -⟩
    · rw [same]
      exact ⟨rfl, known⟩
    · rw [same]
      exact ⟨rfl, by simp⟩
    · rw [laidOut] at failed
      cases failed
  · rw [cacheAfter_append]
    have longer := entries_isPrefix_foldl parser more (cacheAfter parser history)
    exact ⟨longer, fun key result => Cache.get?_of_isPrefix longer⟩

end RenderFlow.Service

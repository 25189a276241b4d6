import Mathlib.Data.List.Induction
import RenderFlow.Proofs.Service.Caching

/-!
When the cache shows. File name and source are joined into one key, so a missing name shares its key
with an empty one, and a zero in a name or a source can move the border between the two. Main
statement: `answer_fresh_iff`; without empty names and without zeros in names the cache never shows.
-/
namespace RenderFlow.Service

variable {parser : SyntaxParser}

theorem cleaned_of_body?_eq {result : LayoutResult} {reply : Reply}
    (same : (Reply.layout result).body? = reply.body?) :
    ∀ other, reply = .layout other →
      (result.facts.source, result.facts.fileName) = (other.facts.source, other.facts.fileName) := by
  rintro other rfl
  simp only [Reply.body?, Facts.toJson, Option.some.injEq, Json.object.injEq, List.cons.injEq,
    Prod.mk.injEq, Json.text.injEq, true_and] at same
  obtain ⟨⟨source, name, -⟩, -⟩ := same
  refine Prod.ext source ?_
  revert name
  cases result.facts.fileName <;> cases other.facts.fileName <;> simp [Json.ofText?]

theorem exists_layout_of_earliest? {history : List Request} {key : CacheKey}
    {b : AnalysisRequest} (first : earliest? parser history key = some b) :
    ∃ result, freshLayout parser b = .ok result ∧
      (cacheAfter parser history).get? key = some result := by
  have kept := List.find?_some first
  rw [isKeptUnder, Bool.and_eq_true] at kept
  cases laidOut : freshLayout parser b with
  | error e => simp [laidOut, Except.toOption] at kept
  | ok result =>
    refine ⟨result, rfl, ?_⟩
    rw [get?_cacheAfter, first, Option.bind_some, laidOut]
    rfl

/-- Without an earlier request with its key, a request is answered as if it were alone. -/
theorem answer_eq_fresh_of_earliest?_eq_none {history : List Request} {request : Request}
    {a : AnalysisRequest} (asked : request.layoutRequest? = some a)
    (first : earliest? parser history a.cacheKey = none) :
    (answer parser (cacheAfter parser history) request).2 = (answer parser {} request).2 := by
  rw [answer_of_layoutRequest? parser asked, answer_of_layoutRequest? parser asked,
    answerLayout_reply, answerLayout_reply, get?_cacheAfter, first]
  rfl

theorem answer_eq_fresh_of_cleaned_eq {history : List Request} {request : Request}
    {a b : AnalysisRequest} (asked : request.layoutRequest? = some a)
    (first : earliest? parser history a.cacheKey = some b) (same : b.cleaned = a.cleaned) :
    (answer parser (cacheAfter parser history) request).2 = (answer parser {} request).2 := by
  obtain ⟨result, laidOut, held⟩ := exists_layout_of_earliest? first
  rw [freshLayout_congr parser same] at laidOut
  rw [answer_of_layoutRequest? parser asked, answer_of_layoutRequest? parser asked,
    answerLayout_reply, answerLayout_reply, held]
  exact ((freshReply_eq_layout_iff parser).mpr laidOut).symm

theorem answer_body?_ne_of_cleaned_ne {history : List Request} {request : Request}
    (a b : AnalysisRequest) (asked : request.layoutRequest? = some a)
    (first : earliest? parser history a.cacheKey = some b) (other : b.cleaned ≠ a.cleaned) :
    (answer parser (cacheAfter parser history) request).2.body? ≠
      (answer parser {} request).2.body? := by
  obtain ⟨result, laidOut, held⟩ := exists_layout_of_earliest? first
  rw [answer_of_layoutRequest? parser asked, answer_of_layoutRequest? parser asked,
    answerLayout_reply, answerLayout_reply, held]
  intro same
  change (Reply.layout result).body? = (freshReply parser a).body? at same
  -- A failure has another body than any layout, and a layout names its source and file.
  cases alone : freshLayout parser a with
  | error e => simp [freshReply, alone, Reply.body?] at same
  | ok fresh =>
    have served := cleaned_of_body?_eq same fresh ((freshReply_eq_layout_iff parser).mpr alone)
    rw [← cleaned_of_freshLayout parser laidOut, ← cleaned_of_freshLayout parser alone] at served
    exact other served

theorem toChar_ne_zero {p : CodePoint} (nonzero : p.val ≠ 0) : p.toChar ≠ Char.ofNat 0 := by
  intro same
  have code : p.toChar.toNat = 0 := congrArg Char.toNat same
  rw [CodePoint.toNat_toChar] at code
  split at code
  · exact nonzero code
  · cases code

private theorem splits_eq {α : Type} {left other right rest : List α} {border : α}
    (first : border ∉ left) (second : border ∉ other)
    (same : left ++ border :: right = other ++ border :: rest) : left = other ∧ right = rest := by
  rcases List.append_eq_append_iff.mp same with ⟨more, longer, tail⟩ | ⟨more, longer, tail⟩
  all_goals
    cases more with
    | nil => simp_all
    | cons x xs =>
      obtain ⟨rfl, -⟩ := List.cons.inj tail
      simp [longer] at first second

namespace AnalysisRequest

/-- A name that is given is not empty and holds no zero. -/
def IsPlain (r : AnalysisRequest) : Prop :=
  ∀ name, r.fileName = some name → name ≠ [] ∧ ∀ p ∈ name, p.val ≠ 0

theorem IsPlain.border {r : AnalysisRequest} (plain : r.IsPlain) :
    Char.ofNat 0 ∉ (r.fileName.getD []).map CodePoint.toChar := by
  intro within
  obtain ⟨p, held, same⟩ := List.mem_map.mp within
  have nonzero : p.val ≠ 0 := by
    cases given : r.fileName with
    | none => simp [given] at held
    | some name => exact (plain name given).2 p (by simpa [given] using held)
  exact toChar_ne_zero nonzero same

theorem IsPlain.fileName_eq {a b : AnalysisRequest} (left : a.IsPlain) (right : b.IsPlain)
    (same : RawText.clean (a.fileName.getD []) = RawText.clean (b.fileName.getD [])) :
    a.fileName.map RawText.clean = b.fileName.map RawText.clean := by
  have chars := congrArg String.toList same
  simp only [RawText.clean, String.toList_ofList] at chars
  cases first : a.fileName with
  | none =>
    cases second : b.fileName with
    | none => rfl
    | some name =>
      rw [first, second] at chars
      exact absurd (by simpa using chars.symm) (right name second).1
  | some name =>
    cases second : b.fileName with
    | none =>
      rw [first, second] at chars
      exact absurd (by simpa using chars) (left name first).1
    | some other =>
      rw [first, second] at same
      exact congrArg some same

/-- Plain names keep the border between name and source in the key. -/
theorem IsPlain.cleaned_eq {a b : AnalysisRequest} (left : a.IsPlain) (right : b.IsPlain)
    (same : a.cacheKey = b.cacheKey) : a.cleaned = b.cleaned := by
  have chars := congrArg String.toList (cacheKey_eq_iff.mp same)
  simp only [joined, RawText.clean, String.toList_ofList, List.map_append, List.map_cons] at chars
  obtain ⟨name, source⟩ := splits_eq left.border right.border chars
  refine Prod.ext ?_ (left.fileName_eq right ?_)
  · exact congrArg String.ofList source
  · exact congrArg String.ofList name

end AnalysisRequest

def replies (parser : SyntaxParser) (cache : Cache) : List Request → List Reply
  | [] => []
  | request :: rest =>
    (answer parser cache request).2 :: replies parser (answer parser cache request).1 rest

theorem replies_append (left right : List Request) (cache : Cache) :
    replies parser cache (left ++ right) =
      replies parser cache left ++
        replies parser (left.foldl (fun cache request => (answer parser cache request).1) cache)
          right := by
  induction left generalizing cache with
  | nil => rfl
  | cons request rest ih => rw [List.cons_append, replies, replies, ih, List.cons_append]; rfl

theorem earliest?_spec {history : List Request} {key : CacheKey} {b : AnalysisRequest}
    (first : earliest? parser history key = some b) :
    b ∈ history.filterMap (·.layoutRequest?) ∧ b.cacheKey = key := by
  refine ⟨List.mem_of_find?_eq_some first, ?_⟩
  have kept := List.find?_some first
  rw [isKeptUnder, Bool.and_eq_true] at kept
  exact beq_iff_eq.mp kept.1

theorem answer_eq_fresh {history : List Request} {request : Request}
    (unmixed : ∀ a b, request.layoutRequest? = some a →
      earliest? parser history a.cacheKey = some b → b.cleaned = a.cleaned) :
    (answer parser (cacheAfter parser history) request).2 = (answer parser {} request).2 := by
  cases asked : request.layoutRequest? with
  | none => rw [answer_of_layoutRequest?_eq_none parser asked]
  | some a =>
    cases first : earliest? parser history a.cacheKey with
    | none => exact answer_eq_fresh_of_earliest?_eq_none asked first
    | some b => exact answer_eq_fresh_of_cleaned_eq asked first (unmixed a b asked first)

theorem replies_eq_fresh {requests : List Request}
    (plain : ∀ a ∈ requests.filterMap (·.layoutRequest?), a.IsPlain) :
    replies parser {} requests = requests.map fun request => (answer parser {} request).2 := by
  -- From the end: the cache of the last request is the one after all requests before it.
  induction requests using List.reverseRecOn with
  | nil => rfl
  | append_singleton history request ih =>
    rw [List.filterMap_append] at plain
    have before := ih fun a within => plain a (List.mem_append_left _ within)
    have last : (answer parser (cacheAfter parser history) request).2 =
        (answer parser {} request).2 := by
      apply answer_eq_fresh
      intro a b asked first
      obtain ⟨within, same⟩ := earliest?_spec first
      have own : a ∈ [request].filterMap (·.layoutRequest?) := by simp [asked]
      exact (plain b (List.mem_append_left _ within)).cleaned_eq
        (plain a (List.mem_append_right _ own)) same
    rw [replies_append, before, List.map_append, List.map_singleton, ← last]
    rfl

/-- After any requests a request is answered as it would be alone if the earliest request with its
key that had a layout was about the same text and file name, and with another body if not. Keys are
the same just when file name, zero and source make the same cleaned text. So no answer of a sequence
shows the cache while file names are neither empty nor hold a zero. -/
theorem answer_fresh_iff (parser : SyntaxParser) :
    (∀ history request,
      ((answer parser (cacheAfter parser history) request).2 = (answer parser {} request).2 ↔
        ∀ a b, request.layoutRequest? = some a →
          earliest? parser history a.cacheKey = some b → b.cleaned = a.cleaned) ∧
      ((answer parser (cacheAfter parser history) request).2.body? =
          (answer parser {} request).2.body? →
        (answer parser (cacheAfter parser history) request).2 = (answer parser {} request).2)) ∧
    (∀ a b : AnalysisRequest, a.cacheKey = b.cacheKey ↔ a.joined.clean = b.joined.clean) ∧
    ∀ requests : List Request,
      (∀ a ∈ requests.filterMap (·.layoutRequest?), a.IsPlain) →
        replies parser {} requests = requests.map fun request => (answer parser {} request).2 := by
  refine ⟨?_, fun a b => AnalysisRequest.cacheKey_eq_iff, fun requests => replies_eq_fresh⟩
  intro history request
  have unmixed (same : (answer parser (cacheAfter parser history) request).2.body? =
      (answer parser {} request).2.body?) :
      ∀ a b, request.layoutRequest? = some a →
        earliest? parser history a.cacheKey = some b → b.cleaned = a.cleaned := by
    intro a b asked first
    by_contra other
    exact answer_body?_ne_of_cleaned_ne a b asked first other same
  exact ⟨⟨fun same => unmixed (congrArg Reply.body? same), answer_eq_fresh⟩,
    fun same => answer_eq_fresh (unmixed same)⟩

def layoutPost (source : String) (fileName : Option String) : Request where
  method := "POST"
  path := "/layout"
  body := .object (.text (.ofString source))
    ((fileName.map fun name => .text (.ofString name)).getD .null)

def emptyProgram : SyntaxParser :=
  fun _ _ => .node ⟨"program", none, 0, 0, true, false, false, 0⟩ []

/-- A request with an empty file name gets the layout of an earlier one without a name, and a zero in
a file name gets it the layout of another source. -/
theorem cached_answer_shows :
    (answer emptyProgram (cacheAfter emptyProgram [layoutPost "x" none]) (layoutPost "x" "")).2.body? ≠
      (answer emptyProgram {} (layoutPost "x" "")).2.body? ∧
    (answer emptyProgram (cacheAfter emptyProgram [layoutPost "b\x00c" "a"])
        (layoutPost "c" "a\x00b")).2.body? ≠
      (answer emptyProgram {} (layoutPost "c" "a\x00b")).2.body? := by
  constructor
  · refine answer_body?_ne_of_cleaned_ne ⟨.ofString "x", some []⟩ ⟨.ofString "x", none⟩ rfl rfl ?_
    decide
  · refine answer_body?_ne_of_cleaned_ne ⟨.ofString "c", some (.ofString "a\x00b")⟩
      ⟨.ofString "b\x00c", some (.ofString "a")⟩ rfl rfl ?_
    decide

end RenderFlow.Service

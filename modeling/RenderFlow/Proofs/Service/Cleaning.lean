import RenderFlow.Proofs.Service.Transparency

/-!
Cleaning comes first. The bytes of a text are those of its cleaned text, and everything that follows
looks at these two only; so a text may be cleaned beforehand, and surrogates show nowhere. Main
statement: `cleaning_transparent`.
-/
namespace RenderFlow

open Service

theorem Service.AnalysisRequest.cacheKey_congr {a b : AnalysisRequest}
    (text : a.source.clean = b.source.clean)
    (name : a.fileName.map RawText.clean = b.fileName.map RawText.clean) :
    a.cacheKey = b.cacheKey := by
  have source : a.source.encode = b.source.encode := RawText.encode_inj.mpr text
  have fileName : RawText.encode (a.fileName.getD []) = RawText.encode (b.fileName.getD []) := by
    rw [RawText.encode_inj, ← Option.getD_map RawText.clean, ← Option.getD_map RawText.clean, name]
  rw [AnalysisRequest.cacheKey, AnalysisRequest.cacheKey, source, fileName]

/-- Cleaning writes a question mark for each surrogate and keeps the other code points. The bytes of a
text are the only ones that are read as the cleaned text, and the ones that it is kept as; cleaning once
more changes neither. An analysis gives the same for cleaned texts, and repeats no surrogate. Requests
about the same cleaned texts share their key. -/
theorem cleaning_transparent (parser : SyntaxParser) :
    (∀ t : RawText,
      RawText.ofString t.clean = t.map (fun p => if p.IsSurrogate then .questionMark else p) ∧
      (∀ bytes, Utf8.decode? bytes = some t.clean.toList ↔ bytes = t.encode) ∧
      t.encode.toByteArray = t.clean.toByteArray ∧
      (RawText.ofString t.clean).encode = t.encode ∧
      (RawText.ofString t.clean).clean = t.clean) ∧
    (∀ source fileName, analyze parser source fileName =
      analyze parser (.ofString source.clean) (fileName.map fun name => .ofString name.clean)) ∧
    (∀ source fileName facts, analyze parser source fileName = .ok facts →
      facts.source = source.clean ∧ facts.fileName = fileName.map RawText.clean ∧
      ∀ text ∈ facts.source :: facts.fileName.toList,
        ∀ p ∈ RawText.ofString text, ¬ p.IsSurrogate) ∧
    ∀ a b : AnalysisRequest, a.source.clean = b.source.clean →
      a.fileName.map RawText.clean = b.fileName.map RawText.clean → a.cacheKey = b.cacheKey := by
  refine ⟨fun t => ⟨t.ofString_clean, fun bytes => ?_, t.toByteArray_encode, t.encode_ofString_clean,
    RawText.clean_ofString _⟩, fun source fileName => ?_, fun source fileName facts analyzed => ?_,
    fun a b text name => ?_⟩
  · rw [Utf8.decode?_eq_some_iff, RawText.encode_eq, RawText.clean, String.toList_ofList]
  · refine analyze_congr parser (RawText.clean_ofString _).symm ?_
    rw [Option.map_map]
    exact congrArg (Option.map · fileName) (funext fun name => (RawText.clean_ofString _).symm)
  · refine ⟨source_of_analyze analyzed, fileName_of_analyze analyzed, fun text _ p within => ?_⟩
    exact RawText.not_isSurrogate_of_mem_ofString within
  · exact AnalysisRequest.cacheKey_congr text name

def halves : RawText :=
  [.ofChar 'a', ⟨0xD83D, by decide⟩, ⟨0xDE00, by decide⟩, .ofChar 'z']

def emptyFacts (source fileName : String) : Facts where
  source := source
  fileName := some fileName

theorem halves_cleaned :
    analyze emptyProgram halves (some halves) = .ok (emptyFacts halves.clean halves.clean) ∧
      (∀ text ∈ [halves.clean, halves.clean], ∀ p ∈ RawText.ofString text, ¬ p.IsSurrogate) ∧
      halves.clean = RawText.clean (.ofString "a??z") ∧
      AnalysisRequest.cacheKey ⟨halves, some halves⟩ =
        AnalysisRequest.cacheKey ⟨.ofString "a??z", some halves⟩ := by
  obtain ⟨-, -, stored, keys⟩ := cleaning_transparent emptyProgram
  have analyzed : analyze emptyProgram halves (some halves) =
      .ok (emptyFacts halves.clean halves.clean) := rfl
  have same : halves.clean = RawText.clean (.ofString "a??z") := by decide
  exact ⟨analyzed, (stored _ _ _ analyzed).2.2, same, keys _ _ same rfl⟩

end RenderFlow

import RenderFlow.Facts.Analysis
import RenderFlow.Proofs.Text.Encoding

/-!
What facts say of the text that they come from. An analysis sees a text and its file's name only
after cleaning, and repeats both in its answer.
-/
namespace RenderFlow

namespace Facts

@[simp] theorem source_ofTree (source : String) (fileName : Option String) (root : SyntaxNode) :
    (ofTree source fileName root).source = source := by
  unfold ofTree
  dsimp only
  split <;> rfl

@[simp] theorem fileName_ofTree (source : String) (fileName : Option String) (root : SyntaxNode) :
    (ofTree source fileName root).fileName = fileName := by
  unfold ofTree
  dsimp only
  split <;> rfl

end Facts

theorem Tree.eq_of_checked {root checked : SyntaxNode} (undamaged : root.checked = .ok checked) :
    root = checked := by
  unfold Tree.checked at undamaged
  split at undamaged
  · cases undamaged
  · exact Except.ok.inj undamaged

/-- The tree of a source with the texts of its nodes. -/
def parsed (parser : SyntaxParser) (source : RawText) (fileName : Option RawText) : SyntaxNode :=
  (parser (Grammar.ofFileName (fileName.map RawText.clean)) source.clean).resolve source.encode

theorem analyze_eq_ok_cases {parser : SyntaxParser} {source : RawText} {fileName : Option RawText}
    {facts : Facts} (analyzed : analyze parser source fileName = .ok facts) :
    facts = .ofTree source.clean (fileName.map RawText.clean) (parsed parser source fileName) ∨
      ∃ e : SyntaxError, facts = {
        source := source.clean
        fileName := fileName.map RawText.clean
        errors := ["Failed to parse source: " ++ e.message] } := by
  unfold analyze at analyzed
  dsimp only at analyzed
  split at analyzed
  · rename_i root undamaged
    obtain ⟨-, same⟩ := (afterReading_eq_ok_iff _ _ _).mp analyzed
    rw [parsed, Tree.eq_of_checked undamaged]
    exact .inl same.symm
  · rename_i e _
    exact .inr ⟨e, (Except.ok.inj analyzed).symm⟩

theorem exists_illegible_of_analyze {parser : SyntaxParser} {source : RawText}
    {fileName : Option RawText} {e : TextError} (failed : analyze parser source fileName = .error e) :
    ∃ t ∈ Facts.reads (fileName.map RawText.clean) (parsed parser source fileName),
      t.isLegible = false := by
  unfold analyze at failed
  dsimp only at failed
  split at failed
  · rename_i root undamaged
    rw [parsed, Tree.eq_of_checked undamaged]
    unfold afterReading at failed
    split at failed
    · cases failed
    · rename_i illegible
      simpa using illegible
  · cases failed

theorem source_of_analyze {parser : SyntaxParser} {source : RawText} {fileName : Option RawText}
    {facts : Facts} (analyzed : analyze parser source fileName = .ok facts) :
    facts.source = source.clean := by
  rcases analyze_eq_ok_cases analyzed with rfl | ⟨e, rfl⟩
  · exact Facts.source_ofTree _ _ _
  · rfl

theorem fileName_of_analyze {parser : SyntaxParser} {source : RawText} {fileName : Option RawText}
    {facts : Facts} (analyzed : analyze parser source fileName = .ok facts) :
    facts.fileName = fileName.map RawText.clean := by
  rcases analyze_eq_ok_cases analyzed with rfl | ⟨e, rfl⟩
  · exact Facts.fileName_ofTree _ _ _
  · rfl

theorem analyze_congr (parser : SyntaxParser) {source other : RawText}
    {fileName otherName : Option RawText} (text : source.clean = other.clean)
    (name : fileName.map RawText.clean = otherName.map RawText.clean) :
    analyze parser source fileName = analyze parser other otherName := by
  have bytes : source.encode = other.encode := RawText.encode_inj.mpr text
  unfold analyze
  simp only [text, name, bytes]

end RenderFlow

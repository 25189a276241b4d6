import RenderFlow.Proofs.Facts.Origin
import RenderFlow.Proofs.Text.Paths
import RenderFlow.Service.Reply

/-!
What a file's name is good for. Its extension chooses the grammar and its stem may choose the
component, and both are taken from the last part of the path; so paths with one last part give the same
facts and layout under two names, `analyze_renamed` and `freshLayout_renamed`.
-/
namespace RenderFlow

def Facts.renamed (name : String) (facts : Facts) : Facts :=
  { facts with fileName := some name }

/-- The layout is no other; only the facts that it comes with give the name. -/
def Service.LayoutResult.renamed (name : String) (result : LayoutResult) : LayoutResult :=
  { result with facts := result.facts.renamed name }

theorem Grammar.ofFileName_congr {path other : String}
    (same : FileName.base path = FileName.base other) :
    ofFileName (some path) = ofFileName (some other) := by
  rw [ofFileName, ofFileName, ← FileName.extension_base path, same, FileName.extension_base]

theorem Exports.hint?_some {path : String} (named : path ≠ "") :
    hint? (some path) = some (FileName.stem (FileName.base path)) := by
  simp [hint?, named]

theorem Exports.primary?_congr (e : Exports) {path other : String}
    (named : FileName.base path ≠ "") (same : FileName.base path = FileName.base other) :
    e.primary? (some path) = e.primary? (some other) := by
  have hints : hint? (some path) = hint? (some other) := by
    rw [hint?_some (FileName.ne_empty_of_base named),
      hint?_some (FileName.ne_empty_of_base (same ▸ named)), same]
  rw [primary?, primary?, hints]

section Tree

variable {root : SyntaxNode} {path other : String}

theorem Facts.ofTree_renamed
    (chosen : root.exports.primary? (some path) = root.exports.primary? (some other))
    (source : String) :
    ofTree source (some path) root = (ofTree source (some other) root).renamed path := by
  rw [ofTree, ofTree, Tree.primaryName?, Tree.primaryName?, chosen]
  split <;> rfl

theorem Facts.reads_congr
    (chosen : root.exports.primary? (some path) = root.exports.primary? (some other)) :
    reads (some path) root = reads (some other) root := by
  rw [reads, reads, Tree.primaryName?, Tree.primaryName?, chosen]

end Tree

variable {path other : RawText}

theorem analyze_renamed (named : FileName.base path.clean ≠ "")
    (same : FileName.base path.clean = FileName.base other.clean) (parser : SyntaxParser)
    (source : RawText) :
    analyze parser source (some path) =
      (analyze parser source (some other)).map (·.renamed path.clean) := by
  unfold analyze
  simp only [Option.map_some, Grammar.ofFileName_congr same]
  split
  · rename_i root undamaged
    have chosen := root.exports.primary?_congr named same
    rw [Facts.reads_congr chosen, Facts.ofTree_renamed chosen]
    unfold afterReading
    split <;> rfl
  · rfl

theorem Service.freshLayout_renamed (named : FileName.base path.clean ≠ "")
    (same : FileName.base path.clean = FileName.base other.clean) (parser : SyntaxParser)
    (source : RawText) :
    freshLayout parser ⟨source, some path⟩ =
      (freshLayout parser ⟨source, some other⟩).map (·.renamed path.clean) := by
  rw [freshLayout, freshLayout, analyze_renamed named same]
  cases analyze parser source (some other) <;> rfl

end RenderFlow

import RenderFlow.Graph.Wiring

/-!
A text in the parts between its hyphens. Ids are texts joined by hyphens, so the parts of an id are
those of the texts that it was made of, one after another: `hyphenParts_wireId`.
-/
namespace RenderFlow

namespace Text

/-- An empty part stands wherever two hyphens meet. -/
def hyphenParts (s : String) : List String :=
  (s.toList.splitOn '-').map String.ofList

def Unhyphenated (s : String) : Prop :=
  '-' ∉ s.toList

instance (s : String) : Decidable (Unhyphenated s) :=
  inferInstanceAs (Decidable ('-' ∉ s.toList))

theorem hyphenParts_append (a b : String) :
    hyphenParts (a ++ "-" ++ b) = hyphenParts a ++ hyphenParts b := by
  have letters : (a ++ "-" ++ b).toList = a.toList ++ '-' :: b.toList := by simp
  rw [hyphenParts, letters, List.splitOn_append_cons_self, List.map_append]
  rfl

theorem Unhyphenated.parts {s : String} (whole : Unhyphenated s) : hyphenParts s = [s] := by
  rw [hyphenParts, List.splitOn_eq_singleton whole, List.map_singleton, String.ofList_toList]

theorem unhyphenated_toString (n : Nat) : Unhyphenated (toString n) := by
  intro within
  rw [Nat.toString_eq_repr, Nat.toList_repr] at within
  exact absurd (Nat.isDigit_of_mem_toDigits (by decide) (by decide) within) (by decide)

end Text

namespace Graph

open Text

theorem wireId_cons {part : String} {rest : List String} (more : rest ≠ []) :
    wireId (part :: rest) = part ++ "-" ++ wireId rest :=
  String.intercalate_cons_of_ne_nil more

theorem hyphenParts_wireId {parts : List String} (any : parts ≠ []) :
    hyphenParts (wireId parts) = parts.flatMap hyphenParts := by
  induction parts with
  | nil => exact absurd rfl any
  | cons part rest ih =>
    cases rest with
    | nil => simp [wireId]
    | cons next more =>
      rw [wireId_cons (by simp), hyphenParts_append, ih (by simp)]
      rfl

theorem wireId_hyphenParts (s : String) : wireId (hyphenParts s) = s := by
  rw [← String.toList_inj, wireId, String.toList_intercalate, hyphenParts, List.map_map]
  have letters : String.toList ∘ String.ofList = id := by
    funext cs
    exact String.toList_ofList
  rw [letters, List.map_id]
  exact List.intercalate_splitOn '-'

end Graph

end RenderFlow

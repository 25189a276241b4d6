import Mathlib.Data.List.TakeWhile
import RenderFlow.Proofs.Text.Encoding
import RenderFlow.Text.FileName

/-!
Paths made of directories and a name. The extension of a path is that of its last part, with whatever
dots there are in the directories: `FileName.extension_base`.
-/
namespace RenderFlow

namespace FileName

theorem bare_reverse {name : String} (bare : '/' ∉ name.toList) :
    ∀ c ∈ name.toList.reverse, (c != '/') = true := by
  intro c within
  rw [bne_iff_ne]
  rintro rfl
  exact bare (List.mem_reverse.mp within)

theorem reverse_join (directory name : String) :
    (directory ++ "/" ++ name).toList.reverse =
      name.toList.reverse ++ '/' :: directory.toList.reverse := by
  simp

theorem bare_base (path : String) : '/' ∉ (base path).toList := by
  intro within
  rw [base, String.toList_ofList, List.mem_reverse] at within
  simpa using List.mem_takeWhile_imp within

theorem base_of_bare {name : String} (bare : '/' ∉ name.toList) : base name = name := by
  rw [base, List.takeWhile_eq_self_iff.mpr (bare_reverse bare), List.reverse_reverse,
    String.ofList_toList]

theorem base_join {name : String} (bare : '/' ∉ name.toList) (directory : String) :
    base (directory ++ "/" ++ name) = name := by
  rw [base, reverse_join, List.takeWhile_append_of_pos (bare_reverse bare),
    List.takeWhile_cons_of_neg (by simp), List.append_nil, List.reverse_reverse,
    String.ofList_toList]

theorem eq_base_or (path : String) :
    path = base path ∨ ∃ directory, path = directory ++ "/" ++ base path := by
  have whole := List.takeWhile_append_dropWhile (p := (· != '/')) (l := path.toList.reverse)
  cases dropped : path.toList.reverse.dropWhile (· != '/') with
  | nil =>
    rw [dropped, List.append_nil] at whole
    left
    rw [base, whole, List.reverse_reverse, String.ofList_toList]
  | cons c above =>
    obtain rfl : c = '/' := by
      simpa [dropped] using List.head?_dropWhile_not (· != '/') path.toList.reverse
    right
    refine ⟨String.ofList above.reverse, String.toList_injective (List.reverse_injective ?_)⟩
    rw [reverse_join, base, String.toList_ofList, String.toList_ofList, List.reverse_reverse,
      List.reverse_reverse, ← dropped, whole]

theorem dot_of_dropWhile {name : String} (bare : '/' ∉ name.toList) {c : Char} {stem : List Char}
    (dropped : name.toList.reverse.dropWhile beforeExtension = c :: stem) :
    c = '.' ∧ ∀ x ∈ stem, (x != '/') = true := by
  have within : ∀ x ∈ c :: stem, (x != '/') = true := fun x held =>
    bare_reverse bare x ((List.dropWhile_sublist _).subset (dropped ▸ held))
  have stops : beforeExtension c = false := by
    simpa [dropped] using List.head?_dropWhile_not beforeExtension name.toList.reverse
  refine ⟨?_, fun x held => within x (List.mem_cons_of_mem _ held)⟩
  simpa [beforeExtension, bne_iff_ne.mp (within c List.mem_cons_self)] using stops

theorem extension_join {name : String} (bare : '/' ∉ name.toList) (directory : String) :
    extension (directory ++ "/" ++ name) = extension name := by
  rw [extension, extension, splitExtension, splitExtension, reverse_join]
  simp only [List.dropWhile_append, List.takeWhile_append]
  cases dropped : name.toList.reverse.dropWhile beforeExtension with
  | nil =>
    -- Without a dot in the name the search for one ends at the slash.
    rfl
  | cons c stem =>
    obtain ⟨rfl, inStem⟩ := dot_of_dropWhile bare dropped
    have early : (name.toList.reverse.takeWhile beforeExtension).length ≠
        name.toList.reverse.length := by
      have sizes := congrArg List.length
        (List.takeWhile_append_dropWhile (p := beforeExtension) (l := name.toList.reverse))
      rw [dropped, List.length_append, List.length_cons] at sizes
      omega
    have part : (stem ++ '/' :: directory.toList.reverse).takeWhile (· != '/') =
        stem.takeWhile (· != '/') := by
      rw [List.takeWhile_append_of_pos inStem, List.takeWhile_cons_of_neg (by simp), List.append_nil,
        List.takeWhile_eq_self_iff.mpr inStem]
    simp only [List.isEmpty_cons, Bool.false_eq_true, if_false, List.cons_append, part, if_neg early]
    split <;> rfl

theorem extension_base (path : String) : extension (base path) = extension path := by
  rcases eq_base_or path with same | ⟨directory, joined⟩
  · rw [← same]
  · have inner := extension_join (bare_base path) directory
    rw [← joined] at inner
    exact inner.symm

theorem ne_empty_of_base {path : String} (named : base path ≠ "") : path ≠ "" := by
  rintro rfl
  exact named rfl

end FileName

namespace RawText

def slash : CodePoint := .ofChar '/'

theorem toChar_eq_slash_iff (p : CodePoint) : p.toChar = '/' ↔ p = slash := by
  constructor
  · intro same
    have code := p.toNat_toChar
    rw [same] at code
    split at code
    · exact Fin.ext code.symm
    · exact absurd code (by decide)
  · rintro rfl
    rfl

theorem clean_join (directory name : RawText) :
    clean (directory ++ slash :: name) = directory.clean ++ "/" ++ name.clean := by
  apply String.toList_injective
  simp [clean, toChar_eq_slash_iff]

theorem bare_clean {name : RawText} (bare : slash ∉ name) : '/' ∉ name.clean.toList := by
  simpa [clean, toChar_eq_slash_iff] using bare

theorem clean_ne_empty {name : RawText} (named : name ≠ []) : name.clean ≠ "" := by
  simpa [clean] using named

theorem base_clean {name : RawText} (bare : slash ∉ name) : FileName.base name.clean = name.clean :=
  FileName.base_of_bare (bare_clean bare)

theorem base_clean_join {name : RawText} (bare : slash ∉ name) (directory : RawText) :
    FileName.base (clean (directory ++ slash :: name)) = name.clean := by
  rw [clean_join, FileName.base_join (bare_clean bare)]

end RawText

end RenderFlow

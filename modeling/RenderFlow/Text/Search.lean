/-!
Tests on the characters of a text, and the names in a list without their repetitions.
-/
namespace RenderFlow

namespace Text

def hasPrefix (s start : String) : Bool :=
  start.toList.isPrefixOf s.toList

def hasSuffix (s ending : String) : Bool :=
  ending.toList.isSuffixOf s.toList

def occursIn (needle : List Char) : List Char → Bool
  | [] => needle.isEmpty
  | c :: rest => needle.isPrefixOf (c :: rest) || occursIn needle rest

theorem occursIn_iff (needle hay : List Char) : occursIn needle hay = true ↔ needle <:+: hay := by
  induction hay with
  | nil => simp [occursIn]
  | cons c rest ih =>
    rw [occursIn, Bool.or_eq_true, ih, List.isPrefixOf_iff_prefix, List.infix_cons_iff]

def hasInfix (s needle : String) : Bool :=
  occursIn needle.toList s.toList

/-- Lower case for the letters A to Z; every other character stays. -/
def lower (s : String) : String :=
  String.ofList (s.toList.map Char.toLower)

end Text

def distinct : List String → List String
  | [] => []
  | s :: rest => s :: (distinct rest).filter (· != s)

def addNew (names : List String) (name : String) : List String :=
  if names.contains name then names else names ++ [name]

@[simp] theorem mem_addNew (s name : String) (names : List String) :
    s ∈ addNew names name ↔ s ∈ names ∨ s = name := by
  unfold addNew
  split
  · rename_i h
    have : name ∈ names := by simpa using h
    constructor
    · exact Or.inl
    · rintro (h | rfl) <;> assumption
  · simp

theorem nodup_addNew {names : List String} (nodup : names.Nodup) (name : String) :
    (addNew names name).Nodup := by
  unfold addNew
  split
  · exact nodup
  · rename_i new
    have absent : name ∉ names := by simpa using new
    refine List.nodup_append.mpr ⟨nodup, List.pairwise_singleton _ _, ?_⟩
    intro s held t added same
    rw [List.mem_singleton.mp added] at same
    exact absent (same ▸ held)

@[simp] theorem mem_distinct (s : String) (names : List String) :
    s ∈ distinct names ↔ s ∈ names := by
  induction names with
  | nil => rfl
  | cons first rest ih =>
    by_cases h : s = first <;> simp [distinct, ih, h]

theorem nodup_distinct (names : List String) : (distinct names).Nodup := by
  induction names with
  | nil => exact List.nodup_nil
  | cons first rest ih =>
    refine List.nodup_cons.mpr ⟨?_, ih.filter _⟩
    simp

theorem distinct_append (left right : List String) :
    distinct (left ++ right) = distinct left ++ (distinct right).filter (· ∉ left) := by
  induction left with
  | nil => exact (List.filter_eq_self.mpr fun _ _ => by simp).symm
  | cons first rest ih =>
    rw [List.cons_append, distinct, ih, distinct, List.filter_append, List.filter_filter,
      List.cons_append]
    refine congrArg (first :: · ) (congrArg _ (List.filter_congr fun s _ => ?_))
    by_cases same : s = first <;> simp [same]

end RenderFlow

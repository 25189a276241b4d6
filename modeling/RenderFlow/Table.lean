/-!
A table from names to values that keeps the order in which names first came. Setting a name again
keeps its place and takes the new value, which `keys_set` and `get?_set` say.
-/
namespace RenderFlow

structure Table (α : Type) where
  entries : List (String × α) := []

namespace Table

variable {α : Type}

def get? (t : Table α) (key : String) : Option α :=
  (t.entries.find? (·.1 == key)).map (·.2)

def contains (t : Table α) (key : String) : Bool :=
  t.entries.any (·.1 == key)

def keys (t : Table α) : List String :=
  t.entries.map (·.1)

def set (t : Table α) (key : String) (value : α) : Table α :=
  if t.contains key then
    ⟨t.entries.map fun entry => if entry.1 == key then (key, value) else entry⟩
  else
    ⟨t.entries ++ [(key, value)]⟩

def setAll (t : Table α) (entries : List (String × α)) : Table α :=
  entries.foldl (fun t entry => t.set entry.1 entry.2) t

theorem keys_set (t : Table α) (key : String) (value : α) :
    (t.set key value).keys = if t.contains key then t.keys else t.keys ++ [key] := by
  unfold set
  split
  · simp only [keys, List.map_map]
    apply List.map_congr_left
    intro entry _
    by_cases h : entry.1 = key <;> simp [h]
  · simp [keys]

theorem find?_map_replaced (key other : String) (value : α) (entries : List (String × α)) :
    ((entries.map fun entry => if entry.1 == key then (key, value) else entry).find?
        (·.1 == other)).map (·.2) =
      if other = key then (entries.find? (·.1 == key)).map fun _ => value
      else (entries.find? (·.1 == other)).map (·.2) := by
  induction entries with
  | nil => simp
  | cons entry rest ih =>
    by_cases same : other = key
    · rw [if_pos same] at ih ⊢
      by_cases found : entry.1 = key
      · simp [found, same]
      · have unfound : (entry.1 == key) = false := beq_false_of_ne found
        have unheld : (entry.1 == other) = false := same ▸ unfound
        rw [List.map_cons, List.find?_cons, List.find?_cons]
        simpa only [unfound, unheld, Bool.false_eq_true, if_false] using ih
    · rw [if_neg same] at ih ⊢
      by_cases found : entry.1 = key
      · have unheld : (key == other) = false := beq_false_of_ne (Ne.symm same)
        rw [List.map_cons, List.find?_cons, List.find?_cons]
        simpa only [found, beq_self_eq_true, if_true, unheld] using ih
      · have unfound : (entry.1 == key) = false := beq_false_of_ne found
        rw [List.map_cons, List.find?_cons, List.find?_cons]
        cases held : entry.1 == other
        · simpa only [unfound, held, Bool.false_eq_true, if_false] using ih
        · simp [unfound, held]

theorem get?_set (t : Table α) (key other : String) (value : α) :
    (t.set key value).get? other = if other = key then some value else t.get? other := by
  unfold set get?
  split
  · rename_i held
    obtain ⟨entry, within, found⟩ := List.any_eq_true.mp held
    have some_found : (t.entries.find? (·.1 == key)).isSome :=
      List.find?_isSome.mpr ⟨entry, within, found⟩
    obtain ⟨first, first_found⟩ := Option.isSome_iff_exists.mp some_found
    rw [find?_map_replaced, first_found, Option.map_some]
  · rename_i fresh
    have none_found : t.entries.find? (·.1 == key) = none :=
      List.find?_eq_none.mpr fun entry within found =>
        fresh (List.any_eq_true.mpr ⟨entry, within, found⟩)
    rw [List.find?_append]
    by_cases same : other = key
    · simp [same, none_found]
    · simp [same, Ne.symm same]

theorem contains_set (t : Table α) (key : String) (value : α) : (t.set key value).contains key := by
  unfold set
  split
  · rename_i held
    obtain ⟨entry, within, found⟩ := List.any_eq_true.mp held
    refine List.any_eq_true.mpr ⟨(key, value), List.mem_map.mpr ⟨entry, within, ?_⟩, beq_self_eq_true key⟩
    rw [if_pos found]
  · simp [contains]

theorem set_set (t : Table α) (key : String) (first second : α) :
    (t.set key first).set key second = t.set key second := by
  have again := t.contains_set key first
  rw [set, if_pos again]
  unfold set
  split
  · simp only [List.map_map]
    refine congrArg Table.mk (List.map_congr_left fun entry _ => ?_)
    by_cases named : entry.1 = key <;> simp [named]
  · rename_i fresh
    have kept : t.entries.map (fun entry => if entry.1 == key then (key, second) else entry) =
        t.entries := by
      refine (List.map_congr_left fun entry within => ?_).trans t.entries.map_id
      exact if_neg fun named => fresh (List.any_eq_true.mpr ⟨entry, within, named⟩)
    rw [List.map_append, kept]
    simp

theorem contains_of_get? {t : Table α} {key : String} {value : α}
    (found : t.get? key = some value) : t.contains key := by
  obtain ⟨entry, held, -⟩ := Option.map_eq_some_iff.mp found
  have named := List.find?_some held
  exact List.any_eq_true.mpr ⟨entry, List.mem_of_find?_eq_some held, named⟩

end Table

end RenderFlow

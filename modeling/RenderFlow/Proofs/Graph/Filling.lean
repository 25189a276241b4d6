import RenderFlow.Proofs.Graph.Paths

/-!
The rows of the element tree without the open frames. `Fills` says how siblings and all below them
fill rows; where ids are distinct it holds for the roots, and the frames come to the same rows within
their steps: `exists_rows?`.
-/
namespace RenderFlow.Graph.Hierarchy

/-- Siblings and all below them, from a row to the next one that is free. -/
inductive Fills (h : Hierarchy) : List String → Nat → Places → Nat → Prop
  | nil {row : Nat} : Fills h [] row [] row
  | cons {id : String} {rest : List String} {row last next : Nat} {inner others : Places} :
      Fills h (h.children id) row inner last →
      Fills h rest (row + max (last - row) 1) others next →
      Fills h (id :: rest) row ((id, row) :: inner ++ others) next

def placedIds (places : Places) : List String :=
  places.map (·.1)

variable {h : Hierarchy} {ids up siblings : List String} {row next : Nat} {places : Places}

theorem Fills.le (fills : h.Fills siblings row places next) :
    row ≤ next ∧ next ≤ row + places.length := by
  induction fills with
  | nil => simp
  | cons below after ihBelow ihAfter =>
    simp only [List.length_append, List.length_cons]
    omega

theorem Fills.bounds (fills : h.Fills siblings row places next) :
    ∀ place ∈ places, row ≤ place.2 ∧ place.2 < next := by
  induction fills with
  | nil => simp
  | cons below after ihBelow ihAfter =>
    have lower := below.le
    have upper := after.le
    intro place within
    rcases List.mem_append.mp within with first | later
    · rcases List.mem_cons.mp first with rfl | inside
      · simp only
        omega
      · have := ihBelow place inside
        omega
    · have := ihAfter place later
      omega

/-- Elements on one row are of different depths, where each child is one deeper than its parent. -/
theorem Fills.apart {depth : String → Nat}
    (deeper : ∀ id, ∀ child ∈ h.children id, depth child = depth id + 1)
    (fills : h.Fills siblings row places next) :
    (∀ place ∈ places, ∃ id ∈ siblings, depth id ≤ depth place.1) ∧
      places.Pairwise fun a b => a.2 ≠ b.2 ∨ depth a.1 < depth b.1 := by
  -- The second half needs the first: all that is inside a subtree is deeper than its top.
  induction fills with
  | nil => simp
  | @cons id rest row last next inner others below after ihBelow ihAfter =>
    obtain ⟨deepInner, apartInner⟩ := ihBelow
    obtain ⟨deepOthers, apartOthers⟩ := ihAfter
    have rowsInner := below.bounds
    have rowsOthers := after.bounds
    have deep : ∀ place ∈ inner, depth id < depth place.1 := by
      intro place inside
      obtain ⟨child, hangs, le⟩ := deepInner place inside
      have := deeper id child hangs
      omega
    constructor
    · intro place within
      rcases List.mem_append.mp within with first | later
      · refine ⟨id, List.mem_cons_self, ?_⟩
        rcases List.mem_cons.mp first with rfl | inside
        · exact Nat.le_refl _
        · exact Nat.le_of_lt (deep place inside)
      · obtain ⟨sibling, held, le⟩ := deepOthers place later
        exact ⟨sibling, List.mem_cons_of_mem id held, le⟩
    · refine List.pairwise_append.mpr ⟨List.pairwise_cons.mpr ⟨?_, apartInner⟩, apartOthers, ?_⟩
      · intro place inside
        exact .inr (deep place inside)
      · -- Later siblings begin below the last row of this subtree.
        intro a first b later
        have lower := rowsOthers b later
        left
        rcases List.mem_cons.mp first with rfl | inside
        · simp only
          omega
        · have := rowsInner a inside
          omega

theorem Fills.under (leads : h.Path up) (hang : siblings ⊆ h.level up)
    (fills : h.Fills siblings row places next) :
    ∀ id ∈ placedIds places, ∃ sibling ∈ siblings, h.Under (sibling :: up) id := by
  induction fills generalizing up with
  | nil => simp [placedIds]
  | @cons id rest row last next inner others below after ihBelow ihAfter =>
    obtain ⟨first, later⟩ := List.cons_subset.mp hang
    have longer : h.Path (id :: up) := .cons leads first
    intro other within
    simp only [placedIds, List.map_append, List.map_cons, List.cons_append, List.mem_cons,
      List.mem_append] at within
    rcases within with rfl | inside | outside
    · exact ⟨other, List.mem_cons_self, .self longer⟩
    · obtain ⟨child, -, under⟩ := ihBelow longer (List.Subset.refl _) other inside
      exact ⟨id, List.mem_cons_self, under.tail⟩
    · obtain ⟨sibling, held, under⟩ := ihAfter leads later other outside
      exact ⟨sibling, List.mem_cons_of_mem id held, under⟩

theorem Fills.nodup (forest : h.IsForest ids) (leads : h.Path up) (hang : siblings ⊆ h.level up)
    (distinct : siblings.Nodup) (fills : h.Fills siblings row places next) :
    (placedIds places).Nodup := by
  induction fills generalizing up with
  | nil => exact List.nodup_nil
  | @cons id rest row last next inner others below after ihBelow ihAfter =>
    obtain ⟨first, later⟩ := List.cons_subset.mp hang
    obtain ⟨alone, others_distinct⟩ := List.nodup_cons.mp distinct
    have longer : h.Path (id :: up) := .cons leads first
    have underInner := below.under longer (List.Subset.refl _)
    have underOthers := after.under leads later
    have nodupInner := ihBelow longer (List.Subset.refl _) (forest.distinct (id :: up))
    have nodupOthers := ihAfter leads later others_distinct
    have newInner : id ∉ placedIds inner := by
      intro again
      obtain ⟨child, -, under⟩ := underInner id again
      exact forest.not_under_self longer under
    -- What is under this sibling is under no later one.
    have apart : ∀ other, h.Under (id :: up) other → other ∉ placedIds others := by
      intro other under within
      obtain ⟨sibling, held, under'⟩ := underOthers other within
      rw [forest.under_unique under under'] at alone
      exact alone held
    have shape : placedIds ((id, row) :: inner ++ others) =
        id :: (placedIds inner ++ placedIds others) := by
      simp [placedIds]
    rw [shape]
    refine List.nodup_cons.mpr ⟨?_, List.nodup_append'.mpr ⟨nodupInner, nodupOthers, ?_⟩⟩
    · rw [List.mem_append, not_or]
      exact ⟨newInner, apart id (.self longer)⟩
    · intro other inside
      obtain ⟨child, -, under⟩ := underInner other inside
      exact apart other under.tail

theorem Fills.complete (fills : h.Fills siblings row places next) {id sibling : String}
    (held : sibling ∈ siblings) (under : h.Under (sibling :: up) id) : id ∈ placedIds places := by
  induction fills generalizing up sibling with
  | nil => cases held
  | @cons top rest row last next inner others below after ihBelow ihAfter =>
    simp only [placedIds, List.map_append, List.map_cons, List.cons_append, List.mem_cons,
      List.mem_append]
    rcases List.mem_cons.mp held with rfl | later
    · rcases under.cases with rfl | ⟨child, hangs, deeper⟩
      · exact .inl rfl
      · exact .inr (.inl (ihBelow hangs deeper))
    · exact .inr (.inr (ihAfter later under))

theorem Fills.length_le (forest : h.IsForest ids) (fills : h.Fills h.roots row places next) :
    places.length ≤ ids.length := by
  have nodup := fills.nodup forest .nil (List.Subset.refl _) (forest.distinct [])
  have known : placedIds places ⊆ ids := by
    intro id within
    obtain ⟨root, _, path, leads, _⟩ := fills.under .nil (List.Subset.refl _) id within
    exact forest.path_subset leads List.mem_cons_self
  simpa [placedIds] using (List.subperm_of_subset nodup known).length_le

/-- Rows are found for everything below a path, as no path is longer than the list of all ids. -/
theorem IsForest.exists_fills (forest : h.IsForest ids) {rest : Nat} (leads : h.Path up)
    (enough : ids.length ≤ up.length + rest) (hang : siblings ⊆ h.level up) (row : Nat) :
    ∃ places next, h.Fills siblings row places next := by
  -- `rest` bounds how far down the tree still goes, and a longer path leaves less of it.
  induction rest generalizing up siblings row with
  | zero =>
    cases siblings with
    | nil => exact ⟨[], row, .nil⟩
    | cons id others =>
      have longer : h.Path (id :: up) := .cons leads (hang List.mem_cons_self)
      have := forest.path_length longer
      simp only [List.length_cons] at this
      omega
  | succ rest ih =>
    induction siblings generalizing row with
    | nil => exact ⟨[], row, .nil⟩
    | cons id others ihOthers =>
      obtain ⟨first, later⟩ := List.cons_subset.mp hang
      have longer : h.Path (id :: up) := .cons leads first
      have budget : ids.length ≤ (id :: up).length + rest := by
        simp only [List.length_cons]
        omega
      obtain ⟨inner, last, below⟩ := ih longer budget (List.Subset.refl _) row
      obtain ⟨outer, next, after⟩ := ihOthers later (row + max (last - row) 1)
      exact ⟨_, next, .cons below after⟩

theorem packFrames_child (steps start row : Nat) (child : String) (more : List String)
    (outer : List Frame) (placed : Places) :
    packFrames h (steps + 1) ⟨start, row, child :: more⟩ outer placed =
      packFrames h steps ⟨row, row, h.children child⟩ (⟨start, row, more⟩ :: outer)
        ((child, row) :: placed) := by
  cases outer <;> rfl

theorem packFrames_done (steps start row : Nat) (parent : Frame) (outer : List Frame)
    (placed : Places) :
    packFrames h (steps + 1) ⟨start, row, []⟩ (parent :: outer) placed =
      packFrames h steps { parent with next := parent.next + max (row - start) 1 } outer placed :=
  rfl

/-- The frames go through the siblings in two steps for each element that they place. -/
theorem Fills.packFrames_eq (fills : h.Fills siblings row places next) (steps start : Nat)
    (outer : List Frame) (placed : Places) :
    packFrames h (steps + 2 * places.length) ⟨start, row, siblings⟩ outer placed =
      packFrames h steps ⟨start, next, []⟩ outer (places.reverse ++ placed) := by
  induction fills generalizing steps start outer placed with
  | nil => rfl
  | @cons id rest row last next inner others below after ihBelow ihAfter =>
    -- One step opens the frame of an element and one closes it.
    have count : steps + 2 * ((id, row) :: inner ++ others).length =
        steps + 2 * others.length + 1 + 2 * inner.length + 1 := by
      simp only [List.length_append, List.length_cons]
      omega
    rw [count, packFrames_child, ihBelow, packFrames_done, ihAfter]
    simp

theorem Fills.packFrames_opened {id : String} {last : Nat} {inner : Places}
    (below : h.Fills (h.children id) row inner last) (steps : Nat) :
    packFrames h (steps + 1 + 2 * inner.length) (.opened h id row) [] [(id, row)] =
      some ((id, row) :: inner, max (last - row) 1) := by
  rw [Frame.opened, below.packFrames_eq, packFrames]
  simp [Frame.rows]

theorem Fills.packRoots_eq {roots : List String} (fills : h.Fills roots row places next)
    {steps : Nat} (enough : 2 * places.length < steps) :
    packRoots h steps row roots = some places := by
  induction roots generalizing row places with
  | nil =>
    cases fills
    rfl
  | cons root rest ih =>
    cases fills with
    | @cons _ _ _ last _ inner others below after =>
      simp only [List.length_append, List.length_cons] at enough
      obtain ⟨more, rfl⟩ : ∃ more, steps = more + 1 + 2 * inner.length :=
        ⟨steps - 1 - 2 * inner.length, by omega⟩
      rw [packRoots, below.packFrames_opened]
      simp only [Option.bind_eq_bind, Option.bind_some]
      rw [ih after (by omega)]
      rfl

theorem exists_rows? {elements : List Node} (distinct : (nodeIds elements).Nodup) :
    ∃ places next, rows? elements = some places ∧
      (ofElements elements).Fills (ofElements elements).roots 0 places next := by
  have forest := isForest_ofElements distinct
  obtain ⟨places, next, fills⟩ :=
    forest.exists_fills .nil (Nat.le_add_left _ _) (List.Subset.refl _) 0
  refine ⟨places, next, ?_, fills⟩
  have short : places.length ≤ elements.length := by
    simpa [nodeIds] using fills.length_le forest
  have enough : 2 * places.length < stepBound elements := by
    have grows : elements.length < 2 ^ elements.length := Nat.lt_two_pow_self
    have doubled : stepBound elements = 2 * 2 ^ elements.length := by
      change 2 ^ (elements.length + 1) = _
      omega
    omega
  exact fills.packRoots_eq enough

end RenderFlow.Graph.Hierarchy

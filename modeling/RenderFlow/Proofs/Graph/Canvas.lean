import RenderFlow.Proofs.Graph.Separation

/-!
The canvas of a component's layout. It is fitted to the first places of the nodes and again after
every move, and each time it keeps its margin. Main statement: `Layout.ofFacts_framed`.
-/
namespace RenderFlow.Graph.Layout

open Hierarchy

variable {f : Facts} {places : Places} {next : Nat}

theorem Fits.pack {l : Layout} (fits : l.Fits) (standing : Standing l.pack.nodes) : l.pack.Fits := by
  obtain ⟨width, height, size, -⟩ := id fits
  revert standing
  unfold Layout.pack
  dsimp only
  split
  · exact fun _ => fits
  · split
    · rw [nodes_fit]
      exact fun standing => fits_fit standing size
    · exact fun _ => fits

theorem Fits.pairStates {l : Layout} (fits : l.Fits) (facts : Facts)
    (standing : Standing (l.pairStates facts).nodes) : (l.pairStates facts).Fits := by
  obtain ⟨width, height, size, -⟩ := id fits
  have placed (rows : List StateRow) : (l.placeRows 0 rows).refresh.HasSize width height := by
    rw [placeRows_eq]
    exact size
  revert standing
  unfold Layout.pairStates
  split
  · rw [nodes_fit]
    exact fun standing => fits_fit standing (placed _)
  · exact fun _ => fits

theorem standing_unmoved (nests : f.WellNested) (modest : f.Modest) :
    Standing (unmoved f).nodes := by
  intro n held
  have lane := lane_unmoved held
  by_cases elements : n.kind.lane = .elements
  · rw [elements] at lane
    obtain ⟨index, short, rfl⟩ := List.mem_mapIdx.mp lane
    obtain ⟨d, deep, less⟩ := nests.depth_bounds (List.getElem_mem short)
    simp only [Facts.Modest, Facts.recordCount] at modest
    have across : 960 + d * 160 ≤ nearby := by
      simp only [nearby]
      omega
    have down : 80 + index * 48 ≤ nearby := by
      simp only [nearby]
      omega
    exact ⟨_, _, elementNode_standsAt index deep across down, across, down⟩
  · obtain ⟨y, stands, -, high⟩ := (Facts.descends_lane modest elements).stands n lane
    exact ⟨_, y, stands, Lane.across_le _, by omega⟩

theorem standing_packed (settles : Settles f places next) (nests : f.WellNested)
    (modest : f.Modest) : Standing (unmoved f).pack.nodes := by
  rw [settles.packed]
  intro n within
  obtain ⟨m, held, rfl⟩ := List.mem_map.mp within
  by_cases element : m.isElement
  · obtain ⟨row, -, rows, deep, stands⟩ :=
      packed_element settles nests modest held (beq_iff_eq.mp element)
    simp only [Facts.Modest, Facts.recordCount] at modest
    simp only [nearby]
    exact ⟨_, _, stands, by omega, by omega⟩
  · rw [Node.packed_of_not_isElement element]
    exact standing_unmoved nests modest m held

theorem standing_settled (settles : Settles f places next) (nests : f.WellNested)
    (modest : f.Modest) : Standing (ofFacts f).nodes := by
  rw [settles.settled]
  intro n within
  obtain ⟨m, held, rfl⟩ := List.mem_map.mp within
  obtain ⟨x, y, stands, -, -, across, down⟩ := settle_spans settles nests modest held
  exact ⟨x, y, stands, across, down⟩

theorem size_spread (b : Builder) (columns : b.columns = .standard) :
    b.spread.HasSize ((1160 : Nat) : Rat) ((800 : Nat) : Rat) := by
  refine ⟨?_, rfl⟩
  have wide : Columns.standard.elements.add 200 = .finite ((1160 : Nat) : Rat) :=
    Binary64.add_natCast (m := 960) (n := 200) (by decide)
  rw [← wide, ← columns]
  rfl

theorem fits_ofFacts (settles : Settles f places next) (nests : f.WellNested) (modest : f.Modest) :
    (ofFacts f).Fits := by
  have columns : (Builder.ofFacts f).columns = .standard := by
    have same := columns_unmoved f
    rw [unmoved, Builder.toLayout, columns_fit] at same
    exact same
  -- The canvas is fitted three times, and never before the nodes stand at whole places.
  have first : (unmoved f).Fits := by
    have standing := standing_unmoved nests modest
    rw [unmoved, Builder.toLayout, nodes_fit] at standing
    exact fits_fit standing (size_spread _ columns)
  have second := first.pack (standing_packed settles nests modest)
  exact second.pairStates f (standing_settled settles nests modest)

/-- The boxes of a layout are of one size, apart from one another, and far enough inside the canvas. -/
structure Framed (l : Layout) (width height : Rat) : Prop where
  size : l.HasSize width height
  boxed : ∀ n ∈ l.nodes, ∃ b, n.box? = some b ∧
    b.right = b.left + 120 ∧ b.bottom = b.top + 32 ∧
    0 ≤ b.left ∧ 0 ≤ b.top ∧ b.right + 120 ≤ width ∧ b.bottom + 120 ≤ height
  apart : l.nodes.Pairwise fun m n => ∀ a b, m.box? = some a → n.box? = some b → a.Apart b

theorem ofFacts_framed (nests : f.WellNested) (modest : f.Modest) :
    ∃ width height, (ofFacts f).Framed width height := by
  obtain ⟨places, next, settles⟩ := exists_settles f
  obtain ⟨width, height, size, margins⟩ := fits_ofFacts settles nests modest
  refine ⟨width, height, size, ?_, ?_⟩
  · intro n within
    rw [settles.settled] at within
    obtain ⟨m, held, rfl⟩ := List.mem_map.mp within
    obtain ⟨x, y, stands, spans, top, -, -⟩ := settle_spans settles nests modest held
    have listed : settle f places m ∈ (ofFacts f).nodes := by
      rw [settles.settled]
      exact List.mem_map_of_mem held
    obtain ⟨right, bottom⟩ := margins _ listed x y stands
    have left : ((60 : Nat) : Rat) ≤ x := by exact_mod_cast spans.le
    have above : ((80 : Nat) : Rat) ≤ y := by exact_mod_cast top
    push_cast at right bottom left above
    refine ⟨_, stands.box?_eq, ?_, ?_, ?_, ?_, ?_, ?_⟩ <;> simp only [Node.boxAt] <;> linarith
  · rw [settles.settled, List.pairwise_map]
    refine (List.pairwise_map.mp (distinct_unmoved f)).imp_of_mem ?_
    intro m n left right other a b here there
    obtain ⟨x, y, u, v, stands, stands', far⟩ := settle_clear settles nests modest left right other
    rw [stands.box?_eq, Option.some.injEq] at here
    rw [stands'.box?_eq, Option.some.injEq] at there
    rw [← here, ← there]
    exact Node.boxAt_apart far

end RenderFlow.Graph.Layout

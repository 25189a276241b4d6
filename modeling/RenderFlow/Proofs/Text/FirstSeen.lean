import RenderFlow.Text.Search

/-!
Lists of names in the order in which they are first told. Main statement: `listsFirst_distinct`.
-/
namespace RenderFlow

variable {α : Type}

/-- The names are those that some of the items tell, each once, and a name comes before those that are
told later for the first time. -/
structure ListsFirst (items : List α) (tells : α → String → Prop) (names : List String) : Prop where
  nodup : names.Nodup
  mem_iff : ∀ name, name ∈ names ↔ ∃ a ∈ items, tells a name
  order : names.Pairwise fun name later =>
    ∃ before a after, items = before ++ a :: after ∧ tells a name ∧ ∀ b ∈ before ++ [a], ¬ tells b later

theorem ListsFirst.congr {items : List α} {tells shows : α → String → Prop} {names : List String}
    (listed : ListsFirst items tells names) (same : ∀ a ∈ items, ∀ name, tells a name ↔ shows a name) :
    ListsFirst items shows names where
  nodup := listed.nodup
  mem_iff name := by
    rw [listed.mem_iff]
    exact exists_congr fun a => and_congr_right fun within => same a within name
  order := listed.order.imp fun {name later} => by
    rintro ⟨before, a, after, rfl, told, untold⟩
    have known : ∀ b ∈ before ++ [a], b ∈ before ++ a :: after := by
      intro b earlier
      simp only [List.mem_append, List.mem_cons, List.not_mem_nil, or_false] at earlier ⊢
      exact earlier.imp id .inl
    refine ⟨before, a, after, rfl, (same a (by simp) name).mp told, fun b earlier told => ?_⟩
    exact untold b earlier ((same b (known b earlier) later).mpr told)

theorem listsFirst_distinct (f : α → Option String) (items : List α) :
    ListsFirst items (fun a name => f a = some name) (distinct (items.filterMap f)) where
  nodup := nodup_distinct _
  mem_iff name := by rw [mem_distinct, List.mem_filterMap]
  order := by
    induction items with
    | nil => exact .nil
    | cons a rest ih =>
      -- An item that comes before the others delays none of them.
      have delayed {name later : String} (untold : f a ≠ some later)
          (ordered : ∃ before b after, rest = before ++ b :: after ∧ f b = some name ∧
            ∀ c ∈ before ++ [b], ¬ f c = some later) :
          ∃ before b after, a :: rest = before ++ b :: after ∧ f b = some name ∧
            ∀ c ∈ before ++ [b], ¬ f c = some later := by
        obtain ⟨before, b, after, rfl, told, others⟩ := ordered
        exact ⟨a :: before, b, after, rfl, told, List.forall_mem_cons.mpr ⟨untold, others⟩⟩
      cases told : f a with
      | none =>
        rw [List.filterMap_cons_none told]
        exact ih.imp (delayed (by simp [told]))
      | some first =>
        rw [List.filterMap_cons_some told, distinct, List.pairwise_cons]
        refine ⟨fun later listed => ?_, ?_⟩
        · have other : later ≠ first := by simpa using (List.mem_filter.mp listed).2
          refine ⟨[], a, rest, rfl, told, fun b alone => ?_⟩
          rw [List.mem_singleton.mp alone, told]
          exact fun same => other (Option.some.inj same).symm
        · refine (ih.sublist List.filter_sublist).imp_of_mem fun {name later} _ listed ordered => ?_
          have other : later ≠ first := by simpa using (List.mem_filter.mp listed).2
          exact delayed (by simpa [told] using Ne.symm other) ordered

end RenderFlow

import RenderFlow.Proofs.Graph.Slots

/-!
Which hooks share a row of the state column. Rows are given in the order of the hooks, and no hook that
has a row of its own is placed again. Where no two hooks have one place in one array pattern, the
pairs are just the mates (`StateRow.Plans.pair_mem_iff`) and every hook is placed once.
-/
namespace RenderFlow

open scoped List

namespace Hook

/-- The second hook is the second name of the array pattern whose first name the first one is. -/
structure Opens (a b : Hook) : Prop where
  first : a.origin.pattern = .array ∧ a.origin.index = 0
  second : b.origin.pattern = .array ∧ b.origin.index = 1
  together : a.sameStatement b

/-- No two hooks have one place in the array pattern of one statement. -/
def Apart (hooks : List Hook) : Prop :=
  ∀ a ∈ hooks, ∀ b ∈ hooks, a.origin.pattern = .array → b.origin.pattern = .array →
    a.origin.index = b.origin.index → a.sameStatement b → a = b

/-- The first hook opens an array pattern, and the second one is listed behind it and ends it. -/
structure Mates (hooks : List Hook) (a b : Hook) : Prop where
  listed : [a, b] <+ hooks
  opens : a.Opens b

variable {hooks later : List Hook} {a b c h : Hook}

theorem sameStatement_iff :
    a.sameStatement b ↔ ∃ place, a.definedAt = some place ∧ b.definedAt = some place := by
  rw [sameStatement, Bool.and_eq_true, Option.isSome_iff_exists, beq_iff_eq]
  constructor
  · rintro ⟨⟨place, here⟩, same⟩
    exact ⟨place, here, same ▸ here⟩
  · rintro ⟨place, here, there⟩
    exact ⟨⟨place, here⟩, here.trans there.symm⟩

theorem sameStatement_of_common (left : a.sameStatement c) (right : b.sameStatement c) :
    a.sameStatement b := by
  rw [sameStatement_iff] at left right ⊢
  obtain ⟨place, here, shared⟩ := left
  obtain ⟨other, there, again⟩ := right
  rw [shared] at again
  exact ⟨place, here, again ▸ there⟩

theorem sameStatement_comm : a.sameStatement b ↔ b.sameStatement a := by
  rw [sameStatement_iff, sameStatement_iff]
  exact exists_congr fun _ => And.comm

theorem opens_iff : a.Opens b ↔
    (a.origin.pattern == .array && a.origin.index == 0) ∧
      (b.origin.pattern == .array && b.origin.index == 1 && a.sameStatement b) := by
  simp only [Bool.and_eq_true, beq_iff_eq]
  constructor
  · rintro ⟨first, second, together⟩
    exact ⟨first, second, together⟩
  · rintro ⟨first, second, together⟩
    exact ⟨first, second, together⟩

theorem opens_of_partner? (found : h.partner? later = some b) : b ∈ later ∧ h.Opens b := by
  unfold partner? at found
  split at found
  · rename_i first
    have second := List.find?_some found
    exact ⟨List.mem_of_find?_eq_some found, opens_iff.mpr ⟨first, second⟩⟩
  · cases found

theorem not_opens_of_partner? (alone : h.partner? later = none) (listed : b ∈ later) :
    ¬ h.Opens b := by
  intro opens
  obtain ⟨first, second⟩ := opens_iff.mp opens
  rw [partner?, if_pos first, List.find?_eq_none] at alone
  exact alone b listed second

instance (a b : Hook) : Decidable (a.Opens b) :=
  decidable_of_iff _ opens_iff.symm

instance (hooks : List Hook) : Decidable (Apart hooks) :=
  inferInstanceAs (Decidable (∀ a ∈ hooks, ∀ b ∈ hooks, _ → _ → _ → _ → _))

instance (hooks : List Hook) (a b : Hook) : Decidable (Mates hooks a b) :=
  decidable_of_iff ([a, b] <+ hooks ∧ a.Opens b)
    ⟨fun parts => ⟨parts.1, parts.2⟩, fun mates => ⟨mates.listed, mates.opens⟩⟩

theorem Opens.not_opens (opens : a.Opens b) : ¬ b.Opens c := by
  intro again
  have index := opens.second.2
  rw [again.first.2] at index
  cases index

theorem Apart.eq_of_opens (apart : Apart hooks) (left : b ∈ hooks) (right : c ∈ hooks)
    (opens : a.Opens b) (opens' : a.Opens c) : b = c := by
  apply apart b left c right opens.second.1 opens'.second.1
  · rw [opens.second.2, opens'.second.2]
  · exact sameStatement_of_common (sameStatement_comm.mp opens.together)
      (sameStatement_comm.mp opens'.together)

theorem Apart.eq_of_opened (apart : Apart hooks) (left : a ∈ hooks) (right : b ∈ hooks)
    (opens : a.Opens c) (opens' : b.Opens c) : a = b := by
  apply apart a left b right opens.first.1 opens'.first.1
  · rw [opens.first.2, opens'.first.2]
  · exact sameStatement_of_common opens.together opens'.together

theorem Apart.tail (apart : Apart (h :: later)) : Apart later :=
  fun a left b right => apart a (List.mem_cons_of_mem h left) b (List.mem_cons_of_mem h right)

theorem Mates.mem_left (mates : Mates hooks a b) : a ∈ hooks :=
  mates.listed.subset List.mem_cons_self

theorem Mates.mem_right (mates : Mates hooks a b) : b ∈ hooks :=
  mates.listed.subset (List.mem_cons_of_mem a List.mem_cons_self)

/-- A hook has one mate at most. -/
theorem Apart.mates_unique (apart : Apart hooks) {d : Hook} (mates : Mates hooks a b)
    (mates' : Mates hooks c d) (left : a = h ∨ b = h) (right : c = h ∨ d = h) : a = c ∧ b = d := by
  rcases left with rfl | rfl
  · rcases right with rfl | rfl
    · exact ⟨rfl, apart.eq_of_opens mates.mem_right mates'.mem_right mates.opens mates'.opens⟩
    · exact absurd mates.opens mates'.opens.not_opens
  · rcases right with rfl | rfl
    · exact absurd mates'.opens mates.opens.not_opens
    · exact ⟨apart.eq_of_opened mates.mem_left mates'.mem_left mates.opens mates'.opens, rfl⟩

theorem mates_cons_iff :
    Mates (h :: later) a b ↔ (a = h ∧ b ∈ later ∧ h.Opens b) ∨ Mates later a b := by
  constructor
  · rintro ⟨listed, opens⟩
    rcases List.sublist_cons_iff.mp listed with behind | ⟨rest, same, behind⟩
    · exact .inr ⟨behind, opens⟩
    · obtain ⟨rfl, rfl⟩ := List.cons.inj same
      exact .inl ⟨rfl, List.singleton_sublist.mp behind, opens⟩
  · rintro (⟨rfl, listed, opens⟩ | ⟨listed, opens⟩)
    · exact ⟨(List.singleton_sublist.mpr listed).cons_cons a, opens⟩
    · exact ⟨listed.cons h, opens⟩

end Hook

theorem not_sublist_swap {α : Type} {items : List α} {x y : α} (distinct : items.Nodup)
    (order : [x, y] <+ items) : ¬ [y, x] <+ items := by
  intro swapped
  induction items with
  | nil => cases order
  | cons first rest ih =>
    obtain ⟨fresh, others⟩ := List.nodup_cons.mp distinct
    rcases List.sublist_cons_iff.mp order with behind | ⟨_, same, behind⟩ <;>
      rcases List.sublist_cons_iff.mp swapped with behind' | ⟨_, same', behind'⟩
    · exact ih others behind behind'
    · obtain ⟨rfl, -⟩ := List.cons.inj same'
      exact fresh (behind.subset (List.mem_cons_of_mem x List.mem_cons_self))
    · obtain ⟨rfl, -⟩ := List.cons.inj same
      exact fresh (behind'.subset (List.mem_cons_of_mem y List.mem_cons_self))
    · obtain ⟨rfl, rfl⟩ := List.cons.inj same
      obtain ⟨rfl, rfl⟩ := List.cons.inj same'
      exact fresh (List.singleton_sublist.mp behind)

namespace Graph.StateRow

open Hook

def head : StateRow → String
  | .pair first _ => first
  | .value hook | .function hook => hook

def hooks : StateRow → List String
  | .pair first second => [first, second]
  | .value hook | .function hook => [hook]

theorem head_mem_hooks (r : StateRow) : r.head ∈ r.hooks := by
  cases r <;> exact List.mem_cons_self

def single (called : List String) (h : Hook) : StateRow :=
  if called.contains h.name then .function h.id else .value h.id

@[simp] theorem hooks_single (called : List String) (h : Hook) : (single called h).hooks = [h.id] := by
  unfold single
  split <;> rfl

@[simp] theorem head_single (called : List String) (h : Hook) : (single called h).head = h.id := by
  unfold single
  split <;> rfl

theorem single_ne_pair (called : List String) (h : Hook) (first second : String) :
    single called h ≠ .pair first second := by
  unfold single
  split <;> exact nofun

/-- How hooks get their rows: one that is taken has none, and a partner is taken. -/
inductive Plans (called : List String) : List Hook → List String → List StateRow → Prop
  | nil {taken : List String} : Plans called [] taken []
  | skip {h : Hook} {later : List Hook} {taken : List String} {rows : List StateRow} :
      h.id ∈ taken → Plans called later taken rows → Plans called (h :: later) taken rows
  | pair {h partner : Hook} {later : List Hook} {taken : List String} {rows : List StateRow} :
      h.id ∉ taken → partner ∈ later → h.Opens partner →
      Plans called later (partner.id :: taken) rows →
      Plans called (h :: later) taken (.pair h.id partner.id :: rows)
  | single {h : Hook} {later : List Hook} {taken : List String} {rows : List StateRow} :
      h.id ∉ taken → (∀ k ∈ later, ¬ h.Opens k) → Plans called later taken rows →
      Plans called (h :: later) taken (single called h :: rows)

theorem plans_plan (called : List String) (hooks : List Hook) (taken : List String) :
    Plans called hooks taken (plan called hooks taken) := by
  fun_induction plan called hooks taken with
  | case1 => exact .nil
  | case2 h later taken held ih => exact .skip (by simpa using held) ih
  | case3 h later taken free partner found ih =>
    obtain ⟨listed, opens⟩ := opens_of_partner? found
    exact .pair (by simpa using free) listed opens ih
  | case4 h later taken free alone ih =>
    exact .single (by simpa using free) (fun k listed => not_opens_of_partner? alone listed) ih

variable {called : List String} {hooks : List Hook} {taken : List String} {rows : List StateRow}

theorem Plans.known (plans : Plans called hooks taken rows) {r : StateRow} (within : r ∈ rows)
    {id : String} (placed : id ∈ r.hooks) : ∃ h ∈ hooks, h.id = id := by
  induction plans with
  | nil => cases within
  | skip _ _ ih =>
    obtain ⟨k, listed, named⟩ := ih within
    exact ⟨k, List.mem_cons_of_mem _ listed, named⟩
  | @pair h partner _ _ _ _ listed _ _ ih =>
    rcases List.mem_cons.mp within with rfl | behind
    · simp only [StateRow.hooks, List.mem_cons, List.not_mem_nil, or_false] at placed
      rcases placed with rfl | rfl
      · exact ⟨h, List.mem_cons_self, rfl⟩
      · exact ⟨partner, List.mem_cons_of_mem h listed, rfl⟩
    · obtain ⟨k, listed, named⟩ := ih behind
      exact ⟨k, List.mem_cons_of_mem h listed, named⟩
  | @single h _ _ _ _ _ _ ih =>
    rcases List.mem_cons.mp within with rfl | behind
    · rw [hooks_single, List.mem_singleton] at placed
      exact ⟨h, List.mem_cons_self, placed.symm⟩
    · obtain ⟨k, listed, named⟩ := ih behind
      exact ⟨k, List.mem_cons_of_mem h listed, named⟩

theorem Plans.not_placed (plans : Plans called hooks taken rows) {id : String}
    (fresh : id ∉ hooks.map (·.id)) : id ∉ rows.flatMap StateRow.hooks := by
  intro placed
  obtain ⟨r, within, held⟩ := List.mem_flatMap.mp placed
  obtain ⟨k, listed, named⟩ := plans.known within held
  exact fresh (named ▸ List.mem_map_of_mem listed)

theorem Plans.heads (plans : Plans called hooks taken rows) :
    rows.map head <+ hooks.map (·.id) := by
  induction plans with
  | nil => exact List.Sublist.refl []
  | skip _ _ ih => exact ih.cons _
  | pair _ _ _ _ ih => exact ih.cons_cons _
  | @single h _ _ _ _ _ _ ih =>
    rw [List.map_cons, head_single]
    exact ih.cons_cons h.id

theorem Plans.listed (plans : Plans called hooks taken rows) {before after : List StateRow}
    {r s : StateRow} (split : rows = before ++ r :: after) (earlier : s ∈ before) :
    [s.head, r.head] <+ hooks.map (·.id) := by
  have order : [s.head, r.head] <+ rows.map head := by
    rw [split, List.map_append, List.map_cons]
    have first : [s.head] <+ before.map head :=
      List.singleton_sublist.mpr (List.mem_map_of_mem earlier)
    have second : [r.head] <+ r.head :: after.map head := List.singleton_sublist.mpr List.mem_cons_self
    exact first.append second
  exact order.trans plans.heads

theorem Plans.settled (plans : Plans called hooks taken rows) (distinct : (hooks.map (·.id)).Nodup) :
    rows.Pairwise fun r later => r.head ∉ later.hooks := by
  have behind {id : String} {rows : List StateRow} (unplaced : id ∉ rows.flatMap StateRow.hooks) :
      ∀ r ∈ rows, id ∉ r.hooks :=
    fun r within placed => unplaced (List.mem_flatMap.mpr ⟨r, within, placed⟩)
  induction plans with
  | nil => exact .nil
  | skip _ _ ih => exact ih (List.nodup_cons.mp distinct).2
  | pair _ _ _ plans ih =>
    obtain ⟨fresh, others⟩ := List.nodup_cons.mp distinct
    exact .cons (behind (plans.not_placed fresh)) (ih others)
  | single _ _ plans ih =>
    obtain ⟨fresh, others⟩ := List.nodup_cons.mp distinct
    refine .cons ?_ (ih others)
    rw [head_single]
    exact behind (plans.not_placed fresh)

theorem Plans.lone (plans : Plans called hooks taken rows) (distinct : (hooks.map (·.id)).Nodup)
    {h : Hook} (listed : h ∈ hooks) (free : h.id ∉ taken) (opener : ∀ k, ¬ Mates hooks h k)
    (opened : ∀ k, ¬ Mates hooks k h) : StateRow.single called h ∈ rows := by
  have tail {first : Hook} {later : List Hook} (opener : ∀ k, ¬ Mates (first :: later) h k)
      (opened : ∀ k, ¬ Mates (first :: later) k h) :
      (∀ k, ¬ Mates later h k) ∧ ∀ k, ¬ Mates later k h :=
    ⟨fun k mates => opener k (mates_cons_iff.mpr (.inr mates)),
      fun k mates => opened k (mates_cons_iff.mpr (.inr mates))⟩
  induction plans with
  | nil => cases listed
  | skip held _ ih =>
    obtain ⟨opener, opened⟩ := tail opener opened
    rcases List.mem_cons.mp listed with rfl | behind
    · exact absurd held free
    · exact ih (List.nodup_cons.mp distinct).2 behind free opener opened
  | @pair first partner later _ _ _ within opens _ ih =>
    obtain ⟨opener', opened'⟩ := tail opener opened
    rcases List.mem_cons.mp listed with rfl | behind
    · exact absurd (mates_cons_iff.mpr (.inl ⟨rfl, within, opens⟩)) (opener partner)
    · -- Were it the partner that is taken here, it would have a mate.
      have others := (List.nodup_cons.mp distinct).2
      refine List.mem_cons_of_mem _ (ih others behind ?_ opener' opened')
      rw [List.mem_cons, not_or]
      refine ⟨fun same => ?_, free⟩
      rw [List.inj_on_of_nodup_map others behind within same] at opened
      exact opened first (mates_cons_iff.mpr (.inl ⟨rfl, within, opens⟩))
  | single _ _ _ ih =>
    obtain ⟨opener, opened⟩ := tail opener opened
    rcases List.mem_cons.mp listed with rfl | behind
    · exact List.mem_cons_self
    · exact List.mem_cons_of_mem _ (ih (List.nodup_cons.mp distinct).2 behind free opener opened)

structure Spoken (hooks : List Hook) (taken : List String) : Prop where
  second : ∀ h ∈ hooks, h.id ∈ taken → h.origin.index = 1
  ended : ∀ a ∈ hooks, ∀ b ∈ hooks, b.id ∈ taken → ¬ a.Opens b

theorem spoken_nil (hooks : List Hook) : Spoken hooks [] :=
  ⟨fun _ _ held => (List.not_mem_nil held).elim, fun _ _ _ _ held => (List.not_mem_nil held).elim⟩

theorem Spoken.tail {h : Hook} {later : List Hook} (spoken : Spoken (h :: later) taken) :
    Spoken later taken :=
  ⟨fun k listed => spoken.second k (List.mem_cons_of_mem h listed),
    fun a left b right => spoken.ended a (List.mem_cons_of_mem h left) b (List.mem_cons_of_mem h right)⟩

theorem Spoken.take {h partner : Hook} {later : List Hook} (spoken : Spoken (h :: later) taken)
    (distinct : ((h :: later).map (·.id)).Nodup) (apart : Apart (h :: later))
    (listed : partner ∈ later) (opens : h.Opens partner) : Spoken later (partner.id :: taken) := by
  obtain ⟨fresh, others⟩ := List.nodup_cons.mp distinct
  constructor
  · intro k behind held
    rcases List.mem_cons.mp held with same | old
    · rw [List.inj_on_of_nodup_map others behind listed same]
      exact opens.second.2
    · exact spoken.tail.second k behind old
  · intro a left b right held again
    rcases List.mem_cons.mp held with same | old
    · rw [List.inj_on_of_nodup_map others right listed same] at again
      have equal := apart.eq_of_opened List.mem_cons_self (List.mem_cons_of_mem h left) opens again
      rw [equal] at fresh
      exact fresh (List.mem_map_of_mem left)
    · exact spoken.tail.ended a left b right old again

/-- The pairs are the mates. -/
theorem Plans.pair_mem_iff (plans : Plans called hooks taken rows)
    (distinct : (hooks.map (·.id)).Nodup) (apart : Apart hooks) (spoken : Spoken hooks taken)
    (first second : String) :
    .pair first second ∈ rows ↔ ∃ a b, Mates hooks a b ∧ a.id = first ∧ b.id = second := by
  induction plans with
  | nil =>
    constructor
    · exact nofun
    · rintro ⟨a, b, mates, -⟩
      cases mates.mem_left
  | @skip h later taken rows held plans ih =>
    rw [ih (List.nodup_cons.mp distinct).2 apart.tail spoken.tail]
    simp only [mates_cons_iff]
    -- A hook that is taken is a second name, so it opens nothing itself.
    have ended : ∀ b, ¬ h.Opens b := by
      intro b opens
      have index := spoken.second h List.mem_cons_self held
      rw [opens.first.2] at index
      cases index
    constructor
    · rintro ⟨a, b, mates, names⟩
      exact ⟨a, b, .inr mates, names⟩
    · rintro ⟨a, b, ⟨rfl, -, opens⟩ | mates, names⟩
      · exact absurd opens (ended b)
      · exact ⟨a, b, mates, names⟩
  | @pair h partner later taken rows free listed opens plans ih =>
    have rest := ih (List.nodup_cons.mp distinct).2 apart.tail
      (spoken.take distinct apart listed opens)
    rw [List.mem_cons, rest]
    simp only [mates_cons_iff]
    constructor
    · rintro (same | ⟨a, b, mates, names⟩)
      · obtain ⟨rfl, rfl⟩ := StateRow.pair.inj same
        exact ⟨h, partner, .inl ⟨rfl, listed, opens⟩, rfl, rfl⟩
      · exact ⟨a, b, .inr mates, names⟩
    · rintro ⟨a, b, ⟨rfl, behind, opens'⟩ | mates, rfl, rfl⟩
      · rw [apart.tail.eq_of_opens behind listed opens' opens]
        exact .inl rfl
      · exact .inr ⟨a, b, mates, rfl, rfl⟩
  | @single h later taken rows free alone plans ih =>
    rw [List.mem_cons, ih (List.nodup_cons.mp distinct).2 apart.tail spoken.tail]
    simp only [mates_cons_iff]
    constructor
    · rintro (same | ⟨a, b, mates, names⟩)
      · exact absurd same.symm (single_ne_pair called h first second)
      · exact ⟨a, b, .inr mates, names⟩
    · rintro ⟨a, b, ⟨rfl, behind, opens⟩ | mates, names⟩
      · exact absurd opens (alone b behind)
      · exact .inr ⟨a, b, mates, names⟩

theorem Plans.nodup (plans : Plans called hooks taken rows) (distinct : (hooks.map (·.id)).Nodup)
    (apart : Apart hooks) (spoken : Spoken hooks taken) :
    (rows.flatMap StateRow.hooks).Nodup ∧ ∀ id ∈ rows.flatMap StateRow.hooks, id ∉ taken := by
  induction plans with
  | nil => exact ⟨List.nodup_nil, nofun⟩
  | skip _ _ ih => exact ih (List.nodup_cons.mp distinct).2 apart.tail spoken.tail
  | @pair h partner later taken rows free listed opens plans ih =>
    obtain ⟨fresh, others⟩ := List.nodup_cons.mp distinct
    obtain ⟨nodup, untaken⟩ := ih others apart.tail (spoken.take distinct apart listed opens)
    have different : h.id ≠ partner.id := fun same =>
      fresh (List.mem_map.mpr ⟨partner, listed, same.symm⟩)
    have untaken_partner : partner.id ∉ taken := fun held =>
      spoken.ended h List.mem_cons_self partner (List.mem_cons_of_mem h listed) held opens
    change (h.id :: partner.id :: rows.flatMap StateRow.hooks).Nodup ∧
      ∀ id ∈ h.id :: partner.id :: rows.flatMap StateRow.hooks, id ∉ taken
    constructor
    · refine List.nodup_cons.mpr ⟨?_, List.nodup_cons.mpr ⟨?_, nodup⟩⟩
      · rw [List.mem_cons, not_or]
        exact ⟨different, plans.not_placed fresh⟩
      · exact fun placed => untaken partner.id placed List.mem_cons_self
    · intro id placed
      rcases List.mem_cons.mp placed with rfl | placed
      · exact free
      · rcases List.mem_cons.mp placed with rfl | placed
        · exact untaken_partner
        · exact fun held => untaken id placed (List.mem_cons_of_mem partner.id held)
  | @single h later taken rows free alone plans ih =>
    obtain ⟨fresh, others⟩ := List.nodup_cons.mp distinct
    obtain ⟨nodup, untaken⟩ := ih others apart.tail spoken.tail
    rw [List.flatMap_cons, hooks_single, List.singleton_append]
    constructor
    · exact List.nodup_cons.mpr ⟨plans.not_placed fresh, nodup⟩
    · intro id placed
      rcases List.mem_cons.mp placed with rfl | placed
      · exact free
      · exact untaken id placed

end Graph.StateRow

end RenderFlow

import RenderFlow.Markup.TagName
import RenderFlow.Syntax.Legible

/-!
Names with dots. A search takes the parts of a name off its end, one dot in each round. `Unwinds` says
how far some rounds get and `Collects` what there is when no dot is left, both without the search. Main
statement: `Tree.elementName_collects`.
-/
namespace RenderFlow.Tree

/-- The node joins an object and a property with a dot. Where no field tells them, the first visible
child is the object and the last one is the property; a node that shows no children joins nothing. -/
structure Joins (t object property : SyntaxNode) : Prop where
  dotted : t.isDotted = true
  shown : t.visibleChildren ≠ []
  object : t.child? "object" = some object ∨
    t.child? "object" = none ∧ t.visibleChildren.head? = some object
  property : t.child? "property" = some property ∨
    t.child? "property" = none ∧ t.visibleChildren.getLast? = some property

/-- As many rounds as there are properties lead from the node to the object. The properties are in the
order of the source, so that of the first round is the last. -/
inductive Unwinds : SyntaxNode → SyntaxNode → List SyntaxNode → Prop where
  | start (t : SyntaxNode) : Unwinds t t []
  | round {t object property reached : SyntaxNode} {properties : List SyntaxNode}
      (joins : t.Joins object property) (rest : Unwinds object reached properties) :
      Unwinds t reached (properties ++ [property])

/-- What is collected when no dot is left. A chain that breaks off, at a node that shows no children, has
no innermost object. -/
inductive Collects (t : SyntaxNode) : List SyntaxNode → Prop where
  | whole {first : SyntaxNode} {properties : List SyntaxNode} (run : t.Unwinds first properties)
      (plain : first.isDotted = false) : Collects t (first :: properties)
  | broken {last : SyntaxNode} {properties : List SyntaxNode} (run : t.Unwinds last properties)
      (dotted : last.isDotted = true) (bare : last.visibleChildren = []) : Collects t properties

def dottedName (parts : List SyntaxNode) : String :=
  if parts.isEmpty then unknownName else ".".intercalate (parts.map text)

variable {t object property : SyntaxNode} {properties parts : List SyntaxNode}

section Rounds

theorem joins_iff : t.Joins object property ↔ t.dottedParts? = some (object, property) := by
  have instead {found : Option SyntaxNode} {other c : SyntaxNode} :
      found.getD other = c ↔ found = some c ∨ found = none ∧ some other = some c := by
    cases found <;> simp
  unfold dottedParts?
  split
  · rename_i dotted
    split
    · rename_i nothing
      exact iff_of_false (fun joins => joins.shown nothing) (Option.some_ne_none _).symm
    · rename_i first rest visible
      have head : some first = t.visibleChildren.head? := by rw [visible, List.head?_cons]
      have last : some ((first :: rest).getLast (List.cons_ne_nil first rest)) =
          t.visibleChildren.getLast? := by
        rw [visible, List.getLast?_eq_some_getLast]
      rw [Option.some.injEq, Prod.mk.injEq, instead, instead, head, last]
      constructor
      · intro joins
        exact ⟨joins.object, joins.property⟩
      · rintro ⟨object, property⟩
        exact ⟨dotted, visible ▸ List.cons_ne_nil first rest, object, property⟩
  · rename_i plain
    exact iff_of_false (fun joins => plain joins.dotted) (Option.some_ne_none _).symm

theorem dottedParts?_eq_none_iff :
    t.dottedParts? = none ↔ (t.isDotted = true → t.visibleChildren = []) := by
  unfold dottedParts?
  split
  · rename_i dotted
    cases t.visibleChildren <;> simp [dotted]
  · rename_i plain
    simp [plain]

theorem Joins.size_lt (joins : t.Joins object property) : object.size < t.size :=
  size_dottedParts?_lt (joins_iff.mp joins)

theorem dottedChain_of_joins (joins : t.Joins object property) (found : List SyntaxNode) :
    t.dottedChain found = object.dottedChain (property :: found) := by
  rw [dottedChain, joins_iff.mp joins]

theorem dottedChain_of_plain (plain : t.isDotted = false) (found : List SyntaxNode) :
    t.dottedChain found = t :: found := by
  have ended : t.dottedParts? = none := dottedParts?_eq_none_iff.mpr (by simp [plain])
  rw [dottedChain, ended]
  simp [plain]

theorem dottedChain_of_bare (dotted : t.isDotted = true) (bare : t.visibleChildren = [])
    (found : List SyntaxNode) : t.dottedChain found = found := by
  have ended : t.dottedParts? = none := dottedParts?_eq_none_iff.mpr fun _ => bare
  rw [dottedChain, ended]
  simp [dotted]

/-- What some rounds find stands before what was found earlier, and the search goes on from the node that
they reach. -/
theorem Unwinds.dottedChain_eq (run : t.Unwinds object properties) (found : List SyntaxNode) :
    t.dottedChain found = object.dottedChain (properties ++ found) := by
  induction run generalizing found with
  | start t => rfl
  | round joins rest ih =>
    rw [dottedChain_of_joins joins, ih, List.append_assoc]
    rfl

theorem Unwinds.length_lt (run : t.Unwinds object properties) : properties.length < t.size := by
  induction run with
  | start t =>
    rw [size_eq]
    exact Nat.succ_pos _
  | round joins rest ih =>
    have smaller := joins.size_lt
    rw [List.length_append, List.length_singleton]
    omega

theorem Unwinds.isDotted (run : t.Unwinds object properties) (dots : properties ≠ []) :
    t.isDotted = true := by
  cases run with
  | start => exact absurd rfl dots
  | round joins rest => exact joins.dotted

end Rounds

section Parts

theorem Collects.after (joins : t.Joins object property) (collects : object.Collects parts) :
    t.Collects (parts ++ [property]) := by
  cases collects with
  | whole run plain => exact .whole (.round joins run) plain
  | broken run dotted bare => exact .broken (.round joins run) dotted bare

theorem Collects.dottedChain_eq (collects : t.Collects parts) : t.dottedChain [] = parts := by
  cases collects with
  | whole run plain => rw [run.dottedChain_eq, dottedChain_of_plain plain, List.append_nil]
  | broken run dotted bare => rw [run.dottedChain_eq, dottedChain_of_bare dotted bare, List.append_nil]

theorem exists_collects (t : SyntaxNode) : ∃ parts, t.Collects parts := by
  cases dotted : t.isDotted with
  | false => exact ⟨[t], .whole (.start t) dotted⟩
  | true =>
    cases parted : t.dottedParts? with
    | none => exact ⟨[], .broken (.start t) dotted (dottedParts?_eq_none_iff.mp parted dotted)⟩
    | some pair =>
      obtain ⟨object, property⟩ := pair
      have joins := joins_iff.mpr parted
      have smaller := joins.size_lt
      obtain ⟨parts, collects⟩ := exists_collects object
      exact ⟨parts ++ [property], collects.after joins⟩
termination_by t.size

theorem collects_iff : t.Collects parts ↔ t.dottedChain [] = parts := by
  refine ⟨Collects.dottedChain_eq, ?_⟩
  rintro rfl
  obtain ⟨parts, collects⟩ := exists_collects t
  rwa [collects.dottedChain_eq]

end Parts

theorem isDotted_iff :
    t.isDotted = true ↔ t.kind = "member_expression" ∨ t.kind = "nested_identifier" := by
  simp [isDotted]

theorem nameParts_of_isDotted (dotted : t.isDotted = true) : t.nameParts = t.dottedChain [] := by
  have joined : ["identifier", "jsx_identifier"].contains t.kind = false := by
    rcases isDotted_iff.mp dotted with kind | kind <;> rw [kind] <;> rfl
  rw [nameParts, joined, if_neg Bool.false_ne_true, if_pos dotted]

theorem elementName_of_isDotted (dotted : t.isDotted = true) :
    t.elementName = dottedName (t.dottedChain []) := by
  have joined : t.isNamespaced = false := by
    rcases isDotted_iff.mp dotted with kind | kind <;> rw [isNamespaced, kind] <;> rfl
  rw [elementName, nameParts_of_isDotted dotted, dottedName, joined]
  cases t.dottedChain [] <;> rfl

theorem afterReading_elementName (dotted : t.isDotted = true) (collects : t.Collects parts)
    (name : String) :
    afterReading t.nameParts t.elementName = .ok name ↔
      (∀ part ∈ parts, part.isLegible = true) ∧ name = dottedName parts := by
  rw [afterReading_eq_ok_iff, elementName_of_isDotted dotted, nameParts_of_isDotted dotted,
    collects.dottedChain_eq, eq_comm]

/-- A chain of dots spells its innermost object and then the properties up to the outermost, with dots
between them, provided that these can be read. From whatever node the search begins, it takes fewer rounds
than the tree has nodes and gives what it collects in them. So a chain that breaks off spells the
properties behind the break, and one that breaks off at once is unknown. -/
theorem elementName_collects (t : SyntaxNode) :
    (∀ first properties, t.Unwinds first properties → properties ≠ [] → first.isDotted = false →
      ∀ name, afterReading t.nameParts t.elementName = .ok name ↔
        (∀ part ∈ first :: properties, part.isLegible = true) ∧
          name = ".".intercalate ((first :: properties).map text)) ∧
    (∀ reached properties, t.Unwinds reached properties → properties.length < t.size) ∧
    (∀ parts, t.Collects parts ↔ t.dottedChain [] = parts) ∧
    (t.isDotted = true → ∀ parts, t.Collects parts →
      ∀ name, afterReading t.nameParts t.elementName = .ok name ↔
        (∀ part ∈ parts, part.isLegible = true) ∧ name = dottedName parts) := by
  refine ⟨fun first properties run dots plain => ?_, fun _ _ => Unwinds.length_lt,
    fun parts => collects_iff, fun dotted parts collects => afterReading_elementName dotted collects⟩
  exact afterReading_elementName (run.isDotted dots) (.whole run plain)

def nameNode (kind : String) (field : Option String) (text : String) (below : List SyntaxNode) :
    SyntaxNode :=
  .node ⟨kind, field, some text, ⟨1, 0⟩, true, false, false, 0⟩ below

/-- The name `Layout.Sidebar.Item.Icon`. At its second dot no field tells the parts and comments stand
around them, and at the first one the fields go against the order of the children. -/
def iconName : SyntaxNode :=
  nameNode "member_expression" none "Layout.Sidebar.Item.Icon" [
    nameNode "nested_identifier" (some "object") "Layout.Sidebar.Item" [
      nameNode "comment" none "/* a */" [],
      nameNode "member_expression" none "Layout.Sidebar" [
        nameNode "property_identifier" (some "property") "Sidebar" [],
        nameNode "identifier" (some "object") "Layout" []],
      nameNode "property_identifier" none "Item" [],
      nameNode "comment" none "/* b */" []],
    nameNode "property_identifier" (some "property") "Icon" []]

def bareName : SyntaxNode :=
  nameNode "member_expression" none "." []

def cutName : SyntaxNode :=
  nameNode "nested_identifier" none "..Icon" [
    bareName, nameNode "property_identifier" (some "property") "Icon" []]

theorem iconName_spelled :
    let word (kind : String) (field : Option String) (text : String) := nameNode kind field text []
    let layout := word "identifier" (some "object") "Layout"
    let sidebar := word "property_identifier" (some "property") "Sidebar"
    let item := word "property_identifier" none "Item"
    let icon := word "property_identifier" (some "property") "Icon"
    (iconName.Unwinds layout [sidebar, item, icon] ∧ layout.isDotted = false ∧
      afterReading iconName.nameParts iconName.elementName = .ok "Layout.Sidebar.Item.Icon") ∧
    (cutName.isDotted = true ∧ cutName.Collects [icon] ∧
      afterReading cutName.nameParts cutName.elementName = .ok "Icon") ∧
    bareName.isDotted = true ∧ bareName.Collects [] ∧
      afterReading bareName.nameParts bareName.elementName = .ok "Unknown" := by
  intro word layout sidebar item icon
  have run : iconName.Unwinds layout ([] ++ [sidebar] ++ [item] ++ [icon]) :=
    .round ⟨rfl, nofun, .inl rfl, .inl rfl⟩ <|
      .round ⟨rfl, nofun, .inr ⟨rfl, rfl⟩, .inr ⟨rfl, rfl⟩⟩ <|
        .round ⟨rfl, nofun, .inl rfl, .inl rfl⟩ <| .start layout
  have bare : bareName.Collects [] := .broken (.start bareName) rfl rfl
  have cut : cutName.Collects ([] ++ [icon]) := bare.after ⟨rfl, nofun, .inr ⟨rfl, rfl⟩, .inl rfl⟩
  refine ⟨⟨run, rfl, ?_⟩, ⟨rfl, cut, ?_⟩, rfl, bare, ?_⟩
  · exact ((elementName_collects iconName).1 _ _ run nofun rfl _).mpr ⟨by decide, rfl⟩
  · exact ((elementName_collects cutName).2.2.2 rfl _ cut _).mpr ⟨by decide, rfl⟩
  · exact ((elementName_collects bareName).2.2.2 rfl _ bare _).mpr ⟨nofun, rfl⟩

end RenderFlow.Tree

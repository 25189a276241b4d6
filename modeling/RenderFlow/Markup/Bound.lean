import RenderFlow.Markup.TagName
import RenderFlow.Text.Search

/-!
The names that an element's own markup binds, in its attributes and in the expressions directly
below it.
-/
namespace RenderFlow.Tree

def openingTag? (t : SyntaxNode) : Option SyntaxNode :=
  match t.kind with
  | "jsx_self_closing_element" => some t
  | "jsx_element" => t.child? "open_tag"
  | _ => none

def tagName? (t : SyntaxNode) : Option SyntaxNode :=
  t.openingTag?.bind (·.child? "name")

theorem openingTag?_eq_some_iff {t tag : SyntaxNode} :
    t.openingTag? = some tag ↔
      t.kind = "jsx_self_closing_element" ∧ t = tag ∨
        t.kind = "jsx_element" ∧ t.child? "open_tag" = some tag := by
  unfold openingTag?
  split
  · rename_i closed
    simp [closed]
  · rename_i opened
    simp [opened]
  · rename_i notClosed notOpened
    refine iff_of_false (Option.some_ne_none _).symm ?_
    rintro (⟨closed, -⟩ | ⟨opened, -⟩)
    · exact notClosed closed
    · exact notOpened opened

/-- Only the two kinds of element have a name, by the name field of their tag. -/
theorem tagName?_eq_some_iff {t name : SyntaxNode} :
    t.tagName? = some name ↔
      t.kind = "jsx_self_closing_element" ∧ t.child? "name" = some name ∨
        t.kind = "jsx_element" ∧
          ∃ tag, t.child? "open_tag" = some tag ∧ tag.child? "name" = some name := by
  rw [tagName?, Option.bind_eq_some_iff]
  simp only [openingTag?_eq_some_iff]
  constructor
  · rintro ⟨tag, ⟨closed, rfl⟩ | ⟨opened, given⟩, named⟩
    · exact .inl ⟨closed, named⟩
    · exact .inr ⟨opened, tag, given, named⟩
  · rintro (⟨closed, named⟩ | ⟨opened, tag, given, named⟩)
    · exact ⟨t, .inl ⟨closed, rfl⟩, named⟩
    · exact ⟨tag, .inr ⟨opened, given⟩, named⟩

def memberRoot? (t : SyntaxNode) : Option SyntaxNode :=
  if t.kind == "member_expression" then
    match _h : t.child? "object" with
    | some object => memberRoot? object
    | none => none
  else if t.kind == "identifier" then some t
  else none
termination_by t.size
decreasing_by exact size_lt_of_mem_children (List.mem_of_find?_eq_some _h)

/-- The name that an expression container is about, taken from its first expression. -/
def boundIdentifier? (container : SyntaxNode) : Option SyntaxNode :=
  container.visibleChildren.head?.bind memberRoot?

def boundAttribute? (t : SyntaxNode) : Option (SyntaxNode × SyntaxNode) :=
  if t.kind == "jsx_attribute" then
    match t.visibleChildren with
    | key :: value :: _ =>
      if key.kind == "property_identifier" && value.kind == "jsx_expression" then
        (boundIdentifier? value).map (key, ·)
      else
        none
    | _ => none
  else
    none

def boundAttributes (t : SyntaxNode) : List (SyntaxNode × SyntaxNode) :=
  t.openingTag?.toList.flatMap (·.visibleChildren.filterMap boundAttribute?)

def boundContents (t : SyntaxNode) : List SyntaxNode :=
  if t.kind == "jsx_element" then
    (t.visibleChildren.filter (·.kind == "jsx_expression")).filterMap boundIdentifier?
  else
    []

def boundProps (t : SyntaxNode) : List String :=
  distinct ((t.boundAttributes.map (·.2) ++ t.boundContents).map text)

def boundRefs (t : SyntaxNode) : List String :=
  distinct ((t.boundAttributes.filter (·.1.text == "ref")).map (·.2.text))

/-- The nodes that the bound names are read from; an attribute that binds nothing is not read. -/
def boundReads (t : SyntaxNode) : List SyntaxNode :=
  t.boundAttributes.flatMap (fun (key, name) => [key, name]) ++ t.boundContents

end RenderFlow.Tree

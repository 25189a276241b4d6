import RenderFlow.Syntax.Tree

/-!
The name in a tag: a plain name, a dotted one such as `Menu.Item`, or one with a namespace.
-/
namespace RenderFlow.Tree

def unknownName : String := "Unknown"

def isDotted (t : SyntaxNode) : Bool :=
  ["member_expression", "nested_identifier"].contains t.kind

def dottedParts? (t : SyntaxNode) : Option (SyntaxNode × SyntaxNode) :=
  if t.isDotted then
    match t.visibleChildren with
    | [] => none
    | first :: rest =>
      some ((t.child? "object").getD first,
        (t.child? "property").getD ((first :: rest).getLast (List.cons_ne_nil _ _)))
  else
    none

theorem size_lt_of_mem_children {t c : Tree α} (h : c ∈ t.children) : c.size < t.size := by
  have le_sizeAll : ∀ {ts : List (Tree α)}, c ∈ ts → c.size ≤ sizeAll ts := by
    intro ts hc
    induction ts with
    | nil => cases hc
    | cons t rest ih =>
      rcases List.mem_cons.mp hc with rfl | hc
      · exact Nat.le_add_right _ _
      · exact Nat.le_trans (ih hc) (Nat.le_add_left _ _)
  rw [size_eq t]
  exact Nat.lt_succ_of_le (le_sizeAll h)

theorem size_dottedParts?_lt {t object property : SyntaxNode}
    (h : t.dottedParts? = some (object, property)) : object.size < t.size := by
  unfold dottedParts? at h
  split at h
  · split at h
    · cases h
    · rename_i first rest visible
      cases h
      apply size_lt_of_mem_children
      cases found : t.child? "object" with
      | none =>
        have : first ∈ t.visibleChildren := by simp [visible]
        exact (List.mem_filter.mp this).1
      | some c => exact List.mem_of_find?_eq_some found
  · cases h

/-- Peels properties off the end and puts them in front of the names already found. A chain that
breaks off gives the names found so far. -/
def dottedChain (t : SyntaxNode) (found : List SyntaxNode) : List SyntaxNode :=
  match _h : t.dottedParts? with
  | some (object, property) => dottedChain object (property :: found)
  | none => if t.isDotted then found else t :: found
termination_by t.size
decreasing_by exact size_dottedParts?_lt _h

def namespaceParts (t : SyntaxNode) : List SyntaxNode :=
  match t.visibleChildren with
  | [space, name] => [space, name]
  | _ => []

def isNamespaced (t : SyntaxNode) : Bool :=
  t.kind == "jsx_namespace_name"

def nameParts (t : SyntaxNode) : List SyntaxNode :=
  if ["identifier", "jsx_identifier"].contains t.kind then [t]
  else if t.isDotted then t.dottedChain []
  else if t.isNamespaced then t.namespaceParts
  else []

def elementName (t : SyntaxNode) : String :=
  match t.nameParts with
  | [] => unknownName
  | parts => (if t.isNamespaced then ":" else ".").intercalate (parts.map text)

end RenderFlow.Tree

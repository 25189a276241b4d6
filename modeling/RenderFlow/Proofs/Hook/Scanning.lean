import Mathlib.Data.Option.Basic
import RenderFlow.Hook.Declarations
import RenderFlow.Proofs.Syntax.Visible
import RenderFlow.Proofs.Text.FirstSeen

/-!
What a scan of a function's body reports: every setter and every network call that is made, and every
ref that is written or read, each name once and in the order of the source. Main statement:
`BodyScan.ofFunction_reports`.
-/
namespace RenderFlow

namespace Tree

inductive Calls (t : SyntaxNode) : Callee String → Prop where
  | plain {callee : SyntaxNode} (call : t.kind = "call_expression")
      (given : t.child? "function" = some callee) (name : callee.kind = "identifier") :
      Calls t (.plain callee.text)
  | member {callee object method : SyntaxNode} (call : t.kind = "call_expression")
      (given : t.child? "function" = some callee) (access : callee.kind = "member_expression")
      (left : callee.child? "object" = some object) (right : callee.child? "property" = some method)
      (name : object.kind = "identifier") : Calls t (.member object.text method.text)

/-- The node calls a plain name, or a method of one that is given as `object.method`, and the names are
as wanted. -/
def CallsSuch (plain : String → Prop) (member : String → String → Prop) (t : SyntaxNode)
    (name : String) : Prop :=
  (t.Calls (.plain name) ∧ plain name) ∨
  ∃ object method, t.Calls (.member object method) ∧ member object method ∧
    name = object ++ "." ++ method

/-- The node calls a setter: a name that goes on after `set` with a capital letter, or a method that
mutates what a name stands for. -/
def CallsSetter : SyntaxNode → String → Prop :=
  CallsSuch (fun name => ∃ c rest, name.toList = 's' :: 'e' :: 't' :: c :: rest ∧ 'A' ≤ c ∧ c ≤ 'Z')
    fun _ method => method = "mutate" ∨ method = "mutateAsync"

def CallsNetwork : SyntaxNode → String → Prop :=
  CallsSuch (fun name => name = "fetch" ∨ name = "axios")
    fun object _ => object = "fetch" ∨ object = "axios"

def NamesRef (t : SyntaxNode) (name : String) : Prop :=
  t.kind = "member_expression" ∧
    (∃ object, t.child? "object" = some object ∧ object.kind = "identifier" ∧ object.text = name) ∧
    "Ref".toList <:+ name.toList

theorem callee?_eq_some_iff {t : SyntaxNode} {c : Callee String} :
    t.callee? = some c ↔ t.Calls c := by
  constructor
  · intro called
    obtain ⟨spelled, found, rfl⟩ := Option.map_eq_some_iff.mp called
    by_cases call : t.kind = "call_expression"
    · simp only [spelledCallee?, call, BEq.rfl, guard_true, Option.pure_def, beq_iff_eq,
        Option.bind_eq_bind, Option.bind_some, Option.bind_eq_some_iff] at found
      obtain ⟨callee, given, found⟩ := found
      split at found
      · rename_i name
        cases found
        exact .plain call given name
      · rename_i access
        obtain ⟨object, left, found⟩ := Option.bind_eq_some_iff.mp found
        obtain ⟨method, right, found⟩ := Option.bind_eq_some_iff.mp found
        by_cases name : object.kind = "identifier"
        · simp only [name, guard_true, Option.pure_def, Option.bind_some, Option.some.injEq] at found
          cases found
          exact .member call given access left right name
        · rw [guard, if_neg name] at found
          cases found
      · cases found
    · simp [spelledCallee?, call] at found
  · rintro (⟨call, given, name⟩ | ⟨call, given, access, left, right, name⟩)
    · simp [callee?, spelledCallee?, call, given, name, Callee.map]
    · simp [callee?, spelledCallee?, call, given, access, left, right, name, Callee.map]

theorem accessedRef?_eq_some_iff {t : SyntaxNode} {name : String} :
    t.accessedRef? = some name ↔ t.NamesRef name := by
  by_cases access : t.kind = "member_expression"
  · simp [accessedRef?, accessedObject?, NamesRef, access, Option.filter_eq_some_iff, Text.hasSuffix,
      and_assoc]
  · simp [accessedRef?, accessedObject?, NamesRef, access]

theorem bind_callee?_eq_some_iff {test? : Callee String → Option String} {plain : String → Prop}
    {member : String → String → Prop} {t : SyntaxNode} {name : String}
    (of_plain : ∀ own, test? (.plain own) = some name ↔ plain own ∧ own = name)
    (of_member : ∀ object method, test? (.member object method) = some name ↔
      member object method ∧ object ++ "." ++ method = name) :
    t.callee?.bind test? = some name ↔ t.CallsSuch plain member name := by
  rw [Option.bind_eq_some_iff]
  constructor
  · rintro ⟨c, called, told⟩
    have calls := callee?_eq_some_iff.mp called
    cases c with
    | plain own =>
      obtain ⟨wanted, rfl⟩ := (of_plain own).mp told
      exact .inl ⟨calls, wanted⟩
    | member object method =>
      obtain ⟨wanted, rfl⟩ := (of_member object method).mp told
      exact .inr ⟨object, method, calls, wanted, rfl⟩
  · rintro (⟨calls, wanted⟩ | ⟨object, method, calls, wanted, rfl⟩)
    · exact ⟨_, callee?_eq_some_iff.mpr calls, (of_plain name).mpr ⟨wanted, rfl⟩⟩
    · exact ⟨_, callee?_eq_some_iff.mpr calls, (of_member object method).mpr ⟨wanted, rfl⟩⟩

end Tree

namespace Callee

theorem isSetterName_iff (name : String) : isSetterName name ↔
    ∃ c rest, name.toList = 's' :: 'e' :: 't' :: c :: rest ∧ 'A' ≤ c ∧ c ≤ 'Z' := by
  unfold isSetterName
  constructor
  · intro named
    split at named
    · rename_i c rest letters
      exact ⟨c, rest, letters, by simpa using named⟩
    · cases named
  · rintro ⟨c, rest, letters, large⟩
    simp [letters, large]

theorem setter?_eq_some_iff {t : SyntaxNode} {name : String} :
    t.callee?.bind setter? = some name ↔ t.CallsSetter name :=
  Tree.bind_callee?_eq_some_iff (by simp [setter?, isSetterName_iff])
    (by simp [setter?, isMutateMethod])

theorem externalCall?_eq_some_iff {t : SyntaxNode} {name : String} :
    t.callee?.bind externalCall? = some name ↔ t.CallsNetwork name :=
  Tree.bind_callee?_eq_some_iff (by simp [externalCall?, isNetworkName])
    (by simp [externalCall?, isNetworkName])

end Callee

namespace Placed

/-- The node is what an assignment above it assigns to. -/
def IsTarget (p : Placed) : Prop :=
  ∃ parent, p.parent = some parent ∧
    (parent.kind = "assignment_expression" ∨ parent.kind = "augmented_assignment_expression") ∧
    parent.child? "left" = some p.node

section Resolved

variable {tree : Tree Span} {bytes : List UInt8} {function body : SyntaxNode} {p : Placed}

/-- What is met in a body of a resolved tree hangs from a node of this tree. -/
theorem child_of_mem_visibleParts (inside : function ∈ (tree.resolve bytes).parts)
    (given : function.child? "body" = some body) (met : p ∈ visibleParts ⟨body, some function⟩) :
    ∃ parent ∈ (tree.resolve bytes).parts, p.parent = some parent ∧ p.node ∈ parent.children := by
  rw [← walk_eq_visibleParts] at met
  have held := Tree.mem_children_of_child? given
  rcases parent_of_mem_walk met with rfl | ⟨q, walked, below⟩
  · exact ⟨function, inside, rfl, held⟩
  · obtain ⟨own, visible⟩ := mem_children_of_visibleChild below
    have within : body ∈ (tree.resolve bytes).parts :=
      Tree.parts_trans _ inside (Tree.mem_parts_of_child held)
    have part := body.walk_subset_parts (node_mem_walk walked)
    exact ⟨q.node, Tree.parts_trans _ within part, own, (List.mem_filter.mp visible).1⟩

theorem isAssigned_iff {parent : SyntaxNode} (part : parent ∈ (tree.resolve bytes).parts)
    (above : p.parent = some parent) (child : p.node ∈ parent.children) :
    p.isAssigned ↔ p.IsTarget := by
  have left : p.node.label.field = some "left" ↔ parent.child? "left" = some p.node :=
    ⟨Tree.child?_of_mem_resolve part child, fun found => by simpa using List.find?_some found⟩
  simp [isAssigned, IsTarget, above, Tree.isAssignment, left]

end Resolved

theorem refWrite?_eq_some_iff {p : Placed} {name : String} :
    p.refWrite? = some name ↔ p.node.NamesRef name ∧ p.isAssigned := by
  rw [← Tree.accessedRef?_eq_some_iff, refWrite?]
  cases p.isAssigned <;> simp

theorem refRead?_eq_some_iff {p : Placed} {name : String} :
    p.refRead? = some name ↔ p.node.NamesRef name ∧ ¬ p.isAssigned := by
  rw [← Tree.accessedRef?_eq_some_iff, refRead?]
  cases p.isAssigned <;> simp

end Placed

namespace BodyScan

structure Reports (scan : BodyScan) (nodes : List Placed) : Prop where
  setters : ListsFirst nodes (fun p name => p.node.CallsSetter name) scan.setters
  externalCalls : ListsFirst nodes (fun p name => p.node.CallsNetwork name) scan.externalCalls
  refWrites : ListsFirst nodes (fun p name => p.node.NamesRef name ∧ p.IsTarget) scan.refWrites
  refReads : ListsFirst nodes (fun p name => p.node.NamesRef name ∧ ¬ p.IsTarget) scan.refReads

theorem reports_ofWalk {nodes : List Placed} (assigned : ∀ p ∈ nodes, p.isAssigned ↔ p.IsTarget) :
    (ofWalk true nodes).Reports nodes where
  setters := (listsFirst_distinct _ nodes).congr fun _ _ _ => Callee.setter?_eq_some_iff
  externalCalls := (listsFirst_distinct _ nodes).congr fun _ _ _ => Callee.externalCall?_eq_some_iff
  refWrites := (listsFirst_distinct _ nodes).congr fun p met _ => by
    rw [Placed.refWrite?_eq_some_iff, assigned p met]
  refReads := (listsFirst_distinct _ nodes).congr fun p met _ => by
    rw [Placed.refRead?_eq_some_iff, assigned p met]

/-- The scan of a function literal reports all that its body does, the body itself included. A ref is
both read and written just if it has places of both kinds. Without the refs the rest is the same, so an
effect and a memoized callback that are given one function report the same setters and calls. -/
theorem ofFunction_reports {tree : Tree Span} {bytes : List UInt8} {function body : SyntaxNode}
    (inside : function ∈ (tree.resolve bytes).parts) (literal : function.isFunction = true)
    (given : function.child? "body" = some body) :
    let nodes := Placed.visibleParts ⟨body, some function⟩
    let scan := ofFunction true (some function)
    scan.Reports nodes ∧
    (∀ name, name ∈ scan.refReads ∧ name ∈ scan.refWrites ↔
      (∃ p ∈ nodes, p.node.NamesRef name ∧ ¬ p.IsTarget) ∧
        ∃ p ∈ nodes, p.node.NamesRef name ∧ p.IsTarget) ∧
    ofFunction false (some function) = { scan with refReads := [], refWrites := [] } ∧
    ∀ (call : SyntaxNode) (other : Placed), call.callArguments[0]? = some function →
      other.node.callArguments[0]? = some function →
      ∀ id kind known own,
        (Effect.ofCall id kind known call).setters = (Callback.ofCall own other).setters ∧
        (Effect.ofCall id kind known call).externalCalls =
          (Callback.ofCall own other).externalCalls := by
  intro nodes scan
  have scanned : Placed.scannedNodes (some function) = nodes := by
    rw [Placed.scannedNodes, if_pos literal, Placed.bodyWalk, given]
    exact Placed.walk_eq_visibleParts _
  have reports : scan.Reports nodes := by
    have same : scan = ofWalk true nodes := congrArg (ofWalk true) scanned
    rw [same]
    refine reports_ofWalk fun p met => ?_
    obtain ⟨parent, part, above, child⟩ := Placed.child_of_mem_visibleParts inside given met
    exact Placed.isAssigned_iff part above child
  refine ⟨reports, fun name => ?_, rfl, fun call other first first' id kind known own => ?_⟩
  · rw [reports.refReads.mem_iff, reports.refWrites.mem_iff]
  · simp only [Effect.ofCall, Callback.ofCall, first, first']
    exact ⟨rfl, rfl⟩

/-- A function whose body does, statement by statement, `aRef.x = aRef.x`, `setN()`, `fetch()`,
`q.mutate()`, `setN()` again, `axios.get()` and `bRef.x += 1`. -/
def busyTree : Tree Span :=
  let part (kind : String) (field : Option String) (start stop : Nat) (below : List (Tree Span)) :
      Tree Span :=
    .node ⟨kind, field, start, stop, true, false, false, 0⟩ below
  let member (field : Option String) (start stop next last : Nat) : Tree Span :=
    part "member_expression" field start last [
      part "identifier" (some "object") start stop [],
      part "property_identifier" (some "property") next last []]
  let call (callee : Tree Span) : Tree Span := part "call_expression" none 0 0 [callee]
  part "arrow_function" none 0 41 [
    part "statement_block" (some "body") 0 41 [
      part "assignment_expression" none 0 4 [
        member (some "left") 0 4 40 41, member (some "right") 0 4 40 41],
      call (part "identifier" (some "function") 5 9 []),
      call (part "identifier" (some "function") 10 15 []),
      call (member (some "function") 16 17 18 24),
      call (part "identifier" (some "function") 5 9 []),
      call (member (some "function") 25 30 31 34),
      part "augmented_assignment_expression" none 35 39 [
        member (some "left") 35 39 40 41, part "number" (some "right") 0 0 []]]]

def busyFunction : SyntaxNode :=
  busyTree.resolve (RawText.ofString "aRef setN fetch q mutate axios get bRef x").encode

theorem busyFunction_reports :
    ∃ body, busyFunction.isFunction = true ∧ busyFunction.child? "body" = some body ∧
      (ofFunction true (some busyFunction)).Reports (Placed.visibleParts ⟨body, some busyFunction⟩) ∧
      ofFunction true (some busyFunction) =
        ⟨["setN", "q.mutate"], ["aRef"], ["aRef", "bRef"], ["fetch", "axios.get"]⟩ ∧
      ofFunction false (some busyFunction) =
        ⟨["setN", "q.mutate"], [], [], ["fetch", "axios.get"]⟩ := by
  have held : (busyFunction.child? "body").isSome := by decide +kernel
  have literal : busyFunction.isFunction = true := by decide +kernel
  obtain ⟨body, given⟩ := Option.isSome_iff_exists.mp held
  have told : ofFunction true (some busyFunction) =
      ⟨["setN", "q.mutate"], ["aRef"], ["aRef", "bRef"], ["fetch", "axios.get"]⟩ := by
    decide +kernel
  obtain ⟨reports, -, untracked, -⟩ :=
    ofFunction_reports (Tree.mem_parts_self busyFunction) literal given
  exact ⟨body, literal, given, reports, told, by rw [untracked, told]⟩

end BodyScan

end RenderFlow

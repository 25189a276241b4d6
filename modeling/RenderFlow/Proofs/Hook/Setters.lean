import Mathlib.Data.List.TakeWhile
import RenderFlow.Proofs.Hook.Gathering
import RenderFlow.Proofs.Syntax.Parts

/-!
A state and the setter that is called after it. The name of the setter is recognized in a body and read
back as the name of the state (`Callee.stateName_setterName`), and a scan of a function's body finds
every call of it (`BodyScan.mem_setters`).
-/
namespace RenderFlow

namespace Callee

def setterName (name : String) : String :=
  match name.toList with
  | c :: rest => String.ofList ('s' :: 'e' :: 't' :: c.toUpper :: rest)
  | [] => "set"

/-- A name that its setter says in full. A dot would end it early, a line end too, and a blank is
where the label of a global state goes on after the name. -/
structure IsSpoken (name : String) : Prop where
  small : ∃ c, name.toList.head? = some c ∧ c.isLower
  dotless : '.' ∉ name.toList
  blankless : ' ' ∉ name.toList
  lineless : '\n' ∉ name.toList

theorem IsSpoken.exists_cons {name : String} (spoken : IsSpoken name) :
    ∃ c rest, name.toList = c :: rest ∧ c.isLower := by
  obtain ⟨c, first, small⟩ := spoken.small
  obtain ⟨rest, letters⟩ := List.head?_eq_some_iff.mp first
  exact ⟨c, rest, letters, small⟩

theorem exists_letter_of_isLower {c : Char} (small : c.isLower) :
    ∃ i : Fin 26, c = Char.ofNat (97 + i) := by
  have bounds : (decide ('a'.val ≤ c.val) && decide (c.val ≤ 'z'.val)) = true := small
  have ⟨first, last⟩ : 97 ≤ c.toNat ∧ c.toNat ≤ 122 := by
    simpa [UInt32.le_iff_toNat_le] using bounds
  refine ⟨⟨c.toNat - 97, by omega⟩, ?_⟩
  rw [Nat.add_sub_cancel' first, Char.ofNat_toNat]

theorem toUpper_of_isLower {c : Char} (small : c.isLower) :
    ('A' ≤ c.toUpper ∧ c.toUpper ≤ 'Z') ∧ c.toUpper.toLower = c := by
  obtain ⟨i, rfl⟩ := exists_letter_of_isLower small
  revert i
  decide

theorem isSetterName_setterName {name : String} (spoken : IsSpoken name) :
    isSetterName (setterName name) := by
  obtain ⟨c, rest, letters, small⟩ := spoken.exists_cons
  simp only [setterName, letters, isSetterName, String.toList_ofList, Bool.and_eq_true,
    decide_eq_true_eq]
  exact (toUpper_of_isLower small).1

theorem stateName_setterName {name : String} (spoken : IsSpoken name) :
    stateName (setterName name) = name := by
  obtain ⟨c, rest, letters, small⟩ := spoken.exists_cons
  have dotless := spoken.dotless
  have lineless := spoken.lineless
  rw [letters, List.mem_cons, not_or] at dotless lineless
  have named : (setterName name).toList = 's' :: 'e' :: 't' :: c.toUpper :: rest := by
    rw [setterName, letters, String.toList_ofList]
  have undotted : (setterName name).toList.contains '.' = false := by
    have letter : '.' ≠ c.toUpper := fun same => by
      have large := (toUpper_of_isLower small).1
      rw [← same] at large
      exact absurd large (by decide)
    simp [named, letter, dotless.2]
  have whole : rest.takeWhile (· != '\n') = rest :=
    List.takeWhile_eq_self_iff.mpr fun d within => by
      rw [bne_iff_ne]
      exact fun same => lineless.2 (same ▸ within)
  rw [stateName, undotted, isSetterName_setterName spoken, named]
  simp only [Bool.false_eq_true, if_false, if_true, List.drop_succ_cons, List.drop_zero, whole,
    (toUpper_of_isLower small).2]
  rw [← letters, String.ofList_toList]

end Callee

namespace Tree

/-- Somewhere in the body of the function literal, or as its body, a call is addressed to this name. -/
def CallsPlainly (function : SyntaxNode) (name : String) : Prop :=
  function.isFunction ∧ ∃ body, function.child? "body" = some body ∧
    ∃ call ∈ body.walk, call.plainCallee?.map text = some name

/-- The first argument of a call is a function that calls this name. -/
def HandsOver (call : SyntaxNode) (name : String) : Prop :=
  ∃ function, call.callArguments[0]? = some function ∧ function.CallsPlainly name

instance (function : SyntaxNode) (name : String) : Decidable (function.CallsPlainly name) :=
  decidable_of_iff (function.isFunction ∧ ∃ body ∈ function.child? "body",
    ∃ call ∈ body.walk, call.plainCallee?.map text = some name) (by rfl)

instance (call : SyntaxNode) (name : String) : Decidable (call.HandsOver name) :=
  decidable_of_iff (∃ function ∈ call.callArguments[0]?, function.CallsPlainly name) (by rfl)

theorem callee?_of_plainCallee? {call callee : SyntaxNode} (plain : call.plainCallee? = some callee) :
    call.callee? = some (.plain callee.text) := by
  obtain ⟨kind, given, identifier⟩ := plainCallee?_eq_some_iff.mp plain
  have call_checked : (guard (call.kind == "call_expression") : Option Unit) = some () := by
    rw [kind]
    rfl
  rw [callee?, spelledCallee?, call_checked, given]
  dsimp only [Option.bind_eq_bind, Option.bind_some]
  rw [identifier]
  rfl

end Tree

namespace BodyScan

theorem mem_setters {call : SyntaxNode} {setter : String} (trackRefs : Bool)
    (called : call.HandsOver setter) (named : Callee.isSetterName setter) :
    setter ∈ (ofFunction trackRefs call.callArguments[0]?).setters := by
  obtain ⟨function, first, literal, body, given, inner, within, plain⟩ := called
  have scanned : Placed.scannedNodes (some function) = Placed.walk ⟨body, some function⟩ := by
    rw [Placed.scannedNodes, if_pos literal, Placed.bodyWalk, given]
  rw [← Tree.map_node_walk ⟨body, some function⟩] at within
  obtain ⟨p, met, rfl⟩ := List.mem_map.mp within
  obtain ⟨callee, addressed, rfl⟩ := Option.map_eq_some_iff.mp plain
  rw [first, ofFunction, scanned, ofWalk, mem_distinct]
  refine List.mem_filterMap.mpr ⟨p, met, ?_⟩
  rw [Tree.callee?_of_plainCallee? addressed, Option.bind_some, Callee.setter?, if_pos named]

end BodyScan

end RenderFlow

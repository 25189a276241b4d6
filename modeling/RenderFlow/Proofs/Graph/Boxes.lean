import Mathlib.Algebra.Order.Ring.Rat
import Mathlib.Tactic.Linarith
import Mathlib.Tactic.NormNum
import RenderFlow.Proofs.Graph.Anchors

/-!
Boxes at whole places that are near enough to be exact. Fitting a canvas to such boxes leaves each of
them its margin: `Layout.fits_fit`.
-/
namespace RenderFlow

namespace Binary64

theorem ofRat_natCast {n : Nat} (short : n ≤ Nat.pow 2 53) : ofRat (n : Rat) = .finite n := by
  have exact := ofRat_intCast (n := n) (by simpa using short)
  simpa using exact

theorem add_natCast {m n : Nat} (short : m + n ≤ Nat.pow 2 53) :
    add (.finite m) (.finite n) = .finite ((m + n : Nat) : Rat) := by
  rw [add, ← ofRat_natCast short, Nat.cast_add]

theorem half_natCast {n : Nat} (short : n ≤ Nat.pow 2 53) :
    half (.finite ((2 * n : Nat) : Rat)) = .finite n := by
  have halved : ((2 * n : Nat) : Rat) / 2 = n := by
    rw [Nat.cast_mul, Nat.cast_ofNat, mul_div_cancel_left₀ _ two_ne_zero]
  rw [half, map, halved, ofRat_natCast short]

end Binary64

namespace Graph

structure Box where
  left : Rat
  right : Rat
  top : Rat
  bottom : Rat
deriving DecidableEq, Repr

/-- Two boxes do not even touch. -/
def Box.Apart (a b : Box) : Prop :=
  a.right < b.left ∨ b.right < a.left ∨ a.bottom < b.top ∨ b.bottom < a.top

namespace Node

def box? (n : Node) : Option Box :=
  match n.x, n.y, n.width, n.height with
  | .finite x, .finite y, .finite w, .finite h =>
    some ⟨x - w / 2, x + w / 2, y - h / 2, y + h / 2⟩
  | _, _, _, _ => none

/-- A node of the usual size at a whole place. -/
structure StandsAt (n : Node) (x y : Nat) : Prop where
  x_eq : n.x = .finite x
  y_eq : n.y = .finite y
  width_eq : n.width = 120
  height_eq : n.height = 32

variable {n m : Node} {x y u v : Nat}

def boxAt (x y : Nat) : Box :=
  ⟨x - 60, x + 60, y - 16, y + 16⟩

theorem StandsAt.box?_eq (stands : n.StandsAt x y) : n.box? = some (boxAt x y) := by
  simp only [box?, stands.x_eq, stands.y_eq, stands.width_eq, stands.height_eq, OfNat.ofNat, boxAt]
  norm_num

theorem StandsAt.eq (stands : n.StandsAt x y) (again : n.StandsAt u v) : x = u ∧ y = v := by
  have across := stands.x_eq.symm.trans again.x_eq
  have down := stands.y_eq.symm.trans again.y_eq
  simp only [Binary64.finite.injEq, Nat.cast_inj] at across down
  exact ⟨across, down⟩

theorem boxAt_apart (far : x + 120 < u ∨ u + 120 < x ∨ y + 32 < v ∨ v + 32 < y) :
    (boxAt x y).Apart (boxAt u v) := by
  have cast {a b c : Nat} (h : a + c < b) : (a : Rat) + c < b := by exact_mod_cast h
  simp only [Box.Apart, boxAt]
  rcases far with h | h | h | h
  · left; have := cast h; push_cast at this; linarith
  · right; left; have := cast h; push_cast at this; linarith
  · right; right; left; have := cast h; push_cast at this; linarith
  · right; right; right; have := cast h; push_cast at this; linarith

end Node

/-- No place on a canvas of this size is rounded. -/
def nearby : Nat := 2 ^ 48

def Standing (nodes : List Node) : Prop :=
  ∀ n ∈ nodes, ∃ x y, n.StandsAt x y ∧ x ≤ nearby ∧ y ≤ nearby

theorem atLeast_finite (a b : Rat) :
    ∃ c, atLeast (.finite a) (.finite b) = .finite c ∧ a ≤ c ∧ b ≤ c := by
  unfold atLeast Binary64.isLess
  by_cases less : a < b
  · exact ⟨b, by simp [less], le_of_lt less, le_refl b⟩
  · exact ⟨a, by simp [less], le_refl a, not_lt.mp less⟩

namespace Layout

theorem reach_natCast {place size : Nat} (near : place ≤ nearby) (small : size ≤ nearby) :
    reach (.finite place) (.finite ((2 * size : Nat) : Rat)) =
      .finite ((place + size + 120 : Nat) : Rat) := by
  have margin : canvasMargin = .finite ((120 : Nat) : Rat) := rfl
  have bound : nearby + nearby + 120 ≤ Nat.pow 2 53 := by decide
  have wide : size ≤ Nat.pow 2 53 := by omega
  have inner : place + size ≤ Nat.pow 2 53 := by omega
  have outer : place + size + 120 ≤ Nat.pow 2 53 := by omega
  rw [reach, Binary64.half_natCast wide, Binary64.add_natCast inner, margin,
    Binary64.add_natCast outer]

def HasSize (l : Layout) (width height : Rat) : Prop :=
  l.width = .finite width ∧ l.height = .finite height

/-- The canvas keeps the margin right of and below every box. -/
def Fits (l : Layout) : Prop :=
  ∃ width height, l.HasSize width height ∧
    ∀ n ∈ l.nodes, ∀ x y, n.StandsAt x y →
      ((x + 60 + 120 : Nat) : Rat) ≤ width ∧ ((y + 16 + 120 : Nat) : Rat) ≤ height

theorem growFor_size {l : Layout} {n : Node} {x y : Nat} {width height : Rat}
    (size : l.HasSize width height) (stands : n.StandsAt x y) (near : x ≤ nearby ∧ y ≤ nearby) :
    ∃ wider higher, (l.growFor n).HasSize wider higher ∧
      width ≤ wider ∧ height ≤ higher ∧
      ((x + 60 + 120 : Nat) : Rat) ≤ wider ∧ ((y + 16 + 120 : Nat) : Rat) ≤ higher := by
  have across : reach n.x n.width = .finite ((x + 60 + 120 : Nat) : Rat) := by
    have whole : (120 : Binary64) = .finite ((2 * 60 : Nat) : Rat) := rfl
    rw [stands.x_eq, stands.width_eq, whole, reach_natCast near.1 (by decide)]
  have down : reach n.y n.height = .finite ((y + 16 + 120 : Nat) : Rat) := by
    have whole : (32 : Binary64) = .finite ((2 * 16 : Nat) : Rat) := rfl
    rw [stands.y_eq, stands.height_eq, whole, reach_natCast near.2 (by decide)]
  obtain ⟨wider, wide, left, right⟩ := atLeast_finite width ((x + 60 + 120 : Nat) : Rat)
  obtain ⟨higher, high, top, bottom⟩ := atLeast_finite height ((y + 16 + 120 : Nat) : Rat)
  refine ⟨wider, higher, ⟨?_, ?_⟩, left, top, right, bottom⟩
  · rw [← wide, ← size.1, ← across]
    rfl
  · rw [← high, ← size.2, ← down]
    rfl

theorem foldl_growFor_size {nodes : List Node} (standing : Standing nodes) {l : Layout}
    {width height : Rat} (size : l.HasSize width height) :
    ∃ wider higher, (nodes.foldl growFor l).HasSize wider higher ∧
      width ≤ wider ∧ height ≤ higher ∧
      ∀ n ∈ nodes, ∀ x y, n.StandsAt x y →
        ((x + 60 + 120 : Nat) : Rat) ≤ wider ∧ ((y + 16 + 120 : Nat) : Rat) ≤ higher := by
  induction nodes generalizing l width height with
  | nil => exact ⟨width, height, size, le_refl _, le_refl _, by simp⟩
  | cons n rest ih =>
    obtain ⟨first, others⟩ := List.forall_mem_cons.mp standing
    obtain ⟨x, y, stands, near⟩ := first
    obtain ⟨w, h, grown, wide, high, right, bottom⟩ := growFor_size size stands near
    obtain ⟨wider, higher, last, wider_le, higher_le, fits⟩ := ih others grown
    refine ⟨wider, higher, last, wide.trans wider_le, high.trans higher_le, ?_⟩
    intro m within u v there
    rcases List.mem_cons.mp within with rfl | later
    · obtain ⟨rfl, rfl⟩ := stands.eq there
      exact ⟨right.trans wider_le, bottom.trans higher_le⟩
    · exact fits m later u v there

theorem fits_fit {l : Layout} (standing : Standing l.nodes) {width height : Rat}
    (size : l.HasSize width height) : l.fit.Fits := by
  obtain ⟨wider, higher, last, -, -, fits⟩ := foldl_growFor_size standing size
  refine ⟨wider, higher, last, ?_⟩
  rw [nodes_fit]
  exact fits

end Layout

end Graph

end RenderFlow

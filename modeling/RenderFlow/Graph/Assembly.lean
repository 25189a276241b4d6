import RenderFlow.Graph.Fault
import RenderFlow.Graph.Packing
import RenderFlow.Graph.Pairing
import RenderFlow.Graph.Wiring

/-!
The finished layout of a component: nodes and edges first, then the rows of the elements and of the
state column.
-/
namespace RenderFlow.Graph

namespace Builder

def ofFacts (f : Facts) : Builder :=
  let inventory := Inventory.ofFacts f
  inventory.builder.addWires (Wire.ofFacts inventory f)

end Builder

namespace Layout

def ofFacts (f : Facts) : Layout :=
  (Builder.ofFacts f).toLayout.pack.pairStates f

/-- Why a component cannot be laid out: an element is nested so deep that no number tells its
place. -/
def fault? (f : Facts) : Option Fault :=
  f.elements.findSome? fun e => Fault.ofTerm? (.int (e.depth * 160))

def build : Option Facts → Except Fault Layout
  | some f => do
    Fault.refuse (fault? f)
    return ofFacts f
  | none => return Builder.blank .standard

/-- A layout is refused only for a depth that no floating-point number holds. -/
theorem build_eq_ok {f : Facts}
    (near : ∀ e ∈ f.elements, (Binary64.ofRat (e.depth * 160 : Int)).isFinite) :
    build (some f) = .ok (ofFacts f) := by
  have sound : fault? f = none := List.findSome?_eq_none_iff.mpr fun e within => by
    rw [Fault.ofTerm?, if_pos (near e within)]
  rw [build, sound]
  rfl

end Layout

end RenderFlow.Graph

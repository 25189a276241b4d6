import RenderFlow.Graph.Basic
import RenderFlow.Json.Reading

/-!
What can stop a step on a graph. Metadata and places set by hand are kept as they were written, and a
step looks at one of them only when it needs it. It is then refused if it cannot go on.
-/
namespace RenderFlow.Graph

inductive Fault where
  | notANumber
  /-- A whole number is larger than any floating-point number. -/
  | tooLarge
  | notAnId
  | notASequence
  | wrongCount
  | unknownKind
  | mistyped
  | noLayout
  | unknownNode
deriving DecidableEq, Repr

namespace Fault

def ofTerm? : Json → Option Fault
  | .int n => if (Binary64.ofRat n).isFinite then none else some .tooLarge
  | .real _ | .minusZero | .bool _ => none
  | _ => some .notANumber

def ofCoordinate? (j : Json) : Option Fault :=
  if j.asReal?.isSome then none else some .mistyped

/-- Why a value cannot be looked up among ids. Numbers can be, though no id is a number. -/
def ofId? : Json → Option Fault
  | .list _ | .object _ => some .notAnId
  | _ => none

def refuse [Monad m] [MonadExcept Fault m] : Option Fault → m Unit
  | some fault => throw fault
  | none => pure ()

end Fault

namespace Node

def xFault? (n : Node) : Option Fault :=
  n.written.bind fun place => Fault.ofTerm? place.1

def yFault? (n : Node) : Option Fault :=
  n.written.bind fun place => Fault.ofTerm? place.2

/-- Why no edge can end at a node: its end is calculated from left to right and only read from top to
bottom. -/
def endFault? (n : Node) : Option Fault :=
  n.xFault? <|> n.written.bind fun place => Fault.ofCoordinate? place.2

def depthFault? (n : Node) : Option Fault :=
  match n.info.get? "depth" with
  | some (.int depth) => Fault.ofTerm? (.int (depth * 160))
  | some j => Fault.ofTerm? j
  | none => none

def infoFault? (n : Node) (key : String) : Option Fault :=
  (n.info.get? key).bind Fault.ofId?

def coordinate (j : Json) : Binary64 :=
  (j.scaled? 1 0 <|> j.asReal?).getD 0

def moved (x y : Json) (n : Node) : Node :=
  { n with x := coordinate x, y := coordinate y, written := some (x, y) }

theorem xFault?_eq_none {n : Node} (unwritten : n.written = none) : n.xFault? = none := by
  rw [xFault?, unwritten, Option.bind_none]

theorem yFault?_eq_none {n : Node} (unwritten : n.written = none) : n.yFault? = none := by
  rw [yFault?, unwritten, Option.bind_none]

theorem endFault?_eq_none {n : Node} (unwritten : n.written = none) : n.endFault? = none := by
  rw [endFault?, xFault?_eq_none unwritten, unwritten]
  rfl

end Node

namespace Edge

def fault? (source target : Node) : Option Fault :=
  source.endFault? <|> target.endFault?

end Edge

end RenderFlow.Graph

import RenderFlow.Syntax.Tree

/-!
Trees written as rows, parents before their children. Reading goes from the last row to the first,
so that the children of a row are complete when its turn comes.
-/
namespace RenderFlow

structure Row where
  parent : Option Nat
  span : Span

namespace Row

abbrev Pending := List (Option Nat × Tree Span)

def attach (index : Nat) (row : Row) (pending : Pending) : Pending :=
  let (below, others) := pending.partition (·.1 == some index)
  (row.parent, .node row.span (below.map (·.2))) :: others

def attachAll (index : Nat) : List Row → Pending
  | [] => []
  | row :: rest => row.attach index (attachAll (index + 1) rest)

def toTree? (rows : List Row) : Option (Tree Span) :=
  (attachAll 0 rows).head?.map (·.2)

/-- A row of its columns. An empty field is none, and the flags are letters for named, missing and
damaged. -/
def ofColumns (index : Nat) (parent : Option Nat) (kind field : String) (start stop : Nat)
    (flags : String) : Row where
  parent := parent
  span := {
    kind := kind
    field := if field == "" then none else some field
    start := start
    stop := stop
    named := flags.toList.contains 'n'
    missing := flags.toList.contains 'm'
    damaged := flags.toList.contains 'e'
    serial := index }

/-- The columns of a line stand between tabs; only the root has no number for its parent. -/
def ofLine? (index : Nat) (line : String) : Option Row := do
  let text := String.ofList (line.toList.takeWhile fun c => c != '\n' && c != '\r')
  let [parent, kind, field, start, stop, flags] := text.splitOn "\t" | none
  return ofColumns index parent.toNat? kind field (← start.toNat?) (← stop.toNat?) flags

end Row

end RenderFlow

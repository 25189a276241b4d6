/-!
Places in a source: lines count from one and columns count bytes from zero.
-/
namespace RenderFlow

structure Position where
  line : Int
  column : Int
deriving DecidableEq, Repr

/-- A line ends with the byte 10, so the column is the number of bytes after the last of those. -/
def Position.ofOffset (bytes : List UInt8) (offset : Nat) : Position :=
  let before := bytes.take offset
  { line := before.count 10 + 1
    column := (before.reverse.takeWhile (· != 10)).length }

end RenderFlow

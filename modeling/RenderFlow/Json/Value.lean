import RenderFlow.Binary64
import RenderFlow.Table

/-!
JSON values with their fields in order. A whole number written without a point is kept apart from
one written with it, because both spellings are printed, and so is a zero with a point and a minus.
-/
namespace RenderFlow

inductive Json where
  | null
  | bool (value : Bool)
  | int (value : Int)
  | real (value : Binary64)
  | minusZero
  | text (value : String)
  | list (items : List Json)
  | object (fields : List (String × Json))
deriving Inhabited

namespace Json

/-- The last of the fields with this name, as a reader of the text would see it. -/
def field? (fields : List (String × Json)) (name : String) : Option Json :=
  (fields.reverse.find? (·.1 == name)).map (·.2)

def ofTexts (texts : List String) : Json :=
  .list (texts.map .text)

def ofText? : Option String → Json
  | some s => .text s
  | none => .null

def asText? : Json → Option String
  | .text s => some s
  | _ => none

/-- A number times a factor and plus a term, where only a number with a point is rounded before. A
truth value counts as one or zero. -/
def scaled? (factor term : Rat) : Json → Option Binary64
  | .int n => some (.ofRat (n * factor + term))
  | .real a => some (a.map fun q => q * factor + term)
  | .minusZero => some (.ofRat term)
  | .bool b => some (.ofRat ((if b then factor else 0) + term))
  | _ => none

def amount? : Json → Option Rat
  | .int n => some n
  | .real (.finite a) => some a
  | .minusZero => some 0
  | .bool b => some (if b then 1 else 0)
  | _ => none

def texts : Json → List String
  | .list items => items.filterMap asText?
  | _ => []

mutual

def reals : Json → List Binary64
  | .real a => [a]
  | .list items => realsOfItems items
  | .object fields => realsOfFields fields
  | _ => []

def realsOfItems : List Json → List Binary64
  | [] => []
  | item :: rest => item.reals ++ realsOfItems rest

def realsOfFields : List (String × Json) → List Binary64
  | [] => []
  | (_, value) :: rest => value.reals ++ realsOfFields rest

end

def firstWithoutDigits? (j : Json) : Option Binary64 :=
  j.reals.find? (!·.isFinite)

@[simp] theorem texts_ofTexts (texts : List String) : (ofTexts texts).texts = texts := by
  simp only [ofTexts, Json.texts, List.filterMap_map]
  induction texts with
  | nil => rfl
  | cons s rest ih => simpa [asText?] using ih

end Json

abbrev Metadata := Table Json

end RenderFlow

import RenderFlow.Json.Number
import RenderFlow.Json.Value
import RenderFlow.Text.Search

/-!
Reading records from JSON. Unknown fields are ignored, and a number or truth value may also come in
another spelling that can mean nothing else.
-/
namespace RenderFlow

inductive RecordError where
  | notARecord
  | missing (field : String)
  | mistyped (field : String)
deriving DecidableEq, Repr

namespace Json

abbrev Reader (α : Type) := Json → Option α

/-- A number with a point stands for a whole number only within 64 bits. -/
def wholeOfReal? : Binary64 → Option Int
  | .finite q => if q.den == 1 && q.num.natAbs < Nat.pow 2 63 then some q.num else none
  | _ => none

def asWhole? : Reader Int
  | .int n => some n
  | .real a => wholeOfReal? a
  | .minusZero => some 0
  | .bool b => some (if b then 1 else 0)
  | .text s => NumberText.whole? s
  | _ => none

def asReal? : Reader Binary64
  | .int n => (Binary64.ofRat n).finite?
  | .real a => some a
  | .minusZero => some 0
  | .bool b => some (if b then 1 else 0)
  | .text s => NumberText.real? s
  | _ => none

def truthOfText? (s : String) : Option Bool :=
  let s := Text.lower s
  if ["1", "on", "t", "true", "y", "yes"].contains s then some true
  else if ["0", "off", "f", "false", "n", "no"].contains s then some false
  else none

def truthOfWhole? (n : Int) : Option Bool :=
  if n = 0 then some false else if n = 1 then some true else none

def asTruth? : Reader Bool
  | .bool b => some b
  | .int n => truthOfWhole? n
  | .real (.finite q) => if q.den = 1 then truthOfWhole? q.num else none
  | .minusZero => some false
  | .text s => truthOfText? s
  | _ => none

def asList? (item : Reader α) : Reader (List α)
  | .list items => items.mapM item
  | _ => none

def asNullable? (item : Reader α) : Reader (Option α)
  | .null => some none
  | j => (item j).map some

def asNamed? (ofName? : String → Option α) : Reader α :=
  fun j => j.asText?.bind ofName?

def asFields? : Reader (List (String × Json))
  | .object fields => some fields
  | _ => none

end Json

namespace Record

abbrev Fields := List (String × Json)

def required (fields : Fields) (name : String) (read : Json.Reader α) : Except RecordError α :=
  match Json.field? fields name with
  | none => .error (.missing name)
  | some j =>
    match read j with
    | some a => .ok a
    | none => .error (.mistyped name)

def optional (fields : Fields) (name : String) (read : Json.Reader α) (fallback : α) :
    Except RecordError α :=
  match Json.field? fields name with
  | none => .ok fallback
  | some _ => required fields name read

def reader (read : Fields → Except RecordError α) (j : Json) : Except RecordError α :=
  match j with
  | .object fields => read fields
  | _ => .error .notARecord

def nested (read : Fields → Except RecordError α) : Json.Reader α :=
  fun j => (reader read j).toOption

end Record

end RenderFlow

import RenderFlow.Json.Printing

/-!
Entries of the metadata whose keys are no texts. Numbers are one key if they are equal, however they
are written, and the key that came first stays: `keys_set`. In print every key has a name, and the
entries whose keys are texts keep their order: `sublist_weave`.
-/
namespace RenderFlow.Graph

/-- An entry and how many entries whose keys are texts came before it. -/
structure Extra where
  key : Json
  value : Json
  before : Nat

namespace Extra

def named (e : Extra) : String × Json :=
  (e.key.print, e.value)

def isUnder (key : Json) (e : Extra) : Bool :=
  e.key.amount? == key.amount? && (key.amount?.isSome || e.key.print == key.print)

/-- Sets an entry, which takes the place and the key of an entry that is under its key. -/
def set (e : Extra) : List Extra → List Extra
  | [] => [e]
  | held :: rest =>
    if held.isUnder e.key then { held with value := e.value } :: rest else held :: e.set rest

theorem keys_set (e : Extra) (extras : List Extra) :
    (e.set extras).map key =
      if extras.any (isUnder e.key) then extras.map key else extras.map key ++ [e.key] := by
  induction extras with
  | nil => rfl
  | cons held rest ih =>
    by_cases found : held.isUnder e.key
    · simp [set, found]
    · by_cases later : rest.any (isUnder e.key)
      · simpa [set, found, later] using ih
      · simpa [set, found, later] using ih

def insertIn (e : Extra) (entries : List (String × Json)) : List (String × Json) :=
  entries.take e.before ++ e.named :: entries.drop e.before

def weave (entries : List (String × Json)) (extras : List Extra) : List (String × Json) :=
  extras.foldr insertIn entries

@[simp] theorem weave_nil (entries : List (String × Json)) : weave entries [] = entries := rfl

theorem sublist_insertIn (e : Extra) (entries : List (String × Json)) :
    List.Sublist entries (e.insertIn entries) := by
  have split : List.Sublist (entries.take e.before ++ entries.drop e.before) (e.insertIn entries) :=
    List.Sublist.append_left (List.sublist_cons_self _ _) _
  rwa [List.take_append_drop] at split

theorem sublist_weave (entries : List (String × Json)) (extras : List Extra) :
    List.Sublist entries (weave entries extras) := by
  induction extras with
  | nil => exact List.Sublist.refl entries
  | cons e rest ih => exact ih.trans (sublist_insertIn e (weave entries rest))

end Extra

end RenderFlow.Graph

import RenderFlow.Text.Quoted
import RenderFlow.CommandLine.Integer
import RenderFlow.Text.Search

/-!
Arguments of a program by the form it declares: options with or without a value, and one operand.
All arguments are classified first; then they are acted on from left to right, so of two mistakes the
one further left is reported, unless the right one is an ambiguous option.
-/
namespace RenderFlow.CommandLine

structure OptionSpec where
  names : List String
  takesValue : Bool := false
deriving DecidableEq, Repr

def OptionSpec.title (o : OptionSpec) : String :=
  "/".intercalate o.names

inductive Operand where
  | none
  | word (name : String)
  | command (name : String)
deriving DecidableEq, Repr

/-- What an argument asks for. A flag has no value. -/
inductive Action where
  | option (spec : OptionSpec) (value : Option String)
  | operand (word : String) (rest : List String)

inductive Stop where
  | help (text : String)
  | mistake (usage program message : String)
deriving DecidableEq, Repr

def Stop.message : Stop → String
  | .help text => text
  | .mistake usage program message =>
    usage ++ "\n" ++ program ++ ": error: " ++ message ++ "\n"

inductive Refusal where
  | value (message : String)
  | stop (reason : Stop)

structure Form (σ : Type) where
  program : String
  usage : String
  options : List OptionSpec
  operand : Operand
  start : σ
  act : σ → Action → Except Refusal σ

/-- An argument that names an option, which the program may not know. Text is attached to the name
after an equals sign or, where the name is short, directly. -/
structure OptionUse where
  spec : Option OptionSpec
  name : String
  attached : Option String

inductive Token where
  | word
  | dashes
  | option (use : OptionUse)

def isNegativeNumber (s : String) : Bool :=
  let isDigit := fun c => (Text.digitValue? c).isSome
  match s.toList with
  | '-' :: cs =>
    let cs := if cs.getLast? = some '\n' then cs.dropLast else cs
    let right := cs.dropWhile isDigit
    if right.isEmpty then !cs.isEmpty
    else right.head? == some '.' && right.length > 1 && (right.drop 1).all isDigit
  | _ => false

namespace Form

variable {σ : Type}

def names (f : Form σ) : List (String × OptionSpec) :=
  f.options.flatMap fun o => o.names.map (·, o)

def spec? (f : Form σ) (name : String) : Option OptionSpec :=
  (f.names.find? (·.1 == name)).map (·.2)

def splitEquals (arg : String) : String × Option String :=
  let cs := arg.toList
  match cs.dropWhile (· != '=') with
  | _ :: text => (String.ofList (cs.takeWhile (· != '=')), some (String.ofList text))
  | [] => (arg, none)

/-- The options that an argument may abbreviate or, for a short one, be joined to. -/
def candidates (f : Form σ) (arg : String) : List OptionUse :=
  match arg.toList with
  | '-' :: '-' :: _ =>
    let (start, attached) := splitEquals arg
    (f.names.filter fun n => Text.hasPrefix n.1 start).map fun n => ⟨some n.2, n.1, attached⟩
  | dash :: c :: text =>
    f.names.filterMap fun n =>
      if n.1 == String.ofList [dash, c] then
        some ⟨some n.2, n.1, some (String.ofList text)⟩
      else if Text.hasPrefix n.1 arg then some ⟨some n.2, n.1, none⟩
      else none
  | _ => []

def mistake (f : Form σ) (message : String) : Stop :=
  .mistake f.usage f.program message

def ambiguous (arg : String) (uses : List OptionUse) : String :=
  "ambiguous option: " ++ arg ++ " could match " ++ ", ".intercalate (uses.map (·.name))

/-- An argument that names no option exactly. A number and a text with a blank are words. -/
def classifyLoose (f : Form σ) (arg : String) : Except Stop Token :=
  match f.candidates arg with
  | [use] => .ok (.option use)
  | [] =>
    if isNegativeNumber arg || arg.toList.contains ' ' then .ok .word
    else .ok (.option ⟨none, arg, none⟩)
  | uses => .error (f.mistake (ambiguous arg uses))

def classify (f : Form σ) (arg : String) : Except Stop Token :=
  if !Text.hasPrefix arg "-" || arg == "-" then .ok .word
  else
    match f.spec? arg with
    | some o => .ok (.option ⟨some o, arg, none⟩)
    | none =>
      let (name, attached) := splitEquals arg
      match attached, f.spec? name with
      | some attached, some o => .ok (.option ⟨some o, name, some attached⟩)
      | _, _ => f.classifyLoose arg

/-- After a pair of dashes every argument is a word. -/
def classifyAll (f : Form σ) : List String → Except Stop (List (String × Token))
  | [] => .ok []
  | arg :: rest =>
    if arg == "--" then .ok ((arg, .dashes) :: rest.map (·, .word))
    else do
      let token ← f.classify arg
      let others ← f.classifyAll rest
      return (arg, token) :: others

structure Progress (σ : Type) where
  state : σ
  pending : Bool
  extras : List String

def perform (f : Form σ) (title : String) (p : Progress σ) (a : Action) :
    Except Stop (Progress σ) :=
  match f.act p.state a with
  | .ok state => .ok { p with state := state }
  | .error (.value message) => .error (f.mistake ("argument " ++ title ++ ": " ++ message))
  | .error (.stop reason) => .error reason

structure Cluster where
  leading : List OptionSpec
  last : OptionSpec
  attached : Option String

def ignored (f : Form σ) (o : OptionSpec) (text : String) : Stop :=
  f.mistake ("argument " ++ o.title ++ ": ignored explicit argument " ++ Text.quoted text)

def resolveShort (f : Form σ) (o : OptionSpec) : List Char → Except Stop Cluster
  | [] => .ok ⟨[], o, none⟩
  | c :: text =>
    if o.takesValue then .ok ⟨[], o, some (String.ofList (c :: text))⟩
    else
      match f.spec? (String.ofList ['-', c]) with
      | none => .error (f.ignored o (String.ofList (c :: text)))
      | some next => do
        let cluster ← f.resolveShort next text
        return { cluster with leading := o :: cluster.leading }

def resolve (f : Form σ) (o : OptionSpec) (use : OptionUse) : Except Stop Cluster :=
  match use.attached with
  | none => .ok ⟨[], o, none⟩
  | some text =>
    if o.takesValue then .ok ⟨[], o, some text⟩
    else if Text.hasPrefix use.name "--" || text == "" then .error (f.ignored o text)
    else f.resolveShort o text.toList

def actAll (f : Form σ) (p : Progress σ) : List OptionSpec → Except Stop (Progress σ)
  | [] => .ok p
  | o :: rest => do
    let p ← f.perform o.title p (.option o none)
    f.actAll p rest

def valueOf (f : Form σ) (cluster : Cluster) (next : Option String) :
    Except Stop (Option String × Bool) :=
  match cluster.attached with
  | some text => .ok (some text, false)
  | none =>
    if cluster.last.takesValue then
      match next with
      | some value => .ok (some value, true)
      | none => .error (f.mistake ("argument " ++ cluster.last.title ++ ": expected one argument"))
    else .ok (none, false)

/-- Acts on one option; the flag tells whether it took the next argument as its value. A pair of
dashes is no value, so an option with one attached is taken without any. -/
def actOption (f : Form σ) (p : Progress σ) (arg : String) (use : OptionUse)
    (next : Option String) : Except Stop (Progress σ × Bool) :=
  match use.spec with
  | none => .ok ({ p with extras := p.extras ++ [arg] }, false)
  | some o => do
    let cluster ← f.resolve o use
    let (value, usesNext) ← f.valueOf cluster next
    let p ← f.actAll p cluster.leading
    let p ← f.perform cluster.last.title p (.option cluster.last (value.filter (· != "--")))
    return (p, usesNext)

def nextWord? : List (String × Token) → Option String
  | (value, .word) :: _ => some value
  | _ => none

/-- A pair of dashes around a single operand is dropped; a command keeps it. -/
def read (f : Form σ) (p : Progress σ) (args : List (String × Token)) :
    Except Stop (Progress σ) :=
  match args with
  | [] => .ok p
  | (arg, .option use) :: rest => do
    let (p, usesNext) ← f.actOption p arg use (nextWord? rest)
    f.read p (if usesNext then rest.drop 1 else rest)
  | (arg, token) :: rest =>
    let word? :=
      match token with
      | .word => some arg
      | _ => nextWord? rest
    match p.pending, f.operand, word? with
    | true, .command title, some _ =>
      f.perform title { p with pending := false } (.operand arg (rest.map (·.1)))
    | true, .word title, some word => do
      let p ← f.perform title { p with pending := false } (.operand word [])
      match token, rest with
      | .dashes, _ :: rest => f.read p rest
      | _, (_, .dashes) :: rest => f.read p rest
      | _, rest => f.read p rest
    | _, _, _ => f.read { p with extras := p.extras ++ [arg] } rest
termination_by args.length
decreasing_by
  all_goals
    try split
    all_goals simp only [List.length_cons, List.length_drop]
    all_goals omega

def parse (f : Form σ) (args : List String) : Except Stop (σ × List String) := do
  let tokens ← f.classifyAll args
  let p ← f.read ⟨f.start, f.operand != .none, []⟩ tokens
  match p.pending, f.operand with
  | true, .word title | true, .command title =>
    throw (f.mistake ("the following arguments are required: " ++ title))
  | _, _ => return (p.state, p.extras)

end Form

end RenderFlow.CommandLine

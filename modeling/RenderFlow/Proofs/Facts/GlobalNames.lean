import RenderFlow.Proofs.Facts.Agreement
import RenderFlow.Proofs.Hook.Outcomes

/-!
What the dependencies of an effect are, and which of them are global. A walk knows a name to be global
as soon as it has met the declarator of a store's or query's hook under that name, so an effect is told
by what comes before its call. Main statement: `analyze_globals`.
-/
namespace RenderFlow

/-- The record was made of a name that this declarator binds. -/
def Hook.IsBoundBy (h : Hook) (imports : Imports) (declarator : SyntaxNode) : Prop :=
  declarator.kind = "variable_declarator" ∧
    ∃ call callee, declarator.HoldsCall call callee ∧
      ∃ b ∈ declarator.boundHere, h.IsBound imports call callee b

namespace Tree

/-- The call is given this array literal after its first argument. -/
def GivenArray (call array : SyntaxNode) : Prop :=
  (∃ arguments, call.child? "arguments" = some arguments ∧ arguments.kind = "arguments" ∧
    arguments.visibleChildren[1]? = some array) ∧ array.kind = "array"

def MakesEffect (imports : Imports) (kind : EffectKind) (call : SyntaxNode) : Prop :=
  ∃ callee, call.CallsName callee ∧
    (HookKind.classify callee.text (imports.get? callee.text)).effectKind? = some kind

theorem makesEffect_iff {imports : Imports} {kind : EffectKind} {call : SyntaxNode} :
    call.MakesEffect imports kind ↔
      (call.callKind? imports).bind HookKind.effectKind? = some kind := by
  simp only [MakesEffect, callKind?, Option.bind_map, Option.bind_eq_some_iff,
    plainCallee?_eq_some_iff, CallsName, Function.comp_apply]

def IsEffectCall (imports : Imports) (t : SyntaxNode) : Prop :=
  ∃ kind, t.MakesEffect imports kind

theorem isEffectCall_iff {imports : Imports} {t : SyntaxNode} : t.IsEffectCall imports ↔
    ((t.callKind? imports).bind HookKind.effectKind?).isSome = true := by
  simp only [IsEffectCall, makesEffect_iff, Option.isSome_iff_exists]

instance (imports : Imports) (t : SyntaxNode) : Decidable (t.IsEffectCall imports) :=
  decidable_of_iff' _ isEffectCall_iff

end Tree

/-- What the record of an effect tells of its call: the names in the array that the call is given, and
which of them were bound before to what lives in a store or a query. -/
structure Effect.Tells (e : Effect) (hooks : List Hook) (imports : Imports) (before : List Placed)
    (call : SyntaxNode) : Prop where
  kind : call.MakesEffect imports e.kind
  definedAt : e.definedAt = some call.position
  names : ∀ array, call.GivenArray array →
    e.dependencies.map (·.name) =
      (array.visibleChildren.filter (·.kind == "identifier")).map Tree.text
  none : (∀ array, ¬ call.GivenArray array) → e.dependencies = []
  isGlobal : ∀ d ∈ e.dependencies, d.isGlobal = true ↔
    ∃ p ∈ before, ∃ h ∈ hooks, h.IsBoundBy imports p.node ∧ h.scope = .global ∧ h.name = d.name

namespace Tree

variable {call : SyntaxNode}

theorem getElem?_callArguments {t : SyntaxNode} {index : Nat} :
    call.callArguments[index]? = some t ↔ ∃ arguments, call.child? "arguments" = some arguments ∧
      arguments.kind = "arguments" ∧ arguments.visibleChildren[index]? = some t := by
  unfold callArguments
  cases call.child? "arguments" with
  | none => simp
  | some list => by_cases kind : list.kind = "arguments" <;> simp [kind]

theorem listedNames_of_givenArray {array : SyntaxNode} (given : call.GivenArray array) :
    call.listedNames = array.visibleChildren.filter (·.kind == "identifier") := by
  rw [listedNames, getElem?_callArguments.mpr given.1, Option.map_some, Option.getD_some,
    dependencyNames, if_pos (by simpa using given.2), identifiers]

theorem listedNames_of_not_givenArray (other : ∀ array, ¬ call.GivenArray array) :
    call.listedNames = [] := by
  unfold listedNames
  cases second : call.callArguments[1]? with
  | none => rfl
  | some t =>
    have kind : t.kind ≠ "array" := fun literal =>
      other t ⟨getElem?_callArguments.mp second, literal⟩
    rw [Option.map_some, Option.getD_some, dependencyNames, if_neg (by simpa using kind)]

end Tree

namespace Declarations

variable {imports : Imports}

theorem mem_globalsAt_iff {p : Placed} {name : String} : name ∈ globalsAt imports p ↔
    ∃ draft ∈ hooksAt imports p, (draft "").kind.isGlobal = true ∧ (draft "").name = name := by
  simp [globalsAt, globalName?, List.mem_filterMap, Option.ite_none_right_eq_some]

theorem mem_globalNames_walked (name : String) (ps : List Placed) (d : Declarations) :
    name ∈ (ps.foldl (visit imports) d).globalNames ↔
      name ∈ d.globalNames ∨ ∃ p ∈ ps, name ∈ globalsAt imports p := by
  rw [mem_names_walked imports (·.globalNames) (fun d p => by rw [visit_eq]; rfl), List.mem_flatMap]

/-- The records of effects go by the calls that make them, each with what was gathered before. -/
theorem exists_call_of_getElem?_effects {ps : List Placed} {d : Declarations} {taken k : Nat}
    {e : Effect}
    (listed : (numbered "effect" taken (draftsFrom imports (effectsAt imports) d ps))[k]? = some e) :
    ∃ before p after kind, ps = before ++ p :: after ∧
      before.countP (·.node.IsEffectCall imports) = k ∧ p.node.MakesEffect imports kind ∧
      e = .ofCall (numberedId "effect" (taken + k + 1)) kind
        (before.foldl (visit imports) d).globalNames p.node := by
  -- Each visit changes what the later effects know, so the walk goes on from what it leaves.
  induction ps generalizing d taken k with
  | nil => simp [draftsFrom] at listed
  | cons p rest ih =>
    rw [draftsFrom, numbered_append] at listed
    cases asked : (p.node.callKind? imports).bind HookKind.effectKind? with
    | none =>
      have nothing : effectsAt imports d p = [] := by rw [effectsAt, asked]; rfl
      rw [nothing, numbered_nil, List.nil_append, List.length_nil, Nat.add_zero] at listed
      obtain ⟨before, q, after, kind, rfl, earlier, makes, same⟩ := ih listed
      refine ⟨p :: before, q, after, kind, rfl, ?_, makes, same⟩
      rw [List.countP_cons_of_neg (by simp [Tree.isEffectCall_iff, asked]), earlier]
    | some kind =>
      have one : effectsAt imports d p =
          [fun id => Effect.ofCall id kind d.globalNames p.node] := by
        rw [effectsAt, asked]
        rfl
      rw [one, numbered_cons, numbered_nil, List.singleton_append, List.length_singleton] at listed
      cases k with
      | zero =>
        refine ⟨[], p, rest, kind, rfl, rfl, Tree.makesEffect_iff.mpr asked, ?_⟩
        exact (Option.some.inj listed).symm
      | succ k =>
        rw [List.getElem?_cons_succ] at listed
        obtain ⟨before, q, after, other, rfl, earlier, makes, same⟩ := ih listed
        refine ⟨p :: before, q, after, other, rfl, ?_, makes, ?_⟩
        · rw [List.countP_cons_of_pos (by simp [Tree.isEffectCall_iff, asked]), earlier]
        · rw [same, List.foldl_cons, Nat.add_right_comm taken 1 k, Nat.add_assoc taken k 1]

variable {globalNames : List String} {body : Placed}

theorem mem_globalsAt_iff_of_mem_walk {p : Placed} (walked : p ∈ body.walk) {name : String} :
    name ∈ globalsAt imports p ↔ ∃ h ∈ (collect imports globalNames body).hooks,
      h.IsBoundBy imports p.node ∧ h.scope = .global ∧ h.name = name := by
  rw [mem_globalsAt_iff]
  constructor
  · rintro ⟨draft, drafted, global, rfl⟩
    obtain ⟨declarator, call, callee, pattern, called, named, b, bound, rfl⟩ :=
      exists_of_mem_hooksAt drafted
    obtain ⟨number, listed⟩ :=
      exists_mem_hooks imports globalNames walked declarator called named bound
    have held : b ∈ p.node.boundHere := by
      rw [Tree.boundHere, named]
      exact bound
    have same := isBound_hookDraft imports call callee b (numberedId "hook" number)
    exact ⟨_, listed, ⟨declarator, call, callee, Tree.holdsCall_iff.mpr called, b, held, same⟩,
      same.scope.scope_eq_global_iff.mpr global, rfl⟩
  · rintro ⟨h, -, ⟨declarator, call, callee, held, b, bound, same⟩, global, rfl⟩
    refine ⟨hookDraft imports call callee b, ?_, ?_, same.name.symm⟩
    · rw [hooksAt_of_holdsCall declarator held]
      exact List.mem_map_of_mem bound
    · have outside := same.scope.scope_eq_global_iff.mp global
      rwa [same.kind] at outside

theorem tells_of_getElem?_effects {k : Nat} {e : Effect}
    (listed : (collect imports [] body).effects[k]? = some e) :
    ∃ before call after, body.visibleParts = before ++ call :: after ∧
      before.countP (·.node.IsEffectCall imports) = k ∧
      e.Tells (collect imports [] body).hooks imports before call.node := by
  rw [effects_collect] at listed
  obtain ⟨before, call, after, kind, split, earlier, makes, rfl⟩ :=
    exists_call_of_getElem?_effects listed
  rw [← Placed.walk_eq_visibleParts]
  refine ⟨before, call, after, split, earlier, makes, rfl, fun array given => ?_, fun other => ?_,
    fun d within => ?_⟩
  · rw [← Tree.listedNames_of_givenArray given]
    simp [Effect.ofCall, Tree.listedDependencies, Function.comp_def]
  · simp [Effect.ofCall, Tree.listedDependencies, Tree.listedNames_of_not_givenArray other]
  · obtain ⟨name, -, rfl⟩ := List.mem_map.mp within
    have walked : ∀ p ∈ before, p ∈ body.walk := by
      intro p met
      rw [split]
      exact List.mem_append_left _ met
    rw [List.contains_iff_mem, mem_globalNames_walked, distinct, or_iff_right List.not_mem_nil]
    exact exists_congr fun p => and_congr_right fun met =>
      mem_globalsAt_iff_of_mem_walk (walked p met)

end Declarations

theorem Facts.tells_of_ofTree {source : String} {fileName : Option String} {root : SyntaxNode}
    {k : Nat} {e : Effect} (listed : (ofTree source fileName root).effects[k]? = some e) :
    ∃ component body, (root.primaryName? fileName).bind root.componentBody? = some (component, body) ∧
      ∃ before call after, Placed.visibleParts ⟨body, some component⟩ = before ++ call :: after ∧
        before.countP (·.node.IsEffectCall root.imports) = k ∧
        e.Tells (ofTree source fileName root).hooks root.imports before call.node := by
  unfold ofTree at listed ⊢
  cases found : (root.primaryName? fileName).bind root.componentBody? with
  | none => simp [found] at listed
  | some parts =>
    rw [found] at listed
    exact ⟨parts.1, parts.2, rfl, Declarations.tells_of_getElem?_effects listed⟩

/-- An effect depends on the names that are listed in the array literal after its function, as they are
written, and on none without such an array. Such a name is global just if a hook under this name that
lives in a store or a query was bound before the call of the effect, wherever in the body. -/
theorem analyze_globals (parser : SyntaxParser) (source : RawText) (fileName : Option RawText) :
    let root := parsed parser source fileName
    (analyze parser source fileName = .error .cutCharacter ∧
      ∃ t ∈ Facts.reads (fileName.map RawText.clean) root, t.isLegible = false) ∨
    ∃ facts, analyze parser source fileName = .ok facts ∧
      ∀ k e, facts.effects[k]? = some e →
        ∃ component body, (root.primaryName? (fileName.map RawText.clean)).bind root.componentBody? =
            some (component, body) ∧
          ∃ before call after,
            Placed.visibleParts ⟨body, some component⟩ = before ++ call :: after ∧
            before.countP (·.node.IsEffectCall root.imports) = k ∧
            e.Tells facts.hooks root.imports before call.node := by
  intro root
  cases analyzed : analyze parser source fileName with
  | error e => exact .inl ⟨rfl, exists_illegible_of_analyze analyzed⟩
  | ok facts =>
    refine .inr ⟨facts, rfl, fun k e listed => ?_⟩
    rcases analyze_eq_ok_cases analyzed with rfl | ⟨fault, rfl⟩
    · exact Facts.tells_of_ofTree listed
    · simp at listed

/-- A component `F` with two queries `a` and `b`, and an effect between them that lists `a`, `b`, a number
and `a` again. -/
def queryTree : Tree Span :=
  let word (kind : String) (field : Option String) (start stop : Nat) : Tree Span :=
    .node ⟨kind, field, start, stop, true, false, false, 0⟩ []
  let branch (kind : String) (field : Option String) (below : List (Tree Span)) : Tree Span :=
    .node ⟨kind, field, 0, 50, true, false, false, 0⟩ below
  let query (start stop : Nat) : Tree Span :=
    branch "variable_declarator" none [
      word "identifier" (some "name") start stop,
      branch "call_expression" (some "value") [word "identifier" (some "function") 0 8]]
  branch "program" none [
    branch "import_statement" none [
      branch "import_clause" none [word "identifier" none 0 8],
      word "string" (some "source") 9 32],
    branch "export_statement" none [
      branch "function_declaration" (some "declaration") [
        word "identifier" (some "name") 33 34,
        branch "statement_block" (some "body") [
          query 35 36,
          branch "call_expression" none [
            word "identifier" (some "function") 37 46,
            branch "arguments" (some "arguments") [
              word "arrow_function" none 0 0,
              branch "array" none [
                word "identifier" none 35 36,
                word "identifier" none 47 48,
                word "number" none 49 50,
                word "identifier" none 35 36]]],
          query 47 48]]]]

def querySource : RawText :=
  .ofString "useQuery '@tanstack/react-query' F a useEffect b 1"

def queryFacts : Facts :=
  .ofTree querySource.clean none (queryTree.resolve querySource.encode)

/-- The second query is bound too late for the effect. -/
theorem queryTree_globals :
    analyze (fun _ _ => queryTree) querySource none = .ok queryFacts ∧
      queryFacts.effects.map (·.dependencies) = [[⟨"a", true⟩, ⟨"b", false⟩, ⟨"a", true⟩]] ∧
      ∀ e ∈ queryFacts.effects, ∃ imports before call,
        e.Tells queryFacts.hooks imports before call := by
  have analyzed : analyze (fun _ _ => queryTree) querySource none = .ok queryFacts := by
    decide +kernel
  refine ⟨analyzed, by decide +kernel, fun e listed => ?_⟩
  rcases analyze_globals (fun _ _ => queryTree) querySource none with
    ⟨failed, -⟩ | ⟨facts, same, told⟩
  · rw [analyzed] at failed
    cases failed
  · rw [analyzed] at same
    cases same
    obtain ⟨k, found⟩ := List.mem_iff_getElem?.mp listed
    obtain ⟨-, -, -, before, call, -, -, -, tells⟩ := told k e found
    exact ⟨_, before, call.node, tells⟩

end RenderFlow

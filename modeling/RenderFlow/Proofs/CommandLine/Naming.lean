import Mathlib.Data.Option.Basic
import RenderFlow.CommandLine.Run
import RenderFlow.Proofs.Facts.Renaming
import RenderFlow.Proofs.Service.Transparency

/-!
One file by many paths. The program passes on a file's own name, and the service whatever path it is
sent; both come to the same grammar, component and layout. Main statement: `directories_irrelevant`.
-/
namespace RenderFlow

namespace CommandLine

namespace Directory

theorem split_ne_nil (letters : List Char) : parts.split letters ≠ [] := by
  fun_cases parts.split letters <;> simp

theorem bare_of_mem_split {letters part : List Char} (within : part ∈ parts.split letters) :
    '/' ∉ part := by
  fun_induction parts.split letters generalizing part with
  | case1 =>
    obtain rfl := List.mem_singleton.mp within
    exact List.not_mem_nil
  | case2 rest ih =>
    rcases List.mem_cons.mp within with rfl | later
    · exact List.not_mem_nil
    · exact ih later
  | case3 c rest other first others shape ih =>
    rcases List.mem_cons.mp within with rfl | later
    · intro held
      rcases List.mem_cons.mp held with rfl | held
      · exact other rfl
      · exact ih (shape ▸ List.mem_cons_self) held
    · exact ih (shape ▸ List.mem_cons_of_mem _ later)
  | case4 c rest other shape => exact absurd shape (split_ne_nil rest)

theorem split_of_bare {letters : List Char} (bare : '/' ∉ letters) :
    parts.split letters = [letters] := by
  fun_induction parts.split letters with
  | case1 => rfl
  | case2 => simp at bare
  | case3 c rest other first others shape ih =>
    rw [ih fun within => bare (List.mem_cons_of_mem _ within)] at shape
    obtain ⟨rfl, rfl⟩ := List.cons.inj shape
    rfl
  | case4 c rest other shape => exact absurd shape (split_ne_nil rest)

theorem split_append_slash (above name : List Char) :
    parts.split (above ++ '/' :: name) = parts.split above ++ parts.split name := by
  fun_induction parts.split above with
  | case1 => rfl
  | case2 rest ih => rw [List.cons_append, parts.split, ih, List.cons_append]
  | case3 c rest other first others shape ih =>
    rw [List.cons_append, parts.split.eq_3 _ _ other, ih, shape]
    rfl
  | case4 c rest other shape => exact absurd shape (split_ne_nil rest)

theorem parts_eq (path : String) : ∃ above, parts path = above ++ [FileName.base path] := by
  have last : parts.split (FileName.base path).toList = [(FileName.base path).toList] :=
    split_of_bare (FileName.bare_base path)
  rcases FileName.eq_base_or path with same | ⟨directory, joined⟩
  · refine ⟨[], ?_⟩
    rw [parts, same, FileName.base_of_bare (FileName.bare_base path), last, List.map_singleton,
      String.ofList_toList, List.nil_append]
  · refine ⟨(parts.split directory.toList).map String.ofList, ?_⟩
    have letters : path.toList = directory.toList ++ '/' :: (FileName.base path).toList := by
      rw [congrArg String.toList joined]
      simp
    rw [parts, letters, split_append_slash, last, List.map_append, List.map_singleton,
      String.ofList_toList]

def IsName (part : String) : Prop :=
  isPart part = true ∧ '/' ∉ part.toList

theorem isName_of_follow {d : Directory} {place result : Place} {path : List String}
    (bare : ∀ part ∈ path, '/' ∉ part.toList) (named : ∀ part ∈ place, IsName part)
    (follows : d.follow place path = some result) : ∀ part ∈ result, IsName part := by
  fun_induction d.follow place path with
  | case1 place =>
    obtain rfl := Option.some.inj follows
    exact named
  | case2 => cases follows
  | case3 => cases follows
  | case4 part rest up inner above known ih =>
    exact ih (List.forall_mem_of_forall_mem_cons bare) (List.forall_mem_of_forall_mem_cons named)
      follows
  | case5 place part rest known up real ih =>
    have own : IsName part := ⟨real, bare part List.mem_cons_self⟩
    exact ih (List.forall_mem_of_forall_mem_cons bare) (List.forall_mem_cons.mpr ⟨own, named⟩) follows
  | case6 place part rest known up unreal ih =>
    exact ih (List.forall_mem_of_forall_mem_cons bare) named follows

theorem head?_of_follow {d : Directory} {place result : Place} {path : List String} {name : String}
    (real : isPart name = true) (down : name ≠ "..") (last : path.getLast? = some name)
    (follows : d.follow place path = some result) : result.head? = some name := by
  fun_induction d.follow place path with
  | case1 place => cases last
  | case2 => cases follows
  | case3 => cases follows
  | case4 part rest up inner above known ih =>
    cases rest with
    | nil =>
      obtain rfl : part = name := by simpa using last
      exact absurd (beq_iff_eq.mp up) down
    | cons next rest => exact ih (by simpa using last) follows
  | case5 place part rest known up named ih =>
    cases rest with
    | nil =>
      obtain rfl : part = name := by simpa using last
      obtain rfl := Option.some.inj follows
      rfl
    | cons next rest => exact ih (by simpa using last) follows
  | case6 place part rest known up unreal ih =>
    cases rest with
    | nil =>
      obtain rfl : part = name := by simpa using last
      exact absurd real unreal
    | cons next rest => exact ih (by simpa using last) follows

theorem head?_of_file? {d : Directory} {path name : String} {bytes : List UInt8}
    (found : d.file? path = some (name, bytes)) :
    ∃ place, d.follow [] (parts path) = some place ∧ place.head? = some name := by
  simp only [file?, Option.bind_eq_bind, Option.bind_eq_some_iff, Prod.exists] at found
  obtain ⟨_, _, place, follows, _, _, _, own, leads, same⟩ := found
  obtain ⟨rfl, -⟩ := Prod.mk.inj (Option.some.inj same)
  exact ⟨place, follows, leads⟩

theorem isName_of_file? {d : Directory} {path name : String} {bytes : List UInt8}
    (found : d.file? path = some (name, bytes)) : IsName name := by
  obtain ⟨place, follows, leads⟩ := head?_of_file? found
  refine isName_of_follow ?_ (fun _ within => absurd within List.not_mem_nil) follows name
    (List.mem_of_mem_head? leads)
  intro part within
  obtain ⟨letters, held, rfl⟩ := List.mem_map.mp within
  rw [String.toList_ofList]
  exact bare_of_mem_split held

/-- A path whose last part is neither empty nor made of one or two dots ends in the name of its file. -/
theorem base_of_file? {d : Directory} {path name : String} {bytes : List UInt8}
    (real : isPart (FileName.base path) = true) (down : FileName.base path ≠ "..")
    (found : d.file? path = some (name, bytes)) : FileName.base path = name := by
  obtain ⟨place, follows, leads⟩ := head?_of_file? found
  obtain ⟨above, shape⟩ := parts_eq path
  have last : (parts path).getLast? = some (FileName.base path) := by simp [shape]
  exact Option.some.inj ((head?_of_follow real down last follows).symm.trans leads)

end Directory

open Service

def fileText? (bytes : List UInt8) : Option RawText :=
  (Utf8.decode? bytes).map fun chars => .ofString (String.ofList (unifyLineEnds chars))

/-- What is printed of a service's answer: its facts in words as well, and its layout where it is
wanted. -/
def Outcome.ofLayout (layout : Bool) : Except TextError LayoutResult → Outcome
  | .ok result =>
    .printed <|
      (Json.object <|
        [("facts", result.facts.toJson), ("summaries", result.facts.summaries.toJson)]
          ++ if layout then [("layout", result.layout.toJson)] else []).print ++ "\n"
  | .error _ => .unreadable

theorem analyzeFile_eq {name : String} (isName : Directory.IsName name) {sent : RawText}
    (last : FileName.base sent.clean = name) (parser : SyntaxParser) (layout : Bool)
    (bytes : List UInt8) :
    analyzeFile parser layout name bytes =
      match fileText? bytes with
      | some source =>
        .ofLayout layout ((freshLayout parser ⟨source, some sent⟩).map (·.renamed name))
      | none => .unreadable := by
  obtain ⟨real, bare⟩ := isName
  have own : FileName.base (RawText.ofString name).clean = name := by
    rw [RawText.clean_ofString, FileName.base_of_bare bare]
  have named : FileName.base (RawText.ofString name).clean ≠ "" := by
    rw [own]
    rintro rfl
    cases real
  unfold analyzeFile fileText?
  cases Utf8.decode? bytes with
  | none => rfl
  | some chars =>
    have answered := freshLayout_renamed named (own.trans last.symm) parser
      (.ofString (String.ofList (unifyLineEnds chars)))
    rw [RawText.clean_ofString] at answered
    dsimp only [Option.map_some]
    rw [← answered, freshLayout]
    cases analyze parser _ _ <;> rfl

end CommandLine

open CommandLine Service

/-- In front of a name that is not empty and has no slash, a directory changes the file name of the
facts and nothing else: neither the grammar nor any other fact, and the layout in no way. What the
program prints of a file, whose own name it passes on, is what the service answers for the file's text
and any path that ends in this name; the program's own path does so unless its last part is empty or
made of one or two dots. -/
theorem directories_irrelevant (parser : SyntaxParser) :
    (∀ source directory name : RawText, name ≠ [] → RawText.slash ∉ name →
      let path := directory ++ RawText.slash :: name
      Grammar.ofFileName (some path.clean) = Grammar.ofFileName (some name.clean) ∧
      analyze parser source (some path) =
        (analyze parser source (some name)).map (·.renamed path.clean) ∧
      freshLayout parser ⟨source, some path⟩ =
        (freshLayout parser ⟨source, some name⟩).map (·.renamed path.clean)) ∧
    ∀ files args path layout name bytes,
      Command.parse args = .ok (.analyze path layout) →
      (Directory.ofFiles files).file? path = some (name, bytes) →
      (Directory.isPart (FileName.base path) = true → FileName.base path ≠ ".." →
        FileName.base path = name) ∧
      ∀ sent : RawText, FileName.base sent.clean = name →
        Grammar.ofFileName (some sent.clean) = Grammar.ofFileName (some name) ∧
        run parser files args =
          match fileText? bytes with
          | some source =>
            .ofLayout layout ((freshLayout parser ⟨source, some sent⟩).map (·.renamed name))
          | none => .unreadable := by
  constructor
  · intro source directory name given bare
    have same := (RawText.base_clean_join bare directory).trans (RawText.base_clean bare).symm
    have named : FileName.base (RawText.clean (directory ++ RawText.slash :: name)) ≠ "" := by
      rw [RawText.base_clean_join bare]
      exact RawText.clean_ne_empty given
    exact ⟨Grammar.ofFileName_congr same, analyze_renamed named same parser source,
      freshLayout_renamed named same parser source⟩
  · intro files args path layout name bytes asked found
    refine ⟨fun real down => Directory.base_of_file? real down found, fun sent last => ?_⟩
    have isName := Directory.isName_of_file? found
    refine ⟨Grammar.ofFileName_congr (last.trans (FileName.base_of_bare isName.2).symm), ?_⟩
    rw [← analyzeFile_eq isName last, run, asked]
    dsimp only
    rw [found]

/-- An extension in capitals, below a directory with the extension of the other grammar. -/
def dottedPath : String := "ui.tsx/Card.view.TS"

theorem card_below_dotted_directory :
    (Grammar.ofFileName (some dottedPath) = .typescript ∧
      freshLayout emptyProgram ⟨[], some (.ofString dottedPath)⟩ =
        (freshLayout emptyProgram ⟨[], some (.ofString "Card.view.TS")⟩).map
          (·.renamed dottedPath)) ∧
    run emptyProgram [(dottedPath, [])] ["analyze", dottedPath] =
      .ofLayout false
        ((freshLayout emptyProgram ⟨[], some (.ofString dottedPath)⟩).map
          (·.renamed "Card.view.TS")) := by
  obtain ⟨below, printed⟩ := directories_irrelevant emptyProgram
  obtain ⟨grammar, -, layout⟩ :=
    below [] (.ofString "ui.tsx") (.ofString "Card.view.TS") (by decide) (by decide)
  have asked : Command.parse ["analyze", dottedPath] = .ok (.analyze dottedPath false) := by
    decide +kernel
  have found : (Directory.ofFiles [(dottedPath, [])]).file? dottedPath = some ("Card.view.TS", []) := by
    decide +kernel
  have last : FileName.base (RawText.ofString dottedPath).clean = "Card.view.TS" := by decide +kernel
  obtain ⟨-, sent⟩ := printed _ _ _ _ _ _ asked found
  have same := (sent _ last).2
  rw [show fileText? [] = some [] by decide +kernel] at same
  exact ⟨⟨grammar.trans (by decide +kernel), layout⟩, same⟩

end RenderFlow

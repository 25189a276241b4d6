import RenderFlow.Text.Utf8

/-!
The files below one directory, by their paths from it. Writing a file makes the directories on its
path, and reading one goes through directories that exist. Nothing outside of the directory can be
seen.
-/
namespace RenderFlow.CommandLine

/-- The parts of a path, innermost first. -/
abbrev Place := List String

/-- What lies below a directory. Of two files at one place the first in the list counts. -/
structure Directory where
  directories : List Place := []
  files : List (Place × List UInt8) := []

namespace Directory

def parts (path : String) : List String :=
  (split path.toList).map String.ofList
where
  split : List Char → List (List Char)
    | [] => [[]]
    | '/' :: rest => [] :: split rest
    | c :: rest =>
      match split rest with
      | first :: others => (c :: first) :: others
      | [] => [[c]]

def isPart (part : String) : Bool :=
  part != "" && part != "."

def make (d : Directory) (place : Place) : Directory :=
  { d with directories := place :: d.directories }

def makeWay? (d : Directory) (place : Place) : List String → Option (Directory × Place)
  | [] => some (d, place)
  | part :: rest =>
    if part == ".." then
      match place with
      | [] => none
      | _ :: above => d.makeWay? above rest
    else if isPart part then (d.make (part :: place)).makeWay? (part :: place) rest
    else d.makeWay? place rest

/-- What would lie outside of the directory is not written. -/
def write (d : Directory) (path : String) (bytes : List UInt8) : Directory :=
  match (parts path).reverse with
  | [] => d
  | name :: above =>
    match d.makeWay? [] above.reverse with
    | some (d, place) => { d with files := (name :: place, bytes) :: d.files }
    | none => d

def ofFiles (files : List (String × List UInt8)) : Directory :=
  files.foldl (fun d f => d.write f.1 f.2) {}

def isDirectory (d : Directory) (place : Place) : Bool :=
  place.isEmpty || d.directories.contains place

def follow (d : Directory) (place : Place) : List String → Option Place
  | [] => some place
  | part :: rest =>
    if !d.isDirectory place then none
    else if part == ".." then
      match place with
      | [] => none
      | _ :: above => d.follow above rest
    else if isPart part then d.follow (part :: place) rest
    else d.follow place rest

def file? (d : Directory) (path : String) : Option (String × List UInt8) := do
  guard (path != "" && path.toList.head? != some '/')
  let place ← d.follow [] (parts path)
  let (_, bytes) ← d.files.find? (·.1 == place)
  let name ← place.head?
  return (name, bytes)

end Directory

end RenderFlow.CommandLine

/-!
File names with slashes between their parts. The extension starts at the last dot of the last part,
and the dots that a part opens with start none.
-/
namespace RenderFlow.FileName

def base (path : String) : String :=
  String.ofList (path.toList.reverse.takeWhile (· != '/')).reverse

def beforeExtension (c : Char) : Bool :=
  c != '.' && c != '/'

def splitExtension (path : String) : String × String :=
  let backwards := path.toList.reverse
  match backwards.dropWhile beforeExtension with
  | '.' :: stem =>
    if (stem.takeWhile (· != '/')).all (· == '.') then
      (path, "")
    else
      (String.ofList stem.reverse,
        String.ofList ('.' :: (backwards.takeWhile beforeExtension).reverse))
  | _ => (path, "")

def stem (path : String) : String :=
  (splitExtension path).1

def extension (path : String) : String :=
  (splitExtension path).2

end RenderFlow.FileName

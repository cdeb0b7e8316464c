/-!
# Paths

A path names a file by its last component. Slashes and single dots at the end do not count.
-/

namespace Retrace.Path

/-- Removes slashes and single dots from the end of a path that is read backwards. -/
def dropTail : List Char → List Char
  | '/' :: rest => dropTail rest
  | '.' :: '/' :: rest => dropTail rest
  | rest => rest

/-- The file of a path: the text before its name, and the name. A path that ends in `..` or names
no component has no file. -/
def file? (path : List Char) : Option (List Char × List Char) :=
  let backwards := dropTail path.reverse
  let name := (backwards.takeWhile (· ≠ '/')).reverse
  if name = [] ∨ name = ['.'] ∨ name = ['.', '.'] then none
  else some ((backwards.dropWhile (· ≠ '/')).reverse, name)

/-- Splits a name at its last dot. A dot in front of everything else does not count. -/
def splitName (name : List Char) : List Char × Option (List Char) :=
  let backwards := name.reverse
  let ext := (backwards.takeWhile (· ≠ '.')).reverse
  match (backwards.dropWhile (· ≠ '.')).reverse.dropLast with
  | [] => (name, none)
  | stem => (stem, some ext)

def extension? (path : List Char) : Option (List Char) := (file? path).bind fun f => (splitName f.2).2

/-- Replaces the extension of the file, or adds one. What follows the name is dropped. -/
def setExtension (ext path : List Char) : List Char :=
  match file? path with
  | some (before, name) => before ++ (splitName name).1 ++ '.' :: ext
  | none => path

/-- The path next to `path` with another extension. -/
def withExtension (path ext : List Char) : List Char :=
  setExtension ext
    (match extension? path with
    | some old => path.take (path.length - old.length)
    | none => path)

def join (folder name : String) : String :=
  if folder = "" ∨ folder.endsWith "/" then folder ++ name else folder ++ "/" ++ name

end Retrace.Path

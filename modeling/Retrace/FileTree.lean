import Retrace.Directory
import Retrace.Text.Pieces

/-!
# Trees of files

A tree maps a place, the names on the way from the root, to a file or a folder. A path is a text that
is followed name by name from a folder: each name but the last has to lead to a folder. Nothing can be
at a place whose folder is missing, so reading and writing fail with the first name that leads nowhere.
-/

namespace Retrace

open Retrace.Text

/-- The names on the way from the root. -/
abbrev Place := List String

/-- A tree of files. The root is a folder. -/
structure FileTree where
  entries : List (Place × FileEntry)
deriving DecidableEq, Repr

namespace FileTree

def empty : FileTree := ⟨[]⟩

/-! ## Places -/

def entry? (t : FileTree) (place : Place) : Option FileEntry :=
  if place = [] then some .folder else (t.entries.find? (·.1 = place)).map (·.2)

def put (t : FileTree) (place : Place) (entry : FileEntry) : FileTree :=
  ⟨t.entries.filter (·.1 ≠ place) ++ [(place, entry)]⟩

/-- The folders on the way to a place, the root apart. -/
def above (place : Place) : List Place := (List.range place.length).tail.map place.take

/-- Puts a file at a place, and folders on the way to it. -/
def add (t : FileTree) (place : Place) (text : String) : FileTree :=
  ((above place).foldl (fun t folder => t.put folder .folder) t).put place (.file text)

/-! ## Paths -/

/-- Where a path starts, from a folder, and the names it follows. -/
def start (folder : Place) (path : String) : Place × List String :=
  let names := (pieces ['/'] path.toList).map String.ofList
  (if path.startsWith "/" then [] else folder, names)

/-- The place that names lead to if there is a folder wherever one is needed. -/
def walk (place : Place) : List String → Place
  | [] => place
  | name :: names =>
    if name = "" ∨ name = "." then walk place names
    else if name = ".." then walk place.dropLast names
    else walk (place ++ [name]) names

/-- The place of a path, whatever is on the way. -/
def placeOf (folder : Place) (path : String) : Place :=
  let (place, names) := start folder path
  walk place names

/-- Whether a path can be handed to the system: it has no zero character and is not too long. -/
def checkPath (path : String) : Except FileError Unit :=
  if path.toList.contains '\x00' then .error .zeroInPath
  else if maxPath < path.utf8ByteSize then .error .nameTooLong
  else .ok ()

/-- Follows names from a place. The last one may be missing. -/
def follow (t : FileTree) : Place → List String → Except FileError Place
  | place, [] => .ok place
  | place, name :: names =>
    match t.entry? place with
    | none => .error .notFound
    | some (.file _) => .error .notDirectory
    | some .folder =>
      if name = "" ∨ name = "." then follow t place names
      else if name = ".." then follow t place.dropLast names
      else if maxName < name.utf8ByteSize then .error .nameTooLong
      else follow t (place ++ [name]) names

def resolve (t : FileTree) (folder : Place) (path : String) : Except FileError Place := do
  checkPath path
  if path = "" then .error .notFound
  else
    let (place, names) := start folder path
    t.follow place names

def leads (t : FileTree) (folder : Place) (path : String) : Bool :=
  match t.resolve folder path with
  | .ok place => (t.entry? place).isSome
  | .error _ => false

def read (t : FileTree) (folder : Place) (path : String) : Except FileError String := do
  match t.entry? (← t.resolve folder path) with
  | some (.file text) => .ok text
  | some .folder => .error .isDirectory
  | none => .error .notFound

/-- Writes a file, in a folder that is there. -/
def write (t : FileTree) (folder : Place) (path text : String) : Except FileError FileTree := do
  let place ← t.resolve folder path
  match t.entry? place with
  | some .folder => .error .isDirectory
  | _ => .ok (t.put place (.file text))

/-- Follows names from a folder and makes the folders that are missing. -/
def makeFrom : FileTree → Place → List String → Except FileError (FileTree × Place)
  | t, place, [] => .ok (t, place)
  | t, place, name :: names =>
    if name = "" ∨ name = "." then makeFrom t place names
    else if name = ".." then makeFrom t place.dropLast names
    else if maxName < name.utf8ByteSize then .error .nameTooLong
    else
      let next := place ++ [name]
      match t.entry? next with
      | some (.file _) => .error (if names = [] then .alreadyExists else .notDirectory)
      | some .folder => makeFrom t next names
      | none => makeFrom (t.put next .folder) next names

def makeFolder (t : FileTree) (folder : Place) (path : String) : Except FileError (FileTree × Place) := do
  checkPath path
  let (place, names) := start folder path
  t.makeFrom place names

/-! ## Entries of a folder -/

/-- The entries of a folder, with room for names up to some length. -/
def directory (t : FileTree) (folder : Place) (room : Nat) : Directory :=
  t.entries.foldl (fun d (place, entry) =>
    match place.getLast? with
    | some name =>
      if place.dropLast = folder then { d with entries := Directory.insert name entry d.entries } else d
    | none => d) (Directory.empty room)

def setDirectory (t : FileTree) (folder : Place) (d : Directory) : FileTree :=
  let others := t.entries.filter fun (place, _) => place.dropLast ≠ folder
  ⟨others ++ d.entries.map fun (name, entry) => (folder ++ [name], entry)⟩

/-- All files below a folder, with their paths from there. -/
def filesBelow (t : FileTree) (folder : Place) : List (String × String) :=
  t.entries.filterMap fun (place, entry) =>
    match entry with
    | .file text =>
      if folder.isPrefixOf place then
        some (String.intercalate "/" (place.drop folder.length), text)
      else none
    | .folder => none

end FileTree
end Retrace

import Retrace.FileError

/-!
# Directories

The entries of one folder, sorted by name. Every folder has room for names up to some length, which
shrinks with the path that leads there.
-/

namespace Retrace

inductive FileEntry where
  | file (text : String)
  | folder
deriving DecidableEq, Repr

/-- The longest name, in bytes. -/
def maxName : Nat := 255

def maxPath : Nat := 4095

/-- The longest name in the folder of a path: what is left after the path and a slash. -/
def roomIn (path : String) : Nat := min maxName (maxPath - (path.utf8ByteSize + 1))

structure Directory where
  entries : List (String × FileEntry)
  /-- The longest name, in bytes. -/
  room : Nat
deriving DecidableEq, Repr

namespace Directory

def empty (room : Nat) : Directory := ⟨[], room⟩

/-- Puts an entry in its place among sorted entries. -/
def insert (name : String) (entry : FileEntry) : List (String × FileEntry) → List (String × FileEntry)
  | [] => [(name, entry)]
  | (n, e) :: rest =>
    if name < n then (name, entry) :: (n, e) :: rest
    else if name = n then (name, entry) :: rest
    else (n, e) :: insert name entry rest

def entry? (d : Directory) (name : String) : Option FileEntry :=
  (d.entries.find? (·.1 = name)).map (·.2)

def read (d : Directory) (name : String) : Except FileError String :=
  if d.room < name.utf8ByteSize then .error .nameTooLong
  else
    match d.entry? name with
    | some (.file text) => .ok text
    | some .folder => .error .isDirectory
    | none => .error .notFound

def write (name text : String) (d : Directory) : Except FileError Directory :=
  if d.room < name.utf8ByteSize then .error .nameTooLong
  else if d.entry? name = some .folder then .error .isDirectory
  else .ok { d with entries := insert name (.file text) d.entries }

def remove (name : String) (d : Directory) : Directory :=
  { d with entries := d.entries.filter (·.1 ≠ name) }

def names (d : Directory) : List String := d.entries.map (·.1)

end Directory
end Retrace

import Retrace.Directory
import Retrace.Json.Record
import Retrace.Json.Writer

/-!
# A cache of files

Values are kept as JSON files in one directory, each with the second it expires at. A file that is
expired or cannot be read is removed when it is looked for.
-/

namespace Retrace

open Json

structure Codec (α : Type) where
  write : α → Json
  read? : Json → Option α

/-- Where a cache keeps its files and for how long. Without directory nothing is kept; without
life time entries never expire. -/
structure Cache (α : Type) where
  codec : Codec α
  enabled : Bool
  lifetime : Option Nat

namespace Cache

variable {α : Type}

def disabled (codec : Codec α) : Cache α := ⟨codec, false, none⟩

/-- Letters, digits and dots are kept, everything else is an underscore. -/
def safeChar (c : Char) : Char := if c.isAlphanum ∨ c = '.' then c else '_'

def fileName (label : String) : String := String.ofList (label.toList.map safeChar) ++ ".json"

/-- The last second there is. -/
def never : Nat := Nat.pow 2 64 - 1

/-- The second that an entry written now expires at. -/
def expiry (lifetime : Option Nat) (now : Nat) : Nat :=
  match lifetime with
  | some seconds => min (seconds + now) never
  | none => never

def entry (cache : Cache α) (now : Nat) (data : α) : String :=
  Json.compact (.obj [("data", cache.codec.write data), ("expires_at", .int (expiry cache.lifetime now))])

/-- Reads an entry: its value and the second it expires at. -/
def readEntry? (cache : Cache α) (text : String) : Option (α × Nat) :=
  match (Json.ofString? text).bind (Json.fields? ["data", "expires_at"]) with
  | some [data, expires] => do
    let data ← required? cache.codec.read? data
    let expires ← required? (word? 64) expires
    some (data, expires)
  | _ => none

/-- Looks for a value. A file that is expired or no entry is removed. -/
def load (cache : Cache α) (now : Nat) (label : String) (files : Directory) : Option α × Directory :=
  if !cache.enabled then (none, files)
  else
    match files.read (fileName label) with
    | .error _ => (none, files)
    | .ok text =>
      match cache.readEntry? text with
      | some (data, expires) =>
        if expires < now then (none, files.remove (fileName label)) else (some data, files)
      | none => (none, files.remove (fileName label))

/-- Keeps a value. Fails if its file cannot be written. -/
def save (cache : Cache α) (now : Nat) (label : String) (data : α) (files : Directory) :
    Except FileError Directory :=
  if cache.enabled then files.write (fileName label) (cache.entry now data) else .ok files

end Cache
end Retrace

import Mathlib.Data.Nat.Digits.Defs
import Mathlib.Data.String.Basic
import Retrace.Cache
import Retrace.Digest
import Retrace.Proofs.Document

/-!
# Cached values

What a folder holds after an entry is written or removed, the file names of digests, and what an entry
reads back as.
-/

namespace Retrace

open Json

/-! ## Folders -/

namespace Directory

theorem find?_insert (name : String) (e : FileEntry) (es : List (String × FileEntry)) (m : String) :
    ((insert name e es).find? (·.1 = m)).map (·.2) =
      if m = name then some e else (es.find? (·.1 = m)).map (·.2) := by
  induction es with
  | nil => grind [insert]
  | cons first rest ih =>
    obtain ⟨n, old⟩ := first
    simp only [insert]
    split
    · grind
    · split <;> grind

def put (d : Directory) (name text : String) : Directory :=
  { d with entries := insert name (.file text) d.entries }

theorem entry?_put (d : Directory) (name text m : String) :
    entry? (d.put name text) m = if m = name then some (.file text) else d.entry? m :=
  find?_insert name (.file text) d.entries m

theorem entry?_remove (d : Directory) (name m : String) :
    entry? (d.remove name) m = if m = name then none else d.entry? m := by
  unfold entry? remove
  induction d.entries with
  | nil => simp
  | cons first rest ih => grind

theorem write_eq_put {d : Directory} {name : String} (text : String) (hroom : name.utf8ByteSize ≤ d.room)
    (hfile : d.entry? name ≠ some .folder) : d.write name text = .ok (d.put name text) := by
  rw [write, if_neg (Nat.not_lt.mpr hroom), if_neg hfile]
  rfl

theorem eq_put_of_write {d d' : Directory} {name text : String} (h : d.write name text = .ok d') :
    d' = d.put name text := by
  unfold write at h
  split at h
  · cases h
  · split at h
    · cases h
    · cases h
      rfl

theorem read_eq_ok {d : Directory} {name text : String} :
    d.read name = .ok text ↔ name.utf8ByteSize ≤ d.room ∧ d.entry? name = some (.file text) := by
  unfold read
  split
  · grind
  · split <;> grind

theorem read_of_write {d d' : Directory} {name text : String} (h : d.write name text = .ok d') :
    d'.read name = .ok text := by
  have hput := eq_put_of_write h
  unfold write at h
  split at h
  · cases h
  · rename_i hroom
    refine read_eq_ok.mpr ⟨?_, by rw [hput, entry?_put, if_pos rfl]⟩
    rw [hput]
    exact Nat.not_lt.mp hroom

end Directory

/-! ## Names of digests -/

namespace Digest

def hexDigits : List Char := (List.range 16).map Nat.digitChar

theorem forall_hexDigits {P : Char → Prop} (h : ∀ d : Fin 16, P (Nat.digitChar d)) : ∀ c ∈ hexDigits, P c := by
  intro c hc
  obtain ⟨d, hd, rfl⟩ := List.mem_map.mp hc
  exact h ⟨d, List.mem_range.mp hd⟩

theorem mem_hexDigits {d : Nat} (h : d < 16) : d.digitChar ∈ hexDigits :=
  List.mem_map_of_mem (List.mem_range.mpr h)

theorem mem_hexDigits_of_mem_toDigits {n : Nat} {c : Char} (h : c ∈ Nat.toDigits 16 n) : c ∈ hexDigits := by
  induction n using Nat.strongRecOn with
  | _ n ih =>
    rw [Nat.toDigits_eq_if (by omega)] at h
    split at h
    · rename_i hn
      rw [List.mem_singleton.mp h]
      exact mem_hexDigits hn
    · rcases List.mem_append.mp h with h | h
      · exact ih (n / 16) (by omega) h
      · rw [List.mem_singleton.mp h]
        exact mem_hexDigits (by omega)

theorem mem_hexDigits_of_mem_ofString {text : String} {c : Char} (h : c ∈ (ofString text).toList) :
    c ∈ hexDigits := by
  rw [ofString, String.toList_ofList] at h
  obtain ⟨w, -, hc⟩ := List.mem_flatMap.mp h
  rcases List.mem_append.mp hc with hc | hc
  · rw [List.eq_of_mem_replicate hc]
    decide
  · exact mem_hexDigits_of_mem_toDigits hc

theorem length_hex (w : UInt32) : (hex w).length = 8 := by
  have hlength : (Nat.toDigits 16 w.toNat).length ≤ 8 :=
    Nat.toDigits_length 16 _ 8 (by omega) w.toNat_lt
  simp only [hex, List.length_append, List.length_replicate]
  omega

theorem length_ofString (text : String) : (ofString text).toList.length = 64 := by
  simp [ofString, State.toList, length_hex]

theorem utf8ByteSize_ofString (text : String) : (ofString text).utf8ByteSize = 64 := by
  have hone : ∀ c ∈ hexDigits, c.utf8Size = 1 := forall_hexDigits (by decide)
  have hsize : ∀ cs : List Char, (∀ c ∈ cs, c ∈ hexDigits) → String.utf8Len cs = cs.length := by
    intro cs h
    induction cs with
    | nil => rfl
    | cons c cs ih =>
      rw [String.utf8Len_cons, ih fun d hd => h d (.tail c hd), hone c (h c (.head cs)), List.length_cons]
  rw [← String.ofList_toList (s := ofString text), String.utf8ByteSize_ofList,
    hsize _ fun c => mem_hexDigits_of_mem_ofString, length_ofString]

end Digest

namespace Cache

theorem fileName_ofString (text : String) : fileName (Digest.ofString text) = Digest.ofString text ++ ".json" := by
  have hsafe : ∀ c ∈ Digest.hexDigits, safeChar c = c := Digest.forall_hexDigits (by decide)
  have hkept : (Digest.ofString text).toList.map safeChar = (Digest.ofString text).toList :=
    (List.map_congr_left fun c hc => hsafe c (Digest.mem_hexDigits_of_mem_ofString hc)).trans (List.map_id _)
  rw [fileName, hkept, String.ofList_toList]

theorem fileName_inj {text text' : String}
    (h : fileName (Digest.ofString text) = fileName (Digest.ofString text')) :
    Digest.ofString text = Digest.ofString text' := by
  rw [fileName_ofString, fileName_ofString] at h
  simpa using h

/-- The bytes of a file name: 64 digits and the extension. -/
def nameSize : Nat := 69

theorem utf8ByteSize_fileName (text : String) :
    (fileName (Digest.ofString text)).utf8ByteSize = nameSize := by
  rw [fileName_ofString, String.utf8ByteSize_append, Digest.utf8ByteSize_ofString]
  rfl

/-! ## Entries -/

theorem expiry_le (lifetime : Option Nat) (now : Nat) : expiry lifetime now ≤ never := by
  cases lifetime with
  | none => exact Nat.le_refl never
  | some seconds => exact Nat.min_le_right _ _

theorem isWord_expiry (lifetime : Option Nat) (now : Nat) : IsWord (expiry lifetime now) := by
  have hexpiry := expiry_le lifetime now
  simp only [IsWord, never, Nat.pow_eq] at hexpiry ⊢
  omega

theorem word?_expiry (lifetime : Option Nat) (now : Nat) :
    word? 64 (.int (expiry lifetime now)) = some (expiry lifetime now) :=
  if_pos (Int.ofNat_lt.mp (isWord_expiry lifetime now).2)

variable {α : Type}

/-- An entry takes one level of its own from what may be nested. -/
theorem readEntry?_entry_eq (cache : Cache α) (now : Nat) (data : α) :
    cache.readEntry? (cache.entry now data) =
      (cache.codec.read? ((cache.codec.write data).reread.cut (maxNesting - 1))).map
        (·, expiry cache.lifetime now) := by
  have hword := isWord_expiry cache.lifetime now
  have hexpires := word?_expiry cache.lifetime now
  have hopen : maxNesting ≠ 0 := by decide
  unfold readEntry? entry
  rw [ofString?_compact_eq]
  cases hdata : cache.codec.read? ((cache.codec.write data).reread.cut (maxNesting - 1)) <;>
    simp [reread, rereadMembers, numberOf_ofInt hword, cut, cutMembers, within, hopen, fields?, memberOnce?,
      valuesOf, required?, hexpires, hdata]

theorem readEntry?_entry (cache : Cache α) (now : Nat) {data : α} (h : (cache.codec.write data).Plain) :
    cache.readEntry? (cache.entry now data) =
      (cache.codec.read? ((cache.codec.write data).cut (maxNesting - 1))).map
        (·, expiry cache.lifetime now) := by
  rw [readEntry?_entry_eq, h.reread_eq]

/-! ## Looking for a value -/

/-- The text of a file is no entry, or one that is expired. -/
def Spent (cache : Cache α) (now : Nat) (text : String) : Prop :=
  ∀ data expires, cache.readEntry? text = some (data, expires) → expires < now

theorem load_cases_of_enabled {cache : Cache α} (henabled : cache.enabled = true) (now : Nat) (label : String)
    (files : Directory) :
    (∃ text data expires, files.read (fileName label) = .ok text ∧
        cache.readEntry? text = some (data, expires) ∧ now ≤ expires ∧
        cache.load now label files = (some data, files)) ∨
      (∃ e, files.read (fileName label) = .error e ∧ cache.load now label files = (none, files)) ∨
      (∃ text, files.read (fileName label) = .ok text ∧ cache.Spent now text ∧
        cache.load now label files = (none, files.remove (fileName label))) := by
  simp only [load, henabled, Bool.not_true, Bool.false_eq_true, if_false]
  cases hread : files.read (fileName label) with
  | error e => exact Or.inr (Or.inl ⟨e, rfl, rfl⟩)
  | ok text =>
    cases hentry : cache.readEntry? text with
    | none =>
      refine Or.inr (Or.inr ⟨text, rfl, ?_, by simp [hentry]⟩)
      intro data expires hsome
      cases hentry.symm.trans hsome
    | some found =>
      obtain ⟨data, expires⟩ := found
      by_cases hexpired : expires < now
      · refine Or.inr (Or.inr ⟨text, rfl, ?_, by simp [hentry, hexpired]⟩)
        intro data' expires' hsome
        cases hentry.symm.trans hsome
        exact hexpired
      · exact Or.inl ⟨text, data, expires, rfl, hentry, Nat.not_lt.mp hexpired,
          by simp [hentry, hexpired]⟩

theorem load_cases (cache : Cache α) (now : Nat) (label : String) (files : Directory) :
    (∃ text data expires, files.read (fileName label) = .ok text ∧
        cache.readEntry? text = some (data, expires) ∧ cache.load now label files = (some data, files)) ∨
      cache.load now label files = (none, files) ∨
      cache.load now label files = (none, files.remove (fileName label)) := by
  by_cases henabled : cache.enabled = true
  · obtain ⟨text, data, expires, hread, hentry, -, hload⟩ | ⟨e, -, hload⟩ | ⟨text, -, -, hload⟩ :=
      load_cases_of_enabled henabled now label files
    · exact Or.inl ⟨text, data, expires, hread, hentry, hload⟩
    · exact Or.inr (Or.inl hload)
    · exact Or.inr (Or.inr hload)
  · exact Or.inr (Or.inl (by simp [load, henabled]))

theorem load_entry {cache : Cache α} {label : String} {files : Directory} {now written : Nat} {data : α}
    (henabled : cache.enabled = true) (hplain : (cache.codec.write data).Plain)
    (hread : files.read (fileName label) = .ok (cache.entry written data))
    (hnow : now ≤ expiry cache.lifetime written) :
    cache.load now label files =
      match cache.codec.read? ((cache.codec.write data).cut (maxNesting - 1)) with
      | some found => (some found, files)
      | none => (none, files.remove (fileName label)) := by
  unfold load
  rw [henabled, hread]
  simp only [readEntry?_entry cache written hplain]
  cases cache.codec.read? ((cache.codec.write data).cut (maxNesting - 1)) with
  | none => rfl
  | some found => simp [Nat.not_lt.mpr hnow]

/-- There are only files, and `P` holds of the name and the value of each entry that can be read. -/
structure Holds (codec : Codec α) (P : String → α → Prop) (files : Directory) : Prop where
  file : ∀ name, files.entry? name ≠ some .folder
  known : ∀ name text data expires, files.entry? name = some (.file text) →
    readEntry? (disabled codec) text = some (data, expires) → P name data

section Holds

variable {codec : Codec α} {P : String → α → Prop} {files : Directory}

theorem holds_empty (h : files.entries = []) : Holds codec P files := by
  constructor
  · simp [Directory.entry?, h]
  · simp [Directory.entry?, h]

theorem Holds.remove (h : Holds codec P files) (name : String) : Holds codec P (files.remove name) := by
  constructor
  · intro m
    rw [Directory.entry?_remove]
    split
    · simp
    · exact h.file m
  · intro m text data expires hfile hread
    rw [Directory.entry?_remove] at hfile
    split at hfile
    · cases hfile
    · exact h.known m text data expires hfile hread

theorem Holds.put (h : Holds codec P files) {name text : String}
    (hnew : ∀ data expires, readEntry? (disabled codec) text = some (data, expires) → P name data) :
    Holds codec P (files.put name text) := by
  constructor
  · intro m
    rw [Directory.entry?_put]
    split
    · simp
    · exact h.file m
  · intro m old data expires hfile hread
    rw [Directory.entry?_put] at hfile
    split at hfile
    · rename_i hm
      cases hfile
      exact hm ▸ hnew data expires hread
    · exact h.known m old data expires hfile hread

theorem Holds.load (cache : Cache α) (now : Nat) (label : String) (h : Holds cache.codec P files) :
    Holds cache.codec P (cache.load now label files).2 ∧ (cache.load now label files).2.room = files.room ∧
      ∀ data, (cache.load now label files).1 = some data → P (fileName label) data := by
  obtain ⟨text, data, expires, hfile, hread, hload⟩ | hload | hload := load_cases cache now label files
  · simp only [hload, Option.some.injEq]
    refine ⟨h, trivial, ?_⟩
    rintro _ rfl
    exact h.known _ text data expires (Directory.read_eq_ok.mp hfile).2 hread
  · simp [hload, h]
  · simp only [hload]
    exact ⟨h.remove _, rfl, fun _ hnone => nomatch hnone⟩

end Holds

end Cache
end Retrace

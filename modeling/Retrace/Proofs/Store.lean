import Retrace.FileTree
import Retrace.Path
import Retrace.Proofs.Cache
import Retrace.Proofs.Text.Marks

/-!
# The cache as a keyed store

Calls on a cache in turn: a load finds what the last call that wrote or removed its file left there. Calls
on other files play no part in it, and no label leads out of the folder of the cache.
-/

namespace Retrace

open Json Text

/-! ## Names in folders -/

namespace FileTree

/-- A name of an entry, and not a way to another folder. -/
structure Proper (name : String) : Prop where
  slash : '/' ∉ name.toList
  empty : name ≠ ""
  dot : name ≠ "."
  dots : name ≠ ".."

theorem walk_append (place : Place) (names more : List String) :
    walk place (names ++ more) = walk (walk place names) more := by
  induction names generalizing place with
  | nil => rfl
  | cons name names ih =>
    rw [List.cons_append, walk, walk]
    split
    · exact ih place
    · split
      · exact ih place.dropLast
      · exact ih (place ++ [name])

theorem placeOf_of_pieces {name folder path : String} {names : List (List Char)} (h : Proper name)
    (hroot : path.startsWith "/" = folder.startsWith "/")
    (hpath : pieces ['/'] path.toList = names ++ [name.toList])
    (hfolder : pieces ['/'] folder.toList = names ∨ pieces ['/'] folder.toList = names ++ [[]])
    (place : Place) : placeOf place path = placeOf place folder ++ [name] := by
  unfold placeOf start
  simp only [hroot, hpath, List.map_append, walk_append]
  rcases hfolder with hfolder | hfolder <;> simp [hfolder, walk_append, walk, h.empty, h.dot, h.dots]

theorem startsWith_append {path : String} (h : path ≠ "") (more : String) :
    (path ++ more).startsWith "/" = path.startsWith "/" := by
  have hchars : path.toList ≠ [] := by simpa using h
  obtain ⟨c, cs, hpath⟩ := List.exists_cons_of_ne_nil hchars
  rw [Bool.eq_iff_iff, String.startsWith_string_iff, String.startsWith_string_iff, String.toList_append,
    hpath]
  simp

theorem placeOf_join {name : String} (h : Proper name) (place : Place) (folder : String) :
    placeOf place (Path.join folder name) = placeOf place folder ++ [name] := by
  have hname : pieces ['/'] name.toList = [name.toList] := by
    apply pieces_of_not_infix
    rw [List.singleton_infix_iff]
    exact h.slash
  have hslash : "/".toList = ['/'] := rfl
  by_cases hempty : folder = ""
  · -- The name stands alone, and is no path from the root.
    subst hempty
    have hroot : name.startsWith "/" = false := by
      rw [String.startsWith_string_eq_false_iff, hslash]
      intro hstart
      exact h.slash (hstart.subset List.mem_cons_self)
    have hpath : pieces ['/'] name.toList = [] ++ [name.toList] := hname
    rw [Path.join, if_pos (Or.inl rfl), String.empty_append]
    refine placeOf_of_pieces h (hroot.trans (by simp)) hpath (Or.inr ?_) place
    simp [pieces, piecesFrom]
  · unfold Path.join
    split
    · rename_i hends
      have hsuffix := hends.resolve_left hempty
      rw [String.endsWith_eq_endsWith_toSlice, String.Slice.endsWith_string_iff, String.copy_toSlice,
        hslash] at hsuffix
      obtain ⟨front, hfront⟩ := hsuffix
      have hfolder : pieces ['/'] folder.toList = pieces ['/'] front ++ [[]] := by
        rw [← hfront, pieces_append_cons]
        rfl
      refine placeOf_of_pieces h (startsWith_append hempty name) ?_ (Or.inr hfolder) place
      rw [String.toList_append, ← hfront, List.append_assoc, List.singleton_append, pieces_append_cons,
        hname]
    · rw [String.append_assoc]
      refine placeOf_of_pieces h (startsWith_append hempty ("/" ++ name)) ?_ (Or.inl rfl) place
      rw [String.toList_append, String.toList_append, hslash, List.singleton_append, pieces_append_cons,
        hname]

end FileTree

namespace Cache

/-! ## Files of labels -/

def sanitized (label : String) : List Char := label.toList.map safeChar

def Safe (c : Char) : Prop := c.isAlphanum ∨ c = '.'

theorem mem_sanitized {label : String} {c : Char} (h : c ∈ sanitized label) : Safe c ∨ c = '_' := by
  obtain ⟨c, -, rfl⟩ := List.mem_map.mp h
  unfold safeChar
  split
  · rename_i hsafe
    exact Or.inl hsafe
  · exact Or.inr rfl

theorem fileName_eq_iff {label other : String} :
    fileName label = fileName other ↔ sanitized label = sanitized other := by
  unfold fileName sanitized
  rw [String.append_left_inj, String.ofList_inj]

theorem sanitized_of_safe {label : String} (h : ∀ c ∈ label.toList, Safe c) :
    sanitized label = label.toList := by
  have hkept : ∀ c ∈ label.toList, safeChar c = c := fun c hc => if_pos (h c hc)
  unfold sanitized
  rw [List.map_congr_left hkept, List.map_id']

theorem eq_of_fileName_eq {label other : String} (h : ∀ c ∈ label.toList, Safe c)
    (h' : ∀ c ∈ other.toList, Safe c) (hname : fileName label = fileName other) : label = other := by
  rw [fileName_eq_iff, sanitized_of_safe h, sanitized_of_safe h'] at hname
  exact String.toList_inj.mp hname

theorem proper_fileName (label : String) : FileTree.Proper (fileName label) := by
  have htext : (fileName label).toList = sanitized label ++ ".json".toList := by
    unfold fileName sanitized
    rw [String.toList_append, String.toList_ofList]
  have hlong : ∀ short : String, short.toList.length < 5 → fileName label ≠ short := by
    rintro _ hshort rfl
    rw [htext, List.length_append] at hshort
    exact absurd hshort (Nat.not_lt.mpr (Nat.le_add_left _ _))
  constructor
  · rw [htext, List.mem_append, not_or]
    refine ⟨?_, by decide⟩
    intro hmem
    have hsafe := mem_sanitized hmem
    revert hsafe
    unfold Safe
    decide
  · exact hlong "" (by decide)
  · exact hlong "." (by decide)
  · exact hlong ".." (by decide)

variable {α : Type}

/-! ## Calls in turn -/

/-- A call on a cache, and the second of it. -/
inductive Access (α : Type) where
  | save (now : Nat) (label : String) (data : α)
  | load (now : Nat) (label : String)

def Access.label : Access α → String
  | .save _ label _ => label
  | .load _ label => label

/-- The folder after a call. Fails if a file cannot be written. -/
def step (cache : Cache α) (files : Directory) : Access α → Except FileError Directory
  | .save now label data => cache.save now label data files
  | .load now label => .ok (cache.load now label files).2

def run (cache : Cache α) : Directory → List (Access α) → Except FileError Directory
  | files, [] => .ok files
  | files, a :: calls =>
    match cache.step files a with
    | .ok next => cache.run next calls
    | .error e => .error e

inductive Touch (α : Type) where
  | saved (now : Nat) (data : α)
  | removed

/-- What a call does to the file of a name, if it writes or removes it. A load has removed a file that is
there before it but not after it. -/
def touch? (cache : Cache α) (name : String) (files : Directory) : Access α → Option (Touch α)
  | .save now label data => if fileName label = name then some (.saved now data) else none
  | .load now label =>
    if files.entry? name ≠ none ∧ Directory.entry? (cache.load now label files).2 name = none then
      some .removed
    else none

/-- What the last call that wrote or removed the file of a name did to it. -/
def lastTouch? (cache : Cache α) (name : String) : Directory → List (Access α) → Option (Touch α)
  | _, [] => none
  | files, a :: calls =>
    match cache.step files a with
    | .ok next => (cache.lastTouch? name next calls).or (cache.touch? name files a)
    | .error _ => none

variable {cache : Cache α} {files files' other : Directory} {name label : String} {now : Nat} {data : α}
  {a : Access α} {calls : List (Access α)}

/-! ## Loads -/

/-- A file is an entry of a value and not expired. -/
def Valid (cache : Cache α) (now : Nat) (files : Directory) (name : String) (data : α) : Prop :=
  ∃ text expires, files.read name = .ok text ∧ cache.readEntry? text = some (data, expires) ∧
    now ≤ expires

theorem load_of_spent (henabled : cache.enabled = true) {text : String}
    (hread : files.read (fileName label) = .ok text) (hspent : cache.Spent now text) :
    cache.load now label files = (none, files.remove (fileName label)) := by
  obtain ⟨_, data, expires, hread', hentry, halive, -⟩ | ⟨e, hread', -⟩ | ⟨_, -, -, hload⟩ :=
    load_cases_of_enabled henabled now label files
  · cases hread.symm.trans hread'
    exact absurd halive (Nat.not_le.mpr (hspent data expires hentry))
  · cases hread.symm.trans hread'
  · exact hload

theorem load_snd_of_not_spent (henabled : cache.enabled = true)
    (h : ∀ text, files.read (fileName label) = .ok text → ¬ cache.Spent now text) :
    (cache.load now label files).2 = files := by
  obtain ⟨_, _, _, -, -, -, hload⟩ | ⟨e, -, hload⟩ | ⟨text, hread, hspent, -⟩ :=
    load_cases_of_enabled henabled now label files
  · rw [hload]
  · rw [hload]
  · exact absurd hspent (h text hread)

theorem load_eq_some_iff (henabled : cache.enabled = true) :
    (cache.load now label files).1 = some data ↔ cache.Valid now files (fileName label) data := by
  unfold Valid
  obtain ⟨text, found, expires, hread, hentry, halive, hload⟩ | ⟨e, hread, hload⟩ |
    ⟨text, hread, hspent, hload⟩ := load_cases_of_enabled henabled now label files
  · rw [hload, hread]
    constructor
    · rintro ⟨⟩
      exact ⟨text, expires, rfl, hentry, halive⟩
    · rintro ⟨_, _, ⟨⟩, hentry', -⟩
      cases hentry.symm.trans hentry'
      rfl
  · simp [hload, hread]
  · rw [hload, hread]
    refine ⟨nofun, ?_⟩
    rintro ⟨_, expires, ⟨⟩, hentry, halive⟩
    exact absurd halive (Nat.not_le.mpr (hspent data expires hentry))

theorem load_congr (henabled : cache.enabled = true)
    (h : other.read (fileName label) = files.read (fileName label)) :
    (cache.load now label other).1 = (cache.load now label files).1 := by
  apply Option.ext
  intro data
  rw [load_eq_some_iff henabled, load_eq_some_iff henabled, Valid, Valid, h]

/-! ## One call and many -/

theorem run_cons_ok (h : cache.run files (a :: calls) = .ok files') :
    ∃ next, cache.step files a = .ok next ∧ cache.run next calls = .ok files' := by
  unfold run at h
  cases hstep : cache.step files a with
  | error e => simp [hstep] at h
  | ok next => exact ⟨next, rfl, by simpa [hstep] using h⟩

/-- A call writes its file, or leaves the folder as it is, or removes its file. -/
theorem step_cases (henabled : cache.enabled = true) (h : cache.step files a = .ok files') :
    (∃ now label data, a = .save now label data ∧
      files' = files.put (fileName label) (cache.entry now data) ∧
      files'.read (fileName label) = .ok (cache.entry now data)) ∨
    (∃ now label, a = .load now label ∧ files' = (cache.load now label files).2 ∧
      (files' = files ∨ files' = files.remove (fileName label))) := by
  cases a with
  | save now label data =>
    left
    simp only [step, save, henabled, if_true] at h
    exact ⟨now, label, data, rfl, Directory.eq_put_of_write h, Directory.read_of_write h⟩
  | load now label =>
    right
    cases h
    refine ⟨now, label, rfl, rfl, ?_⟩
    obtain ⟨_, _, _, -, -, hload⟩ | hload | hload := load_cases cache now label files <;> simp [hload]

/-! ## Calls on other files -/

/-- Two folders have the same under a name. -/
structure Agree (name : String) (files other : Directory) : Prop where
  entry : files.entry? name = other.entry? name
  room : files.room = other.room

theorem Agree.refl (name : String) (files : Directory) : Agree name files files := ⟨rfl, rfl⟩

theorem Agree.trans (h : Agree name files files') (h' : Agree name files' other) : Agree name files other :=
  ⟨h.entry.trans h'.entry, h.room.trans h'.room⟩

theorem Agree.read (h : Agree name files other) : files.read name = other.read name := by
  unfold Directory.read
  rw [h.entry, h.room]

theorem Agree.write {text : String} (h : Agree name files other) (hwrite : files.write name text = .ok files') :
    ∃ other', other.write name text = .ok other' ∧ Agree name files' other' := by
  obtain rfl := Directory.eq_put_of_write hwrite
  refine ⟨other.put name text, ?_, ?_, h.room⟩
  · unfold Directory.write at hwrite ⊢
    rw [← h.room, ← h.entry]
    split at hwrite
    · cases hwrite
    · split at hwrite
      · cases hwrite
      · rename_i hroom hfile
        rw [if_neg hroom, if_neg hfile]
        simp only [Directory.put, h.room]
  · rw [Directory.entry?_put, Directory.entry?_put, if_pos rfl, if_pos rfl]

theorem agree_remove (h : Agree name files other) : Agree name (files.remove name) (other.remove name) := by
  refine ⟨?_, h.room⟩
  rw [Directory.entry?_remove, Directory.entry?_remove, if_pos rfl, if_pos rfl]

theorem Agree.load (h : Agree (fileName label) files other) (now : Nat) :
    Agree (fileName label) (cache.load now label files).2 (cache.load now label other).2 := by
  unfold Cache.load
  rw [h.read]
  split
  · exact h
  · split
    · exact h
    · split
      · split
        · exact agree_remove h
        · exact h
      · exact agree_remove h

theorem Agree.step (henabled : cache.enabled = true) (h : Agree (fileName a.label) files other)
    (hstep : cache.step files a = .ok files') :
    ∃ other', cache.step other a = .ok other' ∧ Agree (fileName a.label) files' other' := by
  cases a with
  | save now label data =>
    simp only [Cache.step, save, henabled, if_true] at hstep ⊢
    exact h.write hstep
  | load now label =>
    cases hstep
    exact ⟨_, rfl, h.load now⟩

theorem agree_step (henabled : cache.enabled = true) (h : cache.step files a = .ok files')
    (hname : name ≠ fileName a.label) : Agree name files' files := by
  obtain ⟨now, label, data, rfl, rfl, -⟩ | ⟨now, label, rfl, -, rfl | rfl⟩ := step_cases henabled h
  · exact ⟨(Directory.entry?_put _ _ _ _).trans (if_neg hname), rfl⟩
  · exact Agree.refl name _
  · exact ⟨(Directory.entry?_remove _ _ _).trans (if_neg hname), rfl⟩

theorem agree_run (henabled : cache.enabled = true) (h : cache.run files calls = .ok files')
    (hname : ∀ a ∈ calls, name ≠ fileName a.label) : Agree name files' files := by
  induction calls generalizing files with
  | nil =>
    cases h
    exact Agree.refl name files'
  | cons a calls ih =>
    obtain ⟨next, hstep, hrun⟩ := run_cons_ok h
    obtain ⟨hfirst, hrest⟩ := List.forall_mem_cons.mp hname
    exact (ih hrun hrest).trans (agree_step henabled hstep hfirst)

theorem run_filter (henabled : cache.enabled = true) (label : String) (h : Agree (fileName label) files other)
    (hrun : cache.run files calls = .ok files') :
    ∃ own, cache.run other (calls.filter fun a => sanitized a.label = sanitized label) = .ok own ∧
      Agree (fileName label) files' own := by
  induction calls generalizing files other with
  | nil =>
    cases hrun
    exact ⟨other, rfl, h⟩
  | cons a calls ih =>
    obtain ⟨next, hstep, hrun⟩ := run_cons_ok hrun
    by_cases hlabel : sanitized a.label = sanitized label
    · have hname := fileName_eq_iff.mpr hlabel
      rw [← hname] at h
      obtain ⟨other', hstep', hnext⟩ := h.step henabled hstep
      rw [hname] at hnext
      obtain ⟨own, hown, hlast⟩ := ih hnext hrun
      refine ⟨own, ?_, hlast⟩
      simp [hlabel, run, hstep', hown]
    · have hname : fileName label ≠ fileName a.label := by
        intro heq
        exact hlabel (fileName_eq_iff.mp heq.symm)
      obtain ⟨own, hown, hlast⟩ := ih ((agree_step henabled hstep hname).trans h) hrun
      refine ⟨own, ?_, hlast⟩
      simp [hlabel, hown]

/-! ## The last touch of a file -/

/-- A file is as the last touch left it, and without touch as it was at the start. -/
def Left (cache : Cache α) (start : Directory) (name : String) (files : Directory) : Option (Touch α) → Prop
  | none => Agree name files start
  | some (.saved now data) => files.read name = .ok (cache.entry now data)
  | some .removed => files.entry? name = none

variable {start : Directory} {touch : Option (Touch α)}

theorem Left.congr (h : cache.Left start name files touch) (hsame : Agree name files' files) :
    cache.Left start name files' touch := by
  match touch with
  | none => exact hsame.trans h
  | some (.saved now data) => exact hsame.read.trans h
  | some .removed => exact hsame.entry.trans h

theorem agree_load_of_touch?_eq_none (h : cache.touch? (fileName label) files (.load now label) = none) :
    Agree (fileName label) (cache.load now label files).2 files := by
  obtain ⟨_, _, _, -, -, hload⟩ | hload | hload := load_cases cache now label files
  · rw [hload]
    exact Agree.refl _ files
  · rw [hload]
    exact Agree.refl _ files
  · -- Removing a file that is not there changes nothing.
    have hgone : Directory.entry? (files.remove (fileName label)) (fileName label) = none :=
      (Directory.entry?_remove _ _ _).trans (if_pos rfl)
    have hnone : files.entry? (fileName label) = none := by
      simpa [touch?, hload, hgone] using h
    rw [hload]
    exact ⟨hgone.trans hnone.symm, rfl⟩

theorem touch?_of_ne (henabled : cache.enabled = true) (h : cache.step files a = .ok files')
    (hname : name ≠ fileName a.label) : cache.touch? name files a = none := by
  have hsame := agree_step henabled h hname
  cases a with
  | save now label data => exact if_neg hname.symm
  | load now label =>
    cases h
    apply if_neg
    rintro ⟨hsome, hgone⟩
    exact hsome (hsame.entry.symm.trans hgone)

theorem Left.step (henabled : cache.enabled = true) (h : cache.Left start name files touch)
    (hstep : cache.step files a = .ok files') :
    cache.Left start name files' ((cache.touch? name files a).or touch) := by
  by_cases hname : name = fileName a.label
  · subst hname
    obtain ⟨now, label, data, rfl, -, hread⟩ | ⟨now, label, rfl, rfl, -⟩ := step_cases henabled hstep
    · simpa [touch?, Left, Access.label] using hread
    · cases htouch : cache.touch? (fileName label) files (.load now label) with
      | none =>
        simp only [Access.label, htouch, Option.none_or] at h ⊢
        exact h.congr (agree_load_of_touch?_eq_none htouch)
      | some done =>
        simp only [Access.label, htouch, Option.some_or]
        rw [touch?] at htouch
        split at htouch
        · rename_i hgone
          cases htouch
          exact hgone.2
        · cases htouch
  · rw [touch?_of_ne henabled hstep hname, Option.none_or]
    exact h.congr (agree_step henabled hstep hname)

theorem Left.run (henabled : cache.enabled = true) (h : cache.Left start name files touch)
    (hrun : cache.run files calls = .ok files') :
    cache.Left start name files' ((cache.lastTouch? name files calls).or touch) := by
  -- The touch of the calls before is carried along: those that follow come first.
  induction calls generalizing files touch with
  | nil =>
    cases hrun
    exact h
  | cons a calls ih =>
    obtain ⟨next, hstep, hrun⟩ := run_cons_ok hrun
    have hlast := ih (h.step henabled hstep) hrun
    simpa [lastTouch?, hstep, Option.or_assoc] using hlast

theorem save_mem_of_lastTouch? (h : cache.lastTouch? name files calls = some (.saved now data)) :
    ∃ label, .save now label data ∈ calls := by
  induction calls generalizing files with
  | nil => cases h
  | cons a calls ih =>
    unfold lastTouch? at h
    split at h
    · rcases Option.or_eq_some_iff.mp h with hlater | ⟨-, hfirst⟩
      · obtain ⟨label, hmem⟩ := ih hlater
        exact ⟨label, List.mem_cons_of_mem _ hmem⟩
      · cases a with
        | save time label value =>
          rw [touch?] at hfirst
          split at hfirst
          · cases hfirst
            exact ⟨label, List.mem_cons_self⟩
          · cases hfirst
        | load time label =>
          rw [touch?] at hfirst
          split at hfirst <;> cases hfirst
    · cases h

/-! ## Entries that are kept -/

/-- The JSON of a value reads back as the value, with room for the entry around it. -/
structure Keeps (codec : Codec α) (data : α) : Prop where
  reads : (Json.ofString? (codec.write data).compact).bind codec.read? = some data
  nesting : (codec.write data).nesting + 1 ≤ maxNesting

theorem Keeps.read?_reread {codec : Codec α} (h : Keeps codec data) :
    codec.read? (codec.write data).reread = some data := by
  have hreads := h.reads
  have hnesting := h.nesting
  rwa [ofString?_compact_eq, cut_eq_self _ (by rw [nesting_reread]; omega), Option.bind_some] at hreads

theorem Keeps.readEntry? (h : Keeps cache.codec data) (now : Nat) :
    cache.readEntry? (cache.entry now data) = some (data, expiry cache.lifetime now) := by
  have hnesting := h.nesting
  rw [readEntry?_entry_eq, cut_eq_self _ (by rw [nesting_reread]; omega), h.read?_reread]
  rfl

/-- What was saved is alive: for good without life time, and else up to the second that adding the life
time gives. There is no second beyond the last. -/
def Alive (lifetime : Option Nat) (saved now : Nat) : Prop :=
  ∀ seconds ∈ lifetime, now ≤ min (saved + seconds) never

theorem alive_iff {lifetime : Option Nat} {saved : Nat} (hnow : now ≤ never) :
    Alive lifetime saved now ↔ now ≤ expiry lifetime saved := by
  cases lifetime with
  | none => simp [Alive, expiry, hnow]
  | some seconds => simp [Alive, expiry, Nat.add_comm]

theorem Left.valid_iff (h : cache.Left start name files touch)
    (hkeeps : ∀ saved data, touch = some (.saved saved data) → Keeps cache.codec data)
    (hnow : now ≤ never) (data : α) :
    cache.Valid now files name data ↔
      (∃ saved, touch = some (.saved saved data) ∧ Alive cache.lifetime saved now) ∨
      (touch = none ∧ cache.Valid now start name data) := by
  match touch with
  | none =>
    unfold Valid
    rw [Agree.read h]
    simp
  | some (.saved saved value) =>
    have hentry := Keeps.readEntry? (hkeeps saved value rfl) saved
    have hread : files.read name = .ok (cache.entry saved value) := h
    simp only [Valid, hread, alive_iff hnow]
    constructor
    · rintro ⟨_, _, ⟨⟩, hfound, halive⟩
      cases hentry.symm.trans hfound
      exact Or.inl ⟨saved, rfl, halive⟩
    · rintro (⟨_, ⟨⟩, halive⟩ | ⟨⟨⟩, -⟩)
      exact ⟨_, _, rfl, hentry, halive⟩
  | some .removed =>
    have hgone : files.entry? name = none := h
    simp [Valid, Directory.read_eq_ok, hgone]

/-- **The cache is a keyed store with expiry.** -/
theorem load_run (henabled : cache.enabled = true) (hrun : cache.run files calls = .ok files')
    (hsaved : ∀ now label data, .save now label data ∈ calls → Keeps cache.codec data) (hnow : now ≤ never)
    (label : String) :
    -- What is found is what the last touch left, or what was there from the start.
    (∀ data, (cache.load now label files').1 = some data ↔
      (∃ saved, cache.lastTouch? (fileName label) files calls = some (.saved saved data) ∧
        Alive cache.lifetime saved now) ∨
      (cache.lastTouch? (fileName label) files calls = none ∧
        cache.Valid now files (fileName label) data)) ∧
    -- A file that is expired or no entry is removed, and else nothing changes.
    (∀ text, files'.read (fileName label) = .ok text → cache.Spent now text →
      cache.load now label files' = (none, files'.remove (fileName label))) ∧
    ((∀ text, files'.read (fileName label) = .ok text → ¬ cache.Spent now text) →
      (cache.load now label files').2 = files') ∧
    -- Calls on other files play no part.
    (∃ own, cache.run files (calls.filter fun a => sanitized a.label = sanitized label) = .ok own ∧
      own.read (fileName label) = files'.read (fileName label) ∧
      (cache.load now label own).1 = (cache.load now label files').1) ∧
    -- Labels that are kept as they are have files of their own.
    (∀ other : String, (∀ c ∈ label.toList, Safe c) → (∀ c ∈ other.toList, Safe c) →
      fileName label = fileName other → label = other) ∧
    -- Only files of labels are touched or read, and none of them is outside the folder.
    (∀ name, (∀ a ∈ calls, name ≠ fileName a.label) → files'.entry? name = files.entry? name) ∧
    (∀ other : Directory, other.read (fileName label) = files'.read (fileName label) →
      (cache.load now label other).1 = (cache.load now label files').1) ∧
    (∃ text : List Char, fileName label = String.ofList text ++ ".json" ∧
      (∀ c ∈ text, Safe c ∨ c = '_') ∧
      ∀ place folder, FileTree.placeOf place (Path.join folder (fileName label)) =
        FileTree.placeOf place folder ++ [fileName label]) := by
  have hleft : cache.Left files (fileName label) files' (cache.lastTouch? (fileName label) files calls) := by
    have hstart : cache.Left files (fileName label) files none := Agree.refl _ files
    simpa using hstart.run henabled hrun
  obtain ⟨own, hown, hagree⟩ := run_filter henabled label (Agree.refl _ files) hrun
  refine ⟨?_, fun _ => load_of_spent henabled, load_snd_of_not_spent henabled, ?_, ?_, ?_, ?_, ?_⟩
  · intro data
    rw [load_eq_some_iff henabled]
    apply hleft.valid_iff _ hnow
    intro saved value htouch
    obtain ⟨other, hmem⟩ := save_mem_of_lastTouch? htouch
    exact hsaved saved other value hmem
  · exact ⟨own, hown, hagree.read.symm, load_congr henabled hagree.read.symm⟩
  · intro other h h'
    exact eq_of_fileName_eq h h'
  · intro name hname
    exact (agree_run henabled hrun hname).entry
  · intro other
    exact load_congr henabled
  · exact ⟨sanitized label, rfl, fun c => mem_sanitized, FileTree.placeOf_join (proper_fileName label)⟩

def texts : Cache String := ⟨⟨.str, string?⟩, true, some 10⟩

/-- Two of the labels share a file, which expires once and is written again near the end of time. -/
def hostileCalls : List (Access String) :=
  [.save 3 "../x" "old", .load 14 ".._x", .save (never - 4) "a/b" "other", .save (never - 3) ".._x" "new"]

theorem load_hostileCalls : ∃ files', texts.run (.empty 255) hostileCalls = .ok files' ∧
    (∀ now label data, .save now label data ∈ hostileCalls → Keeps texts.codec data) ∧
    texts.lastTouch? (fileName "../x") (.empty 255) hostileCalls = some (.saved (never - 3) "new") ∧
    (texts.load never "../x" files').1 = some "new" := by
  have hrun : ∃ files', texts.run (.empty 255) hostileCalls = .ok files' := ⟨_, rfl⟩
  obtain ⟨files', hrun⟩ := hrun
  have hsaved : ∀ now label data, .save now label data ∈ hostileCalls → Keeps texts.codec data := by
    intro now label data _
    constructor
    · rw [ofString?_compact_eq]
      rfl
    · exact Nat.le_of_ble_eq_true rfl
  have htouch : texts.lastTouch? (fileName "../x") (.empty 255) hostileCalls =
      some (.saved (never - 3) "new") := rfl
  refine ⟨files', hrun, hsaved, htouch, ?_⟩
  rw [(load_run rfl hrun hsaved (Nat.le_refl never) "../x").1]
  refine Or.inl ⟨never - 3, htouch, ?_⟩
  rintro _ ⟨⟩
  decide

end Cache
end Retrace

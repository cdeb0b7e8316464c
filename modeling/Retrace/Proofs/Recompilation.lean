import Retrace.Proofs.Compilation

/-!
# Compiling again

A source file that was compiled is found in the cache again, unless its document nests so deeply that the
entry, which wraps it twice, cannot be read. Then the compiler is run every time.
-/

namespace Retrace

/-- Every entry that can be read is one that the cache has written. -/
def Cache.Own {α : Type} (cache : Cache α) (files : Directory) : Prop :=
  ∀ name text data expires, files.read name = .ok text → cache.readEntry? text = some (data, expires) →
    ∃ written, text = cache.entry written data

namespace Backend

/-- A backend whose cache is enabled and never expires. -/
def lasting (settings : Settings) : Backend := opened settings true none

theorem read_of_remake {b : Backend} {source label : String} {w w' : World} {c : Compiled}
    (henabled : b.cache.enabled = true) (h : (b.remake source label).run w = (.ok c, w')) :
    w'.cache.read (Cache.fileName label) = .ok (b.cache.entry w.now c) := by
  obtain ⟨more, hrun⟩ := b.remake_run source label w
  rw [hrun] at h
  cases hmade : b.made source w with
  | error r =>
    rw [hmade] at h
    cases h
  | ok made =>
    simp only [hmade, Cache.save, henabled, if_true] at h
    cases hwrite : w.cache.write (Cache.fileName label) (b.cache.entry w.now made) with
    | error e =>
      rw [hwrite] at h
      cases h
    | ok files =>
      rw [hwrite] at h
      cases h
      exact Directory.read_of_write hwrite

theorem read_of_compile {b : Backend} {source : String} {w w' : World} {c : Compiled}
    (henabled : b.cache.enabled = true) (hown : b.cache.Own w.cache)
    (h : (b.compile source).run w = (.ok c, w')) :
    ∃ k written, b.key source w = .ok k ∧
      w'.cache.read (Cache.fileName k.label) = .ok (b.cache.entry written c) := by
  cases hkey : b.key source w with
  | error r =>
    obtain ⟨calls, hrun⟩ := compile_of_error hkey
    rw [hrun] at h
    cases h
  | ok k =>
    refine ⟨k, ?_⟩
    rw [compile_of_key hkey] at h
    obtain ⟨text, data, expires, hread, hentry, hload⟩ | hload | hload :=
      b.cache.load_cases w.now k.label w.cache
    · -- What was found is an entry that the cache has written before.
      rw [hload] at h
      cases h
      obtain ⟨written, rfl⟩ := hown _ text c expires hread hentry
      exact ⟨written, rfl, hread⟩
    · simp only [hload] at h
      exact ⟨_, rfl, read_of_remake henabled h⟩
    · simp only [hload] at h
      exact ⟨_, rfl, read_of_remake henabled h⟩

theorem load_compiled (settings : Settings) {label : String} {files : Directory} {now written : Nat}
    {c : Compiled} (hread : files.read (Cache.fileName label) =
      .ok ((lasting settings).cache.entry written c)) (hnow : now ≤ Cache.never) :
    (lasting settings).cache.load now label files =
      if c.document.toJson.nesting + 2 ≤ Json.maxNesting then (some c, files)
      else (none, files.remove (Cache.fileName label)) := by
  have hcut := c.ofJson?_cut (show 7 ≤ Json.maxNesting - 1 by decide)
  have hroom : c.document.toJson.nesting < Json.maxNesting - 1 ↔
      c.document.toJson.nesting + 2 ≤ Json.maxNesting := by
    simp only [Json.maxNesting]
    omega
  rw [Cache.load_entry rfl c.plain_toJson hread hnow]
  simp only [lasting, opened, Compiled.codec, hcut, hroom]
  split <;> rename_i h <;> split <;> simp_all

section Again

variable {settings : Settings} {source : String} {w w₁ w₂ : World} {c : Compiled}

theorem recompile_of_le (hown : (lasting settings).cache.Own w.cache)
    (hfirst : ((lasting settings).compile source).run w = (.ok c, w₁))
    (hkey : (lasting settings).key source w₂ = (lasting settings).key source w)
    (hcache : w₂.cache = w₁.cache) (hnow : w₂.now ≤ Cache.never)
    (h : c.document.toJson.nesting + 2 ≤ Json.maxNesting) :
    ((lasting settings).compile source).run w₂ = (.ok c, w₂.called [settings.versionCall]) := by
  obtain ⟨k, written, hk, hread⟩ := read_of_compile rfl hown hfirst
  rw [← hcache] at hread
  rw [compile_of_key (hkey.trans hk), load_compiled settings hread hnow, if_pos h]
  rfl

theorem recompile_of_lt (hown : (lasting settings).cache.Own w.cache)
    (hfirst : ((lasting settings).compile source).run w = (.ok c, w₁))
    (hkey : (lasting settings).key source w₂ = (lasting settings).key source w)
    (hcache : w₂.cache = w₁.cache) (hnow : w₂.now ≤ Cache.never)
    (h : Json.maxNesting < c.document.toJson.nesting + 2) :
    ∃ more, (((lasting settings).compile source).run w₂).2.calls =
      w₂.calls ++ settings.versionCall :: settings.compileCall source .debugTrace :: more := by
  obtain ⟨k, written, hk, hread⟩ := read_of_compile rfl hown hfirst
  rw [← hcache] at hread
  rw [compile_of_key (hkey.trans hk), load_compiled settings hread hnow, if_neg (Nat.not_le.mpr h)]
  -- The entry is removed as if it were damaged, and the compiler is asked for a document.
  obtain ⟨more, files, hworld⟩ := (lasting settings).remake_world source k.label
    { w₂.called [settings.versionCall] with cache := w₂.cache.remove (Cache.fileName k.label) }
  have hcalls := congrArg World.calls hworld
  simp only [World.called, lasting, opened, List.append_assoc, List.singleton_append] at hcalls
  exact ⟨more, hcalls⟩

end Again

/-- A source file that was compiled is compiled again by asking for the version only, and with the same
result, exactly if its document leaves room for the two levels of an entry. -/
theorem recompile_iff (settings : Settings) {source : String} {w w₁ w₂ : World} {c : Compiled}
    (hown : (lasting settings).cache.Own w.cache)
    (hfirst : ((lasting settings).compile source).run w = (.ok c, w₁))
    (hkey : (lasting settings).key source w₂ = (lasting settings).key source w)
    (hcache : w₂.cache = w₁.cache) (hnow : w₂.now ≤ Cache.never) :
    ((lasting settings).compile source).run w₂ = (.ok c, w₂.called [settings.versionCall]) ↔
      c.document.toJson.nesting + 2 ≤ Json.maxNesting := by
  constructor
  · intro hagain
    apply Nat.le_of_not_lt
    intro hlt
    obtain ⟨more, hcalls⟩ := recompile_of_lt hown hfirst hkey hcache hnow hlt
    rw [hagain] at hcalls
    simp [World.called] at hcalls
  · exact recompile_of_le hown hfirst hkey hcache hnow

/-! ## Nested documents -/

def nested : Nat → Micheline
  | 0 => .seq []
  | n + 1 => .seq [nested n]

def nestedDocument (n : Nat) : Document := ⟨"", none, nested n⟩

def nestedWorld (n : Nat) : World := .sample (nestedDocument n).write fun _ => .ok "archetype a"

theorem nesting_nestedDocument (n : Nat) : (nestedDocument n).toJson.nesting = n + 2 := by
  have hnested : (nested n).toJson.nesting = n + 1 := by
    induction n with
    | zero => rfl
    | succ n ih => simp [nested, Micheline.toJson, Micheline.toJsonAll, Json.nesting, Json.nestingAll, ih]
  simp [nestedDocument, Document.toJson, Json.nesting, Json.nestingMembers, Json.member?, hnested]

theorem compile_nested {n : Nat} (h : n + 2 ≤ Json.maxNesting) :
    ∃ calls files, ((lasting .builtIn).compile "a.arl").run (nestedWorld n) =
      (.ok ⟨nestedDocument n, "\x7b \x7d"⟩, { nestedWorld n with calls := calls, cache := files }) := by
  have hread : Document.ofText (nestedDocument n).write = .ok (nestedDocument n) := by
    rw [Document.ofText, Document.read?_write (nesting_nestedDocument n ▸ h)]
  have hsource : (nestedWorld n).sourceText "a.arl" = .ok "archetype a" := rfl
  have hversion : (nestedWorld n).answer (lasting .builtIn).settings.versionCall none = .ok "1.5.0\n" := rfl
  have hdocument : (nestedWorld n).answer ((lasting .builtIn).settings.compileCall "a.arl" .debugTrace) none =
    .ok (nestedDocument n).write := rfl
  have hmichelson : (nestedWorld n).answer ((lasting .builtIn).settings.compileCall "a.arl" .michelson) none =
    .ok "\x7b \x7d" := rfl
  have hfresh : (lasting .builtIn).fresh "a.arl" (nestedWorld n) =
      .ok ⟨nestedDocument n, "\x7b \x7d"⟩ := by
    simp only [fresh, key, hsource, hversion, made, hdocument, hread, hmichelson, Except.bind, Except.map]
  have hroom : Cache.nameSize ≤ (nestedWorld n).cache.room := by
    change 69 ≤ 255
    decide
  have hempty : (nestedWorld n).cache.entries = [] := rfl
  have hresult := compile_of_empty (lasting .builtIn) "a.arl" rfl hroom hempty
  obtain ⟨calls, files, hworld⟩ := compile_world (lasting .builtIn) "a.arl" (nestedWorld n)
  exact ⟨calls, files, Prod.ext (hresult.trans hfresh) hworld⟩

theorem own_empty {α : Type} (cache : Cache α) (room : Nat) : cache.Own (.empty room) := by
  intro name text data expires hread
  have hfile := (Directory.read_eq_ok.mp hread).2
  cases hfile

theorem recompile_nested :
    ∃ w₁, ((lasting .builtIn).compile "a.arl").run (nestedWorld 123) =
        (.ok ⟨nestedDocument 123, "\x7b \x7d"⟩, w₁) ∧
      ((lasting .builtIn).compile "a.arl").run w₁ =
        (.ok ⟨nestedDocument 123, "\x7b \x7d"⟩, w₁.called [Settings.builtIn.versionCall]) := by
  obtain ⟨calls, files, hfirst⟩ := compile_nested (show 123 + 2 ≤ Json.maxNesting by decide)
  refine ⟨_, hfirst, ?_⟩
  refine Iff.mpr (recompile_iff .builtIn (own_empty _ maxName) hfirst ?_ ?_ ?_) ?_
  · rfl
  · rfl
  · exact Nat.zero_le _
  · rw [nesting_nestedDocument]
    decide

/-- A document that is one level deeper is compiled again, although nothing has changed. -/
theorem nested_recompiled :
    ∃ w₁, ((lasting .builtIn).compile "a.arl").run (nestedWorld 124) =
        (.ok ⟨nestedDocument 124, "\x7b \x7d"⟩, w₁) ∧
      ∃ more, (((lasting .builtIn).compile "a.arl").run w₁).2.calls =
        w₁.calls ++ Settings.builtIn.versionCall :: Settings.builtIn.compileCall "a.arl" .debugTrace :: more := by
  obtain ⟨calls, files, hfirst⟩ := compile_nested (show 124 + 2 ≤ Json.maxNesting by decide)
  refine ⟨_, hfirst, ?_⟩
  apply recompile_of_lt (own_empty _ maxName) hfirst
  · rfl
  · rfl
  · exact Nat.zero_le _
  · rw [nesting_nestedDocument]
    decide

end Backend
end Retrace

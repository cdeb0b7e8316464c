import Mathlib.Data.List.Basic
import Retrace.Pipeline
import Retrace.Proofs.Cache

/-!
# Compiling

What a compilation does to a world: it reads the source, asks the compiler for its version, and takes
the result from the cache or makes it. An entry of the cache is found again unless its document nests
too deeply.
-/

namespace Retrace

open Json

/-! ## Actions on a world -/

namespace Action

variable {ε σ α β : Type}

theorem run_bind (x : ExceptT ε (StateM σ) α) (f : α → ExceptT ε (StateM σ) β) (w : σ) :
    (x >>= f).run w =
      match x.run w with
      | (.ok a, w') => (f a).run w'
      | (.error r, w') => (.error r, w') := by
  change StateT.bind x.run (ExceptT.bindCont f) w = _
  unfold StateT.bind
  rcases x.run w with ⟨_ | a, w'⟩ <;> rfl

theorem run_pure (a : α) (w : σ) : (pure a : ExceptT ε (StateM σ) α).run w = (.ok a, w) := rfl

theorem run_get (w : σ) : (get : ExceptT ε (StateM σ) σ).run w = (.ok w, w) := rfl

theorem run_modify (f : σ → σ) (w : σ) :
    (modify f : ExceptT ε (StateM σ) Unit).run w = (.ok (), f w) := rfl

theorem run_ofExcept (x : Except ε α) (w : σ) :
    (MonadExcept.ofExcept x : ExceptT ε (StateM σ) α).run w = (x, w) := by
  cases x <;> rfl

end Action

namespace World

/-- The world after some calls, with nothing else changed. -/
def called (w : World) (calls : List ToolCall) : World := { w with calls := w.calls ++ calls }

@[simp] theorem called_called (w : World) (calls more : List ToolCall) :
    (w.called calls).called more = w.called (calls ++ more) := by
  simp [called]

@[simp] theorem answer_called (w : World) (calls : List ToolCall) (call : ToolCall) (mark : Option String) :
    (w.called calls).answer call mark = w.answer call mark := rfl

@[simp] theorem now_called (w : World) (calls : List ToolCall) : (w.called calls).now = w.now := rfl

@[simp] theorem cache_called (w : World) (calls : List ToolCall) : (w.called calls).cache = w.cache := rfl

/-- A new world, with a compiler that makes one document of every source. -/
def sample (document : String) (files : String → Except FileError String) : World where
  files := files
  tools
    | ⟨_, ["--version"]⟩ => .ok ⟨some 0, "1.5.0\n", ""⟩
    | ⟨_, [_, _, "debug-trace", _]⟩ => .ok ⟨some 0, document, ""⟩
    | ⟨_, [_, _, "michelson", _]⟩ => .ok ⟨some 0, "\x7b \x7d", ""⟩
    | _ => .error .notFound
  scriptPath := "script.tz"
  now := 0
  cache := .empty maxName
  calls := []
  scripts := []

end World

namespace Backend

open Retrace.Action

theorem exec_run (call : ToolCall) (mark : Option String) (w : World) :
    (exec call mark).run w = (w.answer call mark, w.called [call]) := by
  unfold exec
  simp only [run_bind, run_modify, run_get, run_ofExcept]
  rfl

theorem readSource_run (source : String) (w : World) :
    (readSource source).run w = (w.sourceText source, w) := by
  unfold readSource
  simp only [run_bind, run_get, run_ofExcept]

theorem lookUp_run (b : Backend) (label : String) (w : World) :
    (b.lookUp label).run w =
      (.ok (b.cache.load w.now label w.cache).1, { w with cache := (b.cache.load w.now label w.cache).2 }) :=
  rfl

theorem keep_run (b : Backend) (label : String) (c : Compiled) (w : World) :
    (b.keep label c).run w =
      match b.cache.save w.now label c w.cache with
      | .ok files => (.ok (), { w with cache := files })
      | .error e => (.error (.of (.file e)), w) := by
  unfold keep saved
  simp only [run_bind, run_get, run_ofExcept]
  cases b.cache.save w.now label c w.cache <;> rfl

end Backend

/-! ## Keys -/

/-- What a compilation depends on. -/
structure Key where
  version : String
  caller : String
  content : String
deriving DecidableEq

namespace Key

def text (k : Key) : String := k.version ++ "\n" ++ k.caller ++ "\n" ++ k.content

def label (k : Key) : String := Digest.ofString k.text

/-- The version and the caller take one line each. -/
def OneLine (k : Key) : Prop := '\n' ∉ k.version.toList ∧ '\n' ∉ k.caller.toList

instance (k : Key) : Decidable k.OneLine := inferInstanceAs (Decidable (_ ∧ _))

theorem line_inj {line line' rest rest' : List Char} (h : '\n' ∉ line) (h' : '\n' ∉ line')
    (heq : line ++ '\n' :: rest = line' ++ '\n' :: rest') : line = line' ∧ rest = rest' := by
  have hlength : line.length = line'.length := by
    have hbreak := congrArg (List.idxOf '\n') heq
    simpa [List.idxOf_append_of_notMem, h, h'] using hbreak
  obtain ⟨hline, hrest⟩ := List.append_inj heq hlength
  exact ⟨hline, (List.cons.inj hrest).2⟩

theorem eq_of_text {k k' : Key} (hk : k.OneLine) (hk' : k'.OneLine) (h : k.text = k'.text) : k = k' := by
  have hbreak : "\n".toList = ['\n'] := rfl
  have hlists := congrArg String.toList h
  simp only [text, String.toList_append, List.append_assoc, hbreak, List.singleton_append] at hlists
  obtain ⟨hversion, hrest⟩ := line_inj hk.1 hk'.1 hlists
  obtain ⟨hcaller, hcontent⟩ := line_inj hk.2 hk'.2 hrest
  obtain ⟨version, caller, content⟩ := k
  rw [String.toList_inj] at hversion hcaller hcontent
  subst hversion hcaller hcontent
  rfl

end Key

/-! ## Kept compilations -/

namespace Compiled

theorem plain_toJson (c : Compiled) : c.toJson.Plain := ⟨c.document.plain_toJson, trivial, trivial⟩

theorem ofJson?_cut (c : Compiled) {room : Nat} (hroom : 7 ≤ room) :
    ofJson? (c.toJson.cut room) = if c.document.toJson.nesting < room then some c else none := by
  have hopen : room ≠ 0 := by omega
  have hnesting : c.document.toJson.nesting ≤ room - 1 ↔ c.document.toJson.nesting < room := by omega
  have hdocument := c.document.ofJson?_cut (show 6 ≤ room - 1 by omega)
  simp only [hnesting] at hdocument
  split <;> rename_i h <;>
    simp [ofJson?, toJson, cut, cutMembers, within, hopen, fields?, memberOnce?, valuesOf, required?, string?,
      hdocument, h]

theorem eq_of_read {cache : Cache Compiled} (hcodec : cache.codec = codec) {now expires : Nat}
    {c found : Compiled} (h : cache.readEntry? (cache.entry now c) = some (found, expires)) : found = c := by
  have hplain : (cache.codec.write c).Plain := hcodec ▸ c.plain_toJson
  rw [cache.readEntry?_entry now hplain, hcodec] at h
  simp only [codec, c.ofJson?_cut (show 7 ≤ maxNesting - 1 by decide), Option.map_eq_some_iff] at h
  obtain ⟨read, hread, hpair⟩ := h
  grind

end Compiled

/-! ## One compilation -/

namespace Backend

open Retrace.Action

def opened (settings : Settings) (enabled : Bool) (lifetime : Option Nat) : Backend :=
  ⟨settings, ⟨Compiled.codec, enabled, lifetime⟩⟩

/-- The key of a source file, or why there is none. -/
def key (b : Backend) (source : String) (w : World) : Except Report Key :=
  (w.sourceText source).bind fun content =>
    (w.answer b.settings.versionCall none).map fun version =>
      ⟨Text.trimString version, b.settings.caller, content⟩

/-- What the compiler makes of a source file, or why it makes nothing. -/
def made (b : Backend) (source : String) (w : World) : Except Report Compiled :=
  (w.answer (b.settings.compileCall source .debugTrace) none).bind fun text =>
    (Document.ofText text).bind fun document =>
      (w.answer (b.settings.compileCall source .michelson) none).map (Compiled.mk document)

theorem key_eq_ok {b : Backend} {source : String} {w : World} {k : Key} (h : b.key source w = .ok k) :
    ∃ content version, w.sourceText source = .ok content ∧
      w.answer b.settings.versionCall none = .ok version ∧
      k = ⟨Text.trimString version, b.settings.caller, content⟩ := by
  unfold key at h
  cases hsource : w.sourceText source with
  | error e =>
    rw [hsource] at h
    cases h
  | ok content =>
    cases hversion : w.answer b.settings.versionCall none with
    | error e =>
      rw [hsource, hversion] at h
      cases h
    | ok version =>
      rw [hsource, hversion] at h
      cases h
      exact ⟨content, version, rfl, rfl, rfl⟩

theorem compile_of_error {b : Backend} {source : String} {w : World} {r : Report}
    (h : b.key source w = .error r) : ∃ calls, (b.compile source).run w = (.error r, w.called calls) := by
  unfold key at h
  unfold compile
  simp only [run_bind, readSource_run, exec_run]
  cases hsource : w.sourceText source with
  | error e =>
    rw [hsource] at h
    cases h
    exact ⟨[], by simp [World.called]⟩
  | ok content =>
    cases hversion : w.answer b.settings.versionCall none with
    | error e =>
      rw [hsource, hversion] at h
      cases h
      exact ⟨[b.settings.versionCall], by simp only [hversion]⟩
    | ok version =>
      rw [hsource, hversion] at h
      cases h

theorem compile_of_key {b : Backend} {source : String} {w : World} {k : Key} (h : b.key source w = .ok k) :
    (b.compile source).run w =
      match b.cache.load w.now k.label w.cache with
      | (some c, files) => (.ok c, { w.called [b.settings.versionCall] with cache := files })
      | (none, files) =>
        (b.remake source k.label).run { w.called [b.settings.versionCall] with cache := files } := by
  obtain ⟨content, version, hsource, hversion, rfl⟩ := key_eq_ok h
  have hlabel : Key.label ⟨Text.trimString version, b.settings.caller, content⟩ =
    b.label (Text.trimString version) content := rfl
  unfold compile
  simp only [run_bind, readSource_run, hsource, exec_run, hversion, lookUp_run, hlabel, World.now_called,
    World.cache_called]
  rcases b.cache.load w.now (b.label (Text.trimString version) content) w.cache with ⟨_ | c, files⟩ <;> rfl

theorem remake_run (b : Backend) (source label : String) (w : World) :
    ∃ more, (b.remake source label).run w =
      let w' := w.called (b.settings.compileCall source .debugTrace :: more)
      match b.made source w with
      | .error r => (.error r, w')
      | .ok c =>
        match b.cache.save w.now label c w.cache with
        | .ok files => (.ok c, { w' with cache := files })
        | .error e => (.error (.of (.file e)), w') := by
  unfold remake made
  simp only [run_bind, exec_run]
  cases w.answer (b.settings.compileCall source .debugTrace) none with
  | error e => exact ⟨[], rfl⟩
  | ok text =>
    simp only [run_ofExcept, Except.bind]
    cases Document.ofText text with
    | error e => exact ⟨[], rfl⟩
    | ok document =>
      refine ⟨[b.settings.compileCall source .michelson], ?_⟩
      simp only [World.answer_called, World.called_called, keep_run, Except.map]
      cases w.answer (b.settings.compileCall source .michelson) none with
      | error e => rfl
      | ok michelson =>
        cases hsave : b.cache.save w.now label ⟨document, michelson⟩ w.cache <;> simp [hsave, run_pure]

theorem remake_world (b : Backend) (source label : String) (w : World) :
    ∃ more files, ((b.remake source label).run w).2 =
      { w.called (b.settings.compileCall source .debugTrace :: more) with cache := files } := by
  obtain ⟨more, hrun⟩ := b.remake_run source label w
  rw [hrun]
  refine ⟨more, ?_⟩
  cases b.made source w with
  | error r => exact ⟨_, rfl⟩
  | ok c => cases hsave : b.cache.save w.now label c w.cache <;> simp only [hsave] <;> exact ⟨_, rfl⟩

theorem compile_world (b : Backend) (source : String) (w : World) :
    ∃ calls files, ((b.compile source).run w).2 = { w with calls := calls, cache := files } := by
  cases hkey : b.key source w with
  | error r =>
    obtain ⟨calls, hrun⟩ := compile_of_error hkey
    rw [hrun]
    exact ⟨_, _, rfl⟩
  | ok k =>
    rw [compile_of_key hkey]
    rcases b.cache.load w.now k.label w.cache with ⟨_ | c, files⟩
    · obtain ⟨more, files', hworld⟩ := b.remake_world source k.label
        { w.called [b.settings.versionCall] with cache := files }
      exact ⟨_, _, hworld⟩
    · exact ⟨_, _, rfl⟩

/-! ## Without a cache -/

def uncached (b : Backend) : Backend := { b with cache := Cache.disabled b.cache.codec }

/-- What a source file compiles to now, whatever was kept. -/
def fresh (b : Backend) (source : String) (w : World) : Except Report Compiled :=
  (b.key source w).bind fun _ => b.made source w

theorem uncached_compile (b : Backend) (source : String) (w : World) :
    ((b.uncached.compile source).run w).1 = b.fresh source w := by
  have hkey : b.uncached.key source w = b.key source w := rfl
  unfold fresh
  cases h : b.key source w with
  | error r =>
    obtain ⟨calls, hrun⟩ := compile_of_error (hkey.trans h)
    rw [hrun]
    rfl
  | ok k =>
    rw [compile_of_key (hkey.trans h)]
    have hload : b.uncached.cache.load w.now k.label w.cache = (none, w.cache) := rfl
    have hmade : b.uncached.made source (w.called [b.settings.versionCall]) = b.made source w := rfl
    obtain ⟨more, hrun⟩ := b.uncached.remake_run source k.label (w.called [b.settings.versionCall])
    simp only [hload]
    refine (congrArg Prod.fst hrun).trans ?_
    simp only [hmade]
    cases b.made source w <;> rfl

/-! ## With a cache -/

theorem save_eq_put {b : Backend} {now : Nat} {k : Key} {c : Compiled} {files : Directory}
    (henabled : b.cache.enabled = true) (hroom : Cache.nameSize ≤ files.room)
    (hfile : files.entry? (Cache.fileName k.label) ≠ some .folder) :
    b.cache.save now k.label c files =
      .ok (files.put (Cache.fileName k.label) (b.cache.entry now c)) := by
  have hname : (Cache.fileName k.label).utf8ByteSize ≤ files.room := by
    rw [Key.label, Cache.utf8ByteSize_fileName]
    exact hroom
  rw [Cache.save, if_pos henabled, Directory.write_eq_put _ hname hfile]

theorem remake_holds {b : Backend} (source : String) (k : Key) (w : World) {P : String → Compiled → Prop}
    (hcodec : b.cache.codec = Compiled.codec) (hroom : Cache.nameSize ≤ w.cache.room)
    (hholds : Cache.Holds Compiled.codec P w.cache)
    (hnew : ∀ c, b.made source w = .ok c → P (Cache.fileName k.label) c) :
    ((b.remake source k.label).run w).1 = b.made source w ∧
      ((b.remake source k.label).run w).2.cache.room = w.cache.room ∧
      Cache.Holds Compiled.codec P ((b.remake source k.label).run w).2.cache := by
  obtain ⟨more, hrun⟩ := b.remake_run source k.label w
  rw [hrun]
  cases hmade : b.made source w with
  | error r => exact ⟨rfl, rfl, hholds⟩
  | ok c =>
    cases henabled : b.cache.enabled with
    | false => simpa [Cache.save, henabled] using hholds
    | true =>
      simp only [save_eq_put henabled hroom (hholds.file _)]
      refine ⟨trivial, rfl, hholds.put fun found expires hread => ?_⟩
      rw [← hcodec] at hread
      rw [Compiled.eq_of_read hcodec hread]
      exact hnew c hmade

/-- A compilation gives what it would give without a cache, as long as what is known under its label is
what it would give, and it keeps nothing else. -/
theorem compile_holds {b : Backend} {source : String} {w : World} {P : String → Compiled → Prop}
    (hcodec : b.cache.codec = Compiled.codec) (hroom : Cache.nameSize ≤ w.cache.room)
    (hholds : Cache.Holds Compiled.codec P w.cache)
    (hknown : ∀ k, b.key source w = .ok k → ∀ c, P (Cache.fileName k.label) c ↔ b.fresh source w = .ok c) :
    ((b.compile source).run w).1 = b.fresh source w ∧
      ((b.compile source).run w).2.cache.room = w.cache.room ∧
      Cache.Holds Compiled.codec P ((b.compile source).run w).2.cache := by
  cases hkey : b.key source w with
  | error r =>
    obtain ⟨calls, hrun⟩ := compile_of_error hkey
    rw [hrun, fresh, hkey]
    exact ⟨rfl, rfl, hholds⟩
  | ok k =>
    have hfresh : b.fresh source w = b.made source w := by
      rw [fresh, hkey]
      rfl
    obtain ⟨hafter, hroomAfter, hfound⟩ := (hcodec ▸ hholds).load b.cache w.now k.label
    rw [compile_of_key hkey]
    rcases hload : b.cache.load w.now k.label w.cache with ⟨_ | c, files⟩
    · -- A miss: the compiler is run, and what it makes is what is known under the label.
      rw [hload, hcodec] at hafter
      rw [hload] at hroomAfter
      obtain ⟨hresult, hroomLast, hlast⟩ :=
        remake_holds source k { w.called [b.settings.versionCall] with cache := files } hcodec
          (hroom.trans_eq hroomAfter.symm) hafter
          fun c hmade => (hknown k hkey c).mpr (hfresh.trans hmade)
      exact ⟨hresult.trans hfresh.symm, hroomLast.trans hroomAfter, hlast⟩
    · -- A hit: what was found is known under the label, so it is what the compiler would make.
      rw [hload, hcodec] at hafter
      rw [hload] at hroomAfter hfound
      exact ⟨((hknown k hkey c).mp (hfound c rfl)).symm, hroomAfter, hafter⟩

theorem compile_of_empty (b : Backend) (source : String) {w : World}
    (hcodec : b.cache.codec = Compiled.codec) (hroom : Cache.nameSize ≤ w.cache.room)
    (hempty : w.cache.entries = []) : ((b.compile source).run w).1 = b.fresh source w := by
  have hholds : Cache.Holds Compiled.codec (fun _ c => b.fresh source w = .ok c) w.cache :=
    Cache.holds_empty hempty
  exact (compile_holds hcodec hroom hholds fun _ _ _ => Iff.rfl).1

end Backend

end Retrace

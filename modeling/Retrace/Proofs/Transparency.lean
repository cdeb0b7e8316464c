import Mathlib.Data.List.Pairwise
import Retrace.Proofs.Compilation

/-!
# Compiling with and without a cache

A history is a list of edits, new compilers, reopened backends, spoiled cache files and compilations.
Every compilation of a history gives what it would give without a cache, if the compiler is a function of
its version, the caller and the source.
-/

namespace Retrace

structure Desk where
  backend : Backend
  world : World

inductive Act where
  | write (path text : String)
  | install (tools : ToolCall → Except FileError ToolOutput)
  /-- Another backend on the same folder. -/
  | reopen (settings : Settings) (enabled : Bool) (lifetime : Option Nat)
  | wait (seconds : Nat)
  /-- A file of the cache is overwritten by a text that is no entry. -/
  | spoil (name text : String) (h : Cache.readEntry? (.disabled Compiled.codec) text = none)
  | compile (source : String)

namespace Desk

def after (d : Desk) : Act → Desk
  | .write path text =>
    { d with world := { d.world with files := fun p => if p = path then .ok text else d.world.files p } }
  | .install tools => { d with world := { d.world with tools := tools } }
  | .reopen settings enabled lifetime => { d with backend := .opened settings enabled lifetime }
  | .wait seconds => { d with world := { d.world with now := d.world.now + seconds } }
  | .spoil name text _ =>
    match d.world.cache.write name text with
    | .ok files => { d with world := { d.world with cache := files } }
    | .error _ => d
  | .compile source => { d with world := ((d.backend.compile source).run d.world).2 }

end Desk

structure Compilation where
  desk : Desk
  source : String

namespace Compilation

def result (c : Compilation) : Except Report Compiled :=
  ((c.desk.backend.compile c.source).run c.desk.world).1

/-- What a backend with caching disabled returns at that point. -/
def uncached (c : Compilation) : Except Report Compiled :=
  ((c.desk.backend.uncached.compile c.source).run c.desk.world).1

def key (c : Compilation) : Except Report Key := c.desk.backend.key c.source c.desk.world

def answer (c : Compilation) (target : Target) : Except Report String :=
  c.desk.world.answer (c.desk.backend.settings.compileCall c.source target) none

/-- With one key, the compiler gives one document and one script. -/
def Agree (c c' : Compilation) : Prop :=
  c.key.isOk → c.key = c'.key →
    ∀ target ∈ [Target.debugTrace, Target.michelson], (c.answer target).isOk ∧ c.answer target = c'.answer target

instance (c c' : Compilation) : Decidable (c.Agree c') :=
  inferInstanceAs (Decidable (c.key.isOk → c.key = c'.key → ∀ target ∈ [Target.debugTrace, Target.michelson],
    (c.answer target).isOk ∧ c.answer target = c'.answer target))

end Compilation

namespace Desk

def compilations (d : Desk) : List Act → List Compilation
  | [] => []
  | .compile source :: acts => ⟨d, source⟩ :: (d.after (.compile source)).compilations acts
  | act :: acts => (d.after act).compilations acts

def keys (d : Desk) (acts : List Act) : List Key := (d.compilations acts).filterMap (·.key.toOption)

end Desk

/-! ## What is kept -/

namespace Compilation

theorem uncached_eq (c : Compilation) : c.uncached = c.desk.backend.fresh c.source c.desk.world :=
  c.desk.backend.uncached_compile c.source c.desk.world

theorem Agree.uncached_congr {c c' : Compilation} (h : c.Agree c') {k : Key} (hk : c.key = .ok k)
    (hk' : c'.key = .ok k) : c.uncached = c'.uncached := by
  have hanswer := h (by rw [hk]; rfl) (hk.trans hk'.symm)
  have hdocument := (hanswer .debugTrace (by simp)).2
  have hmichelson := (hanswer .michelson (by simp)).2
  rw [key] at hk hk'
  rw [answer, answer] at hdocument hmichelson
  rw [Compilation.uncached_eq, Compilation.uncached_eq, Backend.fresh, Backend.fresh, hk, hk', Backend.made,
    Backend.made, hdocument, hmichelson]

instance : Std.Symm Agree where
  symm c c' h := by
    intro hok hkey target htarget
    obtain ⟨hanswer, heq⟩ := h (hkey ▸ hok) hkey.symm target htarget
    exact ⟨heq ▸ hanswer, heq.symm⟩

/-- Under a name, `cs` would keep a value. -/
def Made (cs : List Compilation) (name : String) (value : Compiled) : Prop :=
  ∃ c ∈ cs, ∃ k, c.key = .ok k ∧ name = Cache.fileName k.label ∧ c.uncached = .ok value

/-- What is known under the label of a compilation is what it gives. -/
def Known (P : String → Compiled → Prop) (c : Compilation) : Prop :=
  ∀ k, c.key = .ok k → ∀ value, P (Cache.fileName k.label) value ↔ c.uncached = .ok value

theorem known_made {cs : List Compilation} (hagree : cs.Pairwise Agree)
    (hline : ∀ k ∈ cs.filterMap (·.key.toOption), k.OneLine)
    (hdigest : ∀ k ∈ cs.filterMap (·.key.toOption), ∀ k' ∈ cs.filterMap (·.key.toOption),
      k.label = k'.label → k.text = k'.text)
    {c : Compilation} (hc : c ∈ cs) : Known (Made cs) c := by
  have hmem {c : Compilation} (hc : c ∈ cs) {k : Key} (hk : c.key = .ok k) :
      k ∈ cs.filterMap (·.key.toOption) := by
    refine List.mem_filterMap.mpr ⟨c, hc, ?_⟩
    rw [hk]
    rfl
  intro k hk value
  constructor
  · rintro ⟨c', hc', k', hk', hname, hvalue⟩
    -- One file name means one digest, so one text, so one key.
    have hlabel := Cache.fileName_inj hname
    obtain rfl := Key.eq_of_text (hline k (hmem hc hk)) (hline k' (hmem hc' hk'))
      (hdigest k (hmem hc hk) k' (hmem hc' hk') hlabel)
    by_cases heq : c = c'
    · rw [heq, hvalue]
    · have hboth : c.Agree c' := hagree.forall hc hc' heq
      rw [hboth.uncached_congr hk hk', hvalue]
  · intro hvalue
    exact ⟨c, hc, k, hk, rfl, hvalue⟩

end Compilation

namespace Desk

/-- The folder is usable, and `P` holds of what is kept there. -/
structure Sound (P : String → Compiled → Prop) (d : Desk) : Prop where
  codec : d.backend.cache.codec = Compiled.codec
  room : Cache.nameSize ≤ d.world.cache.room
  holds : Cache.Holds Compiled.codec P d.world.cache

variable {P : String → Compiled → Prop} {d : Desk}

theorem Sound.compile (h : d.Sound P) {source : String} (hknown : Compilation.Known P ⟨d, source⟩) :
    Compilation.result ⟨d, source⟩ = Compilation.uncached ⟨d, source⟩ ∧
      (d.after (.compile source)).Sound P := by
  obtain ⟨hresult, hroom, hholds⟩ := Backend.compile_holds h.codec h.room h.holds
    (fun k hk value => Compilation.uncached_eq ⟨d, source⟩ ▸ hknown k hk value)
  exact ⟨hresult.trans (Compilation.uncached_eq ⟨d, source⟩).symm, h.codec, hroom ▸ h.room, hholds⟩

theorem Sound.after (h : d.Sound P) (act : Act)
    (hknown : ∀ source, act = .compile source → Compilation.Known P ⟨d, source⟩) :
    (d.after act).Sound P := by
  cases act with
  | write path text => exact ⟨h.codec, h.room, h.holds⟩
  | install tools => exact ⟨h.codec, h.room, h.holds⟩
  | reopen settings enabled lifetime => exact ⟨rfl, h.room, h.holds⟩
  | wait seconds => exact ⟨h.codec, h.room, h.holds⟩
  | spoil name text hspoiled =>
    simp only [Desk.after]
    cases hwrite : d.world.cache.write name text with
    | error e => exact h
    | ok files =>
      obtain rfl := Directory.eq_put_of_write hwrite
      refine ⟨h.codec, h.room, h.holds.put fun data expires hread => ?_⟩
      rw [hspoiled] at hread
      cases hread
  | compile source => exact (h.compile (hknown source rfl)).2

theorem Sound.result_eq (h : d.Sound P) {acts : List Act}
    (hknown : ∀ c ∈ d.compilations acts, Compilation.Known P c) :
    ∀ c ∈ d.compilations acts, c.result = c.uncached := by
  -- Along the history `P` stays the same: it speaks of all compilations, also of those to come.
  induction acts generalizing d with
  | nil => simp [compilations]
  | cons act acts ih =>
    cases act with
    | compile source =>
      rw [compilations, List.forall_mem_cons] at hknown ⊢
      obtain ⟨hresult, hafter⟩ := h.compile hknown.1
      exact ⟨hresult, ih hafter hknown.2⟩
    | _ => exact ih (h.after _ fun _ heq => nomatch heq) hknown

/-- A backend on an empty folder that has room for the files of the cache. -/
structure New (d : Desk) : Prop where
  codec : d.backend.cache.codec = Compiled.codec
  room : Cache.nameSize ≤ d.world.cache.room
  empty : d.world.cache.entries = []

/-- A cache that starts empty is never noticed: as long as the compiler's answers depend on its version,
the caller and the source, every compilation of every history returns what a backend with caching disabled
returns at that point. -/
theorem compile_transparent (hnew : d.New) (acts : List Act)
    (hagree : (d.compilations acts).Pairwise Compilation.Agree) (hline : ∀ k ∈ d.keys acts, k.OneLine)
    (hdigest : ∀ k ∈ d.keys acts, ∀ k' ∈ d.keys acts, k.label = k'.label → k.text = k'.text) :
    ∀ c ∈ d.compilations acts, c.result = c.uncached := by
  have hstart : d.Sound (Compilation.Made (d.compilations acts)) :=
    ⟨hnew.codec, hnew.room, Cache.holds_empty hnew.empty⟩
  apply hstart.result_eq
  intro c hc
  exact Compilation.known_made hagree hline hdigest hc

/-! ## A history -/

def sampleSettings (caller : String) : Settings := { Settings.builtIn with caller := caller }

def sampleDesk : Desk where
  backend := .opened (sampleSettings "tz1") true none
  world := .sample "\x7b\"contract\":[]\x7d" fun _ => .error .notFound

/-- A source is compiled and found again, then it is compiled for a caller whose entry was spoiled. -/
def sampleActs : List Act :=
  [.write "a.arl" "archetype a", .compile "a.arl", .compile "a.arl",
   .spoil (Cache.fileName (Key.label ⟨"1.5.0", "tz2", "archetype a"⟩)) "junk" rfl,
   .reopen (sampleSettings "tz2") true (some 60), .compile "a.arl"]

theorem compile_transparent_sample :
    sampleDesk.New ∧ (sampleDesk.compilations sampleActs).Pairwise Compilation.Agree ∧
      ∀ c ∈ sampleDesk.compilations sampleActs, c.result = c.uncached := by
  have hnew : sampleDesk.New := ⟨rfl, by decide, rfl⟩
  have hhistory : (sampleDesk.compilations sampleActs).Pairwise Compilation.Agree ∧
      (∀ k ∈ sampleDesk.keys sampleActs, k.OneLine) ∧
      ∀ k ∈ sampleDesk.keys sampleActs, ∀ k' ∈ sampleDesk.keys sampleActs,
        k.label = k'.label → k.text = k'.text := by
    decide +kernel
  obtain ⟨hagree, hline, hdigest⟩ := hhistory
  exact ⟨hnew, hagree, compile_transparent hnew sampleActs hagree hline hdigest⟩

end Desk

end Retrace

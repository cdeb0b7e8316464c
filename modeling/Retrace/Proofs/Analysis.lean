import Retrace.Debugger
import Retrace.Proofs.Compilation
import Retrace.Proofs.Text.Marks

/-!
# Stages of an analysis

An analysis is a list of stages, some of which run a program. It passes them in order up to the first
one that fails, whose failure is its result. A launch that fails leaves the debugger as it was.
-/

namespace Retrace

def failureOf {α : Type} : Except Report α → Option Report
  | .ok _ => none
  | .error report => some report

/-- A part of a pipeline: the program that it runs, if it runs one, and what it fails with, if it fails. -/
structure Stage where
  call? : Option ToolCall
  fault? : Option Report

namespace Stage

def call {α : Type} (c : ToolCall) (answer : Except Report α) : Stage := ⟨some c, failureOf answer⟩

def check {α : Type} (outcome : Except Report α) : Stage := ⟨none, failureOf outcome⟩

def calls (stages : List Stage) : List ToolCall := stages.filterMap (·.call?)

end Stage

/-- A way through stages: the programs run on it and its result. -/
inductive Passes {α : Type} : List Stage → List ToolCall → Except Report α → Prop
  /-- No stage is left. -/
  | through (x : α) : Passes [] [] (.ok x)
  /-- A stage that fails is the last one, and its failure is the result. -/
  | stop {stage : Stage} {report : Report} (h : stage.fault? = some report) (rest : List Stage) :
    Passes (stage :: rest) stage.call?.toList (.error report)
  /-- A stage that does not fail is followed by the next one. -/
  | next {stage : Stage} {rest : List Stage} {calls : List ToolCall} {result : Except Report α}
    (h : stage.fault? = none) (hrest : Passes rest calls result) :
    Passes (stage :: rest) (stage.call?.toList ++ calls) result

namespace Passes

variable {α β : Type} {stages more : List Stage} {calls others : List ToolCall}

theorem calls_prefix {result : Except Report α} (h : Passes stages calls result) :
    calls <+: Stage.calls stages := by
  induction h with
  | through x => exact List.prefix_rfl
  | @stop stage report h rest =>
    rw [Stage.calls, List.filterMap_cons]
    cases stage.call? with
    | none => exact List.nil_prefix
    | some call => exact List.prefix_append [call] _
  | @next stage rest calls result h hrest ih =>
    rw [Stage.calls, List.filterMap_cons]
    cases stage.call? with
    | none => exact ih
    | some call => exact List.cons_prefix_cons.mpr ⟨rfl, ih⟩

theorem append_error {report : Report} (h : Passes stages calls (.error report : Except Report α))
    (more : List Stage) : Passes (stages ++ more) calls (.error report : Except Report β) := by
  generalize hresult : (.error report : Except Report α) = result at h
  induction h with
  | through x => cases hresult
  | stop h rest =>
    cases hresult
    exact .stop h (rest ++ more)
  | next h hrest ih => exact .next h (ih hresult)

theorem append_ok {x : α} {result : Except Report β} (h : Passes stages calls (.ok x))
    (hmore : Passes more others result) : Passes (stages ++ more) (calls ++ others) result := by
  generalize hok : (.ok x : Except Report α) = first at h
  induction h with
  | through x => exact hmore
  | stop h rest => cases hok
  | next h hrest ih =>
    rw [List.append_assoc]
    exact .next h (ih hok)

end Passes

/-! ## Actions and their stages -/

/-- Done in a world, the action passes the stages. -/
def Action.Follows {α : Type} (x : Action α) (w : World) (stages : List Stage) : Prop :=
  ∃ calls, (x.run w).2.calls = w.calls ++ calls ∧ Passes stages calls (x.run w).1

namespace Action.Follows

variable {α β : Type} {x : Action α} {w : World} {stages more : List Stage}

theorem pure (a : α) (w : World) : Follows (Pure.pure a : Action α) w [] :=
  ⟨[], (List.append_nil w.calls).symm, .through a⟩

theorem bind {f : α → Action β} (hx : x.Follows w stages)
    (hf : ∀ a w', x.run w = (.ok a, w') → (f a).Follows w' more) :
    (x >>= f).Follows w (stages ++ more) := by
  obtain ⟨calls, hcalls, hpasses⟩ := hx
  unfold Follows
  rw [run_bind]
  rcases hrun : x.run w with ⟨report | a, w'⟩
  · rw [hrun] at hcalls hpasses
    exact ⟨calls, hcalls, hpasses.append_error more⟩
  · rw [hrun] at hcalls hpasses
    obtain ⟨others, hothers, hmore⟩ := hf a w' hrun
    exact ⟨calls ++ others, by rw [hothers, hcalls, List.append_assoc], hpasses.append_ok hmore⟩

theorem cons {stage : Stage} {f : α → Action β} (hx : x.Follows w [stage])
    (hf : ∀ a w', x.run w = (.ok a, w') → (f a).Follows w' more) : (x >>= f).Follows w (stage :: more) :=
  hx.bind hf

theorem of_ok {a : α} {w' : World} {f : α → Action β} (h : x.run w = (.ok a, w'))
    (hcalls : w'.calls = w.calls) (hf : (f a).Follows w' stages) : (x >>= f).Follows w stages := by
  unfold Follows at hf ⊢
  rw [run_bind, h]
  rwa [hcalls] at hf

theorem of_check {γ : Type} {outcome : Except Report γ} {result : Except Report α} {w' : World}
    (h : x.run w = (result, w')) (hcalls : w'.calls = w.calls)
    (hfault : failureOf outcome = failureOf result) : x.Follows w [.check outcome] := by
  refine ⟨[], by rw [h, hcalls, List.append_nil], ?_⟩
  rw [h]
  cases result with
  | ok a => exact .next hfault (.through a)
  | error report => exact .stop hfault []

theorem lift (outcome : Except Report α) (w : World) :
    Follows (MonadExcept.ofExcept outcome : Action α) w [.check outcome] :=
  of_check (run_ofExcept outcome w) rfl rfl

theorem of_modify {f : World → World} (hcalls : (f w).calls = w.calls) :
    Follows (modify f : Action Unit) w [] := by
  refine ⟨[], ?_, ?_⟩
  · rw [run_modify, hcalls, List.append_nil]
  · rw [run_modify]
    exact .through ()

theorem exec (c : ToolCall) (mark : Option String) (w : World) :
    (Backend.exec c mark).Follows w [.call c (w.answer c mark)] := by
  refine ⟨[c], by rw [Backend.exec_run]; rfl, ?_⟩
  rw [Backend.exec_run]
  cases hanswer : w.answer c mark with
  | ok text => exact .next rfl (.through text)
  | error report => exact .stop rfl []

end Action.Follows

/-! ## Compiling -/

namespace Backend

open Retrace.Action

/-- What the cache has for a source file. -/
def found? (b : Backend) (source : String) (w : World) : Option Compiled :=
  match b.key source w with
  | .ok k => (b.cache.load w.now k.label w.cache).1
  | .error _ => none

/-- What a source file compiles to, or why it does not. -/
def compiled (b : Backend) (source : String) (w : World) : Except Report Compiled :=
  match b.found? source w with
  | some c => .ok c
  | none => b.made source w

def lookedUp (b : Backend) (label : String) (w : World) : World :=
  { w with cache := (b.cache.load w.now label w.cache).2 }

def kept (b : Backend) (source : String) (w : World) : Except Report Directory :=
  (b.key source w).bind fun k => (b.made source w).bind fun c => b.saved k.label c (b.lookedUp k.label w)

def makingStages (b : Backend) (source : String) (w : World) : List Stage :=
  let document := b.settings.compileCall source .debugTrace
  let script := b.settings.compileCall source .michelson
  [.call document (w.answer document none), .check ((w.answer document none).bind Document.ofText),
   .call script (w.answer script none), .check (b.kept source w)]

/-- The compiler tells its version. It is run again only if the cache has nothing. -/
def compileStages (b : Backend) (source : String) (w : World) : List Stage :=
  .check (w.sourceText source) :: .call b.settings.versionCall (w.answer b.settings.versionCall none) ::
    if (b.found? source w).isSome then [] else b.makingStages source w

theorem keep_follows (b : Backend) (label : String) (c : Compiled) (w : World) :
    (b.keep label c).Follows w [.check (b.saved label c w)] := by
  unfold keep
  exact .of_ok (run_get w) rfl (.cons (.lift _ w) fun files w' _ => .of_modify rfl)

theorem remake_follows {b : Backend} {source : String} {w : World} {k : Key} (hkey : b.key source w = .ok k)
    (calls : List ToolCall) :
    (b.remake source k.label).Follows (b.lookedUp k.label (w.called calls)) (b.makingStages source w) := by
  unfold remake
  refine .cons (.exec _ none _) fun text w₁ htext => ?_
  rw [exec_run] at htext
  obtain ⟨hanswer, rfl⟩ := Prod.mk.inj htext
  replace hanswer : w.answer (b.settings.compileCall source .debugTrace) none = .ok text := hanswer
  refine .cons (.of_check (run_ofExcept (Document.ofText text) _) rfl (by rw [hanswer]; rfl))
    fun document w₂ hread => ?_
  rw [run_ofExcept] at hread
  obtain ⟨hdocument, rfl⟩ := Prod.mk.inj hread
  refine .cons (.exec _ none _) fun michelson w₃ hmichelson => ?_
  rw [exec_run] at hmichelson
  obtain ⟨hscript, rfl⟩ := Prod.mk.inj hmichelson
  replace hscript : w.answer (b.settings.compileCall source .michelson) none = .ok michelson := hscript
  have hkept : b.kept source w = b.saved k.label ⟨document, michelson⟩ (b.lookedUp k.label w) := by
    simp only [kept, hkey, made, hanswer, hdocument, hscript, Except.bind, Except.map]
  rw [hkept]
  exact .cons (b.keep_follows k.label _ _) fun _ w₄ _ => .pure _ w₄

theorem compile_follows (b : Backend) (source : String) (w : World) :
    (b.compile source).Follows w (b.compileStages source w) := by
  unfold compile compileStages
  refine .cons (.of_check (readSource_run source w) rfl rfl) fun content w₁ hread => ?_
  rw [readSource_run] at hread
  obtain ⟨hsource, rfl⟩ := Prod.mk.inj hread
  refine .cons (.exec _ none w) fun version w₂ hexec => ?_
  rw [exec_run] at hexec
  obtain ⟨hversion, rfl⟩ := Prod.mk.inj hexec
  have hkey : b.key source w = .ok ⟨Text.trimString version, b.settings.caller, content⟩ := by
    simp only [key, hsource, hversion, Except.bind, Except.map]
  refine .of_ok (b.lookUp_run _ _) rfl ?_
  have hfound : b.found? source w =
      (b.cache.load w.now (b.label (Text.trimString version) content) w.cache).1 := by
    simp only [found?, hkey]
    rfl
  simp only [hfound, World.now_called, World.cache_called]
  cases (b.cache.load w.now (b.label (Text.trimString version) content) w.cache).1 with
  | some c => exact .pure c _
  | none => exact remake_follows hkey [b.settings.versionCall]

theorem compile_of_found {b : Backend} {source : String} {w : World} {k : Key} {c : Compiled}
    (hkey : b.key source w = .ok k) (h : b.found? source w = some c) :
    (b.compile source).run w = (.ok c, b.lookedUp k.label (w.called [b.settings.versionCall])) := by
  simp only [found?, hkey] at h
  rw [compile_of_key hkey]
  rcases hload : b.cache.load w.now k.label w.cache with ⟨found, files⟩
  obtain rfl : found = some c := by rw [← h, hload]
  simp only [lookedUp, World.now_called, World.cache_called, hload]

theorem compile_of_missing {b : Backend} {source : String} {w : World} {k : Key}
    (hkey : b.key source w = .ok k) (h : b.found? source w = none) :
    (b.compile source).run w =
      (b.remake source k.label).run (b.lookedUp k.label (w.called [b.settings.versionCall])) := by
  simp only [found?, hkey] at h
  rw [compile_of_key hkey]
  rcases hload : b.cache.load w.now k.label w.cache with ⟨found, files⟩
  obtain rfl : found = none := by rw [← h, hload]
  simp only [lookedUp, World.now_called, World.cache_called, hload]

theorem made_of_remake {b : Backend} {source label : String} {w w' : World} {c : Compiled}
    (h : (b.remake source label).run w = (.ok c, w')) : b.made source w = .ok c := by
  obtain ⟨more, hrun⟩ := b.remake_run source label w
  rw [hrun] at h
  cases hmade : b.made source w with
  | error report =>
    rw [hmade] at h
    cases h
  | ok made =>
    simp only [hmade] at h
    split at h
    · cases h
      rfl
    · cases h

theorem compiled_of_compile {b : Backend} {source : String} {w w' : World} {c : Compiled}
    (h : (b.compile source).run w = (.ok c, w')) : b.compiled source w = .ok c := by
  cases hkey : b.key source w with
  | error report =>
    obtain ⟨calls, hrun⟩ := compile_of_error hkey
    rw [hrun] at h
    cases h
  | ok k =>
    unfold compiled
    cases hfound : b.found? source w with
    | some found =>
      rw [compile_of_found hkey hfound] at h
      cases h
      rfl
    | none =>
      rw [compile_of_missing hkey hfound] at h
      have hmade := made_of_remake h
      exact hmade

theorem entry?_lookedUp {b : Backend} {label : String} {w : World} {name : String} {entry : FileEntry}
    (h : (b.lookedUp label w).cache.entry? name = some entry) : w.cache.entry? name = some entry := by
  obtain ⟨text, data, expires, -, -, hload⟩ | hload | hload := b.cache.load_cases w.now label w.cache
  · simpa only [lookedUp, hload] using h
  · simpa only [lookedUp, hload] using h
  · simp only [lookedUp, hload, Directory.entry?_remove] at h
    split at h
    · cases h
    · exact h

theorem entry?_save {b : Backend} {label : String} {c : Compiled} {now : Nat} {files files' : Directory}
    (hsave : b.cache.save now label c files = .ok files') {name : String} {entry : FileEntry}
    (h : files'.entry? name = some entry) :
    files.entry? name = some entry ∨
      name = Cache.fileName label ∧ entry = .file (b.cache.entry now c) := by
  unfold Cache.save at hsave
  split at hsave
  · rw [Directory.eq_put_of_write hsave, Directory.entry?_put] at h
    split at h
    · rename_i hname
      exact Or.inr ⟨hname, (Option.some.inj h).symm⟩
    · exact Or.inl h
  · cases hsave
    exact Or.inl h

theorem entry?_remake {b : Backend} {source label : String} {w : World} {name : String} {entry : FileEntry}
    (h : ((b.remake source label).run w).2.cache.entry? name = some entry) :
    w.cache.entry? name = some entry ∨ ∃ c, b.made source w = .ok c ∧
      name = Cache.fileName label ∧ entry = .file (b.cache.entry w.now c) := by
  obtain ⟨more, hrun⟩ := b.remake_run source label w
  rw [hrun] at h
  cases hmade : b.made source w with
  | error report =>
    rw [hmade] at h
    exact Or.inl h
  | ok c =>
    simp only [hmade] at h
    split at h
    · rename_i files hsave
      exact (entry?_save hsave h).imp_right fun hnew => ⟨c, rfl, hnew⟩
    · exact Or.inl h

/-- An entry that was not there before holds what the compiler has made. -/
theorem entry?_compile {b : Backend} {source : String} {w : World} {name : String} {entry : FileEntry}
    (h : ((b.compile source).run w).2.cache.entry? name = some entry) :
    w.cache.entry? name = some entry ∨ ∃ k c, b.key source w = .ok k ∧ b.found? source w = none ∧
      b.made source w = .ok c ∧ name = Cache.fileName k.label ∧ entry = .file (b.cache.entry w.now c) := by
  cases hkey : b.key source w with
  | error report =>
    obtain ⟨calls, hrun⟩ := compile_of_error hkey
    rw [hrun] at h
    exact Or.inl h
  | ok k =>
    cases hfound : b.found? source w with
    | some found =>
      rw [compile_of_found hkey hfound] at h
      exact Or.inl (entry?_lookedUp h)
    | none =>
      rw [compile_of_missing hkey hfound] at h
      rcases entry?_remake h with hold | ⟨c, hmade, hname, hentry⟩
      · exact Or.inl (entry?_lookedUp hold)
      · exact Or.inr ⟨k, c, rfl, rfl, hmade, hname, hentry⟩

/-! ## Running and rebuilding -/

def storageText (b : Backend) (r : Request) (w : World) : Except Report String :=
  if r.storage.elements.isEmpty then
    (w.answer (b.settings.compileCall r.source .michelsonStorage) none).map fun text =>
      Constant.putAll (Text.trimString text) r.constants
  else .ok r.storage.michelson

def scriptCall (b : Backend) (r : Request) (w : World) : ToolCall :=
  b.settings.runCall ⟨w.scriptPath, (b.storageText r w).toOption.getD "", r.call.michelson, r.call.entrypoint, r.env⟩

def scriptAnswer (b : Backend) (r : Request) (w : World) : Except Report String :=
  w.answer (b.scriptCall r w) (some (String.ofList Trace.fatalMark))

def rebuilt (b : Backend) (r : Request) (w : World) : Except Report Artifact :=
  (b.compiled r.source w).bind fun c => (b.scriptAnswer r w).bind (Artifact.ofRaw c.document)

/-- The stages of an analysis. The compiler is asked for a storage only if the request has none. -/
def stages (b : Backend) (r : Request) (w : World) : List Stage :=
  let storage := b.settings.compileCall r.source .michelsonStorage
  b.compileStages r.source w ++
    ((if r.storage.elements.isEmpty then [.call storage (w.answer storage none)] else []) ++
      [.check w.scriptFile, .call (b.scriptCall r w) (b.scriptAnswer r w), .check (b.rebuilt r w)])

/-- The programs of an analysis, in order. -/
def plan (b : Backend) (r : Request) (w : World) : List ToolCall :=
  [b.settings.versionCall] ++
    (if (b.found? r.source w).isSome then []
      else [b.settings.compileCall r.source .debugTrace, b.settings.compileCall r.source .michelson]) ++
    (if r.storage.elements.isEmpty then [b.settings.compileCall r.source .michelsonStorage] else []) ++
    [b.scriptCall r w]

theorem calls_stages (b : Backend) (r : Request) (w : World) : Stage.calls (b.stages r w) = b.plan r w := by
  unfold plan stages compileStages makingStages
  cases (b.found? r.source w).isSome <;> cases r.storage.elements.isEmpty <;>
    simp [Stage.calls, Stage.call, Stage.check]

theorem storageOf_follows (b : Backend) (r : Request) (w : World) :
    (b.storageOf r).Follows w
      (if r.storage.elements.isEmpty then
        [.call (b.settings.compileCall r.source .michelsonStorage)
          (w.answer (b.settings.compileCall r.source .michelsonStorage) none)]
      else []) := by
  unfold storageOf
  split
  · exact .cons (.exec _ none w) fun text w' _ => .pure _ w'
  · exact .pure _ w

theorem storageOf_run (b : Backend) (r : Request) (w : World) :
    ∃ calls, (b.storageOf r).run w = (b.storageText r w, w.called calls) := by
  unfold storageOf storageText
  split
  · refine ⟨[b.settings.compileCall r.source .michelsonStorage], ?_⟩
    rw [run_bind, exec_run]
    cases w.answer (b.settings.compileCall r.source .michelsonStorage) none <;> rfl
  · exact ⟨[], by simp [run_pure, World.called]⟩

theorem writeScript_run (code : String) (w : World) :
    (writeScript code).run w =
      match w.scriptFile with
      | .ok path => (.ok path, { w with scripts := w.scripts ++ [code] })
      | .error report => (.error report, w) := by
  unfold writeScript
  simp only [run_bind, run_get, run_ofExcept]
  cases w.scriptFile <;> rfl

theorem writeScript_follows (code : String) (w : World) :
    (writeScript code).Follows w [.check w.scriptFile] := by
  unfold writeScript
  refine .of_ok (run_get w) rfl (.cons (.lift _ w) fun path w' _ => ?_)
  exact .of_ok (run_modify _ w') rfl (.pure path _)

theorem writeScript_ok {code path : String} {w w' : World} (h : (writeScript code).run w = (.ok path, w')) :
    path = w.scriptPath ∧ w' = { w with scripts := w.scripts ++ [code] } := by
  rw [writeScript_run] at h
  unfold World.scriptFile at h
  cases hfault : w.scriptFault? with
  | none =>
    rw [hfault] at h
    cases h
    exact ⟨rfl, rfl⟩
  | some cause =>
    rw [hfault] at h
    cases h

theorem analyze_follows (b : Backend) (r : Request) (w : World) :
    (b.analyze r).Follows w (b.stages r w) := by
  unfold analyze stages
  refine Follows.bind (b.compile_follows r.source w) fun c w₁ hcompile => ?_
  have hcompiled := compiled_of_compile hcompile
  obtain ⟨calls, files, hworld⟩ := b.compile_world r.source w
  rw [hcompile] at hworld
  subst hworld
  refine Follows.bind (b.storageOf_follows r _) fun storage w₂ hstorage => ?_
  obtain ⟨more, hrun⟩ := b.storageOf_run r { w with calls := calls, cache := files }
  rw [hrun] at hstorage
  obtain ⟨htext, rfl⟩ := Prod.mk.inj hstorage
  replace htext : b.storageText r w = .ok storage := htext
  refine .cons (writeScript_follows _ _) fun path w₃ hscript => ?_
  obtain ⟨rfl, rfl⟩ := writeScript_ok hscript
  have hcall : b.scriptCall r w =
      b.settings.runCall ⟨w.scriptPath, storage, r.call.michelson, r.call.entrypoint, r.env⟩ := by
    rw [scriptCall, htext]
    rfl
  rw [hcall, scriptAnswer, hcall]
  refine .cons (.exec _ _ _) fun raw w₄ hexec => ?_
  rw [exec_run] at hexec
  obtain ⟨hraw, rfl⟩ := Prod.mk.inj hexec
  refine .of_check (run_ofExcept (Artifact.ofRaw c.document raw) _) rfl ?_
  rw [rebuilt, hcompiled, scriptAnswer, hcall]
  exact congrArg (fun answer => failureOf (Except.bind answer (Artifact.ofRaw c.document))) hraw

theorem cache_analyze (b : Backend) (r : Request) (w : World) :
    ((b.analyze r).run w).2.cache = ((b.compile r.source).run w).2.cache := by
  unfold analyze
  rw [run_bind]
  rcases (b.compile r.source).run w with ⟨report | c, w₁⟩
  · rfl
  · obtain ⟨calls, hstorage⟩ := b.storageOf_run r w₁
    simp only [run_bind, hstorage]
    cases b.storageText r w₁ with
    | error report => rfl
    | ok storage =>
      simp only [writeScript_run]
      cases (w₁.called calls).scriptFile with
      | error report => rfl
      | ok path =>
        simp only [exec_run, run_ofExcept]
        rcases World.answer _ _ _ with report | raw <;> rfl

end Backend

namespace World

theorem failureOf_answer (w : World) (call : ToolCall) (mark : Option String) :
    failureOf (w.answer call mark) = none ↔ ∃ output, w.tools call = .ok output ∧
      (output.code = some 0 ∨ ∃ m, mark = some m ∧ m.toList <:+: output.stderr.toList) := by
  unfold answer
  cases htools : w.tools call with
  | error e => simp [failureOf]
  | ok output =>
    simp only [Except.ok.injEq, exists_eq_left', ToolOutput.check, ToolOutput.succeeded, beq_iff_eq]
    by_cases hcode : output.code = some 0
    · simp [hcode, failureOf]
    · cases mark with
      | none => simp [hcode, failureOf]
      | some m =>
        by_cases hmark : m.toList <:+: output.stderr.toList <;>
          simp [hcode, hmark, Text.occurs_iff, failureOf]

end World

/-! ## Launching -/

namespace Workbench

open Retrace.Action

theorem act_run {α : Type} (action : Action α) (s : Workbench) :
    (act action).run s = ((action.run s.world).1, { s with world := (action.run s.world).2 }) := by
  unfold act
  simp only [run_bind, run_get]
  rcases action.run s.world with ⟨report | x, w⟩ <;> rfl

theorem launch_run (b : Backend) (stopOnEntry : Bool) (s : Workbench) :
    (launch b stopOnEntry).run s =
      match (b.analyze s.debugger.request).run s.world with
      | (.error report, w) => (.error report, { s with world := w })
      | (.ok artifact, w) =>
        let (session, events) := (s.debugger.sessionOver artifact).start stopOnEntry
        (.ok (), ⟨{ s.debugger with artifact := some artifact, session := some session }, w,
          s.published ++ [.output (Debugger.summary s.debugger.request artifact.execution)] ++ events⟩) := by
  unfold launch
  simp only [run_bind, run_get, act_run]
  rcases (b.analyze s.debugger.request).run s.world with ⟨report | a, w⟩ <;> rfl

/-- **The first failure ends a launch.** The programs run are the first ones of the plan, and none is run
after one that fails, after a document that cannot be read or after a script that cannot be written. Nothing
is added to the cache but what the compiler has made as a whole, and a launch that fails changes nothing but
the world. -/
theorem launch_stops (b : Backend) (stopOnEntry : Bool) (s : Workbench) :
    let r := s.debugger.request
    let analysis := (b.analyze r).run s.world
    let launched := (launch b stopOnEntry).run s
    (∃ calls, analysis.2.calls = s.world.calls ++ calls ∧ calls <+: b.plan r s.world ∧
        Passes (b.stages r s.world) calls analysis.1) ∧
      (∀ call mark, failureOf (s.world.answer call mark) = none ↔ ∃ output, s.world.tools call = .ok output ∧
        (output.code = some 0 ∨ ∃ m, mark = some m ∧ m.toList <:+: output.stderr.toList)) ∧
      (∀ name entry, analysis.2.cache.entry? name = some entry →
        s.world.cache.entry? name = some entry ∨
          ∃ c, b.made r.source s.world = .ok c ∧ entry = .file (b.cache.entry s.world.now c)) ∧
      ∀ report, (launched.1 = .error report ↔ analysis.1 = .error report) ∧
        (launched.1 = .error report → launched.2 = { s with world := analysis.2 }) := by
  intro r analysis launched
  refine ⟨?_, s.world.failureOf_answer, fun name entry hentry => ?_, fun report => ?_⟩
  · obtain ⟨calls, hcalls, hpasses⟩ := b.analyze_follows r s.world
    exact ⟨calls, hcalls, b.calls_stages r s.world ▸ hpasses.calls_prefix, hpasses⟩
  · rw [b.cache_analyze r s.world] at hentry
    exact (Backend.entry?_compile hentry).imp_right fun ⟨k, c, _, _, hmade, _, hnew⟩ => ⟨c, hmade, hnew⟩
  · have hrun : launched = _ := launch_run b stopOnEntry s
    rw [hrun]
    change (_ ↔ ((b.analyze r).run s.world).1 = _) ∧ (_ → _ = { s with world := ((b.analyze r).run s.world).2 })
    rcases (b.analyze r).run s.world with ⟨fault | artifact, w⟩ <;> simp

end Workbench

end Retrace

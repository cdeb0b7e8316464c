import Retrace.Proofs.Answers
import Retrace.Proofs.Environment

/-!
# What is collected

Arguments, constants and environments are collected by filling forms. What comes out depends on the
accepted answers alone: a refused answer is reported, and that is all that it does.
-/

namespace Retrace.Dialogue

open Retrace.Text

theorem askUntil_map {α β : Type} (question : String) (check : String → Except InputError α) (f : α → β)
    (answers : List String) (log : List Exchange) :
    askUntil question (fun answer => (check answer).map f) answers log =
      ((askUntil question check answers log).1.map fun a => ⟨f a.value, a.given⟩,
        (askUntil question check answers log).2) := by
  induction answers generalizing log with
  | nil => rfl
  | cons answer answers ih =>
    cases h : check answer with
    | ok value =>
      simp only [askUntil, h]
      rfl
    | error e =>
      have hmap : (Except.error e : Except InputError α).map f = .error e := rfl
      simp only [askUntil, h, hmap, ih]
      rcases askUntil question check answers _ with ⟨_ | a, d⟩ <;> rfl

/-! ## The forms -/

def argumentInquiry (arg : ArgumentDecl) : Inquiry Call Argument where
  question call := argumentQuestion call.entrypoint arg
  check answer := Argument.make arg.name answer (ArgumentType.ofName arg.type)
  update call a := { call with args := call.args ++ [a] }

def fieldValue (field : FieldDecl) (answer : String) : Except InputError Argument :=
  Argument.make field.name (fieldText field answer) (ArgumentType.ofName field.type)

def constantInquiry (field : FieldDecl) : Inquiry (List Constant) Argument where
  question _ := fieldQuestion "Value of constant" field
  check := fieldValue field
  update done a := done ++ [⟨field.name, a.michelson⟩]

/-- A blank answer gives no value. -/
def settingInquiry (field : EnvironmentField) : Inquiry Environment (Option String) where
  question env := "Value of '" ++ field.name ++ "' [" ++ env.get field ++ "]"
  check answer :=
    if allBlank answer.toList then .ok none
    else if Environment.accepts field (trim answer.toList) then .ok (some (trimString answer))
    else .error ⟨field.name, Environment.rule field⟩
  update env
    | none => env
    | some value => env.put value field

theorem collectArguments_eq (call : Call) (d : Dialogue) (args : List ArgumentDecl) :
    let r := fill argumentInquiry call d args
    collectArguments call d args = (if r.1 then some r.2.1 else none, r.2.2) := by
  induction args generalizing call d with
  | nil => rfl
  | cons arg args ih =>
    have hadd : (fun answer => call.add arg.name answer (ArgumentType.ofName arg.type)) =
        fun answer => ((argumentInquiry arg).check answer).map ((argumentInquiry arg).update call) := rfl
    have hquestion : (argumentInquiry arg).question call = argumentQuestion call.entrypoint arg := rfl
    simp only [collectArguments, fill, collect, hadd, hquestion, askUntil_map]
    cases hasked : askUntil (argumentQuestion call.entrypoint arg) (argumentInquiry arg).check d.answers d.log with
    | mk a rest =>
      cases a with
      | none => rfl
      | some a => exact ih _ rest

theorem collectConstantsFrom_eq (done : List Constant) (d : Dialogue) (fields : List FieldDecl) :
    let r := fill constantInquiry done d fields
    collectConstantsFrom done d fields = (if r.1 then some r.2.1 else none, r.2.2) := by
  induction fields generalizing done d with
  | nil => rfl
  | cons field fields ih =>
    have hmake : (fun answer =>
        Argument.make field.name (fieldText field answer) (ArgumentType.ofName field.type)) =
        (constantInquiry field).check := rfl
    have hquestion : (constantInquiry field).question done = fieldQuestion "Value of constant" field := rfl
    simp only [collectConstantsFrom, fill, collect, hmake, hquestion]
    cases hasked : askUntil (fieldQuestion "Value of constant" field) (constantInquiry field).check d.answers d.log with
    | mk a rest =>
      cases a with
      | none => rfl
      | some a => exact ih _ rest

theorem collectFields_eq (env : Environment) (d : Dialogue) (fields : List EnvironmentField) :
    collectFields env d fields = fill settingInquiry env d fields := by
  induction fields generalizing env d with
  | nil => rfl
  | cons field fields ih =>
    have hset : (fun answer : String =>
        if allBlank answer.toList = true then .ok env else env.set field answer) =
        fun answer => ((settingInquiry field).check answer).map ((settingInquiry field).update env) := by
      funext answer
      simp only [settingInquiry, Environment.set]
      split
      · rfl
      · split <;> rfl
    have hquestion : (settingInquiry field).question env =
        "Value of '" ++ field.name ++ "' [" ++ env.get field ++ "]" := rfl
    simp only [collectFields, fill, collect, hset, hquestion, askUntil_map]
    cases hasked : askUntil _ (settingInquiry field).check d.answers d.log with
    | mk a rest =>
      cases a with
      | none => rfl
      | some a => exact ih _ rest

/-! ## What accepted answers make -/

def fitsArgument (arg : ArgumentDecl) (answer : String) : Bool :=
  (Argument.make arg.name answer (ArgumentType.ofName arg.type)).isOk

def fitsField (field : FieldDecl) (answer : String) : Bool := (fieldValue field answer).isOk

def fitsSetting (field : EnvironmentField) (answer : String) : Bool :=
  allBlank answer.toList || Environment.accepts field (trim answer.toList)

def callOf (decl : EntrypointDecl) (given : List (ArgumentDecl × String)) : Option Call :=
  if given.length = decl.args.length then
    some ⟨decl.name, given.filterMap fun p =>
      (Argument.make p.1.name p.2 (ArgumentType.ofName p.1.type)).toOption⟩
  else none

def constantsOf (fields : List FieldDecl) (given : List (FieldDecl × String)) : Option (List Constant) :=
  if given.length = fields.length then
    some (given.filterMap fun p => (fieldValue p.1 p.2).toOption.map fun a => ⟨p.1.name, a.michelson⟩)
  else none

/-- The environment that answers make, and whether there is one for every field. -/
def environmentOf (env : Environment) (given : List (EnvironmentField × String)) : Bool × Environment :=
  (given.length = EnvironmentField.all.length,
    given.foldl (fun env p => if allBlank p.2.toList then env else env.attempt p.1 p.2) env)

theorem foldl_enter_argument (call : Call) (given : List (ArgumentDecl × String)) :
    given.foldl (enter argumentInquiry) call = { call with args := call.args ++ given.filterMap fun p =>
      (Argument.make p.1.name p.2 (ArgumentType.ofName p.1.type)).toOption } := by
  induction given generalizing call with
  | nil => simp
  | cons p given ih =>
    rw [List.foldl_cons, ih, List.filterMap_cons]
    unfold enter argumentInquiry
    cases h : Argument.make p.1.name p.2 (ArgumentType.ofName p.1.type) <;> simp [h, Except.toOption]

theorem foldl_enter_constant (done : List Constant) (given : List (FieldDecl × String)) :
    given.foldl (enter constantInquiry) done = done ++ given.filterMap fun p =>
      (fieldValue p.1 p.2).toOption.map fun a => ⟨p.1.name, a.michelson⟩ := by
  induction given generalizing done with
  | nil => simp
  | cons p given ih =>
    rw [List.foldl_cons, ih, List.filterMap_cons]
    unfold enter constantInquiry
    cases h : fieldValue p.1 p.2 <;> simp [h, Except.toOption]

theorem passes_setting : passes settingInquiry = fitsSetting := by
  funext field answer
  unfold passes settingInquiry fitsSetting
  by_cases hblank : allBlank answer.toList = true
  · simp [hblank, Except.isOk, Except.toBool]
  · by_cases haccepts : Environment.accepts field (trim answer.toList) = true
    · simp [hblank, haccepts, Except.isOk, Except.toBool]
    · simp [hblank, haccepts, Except.isOk, Except.toBool]

theorem enter_setting (env : Environment) (p : EnvironmentField × String) :
    enter settingInquiry env p = if allBlank p.2.toList then env else env.attempt p.1 p.2 := by
  unfold enter settingInquiry Environment.attempt Environment.set
  by_cases hblank : allBlank p.2.toList = true
  · simp [hblank]
  · by_cases haccepts : Environment.accepts p.1 (trim p.2.toList) = true
    · simp [hblank, haccepts, trimString]
    · simp [hblank, haccepts]

/-! ## No trace of refused answers -/

/-- Collecting leaves no trace of refused answers: what comes out is made of the accepted ones, one
for each item unless the answers run out, and the answers without the refused ones do the same. -/
structure Traceless {ι β : Type} (fits : ι → String → Bool) (items : List ι)
    (outcome : List (ι × String) → β) (completed : β → Bool) (collect : Dialogue → β × Dialogue)
    (answers : List String) : Prop where
  outcome_eq : (collect ⟨answers, []⟩).1 = outcome (accepted (deal fits items answers))
  replayed : (collect ⟨kept (deal fits items answers), []⟩).1 = (collect ⟨answers, []⟩).1
  left_over : (collect ⟨kept (deal fits items answers), []⟩).2.answers = (collect ⟨answers, []⟩).2.answers
  silent : (collect ⟨kept (deal fits items answers), []⟩).2.refusals = []
  counted : (collect ⟨answers, []⟩).2.refusals.length + (kept (deal fits items answers)).length =
    answers.length
  one_each : completed (collect ⟨answers, []⟩).1 = true →
    (accepted (deal fits items answers)).map (·.1) = items ∧
      ∀ p ∈ accepted (deal fits items answers), fits p.1 p.2 = true
  cancelled : completed (collect ⟨answers, []⟩).1 = false ↔
    (accepted (deal fits items answers)).length < items.length ∧ (collect ⟨answers, []⟩).2.answers = []

theorem traceless_of_fill {ι σ α β : Type} (form : ι → Inquiry σ α) (s : σ) {items : List ι}
    (result : Bool × σ → β) {outcome : List (ι × String) → β} {completed : β → Bool}
    {collect : Dialogue → β × Dialogue} {answers : List String}
    (hcollect : ∀ d, collect d = (result ((fill form s d items).1, (fill form s d items).2.1),
      (fill form s d items).2.2))
    (hcompleted : ∀ r, completed (result r) = r.1)
    (houtcome : ∀ given, outcome given =
      result (decide (given.length = items.length), given.foldl (enter form) s)) :
    Traceless (passes form) items outcome completed collect answers := by
  obtain ⟨hdone, hstate, hrefusals, hrest⟩ := fill_spec items answers form s []
  obtain ⟨hdone', hstate', hrest', hrefusals'⟩ := fill_kept items answers form s [] []
  have hle := length_accepted_deal_le (passes form) items answers
  have hdecide : (fill form s ⟨answers, []⟩ items).1 =
      decide ((accepted (deal (passes form) items answers)).length = items.length) := by
    rw [Bool.eq_iff_iff, hdone, decide_eq_true_eq]
  constructor
  · simp only [hcollect, houtcome, hdecide, hstate]
  · simp only [hcollect, hdone', hstate']
  · simp only [hcollect, hrest']
  · simp only [hcollect, hrefusals']
    rfl
  · have hlen := length_kept_add_refused (passes form) items answers
    simp only [hcollect, hrefusals]
    simp only [refusals, List.filterMap_nil, List.length_nil]
    omega
  · intro hcomplete
    simp only [hcollect, hcompleted, hdone] at hcomplete
    exact ⟨accepted_deal_of_length_eq _ _ _ hcomplete, takes_of_mem_accepted _ _ _⟩
  · simp only [hcollect, hcompleted, hdecide, decide_eq_false_iff_not]
    constructor
    · intro hne
      exact ⟨by omega, hrest (by simp [hdecide, hne])⟩
    · rintro ⟨hlt, -⟩
      omega

/-- **Refused answers leave no trace** in a call, in constants or in an environment. -/
theorem collect_traceless :
    (∀ decl answers, Traceless fitsArgument decl.args (callOf decl) Option.isSome
      (fun d => d.collectCall decl) answers) ∧
    (∀ fields answers, Traceless fitsField fields (constantsOf fields) Option.isSome
      (fun d => d.collectConstants fields) answers) ∧
    ∀ env answers, Traceless fitsSetting EnvironmentField.all (environmentOf env) Prod.fst
      (fun d => (((d.collectEnvironment env).1, (d.collectEnvironment env).2.1),
        (d.collectEnvironment env).2.2)) answers := by
  refine ⟨fun decl answers => ?_, fun fields answers => ?_, fun env answers => ?_⟩
  · apply traceless_of_fill argumentInquiry ⟨decl.name, []⟩ fun r => if r.1 then some r.2 else none
    · intro d
      exact collectArguments_eq _ _ _
    · rintro ⟨_ | _, call⟩ <;> rfl
    · intro given
      simp [callOf, foldl_enter_argument]
  · apply traceless_of_fill constantInquiry [] fun r => if r.1 then some r.2 else none
    · intro d
      exact collectConstantsFrom_eq _ _ _
    · rintro ⟨_ | _, constants⟩ <;> rfl
    · intro given
      simp [constantsOf, foldl_enter_constant]
  · rw [← passes_setting]
    apply traceless_of_fill settingInquiry env id
    · intro d
      simp only [collectEnvironment, collectFields_eq]
      rfl
    · intro r
      rfl
    · intro given
      simp only [environmentOf, funext₂ enter_setting]
      rfl

end Retrace.Dialogue

import Retrace.Proofs.Amount

/-!
# Environments along a series of changes

Whatever is tried, an environment holds values that its fields take, or the caller that it was made
for. So every value can be passed to the sandbox, and only an empty address leaves a flag out.
-/

namespace Retrace

open Retrace.Text Retrace.Decimal Retrace.Scalar

def EnvironmentField.Takes : EnvironmentField → String → Prop
  | .now, text => DateTime.isDate text = true
  | .transferred, text | .balance, text | .level, text => ∃ n : Nat, integer? text.toList = some (n : Int)
  | .caller, text | .source, text => "tz".toList <+: text.toList ∨ "KT".toList <+: text.toList

namespace Environment

/-! ## One change -/

theorem get_put_self (e : Environment) (value : String) (field : EnvironmentField) :
    (e.put value field).get field = value := by
  cases field <;> rfl

theorem get_put_of_ne {field other : EnvironmentField} (h : other ≠ field) (e : Environment)
    (value : String) : (e.put value field).get other = e.get other := by
  cases field <;> cases other <;> first | rfl | exact absurd rfl h

theorem accepts_iff (field : EnvironmentField) (text : List Char) :
    accepts field text = true ↔ field.Takes (String.ofList text) := by
  unfold accepts EnvironmentField.Takes
  cases field <;> simp [isNat_iff, isAddress, DateTime.isDate]

theorem set_of_takes {field : EnvironmentField} {text : String} (h : field.Takes (trimString text))
    (e : Environment) : e.set field text = .ok (e.put (trimString text) field) := by
  unfold set
  simp only [(accepts_iff _ _).mpr h, if_true]
  rfl

theorem set_of_not_takes {field : EnvironmentField} {text : String} (h : ¬ field.Takes (trimString text))
    (e : Environment) : e.set field text = .error ⟨field.name, rule field⟩ := by
  unfold set
  apply if_neg
  rw [accepts_iff]
  exact h

/-! ## A series of changes -/

/-- Tries to set a field. A rejected text leaves the environment as it is. -/
def attempt (e : Environment) (field : EnvironmentField) (text : String) : Environment :=
  match e.set field text with
  | .ok e' => e'
  | .error _ => e

def after (e : Environment) (attempts : List (EnvironmentField × String)) : Environment :=
  attempts.foldl (fun e a => e.attempt a.1 a.2) e

/-- Every field holds a text that it takes, or an address is still the caller that the environment
was made for. -/
def Valid (caller : String) (e : Environment) : Prop :=
  ∀ field, field.Takes (e.get field) ∨ ((field = .caller ∨ field = .source) ∧ e.get field = caller)

theorem valid_make {now : String} (hnow : DateTime.isDate now = true) (caller : String) :
    Valid caller (make now caller) := by
  have hzero : ∃ n : Nat, integer? "0".toList = some (n : Int) := ⟨0, by decide⟩
  have hone : ∃ n : Nat, integer? "1".toList = some (n : Int) := ⟨1, by decide⟩
  intro field
  cases field with
  | now => exact Or.inl hnow
  | transferred => exact Or.inl hzero
  | balance => exact Or.inl hzero
  | level => exact Or.inl hone
  | caller => exact Or.inr ⟨Or.inl rfl, rfl⟩
  | source => exact Or.inr ⟨Or.inr rfl, rfl⟩

theorem Valid.attempt {caller : String} {e : Environment} (h : Valid caller e) (field : EnvironmentField)
    (text : String) : Valid caller (e.attempt field text) := by
  unfold Environment.attempt
  by_cases htakes : field.Takes (trimString text)
  · rw [set_of_takes htakes]
    intro other
    by_cases hother : other = field
    · subst hother
      left
      rw [get_put_self]
      exact htakes
    · rw [get_put_of_ne hother]
      exact h other
  · rw [set_of_not_takes htakes]
    exact h

theorem Valid.after {caller : String} {e : Environment} (h : Valid caller e)
    (attempts : List (EnvironmentField × String)) : Valid caller (e.after attempts) := by
  induction attempts generalizing e with
  | nil => exact h
  | cons a attempts ih => exact ih (h.attempt a.1 a.2)

/-! ## Flags -/

/-- A flag and its value, left out if the value is empty. -/
def flag (name value : String) : List String := if value = "" then [] else [name, value]

theorem flatMap_filter_cons {f : String × String → List String}
    (hf : ∀ name value, f (name, value) = [name, value]) (name value : String) (rest : List (String × String)) :
    (((name, value) :: rest).filter (·.2 ≠ "")).flatMap f =
      flag name value ++ (rest.filter (·.2 ≠ "")).flatMap f := by
  unfold flag
  by_cases h : value = "" <;> simp [h, hf]

theorem flags_eq (e : Environment) :
    e.flags = flag "--amount" (tezOf e.transferred) ++ flag "--balance" (tezOf e.balance) ++
      flag "--source" e.source ++ flag "--payer" e.caller ++ flag "--now" e.nowSeconds ++
      flag "--level" e.level := by
  unfold flags
  simp only [flatMap_filter_cons, List.filter_nil, List.flatMap_nil, List.append_nil, List.append_assoc,
    implies_true]

theorem flag_of_ne {value : String} (h : value ≠ "") (name : String) : flag name value = [name, value] :=
  if_neg h

theorem nowSeconds_eq {e : Environment} (h : DateTime.isDate e.now = true) :
    ∃ s, DateTime.secondsOf? e.now = some s ∧ e.nowSeconds = String.ofList (ofInt s) := by
  obtain ⟨d, hd⟩ := Option.isSome_iff_exists.mp h
  refine ⟨d.toSeconds, ?_, ?_⟩
  · simp [DateTime.secondsOf?, hd]
  · simp [nowSeconds, DateTime.secondsOf?, hd]

theorem ofInt_ne_nil (n : Int) : ofInt n ≠ [] := by
  cases n with
  | ofNat n => exact digits_ne_nil n
  | negSucc n => exact List.cons_ne_nil _ _

theorem ne_empty_of_integer? {text : String} {n : Int} (h : integer? text.toList = some n) : text ≠ "" := by
  rintro rfl
  cases h

theorem Valid.takes {caller : String} {e : Environment} (h : Valid caller e) (field : EnvironmentField)
    (hcaller : field ≠ .caller) (hsource : field ≠ .source) : field.Takes (e.get field) := by
  rcases h field with htakes | ⟨hcaller' | hsource', -⟩
  · exact htakes
  · exact absurd hcaller' hcaller
  · exact absurd hsource' hsource

theorem Valid.transferred {caller : String} {e : Environment} (h : Valid caller e) :
    ∃ n : Nat, integer? e.transferred.toList = some (n : Int) :=
  h.takes .transferred (by simp) (by simp)

theorem Valid.balance {caller : String} {e : Environment} (h : Valid caller e) :
    ∃ n : Nat, integer? e.balance.toList = some (n : Int) :=
  h.takes .balance (by simp) (by simp)

theorem Valid.level {caller : String} {e : Environment} (h : Valid caller e) :
    ∃ n : Nat, integer? e.level.toList = some (n : Int) :=
  h.takes .level (by simp) (by simp)

theorem Valid.now {caller : String} {e : Environment} (h : Valid caller e) :
    DateTime.isDate e.now = true :=
  h.takes .now (by simp) (by simp)

theorem Valid.flags_eq {caller : String} {e : Environment} (h : Valid caller e) :
    e.flags = ["--amount", tezOf e.transferred, "--balance", tezOf e.balance] ++
      flag "--source" e.source ++ flag "--payer" e.caller ++
      ["--now", e.nowSeconds, "--level", e.level] := by
  obtain ⟨t, ht⟩ := h.transferred
  obtain ⟨b, hb⟩ := h.balance
  obtain ⟨l, hl⟩ := h.level
  obtain ⟨s, -, hs⟩ := nowSeconds_eq h.now
  have hnow : e.nowSeconds ≠ "" := by
    rw [hs]
    intro hempty
    exact ofInt_ne_nil s (by simpa using congrArg String.toList hempty)
  rw [Environment.flags_eq, flag_of_ne (tezOf_ne_empty ht), flag_of_ne (tezOf_ne_empty hb), flag_of_ne hnow,
    flag_of_ne (ne_empty_of_integer? hl)]
  simp

/-- **Environments stay valid and are passed on faithfully.** -/
theorem after_faithful {now : String} (hnow : DateTime.isDate now = true) (caller : String)
    (attempts : List (EnvironmentField × String)) :
    let e := (make now caller).after attempts
    (∀ field text,
      (field.Takes (trimString text) → ∃ e', e.set field text = .ok e' ∧ e.attempt field text = e' ∧
        e'.get field = trimString text ∧ ∀ other, other ≠ field → e'.get other = e.get other) ∧
      (¬ field.Takes (trimString text) →
        (∃ error, e.set field text = .error error) ∧ e.attempt field text = e)) ∧
    Valid caller e ∧
    ∃ amount balance seconds : String,
      e.flags = ["--amount", amount, "--balance", balance] ++ flag "--source" e.source ++
        flag "--payer" e.caller ++ ["--now", seconds, "--level", e.level] ∧
      (∃ n : Nat, integer? e.transferred.toList = some (n : Int) ∧
        (rational? amount.toList).map (· * 10 ^ 6) = some (n : ℚ)) ∧
      (∃ n : Nat, integer? e.balance.toList = some (n : Int) ∧
        (rational? balance.toList).map (· * 10 ^ 6) = some (n : ℚ)) ∧
      ∃ s, DateTime.secondsOf? e.now = some s ∧ seconds = String.ofList (ofInt s) := by
  intro e
  have hvalid : Valid caller e := (valid_make hnow caller).after attempts
  have htez : ∀ {mutez : String} {n : Nat}, integer? mutez.toList = some (n : Int) →
      (rational? (tezOf mutez).toList).map (· * 10 ^ 6) = some (n : ℚ) := by
    intro mutez n hn
    rw [rational?_tezOf hn]
    simp
  refine ⟨?_, hvalid, tezOf e.transferred, tezOf e.balance, e.nowSeconds, hvalid.flags_eq, ?_, ?_, ?_⟩
  · intro field text
    constructor
    · intro htakes
      have hset := set_of_takes htakes e
      refine ⟨_, hset, ?_, get_put_self _ _ _, fun other hother => get_put_of_ne hother _ _⟩
      simp [attempt, hset]
    · intro htakes
      have hset := set_of_not_takes htakes e
      refine ⟨⟨_, hset⟩, ?_⟩
      simp [attempt, hset]
  · obtain ⟨n, hn⟩ := hvalid.transferred
    exact ⟨n, hn, htez hn⟩
  · obtain ⟨n, hn⟩ := hvalid.balance
    exact ⟨n, hn, htez hn⟩
  · exact nowSeconds_eq hvalid.now

theorem after_faithful_unnamed :
    DateTime.isDate "2024-01-15 10:30:00" = true ∧
    let e := (make "2024-01-15 10:30:00" "").after
      [(.transferred, " +1500000 "), (.level, "high"), (.source, "tz1source")]
    Valid "" e ∧ e.flags = ["--amount", "1.5", "--balance", "0", "--source", "tz1source", "--now",
      "1705314600", "--level", "1"] := by
  have hnow : DateTime.isDate "2024-01-15 10:30:00" = true := by decide
  exact ⟨hnow, (after_faithful hnow "" _).2.1, by decide⟩

end Environment
end Retrace

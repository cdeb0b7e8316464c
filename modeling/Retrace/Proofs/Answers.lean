import Mathlib.Data.List.Basic
import Retrace.Dialogue

/-!
# Answers dealt out to questions

Questions are asked in turn, and each takes the answers up to the first one that passes. So every
answer is accepted for an item, refused for one, or left over.
-/

namespace Retrace.Dialogue

variable {ι : Type}

/-! ## The fate of answers -/

/-- What becomes of an answer. -/
inductive Fate (ι : Type) where
  | accepted (item : ι)
  | refused (item : ι)
  | unused

/-- The fate of each answer, the items being asked for in turn. -/
def deal (takes : ι → String → Bool) : List ι → List String → List (String × Fate ι)
  | _, [] => []
  | [], answer :: answers => (answer, .unused) :: deal takes [] answers
  | item :: items, answer :: answers =>
    if takes item answer then (answer, .accepted item) :: deal takes items answers
    else (answer, .refused item) :: deal takes (item :: items) answers

/-- The accepted answers, each with the item it was accepted for. -/
def accepted : List (String × Fate ι) → List (ι × String)
  | [] => []
  | (answer, .accepted item) :: dealt => (item, answer) :: accepted dealt
  | (_, .refused _) :: dealt | (_, .unused) :: dealt => accepted dealt

def refused : List (String × Fate ι) → List (ι × String)
  | [] => []
  | (answer, .refused item) :: dealt => (item, answer) :: refused dealt
  | (_, .accepted _) :: dealt | (_, .unused) :: dealt => refused dealt

/-- The answers without the refused ones. -/
def kept : List (String × Fate ι) → List String
  | [] => []
  | (_, .refused _) :: dealt => kept dealt
  | (answer, .accepted _) :: dealt | (answer, .unused) :: dealt => answer :: kept dealt

variable (takes : ι → String → Bool) (items : List ι) (answers : List String)

theorem deal_cons_of_takes {item : ι} {answer : String} (h : takes item answer = true) :
    deal takes (item :: items) (answer :: answers) =
      (answer, .accepted item) :: deal takes items answers := if_pos h

theorem accepted_deal_nil : accepted (deal takes [] answers) = [] := by
  induction answers with
  | nil => rfl
  | cons answer answers ih => exact ih

theorem refused_deal_nil : refused (deal takes [] answers) = [] := by
  induction answers with
  | nil => rfl
  | cons answer answers ih => exact ih

theorem kept_deal_nil : kept (deal takes [] answers) = answers := by
  induction answers with
  | nil => rfl
  | cons answer answers ih => rw [deal, kept, ih]

theorem accepted_deal_isPrefix : (accepted (deal takes items answers)).map (·.1) <+: items := by
  fun_induction deal takes items answers with
  | case1 => simp [accepted]
  | case2 answer answers ih => exact ih
  | case3 item items answer answers h ih => simpa [accepted] using ih
  | case4 item items answer answers h ih => exact ih

theorem length_accepted_deal_le : (accepted (deal takes items answers)).length ≤ items.length := by
  simpa using (accepted_deal_isPrefix takes items answers).length_le

theorem accepted_deal_of_length_eq (h : (accepted (deal takes items answers)).length = items.length) :
    (accepted (deal takes items answers)).map (·.1) = items :=
  (accepted_deal_isPrefix takes items answers).eq_of_length (by simpa using h)

theorem takes_of_mem_accepted :
    ∀ p ∈ accepted (deal takes items answers), takes p.1 p.2 = true := by
  fun_induction deal takes items answers with
  | case1 => simp [accepted]
  | case2 answer answers ih => exact ih
  | case3 item items answer answers h ih => exact List.forall_mem_cons.mpr ⟨h, ih⟩
  | case4 item items answer answers h ih => exact ih

theorem refuses_of_mem_refused :
    ∀ p ∈ refused (deal takes items answers), p.1 ∈ items ∧ takes p.1 p.2 = false := by
  fun_induction deal takes items answers with
  | case1 => simp [refused]
  | case2 answer answers ih => exact ih
  | case3 item items answer answers h ih =>
    intro p hp
    obtain ⟨hmem, hrefuses⟩ := ih p hp
    exact ⟨List.mem_cons_of_mem item hmem, hrefuses⟩
  | case4 item items answer answers h ih =>
    exact List.forall_mem_cons.mpr ⟨⟨List.mem_cons_self, by simpa using h⟩, ih⟩

theorem length_kept_add_refused :
    (kept (deal takes items answers)).length + (refused (deal takes items answers)).length =
      answers.length := by
  fun_induction deal takes items answers with
  | case1 => rfl
  | case2 answer answers ih =>
    simp only [kept, refused, List.length_cons]
    omega
  | case3 item items answer answers h ih =>
    simp only [kept, refused, List.length_cons]
    omega
  | case4 item items answer answers h ih =>
    simp only [kept, refused, List.length_cons]
    omega

theorem deal_kept :
    accepted (deal takes items (kept (deal takes items answers))) = accepted (deal takes items answers) ∧
      refused (deal takes items (kept (deal takes items answers))) = [] := by
  fun_induction deal takes items answers with
  | case1 => simp [kept, deal, accepted, refused]
  | case2 answer answers ih => exact ih
  | case3 item items answer answers h ih =>
    rw [kept, deal_cons_of_takes _ _ _ h]
    exact ⟨congrArg ((item, answer) :: ·) ih.1, ih.2⟩
  | case4 item items answer answers h ih => exact ih

/-! ## Forms -/

/-- How an item of a form is asked for: the question, the check of its answers, and what an accepted
value makes of the state. -/
structure Inquiry (σ α : Type) where
  question : σ → String
  check : String → Except InputError α
  update : σ → α → σ

variable {σ α : Type} (form : ι → Inquiry σ α) (s : σ)

/-- Asks for the items of a form in turn. -/
def fill (s : σ) : Dialogue → List ι → Bool × σ × Dialogue
  | d, [] => (true, s, d)
  | d, item :: items =>
    match d.collect ((form item).question s) (form item).check with
    | (some a, d) => fill ((form item).update s a.value) d items
    | (none, d) => (false, s, d)

def passes (item : ι) (answer : String) : Bool := ((form item).check answer).isOk

/-- What an answer makes of the state. -/
def enter (s : σ) (p : ι × String) : σ :=
  match (form p.1).check p.2 with
  | .ok value => (form p.1).update s value
  | .error _ => s

theorem fill_cons_nil (log : List Exchange) (item : ι) (items : List ι) :
    fill form s ⟨[], log⟩ (item :: items) =
      (false, s, ⟨[], log ++ [.asked ((form item).question s)]⟩) := rfl

theorem fill_cons_of_ok {item : ι} {answer : String} {value : α} (h : (form item).check answer = .ok value)
    (log : List Exchange) (items : List ι) (answers : List String) :
    fill form s ⟨answer :: answers, log⟩ (item :: items) =
      fill form ((form item).update s value) ⟨answers, log ++ [.asked ((form item).question s)]⟩ items := by
  simp only [fill, collect, askUntil, h]

theorem fill_cons_of_error {item : ι} {answer : String} {e : InputError}
    (h : (form item).check answer = .error e) (log : List Exchange) (items : List ι)
    (answers : List String) :
    fill form s ⟨answer :: answers, log⟩ (item :: items) =
      fill form s ⟨answers, log ++ [.asked ((form item).question s), .refused e]⟩ (item :: items) := by
  simp only [fill, collect, askUntil, h]
  rcases askUntil ((form item).question s) (form item).check answers _ with ⟨_ | a, d⟩ <;> rfl

theorem refusals_asked (answers : List String) (log : List Exchange) (question : String) :
    refusals ⟨answers, log ++ [.asked question]⟩ = refusals ⟨[], log⟩ := by
  simp [refusals]

theorem refusals_refused (answers : List String) (log : List Exchange) (question : String)
    (e : InputError) :
    refusals ⟨answers, log ++ [.asked question, .refused e]⟩ = refusals ⟨[], log⟩ ++ [e] := by
  simp [refusals]

theorem check_of_passes {item : ι} {answer : String} (h : passes form item answer = true) :
    ∃ value, (form item).check answer = .ok value := by
  unfold passes at h
  cases hcheck : (form item).check answer with
  | ok value => exact ⟨value, rfl⟩
  | error e => simp [hcheck, Except.isOk, Except.toBool] at h

theorem check_of_not_passes {item : ι} {answer : String} (h : ¬ passes form item answer = true) :
    ∃ e, (form item).check answer = .error e := by
  unfold passes at h
  cases hcheck : (form item).check answer with
  | ok value => simp [hcheck, Except.isOk, Except.toBool] at h
  | error e => exact ⟨e, rfl⟩

/-- A form is filled with the accepted answers. Refused answers are counted, and the user has
cancelled if the answers run out. -/
theorem fill_spec (log : List Exchange) :
    let dealt := deal (passes form) items answers
    let r := fill form s ⟨answers, log⟩ items
    (r.1 = true ↔ (accepted dealt).length = items.length) ∧
      r.2.1 = (accepted dealt).foldl (enter form) s ∧
      r.2.2.refusals.length = (refusals ⟨[], log⟩).length + (refused dealt).length ∧
      (r.1 = false → r.2.2.answers = []) := by
  fun_induction deal (passes form) items answers generalizing s log with
  | case1 items =>
    cases items with
    | nil => simp [fill, accepted, refused]
    | cons item items => simp [fill_cons_nil, accepted, refused, refusals_asked]
  | case2 answer answers ih =>
    simp [fill, accepted, refused, accepted_deal_nil, refused_deal_nil, refusals]
  | case3 item items answer answers h ih =>
    obtain ⟨value, hcheck⟩ := check_of_passes form h
    have hrest := ih ((form item).update s value) (log ++ [.asked ((form item).question s)])
    rw [refusals_asked] at hrest
    simpa [fill_cons_of_ok form s hcheck, accepted, refused, enter, hcheck] using hrest
  | case4 item items answer answers h ih =>
    obtain ⟨e, hcheck⟩ := check_of_not_passes form h
    have hrest := ih s (log ++ [.asked ((form item).question s), .refused e])
    rw [refusals_refused] at hrest
    simpa [fill_cons_of_error form s hcheck, accepted, refused, Nat.add_assoc, Nat.add_comm 1] using hrest

theorem fill_kept (log log' : List Exchange) :
    let r := fill form s ⟨answers, log⟩ items
    let again := fill form s ⟨kept (deal (passes form) items answers), log'⟩ items
    again.1 = r.1 ∧ again.2.1 = r.2.1 ∧ again.2.2.answers = r.2.2.answers ∧
      again.2.2.refusals = refusals ⟨[], log'⟩ := by
  fun_induction deal (passes form) items answers generalizing s log log' with
  | case1 items =>
    cases items with
    | nil => simp [fill, kept]
    | cons item items => simp [fill_cons_nil, kept, refusals_asked]
  | case2 answer answers ih => simp [fill, kept, kept_deal_nil, refusals]
  | case3 item items answer answers h ih =>
    obtain ⟨value, hcheck⟩ := check_of_passes form h
    rw [kept, fill_cons_of_ok form s hcheck, fill_cons_of_ok form s hcheck,
      ← refusals_asked [] log' ((form item).question s)]
    exact ih ((form item).update s value) _ _
  | case4 item items answer answers h ih =>
    obtain ⟨e, hcheck⟩ := check_of_not_passes form h
    rw [kept, fill_cons_of_error form s hcheck]
    exact ih s _ log'

end Retrace.Dialogue

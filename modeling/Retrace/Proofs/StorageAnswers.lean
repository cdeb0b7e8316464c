import Retrace.Proofs.Collection

/-!
# Storage from answers

The storage is to be empty if every accepted answer is blank, and else to have an element for every
field. But an answer that does not keep a default counts as a change even if it is refused, and so
does a blank one for a field without a default. This is told from the accepted answers only if one
of them is not blank.
-/

namespace Retrace.Dialogue

open Retrace.Text

/-- What a storage is to be, told from the accepted answers alone. -/
def Intended (fields : List FieldDecl) (given : List (FieldDecl × String)) (s : Storage) : Prop :=
  given.map (·.1) = fields ∧
    ((∀ p ∈ given, allBlank p.2.toList = true) → s = .empty) ∧
    ((∃ p ∈ given, allBlank p.2.toList = false) →
      List.Forall₂ (fun p a => fieldValue p.1 p.2 = .ok a) given s.elements)

/-! ## One answer -/

def elementsOf (given : List (FieldDecl × String)) : List Argument :=
  given.filterMap fun p => (fieldValue p.1 p.2).toOption

/-- Whether an answer, accepted or refused, did not keep a default. -/
def edits (dealt : List (String × Fate FieldDecl)) : Bool :=
  (accepted dealt).any (fun p => !keepsDefault p.1 p.2) || (refused dealt).any fun p => !keepsDefault p.1 p.2

theorem edits_accepted (field : FieldDecl) (answer : String) (dealt : List (String × Fate FieldDecl)) :
    edits ((answer, .accepted field) :: dealt) = (!keepsDefault field answer || edits dealt) := by
  simp only [edits, accepted, refused, List.any_cons, Bool.or_assoc]

theorem edits_refused (field : FieldDecl) (answer : String) (dealt : List (String × Fate FieldDecl)) :
    edits ((answer, .refused field) :: dealt) = (!keepsDefault field answer || edits dealt) := by
  simp only [edits, accepted, refused, List.any_cons, Bool.or_left_comm]

section

variable {field : FieldDecl} {answer : String} (storage : Storage) (edited : Bool) (answers : List String)
  (log : List Exchange) (fields : List FieldDecl)

theorem collectStorageFrom_of_ok {a : Argument} (h : fieldValue field answer = .ok a) :
    collectStorageFrom storage edited ⟨answer :: answers, log⟩ (field :: fields) =
      collectStorageFrom ⟨storage.elements ++ [a]⟩ (edited || !keepsDefault field answer)
        ⟨answers, log ++ [.asked (fieldQuestion "Initial value of storage" field)]⟩ fields := by
  have hadd : storage.add field.name (fieldText field answer) (ArgumentType.ofName field.type) =
      .ok ⟨storage.elements ++ [a]⟩ := by
    rw [Storage.add, ← fieldValue, h]
    rfl
  simp only [collectStorageFrom, collect, askUntil, hadd, List.any_cons, List.any_nil, Bool.or_false]

theorem collectStorageFrom_of_error {e : InputError} (h : fieldValue field answer = .error e) :
    collectStorageFrom storage edited ⟨answer :: answers, log⟩ (field :: fields) =
      collectStorageFrom storage (edited || !keepsDefault field answer)
        ⟨answers, log ++ [.asked (fieldQuestion "Initial value of storage" field), .refused e]⟩
        (field :: fields) := by
  have hadd : storage.add field.name (fieldText field answer) (ArgumentType.ofName field.type) =
      .error e := by
    rw [Storage.add, ← fieldValue, h]
    rfl
  simp only [collectStorageFrom, collect, askUntil, hadd]
  rcases askUntil _ _ answers _ with ⟨_ | a, d⟩
  · rfl
  · simp only [List.any_cons, Bool.or_assoc]

/-- A storage is collected if there is an accepted answer for every field, and it has their values if
an answer counts as a change. -/
theorem collectStorageFrom_eq :
    (collectStorageFrom storage edited ⟨answers, log⟩ fields).1 =
      if (accepted (deal fitsField fields answers)).length = fields.length then
        some (if edited || edits (deal fitsField fields answers) then
          ⟨storage.elements ++ elementsOf (accepted (deal fitsField fields answers))⟩ else .empty)
      else none := by
  fun_induction deal fitsField fields answers generalizing storage edited log with
  | case1 fields =>
    cases fields with
    | nil => simp [collectStorageFrom, accepted, refused, edits, elementsOf]
    | cons field fields => simp [collectStorageFrom, collect, askUntil, accepted]
  | case2 answer answers ih =>
    simp [collectStorageFrom, accepted, refused, accepted_deal_nil, refused_deal_nil, edits, elementsOf]
  | case3 field fields answer answers h ih =>
    obtain ⟨a, ha : fieldValue field answer = .ok a⟩ := check_of_passes constantInquiry h
    rw [collectStorageFrom_of_ok storage edited answers log fields ha, ih, edits_accepted, Bool.or_assoc]
    simp [accepted, elementsOf, ha, Except.toOption]
  | case4 field fields answer answers h ih =>
    obtain ⟨e, he⟩ := check_of_not_passes constantInquiry h
    rw [collectStorageFrom_of_error storage edited answers log fields he, ih, edits_refused, Bool.or_assoc]
    rfl

end

/-! ## All answers -/

theorem forall₂_elementsOf {given : List (FieldDecl × String)} (h : ∀ p ∈ given, fitsField p.1 p.2 = true) :
    List.Forall₂ (fun p a => fieldValue p.1 p.2 = .ok a) given (elementsOf given) := by
  induction given with
  | nil => exact .nil
  | cons p given ih =>
    obtain ⟨hp, hgiven⟩ := List.forall_mem_cons.mp h
    obtain ⟨a, ha : fieldValue p.1 p.2 = .ok a⟩ := check_of_passes constantInquiry hp
    have hcons : elementsOf (p :: given) = a :: elementsOf given := by
      simp [elementsOf, ha, Except.toOption]
    rw [hcons]
    exact .cons ha (ih hgiven)

theorem fitsField_of_keepsDefault {field : FieldDecl} {answer answer' : String}
    (h : keepsDefault field answer = true) (h' : keepsDefault field answer' = true) :
    fitsField field answer = fitsField field answer' := by
  simp only [keepsDefault, Bool.and_eq_true, Option.isSome_iff_exists] at h h'
  obtain ⟨⟨default, hdefault⟩, hblank⟩ := h
  simp only [fitsField, fieldValue, fieldText, hdefault, hblank, h'.2, if_true, Option.getD_some]

section

variable {answers : List String} {fields : List FieldDecl} {s : Storage}

/-- There is no change only if nothing is refused: an answer that keeps a default is not refused where
one is accepted. -/
theorem edits_deal_eq_false_iff
    (hall : (accepted (deal fitsField fields answers)).map (·.1) = fields) :
    edits (deal fitsField fields answers) = false ↔
      (∀ p ∈ accepted (deal fitsField fields answers), keepsDefault p.1 p.2 = true) ∧
        refused (deal fitsField fields answers) = [] := by
  simp only [edits, Bool.or_eq_false_iff, List.any_eq_false, Bool.not_eq_true, Bool.not_eq_false']
  refine and_congr_right fun haccepted => ⟨fun hrefused => ?_, fun hnil => by simp [hnil]⟩
  rw [List.eq_nil_iff_forall_not_mem]
  intro p hp
  obtain ⟨hfield, hunfit⟩ := refuses_of_mem_refused fitsField fields answers p hp
  rw [← hall] at hfield
  obtain ⟨q, hq, hqp⟩ := List.mem_map.mp hfield
  have hfit := takes_of_mem_accepted fitsField fields answers q hq
  have hkeeps := haccepted q hq
  rw [hqp] at hfit hkeeps
  rw [fitsField_of_keepsDefault (hrefused p hp) hkeeps, hfit] at hunfit
  cases hunfit

theorem collectStorage_some (h : (collectStorage ⟨answers, []⟩ fields).1 = some s) :
    (accepted (deal fitsField fields answers)).map (·.1) = fields ∧
      s = (if edits (deal fitsField fields answers) then
        ⟨elementsOf (accepted (deal fitsField fields answers))⟩ else .empty) ∧
      (s = .empty ↔ edits (deal fitsField fields answers) = false) := by
  rw [collectStorage, collectStorageFrom_eq] at h
  split at h
  case isFalse => cases h
  case isTrue hlen =>
    have hall := accepted_deal_of_length_eq fitsField fields answers hlen
    have hs : s = (if edits (deal fitsField fields answers) then
        ⟨elementsOf (accepted (deal fitsField fields answers))⟩ else .empty) :=
      (Option.some.inj h).symm
    refine ⟨hall, hs, ?_⟩
    cases hedits : edits (deal fitsField fields answers) with
    | false => simp [hs, hedits]
    | true =>
      -- A change needs a field, and so there is an element.
      have hfields : fields ≠ [] := by
        rintro rfl
        simp [edits, accepted_deal_nil, refused_deal_nil] at hedits
      have hcount := (forall₂_elementsOf (takes_of_mem_accepted fitsField fields answers)).length_eq
      simp only [hs, hedits, if_true, Storage.empty, Storage.mk.injEq, Bool.true_eq_false, iff_false]
      intro hnil
      rw [hlen, hnil] at hcount
      exact hfields (List.length_eq_zero_iff.mp hcount)

theorem intended_iff (h : (collectStorage ⟨answers, []⟩ fields).1 = some s) :
    Intended fields (accepted (deal fitsField fields answers)) s ↔
      ((∀ p ∈ accepted (deal fitsField fields answers), allBlank p.2.toList = true) →
        refused (deal fitsField fields answers) = [] ∧ ∀ f ∈ fields, f.value.isSome = true) := by
  obtain ⟨hall, hs, hempty⟩ := collectStorage_some h
  have hkeeps : (∀ p ∈ accepted (deal fitsField fields answers), allBlank p.2.toList = true) →
      ((∀ p ∈ accepted (deal fitsField fields answers), keepsDefault p.1 p.2 = true) ↔
        ∀ f ∈ fields, f.value.isSome = true) := by
    intro hblank
    conv_rhs => rw [← hall]
    simp only [keepsDefault, List.forall_mem_map, Bool.and_eq_true]
    exact forall₂_congr fun p hp => and_iff_left (hblank p hp)
  have hedits := edits_deal_eq_false_iff hall
  constructor
  · rintro ⟨-, hintended, -⟩ hblank
    rw [hintended hblank, eq_self, true_iff, hedits, hkeeps hblank, and_comm] at hempty
    exact hempty
  · intro hplain
    refine ⟨hall, fun hblank => ?_, ?_⟩
    · rw [hempty, hedits, hkeeps hblank, and_comm]
      exact hplain hblank
    · rintro ⟨p, hp, hword⟩
      have hchanged : edits (deal fitsField fields answers) = true := by
        rw [← Bool.not_eq_false, hedits]
        rintro ⟨hno, -⟩
        simpa [keepsDefault, hword] using hno p hp
      rw [hs, if_pos hchanged]
      exact forall₂_elementsOf (takes_of_mem_accepted fitsField fields answers)

theorem replayed_iff (h : (collectStorage ⟨answers, []⟩ fields).1 = some s) :
    (collectStorage ⟨kept (deal fitsField fields answers), []⟩ fields).1 = some s ↔
      ((∀ p ∈ accepted (deal fitsField fields answers), keepsDefault p.1 p.2 = true) →
        refused (deal fitsField fields answers) = []) := by
  obtain ⟨hall, hs, hempty⟩ := collectStorage_some h
  obtain ⟨haccepted, hrefused⟩ := deal_kept fitsField fields answers
  have hlen : (accepted (deal fitsField fields answers)).length = fields.length := by
    simpa using congrArg List.length hall
  have hedits := edits_deal_eq_false_iff hall
  have hedits' := edits_deal_eq_false_iff (haccepted.symm ▸ hall)
  rw [haccepted, and_iff_left hrefused] at hedits'
  have hagain : (collectStorage ⟨kept (deal fitsField fields answers), []⟩ fields).1 =
      some (if edits (deal fitsField fields (kept (deal fitsField fields answers))) then
        ⟨elementsOf (accepted (deal fitsField fields answers))⟩ else .empty) := by
    rw [collectStorage, collectStorageFrom_eq, haccepted, if_pos hlen]
    rfl
  rw [hagain, Option.some.injEq]
  by_cases hkeeps : ∀ p ∈ accepted (deal fitsField fields answers), keepsDefault p.1 p.2 = true
  · -- Without the refused answers the storage is empty.
    have hno := hedits'.mpr hkeeps
    rw [hno, if_neg Bool.false_ne_true, eq_comm, hempty, hedits]
    exact ⟨fun h _ => h.2, fun h => ⟨hkeeps, h hkeeps⟩⟩
  · have hyes : edits (deal fitsField fields answers) = true := by
      rw [← Bool.not_eq_false, hedits]
      exact fun hno => hkeeps hno.1
    have hyes' : edits (deal fitsField fields (kept (deal fitsField fields answers))) = true := by
      rw [← Bool.not_eq_false, hedits']
      exact hkeeps
    rw [hs, hyes, hyes']
    exact iff_of_true rfl fun hno => absurd hno hkeeps

/-- **When a storage is told from the accepted answers.** It is as intended exactly if an accepted answer
is not blank, or else nothing is refused and every field has a default. It is the same without the
refused answers exactly if there are none or an accepted answer does not keep a default. -/
theorem collectStorage_told (h : (collectStorage ⟨answers, []⟩ fields).1 = some s) :
    let dealt := deal fitsField fields answers
    (Intended fields (accepted dealt) s ↔
      ((∀ p ∈ accepted dealt, allBlank p.2.toList = true) →
        refused dealt = [] ∧ ∀ f ∈ fields, f.value.isSome = true)) ∧
    ((collectStorage ⟨kept dealt, []⟩ fields).1 = some s ↔
      ((∀ p ∈ accepted dealt, keepsDefault p.1 p.2 = true) → refused dealt = [])) :=
  ⟨intended_iff h, replayed_iff h⟩

end

theorem collectStorage_told_retried :
    Intended [⟨"a", "nat", some "0"⟩, ⟨"s", "string", some "\"hi\""⟩]
      [(⟨"a", "nat", some "0"⟩, "7"), (⟨"s", "string", some "\"hi\""⟩, "")]
      ⟨[⟨"a", .nat, .integer 7⟩, ⟨"s", .string, .text "hi"⟩]⟩ := by
  have hstorage : (collectStorage ⟨["-3", "7", ""], []⟩
      [⟨"a", "nat", some "0"⟩, ⟨"s", "string", some "\"hi\""⟩]).1 =
      some ⟨[⟨"a", .nat, .integer 7⟩, ⟨"s", .string, .text "hi"⟩]⟩ := by
    decide +kernel
  have hgiven : accepted (deal fitsField [⟨"a", "nat", some "0"⟩, ⟨"s", "string", some "\"hi\""⟩]
      ["-3", "7", ""]) = [(⟨"a", "nat", some "0"⟩, "7"), (⟨"s", "string", some "\"hi\""⟩, "")] := by
    decide +kernel
  have htold := (collectStorage_told hstorage).1
  rw [hgiven] at htold
  refine htold.mpr fun hblank => ?_
  exact absurd (hblank _ List.mem_cons_self) (by decide +kernel)

/-- A refused answer makes a storage of defaults, and so does a blank one where there is no default. -/
theorem collectStorage_untold :
    (collectStorage ⟨["-3", ""], []⟩ [⟨"a", "nat", some "0"⟩]).1 = some ⟨[⟨"a", .nat, .integer 0⟩]⟩ ∧
      accepted (deal fitsField [⟨"a", "nat", some "0"⟩] ["-3", ""]) = [(⟨"a", "nat", some "0"⟩, "")] ∧
      kept (deal fitsField [⟨"a", "nat", some "0"⟩] ["-3", ""]) = [""] ∧
      (collectStorage ⟨[""], []⟩ [⟨"a", "nat", some "0"⟩]).1 = some .empty ∧
      (collectStorage ⟨[""], []⟩ [⟨"n", "string", none⟩]).1 = some ⟨[⟨"n", .string, .text ""⟩]⟩ ∧
      ¬ Intended [⟨"a", "nat", some "0"⟩] [(⟨"a", "nat", some "0"⟩, "")] ⟨[⟨"a", .nat, .integer 0⟩]⟩ ∧
      ¬ Intended [⟨"n", "string", none⟩] [(⟨"n", "string", none⟩, "")] ⟨[⟨"n", .string, .text ""⟩]⟩ := by
  refine ⟨by decide +kernel, by decide +kernel, by decide +kernel, by decide +kernel, by decide +kernel, ?_, ?_⟩
  · rintro ⟨-, hblank, -⟩
    simp [allBlank, Storage.empty] at hblank
  · rintro ⟨-, hblank, -⟩
    simp [allBlank, Storage.empty] at hblank

end Retrace.Dialogue

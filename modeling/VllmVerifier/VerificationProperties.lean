import Mathlib.Algebra.Order.BigOperators.Group.List
import Mathlib.Algebra.Order.Group.Abs
import Mathlib.Analysis.SpecialFunctions.Log.Basic
import Mathlib.Tactic.Linarith
import Mathlib.Algebra.Order.Field.Basic
import Mathlib.Tactic.NormNum
import VllmVerifier.Verification
import VllmVerifier.Json.LoadsProperties

/-!
What `verify` accepts. Each check of the reading is characterised on its own;
the arithmetic behind an answer cannot fail once the checks have passed.
-/

set_option autoImplicit false

namespace VllmVerifier

open Python Json

/-- The real logarithm. -/
noncomputable instance : LogField ℝ where
  log := Real.log
  log_pos := Real.log_pos

/-- A computation whose only exception is `InvalidOutput`. -/
def OnlyInvalidOutput {α : Type} (computation : Except PyException α) : Prop :=
  ∀ raised, computation = .error raised → ∃ message, raised = .invalidOutput message

/-- The reasons that `verify` gives for an invalid output. -/
def invalidReasons : List String :=
  ["expected one JSON object", "expected only noul", "expected only probabilities",
    "one probability is required per criterion, in order",
    "probabilities must be finite numbers between zero and one",
    "probabilities must sum to one (rounding tolerance 0.01)"]

/-- A computation that raises `InvalidOutput` for one of these reasons, or not at all. -/
def Refuses {α : Type} (computation : Except PyException α) : Prop :=
  ∀ raised, computation = .error raised →
    ∃ message ∈ invalidReasons, raised = .invalidOutput message

namespace Refuses

theorem ok {α : Type} (value : α) : Refuses (.ok value) := by
  intro raised failure
  cases failure

theorem raise {α : Type} {message : String} (known : message ∈ invalidReasons) :
    Refuses (.error (.invalidOutput message) : Except PyException α) := by
  intro raised failure
  cases failure
  exact ⟨message, known, rfl⟩

theorem bind {α β : Type} {source : Except PyException α}
    {continuation : α → Except PyException β} (first : Refuses source)
    (second : ∀ value, source = .ok value → Refuses (continuation value)) :
    Refuses (source >>= continuation) := by
  intro raised failure
  rcases except_bind_error failure with failed | ⟨value, success, failed⟩
  · exact first raised failed
  · exact second value success raised failed

theorem mapM {α β : Type} {f : α → Except PyException β} {items : List α}
    (each : ∀ item ∈ items, Refuses (f item)) : Refuses (items.mapM f) := by
  intro raised failure
  obtain ⟨item, member, failed⟩ := mapM_error failure
  exact each item member raised failed

theorem only {α : Type} {computation : Except PyException α} (refuses : Refuses computation) :
    OnlyInvalidOutput computation := by
  intro raised failure
  obtain ⟨message, _, same⟩ := refuses raised failure
  exact ⟨message, same⟩

end Refuses

/-! ## Reading JSON -/

private theorem uniqueObject_foldlM (pairs seen : List (Str × Json))
    (distinct : (seen.map Prod.fst).Nodup) :
    pairs.foldlM (fun (result : List (Str × Json)) pair =>
        if pair.1 ∈ result.map Prod.fst then
          (.error (.invalidOutput "duplicate JSON keys") : Except PyException _)
        else .ok (Dict.setEntries pair.1 pair.2 result)) seen =
      if ((seen ++ pairs).map Prod.fst).Nodup then .ok (seen ++ pairs)
      else .error (.invalidOutput "duplicate JSON keys") := by
  induction pairs generalizing seen with
  | nil => simp [distinct, pure, Except.pure]
  | cons pair rest ih =>
      rw [List.foldlM_cons]
      by_cases repeated : pair.1 ∈ seen.map Prod.fst
      · have clash : ¬ ((seen ++ pair :: rest).map Prod.fst).Nodup := by
          intro all
          rw [List.map_append, List.nodup_append] at all
          exact all.2.2 pair.1 repeated pair.1 (by simp) rfl
        rw [if_pos repeated, if_neg clash]
        rfl
      · have appended := Dict.setEntries_of_not_mem pair.2 repeated
        have distinctNext := Dict.setEntries_distinct pair.1 pair.2 distinct
        rw [if_neg repeated, except_ok_bind, ih _ distinctNext, appended]
        simp only [Prod.mk.eta, List.append_assoc, List.singleton_append]

theorem uniqueObject_refuses : RefusesDuplicates uniqueObject := by
  intro members value
  unfold uniqueObject
  rw [uniqueObject_foldlM members [] List.nodup_nil, List.nil_append]
  by_cases distinct : (members.map Prod.fst).Nodup
  · simp [distinct, except_ok_bind, pure, Except.pure, eq_comm]
  · simp [distinct, bind, Except.bind]

theorem strictJson_ok_iff {text : Str} {value : Json} :
    strictJson text = .ok value ↔
      Document value (unfence (Str.strip text)) ∧ value.distinctNames = true := by
  rw [← loads_refusing_iff uniqueObject_refuses]
  unfold strictJson
  cases loads uniqueObject (unfence (Str.strip text)) <;> simp

theorem strictJson_refuses (text : Str) : Refuses (strictJson text) := by
  unfold strictJson
  cases loads uniqueObject (unfence (Str.strip text)) with
  | ok value => exact .ok value
  | error raised => exact .raise (by decide)

/-! ## Checks -/

theorem probability_ok_iff {value : Json} {number : ℚ} :
    probability value = .ok number ↔ numberValue value = some number ∧ 0 ≤ number ∧ number ≤ 1 := by
  unfold probability
  cases numberValue value with
  | none => simp
  | some found =>
      by_cases range : 0 ≤ found ∧ found ≤ 1
      · simp only [range, and_self, if_true, Except.ok.injEq, Option.some.injEq]
        constructor
        · intro same
          subst same
          exact ⟨rfl, range⟩
        · exact fun known => known.1
      · simp only [range, if_false, reduceCtorEq, Option.some.injEq, false_iff, not_and]
        intro same nonneg
        subst same
        exact fun bounded => range ⟨nonneg, bounded⟩

theorem probability_refuses (value : Json) : Refuses (probability value) := by
  unfold probability
  cases numberValue value with
  | none => exact .raise (by decide)
  | some found =>
      dsimp only
      split
      · exact .ok found
      · exact .raise (by decide)

theorem onlyMember_eq_some {name : Str} {raw value : Json} :
    onlyMember name raw = some value ↔ raw = .object [(name, value)] := by
  unfold onlyMember
  split
  · rename_i found inner
    by_cases same : found = name <;> simp [same]
  · rename_i other
    simp only [reduceCtorEq, false_iff]
    intro same
    subst same
    exact other name value rfl

/-- A list of numbers from zero to one that sum to one within the tolerance. -/
structure Distribution (items : List Json) (values : List ℚ) : Prop where
  numbers : List.Forall₂ (fun item value => numberValue item = some value) items values
  range : ∀ value ∈ values, 0 ≤ value ∧ value ≤ 1
  lower : 99 / 100 ≤ values.sum
  upper : values.sum ≤ 101 / 100

theorem probabilities_ok_iff {items : List Json} {values : List ℚ} :
    items.mapM probability = .ok values ↔
      List.Forall₂ (fun item value => numberValue item = some value) items values ∧
        ∀ value ∈ values, 0 ≤ value ∧ value ≤ 1 := by
  rw [mapM_ok_iff]
  constructor
  · intro related
    induction related with
    | nil => simp
    | cons head _ ih =>
        obtain ⟨read, range⟩ := probability_ok_iff.mp head
        refine ⟨.cons read ih.1, ?_⟩
        rintro value (_ | ⟨_, member⟩)
        · exact range
        · exact ih.2 value member
  · intro given
    obtain ⟨related, range⟩ := given
    induction related with
    | nil => exact .nil
    | cons head _ ih =>
        refine .cons (probability_ok_iff.mpr ⟨head, range _ List.mem_cons_self⟩) (ih ?_)
        exact fun value member => range value (List.mem_cons_of_mem _ member)

theorem tolerance_iff (total : ℚ) :
    ¬ (|total - 1| > 1 / 100 ∨ total = 0) ↔ 99 / 100 ≤ total ∧ total ≤ 101 / 100 := by
  rw [not_or, not_lt, abs_le]
  constructor
  · intro given
    obtain ⟨⟨lower, upper⟩, _⟩ := given
    exact ⟨by linarith, by linarith⟩
  · intro given
    obtain ⟨lower, upper⟩ := given
    exact ⟨⟨by linarith, by linarith⟩, by linarith⟩

theorem divideExact_ok {left right : ℚ} (nonzero : right ≠ 0) :
    divideExact left right = .ok (left / right) := if_neg nonzero

/-- Normalising never divides by zero, and an accepted list is normalised. -/
theorem distribution_ok_iff {size : Nat} {raw : Json} {probabilities : List ℚ} :
    distribution size raw = .ok probabilities ↔
      ∃ items values, raw = .object [(lit "probabilities", .array items)] ∧
        items.length = size ∧ Distribution items values ∧
          probabilities = values.map fun value => value / values.sum := by
  constructor
  · intro success
    unfold distribution at success
    cases member : onlyMember (lit "probabilities") raw with
    | none => simp [member] at success
    | some found =>
        rw [onlyMember_eq_some] at member
        subst member
        cases found with
        | array items =>
            simp only [onlyMember, if_true] at success
            by_cases counted : items.length = size
            · rw [if_pos counted] at success
              obtain ⟨values, read, continuation⟩ := except_bind_ok success
              obtain ⟨numbers, range⟩ := probabilities_ok_iff.mp read
              split at continuation
              · cases continuation
              · rename_i tolerated
                obtain ⟨lower, upper⟩ := (tolerance_iff _).mp tolerated
                have nonzero : fsum values ≠ 0 := fun zero => tolerated (.inr zero)
                rw [mapM_total fun value _ => divideExact_ok nonzero] at continuation
                cases continuation
                exact ⟨items, values, rfl, counted, ⟨numbers, range, lower, upper⟩, rfl⟩
            · simp [counted] at success
        | null | bool | number | str | object => simp [onlyMember] at success
  · intro given
    obtain ⟨items, values, rfl, counted, accepted, rfl⟩ := given
    have tolerated := (tolerance_iff (fsum values)).mpr ⟨accepted.lower, accepted.upper⟩
    have nonzero : fsum values ≠ 0 := fun zero => tolerated (.inr zero)
    have read := probabilities_ok_iff.mpr ⟨accepted.numbers, accepted.range⟩
    simp only [distribution, onlyMember, if_true, counted]
    rw [read, except_ok_bind]
    rw [if_neg tolerated, mapM_total fun value _ => divideExact_ok nonzero]
    rfl

theorem distribution_refuses (size : Nat) (raw : Json) : Refuses (distribution size raw) := by
  unfold distribution
  split
  · exact .raise (by decide)
  · rename_i items member
    split
    · refine .bind (.mapM fun item _ => probability_refuses item) fun values read => ?_
      dsimp only
      split
      · exact .raise (by decide)
      · rename_i tolerated
        have nonzero : fsum values ≠ 0 := fun zero => tolerated (.inr zero)
        rw [mapM_total fun value _ => divideExact_ok nonzero]
        exact .ok _
    · exact .raise (by decide)
  · exact .raise (by decide)

private theorem le_sum_of_mem {values : List ℚ} (nonneg : ∀ value ∈ values, 0 ≤ value)
    {value : ℚ} (member : value ∈ values) : value ≤ values.sum :=
  List.single_le_sum nonneg value member

theorem Distribution.normalised_range {items : List Json} {values : List ℚ}
    (accepted : Distribution items values) :
    ∀ value ∈ values.map (fun value => value / values.sum), 0 ≤ value ∧ value ≤ 1 := by
  have positive : 0 < values.sum := lt_of_lt_of_le (by norm_num) accepted.lower
  intro value member
  obtain ⟨raw, rawMember, rfl⟩ := List.mem_map.mp member
  have nonneg := (accepted.range raw rawMember).1
  have bounded := le_sum_of_mem (fun value member => (accepted.range value member).1) rawMember
  exact ⟨div_nonneg nonneg positive.le, (div_le_one positive).mpr bounded⟩

/-! ## Arithmetic -/

section Answers

variable {F : Type} [LogField F]

theorem mathLog_ok {value : F} (positive : 0 < value) :
    mathLog value = .ok (LogField.log value) := if_pos positive

theorem divide_ok {left right : F} (nonzero : right ≠ 0) :
    divide left right = .ok (left / right) := if_neg nonzero

/-- The terms of the entropy are all defined: only positive probabilities enter. -/
theorem logTerms_ok (probabilities : List ℚ) :
    ((probabilities.filter fun p => decide (0 < p)).mapM fun p : ℚ =>
      (do
        let logarithm ← mathLog (p : F)
        pure ((p : F) * logarithm) : Except PyException F)) =
      .ok ((probabilities.filter fun p => decide (0 < p)).map fun p : ℚ =>
        (p : F) * LogField.log (p : F)) := by
  refine mapM_total fun p member => ?_
  have above : (0 : F) < p := by
    exact_mod_cast of_decide_eq_true (List.mem_filter.mp member).2
  rw [mathLog_ok above]
  rfl

theorem confidenceOf_perm (size : Nat) {left right : List ℚ} (permuted : left.Perm right) :
    (confidenceOf size left : Except PyException F) = confidenceOf size right := by
  unfold confidenceOf
  rw [logTerms_ok, logTerms_ok, except_ok_bind, except_ok_bind, fsum, fsum,
    ((permuted.filter _).map _).sum_eq]

/-- The confidence of a non-empty list of probabilities never takes the
logarithm of zero and never divides by zero. -/
theorem confidenceOf_ok {size : Nat} (positive : 0 < size) (probabilities : List ℚ) :
    ∃ confidence : F, confidenceOf size probabilities = .ok confidence ∧
      0 ≤ confidence ∧ confidence ≤ 1 := by
  unfold confidenceOf
  rw [logTerms_ok, except_ok_bind]
  by_cases single : size = 1
  · exact ⟨1, by simp [single, pure, Except.pure], zero_le_one, le_rfl⟩
  · have large : (1 : F) < size := by
      exact_mod_cast (show 1 < size by omega)
    have scale := LogField.log_pos large
    rw [if_neg single, mathLog_ok (zero_lt_one.trans large), except_ok_bind,
      divide_ok scale.ne', except_ok_bind]
    exact ⟨_, rfl, le_max_left _ _, max_le zero_le_one (min_le_left _ _)⟩

theorem maxBy_ok {α : Type} (key : α → ℚ) (candidates : List α) (nonempty : candidates ≠ []) :
    ∃ best ∈ candidates, maxBy key candidates = .ok best := by
  cases candidates with
  | nil => exact absurd rfl nonempty
  | cons first rest =>
      refine ⟨_, ?_, rfl⟩
      induction rest generalizing first with
      | nil => exact List.mem_cons_self
      | cons second rest ih =>
          rw [List.foldl_cons]
          split
          · exact List.mem_cons_of_mem _ (ih second (by simp))
          · rcases List.mem_cons.mp (ih first (by simp)) with same | later
            · rw [same]
              exact List.mem_cons_self
            · exact List.mem_cons_of_mem _ (List.mem_cons_of_mem _ later)

theorem probabilityDict_ok (keys : List Str) {probabilities : List ℚ}
    (range : ∀ value ∈ probabilities, 0 ≤ value ∧ value ≤ 1) :
    ∃ dict, probabilityDict keys probabilities = .ok dict := by
  have checked : ∃ valid, probabilities.mapM Probability.validate = .ok valid := by
    cases mapped : probabilities.mapM (Probability.validate (F := ℚ)) with
    | ok valid => exact ⟨valid, rfl⟩
    | error raised =>
        obtain ⟨value, member, failed⟩ := mapM_error mapped
        obtain ⟨nonneg, bounded⟩ := range value member
        rw [Probability.validate_of_mem nonneg bounded] at failed
        cases failed
  obtain ⟨valid, success⟩ := checked
  exact ⟨_, by rw [probabilityDict, success]; rfl⟩

theorem choiceAnswer_ok (question : Choice) {probabilities : List ℚ} {confidence : F}
    (range : ∀ value ∈ probabilities, 0 ≤ value ∧ value ≤ 1) (nonneg : 0 ≤ confidence)
    (bounded : confidence ≤ 1) : ∃ answer, choiceAnswer question probabilities confidence =
      .ok answer := by
  have size : 0 < question.criteria.keys.length := by
    rw [Dict.keys, List.length_map]
    exact question.size.1
  have candidates : List.range question.criteria.keys.length ≠ [] := by
    rw [Ne, List.range_eq_nil]
    omega
  obtain ⟨chosen, inside, best⟩ :=
    maxBy_ok (fun index => probabilities.getD index 0) _ candidates
  have label : question.criteria.keys[chosen]? =
      some (question.criteria.keys.get ⟨chosen, List.mem_range.mp inside⟩) :=
    List.getElem?_eq_getElem _
  obtain ⟨dict, checked⟩ := probabilityDict_ok question.criteria.keys range
  simp only [choiceAnswer, best, label, checked, except_ok_bind,
    Probability.validate_of_mem nonneg bounded]
  exact ⟨_, rfl⟩

theorem scoreAnswer_ok (question : Score) {probabilities : List ℚ} {confidence : F}
    (range : ∀ value ∈ probabilities, 0 ≤ value ∧ value ≤ 1) (nonneg : 0 ≤ confidence)
    (bounded : confidence ≤ 1) : ∃ answer, scoreAnswer question probabilities confidence =
      .ok answer := by
  obtain ⟨dict, checked⟩ :=
    probabilityDict_ok ((List.range question.criteria.length).map indexKey) range
  simp only [scoreAnswer, checked, except_ok_bind, Probability.validate_of_mem nonneg bounded]
  exact ⟨_, rfl⟩

/-! ## Verification -/

/-- The output grammar of a question, on parsed values. -/
def Question.Admits (question : Question) (value : Json) : Prop :=
  match question with
  | .noul _ => ∃ member number, value = .object [(lit "noul", member)] ∧
      numberValue member = some number ∧ 0 ≤ number ∧ number ≤ 1
  | .choice _ | .score _ => ∃ items values,
      value = .object [(lit "probabilities", .array items)] ∧
        items.length = question.criteriaCount ∧ Distribution items values

/-- `verify` returns exactly on the texts that `strictJson` reads as a value of
the question's grammar. -/
theorem verify_ok_iff (text : Str) (question : Question) :
    (∃ answer : Answer F, verify text question = .ok answer) ↔
      ∃ value, strictJson text = .ok value ∧ question.Admits value := by
  constructor
  · intro given
    obtain ⟨answer, accepted⟩ := given
    obtain ⟨raw, read, continuation⟩ := except_bind_ok accepted
    refine ⟨raw, read, ?_⟩
    cases question with
    | noul question =>
        cases member : onlyMember (lit "noul") raw with
        | none => simp [member] at continuation
        | some found =>
            simp only [member] at continuation
            obtain ⟨number, checked, _⟩ := except_bind_ok continuation
            exact ⟨found, number, onlyMember_eq_some.mp member, probability_ok_iff.mp checked⟩
    | choice question =>
        obtain ⟨probabilities, checked, _⟩ := except_bind_ok continuation
        obtain ⟨items, values, shape, counted, valid, _⟩ := distribution_ok_iff.mp checked
        exact ⟨items, values, shape, counted, valid⟩
    | score question =>
        obtain ⟨probabilities, checked, _⟩ := except_bind_ok continuation
        obtain ⟨items, values, shape, counted, valid, _⟩ := distribution_ok_iff.mp checked
        exact ⟨items, values, shape, counted, valid⟩
  · intro given
    obtain ⟨raw, read, admitted⟩ := given
    unfold verify
    rw [read, except_ok_bind]
    cases question with
    | noul question =>
        obtain ⟨member, number, rfl, value, nonneg, bounded⟩ := admitted
        refine ⟨.noul ⟨⟨number, nonneg, bounded⟩⟩, ?_⟩
        simp only [onlyMember_eq_some.mpr rfl,
          probability_ok_iff.mpr ⟨value, nonneg, bounded⟩, except_ok_bind,
          Probability.validate_of_mem nonneg bounded]
        rfl
    | choice question =>
        obtain ⟨items, values, shape, counted, valid⟩ := admitted
        have checked := distribution_ok_iff.mpr ⟨items, values, shape, counted, valid, rfl⟩
        obtain ⟨confidence, computed, nonneg, bounded⟩ := confidenceOf_ok (F := F)
          question.size.1 (values.map fun value => value / values.sum)
        obtain ⟨answer, built⟩ := choiceAnswer_ok question valid.normalised_range nonneg bounded
        refine ⟨.choice answer, ?_⟩
        simp only [Question.criteriaCount] at checked
        simp only [checked, computed, built, except_ok_bind]
        rfl
    | score question =>
        obtain ⟨items, values, shape, counted, valid⟩ := admitted
        have checked := distribution_ok_iff.mpr ⟨items, values, shape, counted, valid, rfl⟩
        obtain ⟨confidence, computed, nonneg, bounded⟩ := confidenceOf_ok (F := F)
          question.size.1 (values.map fun value => value / values.sum)
        obtain ⟨answer, built⟩ := scoreAnswer_ok question valid.normalised_range nonneg bounded
        refine ⟨.score answer, ?_⟩
        simp only [Question.criteriaCount] at checked
        simp only [checked, computed, built, except_ok_bind]
        rfl

theorem verify_refuses (text : Str) (question : Question) :
    Refuses (verify (F := F) text question) := by
  refine .bind (strictJson_refuses text) fun raw _ => ?_
  cases question with
  | noul question =>
      dsimp only
      cases onlyMember (lit "noul") raw with
      | none => exact .raise (by decide)
      | some value =>
          refine .bind (probability_refuses value) fun number checked => ?_
          obtain ⟨_, nonneg, bounded⟩ := probability_ok_iff.mp checked
          rw [Probability.validate_of_mem nonneg bounded]
          exact .ok _
  | choice question =>
      refine .bind (distribution_refuses _ raw) fun probabilities checked => ?_
      obtain ⟨items, values, _, _, valid, rfl⟩ := distribution_ok_iff.mp checked
      obtain ⟨confidence, computed, nonneg, bounded⟩ := confidenceOf_ok (F := F)
        question.size.1 (values.map fun value => value / values.sum)
      obtain ⟨answer, built⟩ := choiceAnswer_ok question valid.normalised_range nonneg bounded
      rw [computed, except_ok_bind, built]
      exact .ok _
  | score question =>
      refine .bind (distribution_refuses _ raw) fun probabilities checked => ?_
      obtain ⟨items, values, _, _, valid, rfl⟩ := distribution_ok_iff.mp checked
      obtain ⟨confidence, computed, nonneg, bounded⟩ := confidenceOf_ok (F := F)
        question.size.1 (values.map fun value => value / values.sum)
      obtain ⟨answer, built⟩ := scoreAnswer_ok question valid.normalised_range nonneg bounded
      rw [computed, except_ok_bind, built]
      exact .ok _

theorem verify_only (text : Str) (question : Question) :
    OnlyInvalidOutput (verify (F := F) text question) :=
  (verify_refuses text question).only

end Answers

end VllmVerifier

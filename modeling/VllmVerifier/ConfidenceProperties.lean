import VllmVerifier.AnswerProperties
import VllmVerifier.Entropy

/-!
The confidence of an accepted answer measures how concentrated its shares are:
certainty and uniformity are exactly the two ends of its range.
-/

set_option autoImplicit false

namespace VllmVerifier

open Python

/-- The numbers over their total. -/
def sharesOf (values : List ℚ) : List ℚ := values.map fun value => value / values.sum

def Answer.confidence? {F : Type} [LogField F] : Answer F → Option F
  | .choice answer => some answer.confidence.value
  | .score answer => some answer.confidence.value
  | .noul _ => none

/-- The entropy as computed: over the positive shares only. -/
noncomputable def shareEntropy (shares : List ℚ) : ℝ :=
  -((shares.filter fun share => decide (0 < share)).map fun share : ℚ =>
    (share : ℝ) * Real.log (share : ℝ)).sum

theorem shareEntropy_eq {shares : List ℚ} (nonneg : ∀ share ∈ shares, 0 ≤ share) :
    shareEntropy shares = Entropy.entropy (shares.map fun share : ℚ => (share : ℝ)) := by
  unfold shareEntropy Entropy.entropy
  induction shares with
  | nil => simp
  | cons share rest ih =>
      obtain ⟨headNonneg, restNonneg⟩ := List.forall_mem_cons.mp nonneg
      have tail := ih restNonneg
      rcases headNonneg.eq_or_lt with rfl | above
      · simpa using tail
      · rw [List.filter_cons, if_pos (decide_eq_true above), List.map_cons, List.sum_cons, neg_add,
          tail, List.map_cons, List.map_cons, List.sum_cons, Real.negMulLog, neg_mul]

theorem Acceptable.mass {values : List ℚ} (acceptable : Acceptable values) :
    Entropy.Mass ((sharesOf values).map fun share : ℚ => (share : ℝ)) := by
  constructor
  · intro share member
    obtain ⟨exact, present, rfl⟩ := List.mem_map.mp member
    exact_mod_cast (acceptable.normalised.range exact present).1
  · have total := sum_normalised acceptable.positive.ne'
    have cast := congrArg (fun sum : ℚ => (sum : ℝ)) total
    simp only [Rat.cast_one] at cast
    rw [← cast, sharesOf]
    exact (map_list_sum (Rat.castHom ℝ) _).symm

theorem confidenceOf_real {size : Nat} (several : 2 ≤ size) {shares : List ℚ} :
    confidenceOf size shares =
      .ok (max 0 (min 1 (1 - shareEntropy shares / Real.log (size : ℝ)))) := by
  have large : (1 : ℝ) < size := by
    exact_mod_cast several
  unfold confidenceOf
  rw [logTerms_ok, except_ok_bind, if_neg (by omega), mathLog_ok (zero_lt_one.trans large),
    except_ok_bind, divide_ok (LogField.log_pos large).ne', except_ok_bind]
  rfl

theorem confidenceOf_single (shares : List ℚ) : confidenceOf 1 shares = .ok (1 : ℝ) := by
  obtain ⟨confidence, computed, _⟩ := confidenceOf_ok (F := ℝ) Nat.one_pos shares
  rw [computed]
  obtain ⟨_, _, made⟩ := except_bind_ok computed
  exact congrArg Except.ok (Except.ok.inj made).symm

/-- The ends of the range of the unclamped confidence. -/
theorem concentration {values : List ℚ} (acceptable : Acceptable values)
    (several : 2 ≤ values.length) :
    0 ≤ 1 - shareEntropy (sharesOf values) / Real.log values.length ∧
      1 - shareEntropy (sharesOf values) / Real.log values.length ≤ 1 ∧
      (1 - shareEntropy (sharesOf values) / Real.log values.length = 1 ↔
        ((sharesOf values).filter fun share => decide (share ≠ 0)).length = 1) ∧
      (1 - shareEntropy (sharesOf values) / Real.log values.length = 0 ↔
        ∀ left ∈ sharesOf values, ∀ right ∈ sharesOf values, left = right) := by
  have mass := acceptable.mass
  have scale : 0 < Real.log (values.length : ℝ) := Real.log_pos (by exact_mod_cast several)
  have computed : shareEntropy (sharesOf values) =
      Entropy.entropy ((sharesOf values).map fun share : ℚ => (share : ℝ)) :=
    shareEntropy_eq fun share member => (acceptable.normalised.range share member).1
  have counted : ((sharesOf values).map fun share : ℚ => (share : ℝ)).length = values.length := by
    simp [sharesOf]
  have lower := mass.entropy_nonneg
  have upper := mass.entropy_le_log
  have certain := mass.entropy_eq_zero_iff
  have uniform := mass.entropy_eq_log_iff
  rw [counted] at upper uniform
  rw [← computed] at lower upper certain uniform
  refine ⟨?_, ?_, ?_, ?_⟩
  · rw [sub_nonneg, div_le_one scale]
    exact upper
  · rw [sub_le_self_iff]
    exact div_nonneg lower scale.le
  · rw [sub_eq_self, div_eq_zero_iff, or_iff_left scale.ne', certain, List.filter_map,
      List.length_map]
    simp [Function.comp_def]
  · rw [sub_eq_zero, eq_comm, div_eq_one_iff_eq scale.ne', uniform]
    simp

theorem verify_confidence {F : Type} [LogField F] {text : Str} {question : Question}
    {answer : Answer F} {values : List ℚ} (lists : Lists text question.criteriaCount values)
    (accepted : verify text question = .ok answer) :
    Acceptable values ∧ ∃ confidence,
      confidenceOf question.criteriaCount (sharesOf values) = .ok confidence ∧
        answer.confidence? = some confidence := by
  have validated : ∀ {confidence : F} {valid : Probability F},
      Probability.validate confidence = .ok valid → valid.value = confidence := by
    intro confidence valid checked
    unfold Probability.validate at checked
    split at checked
    · cases checked
      rfl
    · cases checked
  cases question with
  | noul question =>
      obtain ⟨items, read, counted, _⟩ := lists
      rw [verify, read, except_ok_bind] at accepted
      simp [onlyMember, lit] at accepted
  | choice question =>
      obtain ⟨values', reported, lists', staged, rfl⟩ := verify_choice_iff.mp accepted
      rw [lists'.unique lists] at staged
      obtain ⟨probabilities, normalised, continuation⟩ := except_bind_ok staged
      obtain ⟨acceptable, rfl⟩ := normalise_ok_iff.mp normalised
      obtain ⟨confidence, computed, answering⟩ := except_bind_ok continuation
      refine ⟨acceptable, confidence, computed, ?_⟩
      obtain ⟨index, _, labelling⟩ := except_bind_ok answering
      cases found : question.criteria.keys[index]? with
      | none => simp [found, bind, Except.bind] at labelling
      | some label =>
          simp only [found, except_ok_bind] at labelling
          obtain ⟨dict, built, rest⟩ := except_bind_ok labelling
          obtain ⟨valid, checked, made⟩ := except_bind_ok rest
          cases made
          exact congrArg some (validated checked)
  | score question =>
      obtain ⟨values', reported, lists', staged, rfl⟩ := verify_score_iff.mp accepted
      rw [lists'.unique lists] at staged
      obtain ⟨probabilities, normalised, continuation⟩ := except_bind_ok staged
      obtain ⟨acceptable, rfl⟩ := normalise_ok_iff.mp normalised
      obtain ⟨confidence, computed, answering⟩ := except_bind_ok continuation
      refine ⟨acceptable, confidence, computed, ?_⟩
      obtain ⟨dict, built, rest⟩ := except_bind_ok answering
      obtain ⟨valid, checked, made⟩ := except_bind_ok rest
      cases made
      exact congrArg some (validated checked)

theorem Lists.count_of_accepted {F : Type} [LogField F] {text : Str} {question : Question}
    {answer : Answer F} {values : List ℚ} (lists : Lists text question.criteriaCount values)
    (accepted : verify text question = .ok answer) : 1 ≤ question.criteriaCount := by
  obtain ⟨acceptable, _⟩ := verify_confidence lists accepted
  rw [← lists.counted]
  cases values with
  | nil => exact absurd acceptable.positive (by simp)
  | cons => exact Nat.succ_pos _

/-- The confidence of an accepted answer is the unclamped measure of its shares,
with certainty and uniformity as its ends, and one for a single criterion, whose
logarithm is never divided by. It does not depend on the order of the criteria. -/
theorem confidence_measures_concentration {text : Str} {question : Question}
    {answer : Answer ℝ} {values : List ℚ} (lists : Lists text question.criteriaCount values)
    (accepted : verify text question = .ok answer) :
    ∃ confidence, answer.confidence? = some confidence ∧
      (2 ≤ question.criteriaCount →
        confidence = 1 - shareEntropy (sharesOf values) / Real.log question.criteriaCount ∧
        (0 ≤ confidence ∧ confidence ≤ 1) ∧
        (confidence = 1 ↔
          ((sharesOf values).filter fun share => decide (share ≠ 0)).length = 1) ∧
        (confidence = 0 ↔ ∀ left ∈ sharesOf values, ∀ right ∈ sharesOf values, left = right)) ∧
      (question.criteriaCount = 1 →
        confidence = 1 ∧ confidenceOf 1 (sharesOf values) = .ok (1 : ℝ) ∧
          ∀ entropy : ℝ, (mathLog ((1 : Nat) : ℝ) >>= divide entropy) = .error .zeroDivisionError) ∧
      ∀ (text' : Str) (question' : Question) (answer' : Answer ℝ) (values' : List ℚ),
        Lists text' question'.criteriaCount values' → verify text' question' = .ok answer' →
          values.Perm values' → answer'.confidence? = some confidence := by
  obtain ⟨acceptable, confidence, computed, shown⟩ := verify_confidence lists accepted
  refine ⟨confidence, shown, fun several => ?_, fun single => ?_,
    fun text' question' answer' values' lists' accepted' moved => ?_⟩
  · obtain ⟨lower, upper, certain, uniform⟩ :=
      concentration acceptable (lists.counted ▸ several)
    rw [lists.counted] at lower upper certain uniform
    rw [confidenceOf_real several, min_eq_right upper, max_eq_right lower] at computed
    cases computed
    exact ⟨rfl, ⟨lower, upper⟩, certain, uniform⟩
  · rw [single, confidenceOf_single] at computed
    cases computed
    refine ⟨rfl, confidenceOf_single _, fun entropy => ?_⟩
    rw [mathLog_ok (by norm_num), except_ok_bind]
    simp [divide, LogField.log]
  · obtain ⟨acceptable', confidence', computed', shown'⟩ := verify_confidence lists' accepted'
    have sizes : question'.criteriaCount = question.criteriaCount := by
      rw [← lists.counted, ← lists'.counted, moved.length_eq]
    have shares : (sharesOf values).Perm (sharesOf values') := by
      unfold sharesOf
      rw [moved.sum_eq]
      exact moved.map _
    have nonneg : ∀ share ∈ sharesOf values, 0 ≤ share :=
      fun share member => (acceptable.normalised.range share member).1
    have nonneg' : ∀ share ∈ sharesOf values', 0 ≤ share :=
      fun share member => (acceptable'.normalised.range share member).1
    have entropies : shareEntropy (sharesOf values') = shareEntropy (sharesOf values) := by
      rw [shareEntropy_eq nonneg, shareEntropy_eq nonneg']
      exact (Entropy.entropy_perm (shares.map _)).symm
    rw [shown', Option.some.injEq]
    rw [sizes] at computed'
    rcases (lists.count_of_accepted accepted).eq_or_lt with single | several
    · rw [← single, confidenceOf_single] at computed computed'
      exact Except.ok.inj (computed'.symm.trans computed)
    · rw [confidenceOf_real several, entropies] at computed'
      rw [confidenceOf_real several] at computed
      exact Except.ok.inj (computed'.symm.trans computed)

theorem confidence_measures_concentration_certain :
    ∃ (answer : Answer ℝ) (values : List ℚ) (confidence : ℝ),
      Lists certainText (Question.choice twoLabels).criteriaCount values ∧
        verify certainText (.choice twoLabels) = .ok answer ∧
        answer.confidence? = some confidence ∧ 0 ≤ confidence ∧ confidence ≤ 1 := by
  obtain ⟨answer, accepted⟩ := certainText_accepted (.choice twoLabels) rfl
  obtain ⟨values, _, lists, _, _⟩ := verify_choice_iff.mp accepted
  obtain ⟨confidence, shown, several, _⟩ :=
    @confidence_measures_concentration _ (.choice twoLabels) _ _ lists accepted
  obtain ⟨_, range, _⟩ := several (by decide)
  exact ⟨answer, values, confidence, lists, accepted, shown, range⟩

end VllmVerifier

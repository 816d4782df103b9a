import VllmVerifier.AnswerProperties
import VllmVerifier.Decision.Readout

/-!
What `candidate_answer` accepts and reports. The vector is not normalised, so
the score of an accepted vector can lie above the top level.
-/

set_option autoImplicit false

namespace VllmVerifier.Decision

open Python

/-! ## Acceptance -/

/-- The vector consists of these numbers, and they pass the checks. -/
structure Accepts (question : Question) (vector : List PyFloat) (values : List ℚ) : Prop where
  finite : vector = values.map .finite
  counted : values.length = candidateCount question
  range : ∀ value ∈ values, 0 ≤ value ∧ value ≤ 1
  total : |values.sum - 1| ≤ 2 / 100000

theorem Accepts.lower {question : Question} {vector : List PyFloat} {values : List ℚ}
    (accepts : Accepts question vector values) : 99998 / 100000 ≤ values.sum := by
  have bound := (abs_le.mp accepts.total).1
  linarith

theorem Accepts.upper {question : Question} {vector : List PyFloat} {values : List ℚ}
    (accepts : Accepts question vector values) : values.sum ≤ 100002 / 100000 := by
  have bound := (abs_le.mp accepts.total).2
  linarith

theorem candidateProbability_ok_iff {number : PyFloat} {value : ℚ} :
    candidateProbability number = .ok value ↔
      number = .finite value ∧ 0 ≤ value ∧ value ≤ 1 := by
  cases number with
  | finite found =>
      by_cases range : 0 ≤ found ∧ found ≤ 1
      · simp only [candidateProbability, range, and_self, if_true, Except.ok.injEq,
          PyFloat.finite.injEq]
        constructor
        · intro same
          subst same
          exact ⟨rfl, range⟩
        · exact fun known => known.1
      · simp only [candidateProbability, range, if_false, reduceCtorEq, PyFloat.finite.injEq,
          false_iff, not_and]
        intro same nonneg
        subst same
        exact fun bounded => range ⟨nonneg, bounded⟩
  | nan | infinity | negInfinity => simp [candidateProbability]

theorem candidateProbabilities_ok_iff {vector : List PyFloat} {values : List ℚ} :
    vector.mapM candidateProbability = .ok values ↔
      vector = values.map .finite ∧ ∀ value ∈ values, 0 ≤ value ∧ value ≤ 1 := by
  rw [mapM_ok_iff]
  constructor
  · intro related
    induction related with
    | nil => simp
    | cons head _ ih =>
        obtain ⟨rfl, range⟩ := candidateProbability_ok_iff.mp head
        exact ⟨by rw [ih.1, List.map_cons], List.forall_mem_cons.mpr ⟨range, ih.2⟩⟩
  · intro given
    obtain ⟨rfl, range⟩ := given
    exact List.forall₂_map_left_iff.mpr (List.forall₂_same.mpr fun value member =>
      candidateProbability_ok_iff.mpr ⟨rfl, range value member⟩)

section Readout

variable {F : Type} [LogField F]

/-- The answer from the numbers of an accepted vector. -/
def readout (question : Question) (values : List ℚ) : Except PyException (Answer F) :=
  match question with
  | .noul _ => do
      let noul ← at? values 1
      let noul ← Probability.validate noul
      pure (.noul ⟨noul⟩)
  | .choice question => do
      let confidence ← maxBy id values
      let answer ← choiceAnswer question values (confidence : F)
      pure (.choice answer)
  | .score question => do
      let confidence ← maxBy id values
      let answer ← scoreAnswer question values (confidence : F)
      pure (.score answer)

theorem candidateAnswer_ok_iff {question : Question} {vector : List PyFloat} {answer : Answer F} :
    candidateAnswer question vector = .ok answer ↔
      ∃ values, Accepts question vector values ∧ readout question values = .ok answer := by
  constructor
  · intro success
    unfold candidateAnswer at success
    split at success
    · rename_i counted
      obtain ⟨values, checked, continuation⟩ := except_bind_ok success
      obtain ⟨shape, range⟩ := candidateProbabilities_ok_iff.mp checked
      split at continuation
      · cases continuation
      · rename_i tolerated
        have same : values.length = candidateCount question := by
          rw [← counted, shape, List.length_map]
        exact ⟨values, ⟨shape, same, range, not_lt.mp tolerated⟩, continuation⟩
    · cases success
  · intro given
    obtain ⟨values, ⟨rfl, counted, range, total⟩, read⟩ := given
    have checked := candidateProbabilities_ok_iff.mpr ⟨rfl, range⟩
    have size : (values.map PyFloat.finite).length = candidateCount question := by
      rw [List.length_map, counted]
    have tolerated : ¬ 2 / 100000 < |fsum values - 1| := not_lt.mpr total
    unfold candidateAnswer
    rw [if_pos size, checked, except_ok_bind, if_neg tolerated]
    exact read

/-! ## What is reported -/

/-- The confidence is a largest number of the vector. -/
def Largest (values : List ℚ) (confidence : F) : Prop :=
  ∃ top ∈ values, (∀ value ∈ values, value ≤ top) ∧ confidence = (top : F)

theorem maxBy_largest {values : List ℚ} {top : ℚ} (largest : maxBy id values = .ok top) :
    Largest values (top : F) := by
  obtain ⟨before, after, shape, below, atMost⟩ := maxBy_first largest
  refine ⟨top, by simp [shape], fun value member => ?_, rfl⟩
  rw [shape] at member
  rcases List.mem_append.mp member with earlier | later
  · exact (below value earlier).le
  · rcases List.mem_cons.mp later with rfl | later
    · exact le_rfl
    · exact atMost value later

theorem readout_total {question : Question} {vector : List PyFloat} {values : List ℚ}
    (accepts : Accepts question vector values) :
    ∃ answer : Answer F, readout question values = .ok answer := by
  have positive : 0 < values.sum := lt_of_lt_of_le (by norm_num) accepts.lower
  have nonempty : values ≠ [] := by
    intro same
    subst same
    simp at positive
  obtain ⟨top, member, largest⟩ := maxBy_ok id values nonempty
  obtain ⟨nonneg, bounded⟩ := accepts.range top member
  have nonneg' : (0 : F) ≤ (top : F) := by exact_mod_cast nonneg
  have bounded' : (top : F) ≤ 1 := by exact_mod_cast bounded
  cases question with
  | noul question =>
      have two : values.length = 2 := accepts.counted
      have found : at? values 1 = .ok (values.get ⟨1, by omega⟩) := by
        rw [at?, List.getElem?_eq_getElem (by omega)]
        rfl
      obtain ⟨lower, upper⟩ := accepts.range _ (List.get_mem values ⟨1, by omega⟩)
      simp only [readout, found, except_ok_bind, Probability.validate_of_mem lower upper]
      exact ⟨_, rfl⟩
  | choice question =>
      obtain ⟨answer, built⟩ := choiceAnswer_ok question accepts.range nonneg' bounded'
      simp only [readout, largest, except_ok_bind, built]
      exact ⟨_, rfl⟩
  | score question =>
      obtain ⟨answer, built⟩ := scoreAnswer_ok question accepts.range nonneg' bounded'
      simp only [readout, largest, except_ok_bind, built]
      exact ⟨_, rfl⟩

theorem candidateAnswer_total {question : Question} {vector : List PyFloat} {values : List ℚ}
    (accepts : Accepts question vector values) :
    ∃ answer : Answer F, candidateAnswer question vector = .ok answer := by
  obtain ⟨answer, read⟩ := readout_total (F := F) accepts
  exact ⟨answer, candidateAnswer_ok_iff.mpr ⟨values, accepts, read⟩⟩

theorem candidateAnswer_choice {question : Choice} {vector : List PyFloat} {answer : Answer F}
    (accepted : candidateAnswer (.choice question) vector = .ok answer) :
    ∃ values reported confidence, Accepts (.choice question) vector values ∧
      answer = .choice reported ∧ Largest values confidence ∧
        ChoiceReported question values confidence reported := by
  obtain ⟨values, accepts, read⟩ := candidateAnswer_ok_iff.mp accepted
  obtain ⟨top, largest, continuation⟩ := except_bind_ok read
  obtain ⟨reported, built, made⟩ := except_bind_ok continuation
  cases made
  exact ⟨values, reported, top, accepts, rfl, maxBy_largest largest,
    choiceAnswer_reported accepts.counted built⟩

theorem candidateAnswer_score {question : Score} {vector : List PyFloat} {answer : Answer F}
    (accepted : candidateAnswer (.score question) vector = .ok answer) :
    ∃ values reported confidence, Accepts (.score question) vector values ∧
      answer = .score reported ∧ Largest values confidence ∧
        ScoreReported question values confidence reported := by
  obtain ⟨values, accepts, read⟩ := candidateAnswer_ok_iff.mp accepted
  obtain ⟨top, largest, continuation⟩ := except_bind_ok read
  obtain ⟨reported, built, made⟩ := except_bind_ok continuation
  cases made
  exact ⟨values, reported, top, accepts, rfl, maxBy_largest largest,
    scoreAnswer_reported accepts.counted built⟩

/-! ## The scale of a score -/

/-- The score is an expected level, and the legend names the levels around it. -/
structure OnScale (question : Score) (reported : ScoreAnswer F) : Prop where
  nonneg : 0 ≤ reported.score
  bounded : reported.score ≤ question.criteria.length - 1
  floor : (reported.legend.get? (Json.intRepr ⌊reported.score⌋)).isSome
  ceiling : (reported.legend.get? (Json.intRepr ⌈reported.score⌉)).isSome

/-- The numbers weighted with the distance of their level from the top level. -/
def shortfall (values : List ℚ) : ℚ :=
  (values.zipIdx.map fun entry => (values.length - 1 - entry.2 : ℚ) * entry.1).sum

theorem expectation_add_shortfall (values : List ℚ) :
    (values.zipIdx.map fun entry => (entry.2 : ℚ) * entry.1).sum + shortfall values =
      (values.length - 1) * values.sum := by
  unfold shortfall
  rw [← List.sum_map_add]
  have each : ∀ entry : ℚ × Nat, (entry.2 : ℚ) * entry.1 +
      (values.length - 1 - entry.2 : ℚ) * entry.1 = (values.length - 1) * entry.1 := by
    intro entry
    ring
  simp only [each]
  rw [List.sum_map_mul_left, List.zipIdx_map_fst]

theorem legend_isSome {question : Score} {probabilities : List ℚ} {confidence : F}
    {reported : ScoreAnswer F} (report : ScoreReported question probabilities confidence reported)
    {level : ℤ} (nonneg : 0 ≤ level) (below : level < question.criteria.length) :
    (reported.legend.get? (Json.intRepr level)).isSome := by
  obtain ⟨index, rfl⟩ := Int.eq_ofNat_of_zero_le nonneg
  have inside : index < question.criteria.length := by exact_mod_cast below
  have key : Json.intRepr index = indexKey index := by
    simp [Json.intRepr, indexKey]
  rw [key, Option.isSome_iff_exists]
  refine ⟨question.criteria.get ⟨index, inside⟩, Dict.get?_eq_some_iff.mpr ?_⟩
  rw [report.legend, List.mem_iff_getElem?]
  exact ⟨index, by simp [inside]⟩

theorem onScale_iff {question : Score} {values : List ℚ} {confidence : F}
    {reported : ScoreAnswer F} (counted : values.length = question.criteria.length)
    (nonneg : ∀ value ∈ values, 0 ≤ value)
    (report : ScoreReported question values confidence reported) :
    OnScale question reported ↔
      (question.criteria.length - 1) * (values.sum - 1) ≤ shortfall values := by
  have balance := expectation_add_shortfall values
  rw [← report.score, counted] at balance
  have lower : 0 ≤ reported.score := by
    rw [report.score]
    exact (expectation_range nonneg 0).1
  constructor
  · intro scale
    have bounded := scale.bounded
    linarith
  · intro covered
    have bounded : reported.score ≤ question.criteria.length - 1 := by linarith
    have top : reported.score ≤ ((question.criteria.length - 1 : ℤ) : ℚ) := by
      push_cast
      exact bounded
    have below : ⌈reported.score⌉ < question.criteria.length :=
      Int.lt_of_le_sub_one (Int.ceil_le.mpr top)
    refine ⟨lower, bounded, ?_, ?_⟩
    · exact legend_isSome report (Int.floor_nonneg.mpr lower)
        (lt_of_le_of_lt (Int.floor_le_ceil _) below)
    · exact legend_isSome report (Int.ceil_nonneg lower) below

/-- A score is on its scale exactly when the weight that the vector keeps below
the top level makes up for what its sum has above one. -/
theorem score_on_scale_iff {question : Score} {vector : List PyFloat} {answer : Answer F}
    (accepted : candidateAnswer (.score question) vector = .ok answer) :
    ∃ values reported, vector = values.map .finite ∧ answer = .score reported ∧
      (OnScale question reported ↔
        (question.criteria.length - 1) * (values.sum - 1) ≤ shortfall values) := by
  obtain ⟨values, reported, confidence, accepts, rfl, _, report⟩ := candidateAnswer_score accepted
  exact ⟨values, reported, accepts.finite, rfl,
    onScale_iff accepts.counted (fun value member => (accepts.range value member).1) report⟩

theorem shortfall_nonneg {values : List ℚ} (nonneg : ∀ value ∈ values, 0 ≤ value) :
    0 ≤ shortfall values := by
  refine List.sum_nonneg fun term member => ?_
  obtain ⟨entry, listed, rfl⟩ := List.mem_map.mp member
  have found := List.mem_zipIdx_iff_getElem?.mp listed
  have below : (entry.2 : ℚ) + 1 ≤ values.length := by
    exact_mod_cast (List.getElem?_eq_some_iff.mp found).1
  exact mul_nonneg (by linarith) (nonneg entry.1 (List.mem_of_getElem? found))

section Remarks

variable {question : Score} {values : List ℚ} {reported : ScoreAnswer F}

theorem accepted_score
    (accepted : candidateAnswer (.score question) (values.map .finite) = .ok (.score reported)) :
    values.length = question.criteria.length ∧ (∀ value ∈ values, 0 ≤ value ∧ value ≤ 1) ∧
      (OnScale question reported ↔
        (question.criteria.length - 1) * (values.sum - 1) ≤ shortfall values) := by
  obtain ⟨own, answer, confidence, accepts, same, _, report⟩ := candidateAnswer_score accepted
  cases same
  cases (List.map_injective_iff.mpr fun _ _ => PyFloat.finite.inj) accepts.finite
  exact ⟨accepts.counted, accepts.range,
    onScale_iff accepts.counted (fun value member => (accepts.range value member).1) report⟩

/-- A vector whose sum is at most one keeps its score on the scale. -/
theorem score_on_scale_of_sum
    (accepted : candidateAnswer (.score question) (values.map .finite) = .ok (.score reported))
    (small : values.sum ≤ 1) : OnScale question reported := by
  obtain ⟨counted, range, onScale⟩ := accepted_score accepted
  have levels : (1 : ℚ) ≤ question.criteria.length := by exact_mod_cast question.size.1
  have kept := shortfall_nonneg fun value member => (range value member).1
  have excess : (question.criteria.length - 1) * (values.sum - 1) ≤ (0 : ℚ) :=
    mul_nonpos_of_nonneg_of_nonpos (by linarith) (by linarith)
  exact onScale.mpr (excess.trans kept)

/-- Of two levels every accepted vector has its score on the scale. -/
theorem score_on_scale_of_two
    (accepted : candidateAnswer (.score question) (values.map .finite) = .ok (.score reported))
    (two : question.criteria.length = 2) : OnScale question reported := by
  obtain ⟨counted, range, onScale⟩ := accepted_score accepted
  obtain ⟨low, high, rfl⟩ := List.length_eq_two.mp (counted.trans two)
  have top := (range high (by simp)).2
  refine onScale.mpr ?_
  rw [two]
  norm_num [shortfall]
  linarith

end Remarks

end Readout

def threeLevels : Score where
  instructions := none
  criteria := List.replicate 3 plainLevel
  size := by decide

/-- A rounded softmax: the sum exceeds one by less than the tolerance. -/
def excessValues : List ℚ := [0, 1 / 131072, 1]

private theorem excess_accepted :
    ∃ answer : Answer ℝ, candidateAnswer (.score threeLevels) (excessValues.map .finite) =
      .ok answer := by
  refine candidateAnswer_total ⟨rfl, rfl, ?_, ?_⟩
  · decide +kernel
  · decide +kernel

theorem score_on_scale_excess :
    ∃ reported : ScoreAnswer ℝ,
      candidateAnswer (.score threeLevels) (excessValues.map .finite) = .ok (.score reported) ∧
        (OnScale threeLevels reported ↔ (3 - 1) * (excessValues.sum - 1) ≤ shortfall excessValues) := by
  obtain ⟨answer, accepted⟩ := excess_accepted
  obtain ⟨values, reported, same, rfl, onScale⟩ := score_on_scale_iff accepted
  have equal : excessValues = values :=
    (List.map_injective_iff.mpr fun _ _ => PyFloat.finite.inj) same
  subst equal
  exact ⟨reported, accepted, onScale⟩

/-- The score of these values lies above the top level, and the legend has no
entry for its ceiling. -/
theorem score_above_scale :
    ∃ reported : ScoreAnswer ℝ,
      candidateAnswer (.score threeLevels) (excessValues.map .finite) = .ok (.score reported) ∧
        reported.score = 2 + 1 / 131072 ∧
        reported.legend.get? (Json.intRepr ⌈reported.score⌉) = none ∧
        ¬ OnScale threeLevels reported := by
  obtain ⟨answer, accepted⟩ := excess_accepted
  obtain ⟨values, reported, confidence, accepts, rfl, _, report⟩ := candidateAnswer_score accepted
  have equal : excessValues = values :=
    (List.map_injective_iff.mpr fun _ _ => PyFloat.finite.inj) accepts.finite
  subst equal
  have score : reported.score = 2 + 1 / 131072 := by
    rw [report.score]
    decide +kernel
  have ceiling : ⌈reported.score⌉ = 3 := by
    rw [score]
    decide +kernel
  refine ⟨reported, accepted, score, ?_, fun scale => ?_⟩
  · have keys : reported.legend.keys = ["0", "1", "2"].map lit := by
      rw [Dict.keys, report.legend]
      decide +kernel
    rw [ceiling, Dict.get?, Dict.lookupEntries_eq_none_iff, ← Dict.keys, keys]
    decide +kernel
  · have bounded := scale.bounded
    rw [score] at bounded
    norm_num [threeLevels] at bounded

end VllmVerifier.Decision

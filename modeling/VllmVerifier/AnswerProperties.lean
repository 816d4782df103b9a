import VllmVerifier.Json.AlphabetProperties
import VllmVerifier.Json.DumpsProperties
import VllmVerifier.VerificationProperties

/-!
What an accepted answer reports: the listed numbers over their total, attached
to the criteria in order, with the first largest one or the expectation. The
numeric stage depends on the numbers only up to a common factor.
-/

set_option autoImplicit false

namespace VllmVerifier

open Python

/-! ## The numeric stage -/

section Stage

/-- The range check, the sum check and the normalisation of numbers. -/
def normalise (values : List ℚ) : Except PyException (List ℚ) := do
  let probabilities ← values.mapM fun value =>
    if 0 ≤ value ∧ value ≤ 1 then .ok value
    else .error (.invalidOutput "probabilities must be finite numbers between zero and one")
  let total := fsum probabilities
  if |total - 1| > 1 / 100 ∨ total = 0 then
    .error (.invalidOutput "probabilities must sum to one (rounding tolerance 0.01)")
  else probabilities.mapM fun value => divideExact value total

variable {F : Type} [LogField F]

/-- What `verify` makes of the numbers of a choice. -/
def choiceStage (question : Choice) (values : List ℚ) : Except PyException (ChoiceAnswer F) := do
  let probabilities ← normalise values
  let confidence ← confidenceOf question.criteria.entries.length probabilities
  choiceAnswer question probabilities confidence

/-- What `verify` makes of the numbers of a score. -/
def scoreStage (question : Score) (values : List ℚ) : Except PyException (ScoreAnswer F) := do
  let probabilities ← normalise values
  let confidence ← confidenceOf question.criteria.length probabilities
  scoreAnswer question probabilities confidence

end Stage

/-- The completion lists these numbers, one per criterion. -/
def Lists (text : Str) (size : Nat) (values : List ℚ) : Prop :=
  ∃ items, strictJson text = .ok (.object [(lit "probabilities", .array items)]) ∧
    items.length = size ∧
      List.Forall₂ (fun item value => numberValue item = some value) items values

/-- Numbers from zero to one that sum to one within the tolerance. -/
structure Acceptable (values : List ℚ) : Prop where
  range : ∀ value ∈ values, 0 ≤ value ∧ value ≤ 1
  lower : 99 / 100 ≤ values.sum
  upper : values.sum ≤ 101 / 100

theorem Acceptable.positive {values : List ℚ} (acceptable : Acceptable values) :
    0 < values.sum :=
  lt_of_lt_of_le (by norm_num) acceptable.lower

theorem normalise_ok_iff {values probabilities : List ℚ} :
    normalise values = .ok probabilities ↔
      Acceptable values ∧ probabilities = values.map fun value => value / values.sum := by
  have each : ∀ value result : ℚ,
      (if 0 ≤ value ∧ value ≤ 1 then (.ok value : Except PyException ℚ)
      else .error (.invalidOutput "probabilities must be finite numbers between zero and one")) =
        .ok result ↔ (0 ≤ value ∧ value ≤ 1) ∧ result = value := by
    intro value result
    split <;> simp_all [eq_comm]
  unfold normalise
  constructor
  · intro success
    obtain ⟨results, read, continuation⟩ := except_bind_ok success
    obtain ⟨range, rfl⟩ := (mapM_ok_map_iff each).mp read
    rw [List.map_id'] at continuation
    dsimp only at continuation
    split at continuation
    · cases continuation
    · rename_i tolerated
      obtain ⟨lower, upper⟩ := (tolerance_iff _).mp tolerated
      have nonzero : fsum values ≠ 0 := fun zero => tolerated (.inr zero)
      rw [mapM_total fun value _ => divideExact_ok nonzero] at continuation
      cases continuation
      exact ⟨⟨range, lower, upper⟩, rfl⟩
  · intro given
    obtain ⟨acceptable, rfl⟩ := given
    have tolerated := (tolerance_iff (fsum values)).mpr ⟨acceptable.lower, acceptable.upper⟩
    have nonzero : fsum values ≠ 0 := fun zero => tolerated (.inr zero)
    rw [(mapM_ok_map_iff each).mpr ⟨acceptable.range, (List.map_id' values).symm⟩, except_ok_bind]
    dsimp only
    rw [if_neg tolerated, mapM_total fun value _ => divideExact_ok nonzero]
    rfl

/-- The checks of a completion are the reading of its numbers and their checks. -/
theorem distribution_eq_normalise {raw : Json} {size : Nat} {probabilities : List ℚ} :
    distribution size raw = .ok probabilities ↔
      ∃ items values, raw = .object [(lit "probabilities", .array items)] ∧
        items.length = size ∧
        List.Forall₂ (fun item value => numberValue item = some value) items values ∧
        normalise values = .ok probabilities := by
  rw [distribution_ok_iff]
  constructor
  · intro given
    obtain ⟨items, values, shape, counted, accepted, rfl⟩ := given
    exact ⟨items, values, shape, counted, accepted.numbers,
      normalise_ok_iff.mpr ⟨⟨accepted.range, accepted.lower, accepted.upper⟩, rfl⟩⟩
  · intro given
    obtain ⟨items, values, shape, counted, numbers, normalised⟩ := given
    obtain ⟨acceptable, rfl⟩ := normalise_ok_iff.mp normalised
    exact ⟨items, values, shape, counted,
      ⟨numbers, acceptable.range, acceptable.lower, acceptable.upper⟩, rfl⟩

section Reading

variable {F : Type} [LogField F]

/-- Reading a completion splits into the list of numbers and the numeric stage. -/
private theorem reading_iff {α : Type} {size : Nat} {build : List ℚ → F → Except PyException α}
    {wrap : α → Answer F} {text : Str} {answer : Answer F} :
    (do
      let raw ← strictJson text
      let probabilities ← distribution size raw
      let confidence ← confidenceOf size probabilities
      let reported ← build probabilities confidence
      pure (wrap reported)) = Except.ok answer ↔
      ∃ values reported, Lists text size values ∧
        (do
          let probabilities ← normalise values
          let confidence ← confidenceOf size probabilities
          build probabilities confidence) = Except.ok reported ∧ answer = wrap reported := by
  constructor
  · intro accepted
    obtain ⟨raw, read, continuation⟩ := except_bind_ok accepted
    obtain ⟨probabilities, checked, rest⟩ := except_bind_ok continuation
    obtain ⟨items, values, rfl, counted, numbers, normalised⟩ :=
      distribution_eq_normalise.mp checked
    obtain ⟨confidence, computed, answering⟩ := except_bind_ok rest
    obtain ⟨reported, built, made⟩ := except_bind_ok answering
    cases made
    refine ⟨values, reported, ⟨items, read, counted, numbers⟩, ?_, rfl⟩
    rw [normalised, except_ok_bind, computed, except_ok_bind, built]
  · intro given
    obtain ⟨values, reported, ⟨items, read, counted, numbers⟩, staged, rfl⟩ := given
    obtain ⟨probabilities, normalised, continuation⟩ := except_bind_ok staged
    obtain ⟨confidence, computed, built⟩ := except_bind_ok continuation
    have checked := distribution_eq_normalise.mpr
      ⟨items, values, rfl, counted, numbers, normalised⟩
    simp only [read, checked, computed, built, except_ok_bind]
    rfl

theorem verify_choice_iff {text : Str} {question : Choice} {answer : Answer F} :
    verify text (.choice question) = .ok answer ↔
      ∃ values reported, Lists text question.criteria.entries.length values ∧
        choiceStage question values = .ok reported ∧ answer = .choice reported :=
  reading_iff

theorem verify_score_iff {text : Str} {question : Score} {answer : Answer F} :
    verify text (.score question) = .ok answer ↔
      ∃ values reported, Lists text question.criteria.length values ∧
        scoreStage question values = .ok reported ∧ answer = .score reported :=
  reading_iff

end Reading

/-! ## Normalised numbers -/

theorem sum_scale (scale : ℚ) (values : List ℚ) :
    (values.map fun value => scale * value).sum = scale * values.sum :=
  by simpa using List.sum_map_mul_left values id scale

theorem sum_normalised {values : List ℚ} (nonzero : values.sum ≠ 0) :
    (values.map fun value => value / values.sum).sum = 1 := by
  simp only [div_eq_mul_inv]
  rw [List.sum_map_mul_right, List.map_id', mul_inv_cancel₀ nonzero]

theorem Acceptable.normalised {values : List ℚ} (acceptable : Acceptable values) :
    Acceptable (values.map fun value => value / values.sum) := by
  have total := sum_normalised acceptable.positive.ne'
  refine ⟨fun value member => ?_, by rw [total]; norm_num, by rw [total]; norm_num⟩
  obtain ⟨raw, rawMember, rfl⟩ := List.mem_map.mp member
  have nonneg := (acceptable.range raw rawMember).1
  have bounded : raw ≤ values.sum :=
    List.single_le_sum (fun value member => (acceptable.range value member).1) raw rawMember
  exact ⟨div_nonneg nonneg acceptable.positive.le,
    (div_le_one acceptable.positive).mpr bounded⟩

theorem normalise_again {values probabilities : List ℚ}
    (normalised : normalise values = .ok probabilities) :
    normalise probabilities = .ok probabilities := by
  obtain ⟨acceptable, rfl⟩ := normalise_ok_iff.mp normalised
  refine normalise_ok_iff.mpr ⟨acceptable.normalised, ?_⟩
  rw [sum_normalised acceptable.positive.ne']
  simp

theorem normalise_scale {scale : ℚ} {values probabilities scaled : List ℚ}
    (normalised : normalise values = .ok probabilities)
    (rescaled : normalise (values.map fun value => scale * value) = .ok scaled) :
    scaled = probabilities := by
  obtain ⟨acceptable, rfl⟩ := normalise_ok_iff.mp normalised
  obtain ⟨acceptable', rfl⟩ := normalise_ok_iff.mp rescaled
  have positive := acceptable'.positive
  rw [sum_scale] at positive
  have nonzero : scale ≠ 0 := by
    intro same
    subst same
    simp at positive
  rw [sum_scale, List.map_map]
  apply List.map_congr_left
  intro value _
  exact mul_div_mul_left value values.sum nonzero

/-! ## Readouts -/

theorem maxBy_first {α : Type} {key : α → ℚ} {candidates : List α} {best : α}
    (chosen : maxBy key candidates = .ok best) :
    ∃ before after, candidates = before ++ best :: after ∧
      (∀ candidate ∈ before, key candidate < key best) ∧
      ∀ candidate ∈ after, key candidate ≤ key best := by
  have kept : ∀ (rest before after : List α) (top : α),
      (∀ candidate ∈ before, key candidate < key top) →
      (∀ candidate ∈ after, key candidate ≤ key top) →
      ∃ before' after' best', rest.foldl
          (fun best candidate => if key best < key candidate then candidate else best) top = best' ∧
        before ++ top :: after ++ rest = before' ++ best' :: after' ∧
        (∀ candidate ∈ before', key candidate < key best') ∧
        ∀ candidate ∈ after', key candidate ≤ key best' := by
    intro rest
    induction rest with
    | nil =>
        intro before after top below atMost
        exact ⟨before, after, top, rfl, by simp, below, atMost⟩
    | cons next rest ih =>
        intro before after top below atMost
        rw [List.foldl_cons]
        by_cases larger : key top < key next
        · rw [if_pos larger]
          have above : ∀ candidate ∈ before ++ top :: after, key candidate < key next := by
            intro candidate member
            rcases List.mem_append.mp member with member | member
            · exact (below candidate member).trans larger
            · rcases List.mem_cons.mp member with rfl | member
              · exact larger
              · exact (atMost candidate member).trans_lt larger
          obtain ⟨before', after', best', folded, shape, first, last⟩ :=
            ih (before ++ top :: after) [] next above (by simp)
          exact ⟨before', after', best', folded, by simpa using shape, first, last⟩
        · rw [if_neg larger]
          have within : ∀ candidate ∈ after ++ [next], key candidate ≤ key top := by
            intro candidate member
            rcases List.mem_append.mp member with member | member
            · exact atMost candidate member
            · rw [List.mem_singleton.mp member]
              exact not_lt.mp larger
          obtain ⟨before', after', best', folded, shape, first, last⟩ :=
            ih before (after ++ [next]) top below within
          exact ⟨before', after', best', folded, by simpa using shape, first, last⟩
  cases candidates with
  | nil => cases chosen
  | cons first rest =>
      obtain ⟨before, after, best', folded, shape, below, atMost⟩ :=
        kept rest [] [] first (by simp) (by simp)
      cases chosen
      rw [folded]
      exact ⟨before, after, by simpa using shape, below, atMost⟩

/-- The first position of a largest number. -/
def FirstMaximum (values : List ℚ) (index : Nat) : Prop :=
  ∃ top, values[index]? = some top ∧ (∀ value ∈ values, value ≤ top) ∧
    ∀ earlier value, earlier < index → values[earlier]? = some value → value < top

theorem FirstMaximum.unique {values : List ℚ} {left right : Nat}
    (first : FirstMaximum values left) (second : FirstMaximum values right) : left = right := by
  obtain ⟨top, found, largest, earliest⟩ := first
  obtain ⟨top', found', largest', earliest'⟩ := second
  rcases Nat.lt_trichotomy left right with before | same | after
  · exact absurd (largest top' (List.mem_of_getElem? found'))
      (not_le.mpr (earliest' left top before found))
  · exact same
  · exact absurd (largest' top (List.mem_of_getElem? found))
      (not_le.mpr (earliest right top' after found'))

theorem maxBy_range {values : List ℚ} {index : Nat}
    (chosen : maxBy (fun index => values.getD index 0) (List.range values.length) = .ok index) :
    FirstMaximum values index := by
  obtain ⟨before, after, shape, below, atMost⟩ := maxBy_first chosen
  have present : index ∈ List.range values.length := by
    rw [shape]
    simp
  have found := List.getElem?_eq_getElem (List.mem_range.mp present)
  have read : ∀ {position : Nat} {value : ℚ}, values[position]? = some value →
      values.getD position 0 = value := by
    intro position value known
    rw [List.getD_eq_getElem?_getD, known, Option.getD_some]
  have placed : ∀ {position : Nat} {value : ℚ}, values[position]? = some value →
      position ∈ before ++ index :: after := by
    intro position value known
    rw [← shape]
    exact List.mem_range.mpr (List.getElem?_eq_some_iff.mp known).1
  have sorted := List.pairwise_lt_range (n := values.length)
  rw [shape, List.pairwise_append, List.pairwise_cons] at sorted
  refine ⟨_, found, fun value member => ?_, fun earlier value smaller known => ?_⟩
  · obtain ⟨position, known⟩ := List.getElem?_of_mem member
    rw [← read known, ← read found]
    rcases List.mem_append.mp (placed known) with earlier | later
    · exact (below position earlier).le
    · rcases List.mem_cons.mp later with rfl | later
      · exact le_rfl
      · exact atMost position later
  · rw [← read known, ← read found]
    rcases List.mem_append.mp (placed known) with before | later
    · exact below earlier before
    · rcases List.mem_cons.mp later with rfl | later
      · exact absurd smaller (Nat.lt_irrefl _)
      · exact absurd smaller (Nat.not_lt.mpr (sorted.2.1.1 earlier later).le)

theorem indexKey_injective : Function.Injective indexKey := by
  intro left right same
  rw [← (Json.natRepr_shows left).value, ← (Json.natRepr_shows right).value]
  exact congrArg Json.digitsValue same

theorem indexKeys_distinct (count : Nat) : ((List.range count).map indexKey).Nodup :=
  List.nodup_range.map indexKey_injective

theorem probabilityDict_entries {keys : List Str} {probabilities : List ℚ}
    {dict : Dict Str (Probability ℚ)} (distinct : keys.Nodup)
    (counted : keys.length = probabilities.length)
    (built : probabilityDict keys probabilities = .ok dict) :
    dict.keys = keys ∧ dict.values.map Probability.value = probabilities := by
  obtain ⟨checked, valid, made⟩ := except_bind_ok built
  have related := mapM_ok_iff.mp valid
  have lengths : keys.length = checked.length := counted.trans related.length_eq
  have numbers : checked.map Probability.value = probabilities := by
    rw [← List.map_id probabilities]
    refine (forall₂_map_eq (related.imp fun value result known => ?_)).symm
    unfold Probability.validate at known
    split at known
    · cases known
      rfl
    · cases known
  cases made
  rw [Dict.keys, Dict.values, Dict.entries_ofPairs (by
    rw [List.map_fst_zip (Nat.le_of_eq lengths)]
    exact distinct)]
  rw [List.map_fst_zip (Nat.le_of_eq lengths), List.map_snd_zip (Nat.le_of_eq lengths.symm)]
  exact ⟨rfl, numbers⟩

/-- The expectation of the positions lies between the first and the last. -/
theorem expectation_range {values : List ℚ} (nonneg : ∀ value ∈ values, 0 ≤ value) (start : Nat) :
    0 ≤ ((values.zipIdx start).map fun entry => (entry.2 : ℚ) * entry.1).sum ∧
      ((values.zipIdx start).map fun entry => (entry.2 : ℚ) * entry.1).sum ≤
        (start + values.length - 1) * values.sum := by
  induction values generalizing start with
  | nil => simp
  | cons value rest ih =>
      obtain ⟨headNonneg, restNonneg⟩ := List.forall_mem_cons.mp nonneg
      obtain ⟨lower, upper⟩ := ih restNonneg (start + 1)
      rw [List.zipIdx_cons, List.map_cons, List.sum_cons, List.sum_cons, List.length_cons]
      push_cast at upper ⊢
      have first : (0 : ℚ) ≤ start * value := mul_nonneg (Nat.cast_nonneg _) headNonneg
      have spread : (0 : ℚ) ≤ rest.length * value := mul_nonneg (Nat.cast_nonneg _) headNonneg
      exact ⟨by linarith, by linarith⟩

theorem FirstMaximum.of_normalised {values : List ℚ} {index : Nat} (positive : 0 < values.sum)
    (first : FirstMaximum (values.map fun value => value / values.sum) index) :
    FirstMaximum values index := by
  obtain ⟨_, found, largest, earliest⟩ := first
  rw [List.getElem?_map, Option.map_eq_some_iff] at found
  obtain ⟨top, known, rfl⟩ := found
  refine ⟨top, known, fun value member => ?_, fun earlier value smaller read => ?_⟩
  · have bounded := largest _ (List.mem_map.mpr ⟨value, member, rfl⟩)
    exact (div_le_div_iff_of_pos_right positive).mp bounded
  · have below := earliest earlier (value / values.sum) smaller (by
      rw [List.getElem?_map, read, Option.map_some])
    exact (div_lt_div_iff_of_pos_right positive).mp below

theorem Lists.unique {text : Str} {size : Nat} {left right : List ℚ}
    (leftLists : Lists text size left) (rightLists : Lists text size right) : left = right := by
  obtain ⟨items, read, -, numbers⟩ := leftLists
  obtain ⟨items', read', -, numbers'⟩ := rightLists
  cases read.symm.trans read'
  clear read read'
  induction numbers generalizing right with
  | nil =>
      cases numbers'
      rfl
  | cons head _ ih =>
      cases numbers' with
      | cons head' tail' =>
          rw [Option.some.inj (head.symm.trans head'), ih tail']

/-! ## What is reported -/

section Reported

variable {F : Type} [LogField F]

/-- The probabilities by label, the first label with a largest one, and the confidence. -/
structure ChoiceReported (question : Choice) (probabilities : List ℚ) (confidence : F)
    (reported : ChoiceAnswer F) : Prop where
  attached : reported.probabilities.keys = question.criteria.keys
  numbers : reported.probabilities.values.map Probability.value = probabilities
  chosen : ∃ index, question.criteria.keys[index]? = some reported.choice ∧
    FirstMaximum probabilities index
  confident : reported.confidence.value = confidence

/-- The probabilities by level, their expected level, the confidence and the levels. -/
structure ScoreReported (question : Score) (probabilities : List ℚ) (confidence : F)
    (reported : ScoreAnswer F) : Prop where
  attached : reported.probabilities.keys = (List.range question.criteria.length).map indexKey
  numbers : reported.probabilities.values.map Probability.value = probabilities
  score : reported.score =
    (probabilities.zipIdx.map fun entry => (entry.2 : ℚ) * entry.1).sum
  legend : reported.legend.entries =
    ((List.range question.criteria.length).map indexKey).zip question.criteria
  confident : reported.confidence.value = confidence

private theorem validate_value {value : F} {checked : Probability F}
    (valid : Probability.validate value = .ok checked) : checked.value = value := by
  unfold Probability.validate at valid
  split at valid
  · cases valid
    rfl
  · cases valid

theorem choiceAnswer_reported {question : Choice} {probabilities : List ℚ} {confidence : F}
    {reported : ChoiceAnswer F} (counted : probabilities.length = question.criteria.entries.length)
    (built : choiceAnswer question probabilities confidence = .ok reported) :
    ChoiceReported question probabilities confidence reported := by
  have keyCount : question.criteria.keys.length = probabilities.length := by
    rw [Dict.keys, List.length_map, counted]
  obtain ⟨index, best, labelling⟩ := except_bind_ok built
  obtain ⟨label, found⟩ : ∃ label, question.criteria.keys[index]? = some label := by
    cases found : question.criteria.keys[index]? with
    | none => simp [found, bind, Except.bind] at labelling
    | some label => exact ⟨label, rfl⟩
  simp only [found, except_ok_bind] at labelling
  obtain ⟨dict, filled, rest⟩ := except_bind_ok labelling
  obtain ⟨checked, valid, made⟩ := except_bind_ok rest
  cases made
  obtain ⟨attached, numbers⟩ := probabilityDict_entries question.criteria.distinct keyCount filled
  refine ⟨attached, numbers, ⟨index, found, maxBy_range ?_⟩, validate_value valid⟩
  rw [← keyCount]
  exact best

theorem scoreAnswer_reported {question : Score} {probabilities : List ℚ} {confidence : F}
    {reported : ScoreAnswer F} (counted : probabilities.length = question.criteria.length)
    (built : scoreAnswer question probabilities confidence = .ok reported) :
    ScoreReported question probabilities confidence reported := by
  obtain ⟨dict, filled, rest⟩ := except_bind_ok built
  obtain ⟨checked, valid, made⟩ := except_bind_ok rest
  cases made
  obtain ⟨attached, numbers⟩ :=
    probabilityDict_entries (indexKeys_distinct question.criteria.length) (by simp [counted]) filled
  refine ⟨attached, numbers, rfl, ?_, validate_value valid⟩
  apply Dict.entries_ofPairs
  rw [List.map_fst_zip (by simp)]
  exact indexKeys_distinct _

end Reported

/-! ## Coherence -/

/-- The reported probabilities are the numbers over their total, in order. -/
structure Shares (values : List ℚ) (keys : List Str) (reported : Dict Str (Probability ℚ)) :
    Prop where
  counted : values.length = keys.length
  attached : reported.keys = keys
  numbers : reported.values.map Probability.value = values.map fun value => value / values.sum
  range : ∀ share ∈ reported.values, 0 ≤ share.value ∧ share.value ≤ 1
  total : (reported.values.map Probability.value).sum = 1

section Coherence

variable {F : Type} [LogField F]

structure ChoiceCoherent (question : Choice) (values : List ℚ) (reported : ChoiceAnswer F) :
    Prop where
  shares : Shares values question.criteria.keys reported.probabilities
  chosen : ∃ index, question.criteria.keys[index]? = some reported.choice ∧
    FirstMaximum values index
  again : choiceStage question (reported.probabilities.values.map Probability.value) = .ok reported
  rescaled : ∀ (scale : ℚ) (other : ChoiceAnswer F),
    choiceStage question (values.map fun value => scale * value) = .ok other → other = reported

structure ScoreCoherent (question : Score) (values : List ℚ) (reported : ScoreAnswer F) :
    Prop where
  shares : Shares values ((List.range question.criteria.length).map indexKey)
    reported.probabilities
  score : reported.score =
    (values.zipIdx.map fun entry => (entry.2 : ℚ) * entry.1).sum / values.sum
  scoreRange : 0 ≤ reported.score ∧ reported.score ≤ question.criteria.length - 1
  legend : reported.legend.entries =
    ((List.range question.criteria.length).map indexKey).zip question.criteria
  again : scoreStage question (reported.probabilities.values.map Probability.value) = .ok reported
  rescaled : ∀ (scale : ℚ) (other : ScoreAnswer F),
    scoreStage question (values.map fun value => scale * value) = .ok other → other = reported

private theorem shares_of_reported {values : List ℚ} {keys : List Str}
    {dict : Dict Str (Probability ℚ)} (acceptable : Acceptable values)
    (counted : values.length = keys.length) (attached : dict.keys = keys)
    (numbers : dict.values.map Probability.value = values.map fun value => value / values.sum) :
    Shares values keys dict := by
  refine ⟨counted, attached, numbers, fun share _ => ⟨share.nonneg, share.le_one⟩, ?_⟩
  rw [numbers, sum_normalised acceptable.positive.ne']

/-- The expected level of the shares is the expected level over the total. -/
theorem expectation_normalised (values : List ℚ) :
    ((values.map fun value => value / values.sum).zipIdx.map fun entry =>
        (entry.2 : ℚ) * entry.1).sum =
      (values.zipIdx.map fun entry => (entry.2 : ℚ) * entry.1).sum / values.sum := by
  rw [List.zipIdx_map, List.map_map, div_eq_mul_inv, ← List.sum_map_mul_right]
  congr 1
  apply List.map_congr_left
  intro entry _
  simp only [Function.comp_apply, Prod.map_snd, Prod.map_fst, id_eq]
  rw [div_eq_mul_inv, mul_assoc]

theorem choiceStage_coherent {question : Choice} {values : List ℚ} {reported : ChoiceAnswer F}
    (counted : values.length = question.criteria.entries.length)
    (staged : choiceStage question values = .ok reported) :
    ChoiceCoherent question values reported := by
  have keyCount : values.length = question.criteria.keys.length := by
    rw [Dict.keys, List.length_map, counted]
  obtain ⟨probabilities, normalised, continuation⟩ := except_bind_ok staged
  obtain ⟨acceptable, shape⟩ := normalise_ok_iff.mp normalised
  obtain ⟨confidence, computed, answering⟩ := except_bind_ok continuation
  have report := choiceAnswer_reported (by simp [shape, counted]) answering
  have shares : Shares values question.criteria.keys reported.probabilities :=
    shares_of_reported acceptable keyCount report.attached (shape ▸ report.numbers)
  obtain ⟨index, found, first⟩ := report.chosen
  rw [shape] at first
  refine ⟨shares, ⟨index, found, first.of_normalised acceptable.positive⟩, ?_,
    fun scale other restaged => ?_⟩
  · rw [report.numbers, choiceStage, normalise_again normalised]
    exact continuation
  · obtain ⟨probabilities', normalised', continuation'⟩ := except_bind_ok restaged
    rw [normalise_scale normalised normalised', continuation] at continuation'
    exact (Except.ok.inj continuation').symm

theorem scoreStage_coherent {question : Score} {values : List ℚ} {reported : ScoreAnswer F}
    (counted : values.length = question.criteria.length)
    (staged : scoreStage question values = .ok reported) :
    ScoreCoherent question values reported := by
  obtain ⟨probabilities, normalised, continuation⟩ := except_bind_ok staged
  obtain ⟨acceptable, shape⟩ := normalise_ok_iff.mp normalised
  obtain ⟨confidence, computed, answering⟩ := except_bind_ok continuation
  have report := scoreAnswer_reported (by simp [shape, counted]) answering
  have shares : Shares values ((List.range question.criteria.length).map indexKey)
      reported.probabilities :=
    shares_of_reported acceptable (by simp [counted]) report.attached (shape ▸ report.numbers)
  have expectation : reported.score =
      (values.zipIdx.map fun entry => (entry.2 : ℚ) * entry.1).sum / values.sum := by
    rw [report.score, shape, expectation_normalised]
  obtain ⟨lower, upper⟩ :=
    expectation_range (fun value member => (acceptable.range value member).1) 0
  refine ⟨shares, expectation, ?_, report.legend, ?_, fun scale other restaged => ?_⟩
  · rw [expectation, div_le_iff₀ acceptable.positive]
    refine ⟨div_nonneg lower acceptable.positive.le, ?_⟩
    rw [← counted]
    simpa using upper
  · rw [report.numbers, scoreStage, normalise_again normalised]
    exact continuation
  · obtain ⟨probabilities', normalised', continuation'⟩ := except_bind_ok restaged
    rw [normalise_scale normalised normalised', continuation] at continuation'
    exact (Except.ok.inj continuation').symm

theorem Lists.counted {text : Str} {size : Nat} {values : List ℚ} (lists : Lists text size values) :
    values.length = size := by
  obtain ⟨items, _, counted, numbers⟩ := lists
  rw [← counted, numbers.length_eq]

/-- An accepted answer is coherent with the numbers the completion lists, and
every accepted completion that lists a multiple of them gets the same answer. -/
theorem verify_coherent (text : Str) :
    (∀ (question : Choice) (answer : Answer F), verify text (.choice question) = .ok answer →
      ∃ values reported, Lists text question.criteria.entries.length values ∧
        answer = .choice reported ∧ ChoiceCoherent question values reported ∧
        ∀ (scale : ℚ) (other : Str) (answer' : Answer F),
          Lists other question.criteria.entries.length (values.map fun value => scale * value) →
          verify other (.choice question) = .ok answer' → answer' = answer) ∧
    (∀ (question : Score) (answer : Answer F), verify text (.score question) = .ok answer →
      ∃ values reported, Lists text question.criteria.length values ∧
        answer = .score reported ∧ ScoreCoherent question values reported ∧
        ∀ (scale : ℚ) (other : Str) (answer' : Answer F),
          Lists other question.criteria.length (values.map fun value => scale * value) →
          verify other (.score question) = .ok answer' → answer' = answer) := by
  constructor
  · intro question answer accepted
    obtain ⟨values, reported, lists, staged, rfl⟩ := verify_choice_iff.mp accepted
    have coherent := choiceStage_coherent lists.counted staged
    refine ⟨values, reported, lists, rfl, coherent, fun scale other answer' relists again => ?_⟩
    obtain ⟨values', reported', lists', staged', rfl⟩ := verify_choice_iff.mp again
    rw [lists'.unique relists] at staged'
    rw [coherent.rescaled scale reported' staged']
  · intro question answer accepted
    obtain ⟨values, reported, lists, staged, rfl⟩ := verify_score_iff.mp accepted
    have coherent := scoreStage_coherent lists.counted staged
    refine ⟨values, reported, lists, rfl, coherent, fun scale other answer' relists again => ?_⟩
    obtain ⟨values', reported', lists', staged', rfl⟩ := verify_score_iff.mp again
    rw [lists'.unique relists] at staged'
    rw [coherent.rescaled scale reported' staged']

end Coherence

section Answerable

open Json

variable {F : Type} [LogField F]

/-! ## Completions that are accepted -/

private theorem strictJson_braced {inner : Str} {value : Json}
    (document : Document value (ord '{' :: inner ++ [ord '}']))
    (distinct : value.distinctNames = true) :
    strictJson (ord '{' :: inner ++ [ord '}']) = .ok value := by
  have opening : Str.isspace (ord '{') = false := by decide
  have closing : Str.isspace (ord '}') = false := by decide
  have stripped : Str.strip (ord '{' :: inner ++ [ord '}']) = ord '{' :: inner ++ [ord '}'] := by
    simp [Str.strip, Str.rstrip, Str.lstrip, opening, closing]
  have bare : unfence (ord '{' :: inner ++ [ord '}']) = ord '{' :: inner ++ [ord '}'] := rfl
  rw [strictJson_ok_iff, stripped, bare]
  exact ⟨document, distinct⟩

theorem strictJson_dumps {layout : Layout} (spaced : layout.Spaced) {members : List (Str × Json)}
    {text : Str} (nonempty : members ≠ []) (distinct : (Json.object members).distinctNames = true)
    (written : dumps layout (.object members) = some text) :
    strictJson text = .ok (.object members) := by
  obtain ⟨inner, rfl, _⟩ := (dumps_derives spaced _ written).object_inv nonempty
  exact strictJson_braced (dumps_document spaced written) distinct

/-- All the weight on the first of some criteria. -/
def certainItems (others : Nat) : List Json :=
  .number (.int 1) :: List.replicate others (.number (.int 0))

theorem certainItems_distribution (others : Nat) :
    Distribution (certainItems others) (1 :: List.replicate others 0) := by
  have zeros : List.Forall₂ (fun item value => numberValue item = some value)
      (List.replicate others (.number (.int 0))) (List.replicate others 0) := by
    induction others with
    | zero => exact .nil
    | succ others ih => exact .cons rfl ih
  constructor
  · exact .cons rfl zeros
  · intro value member
    rcases List.mem_cons.mp member with rfl | zero
    · norm_num
    · rw [List.eq_of_mem_replicate zero]
      norm_num
  · norm_num
  · norm_num

private theorem certainItems_plain (others : Nat) :
    distinctItems (certainItems others) = true ∧ finiteItems (certainItems others) = true := by
  unfold certainItems
  induction others with
  | zero => exact ⟨rfl, rfl⟩
  | succ others ih =>
      simp only [List.replicate_succ, distinctItems, finiteItems, Bool.and_eq_true] at ih ⊢
      exact ⟨⟨ih.1.1, rfl, ih.1.2⟩, ih.2.1, rfl, ih.2.2⟩

theorem exists_distribution {count : Nat} (positive : 1 ≤ count) :
    ∃ items values, items.length = count ∧ Distribution items values ∧
      distinctItems items = true ∧ finiteItems items = true := by
  have counted : (certainItems (count - 1)).length = count := by
    simp only [certainItems, List.length_cons, List.length_replicate]
    exact Nat.sub_add_cancel positive
  exact ⟨_, _, counted, certainItems_distribution _, certainItems_plain _⟩

/-- Every question has a text that `verify` accepts. -/
theorem Question.answerable (question : Question) :
    ∃ (text : Str) (answer : Answer F), verify text question = .ok answer := by
  have shaped : ∃ name value, question.Admits (.object [(name, value)]) ∧
      value.distinctNames = true ∧ value.finite = true := by
    cases question with
    | noul question =>
        exact ⟨lit "noul", .number (.int 0), ⟨_, 0, rfl, rfl, by norm_num⟩, rfl, rfl⟩
    | choice question =>
        obtain ⟨items, values, counted, valid, plain⟩ := exists_distribution question.size.1
        exact ⟨_, .array items, ⟨items, values, rfl, counted, valid⟩, plain⟩
    | score question =>
        obtain ⟨items, values, counted, valid, plain⟩ := exists_distribution question.size.1
        exact ⟨_, .array items, ⟨items, values, rfl, counted, valid⟩, plain⟩
  obtain ⟨name, value, admitted, distinct, finite⟩ := shaped
  have whole : (Json.object [(name, value)]).finite = true := by
    simp [Json.finite, finiteMembers, finite]
  have names : (Json.object [(name, value)]).distinctNames = true := by
    simp [distinctNames, distinctMembers, distinct]
  obtain ⟨text, written⟩ := Option.isSome_iff_exists.mp (dumps_isSome .compact _ whole)
  have read := strictJson_dumps compact_spaced (List.cons_ne_nil _ _) names written
  exact ⟨text, (verify_ok_iff text question).mpr ⟨_, read, admitted⟩⟩

end Answerable

def twoLabels : Choice where
  instructions := none
  criteria := ⟨[(lit "a", none), (lit "b", none)], by decide⟩
  size := by decide
  labels := by decide

def plainLevel : Content := ⟨.str (lit "a"), rfl, rfl, rfl⟩

def twoLevels : Score where
  instructions := none
  criteria := [plainLevel, ⟨.str (lit "b"), rfl, rfl, rfl⟩]
  size := by decide

def certainText : Str := lit "\x7b\"probabilities\":[1,0]\x7d"

theorem certainText_accepted (question : Question) (counted : question.criteriaCount = 2) :
    ∃ answer : Answer ℝ, verify certainText question = .ok answer := by
  have read : strictJson certainText = .ok (.object [(lit "probabilities",
      .array [.number (.int 1), .number (.int 0)])]) := by decide +kernel
  refine (verify_ok_iff certainText question).mpr ⟨_, read, ?_⟩
  have listed : Distribution [.number (.int 1), .number (.int 0)] [1, 0] :=
    certainItems_distribution 1
  cases question with
  | choice question => exact ⟨_, _, rfl, counted.symm, listed⟩
  | score question => exact ⟨_, _, rfl, counted.symm, listed⟩
  | noul question => cases counted

theorem verify_coherent_certain :
    (∃ values reported, Lists certainText 2 values ∧
      verify certainText (.choice twoLabels) = .ok (.choice reported) ∧
        ChoiceCoherent (F := ℝ) twoLabels values reported) ∧
    ∃ values reported, Lists certainText 2 values ∧
      verify certainText (.score twoLevels) = .ok (.score reported) ∧
        ScoreCoherent (F := ℝ) twoLevels values reported := by
  obtain ⟨choice, chosen⟩ := certainText_accepted (.choice twoLabels) rfl
  obtain ⟨score, scored⟩ := certainText_accepted (.score twoLevels) rfl
  have coherent := verify_coherent (F := ℝ) certainText
  constructor
  · obtain ⟨values, reported, lists, rfl, known, _⟩ := coherent.1 twoLabels choice chosen
    exact ⟨values, reported, lists, chosen, known⟩
  · obtain ⟨values, reported, lists, rfl, known, _⟩ := coherent.2 twoLevels score scored
    exact ⟨values, reported, lists, scored, known⟩

end VllmVerifier

import VllmVerifier.ConfidenceProperties
import VllmVerifier.Decision.ReadoutProperties
import VllmVerifier.Json.DecimalProperties

/-!
The two readouts of a vector. `candidate_answer` reports its numbers as they
are and `verify` reports them over their total, and neither depends on the
order in which the criteria of a choice are listed.
-/

set_option autoImplicit false

namespace VllmVerifier.Decision

open Python

section Agreement

variable {F : Type} [LogField F]

/-! ## Reports of permuted criteria -/

/-- The criteria of two choices with their numbers, the same up to their order. -/
structure Permuted (left right : Choice) (values permuted : List ℚ) : Prop where
  counted : values.length = left.criteria.entries.length
  recounted : permuted.length = right.criteria.entries.length
  together : (left.criteria.entries.zip values).Perm (right.criteria.entries.zip permuted)

namespace Permuted

variable {left right : Choice} {values permuted : List ℚ}

theorem numbers (permutation : Permuted left right values permuted) : values.Perm permuted := by
  have second := permutation.together.map Prod.snd
  rwa [List.map_snd_zip permutation.counted.le, List.map_snd_zip permutation.recounted.le] at second

theorem criteria (permutation : Permuted left right values permuted) :
    left.criteria.entries.Perm right.criteria.entries := by
  have first := permutation.together.map Prod.fst
  rwa [List.map_fst_zip permutation.counted.ge, List.map_fst_zip permutation.recounted.ge] at first

theorem labelled (permutation : Permuted left right values permuted) :
    (left.criteria.keys.zip values).Perm (right.criteria.keys.zip permuted) := by
  have named := permutation.together.map (Prod.map Prod.fst id)
  rwa [← List.zip_map_left, ← List.zip_map_left] at named

theorem map (permutation : Permuted left right values permuted) (f : ℚ → ℚ) :
    Permuted left right (values.map f) (permuted.map f) := by
  refine ⟨by simp [permutation.counted], by simp [permutation.recounted], ?_⟩
  rw [List.zip_map_right, List.zip_map_right]
  exact permutation.together.map _

theorem shares (permutation : Permuted left right values permuted) :
    Permuted left right (sharesOf values) (sharesOf permuted) := by
  unfold sharesOf
  rw [permutation.numbers.sum_eq]
  exact permutation.map _

end Permuted

/-- One number is larger than all the others. -/
def UniqueMaximum (values : List ℚ) : Prop :=
  ∃ (index : Nat) (top : ℚ), values[index]? = some top ∧
    ∀ (other : Nat) (value : ℚ), other ≠ index → values[other]? = some value → value < top

theorem UniqueMaximum.eq_of_largest {values : List ℚ} (unique : UniqueMaximum values)
    {left right : Nat} {first second : ℚ} (found : values[left]? = some first)
    (found' : values[right]? = some second) (largest : ∀ value ∈ values, value ≤ first)
    (largest' : ∀ value ∈ values, value ≤ second) : left = right := by
  obtain ⟨index, top, known, others⟩ := unique
  have located : ∀ {position : Nat} {value : ℚ}, values[position]? = some value →
      (∀ other ∈ values, other ≤ value) → position = index := by
    intro position value read bound
    by_contra different
    exact absurd (bound top (List.mem_of_getElem? known))
      (not_le.mpr (others position value different read))
  exact (located found largest).trans (located found' largest').symm

/-- What two reports of permuted criteria have in common. -/
structure Equivariant (left right : Choice) (reported permuted : ChoiceAnswer F) : Prop where
  keys : reported.probabilities.keys = left.criteria.keys
  permutedKeys : permuted.probabilities.keys = right.criteria.keys
  probabilities : ∀ label, permuted.probabilities.get? label = reported.probabilities.get? label
  confidence : permuted.confidence = reported.confidence

theorem label_mem {question : Choice} {probabilities : List ℚ} {confidence : F}
    {reported : ChoiceAnswer F}
    (report : ChoiceReported question probabilities confidence reported) :
    ∃ top, (reported.choice, top) ∈ question.criteria.keys.zip probabilities ∧
      ∀ value ∈ probabilities, value ≤ top := by
  obtain ⟨index, labelled, top, found, largest, _⟩ := report.chosen
  exact ⟨top, List.mem_of_getElem? (List.getElem?_zip_eq_some.mpr ⟨labelled, found⟩), largest⟩

private theorem probability_injective {G : Type} [Zero G] [One G] [LE G] :
    Function.Injective (Probability.value : Probability G → G) := by
  intro given other same
  obtain ⟨left, _, _⟩ := given
  obtain ⟨right, _, _⟩ := other
  cases same
  rfl

theorem mem_entries_iff {question : Choice} {probabilities : List ℚ} {confidence : F}
    {reported : ChoiceAnswer F}
    (report : ChoiceReported question probabilities confidence reported) {label : Str}
    {share : Probability ℚ} : (label, share) ∈ reported.probabilities.entries ↔
      (label, share.value) ∈ question.criteria.keys.zip probabilities := by
  have entries : reported.probabilities.entries =
      reported.probabilities.keys.zip reported.probabilities.values :=
    List.zip_of_prod rfl rfl
  have injective : Function.Injective (Prod.map id Probability.value : Str × Probability ℚ → _) :=
    Function.injective_id.prodMap probability_injective
  rw [entries, ← report.attached, ← report.numbers, List.zip_map_right]
  exact (List.mem_map_of_injective injective).symm

/-- Permuting the criteria with their numbers permutes the report; the label
stays when the largest number is unique. -/
theorem reports_permute {left right : Choice} {values permuted : List ℚ} {confidence : F}
    {reported reported' : ChoiceAnswer F} (permutation : Permuted left right values permuted)
    (report : ChoiceReported left values confidence reported)
    (report' : ChoiceReported right permuted confidence reported') :
    Equivariant left right reported reported' ∧
      (UniqueMaximum values → reported'.choice = reported.choice) := by
  refine ⟨⟨report.attached, report'.attached, fun label => ?_, ?_⟩, fun unique => ?_⟩
  · apply Option.ext
    intro share
    rw [Dict.get?_eq_some_iff, Dict.get?_eq_some_iff, mem_entries_iff report,
      mem_entries_iff report']
    exact permutation.labelled.mem_iff.symm
  · exact probability_injective (report'.confident.trans report.confident.symm)
  · obtain ⟨top, member, largest⟩ := label_mem report
    obtain ⟨top', member', largest'⟩ := label_mem report'
    obtain ⟨index, found⟩ := List.getElem?_of_mem member
    obtain ⟨index', found'⟩ := List.getElem?_of_mem (permutation.labelled.mem_iff.mpr member')
    obtain ⟨labelled, read⟩ := List.getElem?_zip_eq_some.mp found
    obtain ⟨labelled', read'⟩ := List.getElem?_zip_eq_some.mp found'
    have within : ∀ value ∈ values, value ≤ top' := fun value present =>
      largest' value (permutation.numbers.mem_iff.mp present)
    have same := unique.eq_of_largest read read' largest within
    subst same
    exact Option.some.inj (labelled'.symm.trans labelled)

private theorem finite_injective {left right : List ℚ}
    (same : left.map PyFloat.finite = right.map PyFloat.finite) : left = right :=
  List.map_injective_iff.mpr (fun _ _ => PyFloat.finite.inj) same

theorem Largest.unique {values permuted : List ℚ} {confidence other : F}
    (same : values.Perm permuted) (largest : Largest values confidence)
    (largest' : Largest permuted other) : confidence = other := by
  obtain ⟨top, member, bound, rfl⟩ := largest
  obtain ⟨top', member', bound', rfl⟩ := largest'
  exact congrArg _ (le_antisymm (bound' top (same.mem_iff.mp member))
    (bound top' (same.mem_iff.mpr member')))

theorem candidateAnswer_permutes {left right : Choice} {values permuted : List ℚ}
    {answer : Answer F} (permutation : Permuted left right values permuted)
    (accepted : candidateAnswer (.choice left) (values.map .finite) = .ok answer) :
    ∃ reported reported', answer = .choice reported ∧
      candidateAnswer (.choice right) (permuted.map .finite) = .ok (.choice reported') ∧
      Equivariant left right reported reported' ∧
      (UniqueMaximum values → reported'.choice = reported.choice) := by
  obtain ⟨values', reported, confidence, accepts, rfl, largest, report⟩ :=
    candidateAnswer_choice accepted
  cases finite_injective accepts.finite
  have accepts' : Accepts (.choice right) (permuted.map .finite) permuted := by
    refine ⟨rfl, permutation.recounted, fun value member => ?_, ?_⟩
    · exact accepts.range value (permutation.numbers.mem_iff.mpr member)
    · rw [← permutation.numbers.sum_eq]
      exact accepts.total
  obtain ⟨answer', accepted'⟩ := candidateAnswer_total (F := F) accepts'
  obtain ⟨permuted', reported', confidence', again, rfl, largest', report'⟩ :=
    candidateAnswer_choice accepted'
  cases finite_injective again.finite
  cases largest.unique permutation.numbers largest'
  exact ⟨reported, reported', rfl, accepted', reports_permute permutation report report'⟩

theorem choiceStage_reported {question : Choice} {values : List ℚ} {reported : ChoiceAnswer F}
    (counted : values.length = question.criteria.entries.length)
    (staged : choiceStage question values = .ok reported) :
    ∃ confidence, Acceptable values ∧
      confidenceOf question.criteria.entries.length (sharesOf values) = .ok confidence ∧
      ChoiceReported question (sharesOf values) confidence reported := by
  obtain ⟨probabilities, normalised, continuation⟩ := except_bind_ok staged
  obtain ⟨acceptable, rfl⟩ := normalise_ok_iff.mp normalised
  obtain ⟨confidence, computed, answering⟩ := except_bind_ok continuation
  have sized : (sharesOf values).length = question.criteria.entries.length := by
    rw [sharesOf, List.length_map, counted]
  exact ⟨confidence, acceptable, computed, choiceAnswer_reported sized answering⟩

theorem scoreStage_reported {question : Score} {values : List ℚ} {reported : ScoreAnswer F}
    (counted : values.length = question.criteria.length)
    (staged : scoreStage question values = .ok reported) :
    ∃ confidence, Acceptable values ∧
      ScoreReported question (sharesOf values) confidence reported := by
  obtain ⟨probabilities, normalised, continuation⟩ := except_bind_ok staged
  obtain ⟨acceptable, rfl⟩ := normalise_ok_iff.mp normalised
  obtain ⟨confidence, _, answering⟩ := except_bind_ok continuation
  have sized : (sharesOf values).length = question.criteria.length := by
    rw [sharesOf, List.length_map, counted]
  exact ⟨confidence, acceptable, scoreAnswer_reported sized answering⟩

theorem UniqueMaximum.shares {values : List ℚ} (positive : 0 < values.sum)
    (unique : UniqueMaximum values) : UniqueMaximum (sharesOf values) := by
  obtain ⟨index, top, found, others⟩ := unique
  refine ⟨index, top / values.sum, by simp [sharesOf, found], fun other value different read => ?_⟩
  rw [sharesOf, List.getElem?_map, Option.map_eq_some_iff] at read
  obtain ⟨number, known, rfl⟩ := read
  exact (div_lt_div_iff_of_pos_right positive).mpr (others other number different known)

private theorem admits_of_lists {question : Choice} {text : Str} {values : List ℚ}
    (acceptable : Acceptable values)
    (lists : Lists text question.criteria.entries.length values) :
    ∃ answer : Answer F, verify text (.choice question) = .ok answer := by
  obtain ⟨items, read, counted, numbers⟩ := lists
  exact (verify_ok_iff text (.choice question)).mpr ⟨_, read, items, values, rfl, counted,
    numbers, acceptable.range, acceptable.lower, acceptable.upper⟩

theorem verify_permutes {left right : Choice} {values permuted : List ℚ} {text other : Str}
    {answer : Answer F} (permutation : Permuted left right values permuted)
    (lists : Lists text left.criteria.entries.length values)
    (relists : Lists other right.criteria.entries.length permuted)
    (accepted : verify text (.choice left) = .ok answer) :
    ∃ reported reported', answer = .choice reported ∧
      verify other (.choice right) = .ok (.choice reported') ∧
      Equivariant left right reported reported' ∧
      (UniqueMaximum values → reported'.choice = reported.choice) := by
  obtain ⟨values', reported, lists', staged, rfl⟩ := verify_choice_iff.mp accepted
  cases lists'.unique lists
  obtain ⟨confidence, acceptable, computed, report⟩ :=
    choiceStage_reported permutation.counted staged
  have acceptable' : Acceptable permuted := by
    refine ⟨fun value member => ?_, ?_, ?_⟩
    · exact acceptable.range value (permutation.numbers.mem_iff.mpr member)
    · exact permutation.numbers.sum_eq ▸ acceptable.lower
    · exact permutation.numbers.sum_eq ▸ acceptable.upper
  obtain ⟨answer', accepted'⟩ := admits_of_lists (F := F) acceptable' relists
  obtain ⟨permuted', reported', relists', staged', rfl⟩ := verify_choice_iff.mp accepted'
  cases relists'.unique relists
  obtain ⟨confidence', _, computed', report'⟩ :=
    choiceStage_reported permutation.recounted staged'
  rw [permutation.criteria.length_eq, confidenceOf_perm _ permutation.shares.numbers,
    computed'] at computed
  cases computed
  obtain ⟨equivariant, sameLabel⟩ := reports_permute permutation.shares report report'
  exact ⟨reported, reported', rfl, accepted', equivariant,
    fun unique => sameLabel (unique.shares acceptable.positive)⟩

/-! ## The same vector as a completion -/

/-- The document that gives these numbers: for Noul the probability of yes. -/
def exactDocument (question : Question) (numbers : List Json) : Json :=
  match question with
  | .noul _ => .object [(lit "noul", numbers.getD 1 .null)]
  | .choice _ | .score _ => .object [(lit "probabilities", .array numbers)]

/-- The text writes the vector exactly. -/
def Writes (text : Str) (question : Question) (values : List ℚ) : Prop :=
  ∃ numbers, List.Forall₂ (fun number value => numberValue number = some value) numbers values ∧
    strictJson text = .ok (exactDocument question numbers)

/-- The same keys in the same order, and every probability over the total. -/
structure Rescaled (total : ℚ) (left right : Dict Str (Probability ℚ)) : Prop where
  keys : right.keys = left.keys
  values : right.values.map Probability.value =
    left.values.map fun share => share.value / total

/-- Two answers with the same reading, the second one normalised. -/
inductive SameReading (total : ℚ) : Answer F → Answer F → Prop where
  | noul {left right : NoulAnswer} (noul : right.noul = left.noul) :
      SameReading total (.noul left) (.noul right)
  | choice {left right : ChoiceAnswer F} (label : right.choice = left.choice)
      (shares : Rescaled total left.probabilities right.probabilities) :
      SameReading total (.choice left) (.choice right)
  | score {left right : ScoreAnswer F} (score : right.score = left.score / total)
      (legend : right.legend = left.legend)
      (shares : Rescaled total left.probabilities right.probabilities) :
      SameReading total (.score left) (.score right)

/-- The answer with its confidence left open. -/
def withoutConfidence : Answer F → Answer F
  | .noul answer => .noul answer
  | .choice answer => .choice { answer with confidence := ⟨0, le_rfl, zero_le_one⟩ }
  | .score answer => .score { answer with confidence := ⟨0, le_rfl, zero_le_one⟩ }

theorem Rescaled.eq_of_one {left right : Dict Str (Probability ℚ)}
    (rescaled : Rescaled 1 left right) : right = left := by
  have values : right.values = left.values := by
    refine List.map_injective_iff.mpr probability_injective ?_
    simpa using rescaled.values
  have entries : ∀ dict : Dict Str (Probability ℚ), dict.entries = dict.keys.zip dict.values :=
    fun dict => List.zip_of_prod rfl rfl
  ext1
  rw [entries right, entries left, rescaled.keys, values]

/-- Apart from the confidence the answers are equal when the total is one. -/
theorem SameReading.eq_of_one {left right : Answer F} (same : SameReading 1 left right) :
    withoutConfidence right = withoutConfidence left := by
  cases same with
  | @noul left right noul =>
      obtain ⟨value⟩ := left
      cases noul
      rfl
  | choice label shares => simp [withoutConfidence, label, shares.eq_of_one]
  | score score legend shares => simp [withoutConfidence, score, legend, shares.eq_of_one]

theorem Accepts.acceptable {question : Question} {vector : List PyFloat} {values : List ℚ}
    (accepts : Accepts question vector values) : Acceptable values :=
  ⟨accepts.range, le_trans (by norm_num) accepts.lower, le_trans accepts.upper (by norm_num)⟩

private theorem rescaled_of_shares {values : List ℚ} {keys : List Str}
    {left right : Dict Str (Probability ℚ)} (attached : left.keys = keys)
    (numbers : left.values.map Probability.value = values) (attached' : right.keys = keys)
    (numbers' : right.values.map Probability.value = sharesOf values) :
    Rescaled values.sum left right := by
  refine ⟨attached'.trans attached.symm, ?_⟩
  rw [numbers', sharesOf, ← numbers, List.map_map]
  rfl

theorem reports_agree {question : Choice} {values : List ℚ} {confidence other : F}
    {reported reported' : ChoiceAnswer F} (positive : 0 < values.sum)
    (report : ChoiceReported question values confidence reported)
    (report' : ChoiceReported question (sharesOf values) other reported') :
    SameReading values.sum (.choice reported) (.choice reported') := by
  obtain ⟨index, labelled, first⟩ := report.chosen
  obtain ⟨index', labelled', first'⟩ := report'.chosen
  cases first.unique (first'.of_normalised positive)
  exact .choice (Option.some.inj (labelled'.symm.trans labelled))
    (rescaled_of_shares report.attached report.numbers report'.attached report'.numbers)

theorem scores_agree {question : Score} {values : List ℚ} {confidence other : F}
    {reported reported' : ScoreAnswer F}
    (report : ScoreReported question values confidence reported)
    (report' : ScoreReported question (sharesOf values) other reported') :
    SameReading values.sum (.score reported) (.score reported') := by
  have score : reported'.score = reported.score / values.sum := by
    rw [report'.score, report.score]
    exact expectation_normalised values
  exact .score score (Dict.ext (report'.legend.trans report.legend.symm))
    (rescaled_of_shares report.attached report.numbers report'.attached report'.numbers)

theorem candidateAnswer_noul {question : Noul} {vector : List PyFloat} {answer : Answer F}
    (accepted : candidateAnswer (.noul question) vector = .ok answer) :
    ∃ values reported, Accepts (.noul question) vector values ∧
      answer = .noul reported ∧ values[1]? = some reported.noul.value := by
  obtain ⟨values, accepts, read⟩ := candidateAnswer_ok_iff.mp accepted
  obtain ⟨noul, found, continuation⟩ := except_bind_ok read
  obtain ⟨checked, valid, made⟩ := except_bind_ok continuation
  cases made
  refine ⟨values, ⟨checked⟩, accepts, rfl, ?_⟩
  rw [at?_ok found]
  unfold Probability.validate at valid
  split at valid
  · cases valid
    rfl
  · cases valid

/-- `verify` accepts what writes an accepted vector, and reads the same answer. -/
theorem verify_agrees {question : Question} {values : List ℚ} {answer : Answer F} {text : Str}
    (accepted : candidateAnswer question (values.map .finite) = .ok answer)
    (writes : Writes text question values) :
    ∃ answer', verify text question = .ok answer' ∧ SameReading values.sum answer answer' := by
  obtain ⟨numbers, related, read⟩ := writes
  cases question with
  | noul question =>
      obtain ⟨values', reported, accepts, rfl, found⟩ := candidateAnswer_noul accepted
      cases finite_injective accepts.finite
      obtain ⟨number, member, value⟩ : ∃ number, numbers[1]? = some number ∧
          numberValue number = some reported.noul.value := by
        obtain ⟨number, located, known⟩ := forall₂_getElem? related.flip found
        exact ⟨number, located, known⟩
      have range := accepts.range _ (List.mem_of_getElem? found)
      have document : exactDocument (.noul question) numbers = .object [(lit "noul", number)] := by
        rw [exactDocument, List.getD_eq_getElem?_getD, member, Option.getD_some]
      rw [document] at read
      have checked := probability_ok_iff.mpr ⟨value, range⟩
      refine ⟨.noul reported, ?_, .noul rfl⟩
      simp only [verify, read, except_ok_bind, onlyMember_eq_some.mpr rfl, checked,
        Probability.validate_of_mem range.1 range.2]
      rfl
  | choice question =>
      obtain ⟨values', reported, confidence, accepts, rfl, _, report⟩ :=
        candidateAnswer_choice accepted
      cases finite_injective accepts.finite
      have lists : Lists text question.criteria.entries.length values :=
        ⟨numbers, read, related.length_eq.trans accepts.counted, related⟩
      obtain ⟨answer', accepted'⟩ := admits_of_lists (F := F) accepts.acceptable lists
      obtain ⟨_, reported', lists', staged, rfl⟩ := verify_choice_iff.mp accepted'
      cases lists'.unique lists
      obtain ⟨confidence', acceptable, _, report'⟩ := choiceStage_reported accepts.counted staged
      exact ⟨_, accepted', reports_agree acceptable.positive report report'⟩
  | score question =>
      obtain ⟨values', reported, confidence, accepts, rfl, _, report⟩ :=
        candidateAnswer_score accepted
      cases finite_injective accepts.finite
      have acceptable := accepts.acceptable
      have counted := related.length_eq.trans accepts.counted
      have lists : Lists text question.criteria.length values := ⟨numbers, read, counted, related⟩
      obtain ⟨answer', accepted'⟩ : ∃ answer : Answer F, verify text (.score question) =
          .ok answer := (verify_ok_iff text (.score question)).mpr ⟨_, read, numbers, values, rfl,
            counted, related, acceptable.range, acceptable.lower, acceptable.upper⟩
      obtain ⟨_, reported', lists', staged, rfl⟩ := verify_score_iff.mp accepted'
      cases lists'.unique lists
      obtain ⟨confidence', _, report'⟩ := scoreStage_reported accepts.counted staged
      exact ⟨_, accepted', scores_agree report report'⟩

private theorem exactDocument_plain (question : Question) {numbers : List Json}
    (floats : ∀ number ∈ numbers, ∃ decimal, number = .number (.float decimal)) :
    (exactDocument question numbers).finite = true ∧
      (exactDocument question numbers).distinctNames = true := by
  have plain : ∀ number ∈ numbers, number.finite = true ∧ number.distinctNames = true := by
    intro number member
    obtain ⟨decimal, rfl⟩ := floats number member
    exact ⟨rfl, rfl⟩
  have items : Json.finiteItems numbers = true ∧ Json.distinctItems numbers = true := by
    clear floats
    induction numbers with
    | nil => exact ⟨rfl, rfl⟩
    | cons number rest ih =>
        obtain ⟨head, tail⟩ := List.forall_mem_cons.mp plain
        simp [Json.finiteItems, Json.distinctItems, head, ih tail]
  have second : (numbers[1]?.getD Json.null).finite = true ∧
      (numbers[1]?.getD Json.null).distinctNames = true := by
    cases found : numbers[1]? with
    | none => exact ⟨rfl, rfl⟩
    | some number => exact plain number (List.mem_of_getElem? found)
  cases question with
  | noul =>
      simp [exactDocument, Json.finite, Json.finiteMembers, Json.distinctNames,
        Json.distinctMembers, second]
  | choice | score =>
      simp [exactDocument, Json.finite, Json.finiteMembers, Json.distinctNames,
        Json.distinctMembers, items]

theorem exists_writes (question : Question) {values : List ℚ}
    (exact : ∀ value ∈ values, Json.Decimal.Finite value) {layout : Json.Layout}
    (spaced : layout.Spaced) :
    ∃ numbers text, Json.dumps layout (exactDocument question numbers) = some text ∧
      Writes text question values := by
  obtain ⟨decimals, spelled⟩ := exists_forall₂ fun value member => (exact value member).exists_toRat
  let numbers : List Json := decimals.map fun decimal => .number (.float decimal)
  have related : List.Forall₂ (fun number value => numberValue number = some value)
      numbers values := by
    refine List.forall₂_map_left_iff.mpr (spelled.flip.imp fun decimal value known => ?_)
    exact congrArg some known
  have floats : ∀ number ∈ numbers, ∃ decimal, number = .number (.float decimal) := by
    intro number member
    obtain ⟨decimal, _, rfl⟩ := List.mem_map.mp member
    exact ⟨decimal, rfl⟩
  obtain ⟨finite, distinct⟩ := exactDocument_plain question floats
  obtain ⟨text, written⟩ := Option.isSome_iff_exists.mp (Json.dumps_isSome layout _ finite)
  refine ⟨numbers, text, written, numbers, related, ?_⟩
  cases question with
  | noul | choice | score =>
      exact strictJson_dumps spaced (List.cons_ne_nil _ _) distinct written

/-- The readouts agree: what writes an accepted vector is accepted, and gives
the same answer over the total. Both are equivariant in the criteria. -/
theorem readouts_agree :
    (∀ (question : Question) (values : List ℚ) (answer : Answer F),
      (∀ value ∈ values, Json.Decimal.Finite value) →
      candidateAnswer question (values.map .finite) = .ok answer →
      (∀ layout : Json.Layout, layout.Spaced →
        ∃ numbers text, Json.dumps layout (exactDocument question numbers) = some text ∧
          Writes text question values) ∧
      ∀ text, Writes text question values →
        ∃ answer', verify text question = .ok answer' ∧ SameReading values.sum answer answer' ∧
          (values.sum = 1 → withoutConfidence answer' = withoutConfidence answer)) ∧
    (∀ (left right : Choice) (values permuted : List ℚ) (answer : Answer F),
      Permuted left right values permuted →
      candidateAnswer (.choice left) (values.map .finite) = .ok answer →
      ∃ reported reported', answer = .choice reported ∧
        candidateAnswer (.choice right) (permuted.map .finite) = .ok (.choice reported') ∧
        Equivariant left right reported reported' ∧
        (UniqueMaximum values → reported'.choice = reported.choice)) ∧
    ∀ (left right : Choice) (values permuted : List ℚ) (text other : Str) (answer : Answer F),
      Permuted left right values permuted →
      Writes text (.choice left) values → Writes other (.choice right) permuted →
      verify text (.choice left) = .ok answer →
      ∃ reported reported', answer = .choice reported ∧
        verify other (.choice right) = .ok (.choice reported') ∧
        Equivariant left right reported reported' ∧
        (UniqueMaximum values → reported'.choice = reported.choice) := by
  refine ⟨?_, ?_, ?_⟩
  · intro question values answer exact accepted
    refine ⟨fun layout spaced => exists_writes question exact spaced, fun text writes => ?_⟩
    obtain ⟨answer', verified, same⟩ := verify_agrees accepted writes
    refine ⟨answer', verified, same, fun one => ?_⟩
    rw [one] at same
    exact same.eq_of_one
  · intro left right values permuted answer permutation accepted
    exact candidateAnswer_permutes permutation accepted
  · intro left right values permuted text other answer permutation writes rewrites accepted
    obtain ⟨numbers, related, read⟩ := writes
    obtain ⟨numbers', related', read'⟩ := rewrites
    exact verify_permutes permutation
      ⟨numbers, read, related.length_eq.trans permutation.counted, related⟩
      ⟨numbers', read', related'.length_eq.trans permutation.recounted, related'⟩ accepted

end Agreement

theorem readouts_agree_certain :
    ∃ (text : Str) (answer answer' : Answer ℝ),
      candidateAnswer (.choice twoLabels) [.finite 1, .finite 0] = .ok answer ∧
      verify text (.choice twoLabels) = .ok answer' ∧
      withoutConfidence answer' = withoutConfidence answer := by
  have accepts : Accepts (.choice twoLabels) [.finite 1, .finite 0] [1, 0] :=
    ⟨rfl, rfl, by decide +kernel, by decide +kernel⟩
  obtain ⟨answer, accepted⟩ := candidateAnswer_total (F := ℝ) accepts
  have exact : ∀ value ∈ ([1, 0] : List ℚ), Json.Decimal.Finite value := by
    simp only [List.mem_cons, List.not_mem_nil, or_false, forall_eq_or_imp, forall_eq]
    exact ⟨⟨1, 0, by norm_num⟩, ⟨0, 0, by norm_num⟩⟩
  obtain ⟨writable, agrees⟩ := readouts_agree.1 (.choice twoLabels) [1, 0] answer exact accepted
  obtain ⟨_, text, _, writes⟩ := writable .default Json.default_spaced
  obtain ⟨answer', verified, _, same⟩ := agrees text writes
  exact ⟨text, answer, answer', accepted, verified, same (by norm_num)⟩

end VllmVerifier.Decision

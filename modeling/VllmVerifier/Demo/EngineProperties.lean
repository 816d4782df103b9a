import VllmVerifier.BackendProperties
import VllmVerifier.ConfidenceProperties
import VllmVerifier.Decision.ParsingProperties
import VllmVerifier.Demo.Engine
import VllmVerifier.Gateway.Service
import VllmVerifier.PromptProperties

/-!
The synthetic server at the other end of the gateway. But for a text that nests
too deep, nothing in a request makes its handler fail, and its completion of every
prompt is accepted as the answer that is uniform in exact arithmetic.
-/

set_option autoImplicit false

namespace VllmVerifier.Demo

open Python Backend

/-! ## Exceptions -/

/-- The text that the handler is to read, if the last message has one. -/
def Asks (request : Request) (text : Str) : Prop :=
  ∃ body messages message, request.body = .ok body ∧
    member body (lit "messages") = .ok messages ∧ last messages = .ok message ∧
      member message (lit "content") = .ok (.str text)

section Exceptions

variable {exhausts : Str → Bool}

end Exceptions

/-! ## Even shares -/

/-- The number that is written for each of some criteria. -/
def share (count : Nat) : ℚ := (Json.Double.reciprocal count).repr.toRat

theorem share_positive {count : Nat} (positive : 1 ≤ count) : 0 < share count := by
  obtain ⟨nonneg, _, close⟩ := Json.Double.reciprocal_repr positive
  rcases nonneg.eq_or_lt with zero | above
  · rw [← zero] at close
    norm_num at close
  · exact above

theorem shares_distribution {count : Nat} (positive : 1 ≤ count) :
    Distribution (List.replicate count (.number (.float (Json.Double.reciprocal count).repr)))
      (List.replicate count (share count)) := by
  obtain ⟨nonneg, le_one, close⟩ := Json.Double.reciprocal_repr positive
  have slack : (1 : ℚ) / 2 ^ 52 ≤ 1 / 100 := by norm_num
  have total : (List.replicate count (share count)).sum = count * share count := by
    rw [List.sum_replicate, nsmul_eq_mul]
  obtain ⟨lower, upper⟩ := abs_le.mp (close.trans slack)
  have numbers : ∀ size, List.Forall₂ (fun item value => numberValue item = some value)
      (List.replicate size (.number (.float (Json.Double.reciprocal count).repr)))
      (List.replicate size (share count)) := by
    intro size
    induction size with
    | zero => exact .nil
    | succ size ih => exact .cons rfl ih
  constructor
  · exact numbers count
  · intro value member
    rw [List.eq_of_mem_replicate member]
    exact ⟨nonneg, le_one⟩
  · rw [total, share]
    linarith
  · rw [total, share]
    linarith

theorem sharesOf_replicate {count : Nat} {value : ℚ} (positive : 1 ≤ count) (above : 0 < value) :
    sharesOf (List.replicate count value) = List.replicate count (1 / (count : ℚ)) := by
  have nonzero : (count : ℚ) ≠ 0 := by
    exact_mod_cast (by omega : count ≠ 0)
  rw [sharesOf, List.map_replicate, List.sum_replicate, nsmul_eq_mul]
  congr 1
  field_simp

theorem firstMaximum_replicate {count : Nat} {value : ℚ} (positive : 1 ≤ count) :
    FirstMaximum (List.replicate count value) 0 := by
  refine ⟨value, List.getElem?_replicate_of_lt positive, fun other member => ?_,
    fun earlier other before => absurd before (Nat.not_lt_zero _)⟩
  rw [List.eq_of_mem_replicate member]

/-- The expected level of even shares is in the middle. -/
theorem expectation_replicate (count start : Nat) (value : ℚ) :
    (((List.replicate count value).zipIdx start).map fun entry => (entry.2 : ℚ) * entry.1).sum =
      count * (2 * start + count - 1) / 2 * value := by
  induction count generalizing start with
  | zero => simp
  | succ count ih =>
      rw [List.replicate_succ, List.zipIdx_cons, List.map_cons, List.sum_cons, ih]
      push_cast
      ring

/-! ## Uniform answers -/

/-- Every key has the same probability. -/
structure EvenShares (keys : List Str) (reported : Dict Str (Probability ℚ)) : Prop where
  attached : reported.keys = keys
  even : ∀ share ∈ reported.values, share.value = 1 / (keys.length : ℚ)

/-- No criterion is preferred: in exact arithmetic the confidence is zero, unless
there is only one. -/
def Uniform (question : Question) (answer : Answer ℝ) : Prop :=
  answer.confidence? = (match question with
    | .noul _ => none
    | .choice _ | .score _ => some (if question.criteriaCount = 1 then 1 else 0)) ∧
  match question, answer with
  | .noul _, .noul answer => answer.noul.value = 1 / 2
  | .choice question, .choice answer =>
      question.criteria.keys.head? = some answer.choice ∧
        EvenShares question.criteria.keys answer.probabilities
  | .score question, .score answer =>
      answer.score = ((question.criteria.length : ℚ) - 1) / 2 ∧
        EvenShares ((List.range question.criteria.length).map indexKey) answer.probabilities ∧
        answer.legend.values = question.criteria
  | .noul _, .choice _ | .noul _, .score _ | .choice _, .noul _ | .choice _, .score _
  | .score _, .noul _ | .score _, .choice _ => False

section Answers

variable {text : Str} {question : Question} {answer : Answer ℝ}

theorem even_lists {size : Nat} (positive : 1 ≤ size)
    (read : strictJson text = .ok (.object [(lit "probabilities", shares size)])) :
    Lists text size (List.replicate size (share size)) :=
  ⟨_, read, List.length_replicate, (shares_distribution positive).numbers⟩

theorem even_confidence
    (lists : Lists text question.criteriaCount
      (List.replicate question.criteriaCount (share question.criteriaCount)))
    (accepted : verify text question = .ok answer) :
    answer.confidence? = some (if question.criteriaCount = 1 then 1 else 0) := by
  have positive := lists.count_of_accepted accepted
  obtain ⟨acceptable, confidence, computed, shown⟩ := verify_confidence lists accepted
  rw [shown, Option.some.injEq]
  split_ifs with single
  · rw [single, confidenceOf_single] at computed
    exact (Except.ok.inj computed).symm
  · have several : 2 ≤ question.criteriaCount := by omega
    obtain ⟨_, _, _, even⟩ := concentration acceptable (by rwa [lists.counted])
    have zero := even.mpr fun left first right second => by
      rw [sharesOf_replicate positive (share_positive positive)] at first second
      rw [List.eq_of_mem_replicate first, List.eq_of_mem_replicate second]
    rw [lists.counted] at zero
    rw [confidenceOf_real several, zero] at computed
    simpa using (Except.ok.inj computed).symm

theorem even_shares {keys : List Str} {reported : Dict Str (Probability ℚ)} {value : ℚ}
    (known : Shares (List.replicate keys.length value) keys reported) (positive : 1 ≤ keys.length)
    (above : 0 < value) : EvenShares keys reported := by
  refine ⟨known.attached, fun share member => ?_⟩
  have listed := List.mem_map_of_mem (f := Probability.value) member
  rw [known.numbers] at listed
  have even := sharesOf_replicate positive above
  rw [sharesOf] at even
  rw [even] at listed
  exact List.eq_of_mem_replicate listed

theorem choice_uniform {question : Choice}
    (read : strictJson text = .ok (.object
      [(lit "probabilities", shares question.criteria.entries.length)]))
    (accepted : verify text (.choice question) = .ok answer) :
    Uniform (.choice question) answer := by
  have positive := question.size.1
  have above := share_positive positive
  have lists := even_lists positive read
  have confidence : answer.confidence? = _ :=
    @even_confidence _ (.choice question) _ lists accepted
  obtain ⟨values, reported, listed, staged, rfl⟩ := verify_choice_iff.mp accepted
  rw [listed.unique lists] at staged
  have coherent := choiceStage_coherent List.length_replicate staged
  have keys : question.criteria.keys.length = question.criteria.entries.length :=
    List.length_map _
  obtain ⟨index, found, first⟩ := coherent.chosen
  rw [first.unique (firstMaximum_replicate positive)] at found
  refine ⟨confidence, ?_, even_shares (keys ▸ coherent.shares) (keys ▸ positive) above⟩
  rw [List.head?_eq_getElem?, found]

theorem score_uniform {question : Score}
    (read : strictJson text = .ok (.object [(lit "probabilities", shares question.criteria.length)]))
    (accepted : verify text (.score question) = .ok answer) :
    Uniform (.score question) answer := by
  have positive := question.size.1
  have above := share_positive positive
  have lists := even_lists positive read
  have confidence : answer.confidence? = _ :=
    @even_confidence _ (.score question) _ lists accepted
  obtain ⟨values, reported, listed, staged, rfl⟩ := verify_score_iff.mp accepted
  rw [listed.unique lists] at staged
  have coherent := scoreStage_coherent List.length_replicate staged
  have keys : ((List.range question.criteria.length).map indexKey).length =
      question.criteria.length := by
    rw [List.length_map, List.length_range]
  have nonzero : (question.criteria.length : ℚ) ≠ 0 := by
    exact_mod_cast (by omega : question.criteria.length ≠ 0)
  have legend : reported.legend.values = question.criteria := by
    rw [Dict.values, coherent.legend, List.map_snd_zip (Nat.le_of_eq keys.symm)]
  refine ⟨confidence, ?_, even_shares (keys.symm ▸ coherent.shares) (keys.symm ▸ positive) above,
    legend⟩
  rw [coherent.score, expectation_replicate, List.sum_replicate, nsmul_eq_mul]
  field_simp
  ring

end Answers

/-! ## Prompts -/

/-- The completion that answers a question. -/
def sheet : Question → Except PyException Str
  | .noul _ => dumpsOrRaise .default (.object [(lit "noul", half)])
  | .choice question => uniform question.criteria.entries.length
  | .score question => uniform question.criteria.length

/-- How the handler reads a question that has criteria. -/
theorem criteria_found (kind : Str) (instructions : Option Content) (criteria : Json) :
    member (.object ((lit "type", .str kind) :: optionalMember "instructions" instructions ++
        [(lit "criteria", criteria)])) (lit "type") = .ok (.str kind) ∧
      member (.object ((lit "type", .str kind) :: optionalMember "instructions" instructions ++
        [(lit "criteria", criteria)])) (lit "criteria") = .ok criteria := by
  have names : lit "type" ≠ lit "criteria" ∧ lit "instructions" ≠ lit "criteria" := by decide
  cases instructions with
  | none => simp [member, optionalMember, Dict.lookupEntries, names]
  | some content => simp [member, optionalMember, Dict.lookupEntries, names]

/-- The handler finds the question in a prompt again. -/
theorem answer_prompt {exhausts : Str → Bool} {state : Content} {question : Question}
    {content : Str} (shallow : exhausts content = false)
    (written : dumpsOrRaise .default (.object
      [(lit "state", state.value), (lit "question", question.modelDump)]) = .ok content) :
    answer exhausts (.str content) = sheet question := by
  have distinct : (Json.object [(lit "state", state.value),
      (lit "question", question.modelDump)]).distinctNames = true := by
    have names : lit "state" ≠ lit "question" := by decide
    simp [Json.distinctNames, Json.distinctMembers, state.distinct, question.modelDump_distinct,
      names]
  have parsed := Decision.Artifact.parse_dumps Json.default_spaced
    (dumpsOrRaise_ok_iff.mp written) distinct
  have asked : member (.object [(lit "state", state.value), (lit "question", question.modelDump)])
      (lit "question") = .ok question.modelDump := by
    have apart : lit "state" ≠ lit "question" := by decide
    simp [member, Dict.lookupEntries, apart]
  simp only [answer, loads, shallow, Bool.false_eq_true, if_false, parsed, except_ok_bind, asked]
  cases question with
  | noul question => rfl
  | choice question =>
      have unlike : ¬ Json.str (lit "choice") = .str (lit "noul") := by decide
      obtain ⟨typed, listed⟩ := criteria_found (lit "choice") question.instructions (.object
        (question.criteria.entries.map fun entry => (entry.1, nullable entry.2)))
      simp only [Question.modelDump, typed, listed, except_ok_bind, if_neg unlike, len, sheet,
        List.length_map]
  | score question =>
      have unlike : ¬ Json.str (lit "score") = .str (lit "noul") := by decide
      obtain ⟨typed, listed⟩ := criteria_found (lit "score") question.instructions
        (.array (question.criteria.map Content.value))
      simp only [Question.modelDump, typed, listed, except_ok_bind, if_neg unlike, len, sheet,
        List.length_map]

theorem shares_plain (count : Nat) :
    (shares count).finite = true ∧ (shares count).distinctNames = true := by
  unfold shares
  rw [Json.finite, Json.distinctNames]
  generalize (Json.Double.reciprocal count).repr = written
  induction count with
  | zero => exact ⟨rfl, rfl⟩
  | succ count ih =>
      rw [List.replicate_succ, Json.finiteItems, Json.distinctItems, ih.1, ih.2]
      exact ⟨rfl, rfl⟩

/-- A completion with one member is read back by the gateway. -/
theorem sheet_read {name : Str} {value : Json}
    (plain : value.finite = true ∧ value.distinctNames = true) :
    ∃ text, dumpsOrRaise .default (.object [(name, value)]) = .ok text ∧
      strictJson text = .ok (.object [(name, value)]) := by
  obtain ⟨finite, distinct⟩ := plain
  have whole : (Json.object [(name, value)]).finite = true := by
    simp [Json.finite, Json.finiteMembers, finite]
  have names : (Json.object [(name, value)]).distinctNames = true := by
    simp [Json.distinctNames, Json.distinctMembers, distinct]
  obtain ⟨text, written⟩ := dumpsOrRaise_ok .default whole
  exact ⟨text, written, strictJson_dumps Json.default_spaced (List.cons_ne_nil _ _) names
    (dumpsOrRaise_ok_iff.mp written)⟩

theorem noul_uniform {text : Str} {question : Noul}
    (read : strictJson text = .ok (.object [(lit "noul", half)])) :
    ∃ answer : Answer ℝ, verify text (.noul question) = .ok answer ∧
      Uniform (.noul question) answer := by
  have halfway : numberValue half = some (1 / 2 : ℚ) := by
    rw [half, numberValue, Json.Decimal.toRat_ofDecimal, Json.Decimal.value_false]
    norm_num
  have range : (0 : ℚ) ≤ 1 / 2 ∧ (1 / 2 : ℚ) ≤ 1 := by norm_num
  refine ⟨.noul ⟨⟨1 / 2, range.1, range.2⟩⟩, ?_, rfl, rfl⟩
  rw [verify, read, except_ok_bind]
  simp only [onlyMember_eq_some.mpr rfl, probability_ok_iff.mpr ⟨halfway, range⟩, except_ok_bind,
    Probability.validate_of_mem range.1 range.2]
  rfl

/-- What the handler writes is accepted as the uniform answer. -/
theorem sheet_uniform (question : Question) : ∃ text answer, sheet question = .ok text ∧
    verify text question = .ok answer ∧ Uniform question answer := by
  have listed : ∀ size, 1 ≤ size → ∃ text, uniform size = .ok text ∧
      strictJson text = .ok (.object [(lit "probabilities", shares size)]) := by
    intro size positive
    have several : size ≠ 0 := by omega
    rw [uniform, if_neg several]
    exact sheet_read (shares_plain size)
  cases question with
  | noul question =>
      obtain ⟨text, written, read⟩ := @sheet_read (lit "noul") half ⟨rfl, rfl⟩
      obtain ⟨answer, accepted, uniform⟩ := @noul_uniform text question read
      exact ⟨text, answer, written, accepted, uniform⟩
  | choice question =>
      obtain ⟨text, written, read⟩ := listed _ question.size.1
      obtain ⟨answer, accepted⟩ := (verify_ok_iff (F := ℝ) text (.choice question)).mpr
        ⟨_, read, _, _, rfl, List.length_replicate, shares_distribution question.size.1⟩
      exact ⟨text, answer, written, accepted, choice_uniform read accepted⟩
  | score question =>
      obtain ⟨text, written, read⟩ := listed _ question.size.1
      obtain ⟨answer, accepted⟩ := (verify_ok_iff (F := ℝ) text (.score question)).mpr
        ⟨_, read, _, _, rfl, List.length_replicate, shares_distribution question.size.1⟩
      exact ⟨text, answer, written, accepted, score_uniform read accepted⟩

example : uniform 3 = .ok (lit ("\x7b\"probabilities\": [0.3333333333333333, " ++
    "0.3333333333333333, 0.3333333333333333]\x7d")) := by
  decide +kernel

/-! ## Exchanges -/

/-- The request with which the client asks for a completion. -/
def asking (backend : VllmBackend) (length : Int) (messages : List Message) : Request :=
  ⟨lit "/v1/chat/completions", .ok length, .ok (backend.completionBody (messages.map messageJson))⟩

theorem completion_decodes (text : Str) :
    decode (completion text) = .ok ⟨text, 0, lit "stop"⟩ := rfl

section Exchange

variable {exhausts : Str → Bool} {backend : VllmBackend} {length : Int}

/-- The server answers the content of the last message. -/
theorem respond_asking (served : backend.settings.model = MODEL)
    (inLimit : 0 < length ∧ length ≤ 16 * 1024 * 1024) {earlier : List Message} {message : Message}
    {content : Json} (asked : member (messageJson message) (lit "content") = .ok content) :
    respond exhausts (asking backend length (earlier ++ [message])) =
      (answer exhausts content).bind fun text => .ok (200, completion text) := by
  have modelled : member (backend.completionBody ((earlier ++ [message]).map messageJson))
      (lit "model") = .ok (.str MODEL) := by
    rw [← served]
    rfl
  have listed : member (backend.completionBody ((earlier ++ [message]).map messageJson))
      (lit "messages") = .ok (.array ((earlier ++ [message]).map messageJson)) := by
    rfl
  have final : last (.array ((earlier ++ [message]).map messageJson)) =
      .ok (messageJson message) := by
    simp [last, at?]
  simp only [respond, asking, except_ok_bind, not_true_eq_false, inLimit, and_self, if_false,
    modelled, ne_eq, listed, final, asked]
  rfl

theorem doPost_answers (served : backend.settings.model = MODEL)
    (inLimit : 0 < length ∧ length ≤ 16 * 1024 * 1024) {earlier : List Message} {message : Message}
    {content : Json} {text : Str}
    (asked : member (messageJson message) (lit "content") = .ok content)
    (answered : answer exhausts content = .ok text) :
    doPost exhausts (asking backend length (earlier ++ [message])) =
      .ok (200, completion text) := by
  have replied := @respond_asking exhausts _ _ served inLimit earlier _ _ asked
  rw [answered] at replied
  rw [doPost, replied]
  rfl

/-- A prompt is a system message and the rendered question. -/
theorem prompt_shape (state : Content) (question : Question) (correction : Option String) :
    ∃ system content, decisionMessages state question correction =
        .ok [system, ⟨lit "user", .text content⟩] ∧
      dumpsOrRaise .default (.object
        [(lit "state", state.value), (lit "question", question.modelDump)]) = .ok content := by
  have finite : (Json.object [(lit "state", state.value),
      (lit "question", question.modelDump)]).finite = true := by
    simp [Json.finite, Json.finiteMembers, state.finite, question.modelDump_finite]
  obtain ⟨content, written⟩ := dumpsOrRaise_ok .default finite
  unfold decisionMessages
  dsimp only
  rw [written]
  exact ⟨_, content, rfl, rfl⟩

/-- A prompt is answered, unless its text exhausts the scanner. -/
theorem doPost_prompt (served : backend.settings.model = MODEL)
    (inLimit : 0 < length ∧ length ≤ 16 * 1024 * 1024) {state : Content} {question : Question}
    {correction : Option String} {system : Message} {content text : Str}
    (rendered : decisionMessages state question correction =
      .ok [system, ⟨lit "user", .text content⟩])
    (answered : sheet question = .ok text) :
    doPost exhausts (asking backend length [system, ⟨lit "user", .text content⟩]) =
      if exhausts content then .error recursionError else .ok (200, completion text) := by
  obtain ⟨_, _, shape, written⟩ := prompt_shape state question correction
  rw [rendered] at shape
  cases shape
  split
  · rename_i deep
    have replied := @respond_asking exhausts _ _ served inLimit [system]
      ⟨lit "user", .text content⟩ (.str content) rfl
    simp only [answer, loads, deep, if_true] at replied
    rw [doPost, ← List.singleton_append, replied]
    rfl
  · rename_i shallow
    exact @doPost_answers _ _ _ served inLimit [system] _ _ _ rfl
      ((answer_prompt (Bool.eq_false_of_not_eq_true shallow) written).trans answered)

end Exchange

/-- A client to which the server's completion of two labels comes back. -/
def connected : VllmBackend where
  settings := ⟨MODEL, 512, .int 0⟩
  stream _ _ _ := .response 200 [] none
  loads _ :=
    match sheet (.choice twoLabels) with
    | .ok text => .ok (completion text)
    | .error raised => .error raised

end VllmVerifier.Demo

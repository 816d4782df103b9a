import VllmVerifier.Decision.Runtime
import VllmVerifier.VerificationProperties

/-!
Physical batching against single requests. When rows are encoded and scored one
by one, what `evaluate_batch` does to `outcomes` depends on the multiset of its
entries only, and an entry touches no request but its own.
-/

set_option autoImplicit false

namespace VllmVerifier.Decision

open Python Batching

/-! ## Admission -/

theorem content_error {value : Option Content} {default : Str} {error : PyException}
    (failure : content value default = .error error) : error.isValueError = true := by
  cases value <;>
    · simp only [content] at failure
      split at failure
      · cases failure
        rfl
      · cases failure

private theorem optional_error {value : Option Content} {α : Type} {build : Str → α}
    {error : PyException}
    (failure : (do
      let text ← content value []
      pure (build text) : Except PyException α) = .error error) : error.isValueError = true := by
  rcases except_bind_error failure with failed | ⟨_, _, impossible⟩
  · exact content_error failed
  · cases impossible

theorem rowOption_error {entry : Str × Option Content} {error : PyException}
    (failure : rowOption entry = .error error) : error.isValueError = true := by
  unfold rowOption at failure
  split at failure
  · cases failure
  · exact optional_error failure

theorem rowLevel_error {entry : Content × Nat} {error : PyException}
    (failure : rowLevel entry = .error error) : error.isValueError = true :=
  optional_error failure

theorem criterionText_error {criterion : Option Content} {error : PyException}
    (failure : criterionText criterion = .error error) : error.isValueError = true := by
  cases criterion with
  | none => cases failure
  | some criterion => exact optional_error failure

theorem record_error {state : Str} {entry : Str × Question} {error : PyException}
    (failure : record state entry = .error error) : error.isValueError = true := by
  unfold record at failure
  rcases except_bind_error failure with failed | ⟨text, _, failure⟩
  · exact content_error failed
  · split at failure
    · split at failure
      · cases failure
      · rcases except_bind_error failure with failed | ⟨_, _, failure⟩
        · exact criterionText_error failed
        · rcases except_bind_error failure with failed | ⟨_, _, impossible⟩
          · exact criterionText_error failed
          · cases impossible
    · split at failure
      · cases failure
        rfl
      · rcases except_bind_error failure with failed | ⟨_, _, impossible⟩
        · obtain ⟨option, _, failed⟩ := mapM_error failed
          exact rowOption_error failed
        · cases impossible
    · split at failure
      · cases failure
        rfl
      · rcases except_bind_error failure with failed | ⟨_, _, impossible⟩
        · obtain ⟨level, _, failed⟩ := mapM_error failed
          exact rowLevel_error failed
        · cases impossible

theorem records_error {request : SystemOneRequest} {error : PyException}
    (failure : records request = .error error) : error.isValueError = true := by
  unfold records at failure
  rcases except_bind_error failure with failed | ⟨state, _, failure⟩
  · exact content_error failed
  · obtain ⟨entry, _, failed⟩ := mapM_error failure
    exact record_error failed

theorem records_length {request : SystemOneRequest} {rows : List Row}
    (success : records request = .ok rows) :
    rows.length = request.questions.entries.length := by
  obtain ⟨state, _, mapped⟩ := except_bind_ok success
  exact mapM_ok_length mapped

namespace KaiRuntime

variable {F : Type} [LogField F] {runtime : KaiRuntime}

theorem measure_ok {request : SystemOneRequest} {measured : List (Row × Nat)}
    (success : runtime.measure request = .ok measured) :
    measured.length = request.questions.entries.length ∧
      ∀ item ∈ measured, runtime.encode item.1 = .ok item.2 := by
  unfold measure at success
  obtain ⟨rows, recorded, success⟩ := except_bind_ok success
  obtain ⟨lengths, encoded, shape⟩ := except_bind_ok success
  cases shape
  have related := mapM_ok_iff.mp encoded
  constructor
  · rw [List.length_zip, ← related.length_eq, Nat.min_self, records_length recorded]
  · intro item member
    exact (List.forall₂_iff_zip.mp related).2 member

/-- A collator that refuses a row with a `ValueError`. -/
def Refuses (runtime : KaiRuntime) : Prop :=
  ∀ row error, runtime.encode row = .error error → error.isValueError = true

theorem measure_error (refuses : runtime.Refuses) {request : SystemOneRequest}
    {error : PyException} (failure : runtime.measure request = .error error) :
    error.isValueError = true := by
  unfold measure at failure
  rcases except_bind_error failure with failed | ⟨rows, _, failure⟩
  · exact records_error failed
  · rcases except_bind_error failure with failed | ⟨lengths, _, impossible⟩
    · obtain ⟨row, _, failed⟩ := mapM_error failed
      exact refuses row error failed
    · cases impossible

def initial (F : Type) [LogField F] (runtime : KaiRuntime) (request : SystemOneRequest) :
    Outcome F :=
  match runtime.measure request with
  | .error error => .error (inputError error)
  | .ok _ => .ok ⟨MODEL, Dict.empty, 0⟩

/-- The entries that the admission loop pushes for a request. -/
def pushed (runtime : KaiRuntime) (item : SystemOneRequest × Nat) : List Entry :=
  match runtime.measure item.1 with
  | .error _ => []
  | .ok measured => entriesOf item.2 item.1 measured

theorem admitRequest_ok (refuses : runtime.Refuses)
    (progress : List (Outcome F) × Dict QuestionType (List Entry))
    (item : SystemOneRequest × Nat) :
    runtime.admitRequest progress item = .ok (progress.1 ++ [runtime.initial F item.1],
      (runtime.pushed item).foldl (push fun entry => entry.row.question.type) progress.2) := by
  unfold admitRequest initial pushed
  cases measured : runtime.measure item.1 with
  | ok measured => rfl
  | error error => simp [measure_error refuses measured]

theorem admit_all (refuses : runtime.Refuses) (requests : List (SystemOneRequest × Nat))
    (progress : List (Outcome F) × Dict QuestionType (List Entry)) :
    requests.foldlM runtime.admitRequest progress =
      .ok (progress.1 ++ requests.map fun item => runtime.initial F item.1,
        (requests.flatMap runtime.pushed).foldl (push fun entry => entry.row.question.type)
          progress.2) := by
  induction requests generalizing progress with
  | nil => simp [pure, Except.pure]
  | cons item rest ih =>
      rw [List.foldlM_cons, admitRequest_ok refuses, except_ok_bind, ih]
      simp

theorem admit_requests (refuses : runtime.Refuses) (requests : List SystemOneRequest) :
    requests.zipIdx.foldlM runtime.admitRequest (([] : List (Outcome F)), Dict.empty) =
      .ok (requests.map (runtime.initial F),
        (requests.zipIdx.flatMap runtime.pushed).foldl (push fun entry => entry.row.question.type)
          Dict.empty) := by
  have initials : requests.zipIdx.map (fun item => runtime.initial F item.1) =
      requests.map (runtime.initial F) := by
    conv_rhs => rw [← List.zipIdx_map_fst 0 requests]
    rw [List.map_map]
    rfl
  rw [admit_all refuses, initials, List.nil_append]

theorem batches_perm (runtime : KaiRuntime) (requests : List (SystemOneRequest × Nat)) :
    (runtime.batches ((requests.flatMap runtime.pushed).foldl
      (push fun entry => entry.row.question.type) Dict.empty)).flatten.Perm
      (requests.flatMap runtime.pushed) := by
  have sorted : ∀ entries : List Entry, (sortByLength entries).Perm entries :=
    fun entries => List.perm_insertionSort _ entries
  refine (cut_groups_perm _ sortByLength sorted _).trans ?_
  simpa [Dict.values] using
    foldl_push_perm (fun entry : Entry => entry.row.question.type)
      (requests.flatMap runtime.pushed) Dict.empty

theorem mem_pushed {item : SystemOneRequest × Nat} {entry : Entry}
    (member : entry ∈ runtime.pushed item) :
    entry.requestIndex = item.2 ∧ ∃ measured, runtime.measure item.1 = .ok measured ∧
      (entry.questionId, (entry.row, entry.length)) ∈ item.1.questions.keys.zip measured := by
  unfold pushed at member
  split at member
  · cases member
  · rename_i measured known
    obtain ⟨⟨key, row, length⟩, found, rfl⟩ := List.mem_map.mp member
    exact ⟨rfl, measured, known, found⟩

theorem filter_pushed (runtime : KaiRuntime) {requests : List SystemOneRequest} {index : Nat}
    {request : SystemOneRequest} (found : requests[index]? = some request) :
    (requests.zipIdx.flatMap runtime.pushed).filter (fun entry => entry.requestIndex = index) =
      runtime.pushed (request, index) := by
  have owned : ∀ item : SystemOneRequest × Nat, ∀ entry ∈ runtime.pushed item,
      entry.requestIndex = item.2 := fun item entry member => (mem_pushed member).1
  have located := List.mk_mem_zipIdx_iff_getElem?.mpr found
  exact filter_flatMap_zipIdx Entry.requestIndex owned located

/-! ## Scoring -/

/-- A collator that encodes the rows of a batch one by one, and a model that
scores each row whatever stands beside it. -/
structure RowWise (runtime : KaiRuntime) (positions : Row → Nat) (reading : Row → List PyFloat) :
    Prop where
  refuses : runtime.Refuses
  collates : ∀ call rows lengths, rows.mapM runtime.encode = .ok lengths →
    runtime.collate call rows =
      .ok ((rows.zip lengths).map fun item => ⟨positions item.1, item.2⟩)
  scores : ∀ call rows lengths, rows.mapM runtime.encode = .ok lengths →
    ∃ logits, runtime.model call rows = .ok logits ∧ logits.finite = true ∧
      List.Forall₂ (fun row vector => vector.take (positions row) = reading row) rows
        logits.probabilities

/-- The readout accepts the vectors of the rows of these requests. -/
def Readable (F : Type) [LogField F] (runtime : KaiRuntime) (reading : Row → List PyFloat)
    (requests : List SystemOneRequest) : Prop :=
  ∀ request ∈ requests, ∀ measured, runtime.measure request = .ok measured →
    List.Forall₂ (fun entry item => ∃ answer : Answer F,
      candidateAnswer entry.2 (reading item.1) = .ok answer) request.questions.entries measured

section Scoring

variable {requests : List SystemOneRequest} {positions : Row → Nat} {reading : Row → List PyFloat}

/-- The answer that an entry's own row gives to its own question. -/
def score (F : Type) [LogField F] (requests : List SystemOneRequest)
    (reading : Row → List PyFloat) (entry : Entry) : Except PyException (Answer F) := do
  let request ← at? requests entry.requestIndex
  let question ← getItem request.questions entry.questionId
  candidateAnswer question (reading entry.row)

def extend (response : SystemOneResponse F) (entry : Entry) (answer : Answer F) :
    SystemOneResponse F :=
  { response with
    answers := response.answers.set entry.questionId answer
    usage := { response.usage with
      inputTokens := response.usage.inputTokens + entry.length } }

/-- What an entry does to its own response. -/
def contribute (requests : List SystemOneRequest) (reading : Row → List PyFloat)
    (response : SystemOneResponse F) (entry : Entry) : SystemOneResponse F :=
  match score F requests reading entry with
  | .ok answer => extend response entry answer
  | .error _ => response

/-- What an entry does to the outcomes. -/
def tally (requests : List SystemOneRequest) (reading : Row → List PyFloat)
    (outcomes : List (Outcome F)) (entry : Entry) : List (Outcome F) :=
  outcomes.modify entry.requestIndex fun outcome =>
    outcome.map fun response => contribute requests reading response entry

/-- An entry that can be scored, of a request that was admitted. -/
structure Scorable (F : Type) [LogField F] (runtime : KaiRuntime)
    (requests : List SystemOneRequest) (reading : Row → List PyFloat)
    (outcomes : List (Outcome F)) (entry : Entry) : Prop where
  encoded : runtime.encode entry.row = .ok entry.length
  scored : ∃ answer, score F requests reading entry = .ok answer
  admitted : ∃ response, outcomes[entry.requestIndex]? = some (.ok response)

theorem Scorable.tally {outcomes : List (Outcome F)} {entry other : Entry}
    (scorable : Scorable F runtime requests reading outcomes entry) :
    Scorable F runtime requests reading (tally requests reading outcomes other) entry := by
  obtain ⟨response, found⟩ := scorable.admitted
  refine ⟨scorable.encoded, scorable.scored, ?_⟩
  unfold KaiRuntime.tally
  rw [List.getElem?_modify, found]
  split
  · exact ⟨_, rfl⟩
  · exact ⟨response, rfl⟩

theorem Scorable.foldl {batch : List Entry} {outcomes : List (Outcome F)} {entry : Entry}
    (scorable : Scorable F runtime requests reading outcomes entry) :
    Scorable F runtime requests reading (batch.foldl (KaiRuntime.tally requests reading) outcomes)
      entry := by
  induction batch generalizing outcomes with
  | nil => exact scorable
  | cons other rest ih => exact ih scorable.tally

theorem settle_ok {outcomes : List (Outcome F)} {entry : Entry}
    {probabilities : List (List PyFloat)} {position : Nat} {vector : List PyFloat}
    (scorable : Scorable F runtime requests reading outcomes entry)
    (found : probabilities[position]? = some vector)
    (read : vector.take (positions entry.row) = reading entry.row) :
    settle requests probabilities outcomes ((entry, ⟨positions entry.row, entry.length⟩), position) =
      .ok (tally requests reading outcomes entry) := by
  obtain ⟨answer, scored⟩ := scorable.scored
  obtain ⟨response, located⟩ := scorable.admitted
  have scoredRow := scored
  unfold score at scored
  obtain ⟨request, requestFound, scored⟩ := except_bind_ok scored
  obtain ⟨question, questionFound, scored⟩ := except_bind_ok scored
  have vectorFound : at? probabilities position = .ok vector := by simp [at?, found]
  have outcomeFound : at? outcomes entry.requestIndex = .ok (.ok response) := by
    simp [at?, located]
  unfold settle
  simp only [vectorFound, except_ok_bind, requestFound, questionFound, outcomeFound, read, scored]
  refine congrArg Except.ok ?_
  rw [tally, List.modify_eq_set_getElem?, located]
  simp only [Option.map_eq_map, Option.map_some, Option.getD_some, Except.map, contribute,
    scoredRow, extend]

theorem settle_all {batch : List Entry} {outcomes : List (Outcome F)}
    (before : List (List PyFloat)) {vectors : List (List PyFloat)}
    (scorable : ∀ entry ∈ batch, Scorable F runtime requests reading outcomes entry)
    (read : List.Forall₂ (fun entry vector =>
      vector.take (positions entry.row) = reading entry.row) batch vectors) :
    ((batch.map fun entry => (entry, (⟨positions entry.row, entry.length⟩ : Encoded))).zipIdx
      before.length).foldlM (settle requests (before ++ vectors)) outcomes =
      .ok (batch.foldl (tally requests reading) outcomes) := by
  induction read generalizing before outcomes with
  | nil => rfl
  | @cons entry vector batch vectors same _ ih =>
      have located : (before ++ vector :: vectors)[before.length]? = some vector := by simp
      rw [List.map_cons, List.zipIdx_cons, List.foldlM_cons,
        settle_ok (scorable entry List.mem_cons_self) located same, except_ok_bind,
        List.foldl_cons]
      have rest := @ih (tally requests reading outcomes entry) (before ++ [vector])
        (fun other member => (scorable other (List.mem_cons_of_mem _ member)).tally)
      rwa [List.length_append, List.length_singleton, List.append_assoc,
        List.singleton_append] at rest

private theorem encoded_rows {batch : List Entry}
    (encoded : ∀ entry ∈ batch, runtime.encode entry.row = .ok entry.length) :
    (batch.map Entry.row).mapM runtime.encode = .ok (batch.map Entry.length) := by
  rw [mapM_ok_iff, List.forall₂_map_left_iff, List.forall₂_map_right_iff, List.forall₂_same]
  exact encoded

private theorem zip_columns (batch : List Entry) :
    batch.zip (((batch.map Entry.row).zip (batch.map Entry.length)).map fun item =>
      (⟨positions item.1, item.2⟩ : Encoded)) =
      batch.map fun entry => (entry, ⟨positions entry.row, entry.length⟩) := by
  induction batch with
  | nil => rfl
  | cons entry rest ih => simpa using ih

theorem run_ok (rowWise : RowWise runtime positions reading) {batch : List Entry}
    {outcomes : List (Outcome F)}
    (scorable : ∀ entry ∈ batch, Scorable F runtime requests reading outcomes entry) (call : Nat) :
    runtime.run requests outcomes (batch, call) =
      .ok (batch.foldl (tally requests reading) outcomes) := by
  have encoded := encoded_rows fun entry member => (scorable entry member).encoded
  obtain ⟨logits, modelled, finite, read⟩ := rowWise.scores call _ _ encoded
  have settled := settle_all [] scorable (List.forall₂_map_left_iff.mp read)
  unfold run
  dsimp only
  rw [rowWise.collates call _ _ encoded, except_ok_bind, modelled, except_ok_bind, if_pos finite,
    zip_columns]
  rw [List.length_nil, List.nil_append] at settled
  rw [settled, except_ok_bind, if_pos (by simp)]
  rfl

/-- Every batch of scorable entries runs, and together they are one pass. -/
theorem run_all (rowWise : RowWise runtime positions reading) {batches : List (List Entry)}
    {outcomes : List (Outcome F)}
    (scorable : ∀ entry ∈ batches.flatten, Scorable F runtime requests reading outcomes entry)
    (call : Nat) :
    (batches.zipIdx call).foldlM (runtime.run requests) outcomes =
      .ok (batches.flatten.foldl (tally requests reading) outcomes) := by
  induction batches generalizing outcomes call with
  | nil => rfl
  | cons batch rest ih =>
      rw [List.flatten_cons] at scorable
      have kept : ∀ entry ∈ rest.flatten, Scorable F runtime requests reading
          (batch.foldl (tally requests reading) outcomes) entry :=
        fun entry member => (scorable entry (List.mem_append_right _ member)).foldl
      rw [List.zipIdx_cons, List.foldlM_cons,
        run_ok rowWise fun entry member => scorable entry (List.mem_append_left _ member),
        except_ok_bind, ih kept, List.flatten_cons, List.foldl_append]

/-- An outcome is changed by its own entries only. -/
theorem foldl_tally (entries : List Entry) (outcomes : List (Outcome F)) (index : Nat) :
    (entries.foldl (tally requests reading) outcomes)[index]? =
      outcomes[index]?.map fun outcome => outcome.map fun response =>
        (entries.filter fun entry => entry.requestIndex = index).foldl
          (contribute requests reading) response := by
  induction entries generalizing outcomes with
  | nil =>
      rw [List.foldl_nil]
      cases outcomes[index]? with
      | none => rfl
      | some outcome => cases outcome <;> rfl
  | cons entry rest ih =>
      rw [List.foldl_cons, ih, tally, List.getElem?_modify]
      by_cases same : entry.requestIndex = index
      · cases outcomes[index]? with
        | none => simp
        | some outcome => cases outcome <;> simp [same, Except.map]
      · simp [same]

end Scoring

/-! ## Outcomes -/

section Outcomes

variable {requests : List SystemOneRequest} {positions : Row → Nat} {reading : Row → List PyFloat}

theorem contribute_model (response : SystemOneResponse F) (entries : List Entry) :
    (entries.foldl (contribute requests reading) response).model = response.model := by
  induction entries generalizing response with
  | nil => rfl
  | cons entry rest ih =>
      rw [List.foldl_cons, ih]
      unfold contribute
      split <;> rfl

theorem contribute_usage {entries : List Entry}
    (scored : ∀ entry ∈ entries, ∃ answer, score F requests reading entry = .ok answer)
    (response : SystemOneResponse F) :
    (entries.foldl (contribute requests reading) response).usage =
      ⟨response.usage.inputTokens + (entries.map Entry.length).sum,
        response.usage.outputTokens⟩ := by
  induction entries generalizing response with
  | nil => rfl
  | cons entry rest ih =>
      obtain ⟨answer, known⟩ := scored entry List.mem_cons_self
      rw [List.foldl_cons, ih fun other member => scored other (List.mem_cons_of_mem _ member)]
      simp [contribute, known, extend, Nat.add_assoc]

theorem contribute_get?_of_ne {entries : List Entry} {key : Str}
    (different : ∀ entry ∈ entries, entry.questionId ≠ key) (response : SystemOneResponse F) :
    (entries.foldl (contribute requests reading) response).answers.get? key =
      response.answers.get? key := by
  induction entries generalizing response with
  | nil => rfl
  | cons entry rest ih =>
      rw [List.foldl_cons, ih fun other member => different other (List.mem_cons_of_mem _ member)]
      unfold contribute
      split
      · exact Dict.get?_set_of_ne (different entry List.mem_cons_self).symm _ _
      · rfl

/-- With distinct keys every entry's answer stays where it was put. -/
theorem contribute_get? {entries : List Entry} (distinct : (entries.map Entry.questionId).Nodup)
    {entry : Entry} (member : entry ∈ entries) {answer : Answer F}
    (scored : score F requests reading entry = .ok answer) (response : SystemOneResponse F) :
    (entries.foldl (contribute requests reading) response).answers.get? entry.questionId =
      some answer := by
  induction entries generalizing response with
  | nil => cases member
  | cons other rest ih =>
      rw [List.map_cons, List.nodup_cons] at distinct
      rw [List.foldl_cons]
      rcases List.mem_cons.mp member with rfl | later
      · rw [contribute_get?_of_ne]
        · simp [contribute, scored, extend]
        · intro found present same
          exact distinct.1 (same ▸ List.mem_map_of_mem present)
      · exact ih distinct.2 later _

/-- The outcome of a request, as its own rows decide it. -/
def Settles (runtime : KaiRuntime) (reading : Row → List PyFloat) (request : SystemOneRequest)
    (outcome : Outcome F) : Prop :=
  match runtime.measure request with
  | .error error => outcome = .error (inputError error)
  | .ok measured => ∃ response, outcome = .ok response ∧ response.model = MODEL ∧
      response.answers.keys = request.questions.keys ∧
      response.usage = ⟨(measured.map Prod.snd).sum, 0⟩ ∧
      List.Forall₂ (fun entry item => ∃ answer,
        candidateAnswer entry.2 (reading item.1) = .ok answer ∧
          response.answers.get? entry.1 = some answer) request.questions.entries measured

theorem Settles.unique {request : SystemOneRequest} {left right : Outcome F}
    (leftSettles : Settles runtime reading request left)
    (rightSettles : Settles runtime reading request right) : left = right := by
  cases known : runtime.measure request with
  | error error =>
      simp only [Settles, known] at leftSettles rightSettles
      rw [leftSettles, rightSettles]
  | ok measured =>
      simp only [Settles, known] at leftSettles rightSettles
      obtain ⟨response, rfl, model, keys, usage, answers⟩ := leftSettles
      obtain ⟨other, rfl, otherModel, otherKeys, otherUsage, otherAnswers⟩ := rightSettles
      have same : response.answers = other.answers := by
        apply Dict.ext_get? (keys.trans otherKeys.symm)
        intro key member
        obtain ⟨⟨_, question⟩, present, rfl⟩ := List.mem_map.mp (keys ▸ member)
        obtain ⟨position, located⟩ := List.getElem?_of_mem present
        obtain ⟨item, here, answer, read, looked⟩ := forall₂_getElem? answers located
        obtain ⟨item', here', answer', read', looked'⟩ := forall₂_getElem? otherAnswers located
        cases here.symm.trans here'
        rw [read] at read'
        cases read'
        rw [looked, looked']
      cases response
      cases other
      simp_all

theorem pushed_of_measured {request : SystemOneRequest} {measured : List (Row × Nat)}
    (known : runtime.measure request = .ok measured) (index : Nat) :
    runtime.pushed (request, index) = entriesOf index request measured := by
  simp [pushed, known]

private theorem zip_keys {request : SystemOneRequest} {measured : List (Row × Nat)}
    (known : runtime.measure request = .ok measured) :
    request.questions.keys.length = measured.length := by
  rw [Dict.keys, List.length_map, (measure_ok known).1]

theorem entriesOf_questionId {request : SystemOneRequest} {measured : List (Row × Nat)}
    (known : runtime.measure request = .ok measured) (index : Nat) :
    (entriesOf index request measured).map Entry.questionId = request.questions.keys := by
  rw [entriesOf, List.map_map]
  exact List.map_fst_zip (Nat.le_of_eq (zip_keys known))

theorem entriesOf_length {request : SystemOneRequest} {measured : List (Row × Nat)}
    (known : runtime.measure request = .ok measured) (index : Nat) :
    (entriesOf index request measured).map Entry.length = measured.map Prod.snd := by
  rw [entriesOf, List.map_map]
  have second : (request.questions.keys.zip measured).map Prod.snd = measured :=
    List.map_snd_zip (Nat.le_of_eq (zip_keys known).symm)
  conv_rhs => rw [← second]
  rw [List.map_map]
  rfl

theorem entriesOf_getElem? {request : SystemOneRequest} {measured : List (Row × Nat)}
    (index : Nat) {position : Nat} {entry : Str × Question} {item : Row × Nat}
    (entryFound : request.questions.entries[position]? = some entry)
    (itemFound : measured[position]? = some item) :
    (entriesOf index request measured)[position]? =
      some ⟨index, entry.1, item.1, item.2⟩ := by
  have key : request.questions.keys[position]? = some entry.1 := by
    rw [Dict.keys, List.getElem?_map, entryFound]
    rfl
  rw [entriesOf, List.getElem?_map,
    List.getElem?_zip_eq_some (z := (entry.1, item)) |>.mpr ⟨key, itemFound⟩]
  rfl

theorem score_entry {request : SystemOneRequest} {index : Nat} {entry : Str × Question}
    {item : Row × Nat} (found : requests[index]? = some request)
    (present : entry ∈ request.questions.entries) :
    score F requests reading ⟨index, entry.1, item.1, item.2⟩ =
      candidateAnswer entry.2 (reading item.1) := by
  have located : at? requests index = .ok request := by simp [at?, found]
  have question : getItem request.questions entry.1 = .ok entry.2 :=
    getItem_ok_iff.mpr (Dict.get?_eq_some_iff.mpr present)
  unfold score
  rw [located, except_ok_bind, question, except_ok_bind]

theorem pushed_scorable (readable : Readable F runtime reading requests) {entry : Entry}
    (member : entry ∈ requests.zipIdx.flatMap runtime.pushed) :
    Scorable F runtime requests reading (requests.map (runtime.initial F)) entry := by
  obtain ⟨⟨request, index⟩, source, produced⟩ := List.mem_flatMap.mp member
  have found := List.mk_mem_zipIdx_iff_getElem?.mp source
  obtain ⟨_, measured, known, _⟩ := mem_pushed produced
  rw [pushed_of_measured known] at produced
  obtain ⟨position, located⟩ := List.getElem?_of_mem produced
  have size := (measure_ok known).1
  have inside : position < measured.length := by
    have bound := (List.getElem?_eq_some_iff.mp located).1
    rw [entriesOf, List.length_map, List.length_zip] at bound
    omega
  have itemFound := List.getElem?_eq_getElem inside
  have entryFound := List.getElem?_eq_getElem (size ▸ inside : position < _)
  rw [entriesOf_getElem? index entryFound itemFound] at located
  cases located
  obtain ⟨item, here, answer, read⟩ := forall₂_getElem?
    (readable request (List.mem_of_getElem? found) measured known) entryFound
  cases itemFound.symm.trans here
  refine ⟨(measure_ok known).2 _ (List.mem_of_getElem? itemFound), ⟨answer, ?_⟩,
    ⟨⟨MODEL, Dict.empty, 0⟩, ?_⟩⟩
  · rw [score_entry found (List.mem_of_getElem? entryFound), read]
  · rw [List.getElem?_map, found]
    simp [initial, known]

/-- What stands in `outcomes` for a request after all of its entries. -/
theorem outcome_settles {request : SystemOneRequest} {index : Nat} {own : List Entry}
    (readable : Readable F runtime reading requests)
    (found : requests[index]? = some request)
    (perm : own.Perm (runtime.pushed (request, index))) :
    ∃ outcome : Outcome F, arrange (request, (runtime.initial F request).map fun response =>
        own.foldl (contribute requests reading) response) = .ok outcome ∧
      Settles runtime reading request outcome := by
  have member := List.mem_of_getElem? found
  cases known : runtime.measure request with
  | error error =>
      refine ⟨.error (inputError error), ?_, ?_⟩
      · simp [arrange, initial, known, Except.map]
      · simp [Settles, known]
  | ok measured =>
      have accepted := readable request member measured known
      rw [pushed_of_measured known] at perm
      have distinct : (own.map Entry.questionId).Nodup := by
        rw [(perm.map Entry.questionId).nodup_iff, entriesOf_questionId known]
        exact request.questions.distinct
      have answered : ∀ (position : Nat) (entry : Str × Question) (item : Row × Nat),
          request.questions.entries[position]? = some entry →
          measured[position]? = some item → ∃ answer : Answer F,
            candidateAnswer entry.2 (reading item.1) = .ok answer ∧
              ∀ response, (own.foldl (contribute requests reading) response).answers.get? entry.1 =
                some answer := by
        intro position entry item entryFound itemFound
        obtain ⟨other, here, answer, read⟩ := forall₂_getElem? accepted entryFound
        cases itemFound.symm.trans here
        have present := perm.mem_iff.mpr
          (List.mem_of_getElem? (entriesOf_getElem? index entryFound itemFound))
        have scored : score F requests reading ⟨index, entry.1, item.1, item.2⟩ = .ok answer := by
          rw [score_entry found (List.mem_of_getElem? entryFound), read]
        exact ⟨answer, read, fun response => contribute_get? distinct present scored response⟩
      have scored : ∀ entry ∈ own, ∃ answer, score F requests reading entry = .ok answer := by
        intro entry present
        have source := List.mk_mem_zipIdx_iff_getElem?.mpr found
        refine (pushed_scorable readable (List.mem_flatMap.mpr ⟨_, source, ?_⟩)).scored
        rw [pushed_of_measured known]
        exact perm.mem_iff.mp present
      let response := own.foldl (contribute requests reading)
        (⟨MODEL, Dict.empty, 0⟩ : SystemOneResponse F)
      have matched : ∀ (position : Nat) (entry : Str × Question),
          request.questions.entries[position]? = some entry →
            ∃ item, measured[position]? = some item := by
        intro position entry located
        have size := (measure_ok known).1
        have inside := (List.getElem?_eq_some_iff.mp located).1
        exact ⟨_, List.getElem?_eq_getElem (size ▸ inside)⟩
      obtain ⟨answers, collected⟩ : ∃ answers, Dict.comprehension request.questions.keys
          (getItem response.answers) = .ok answers := by
        apply Dict.comprehension_total
        intro key present
        obtain ⟨entry, here, rfl⟩ := List.mem_map.mp present
        obtain ⟨position, located⟩ := List.getElem?_of_mem here
        obtain ⟨item, itemFound⟩ := matched position entry located
        obtain ⟨answer, _, looked⟩ := answered position entry item located itemFound
        exact ⟨answer, getItem_ok_iff.mpr (looked _)⟩
      refine ⟨.ok { response with answers }, ?_, ?_⟩
      · simp only [arrange, initial, known, Except.map]
        rw [collected]
        rfl
      · obtain ⟨keys, values⟩ := Dict.comprehension_ok request.questions.distinct collected
        simp only [Settles, known]
        refine ⟨_, rfl, contribute_model _ own, keys, ?_, ?_⟩
        · change response.usage = _
          rw [contribute_usage scored, (perm.map Entry.length).sum_eq, entriesOf_length known]
          simp
        · refine List.forall₂_iff_zip.mpr ⟨(measure_ok known).1.symm, fun {entry item} present => ?_⟩
          obtain ⟨position, located⟩ := List.getElem?_of_mem present
          obtain ⟨entryFound, itemFound⟩ := List.getElem?_zip_eq_some.mp located
          obtain ⟨answer, read, looked⟩ := answered position entry item entryFound itemFound
          have key : entry.1 ∈ answers.keys := by
            rw [keys]
            exact Dict.mem_keys_of_mem (List.mem_of_getElem? entryFound)
          obtain ⟨⟨_, value⟩, stored, rfl⟩ := List.mem_map.mp key
          have lookup := getItem_ok_iff.mp (values _ _ stored)
          rw [looked] at lookup
          cases lookup
          exact ⟨answer, read, Dict.get?_eq_some_iff.mpr stored⟩

/-- A batch of readable requests returns, and every outcome is its request's own. -/
theorem evaluateBatch_settles (rowWise : RowWise runtime positions reading)
    (admitted : admission requests = true) (readable : Readable F runtime reading requests) :
    ∃ outcomes : List (Outcome F), runtime.evaluateBatch requests = .ok outcomes ∧
      List.Forall₂ (Settles runtime reading) requests outcomes := by
  let groups := (requests.zipIdx.flatMap runtime.pushed).foldl
    (push fun entry => entry.row.question.type) Dict.empty
  have perm := batches_perm runtime requests.zipIdx
  have admittedAll := admit_requests (F := F) rowWise.refuses requests
  have ran := run_all rowWise
    (fun entry member => pushed_scorable readable (perm.mem_iff.mp member)) 0
  let scored := (runtime.batches groups).flatten.foldl (tally requests reading)
    (requests.map (runtime.initial F))
  have size : scored.length = requests.length := by
    have sameLength : ∀ (entries : List Entry) (outcomes : List (Outcome F)),
        (entries.foldl (tally requests reading) outcomes).length = outcomes.length := by
      intro entries
      induction entries with
      | nil => exact fun _ => rfl
      | cons entry rest ih => exact fun outcomes => (ih _).trans (List.length_modify ..)
    rw [sameLength, List.length_map]
  have each : ∀ pair ∈ requests.zip scored, ∃ outcome : Outcome F,
      arrange pair = .ok outcome ∧ Settles runtime reading pair.1 outcome := by
    intro pair member
    obtain ⟨request, outcome⟩ := pair
    obtain ⟨index, located⟩ := List.getElem?_of_mem member
    obtain ⟨found, scoredFound⟩ := List.getElem?_zip_eq_some.mp located
    have own := filter_pushed runtime found
    rw [foldl_tally, List.getElem?_map, found] at scoredFound
    have shape := Option.some.inj scoredFound
    dsimp only at shape
    subst shape
    exact outcome_settles readable found (own ▸ perm.filter _)
  obtain ⟨outcomes, related⟩ := exists_forall₂ each
  refine ⟨outcomes, ?_, ?_⟩
  · unfold evaluateBatch
    rw [if_pos admitted, admittedAll, except_ok_bind]
    dsimp only
    rw [ran, except_ok_bind]
    exact mapM_ok_iff.mpr (related.imp fun _ _ known => known.1)
  · have first := List.map_fst_zip (Nat.le_of_eq size.symm)
    rw [← first, List.forall₂_map_left_iff]
    exact related.imp fun _ _ known => known.2

end Outcomes

end KaiRuntime

/-! ## Isolation -/

theorem admission_single (request : SystemOneRequest) : admission [request] = true := by
  have bound := request.size.2
  simp only [admission, List.length_singleton, List.map_cons, List.map_nil, List.sum_cons,
    List.sum_nil, Nat.add_zero, Bool.and_eq_true, decide_eq_true_eq]
  omega

/-- Batching isolates requests: each gets the outcome it gets alone, which is
its own 422 or its own answers, in its order, with its own tokens. -/
theorem evaluateBatch_isolates {F : Type} [LogField F] {runtime : KaiRuntime}
    {positions : Row → Nat} {reading : Row → List PyFloat}
    (rowWise : runtime.RowWise positions reading) {requests : List SystemOneRequest}
    (admitted : admission requests = true)
    (readable : KaiRuntime.Readable F runtime reading requests) :
    ∃ outcomes : List (Outcome F), runtime.evaluateBatch requests = .ok outcomes ∧
      outcomes.length = requests.length ∧
      ∀ (index : Nat) request, requests[index]? = some request →
        ∃ outcome : Outcome F, outcomes[index]? = some outcome ∧
          runtime.evaluateBatch [request] = .ok [outcome] ∧
          (∀ error, runtime.measure request = .error error →
            outcome = .error (inputError error)) ∧
          ∀ measured, runtime.measure request = .ok measured →
            ∃ response : SystemOneResponse F, outcome = .ok response ∧ response.model = MODEL ∧
              response.answers.keys = request.questions.keys ∧
              response.usage = ⟨(measured.map Prod.snd).sum, 0⟩ ∧
              List.Forall₂ (fun entry item => ∃ answer : Answer F,
                candidateAnswer entry.2 (reading item.1) = .ok answer ∧
                  response.answers.get? entry.1 = some answer)
                request.questions.entries measured := by
  obtain ⟨outcomes, returned, settles⟩ :=
    KaiRuntime.evaluateBatch_settles rowWise admitted readable
  refine ⟨outcomes, returned, settles.length_eq.symm, ?_⟩
  intro index request found
  obtain ⟨outcome, located, settled⟩ := forall₂_getElem? settles found
  have member := List.mem_of_getElem? found
  have alone : KaiRuntime.Readable F runtime reading [request] := by
    intro other single
    rw [List.mem_singleton.mp single]
    exact readable request member
  obtain ⟨singles, singleReturned, singleSettles⟩ :=
    KaiRuntime.evaluateBatch_settles rowWise (admission_single request) alone
  obtain ⟨single, rest, singleSettled, none, rfl⟩ := List.forall₂_cons_left_iff.mp singleSettles
  cases none
  cases singleSettled.unique settled
  refine ⟨outcome, located, singleReturned, ?_, ?_⟩
  · intro error known
    simpa only [KaiRuntime.Settles, known] using settled
  · intro measured known
    simpa only [KaiRuntime.Settles, known] using settled

/-! A runtime that refuses one state and answers yes to all others. -/

def sampleEncode (row : Row) : Except PyException Nat :=
  if row.stateText = lit "long" then .error (.valueError "exceeds 1024 tokens") else .ok 5

def sampleRuntime : KaiRuntime where
  batchSize := 8
  batchTokens := 4096
  encode := sampleEncode
  collate _ rows := do
    let lengths ← rows.mapM sampleEncode
    pure ((rows.zip lengths).map fun item => ⟨2, item.2⟩)
  model _ rows := .ok ⟨true, rows.map fun _ => [.finite 0, .finite 1]⟩
  sizeRange := by decide
  tokensRange := by decide

theorem sampleRuntime_rowWise :
    sampleRuntime.RowWise (fun _ => 2) fun _ => [.finite 0, .finite 1] := by
  refine ⟨?_, ?_, ?_⟩
  · intro row error failure
    simp only [sampleRuntime, sampleEncode] at failure
    split at failure
    · cases failure
      rfl
    · cases failure
  · intro call rows lengths encoded
    change (rows.mapM sampleEncode >>= _) = _
    rw [show rows.mapM sampleEncode = .ok lengths from encoded, except_ok_bind]
    rfl
  · intro call rows lengths encoded
    refine ⟨_, rfl, rfl, ?_⟩
    rw [List.forall₂_map_right_iff, List.forall₂_same]
    exact fun row member => rfl

theorem sampleRuntime_readable :
    KaiRuntime.Readable ℝ sampleRuntime (fun _ => [.finite 0, .finite 1])
      [noulRequest (lit "long"), noulRequest (lit "s")] := by
  intro request member measured known
  rcases List.mem_cons.mp member with rfl | later
  · have refused : sampleRuntime.measure (noulRequest (lit "long")) =
        .error (.valueError "exceeds 1024 tokens") := by decide +kernel
    rw [refused] at known
    cases known
  · cases List.mem_singleton.mp later
    have rows : sampleRuntime.measure (noulRequest (lit "s")) =
        .ok [(⟨lit "q", lit "s", ⟨lit "q", .noul,
        lit "Evaluate the candidates against the state.", none, none, none, none⟩⟩, 5)] := by
      decide +kernel
    rw [rows] at known
    cases known
    have read : ∃ answer : Answer ℝ,
        candidateAnswer (.noul ⟨none, none⟩) [.finite 0, .finite 1] = .ok answer :=
      exists_ok_of_toBool (by decide +kernel)
    exact .cons read .nil

theorem evaluateBatch_isolates_long :
    ∃ first second : Outcome ℝ,
      sampleRuntime.evaluateBatch [noulRequest (lit "long"), noulRequest (lit "s")] =
        .ok [first, second] ∧
        sampleRuntime.evaluateBatch [noulRequest (lit "s")] = .ok [second] := by
  obtain ⟨outcomes, returned, size, each⟩ :=
    evaluateBatch_isolates sampleRuntime_rowWise (by decide) sampleRuntime_readable
  obtain ⟨first, second, rfl⟩ := List.length_eq_two.mp size
  obtain ⟨outcome, here, alone, _⟩ := each 1 _ rfl
  cases here
  exact ⟨first, second, returned, alone⟩

end VllmVerifier.Decision

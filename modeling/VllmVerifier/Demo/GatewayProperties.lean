import VllmVerifier.Demo.EngineProperties
import VllmVerifier.Gateway.AgreementProperties

/-!
The gateway in front of the synthetic server: whatever else the gateway has in
hand, a request gets a uniform answer to each of its questions, at the price of
one completion for each.
-/

set_option autoImplicit false

namespace VllmVerifier.Demo

open Python Backend Asyncio Machine Retry Semantics Gateway

/-- Every completion is what the client reads in the server's reply to a prompt. -/
def Demonstrates (oracle : Oracle) : Prop :=
  ∀ state question attempt, ∃ (exhausts : Str → Bool) (backend : VllmBackend) (length : Int)
    (correction : Option String) (messages : List Message) (reply : Json),
    backend.settings.model = MODEL ∧ (0 < length ∧ length ≤ 16 * 1024 * 1024) ∧
      decisionMessages state question correction = .ok messages ∧
      doPost exhausts (asking backend length messages) = .ok (200, reply) ∧
      decode reply = .ok (oracle state question attempt)

variable {settings : Gateway.Settings} {oracle : Oracle} {request : SystemOneRequest}

/-- The first attempt at a question is accepted, and costs nothing. -/
theorem Demonstrates.verdict (demonstrates : Demonstrates oracle) (state : Content)
    (question : Question) (attempt : Nat) : (oracle state question attempt).usage = 0 ∧
      ∃ answer, verdict ℝ oracle state question attempt = some answer ∧
        Uniform question answer := by
  obtain ⟨exhausts, backend, length, correction, messages, reply, served, inLimit, rendered,
    replied, decoded⟩ := demonstrates state question attempt
  obtain ⟨text, answer, written, accepted, uniform⟩ := sheet_uniform question
  obtain ⟨system, content, shape, _⟩ := prompt_shape state question correction
  cases rendered.symm.trans shape
  rw [doPost_prompt served inLimit rendered written] at replied
  split at replied
  · cases replied
  cases replied
  rw [completion_decodes] at decoded
  have same := (Except.ok.inj decoded).symm
  refine ⟨by rw [same], answer, ?_, uniform⟩
  rw [Semantics.verdict, same, reading, if_pos rfl, accepted]
  rfl

theorem Demonstrates.stops (demonstrates : Demonstrates oracle) (state : Content)
    (question : Question) (retries : Nat) : ∃ answer,
      Stops (Semantics.verdict ℝ oracle state question) retries 0 answer ∧
        Uniform question answer := by
  obtain ⟨_, answer, accepted, uniform⟩ := demonstrates.verdict state question 0
  exact ⟨answer, ⟨Nat.zero_le _, accepted, fun earlier before => absurd before (Nat.not_lt_zero _)⟩,
    uniform⟩

/-- The answer to each question is uniform, and nothing is paid for it. -/
structure UniformResponse (settings : Gateway.Settings) (request : SystemOneRequest)
    (response : SystemOneResponse ℝ) : Prop where
  model : response.model = settings.model
  usage : response.usage = 0
  keys : response.answers.keys = request.questions.keys
  answers : ∀ entry ∈ request.questions.entries, ∃ answer,
    response.answers.get? entry.1 = some answer ∧ Uniform entry.2 answer

theorem Demonstrates.outcomes (demonstrates : Demonstrates oracle) {retries : Nat}
    {response : SystemOneResponse ℝ} {outcomes : List (Nat × Answer ℝ)}
    (decides : Decides oracle settings.model retries request response outcomes) :
    UniformResponse settings request response ∧ ∀ outcome ∈ outcomes, outcome.1 = 0 := by
  have first : ∀ (entry : Question) (outcome : Nat × Answer ℝ),
      Stops (Semantics.verdict ℝ oracle request.state entry) retries outcome.1 outcome.2 →
        outcome.1 = 0 ∧ Uniform entry outcome.2 := by
    intro entry outcome stops
    obtain ⟨answer, immediate, uniform⟩ := demonstrates.stops request.state entry retries
    obtain ⟨zero, same⟩ := stops.unique immediate
    exact ⟨zero, same ▸ uniform⟩
  have free : ∀ question, spent oracle request.state question 1 = 0 := by
    intro question
    rw [spent_succ, (demonstrates.verdict request.state question 0).1]
    rfl
  have immediate : ∀ outcome ∈ outcomes, outcome.1 = 0 := by
    intro outcome member
    obtain ⟨entry, _, stops, _⟩ := forall₂_mem_right decides.answers member
    exact (first entry.2 outcome stops).1
  refine ⟨⟨decides.model, ?_, decides.keys, fun entry member => ?_⟩, immediate⟩
  · rw [decides.usage]
    apply List.sum_eq_zero
    intro usage listed
    obtain ⟨row, member, rfl⟩ := List.mem_map.mp listed
    rw [immediate row.2 (List.of_mem_zip member).2]
    exact free row.1.2
  · obtain ⟨outcome, _, stops, found⟩ := forall₂_mem_left decides.answers member
    exact ⟨outcome.2, found, (first entry.2 outcome stops).2⟩

/-- In every interleaving of everything the gateway has in hand, a request whose
calls the synthetic server answers can be finished, and when it is finished it has
been answered uniformly, with one completion for each question. -/
theorem answers_uniformly_through {service last : DecisionService ℝ} {before events : List Event}
    (demonstrates : Demonstrates oracle) (known : served settings request.model = true)
    (reached : run (step settings) (initial settings) before = some service)
    (ran : run (obeying settings oracle service.calls.length) service
      (.evaluate request :: events) = some last) :
    ((∃ more final, run (settling settings oracle service.calls.length) last more = some final ∧
        Finished service.calls.length final) ∧
      ∀ more final, run (settling settings oracle service.calls.length) last more = some final →
        more.length ≤ last.work settings) ∧
    ∃ call, last.calls[service.calls.length]? = some call ∧ (call.phase.isFinished = true →
      ∃ response, call.phase = .returned response none ∧ UniformResponse settings request response ∧
        ∀ index < request.questions.entries.length,
          generations events ⟨service.calls.length, some index⟩ = 1) := by
  obtain ⟨joined, stepped, ran⟩ := run_cons ran
  have joins : Tracked settings oracle request service.calls.length (fun _ => 0) joined :=
    evaluate_tracked (run_valid reached) known (obeying_step stepped)
  obtain ⟨valid, call, located, tracks, _⟩ := run_tracked joins ran
  simp only [Nat.zero_add] at tracks
  obtain ⟨bound, _⟩ := List.getElem?_eq_some_iff.mp located
  refine ⟨schedules_finish oracle valid bound, call, located, fun finished => ?_⟩
  have sound := valid.sound call (List.mem_of_getElem? located)
  cases phase : call.phase with
  | validating | acquiring | calling | gathering | cleaning =>
      rw [phase] at finished
      cases finished
  | returned response observation =>
      simp only [Call.Sound, phase] at sound
      obtain ⟨results, collected, returned⟩ := sound
      obtain ⟨rfl, outcomes, decides, attempts⟩ := tracks.decides collected returned
      obtain ⟨uniform, immediate⟩ := demonstrates.outcomes decides
      refine ⟨response, rfl, uniform, fun index within => ?_⟩
      obtain ⟨outcome, found, _⟩ :=
        forall₂_getElem? decides.answers (List.getElem?_eq_getElem within)
      rw [attempts index outcome found, immediate outcome (List.mem_of_getElem? found)]
  | raised error =>
      -- a question without an answer would have been rejected at its first attempt
      have fails := tracks.follows
      simp only [Call.Follows, phase, tracks.asks] at fails
      obtain ⟨_, entry, _, exhausted⟩ := fails
      obtain ⟨answer, immediate, _⟩ :=
        demonstrates.stops request.state entry.2 settings.validationRetries
      exact absurd exhausted immediate.not_exhausted

/-- The completions of the synthetic server. -/
def demoOracle : Oracle :=
  fun _ question _ => ⟨(sheet question).toOption.getD [], 0, lit "stop"⟩

theorem demoOracle_demonstrates : Demonstrates demoOracle := by
  intro state question attempt
  have inLimit : (0 : Int) < 64 ∧ (64 : Int) ≤ 16 * 1024 * 1024 := by decide
  obtain ⟨system, content, rendered, _⟩ := prompt_shape state question none
  obtain ⟨text, _, written, _⟩ := sheet_uniform question
  refine ⟨fun _ => false, connected, 64, none, _, _, rfl, inLimit, rendered,
    doPost_prompt rfl inLimit rendered written, ?_⟩
  rw [completion_decodes, demoOracle, written]
  rfl

def halved : List Event :=
  [.start 0 0, .ended ⟨0, some 0⟩ (.completed ⟨lit "\x7b\"noul\": 0.5\x7d", 0, lit "stop"⟩),
    .report 0 0, .wake 0, .report 0 0, .wake 0]

theorem answers_uniformly_through_halved :
    ∃ (last : DecisionService ℝ) (call : Call ℝ) (response : SystemOneResponse ℝ),
      run (obeying oneSlot demoOracle 0) (initial oneSlot)
        (.evaluate (noulRequest (lit "s")) :: halved) = some last ∧
      last.calls[0]? = some call ∧ call.phase = .returned response none ∧
      UniformResponse oneSlot (noulRequest (lit "s")) response := by
  have finished : (run (obeying oneSlot demoOracle 0) (initial oneSlot : DecisionService ℝ)
      (.evaluate (noulRequest (lit "s")) :: halved)).map (fun service =>
        service.calls.all fun call => call.phase.isFinished) = some true := by
    decide +kernel
  obtain ⟨last, ran, all⟩ := Option.map_eq_some_iff.mp finished
  obtain ⟨_, call, located, ends⟩ := answers_uniformly_through demoOracle_demonstrates
    (by decide +kernel) (run_nil _) ran
  obtain ⟨response, returned, uniform, _⟩ :=
    ends (List.all_eq_true.mp all call (List.mem_of_getElem? located))
  exact ⟨last, call, response, ran, located, returned, uniform⟩

end VllmVerifier.Demo

import VllmVerifier.Gateway.PromptProperties
import VllmVerifier.VisionProperties

/-!
What the gateway shows the inference server. In no run does a backend call carry
an image that did not pass the check, and a request with such an image takes no
slot and asks no question.
-/

set_option autoImplicit false

namespace VllmVerifier.Gateway

open Python Asyncio Machine Vision

variable {F : Type} [LogField F] {settings : Settings} {slots next : Slots} {runner : Runner}
  {openImage : Vision.Bytes → Except PyException Opened}

/-! ## Messages -/

/-- The image URLs of a message. -/
def imageUrls (message : Message) : List Str :=
  match message.content with
  | .text _ => []
  | .parts parts => parts.filterMap fun part =>
      match part with
      | .imageUrl url => some url
      | .text _ => none

theorem observation_urls {images : List Str} {message : Message}
    (member : message ∈ observationMessages images) {url : Str} (shown : url ∈ imageUrls message) :
    url ∈ images := by
  simp only [observationMessages, List.mem_cons, List.not_mem_nil, or_false] at member
  rcases member with rfl | rfl
  · cases shown
  · simpa [imageUrls] using shown

/-- A question is asked in words. -/
theorem decision_urls {state : Content} {question : Question} {correction : Option String}
    {messages : List Message}
    (rendered : decisionMessages state question correction = .ok messages) {message : Message}
    (member : message ∈ messages) : imageUrls message = [] := by
  obtain ⟨content, _, shaped⟩ := except_bind_ok rendered
  cases shaped
  simp only [List.mem_cons, List.not_mem_nil, or_false] at member
  rcases member with rfl | rfl <;> rfl

/-! ## One call -/

namespace Call

variable {request index : Nat} {before after : Call F}

/-- How a request ends that has an image which is not inline. -/
def Rejection (openImage : Vision.Bytes → Except PyException Opened) : Raised → Prop
  | .cancelled => True
  | .error raised => raised = .serviceError unknownModel ∨ raised = .serviceError invalidImage ∨
      (imageCatches raised = false ∧ PillowRaises openImage raised)

/-- A call that has asked for nothing yet, or that was rejected before it could. -/
def Barred (openImage : Vision.Bytes → Except PyException Opened) (call : Call F) : Prop :=
  call.tasks = [] ∧
    (call.phase = .validating ∨ ∃ error, call.phase = .raised error ∧ Rejection openImage error)

/-- What a step of a call leaves of its images, and the message it can put. -/
structure Shows (before after : Call F) : Prop where
  images : after.images = before.images
  asks : ∀ messages, after.phase = .calling messages →
    messages = observationMessages after.images ∨ before.phase = .calling messages

theorem Shows.of_other (images : after.images = before.images)
    (other : ∀ messages, after.phase ≠ .calling messages) : before.Shows after :=
  ⟨images, fun messages asking => absurd asking (other messages)⟩

theorem Shows.of_phase (images : after.images = before.images) (phase : after.phase = before.phase) :
    before.Shows after :=
  ⟨images, fun _ asking => .inr (phase ▸ asking)⟩

theorem evaluate_shows (settings : Settings) (call : Call F) :
    (call.evaluate settings).images = call.images ∧
      ∀ messages, (call.evaluate settings).phase ≠ .calling messages := by
  unfold evaluate
  split
  · exact ⟨rfl, fun _ => by simp⟩
  · exact ⟨rfl, fun _ => by simp [raise]⟩

theorem validated_shows {outcome : Except PyException Unit}
    (went : before.validated runner slots outcome = some (next, after)) : before.Shows after := by
  unfold validated at went
  split at went
  case h_1 =>
    split at went
    · cases went
      exact .of_other rfl fun _ => by simp
    · split at went
      · cases went
        exact .of_other rfl fun _ => by simp [raise]
      · have same := congrArg Prod.snd (Option.some.inj went)
        subst same
        refine ⟨rfl, fun messages asking => .inl ?_⟩
        dsimp only at asking
        split at asking
        · cases asking
          rfl
        · cases asking
  all_goals cases went

theorem resume_shows (went : before.resume runner slots = some (next, after)) :
    before.Shows after := by
  unfold resume at went
  split at went
  case h_1 =>
    split at went
    · cases went
    · cases went
      refine ⟨rfl, fun messages asking => .inl ?_⟩
      cases asking
      rfl
    · cases went
      exact .of_other rfl fun _ => by simp
  all_goals cases went

theorem ended_shows {outcome : Outcome}
    (went : before.ended settings slots outcome = some (next, after)) : before.Shows after := by
  unfold ended at went
  split at went
  case h_1 =>
    cases outcome with
    | completed completion =>
        cases went
        unfold observe
        split
        · exact .of_other rfl fun _ => by simp [raise]
        · obtain ⟨images, other⟩ := evaluate_shows settings { before with
            mustCancel := false
            observed := some completion
            request := { before.request with
              state := observedState before.request.state completion.text } }
          exact .of_other images other
    | raised error =>
        cases went
        exact .of_other rfl fun _ => by simp [raise]
    | cancelled =>
        dsimp only at went
        split at went
        · cases went
          exact .of_other rfl fun _ => by simp
        · cases went
  all_goals cases went

theorem report_shows (went : before.report index = some after) : before.Shows after := by
  unfold report at went
  split at went
  · cases went
  · split at went
    · dsimp only at went
      split at went
      · cases went
        exact .of_other rfl fun _ => by simp
      · cases went
        exact .of_other rfl fun _ => by simp
      all_goals cases went
    · cases went

theorem wake_shows (went : before.wake settings request slots = some (next, after)) :
    before.Shows after := by
  unfold wake at went
  split at went
  · split at went
    · cases went
    · have same := congrArg Prod.snd (Option.some.inj went)
      subst same
      exact .of_other rfl fun _ => by simp
  · split at went
    · cases went
    · cases went
      refine .of_other rfl fun messages asking => ?_
      dsimp only at asking
      split at asking
      · cases asking
      · cases asking
      · rename_i results _ _
        rcases conclude_cases settings before results with ⟨_, _, returned⟩ | ⟨_, raised⟩
        · cases returned.symm.trans asking
        · cases raised.symm.trans asking
  all_goals cases went

theorem cancelGather_shows {Result : Type} {gather : Gather Result}
    {phase : Gather Result → Phase F} (other : ∀ gather messages, phase gather ≠ .calling messages) :
    before.Shows (before.cancelGather request slots gather phase).2 := by
  unfold cancelGather
  split
  · exact .of_phase rfl rfl
  · exact .of_other rfl fun messages => other _ messages

theorem cancel_shows (went : before.cancel request slots = some (next, after)) :
    before.Shows after := by
  unfold cancel at went
  split at went
  case h_4 | h_5 =>
    have same := congrArg Prod.snd (Option.some.inj went)
    dsimp only at same
    exact same ▸ cancelGather_shows fun _ _ => by simp
  case h_6 | h_7 => cases went
  all_goals
    cases went
    exact .of_phase rfl rfl

theorem onTask_shows {act : Task F → Option (Slots × Task F)}
    (went : before.onTask index act = some (next, after)) : before.Shows after := by
  unfold onTask at went
  split at went
  · cases went
  · split at went
    · cases went
    · cases went
      exact .of_phase rfl rfl

/-! ## Barred calls -/

/-- Nothing but its check and a cancellation moves a barred call. -/
theorem Barred.stuck (barred : before.Barred openImage) (settings : Settings) (request index : Nat)
    (runner : Runner) (slots : Slots) (outcome : Outcome) :
    before.resume runner slots = none ∧ before.ended settings slots outcome = none ∧
      before.report index = none ∧ before.wake settings request slots = none := by
  obtain ⟨empty, phase | ⟨error, phase, _⟩⟩ := barred
  · simp [resume, ended, report, wake, empty, phase]
  · simp [resume, ended, report, wake, empty, phase]

theorem Barred.onTask (barred : before.Barred openImage) (act : Task F → Option (Slots × Task F)) :
    before.onTask index act = none := by
  simp [Call.onTask, barred.1]

theorem Barred.validated {outcome : Except PyException Unit} (barred : before.Barred openImage)
    (rejected : outcome ≠ .ok ())
    (checked : ∀ raised, outcome = .error raised → Rejection openImage (.error raised))
    (went : before.validated runner slots outcome = some (next, after)) : after.Barred openImage := by
  unfold Call.validated at went
  split at went
  case h_1 =>
    split at went
    · cases went
      exact ⟨barred.1, .inr ⟨_, rfl, trivial⟩⟩
    · split at went
      · rename_i raised
        cases went
        exact ⟨barred.1, .inr ⟨_, rfl, checked raised rfl⟩⟩
      · exact absurd rfl rejected
  all_goals cases went

theorem Barred.cancel (barred : before.Barred openImage)
    (went : before.cancel request slots = some (next, after)) : after.Barred openImage := by
  obtain ⟨empty, phase | ⟨error, phase, _⟩⟩ := barred
  · rw [Call.cancel, phase] at went
    cases went
    exact ⟨empty, .inl rfl⟩
  · rw [Call.cancel, phase] at went
    cases went

/-! ## Vetted calls -/

/-- Only a call whose images are all inline gets past the check; what it then asks
carries its own images, and its questions carry none. -/
structure Vetted (openImage : Vision.Bytes → Except PyException Opened) (call : Call F) : Prop where
  barred : (¬ ∀ image ∈ call.images, Inline openImage image) → call.Barred openImage
  asks : ∀ messages, call.phase = .calling messages → messages = observationMessages call.images
  questions : ∀ task ∈ call.tasks, ∀ messages, task.phase = .calling messages →
    ∀ message ∈ messages, imageUrls message = []

theorem Vetted.caller (vetted : before.Vetted openImage) (shown : before.Shows after)
    (keeps : ∀ index, Keeps index before after)
    (barred : (¬ ∀ image ∈ before.images, Inline openImage image) → before.Barred openImage →
      after.Barred openImage) :
    after.Vetted openImage := by
  refine ⟨fun foreign => ?_, fun messages asking => ?_, fun task member => ?_⟩
  · rw [shown.images] at foreign
    exact barred foreign (vetted.barred foreign)
  · rcases shown.asks messages asking with own | earlier
    · exact own
    · rw [shown.images]
      exact vetted.asks messages earlier
  · intro messages asking message sent
    obtain ⟨index, located⟩ := List.getElem?_of_mem member
    cases keeps index with
    | absent _ missing => cases missing.symm.trans located
    | created question _ found =>
        cases found.symm.trans located
        cases asking
    | alike known found alike _ =>
        cases found.symm.trans located
        rw [alike.phase] at asking
        exact vetted.questions _ (List.mem_of_getElem? known) messages asking message sent

theorem Vetted.onTask {state : Content} {act : Task F → Option (Slots × Task F)}
    (vetted : before.Vetted openImage)
    (rendered : ∀ (task : Task F) slots later, act task = some (slots, later) →
      later.Rendered state)
    (went : before.onTask index act = some (next, after)) : after.Vetted openImage := by
  have shown := onTask_shows went
  refine ⟨fun foreign => ?_, fun messages asking => ?_, fun task member => ?_⟩
  · rw [shown.images] at foreign
    rw [(vetted.barred foreign).onTask act] at went
    cases went
  · rcases shown.asks messages asking with own | earlier
    · exact own
    · rw [shown.images]
      exact vetted.asks messages earlier
  · unfold Call.onTask at went
    split at went
    · cases went
    split at went
    · cases went
    rename_i acted
    cases went
    intro messages asking message sent
    rcases List.mem_or_eq_of_mem_set member with earlier | rfl
    · exact vetted.questions task earlier messages asking message sent
    · exact decision_urls (rendered _ _ _ acted messages asking) sent

end Call

/-! ## Runs -/

/-- A check of images ends as `vision.py` has it. -/
def checks (openImage : Vision.Bytes → Except PyException Opened) (service : DecisionService F) :
    Event → Bool
  | .validated request outcome =>
      match service.calls[request]? with
      | none => true
      | some call => decide (outcome = validateImages openImage call.images)
  | .evaluate _ | .evaluateVision _ | .start _ _ | .resume _ | .ended _ _ | .report _ _ | .wake _
  | .cancel _ => true

def checking (openImage : Vision.Bytes → Except PyException Opened) (settings : Settings)
    (service : DecisionService F) (event : Event) : Option (DecisionService F) :=
  if checks openImage service event = true then step settings service event else none

section Runs

variable {service after : DecisionService F} {event : Event}

theorem onCall_vetted {request : Nat} {act : Call F → Option (Slots × Call F)}
    (all : ∀ call ∈ service.calls, call.Vetted openImage)
    (acts : ∀ (before : Call F) slots next, service.calls[request]? = some before →
      before.Vetted openImage → act before = some (slots, next) → next.Vetted openImage)
    (stepped : service.onCall request act = some after) :
    ∀ call ∈ after.calls, call.Vetted openImage := by
  obtain ⟨before, slots, next, found, acted, rfl⟩ := DecisionService.onCall_some stepped
  exact forall_set all request (acts before slots next found (all before
    (List.mem_of_getElem? found)) acted)

theorem ofRequest_vetted (request : SystemOneRequest) :
    (Call.ofRequest settings request : Call F).Vetted openImage := by
  have created := @Call.evaluate_created _ _ settings
    (⟨request, [], none, .validating, false, []⟩ : Call F) rfl
  obtain ⟨images, other⟩ := Call.evaluate_shows settings
    (⟨request, [], none, .validating, false, []⟩ : Call F)
  refine ⟨fun foreign => ?_, fun messages asking => absurd asking (other messages),
    fun task member messages asking => ?_⟩
  · rw [Call.ofRequest, images] at foreign
    exact absurd (List.forall_mem_nil _) foreign
  · rw [created task member] at asking
    cases asking

theorem ofVision_vetted (request : VisionRequest) :
    (Call.ofVision settings request : Call F).Vetted openImage := by
  unfold Call.ofVision
  dsimp only
  split
  · exact ⟨fun _ => ⟨rfl, .inl rfl⟩, fun _ asking => (by cases asking),
      fun _ member => (by cases member)⟩
  · exact ⟨fun _ => ⟨rfl, .inr ⟨_, rfl, .inl rfl⟩⟩, fun _ asking => (by cases asking),
      fun _ member => (by cases member)⟩

theorem step_vetted (valid : service.Valid settings)
    (all : ∀ call ∈ service.calls, call.Vetted openImage)
    (stepped : checking openImage settings service event = some after) :
    ∀ call ∈ after.calls, call.Vetted openImage := by
  unfold checking at stepped
  split at stepped
  case isFalse => cases stepped
  case isTrue checked =>
    cases event with
    | evaluate request =>
        cases stepped
        exact List.forall_mem_append.mpr ⟨all, List.forall_mem_singleton.mpr (ofRequest_vetted _)⟩
    | evaluateVision request =>
        cases stepped
        exact List.forall_mem_append.mpr ⟨all, List.forall_mem_singleton.mpr (ofVision_vetted _)⟩
    | validated request outcome =>
        refine onCall_vetted all (fun before slots next found vetted went => ?_) stepped
        refine vetted.caller (Call.validated_shows went) (Call.validated_keeps went)
          fun foreign barred => ?_
        simp only [checks, found, decide_eq_true_eq] at checked
        subst checked
        refine barred.validated (fun accepted => foreign (validateImages_ok_iff.mp accepted)) ?_ went
        exact fun raised failed => .inr (validateImages_raises failed)
    | start request index =>
        exact onCall_vetted all (fun before slots next found vetted went =>
          vetted.onTask (fun _ _ _ acted => Task.start_rendered acted) went) stepped
    | resume runner =>
        obtain ⟨request, question⟩ := runner
        cases question with
        | none =>
            refine onCall_vetted all (fun before slots next found vetted went => ?_) stepped
            refine vetted.caller (Call.resume_shows went) (Call.resume_keeps went)
              fun _ barred => ?_
            obtain ⟨stuck, _⟩ := barred.stuck settings 0 0 ⟨request, none⟩ service.slots .cancelled
            cases stuck.symm.trans went
        | some index =>
            exact onCall_vetted all (fun before slots next found vetted went =>
              vetted.onTask (fun _ _ _ acted => Task.resume_rendered acted) went) stepped
    | ended runner outcome =>
        obtain ⟨request, question⟩ := runner
        cases question with
        | none =>
            refine onCall_vetted all (fun before slots next found vetted went => ?_) stepped
            have sound := valid.sound before (List.mem_of_getElem? found)
            refine vetted.caller (Call.ended_shows went) (Call.ended_keeps sound went)
              fun _ barred => ?_
            obtain ⟨_, stuck, _⟩ :=
              barred.stuck settings 0 0 ⟨request, none⟩ service.slots outcome
            cases stuck.symm.trans went
        | some index =>
            exact onCall_vetted all (fun before slots next found vetted went =>
              vetted.onTask (fun _ _ _ acted => Task.ended_rendered acted) went) stepped
    | report request index =>
        refine onCall_vetted all (fun before slots next found vetted went => ?_) stepped
        obtain ⟨heard, reported, same⟩ := Option.map_eq_some_iff.mp went
        cases same
        refine vetted.caller (Call.report_shows reported) (Call.report_keeps reported)
          fun _ barred => ?_
        obtain ⟨_, _, stuck, _⟩ :=
          barred.stuck settings 0 index ⟨request, none⟩ service.slots .cancelled
        cases stuck.symm.trans reported
    | wake request =>
        refine onCall_vetted all (fun before slots next found vetted went => ?_) stepped
        refine vetted.caller (Call.wake_shows went) (Call.wake_keeps went) fun _ barred => ?_
        obtain ⟨_, _, _, stuck⟩ :=
          barred.stuck settings request 0 ⟨request, none⟩ service.slots .cancelled
        cases stuck.symm.trans went
    | cancel request =>
        refine onCall_vetted all (fun before slots next found vetted went => ?_) stepped
        exact vetted.caller (Call.cancel_shows went) (Call.cancel_keeps went)
          fun _ barred => barred.cancel went

theorem run_vetted {events : List Event}
    (ran : run (checking openImage settings) (initial settings) events = some service) :
    ∀ call ∈ service.calls, call.Vetted openImage := by
  have kept : ∀ (state : DecisionService F) event next,
      state.Valid settings ∧ (∀ call ∈ state.calls, call.Vetted openImage) →
      checking openImage settings state event = some next →
      next.Valid settings ∧ ∀ call ∈ next.calls, call.Vetted openImage := by
    intro state event next held stepped
    obtain ⟨valid, all⟩ := held
    have plain : step settings state event = some next := by
      unfold checking at stepped
      split at stepped
      · exact stepped
      · cases stepped
    exact ⟨step_valid valid plain, step_vetted valid all stepped⟩
  have held := run_invariant kept ran
    ⟨DecisionService.Valid.initial, fun call member => by cases member⟩
  exact held.2

end Runs

/-- A backend call of the request carries this message. -/
def Call.Sends (call : Call F) (message : Message) : Prop :=
  (∃ messages, call.phase = .calling messages ∧ message ∈ messages) ∨
    ∃ task ∈ call.tasks, ∃ messages, task.phase = .calling messages ∧ message ∈ messages

theorem Call.Vetted.sends {call : Call F} (vetted : call.Vetted openImage) {message : Message}
    (sent : call.Sends message) {url : Str} (shown : url ∈ imageUrls message) :
    url ∈ call.images ∧ Inline openImage url := by
  rcases sent with ⟨messages, asking, member⟩ | ⟨task, asked, messages, asking, member⟩
  · obtain rfl := vetted.asks messages asking
    have own := observation_urls member shown
    refine ⟨own, ?_⟩
    -- a call with another kind of image is barred, and so not calling
    by_contra foreign
    obtain ⟨_, phase | ⟨error, phase, _⟩⟩ := vetted.barred fun all => foreign (all url own)
    · cases phase.symm.trans asking
    · cases phase.symm.trans asking
  · rw [vetted.questions task asked messages asking message member] at shown
    cases shown

theorem Call.Barred.acquired {call : Call F} (barred : call.Barred openImage) :
    call.acquired = 0 := by
  obtain ⟨empty, phase | ⟨error, phase, _⟩⟩ := barred <;>
    simp [Call.acquired, empty, phase, Phase.status, Status.held]

/-- Wherever a run stops, every image in a backend call is one of its own request and
inline: no URL reaches the inference server that it would have to fetch. A request with
any other image asks no question and takes no slot, and ends in a rejection. -/
theorem shows_inline_only (openImage : Vision.Bytes → Except PyException Opened)
    (settings : Settings) (events : List Event) (service : DecisionService F)
    (ran : run (checking openImage settings) (initial settings) events = some service) :
    ∀ call ∈ service.calls,
      (∀ message, call.Sends message → ∀ url ∈ imageUrls message,
        url ∈ call.images ∧ Inline openImage url) ∧
      ((¬ ∀ image ∈ call.images, Inline openImage image) →
        call.tasks = [] ∧ call.acquired = 0 ∧ (call.phase = .validating ∨
          ∃ error, call.phase = .raised error ∧ Call.Rejection openImage error)) := by
  intro call member
  have vetted := run_vetted ran call member
  refine ⟨fun message sent url shown => vetted.sends sent shown, fun foreign => ?_⟩
  have barred := vetted.barred foreign
  exact ⟨barred.1, barred.acquired, barred.2⟩

/-- Pillow as it takes one byte for a small PNG, and raises on all else. -/
def onePixel (bytes : Vision.Bytes) : Except PyException Opened :=
  if bytes = [0] then .ok ⟨some (lit "PNG"), 1, 1, .ok ()⟩
  else .error (.other "UnidentifiedImageError")

def pictured : VisionRequest :=
  { noulRequest (lit "s") with
    images := [dataUrl (lit "image/png") [0]]
    imageCount := by decide }

theorem shows_inline_only_pictured :
    ∃ (service : DecisionService ℝ) (call : Call ℝ) (message : Message),
      run (checking onePixel oneSlot) (initial oneSlot)
        [.evaluateVision pictured, .validated 0 (.ok ())] = some service ∧
      call ∈ service.calls ∧ call.Sends message ∧ imageUrls message = pictured.images ∧
      ∀ url ∈ imageUrls message, Inline onePixel url := by
  have finished : (run (checking onePixel oneSlot) (initial oneSlot : DecisionService ℝ)
      [.evaluateVision pictured, .validated 0 (.ok ())]).map DecisionService.calls =
      some [⟨pictured.toSystemOneRequest, pictured.images, none,
        .calling (observationMessages pictured.images), false, []⟩] := by
    rfl
  obtain ⟨service, ran, calls⟩ := Option.map_eq_some_iff.mp finished
  obtain ⟨message, asked, urls⟩ : ∃ message ∈ observationMessages pictured.images,
      imageUrls message = pictured.images :=
    ⟨_, List.mem_cons_of_mem _ (List.mem_singleton_self _), rfl⟩
  obtain ⟨call, located, phase⟩ : ∃ call ∈ service.calls,
      call.phase = .calling (observationMessages pictured.images) :=
    ⟨_, calls ▸ List.mem_singleton_self _, rfl⟩
  have sent : call.Sends message := .inl ⟨_, phase, asked⟩
  obtain ⟨shown, _⟩ := shows_inline_only onePixel oneSlot _ service ran call located
  exact ⟨service, call, message, ran, located, sent, urls,
    fun url member => (shown message sent url member).2⟩

end VllmVerifier.Gateway

import VllmVerifier.Engine.MlxBackend

/-!
The MLX backend over every interleaving: one owner serves the calls in the order
they were made in, each answer is the one to the messages of its own call, and
`close` lets the job that runs end before the runtime is given up.
-/

set_option autoImplicit false

namespace VllmVerifier.Engine

open Python Asyncio Machine

variable {σ : Type} {mlx : Mlx σ} {outputTokens : Nat}

/-! ## What the owner answers -/

/-- The exceptions that `generate` translates. -/
def Mlx.Translated (raised : PyException) : Prop :=
  raised.isValueError = true ∨ (∃ message, raised = .runtimeError message) ∨ raised = .memoryError

theorem Mlx.reported_only (raised : PyException) : ¬ Translated (reported raised) := by
  unfold reported
  split
  · rintro (value | ⟨message, runtime⟩ | memory)
    · cases value
    · cases runtime
    · cases memory
  · rename_i value
    split
    · rintro (value | ⟨message, runtime⟩ | memory)
      · cases value
      · cases runtime
      · cases memory
    · rintro (value | ⟨message, runtime⟩ | memory)
      · cases value
      · cases runtime
      · cases memory
    · rename_i runtime memory
      rintro (translated | ⟨message, translated⟩ | translated)
      · exact value translated
      · exact runtime message translated
      · exact memory translated

/-- A generation leaves no statistics behind, and raises nothing that its
`except` clauses name. -/
theorem Mlx.generate_spec (messages : List Message) (owner : Owner σ) :
    (mlx.generate outputTokens messages owner).2.stats = [] ∧
      ∀ raised, (mlx.generate outputTokens messages owner).1 = .error raised →
        ¬ Translated raised := by
  unfold generate
  split
  · refine ⟨rfl, fun raised failed => ?_⟩
    cases failed
    exact reported_only _
  · refine ⟨rfl, fun raised failed => ?_⟩
    dsimp only at failed
    cases outcome : (mlx.completeTokens _ outputTokens _).1 with
    | ok completion =>
        rw [outcome] at failed
        cases failed
    | error other =>
        rw [outcome] at failed
        cases failed
        exact reported_only other

namespace MlxBackend

namespace Backend

variable {backend next : Backend σ}

theorem serve_stats (job : Job) (owner : Owner σ) (clear : owner.stats = []) :
    (serve mlx outputTokens job owner).2.stats = [] := by
  cases job with
  | load => exact clear
  | generate messages => exact (Mlx.generate_spec messages owner).1

/-! ## What resumes -/

/-- What `start` does after its await: the runtime is loaded, or it fails and closes. -/
theorem resumeStart_cases (resumed : backend.resumeStart = some next) :
    ∃ item, backend.starting = .loading item ∧
      (backend.executor.progress? item = some (.finished (.loaded (.ok ()))) ∧
        next = { backend with runtime := true, starting := .started } ∨
      next = { backend with starting := .failed }.close) := by
  unfold resumeStart at resumed
  split at resumed
  · rename_i item starting
    refine ⟨item, starting, ?_⟩
    split at resumed
    · rename_i answered
      cases resumed
      exact .inl ⟨answered, rfl⟩
    · split at resumed
      · cases resumed
      · cases resumed
        exact .inr rfl
    · cases resumed
      exact .inr rfl
    all_goals cases resumed
  all_goals cases resumed

/-- What `complete` does after its await: it ends as its item did, or cancelled. -/
theorem resumeCall_cases {id : Nat} (resumed : backend.resumeCall id = some next) :
    ∃ messages item outcome, backend.calls[id]? = some ⟨messages, some item, none⟩ ∧
      next = backend.settle id ⟨messages, some item, none⟩ outcome ∧
        ∀ answer, outcome = .answered answer →
          backend.executor.progress? item = some (.finished (.generated answer)) := by
  unfold resumeCall at resumed
  split at resumed
  · rename_i messages item found
    refine ⟨messages, item, ?_⟩
    split at resumed
    · rename_i completion answered
      cases resumed
      exact ⟨_, found, rfl, fun answer same => by cases same; exact answered⟩
    · rename_i raised answered
      split at resumed
      · cases resumed
        exact ⟨_, found, rfl, fun answer same => by cases same; exact answered⟩
      · cases resumed
        exact ⟨_, found, rfl, fun answer same => by cases same⟩
      · cases resumed
    · cases resumed
      exact ⟨_, found, rfl, fun answer same => by cases same⟩
    · cases resumed
  · cases resumed

/-! ## The invariant -/

/-- A call was refused at once, or it has an item of its own with its messages,
and its answer is what the item was answered. -/
def Attributed (executor : Executor Job Result) (call : Call) : Prop :=
  (∃ error, call.item = none ∧ call.outcome = some (.answered (.error (.serviceError error))) ∧
    (error = unavailable ∨ error = textOnly ∧ call.messages.any (fun message => !isText message))) ∨
  ∃ id item, call.item = some id ∧ executor.items[id]? = some item ∧
    item.job = .generate call.messages ∧ (∀ message ∈ call.messages, isText message = true) ∧
      ∀ outcome, call.outcome = some (.answered outcome) →
        item.progress = .finished (.generated outcome)

theorem Attributed.later {executor after : Executor Job Result} {call : Call}
    (attributed : Attributed executor call) (later : executor.Later after) :
    Attributed after call := by
  rcases attributed with refused | ⟨id, item, own, found, job, text, answer⟩
  · exact .inl refused
  · obtain ⟨last, located, same, kept⟩ := later.kept id item found
    refine .inr ⟨id, last, own, located, same.trans job, text, fun outcome answered => ?_⟩
    have finished := answer outcome answered
    rw [kept (by rw [finished]; rfl), finished]

/-- A start that is under way awaits a load that raised what its future cannot take. -/
def StartStuck (backend : Backend σ) : Prop :=
  ∀ item, backend.starting = .loading item →
    backend.executor.progress? item = some (.finished (.loaded (.error stopIteration)))

/-- What holds in every reachable state. -/
structure Kept (mlx : Mlx σ) (outputTokens : Nat) (backend : Backend σ) : Prop where
  executor : backend.executor.Valid
  shut : backend.executor.shutdown = true ↔
    backend.closing = .waiting ∨ backend.closing = .complete
  opened : backend.closed = true ↔ backend.closing ≠ .opened
  served : Executor.serveAll (serve mlx outputTokens) (backend.executor.ran.map Prod.fst)
    ⟨mlx.fresh, []⟩ = (backend.executor.ran, backend.owner)
  clear : backend.owner.stats = []
  calls : ∀ call ∈ backend.calls, Attributed backend.executor call
  distinct : (backend.calls.filterMap Call.item).Nodup
  loading : ∀ id, backend.starting = .loading id →
    ∃ item, backend.executor.items[id]? = some item ∧ item.job = .load
  loaded : backend.runtime = true → mlx.load = .ok ()
  released : backend.closing = .complete → backend.runtime = false ∧
    backend.executor.thread = none ∧ backend.StartStuck

theorem Kept.initial : Kept mlx outputTokens (initial mlx) where
  executor := .create
  shut := by simp [Backend.initial, Executor.create]
  opened := by simp [Backend.initial]
  served := rfl
  clear := rfl
  calls _ member := by cases member
  distinct := .nil
  loading _ starting := by cases starting
  loaded runtime := by cases runtime
  released closing := by cases closing

theorem Later.finished {executor after : Executor Job Result} (later : executor.Later after)
    {id : Nat} {result : Result} (ended : executor.progress? id = some (.finished result)) :
    after.progress? id = some (.finished result) := by
  obtain ⟨item, found, progress⟩ := Option.map_eq_some_iff.mp ended
  obtain ⟨last, located, _, kept⟩ := later.kept id item found
  rw [Executor.progress?, located, kept (by rw [progress]; rfl)]
  exact congrArg some progress

/-- What becomes of the executor alone. -/
theorem Kept.withExecutor (kept : Kept mlx outputTokens backend)
    {executor : Executor Job Result} (valid : executor.Valid)
    (later : backend.executor.Later executor) (ran : executor.ran = backend.executor.ran)
    (shut : executor.shutdown = backend.executor.shutdown)
    (thread : backend.closing = .complete → executor.thread = none) :
    Kept mlx outputTokens { backend with executor } :=
  { kept with
    executor := valid
    shut := shut ▸ kept.shut
    served := by
      dsimp only
      rw [ran]
      exact kept.served
    calls := fun call member => (kept.calls call member).later later
    loading := fun id starting => by
      obtain ⟨item, found, job⟩ := kept.loading id starting
      obtain ⟨after, located, same, _⟩ := later.kept id item found
      exact ⟨after, located, same.trans job⟩
    released := fun closing => ⟨(kept.released closing).1, thread closing,
      fun item starting => Later.finished later ((kept.released closing).2.2 item starting)⟩ }

theorem Kept.cancelled (kept : Kept mlx outputTokens backend) (id : Nat) :
    Kept mlx outputTokens { backend with executor := backend.executor.cancel id } := by
  have withdraws := (Executor.cancel_withdraws backend.executor id).1
  have same := (Executor.cancel_same backend.executor id).2
  refine kept.withExecutor (kept.executor.cancel id) (withdraws.later fun shut => same.trans shut)
    withdraws.ran same fun closing => ?_
  rw [withdraws.thread]
  exact (kept.released closing).2.1

theorem Kept.submitted (kept : Kept mlx outputTokens backend) {job : Job}
    {executor : Executor Job Result} (submitted : backend.executor.submit job = .ok executor) :
    Kept mlx outputTokens { backend with executor } := by
  obtain ⟨open', shape⟩ := Executor.submit_some submitted
  refine kept.withExecutor (kept.executor.submit submitted) (Executor.submit_later submitted)
    (Executor.submit_ran submitted) (by rw [shape]) fun closing => ?_
  rw [shape]
  exact (kept.released closing).2.1

theorem Kept.closes (kept : Kept mlx outputTokens backend) :
    Kept mlx outputTokens backend.close := by
  unfold close
  split
  · exact kept
  · rename_i opened
    have phase : backend.closing = .opened := by
      by_contra other
      exact opened (kept.opened.mpr other)
    exact { kept with
      shut := by
        have shut := kept.shut
        rw [phase] at shut
        simpa using shut
      opened := by simp
      released := fun closing => (by cases closing) }

/-- Not closed, so not shut down. -/
theorem Kept.accepts (kept : Kept mlx outputTokens backend) (opened : backend.closed = false)
    (job : Job) : ∃ executor, backend.executor.submit job = .ok executor ∧
      executor.items = backend.executor.items ++ [⟨job, .pending⟩] := by
  have running : ¬ backend.executor.shutdown = true := by
    intro shut
    have closed := kept.opened.mpr (by
      rcases kept.shut.mp shut with phase | phase <;>
        · rw [phase]
          exact Closing.noConfusion)
    rw [opened] at closed
    cases closed
  refine ⟨{ backend.executor with
    items := backend.executor.items ++ [⟨job, .pending⟩]
    queue := backend.executor.queue ++ [backend.executor.items.length] }, ?_, rfl⟩
  rw [Executor.submit, if_neg running]

theorem Kept.closing (kept : Kept mlx outputTokens backend) (opened : backend.closed = false) :
    backend.closing ≠ .complete := by
  intro complete
  have closed := kept.opened.mpr (by rw [complete]; exact Closing.noConfusion)
  rw [opened] at closed
  cases closed

/-! ## Steps keep it -/

theorem Kept.answers (kept : Kept mlx outputTokens backend) {id : Nat}
    {item : Asyncio.WorkItem Job Result} {result : Result}
    (found : backend.executor.items[id]? = some item) (finished : item.progress = .finished result) :
    ∃ owner, result = (serve mlx outputTokens item.job owner).1 := by
  have member := Executor.mem_ran found finished
  have shape : backend.executor.ran = (Executor.serveAll (serve mlx outputTokens)
      (backend.executor.ran.map Prod.fst) ⟨mlx.fresh, []⟩).1 := by rw [kept.served]
  rw [shape] at member
  exact Executor.serveAll_mem member

theorem Kept.settled (kept : Kept mlx outputTokens backend) (empty : backend.executor.queue = [])
    (idle : backend.executor.thread = none) {id : Nat} {item : Asyncio.WorkItem Job Result}
    (found : backend.executor.items[id]? = some item) : item.progress.settled = true := by
  cases progress : item.progress with
  | cancelled | finished => rfl
  | pending =>
      have member := kept.executor.pending id item found progress
      rw [empty] at member
      cases member
  | running =>
      have thread := (kept.executor.running id).mpr ⟨item, found, progress⟩
      rw [idle] at thread
      cases thread

/-- Where nothing is queued and the thread is idle, only a lost exception holds up
a start. -/
theorem Kept.stuck (kept : Kept mlx outputTokens backend) (empty : backend.executor.queue = [])
    (idle : backend.executor.thread = none) (still : backend.resumeStart = none) :
    backend.StartStuck := by
  intro id starting
  obtain ⟨item, found, job⟩ := kept.loading id starting
  have settled := kept.settled empty idle found
  have shape : backend.executor.progress? id = some item.progress := by
    rw [Executor.progress?, found]
    rfl
  unfold resumeStart at still
  simp only [starting, shape] at still
  rw [shape]
  cases progress : item.progress with
  | pending | running =>
      rw [progress] at settled
      cases settled
  | cancelled => simp [progress] at still
  | finished result =>
      obtain ⟨owner, answer⟩ := kept.answers found progress
      rw [job] at answer
      subst answer
      change item.progress = .finished (.loaded mlx.load) at progress
      rw [progress] at still
      cases loaded : mlx.load with
      | ok _ => simp [loaded] at still
      | error raised =>
          have lost : delivery raised = .never := by simpa [loaded] using still
          rw [serve, loaded, delivery_never_iff.mp lost]

theorem start_kept (kept : Kept mlx outputTokens backend) (started : backend.start = some next) :
    Kept mlx outputTokens next := by
  unfold start at started
  split at started
  · rename_i due
    obtain ⟨executor, submitted, items⟩ := kept.accepts due.2 .load
    simp only [submitted, Option.some.injEq] at started
    subst started
    exact { kept.submitted submitted with
      loading := fun id starting => by
        cases starting
        dsimp only
        rw [items, List.getElem?_concat_length]
        exact ⟨_, rfl, rfl⟩
      released := fun closing => absurd closing (kept.closing due.2) }
  · cases started

theorem Kept.fails (kept : Kept mlx outputTokens backend) :
    Kept mlx outputTokens { backend with starting := .failed } :=
  { kept with
    loading := fun id starting => (by cases starting)
    released := fun closing => ⟨(kept.released closing).1, (kept.released closing).2.1,
      fun _ starting => (by cases starting)⟩ }

theorem resumeStart_kept (kept : Kept mlx outputTokens backend)
    (resumed : backend.resumeStart = some next) : Kept mlx outputTokens next := by
  obtain ⟨id, starting, ⟨answered, rfl⟩ | rfl⟩ := resumeStart_cases resumed
  · have open' : backend.closing ≠ .complete := by
      intro closing
      have stuck := (kept.released closing).2.2 id starting
      rw [answered] at stuck
      cases stuck
    obtain ⟨item, found, job⟩ := kept.loading id starting
    have finished : item.progress = .finished (.loaded (.ok ())) := by
      rw [Executor.progress?, found] at answered
      exact Option.some.inj answered
    obtain ⟨owner, answer⟩ := kept.answers found finished
    rw [job] at answer
    exact { kept with
      loading := fun id starting => (by cases starting)
      loaded := fun _ => (Result.loaded.inj answer).symm
      released := fun closing => absurd closing open' }
  · exact kept.fails.closes

theorem cancelStart_kept (kept : Kept mlx outputTokens backend)
    (cancelled : backend.cancelStart = some next) : Kept mlx outputTokens next := by
  unfold cancelStart at cancelled
  split at cancelled
  · rename_i id _
    cases cancelled
    exact (kept.cancelled id).fails.closes
  all_goals cases cancelled

theorem Kept.refused (kept : Kept mlx outputTokens backend) {messages : List Message}
    {error : ServiceError} (reason : error = unavailable ∨
      error = textOnly ∧ messages.any fun message => !isText message) :
    Kept mlx outputTokens (backend.refuse messages (.serviceError error)) :=
  { kept with
    calls := fun call member => by
      rcases List.mem_append.mp member with before | last
      · exact kept.calls call before
      · cases List.mem_singleton.mp last
        exact .inl ⟨error, rfl, rfl, reason⟩
    distinct := by
      change ((backend.calls ++ [_]).filterMap Call.item).Nodup
      rw [List.filterMap_append]
      exact (List.append_nil _).symm ▸ kept.distinct }

theorem complete_kept (kept : Kept mlx outputTokens backend) (messages : List Message) :
    Kept mlx outputTokens (backend.complete messages) := by
  unfold complete
  split
  · exact kept.refused (.inl rfl)
  · rename_i prepared
    split
    · rename_i other
      exact kept.refused (.inr ⟨rfl, other⟩)
    · rename_i text
      rw [Bool.or_eq_true, not_or, Bool.not_eq_true, Bool.not_eq_true'] at prepared
      obtain ⟨executor, submitted, items⟩ := kept.accepts prepared.1 (.generate messages)
      have after := kept.submitted submitted
      simp only [submitted]
      have fresh : backend.executor.items.length ∉ backend.calls.filterMap Call.item := by
        intro member
        obtain ⟨call, present, own⟩ := List.mem_filterMap.mp member
        rcases kept.calls call present with ⟨_, none, _⟩ | ⟨id, item, same, found, _⟩
        · rw [none] at own
          cases own
        · rw [same] at own
          cases own
          exact Nat.lt_irrefl _ (List.getElem?_eq_some_iff.mp found).1
      exact { after with
        calls := fun call member => by
          rcases List.mem_append.mp member with before | last
          · exact after.calls call before
          · cases List.mem_singleton.mp last
            refine .inr ⟨backend.executor.items.length, ⟨.generate messages, .pending⟩, rfl, ?_,
              rfl, ?_, fun _ answered => by cases answered⟩
            · dsimp only
              rw [items, List.getElem?_concat_length]
            · simpa using text
        distinct := by
          dsimp only
          rw [List.filterMap_append]
          refine List.nodup_append.mpr ⟨kept.distinct, List.nodup_singleton _, ?_⟩
          intro id member other last
          cases List.mem_singleton.mp last
          rintro rfl
          exact fresh member }

/-- A call ends as its item did, or cancelled. -/
theorem Kept.settles (kept : Kept mlx outputTokens backend) {id item : Nat}
    {messages : List Message} (found : backend.calls[id]? = some ⟨messages, some item, none⟩)
    {outcome : Outcome} (known : ∀ answer, outcome = .answered answer →
      backend.executor.progress? item = some (.finished (.generated answer))) :
    Kept mlx outputTokens (backend.settle id ⟨messages, some item, none⟩ outcome) := by
  exact { kept with
    calls := fun call member => by
      rcases List.mem_or_eq_of_mem_set member with before | rfl
      · exact kept.calls call before
      · rcases kept.calls _ (List.mem_of_getElem? found) with
          ⟨_, none, _⟩ | ⟨own, work, same, located, job, text, _⟩
        · cases none
        · cases same
          refine .inr ⟨item, work, rfl, located, job, text, fun answer ended => ?_⟩
          have answered := known answer (Option.some.inj ended)
          rw [Executor.progress?, located] at answered
          exact Option.some.inj answered
    distinct := by
      have same : (backend.calls.set id ⟨messages, some item, some outcome⟩).map Call.item =
          backend.calls.map Call.item := map_set found rfl
      have shape : ∀ calls : List Call, calls.filterMap Call.item =
          (calls.map Call.item).filterMap fun item => item := by
        intro calls
        rw [List.filterMap_map]
        rfl
      change ((backend.calls.set id _).filterMap Call.item).Nodup
      rw [shape, same, ← shape]
      exact kept.distinct }

theorem resumeCall_kept (kept : Kept mlx outputTokens backend) {id : Nat}
    (resumed : backend.resumeCall id = some next) : Kept mlx outputTokens next := by
  obtain ⟨messages, item, outcome, found, rfl, known⟩ := resumeCall_cases resumed
  exact kept.settles found known

theorem cancelCall_kept (kept : Kept mlx outputTokens backend) {id : Nat}
    (cancelled : backend.cancelCall id = some next) : Kept mlx outputTokens next := by
  unfold cancelCall at cancelled
  split at cancelled
  · rename_i messages item found
    cases cancelled
    exact (kept.cancelled item).settles found fun answer same => by cases same
  · cases cancelled

theorem take_kept (kept : Kept mlx outputTokens backend) (took : backend.take = some next) :
    Kept mlx outputTokens next := by
  obtain ⟨executor, began, rfl⟩ := Option.map_eq_some_iff.mp took
  obtain ⟨_, id, queue, item, queued, found, outcome⟩ := Executor.take_some kept.executor began
  refine kept.withExecutor (kept.executor.take began) (Executor.take_later kept.executor began)
    (Executor.take_ran kept.executor began) ?_ fun closing => ?_
  · rcases outcome with ⟨_, rfl⟩ | ⟨_, rfl⟩ <;> rfl
  · have empty := kept.executor.stopped (kept.shut.mpr (.inr closing))
    rw [queued] at empty
    cases empty

theorem finish_kept (kept : Kept mlx outputTokens backend)
    (finished : backend.finish mlx outputTokens = some next) : Kept mlx outputTokens next := by
  obtain ⟨entry, current, finished⟩ := Option.bind_eq_some_iff.mp finished
  obtain ⟨executor, ended, rfl⟩ := Option.map_eq_some_iff.mp finished
  have later := Executor.finish_later kept.executor ended
  obtain ⟨id, item, running, ran⟩ := Executor.finish_ran kept.executor ended
  rw [current] at running
  cases running
  obtain ⟨_, _, _, _, _, shape⟩ := Executor.finish_some kept.executor ended
  exact { kept with
    executor := kept.executor.finish ended
    shut := by
      rw [shape]
      exact kept.shut
    served := by
      dsimp only
      rw [ran, List.map_append]
      exact Executor.serveAll_concat kept.served item.job
    clear := serve_stats item.job backend.owner kept.clear
    calls := fun call member => (kept.calls call member).later later
    loading := fun id starting => by
      obtain ⟨item, found, job⟩ := kept.loading id starting
      obtain ⟨after, located, same, _⟩ := later.kept id item found
      exact ⟨after, located, same.trans job⟩
    released := fun closing => ⟨(kept.released closing).1, by rw [shape],
      fun item starting => Later.finished later ((kept.released closing).2.2 item starting)⟩ }

theorem shutdown_kept (kept : Kept mlx outputTokens backend)
    (stopped : backend.shutdown = some next) : Kept mlx outputTokens next := by
  unfold shutdown at stopped
  split at stopped
  · rename_i phase
    cases stopped
    have withdraws := Executor.shutDown_withdraws backend.executor
    have later := withdraws.later fun _ => rfl
    exact { kept with
      executor := kept.executor.shutDown
      shut := ⟨fun _ => .inl rfl, fun _ => rfl⟩
      opened := ⟨fun _ => Closing.noConfusion, fun _ =>
        kept.opened.mpr (by rw [phase]; exact Closing.noConfusion)⟩
      served := by
        dsimp only
        rw [withdraws.ran]
        exact kept.served
      calls := fun call member => (kept.calls call member).later later
      loading := fun id starting => by
        obtain ⟨item, found, job⟩ := kept.loading id starting
        obtain ⟨after, located, same, _⟩ := later.kept id item found
        exact ⟨after, located, same.trans job⟩
      released := fun closing => (by cases closing) }
  · cases stopped

theorem resumeClose_kept (kept : Kept mlx outputTokens backend)
    (resumed : backend.resumeClose = some next) : Kept mlx outputTokens next := by
  unfold resumeClose at resumed
  split at resumed
  · rename_i due
    obtain ⟨phase, idle, still⟩ := due
    have stuck := kept.stuck (kept.executor.stopped (kept.shut.mpr (.inl phase))) idle
      (Option.isNone_iff_eq_none.mp still)
    cases resumed
    exact { kept with
      shut := ⟨fun _ => .inr rfl, fun _ => kept.shut.mpr (.inl phase)⟩
      opened := ⟨fun _ => Closing.noConfusion, fun _ =>
        kept.opened.mpr (by rw [phase]; exact Closing.noConfusion)⟩
      loaded := fun runtime => (by cases runtime)
      released := fun _ => ⟨rfl, idle, stuck⟩ }
  · cases resumed

theorem step_kept {event : Event} (kept : Kept mlx outputTokens backend)
    (stepped : step mlx outputTokens backend event = some next) :
    Kept mlx outputTokens next := by
  cases event with
  | start => exact start_kept kept stepped
  | resumeStart => exact resumeStart_kept kept stepped
  | cancelStart => exact cancelStart_kept kept stepped
  | complete messages =>
      cases stepped
      exact complete_kept kept messages
  | resumeCall id => exact resumeCall_kept kept stepped
  | cancelCall id => exact cancelCall_kept kept stepped
  | take => exact take_kept kept stepped
  | finish => exact finish_kept kept stepped
  | close =>
      cases stepped
      exact kept.closes
  | shutdown => exact shutdown_kept kept stepped
  | resumeClose => exact resumeClose_kept kept stepped

theorem run_kept {events : List Event}
    (ran : run (step mlx outputTokens) (initial mlx) events = some backend) :
    Kept mlx outputTokens backend :=
  run_invariant (fun _ _ _ kept stepped => step_kept kept stepped) ran Kept.initial

/-! ## Later -/

/-- The executor's items stay, and a closed backend takes on nothing. -/
structure Continues (backend next : Backend σ) : Prop where
  executor : backend.executor.Later next.executor
  closed : backend.closed = true →
    next.closed = true ∧ next.executor.items.length = backend.executor.items.length

theorem Continues.refl (backend : Backend σ) : Continues backend backend :=
  ⟨.refl _, fun closed => ⟨closed, rfl⟩⟩

theorem Continues.trans {first second third : Backend σ} (left : Continues first second)
    (right : Continues second third) : Continues first third := by
  refine ⟨left.executor.trans right.executor, fun closed => ?_⟩
  obtain ⟨still, same⟩ := left.closed closed
  obtain ⟨last, equal⟩ := right.closed still
  exact ⟨last, equal.trans same⟩

theorem close_continues (backend : Backend σ) : Continues backend backend.close := by
  unfold close
  split
  · exact .refl backend
  · exact ⟨.refl _, fun _ => ⟨rfl, rfl⟩⟩

theorem fail_continues (backend : Backend σ) :
    Continues backend { backend with starting := .failed }.close :=
  have same : Continues backend { backend with starting := .failed } :=
    ⟨.refl _, fun closed => ⟨closed, rfl⟩⟩
  same.trans (close_continues _)

theorem cancel_continues (backend : Backend σ) (id : Nat) :
    Continues backend { backend with executor := backend.executor.cancel id } := by
  have same := (Executor.cancel_same backend.executor id).2
  refine ⟨(Executor.cancel_withdraws backend.executor id).1.later fun shut => same.trans shut,
    fun closed => ⟨closed, Executor.cancel_length backend.executor id⟩⟩

theorem step_continues (kept : Kept mlx outputTokens backend) {event : Event}
    (stepped : step mlx outputTokens backend event = some next) : Continues backend next := by
  cases event with
  | start =>
      change backend.start = some next at stepped
      unfold start at stepped
      split at stepped
      · rename_i due
        obtain ⟨executor, submitted, _⟩ := kept.accepts due.2 .load
        simp only [submitted, Option.some.injEq] at stepped
        subst stepped
        refine ⟨Executor.submit_later submitted, fun closed => ?_⟩
        rw [due.2] at closed
        cases closed
      · cases stepped
  | resumeStart =>
      obtain ⟨_, _, ⟨_, rfl⟩ | rfl⟩ := resumeStart_cases stepped
      · exact ⟨.refl _, fun closed => ⟨closed, rfl⟩⟩
      · exact fail_continues backend
  | cancelStart =>
      change backend.cancelStart = some next at stepped
      unfold cancelStart at stepped
      split at stepped
      · rename_i id _
        cases stepped
        exact (cancel_continues backend id).trans
          (fail_continues { backend with executor := backend.executor.cancel id })
      all_goals cases stepped
  | complete messages =>
      cases stepped
      unfold complete
      split
      · exact ⟨.refl _, fun closed => ⟨closed, rfl⟩⟩
      · rename_i prepared
        split
        · exact ⟨.refl _, fun closed => ⟨closed, rfl⟩⟩
        · rw [Bool.or_eq_true, not_or, Bool.not_eq_true, Bool.not_eq_true'] at prepared
          obtain ⟨executor, submitted, _⟩ := kept.accepts prepared.1 (.generate messages)
          simp only [submitted]
          refine ⟨Executor.submit_later submitted, fun closed => ?_⟩
          rw [prepared.1] at closed
          cases closed
  | resumeCall id =>
      obtain ⟨_, _, _, _, rfl, _⟩ := resumeCall_cases stepped
      exact ⟨.refl _, fun closed => ⟨closed, rfl⟩⟩
  | cancelCall id =>
      change backend.cancelCall id = some next at stepped
      unfold cancelCall at stepped
      split at stepped
      · rename_i item _
        cases stepped
        have cancelled := cancel_continues backend item
        exact ⟨cancelled.executor, cancelled.closed⟩
      · cases stepped
  | take =>
      obtain ⟨executor, began, rfl⟩ := Option.map_eq_some_iff.mp stepped
      exact ⟨Executor.take_later kept.executor began, fun closed =>
        ⟨closed, Executor.take_length kept.executor began⟩⟩
  | finish =>
      obtain ⟨entry, current, finished⟩ := Option.bind_eq_some_iff.mp stepped
      obtain ⟨executor, ended, rfl⟩ := Option.map_eq_some_iff.mp finished
      exact ⟨Executor.finish_later kept.executor ended, fun closed =>
        ⟨closed, Executor.finish_length kept.executor ended⟩⟩
  | close =>
      cases stepped
      exact close_continues backend
  | shutdown =>
      change backend.shutdown = some next at stepped
      unfold shutdown at stepped
      split at stepped
      · cases stepped
        have withdraws := Executor.shutDown_withdraws backend.executor
        exact ⟨withdraws.later fun _ => rfl, fun closed => ⟨closed, withdraws.length⟩⟩
      · cases stepped
  | resumeClose =>
      change backend.resumeClose = some next at stepped
      unfold resumeClose at stepped
      split at stepped
      · cases stepped
        exact ⟨.refl _, fun closed => ⟨closed, rfl⟩⟩
      · cases stepped

theorem run_continues (kept : Kept mlx outputTokens backend) {events : List Event}
    {last : Backend σ} (ran : run (step mlx outputTokens) backend events = some last) :
    Continues backend last :=
  run_relates (fun _ _ _ kept stepped => step_kept kept stepped) Continues.refl
    (fun _ _ _ => Continues.trans) (fun _ _ _ kept stepped => step_continues kept stepped) ran kept

/-! ## Main results -/

/-- In every reachable state of the MLX backend: a job begins only when all that
were submitted before it are done; the results are those of one owner that serves the
jobs that ran one after the other, and no statistics are left behind; every call was refused
or has an item of its own, and is answered as that item was. A closed backend
takes on nothing, a shut down one begins nothing, and a complete close has every
job done and the runtime released. -/
theorem serves_in_turn {events : List Event}
    (reached : run (step mlx outputTokens) (initial mlx) events = some backend) :
    (∀ (id other : Nat) (item before : Asyncio.WorkItem Job Result),
      backend.executor.items[id]? = some item → item.progress.started = true → other < id →
        backend.executor.items[other]? = some before → before.progress.settled = true) ∧
    (Executor.serveAll (serve mlx outputTokens) (backend.executor.ran.map Prod.fst)
        ⟨mlx.fresh, []⟩ = (backend.executor.ran, backend.owner) ∧ backend.owner.stats = []) ∧
    ((∀ call ∈ backend.calls, Attributed backend.executor call) ∧
      (backend.calls.filterMap Call.item).Nodup ∧
      ∀ call ∈ backend.calls, ∀ raised,
        call.outcome = some (.answered (.error raised)) → ¬ Mlx.Translated raised) ∧
    (∀ later last, run (step mlx outputTokens) backend later = some last →
      Continues backend last) ∧
    (backend.closing = .complete → backend.runtime = false ∧
      ∀ item ∈ backend.executor.items, item.progress.settled = true) := by
  have kept := run_kept reached
  refine ⟨fun id other item before found started earlier located =>
      kept.executor.first_settled found started earlier located,
    ⟨kept.served, kept.clear⟩, ⟨kept.calls, kept.distinct, ?_⟩,
    fun later last ran => run_continues kept ran, fun closing => ?_⟩
  · intro call member raised ended
    rcases kept.calls call member with ⟨error, _, same, _⟩ | ⟨id, item, _, found, job, _, answer⟩
    · rw [ended] at same
      cases same
      rintro (value | ⟨message, runtime⟩ | memory)
      · cases value
      · cases runtime
      · cases memory
    · obtain ⟨owner, generated⟩ := kept.answers found (answer _ ended)
      rw [job] at generated
      exact (Mlx.generate_spec call.messages owner).2 raised
        (Result.generated.inj generated).symm
  · obtain ⟨runtime, idle, _⟩ := kept.released closing
    refine ⟨runtime, fun item member => ?_⟩
    obtain ⟨id, found⟩ := List.mem_iff_getElem?.mp member
    exact kept.settled (kept.executor.stopped (kept.shut.mpr (.inr closing))) idle found

/-! A runtime that counts its streams, and two calls that are closed over. -/

def counting : Mlx Nat where
  load := .ok ()
  fresh := 0
  maxModelLen := 4096
  applyChatTemplate := fun _ state => (.ok (.list [.int 1, .int 2]), state)
  stream := fun _ _ state =>
    (⟨[⟨false, List.replicate state 0, some (lit "stop"), 2, 1⟩], none, none⟩, state + 1)

def closingTurn : List Event :=
  [ .start, .take, .finish, .resumeStart, .complete [⟨lit "user", .text (lit "first")⟩],
    .complete [⟨lit "user", .text (lit "second")⟩], .close, .take, .finish, .resumeCall 0,
    .shutdown, .resumeCall 1, .resumeClose]

theorem serves_in_turn_closing : ∃ backend,
    run (step counting 256) (initial counting) closingTurn = some backend ∧
      backend.calls.length = 2 ∧ backend.owner.state = 1 ∧ backend.runtime = false := by
  obtain ⟨backend, known⟩ := Option.isSome_iff_exists.mp
    (show ((run (step counting 256) (initial counting) closingTurn).filter fun backend =>
      decide (backend.closing = .complete ∧ backend.calls.length = 2 ∧
        backend.owner.state = 1)).isSome = true by decide +kernel)
  obtain ⟨reached, shape⟩ := Option.filter_eq_some_iff.mp known
  obtain ⟨complete, calls, served⟩ := of_decide_eq_true shape
  obtain ⟨_, _, _, _, released⟩ := serves_in_turn reached
  exact ⟨backend, reached, calls, served, (released complete).1⟩

end Backend

end MlxBackend

end VllmVerifier.Engine

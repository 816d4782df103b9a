import VllmVerifier.Engine.MlxBackendProperties

/-!
Liveness of the MLX backend: as long as the thread ends its jobs, every call
ends and `close` completes, in whatever order the coroutines and the thread go on.
-/

set_option autoImplicit false

namespace VllmVerifier.Engine.MlxBackend

open Python Asyncio Machine

variable {σ : Type} {mlx : Mlx σ} {outputTokens : Nat}

/-- A step of the thread, of the executor's shutdown, or of a coroutine that goes on. -/
def Backend.Event.Internal : Backend.Event → Prop
  | .resumeStart | .resumeCall _ | .take | .finish | .shutdown | .resumeClose => True
  | .start | .cancelStart | .complete _ | .cancelCall _ | .close => False

def Starting.rank : Starting → Nat
  | .loading _ => 3
  | .unstarted | .started | .failed => 0

def Closing.rank : Closing → Nat
  | .opened | .complete => 0
  | .waiting => 1
  | .stopping => 2

def Call.waits (call : Call) : Bool := call.outcome.isNone

namespace Backend

variable {backend next : Backend σ}

/-- What there is still to do when nobody asks for more. -/
def load (backend : Backend σ) : Nat :=
  2 * backend.executor.queue.length + backend.executor.thread.toList.length +
    backend.calls.countP Call.waits + backend.starting.rank + backend.closing.rank

theorem close_load (backend : Backend σ) : backend.close.load ≤ backend.load + 2 := by
  unfold close
  split
  · exact Nat.le_add_right _ 2
  · change 2 * backend.executor.queue.length + backend.executor.thread.toList.length +
      backend.calls.countP Call.waits + backend.starting.rank + 2 ≤ _
    rw [load]
    omega

theorem resumeStart_lowers (resumed : backend.resumeStart = some next) :
    next.load < backend.load := by
  obtain ⟨id, starting, outcome⟩ := resumeStart_cases resumed
  have due : backend.starting.rank = 3 := by rw [starting]; rfl
  rcases outcome with ⟨_, rfl⟩ | rfl
  · change 2 * backend.executor.queue.length + backend.executor.thread.toList.length +
      backend.calls.countP Call.waits + 0 + backend.closing.rank < _
    rw [load, due]
    omega
  · have failed : ({ backend with starting := .failed } : Backend σ).load + 3 = backend.load := by
      change 2 * backend.executor.queue.length + backend.executor.thread.toList.length +
        backend.calls.countP Call.waits + 0 + backend.closing.rank + 3 = _
      rw [load, due]
      omega
    have closed := close_load { backend with starting := .failed }
    omega

theorem settle_load {id item : Nat} {messages : List Message}
    (found : backend.calls[id]? = some ⟨messages, some item, none⟩) (outcome : Outcome) :
    (backend.settle id ⟨messages, some item, none⟩ outcome).load < backend.load := by
  have fewer := countP_set Call.waits found ⟨messages, some item, some outcome⟩
  rw [if_pos (show Call.waits ⟨messages, some item, none⟩ = true from rfl),
    if_neg (show ¬ Call.waits ⟨messages, some item, some outcome⟩ = true from Bool.false_ne_true)]
    at fewer
  change 2 * backend.executor.queue.length + backend.executor.thread.toList.length +
    (backend.calls.set id ⟨messages, some item, some outcome⟩).countP Call.waits +
    backend.starting.rank + backend.closing.rank < _
  rw [load]
  omega

theorem resumeCall_lowers {id : Nat} (resumed : backend.resumeCall id = some next) :
    next.load < backend.load := by
  obtain ⟨messages, item, outcome, found, rfl, _⟩ := resumeCall_cases resumed
  exact settle_load found outcome

theorem take_lowers (kept : Kept mlx outputTokens backend) (took : backend.take = some next) :
    next.load < backend.load := by
  obtain ⟨executor, began, rfl⟩ := Option.map_eq_some_iff.mp took
  obtain ⟨idle, id, queue, item, queued, _, outcome⟩ := Executor.take_some kept.executor began
  have longer : backend.executor.queue.length = queue.length + 1 := by
    rw [queued, List.length_cons]
  have free : backend.executor.thread.toList.length = 0 := by rw [idle]; rfl
  have later : executor.queue.length = queue.length ∧ executor.thread.toList.length ≤ 1 := by
    rcases outcome with ⟨_, rfl⟩ | ⟨_, rfl⟩
    · exact ⟨rfl, Nat.le_refl 1⟩
    · exact ⟨rfl, by rw [free]; exact Nat.zero_le 1⟩
  simp only [load]
  omega

theorem finish_lowers (kept : Kept mlx outputTokens backend)
    (finished : backend.finish mlx outputTokens = some next) : next.load < backend.load := by
  obtain ⟨entry, current, finished⟩ := Option.bind_eq_some_iff.mp finished
  obtain ⟨executor, ended, rfl⟩ := Option.map_eq_some_iff.mp finished
  obtain ⟨id, item, thread, _, _, rfl⟩ := Executor.finish_some kept.executor ended
  have busy : backend.executor.thread.toList.length = 1 := by rw [thread]; rfl
  change 2 * backend.executor.queue.length + 0 + backend.calls.countP Call.waits +
    backend.starting.rank + backend.closing.rank < _
  rw [load]
  omega

theorem shutdown_lowers (stopped : backend.shutdown = some next) : next.load < backend.load := by
  unfold shutdown at stopped
  split at stopped
  · rename_i phase
    cases stopped
    have due : backend.closing.rank = 2 := by rw [phase]; rfl
    have same := (Executor.shutDown_withdraws backend.executor).thread
    change 2 * 0 + backend.executor.shutDown.thread.toList.length +
      backend.calls.countP Call.waits + backend.starting.rank + 1 < _
    rw [same, load]
    omega
  · cases stopped

theorem resumeClose_lowers (resumed : backend.resumeClose = some next) :
    next.load < backend.load := by
  unfold resumeClose at resumed
  split at resumed
  · rename_i due
    cases resumed
    have waiting : backend.closing.rank = 1 := by rw [due.1]; rfl
    change 2 * backend.executor.queue.length + backend.executor.thread.toList.length +
      backend.calls.countP Call.waits + backend.starting.rank + 0 < _
    rw [load]
    omega
  · cases resumed

/-- Every internal step leaves less to do. -/
theorem internal_lowers (kept : Kept mlx outputTokens backend) {event : Event}
    (internal : event.Internal) (stepped : step mlx outputTokens backend event = some next) :
    next.load < backend.load := by
  cases event with
  | resumeStart => exact resumeStart_lowers stepped
  | resumeCall id => exact resumeCall_lowers stepped
  | take => exact take_lowers kept stepped
  | finish => exact finish_lowers kept stepped
  | shutdown => exact shutdown_lowers stepped
  | resumeClose => exact resumeClose_lowers stepped
  | start | cancelStart | complete | cancelCall | close => exact internal.elim

/-! ## Rest -/

/-- No step of the backend itself is possible: it waits for its callers. -/
def Quiet (mlx : Mlx σ) (outputTokens : Nat) (backend : Backend σ) : Prop :=
  ∀ event : Event, event.Internal → step mlx outputTokens backend event = none

theorem Quiet.idle (quiet : Quiet mlx outputTokens backend)
    (kept : Kept mlx outputTokens backend) : backend.executor.thread = none := by
  cases thread : backend.executor.thread with
  | none => rfl
  | some id =>
      obtain ⟨item, found, _⟩ := (kept.executor.running id).mp thread
      have still := quiet .finish trivial
      change backend.finish mlx outputTokens = none at still
      simp [finish, Executor.finish, Executor.current, thread, found] at still

theorem Quiet.empty (quiet : Quiet mlx outputTokens backend)
    (kept : Kept mlx outputTokens backend) : backend.executor.queue = [] := by
  cases queued : backend.executor.queue with
  | nil => rfl
  | cons id queue =>
      obtain ⟨item, found, _⟩ := kept.executor.queued id (queued ▸ List.mem_cons_self)
      have still := quiet .take trivial
      change backend.take = none at still
      rw [take, Executor.take, quiet.idle kept, queued] at still
      simp only [found] at still
      cases progress : item.progress <;> simp [progress] at still

theorem Quiet.settled (quiet : Quiet mlx outputTokens backend)
    (kept : Kept mlx outputTokens backend) {id : Nat} {item : Asyncio.WorkItem Job Result}
    (found : backend.executor.items[id]? = some item) : item.progress.settled = true :=
  kept.settled (quiet.empty kept) (quiet.idle kept) found

theorem Quiet.started (quiet : Quiet mlx outputTokens backend)
    (kept : Kept mlx outputTokens backend) : backend.StartStuck :=
  kept.stuck (quiet.empty kept) (quiet.idle kept) (quiet .resumeStart trivial)

/-- The call awaits an item that raised what its future cannot take. -/
def CallStuck (backend : Backend σ) (call : Call) : Prop :=
  ∃ item, call.item = some item ∧ backend.executor.progress? item =
    some (.finished (.generated (.error stopIteration)))

theorem Quiet.ended (quiet : Quiet mlx outputTokens backend)
    (kept : Kept mlx outputTokens backend) {call : Call} (member : call ∈ backend.calls)
    (waits : call.outcome = none) : backend.CallStuck call := by
  obtain ⟨index, located⟩ := List.mem_iff_getElem?.mp member
  rcases kept.calls call member with ⟨_, _, same, _⟩ | ⟨id, item, own, found, job, _, _⟩
  · rw [waits] at same
    cases same
  · refine ⟨id, own, ?_⟩
    obtain ⟨messages, _, _⟩ := call
    cases own
    cases waits
    have settled := quiet.settled kept found
    have still := quiet (.resumeCall index) trivial
    change backend.resumeCall index = none at still
    have shape : backend.executor.progress? id = some item.progress := by
      rw [Executor.progress?, found]
      rfl
    unfold resumeCall at still
    simp only [located, shape] at still
    rw [shape]
    cases progress : item.progress with
    | pending | running =>
        rw [progress] at settled
        cases settled
    | cancelled => simp [progress] at still
    | finished result =>
        obtain ⟨owner, answer⟩ := kept.answers found progress
        rw [job] at answer
        subst answer
        rw [progress] at still
        cases generated : (mlx.generate outputTokens messages owner).1 with
        | ok completion => simp [serve, generated] at still
        | error raised =>
            have lost : delivery raised = .never := by
              cases known : delivery raised with
              | never => rfl
              | raised | cancelled => simp [serve, generated, known] at still
            rw [← delivery_never_iff.mp lost, ← generated]
            rfl

theorem Quiet.closing (quiet : Quiet mlx outputTokens backend)
    (kept : Kept mlx outputTokens backend) :
    backend.closing = .opened ∨ backend.closing = .complete := by
  cases phase : backend.closing with
  | opened => exact .inl rfl
  | complete => exact .inr rfl
  | stopping =>
      have still := quiet .shutdown trivial
      change backend.shutdown = none at still
      rw [shutdown, if_pos phase] at still
      cases still
  | waiting =>
      have still := quiet .resumeClose trivial
      change backend.resumeClose = none at still
      have started : backend.resumeStart = none := quiet .resumeStart trivial
      rw [resumeClose, if_pos ⟨phase, quiet.idle kept, by rw [started]; rfl⟩] at still
      cases still

theorem internal_run (kept : Kept mlx outputTokens backend) {own : List Event} {last : Backend σ}
    (internal : ∀ event ∈ own, event.Internal)
    (ran : run (step mlx outputTokens) backend own = some last) :
    Kept mlx outputTokens last ∧ own.length + last.load ≤ backend.load := by
  induction own generalizing backend with
  | nil =>
      cases ran
      exact ⟨kept, Nat.le_of_eq (Nat.zero_add _)⟩
  | cons event rest ih =>
      obtain ⟨next, stepped, ran⟩ := run_cons ran
      have lower := internal_lowers kept (internal event List.mem_cons_self) stepped
      obtain ⟨later, bounded⟩ := ih (step_kept kept stepped)
        (fun other member => internal other (List.mem_cons_of_mem _ member)) ran
      refine ⟨later, ?_⟩
      rw [List.length_cons]
      omega

theorem internal_completes (kept : Kept mlx outputTokens backend) :
    ∃ own last, (∀ event ∈ own, event.Internal) ∧
      run (step mlx outputTokens) backend own = some last ∧ Quiet mlx outputTokens last := by
  refine run_completes_by load (fun _ _ _ kept stepped => step_kept kept stepped) ?_ kept
  intro state kept busy
  unfold Quiet at busy
  push Not at busy
  obtain ⟨event, internal, enabled⟩ := busy
  obtain ⟨after, stepped⟩ := Option.ne_none_iff_exists'.mp enabled
  exact ⟨event, after, internal, stepped, internal_lowers kept internal stepped⟩

/-- From every reachable state, the backend's own steps come to rest in any
order, within `load` of them; then nothing is queued or running, a close that began
has completed with the runtime released, and every call and the start have ended,
but for those whose item raised `StopIteration`. -/
theorem runs_to_quiet {events : List Event}
    (reached : run (step mlx outputTokens) (initial mlx) events = some backend) :
    (∀ own last, (∀ event ∈ own, event.Internal) →
      run (step mlx outputTokens) backend own = some last →
        own.length + last.load ≤ backend.load ∧ (Quiet mlx outputTokens last →
          (∀ call ∈ last.calls, call.outcome = none → last.CallStuck call) ∧
          last.StartStuck ∧ last.executor.thread = none ∧
          last.executor.queue = [] ∧
          (backend.closed = true → last.closing = .complete ∧ last.runtime = false))) ∧
      ∃ own last, (∀ event ∈ own, event.Internal) ∧
        run (step mlx outputTokens) backend own = some last ∧ Quiet mlx outputTokens last := by
  have kept := run_kept reached
  refine ⟨fun own last internal ran => ?_, internal_completes kept⟩
  obtain ⟨later, bounded⟩ := internal_run kept internal ran
  refine ⟨bounded, fun quiet => ⟨fun call member waits => quiet.ended later member waits,
    quiet.started later, quiet.idle later, quiet.empty later, fun closed => ?_⟩⟩
  have shut := ((run_continues kept ran).closed closed).1
  have complete := (quiet.closing later).resolve_left (later.opened.mp shut)
  exact ⟨complete, (later.released complete).1⟩

/-- The backend is closed while a call runs and another waits. -/
theorem runs_to_quiet_turn : ∃ backend,
    run (step counting 256) (initial counting) (closingTurn.take 7) = some backend ∧
      ∃ own last, run (step counting 256) backend own = some last ∧
        last.closing = .complete ∧ last.runtime = false ∧
        ∀ call ∈ last.calls, call.outcome = none → last.CallStuck call := by
  obtain ⟨backend, known⟩ := Option.isSome_iff_exists.mp
    (show ((run (step counting 256) (initial counting) (closingTurn.take 7)).filter
      Backend.closed).isSome = true by decide +kernel)
  obtain ⟨reached, closed⟩ := Option.filter_eq_some_iff.mp known
  obtain ⟨always, own, last, internal, ran, quiet⟩ := runs_to_quiet reached
  obtain ⟨_, rest⟩ := always own last internal ran
  obtain ⟨ended, _, _, _, complete⟩ := rest quiet
  exact ⟨backend, reached, own, last, ran, (complete closed).1, (complete closed).2, ended⟩

end Backend

end VllmVerifier.Engine.MlxBackend

import VllmVerifier.Gateway.TaskProperties

/-!
One call of the service. Between two awaits it changes the status of one task
only, its caller's or that of one question, and it keeps what its phase says
about its tasks.
-/

set_option autoImplicit false

namespace VllmVerifier.Gateway

open Python Asyncio Machine

variable {F : Type} [LogField F] {settings : Settings} {slots next : Slots}

namespace Call

def status (call : Call F) : Option Nat → Status
  | none => call.phase.status
  | some index =>
      match call.tasks[index]? with
      | none => .idle
      | some task => task.phase.status

/-- The slots that the tasks of this call have acquired. -/
def acquired (call : Call F) : Nat :=
  call.phase.status.held + (call.tasks.map fun task => task.phase.status.held).sum

/-- The backend calls of this call that are in flight. -/
def inFlight (call : Call F) : Nat :=
  (if call.phase.inBackend then 1 else 0) + call.tasks.countP fun task => task.phase.inBackend

/-- A `gather` has heard only of tasks that are done. -/
def Told (tasks : List (Task F)) : Prop :=
  ∀ task ∈ tasks, task.reported = true → task.phase.isDone = true

/-- A `gather` still expects to hear of a task. -/
def Expects (tasks : List (Task F)) : Prop := ∃ task ∈ tasks, task.reported = false

/-- A `gather` has heard of no failure. -/
def Pleased (tasks : List (Task F)) : Prop :=
  ∀ task ∈ tasks, task.reported = true → ∃ result, task.phase = .done (.ok result)

def AllDone (tasks : List (Task F)) : Prop := ∀ task ∈ tasks, task.phase.isDone = true

/-- What the phase of a caller says about its tasks. -/
def Sound (settings : Settings) (call : Call F) : Prop :=
  match call.phase with
  | .validating | .acquiring | .calling _ => call.tasks = []
  | .gathering gather =>
      (call.tasks ≠ [] ∧ Told call.tasks) ∧
        (gather.outer = none → Expects call.tasks ∧ Pleased call.tasks) ∧
        ∀ results, gather.outer = some (.ok results) → results? call.tasks = some results
  | .cleaning gather pending =>
      Told call.tasks ∧ (gather.outer = none → Expects call.tasks) ∧
        (gather.outer ≠ none → AllDone call.tasks) ∧
        ∀ results, pending = .ok results → results? call.tasks = some results
  | .returned response observation =>
      ∃ results, results? call.tasks = some results ∧
        call.conclude settings results = .returned response observation
  | .raised _ => AllDone call.tasks

theorem results?_some {tasks : List (Task F)} {results : Results F}
    (found : results? tasks = some results) :
    List.Forall₂ (fun task result => task.phase = .done (.ok result)) tasks results := by
  induction tasks generalizing results with
  | nil =>
      cases found
      exact .nil
  | cons task rest ih =>
      unfold results? at found
      rw [List.mapM_cons] at found
      simp only [Option.bind_eq_bind, Option.bind_eq_some_iff, Option.pure_def,
        Option.some.injEq] at found
      obtain ⟨result, own, others, later, rfl⟩ := found
      refine .cons ?_ (ih later)
      split at own
      · rename_i phase
        cases own
        exact phase
      all_goals cases own

theorem results?_of_forall {tasks : List (Task F)} {results : Results F}
    (all : List.Forall₂ (fun task result => task.phase = .done (.ok result)) tasks results) :
    results? tasks = some results := by
  induction all with
  | nil => rfl
  | cons own _ ih =>
      unfold results? at ih ⊢
      rw [List.mapM_cons, ih]
      simp [own]

theorem results?_congr {tasks later : List (Task F)}
    (same : List.Forall₂ (fun task after : Task F => after.phase = task.phase) tasks later) :
    results? later = results? tasks := by
  induction same with
  | nil => rfl
  | cons own _ ih =>
      unfold results? at ih ⊢
      rw [List.mapM_cons, List.mapM_cons, ih, own]

theorem AllDone.congr {tasks later : List (Task F)} (all : AllDone tasks)
    (same : List.Forall₂ (fun task after : Task F => after.phase = task.phase) tasks later) :
    AllDone later := by
  intro after member
  obtain ⟨task, present, own⟩ := forall₂_mem_right same member
  rw [own]
  exact all task present

theorem results?_of_pleased {tasks : List (Task F)} (pleased : Pleased tasks)
    (all : ∀ task ∈ tasks, task.reported = true) : results? tasks ≠ none := by
  obtain ⟨results, done⟩ := exists_forall₂ fun task member => pleased task member (all task member)
  rw [results?_of_forall done]
  simp

theorem allDone_of_results? {tasks : List (Task F)} {results : Results F}
    (found : results? tasks = some results) : AllDone tasks := by
  intro task member
  obtain ⟨result, _, phase⟩ := forall₂_mem_left (results?_some found) member
  rw [phase]
  rfl

/-! ## Statuses -/

/-- The change of one task's status within a call. -/
structure Shift (request : Nat) (slots : Slots) (before : Call F) (next : Slots) (after : Call F)
    (question : Option Nat) : Prop where
  use : Fits ⟨request, question⟩ slots (before.status question) →
    Use (·.request = request) ⟨request, question⟩ slots (before.status question) next
      (after.status question)
  others : ∀ other, other ≠ question → after.status other = before.status other
  count : after.acquired + (before.status question).held =
    before.acquired + (after.status question).held

variable {request : Nat} {before after : Call F}

theorem status_of_phases {tasks later : List (Task F)}
    (same : List.Forall₂ (fun task after : Task F => after.phase = task.phase) tasks later)
    (index : Nat) :
    (match later[index]? with | none => Status.idle | some task => task.phase.status) =
      match tasks[index]? with | none => Status.idle | some task => task.phase.status := by
  induction same generalizing index with
  | nil => rfl
  | cons own _ ih =>
      cases index with
      | zero => simp [own]
      | succ index => simpa using ih index

theorem Shift.caller
    (same : List.Forall₂ (fun task later : Task F => later.phase = task.phase) before.tasks
      after.tasks)
    (use : Fits ⟨request, none⟩ slots before.phase.status →
      Use (·.request = request) ⟨request, none⟩ slots before.phase.status next after.phase.status) :
    Shift request slots before next after none := by
  refine ⟨use, fun other different => ?_, ?_⟩
  · cases other with
    | none => exact absurd rfl different
    | some index => exact status_of_phases same index
  · have sums : (after.tasks.map fun task => task.phase.status.held) =
        before.tasks.map fun task => task.phase.status.held :=
      forall₂_map_eq (same.flip.imp fun later task own => by rw [own])
    simp only [acquired, sums, status]
    omega

theorem Shift.asking (empty : before.tasks = [])
    (created : ∀ task ∈ after.tasks, task.phase = .created)
    (use : Fits ⟨request, none⟩ slots before.phase.status →
      Use (·.request = request) ⟨request, none⟩ slots before.phase.status next after.phase.status) :
    Shift request slots before next after none := by
  refine ⟨use, fun other different => ?_, ?_⟩
  · cases other with
    | none => exact absurd rfl different
    | some index =>
        simp only [status, empty, List.getElem?_nil]
        split
        · rfl
        · rename_i task found
          rw [created task (List.mem_of_getElem? found)]
          rfl
  · have none : (after.tasks.map fun task => task.phase.status.held).sum = 0 := by
      apply List.sum_eq_zero
      intro held member
      obtain ⟨task, present, rfl⟩ := List.mem_map.mp member
      rw [created task present]
      rfl
    simp only [acquired, none, status, empty, List.map_nil, List.sum_nil]
    omega

theorem Shift.joins (shift : before.Shift request slots next after none)
    (empty : before.tasks = []) (idle : before.phase.status = .idle)
    (rests : after.phase.status = .idle) :
    (∀ question, after.status question = .idle) ∧ after.acquired = 0 := by
  have none : before.acquired = 0 := by simp [acquired, empty, idle, Status.held]
  refine ⟨fun question => ?_, ?_⟩
  · cases question with
    | none => exact rests
    | some index =>
        rw [shift.others (some index) (by simp)]
        simp [status, empty]
  · have count := shift.count
    simp only [status, idle, rests, none, Status.held] at count
    exact count

theorem Shift.task {index : Nat} {task later : Task F} (found : before.tasks[index]? = some task)
    (use : Fits ⟨request, some index⟩ slots task.phase.status →
      Use (·.request = request) ⟨request, some index⟩ slots task.phase.status next
        later.phase.status) :
    Shift request slots before next { before with tasks := before.tasks.set index later }
      (some index) := by
  obtain ⟨bound, _⟩ := List.getElem?_eq_some_iff.mp found
  have own : before.status (some index) = task.phase.status := by simp [status, found]
  have moved : status { before with tasks := before.tasks.set index later } (some index) =
      later.phase.status := by
    simp [status, bound]
  refine ⟨?_, fun other different => ?_, ?_⟩
  · rw [own, moved]
    exact use
  · cases other with
    | none => rfl
    | some other =>
        have apart : index ≠ other := fun same => different (same ▸ rfl)
        simp [status, List.getElem?_set_ne apart]
  · have sums := sum_set (fun task : Task F => task.phase.status.held) found later
    simp only [acquired, own, moved]
    omega

/-! ## Steps -/

/-- What one step of a call does to the slots and to itself. -/
structure Goes (settings : Settings) (request : Nat) (slots : Slots) (before : Call F)
    (next : Slots) (after : Call F) : Prop where
  shift : ∃ question, Shift request slots before next after question
  sound : Sound settings after

theorem same_tasks (tasks : List (Task F)) :
    List.Forall₂ (fun task later : Task F => later.phase = task.phase) tasks tasks :=
  List.forall₂_same.mpr fun _ _ => rfl

theorem evaluate_sound (call : Call F) (empty : call.tasks = []) :
    Sound settings (call.evaluate settings) := by
  unfold evaluate
  split
  · have fresh : ∀ task ∈ call.request.questions.values.map (Task.create (F := F)),
        task.reported = false := by
      intro task member
      obtain ⟨question, _, rfl⟩ := List.mem_map.mp member
      rfl
    obtain ⟨question, present⟩ := List.exists_mem_of_length_pos
      (show 1 ≤ call.request.questions.values.length by
        simpa [Dict.values] using call.request.size.1)
    have asked := List.mem_map_of_mem (f := Task.create (F := F)) present
    refine ⟨⟨List.ne_nil_of_mem asked, fun task member told => ?_⟩,
      fun _ => ⟨⟨_, asked, rfl⟩, fun task member told => ?_⟩, fun results known => by cases known⟩
    · exact absurd told (by simp [fresh task member])
    · exact absurd told (by simp [fresh task member])
  · intro task member
    rw [raise, empty] at member
    cases member

theorem evaluate_created (call : Call F) (empty : call.tasks = []) :
    ∀ task ∈ (call.evaluate settings).tasks, task.phase = .created := by
  unfold evaluate
  split
  · intro task member
    obtain ⟨question, _, rfl⟩ := List.mem_map.mp member
    rfl
  · intro task member
    rw [raise, empty] at member
    cases member

theorem evaluate_idle (call : Call F) : (call.evaluate settings).phase.status = .idle := by
  unfold evaluate
  split <;> rfl

theorem validated_goes {outcome : Except PyException Unit} (sound : Sound settings before)
    (went : before.validated ⟨request, none⟩ slots outcome = some (next, after)) :
    Goes settings request slots before next after := by
  unfold validated at went
  split at went
  case h_1 phase =>
    have empty : before.tasks = [] := by simpa [Sound, phase] using sound
    split at went
    · cases went
      refine ⟨⟨none, .caller (same_tasks _) fun fits => ?_⟩, ?_⟩
      · rw [phase] at fits ⊢
        exact .idle fits
      · intro task member
        rw [empty] at member
        cases member
    · split at went
      · cases went
        refine ⟨⟨none, .caller (same_tasks _) fun fits => ?_⟩, ?_⟩
        · rw [phase] at fits ⊢
          exact .idle fits
        · intro task member
          rw [raise, empty] at member
          cases member
      · simp only [Option.some.injEq, Prod.mk.injEq] at went
        obtain ⟨rfl, rfl⟩ := went
        refine ⟨⟨none, .caller (same_tasks _) fun fits => ?_⟩, ?_⟩
        · rw [phase] at fits ⊢
          have use : Use (·.request = request) _ slots .idle _ _ := .acquire fits
          cases now : (slots.acquire ⟨request, none⟩).2 <;> simp only [now] at use ⊢ <;> exact use
        · cases now : (slots.acquire ⟨request, none⟩).2 <;> simpa [Sound] using empty
  all_goals cases went

theorem resume_goes (sound : Sound settings before)
    (went : before.resume ⟨request, none⟩ slots = some (next, after)) :
    Goes settings request slots before next after := by
  unfold resume at went
  split at went
  case h_1 phase =>
    have empty : before.tasks = [] := by simpa [Sound, phase] using sound
    cases woke : resumed slots ⟨request, none⟩ before.mustCancel with
    | none => simp [woke] at went
    | some result =>
        obtain ⟨middle, acquired⟩ := result
        cases acquired with
        | true =>
            simp only [woke, Option.some.injEq, Prod.mk.injEq] at went
            obtain ⟨rfl, rfl⟩ := went
            refine ⟨⟨none, .caller (same_tasks _) fun fits => ?_⟩, empty⟩
            rw [phase] at fits ⊢
            exact resumed_use fits woke
        | false =>
            simp only [woke, Option.some.injEq, Prod.mk.injEq] at went
            obtain ⟨rfl, rfl⟩ := went
            refine ⟨⟨none, .caller (same_tasks _) fun fits => ?_⟩, ?_⟩
            · rw [phase] at fits ⊢
              exact resumed_use fits woke
            · intro task member
              rw [empty] at member
              cases member
  all_goals cases went

theorem ended_goes {outcome : Outcome} (sound : Sound settings before)
    (went : before.ended settings slots outcome = some (next, after)) :
    Goes settings request slots before next after := by
  unfold ended at went
  split at went
  case h_1 messages phase =>
    have empty : before.tasks = [] := by simpa [Sound, phase] using sound
    have raised : ∀ error, Goes settings request slots before slots.release
        { before with phase := .raised error } := by
      intro error
      refine ⟨⟨none, .caller (same_tasks _) fun fits => ?_⟩, ?_⟩
      · rw [phase] at fits ⊢
        exact .release fits
      · intro task member
        rw [empty] at member
        cases member
    cases outcome with
    | raised error =>
        cases went
        exact raised _
    | cancelled =>
        dsimp only at went
        split at went
        · cases went
          exact raised _
        · cases went
    | completed completion =>
        simp only [Option.some.injEq, Prod.mk.injEq] at went
        obtain ⟨rfl, rfl⟩ := went
        unfold observe
        split
        · exact raised _
        · refine ⟨⟨none, .asking empty (evaluate_created _ empty) fun fits => ?_⟩,
            evaluate_sound _ empty⟩
          rw [phase] at fits ⊢
          rw [evaluate_idle]
          exact .release fits
  all_goals cases went

theorem onTask_goes {index : Nat} {act : Task F → Option (Slots × Task F)}
    (sound : Sound settings before)
    (acts : ∀ (task : Task F) (middle : Slots) (later : Task F),
      act task = some (middle, later) →
        Task.Goes (·.request = request) ⟨request, some index⟩ slots task middle
        later)
    (went : before.onTask index act = some (next, after)) :
    Goes settings request slots before next after := by
  unfold onTask at went
  cases found : before.tasks[index]? with
  | none => simp [found] at went
  | some task =>
      cases acted : act task with
      | none => simp [found, acted] at went
      | some result =>
          obtain ⟨middle, later⟩ := result
          simp only [found, acted, Option.some.injEq, Prod.mk.injEq] at went
          obtain ⟨rfl, rfl⟩ := went
          have goes := acts task middle later acted
          have member := List.mem_of_getElem? found
          refine ⟨⟨some index, .task found goes.use⟩, ?_⟩
          -- The task was not done, so no `gather` has heard of it or of all tasks.
          have told : Told before.tasks → Told (before.tasks.set index later) := by
            intro told
            refine forall_set told index fun reported => ?_
            rw [goes.reported] at reported
            have done := told task member reported
            rw [goes.unfinished] at done
            cases done
          have pleased : Pleased before.tasks → Pleased (before.tasks.set index later) := by
            intro pleased
            refine forall_set pleased index fun reported => ?_
            rw [goes.reported] at reported
            obtain ⟨result, done⟩ := pleased task member reported
            have unfinished := goes.unfinished
            rw [done] at unfinished
            cases unfinished
          have expects : Expects before.tasks → Expects (before.tasks.set index later) := by
            intro given
            obtain ⟨other, present, unheard⟩ := given
            obtain ⟨position, located⟩ := List.getElem?_of_mem present
            by_cases same : index = position
            · subst same
              cases found.symm.trans located
              exact ⟨later, List.mem_set (List.getElem?_eq_some_iff.mp found).1 later,
                goes.reported.trans unheard⟩
            · exact ⟨other, List.mem_of_getElem? ((List.getElem?_set_ne same).trans located),
                unheard⟩
          have open' : ¬ AllDone before.tasks := by
            intro all
            have done := all task member
            rw [goes.unfinished] at done
            cases done
          cases phase : before.phase with
          | validating | acquiring | calling =>
              have empty : before.tasks = [] := by simpa [Sound, phase] using sound
              rw [empty] at member
              cases member
          | gathering gather =>
              simp only [Sound, phase] at sound ⊢
              exact ⟨⟨by simpa using sound.1.1, told sound.1.2⟩,
                fun none => ⟨expects (sound.2.1 none).1, pleased (sound.2.1 none).2⟩,
                fun results known =>
                  absurd (allDone_of_results? (sound.2.2 results known)) open'⟩
          | cleaning gather pending =>
              simp only [Sound, phase] at sound ⊢
              exact ⟨told sound.1, fun none => expects (sound.2.1 none),
                fun known => absurd (sound.2.2.1 known) open', fun results known =>
                  absurd (allDone_of_results? (sound.2.2.2 results known)) open'⟩
          | returned response observation =>
              simp only [Sound, phase] at sound
              obtain ⟨results, known, _⟩ := sound
              exact absurd (allDone_of_results? known) open'
          | raised error =>
              simp only [Sound, phase] at sound
              exact absurd sound open'

/-! ## Gathers -/

theorem notify_ok {Result : Type} {gather : Gather Result} {failure : Option Raised}
    {found : Option Result} {results : Result}
    (outer : (gather.notify failure found).outer = some (.ok results)) :
    gather.outer = some (.ok results) ∨ found = some results := by
  unfold Gather.notify at outer
  split at outer
  · exact .inl outer
  · cases outer
  · dsimp only at outer
    split at outer
    · cases outer
    · cases outer
      exact .inr rfl
  · exact .inl outer

theorem notify_settled {Result : Type} {gather : Gather Result} {found : Option Result}
    (settled : (gather.notify none found).outer ≠ none) :
    gather.outer ≠ none ∨ found ≠ none := by
  unfold Gather.notify at settled
  cases outer : gather.outer with
  | some result => exact .inl (by simp)
  | none =>
      cases found with
      | some results => exact .inr (by simp)
      | none => simp [outer] at settled

theorem notify_pending {Result : Type} {gather : Gather Result} {failure : Option Raised}
    {found : Option Result} (pending : (gather.notify failure found).outer = none) :
    gather.outer = none ∧ failure = none ∧ found = none := by
  unfold Gather.notify at pending
  cases outer : gather.outer with
  | some result => simp [outer] at pending
  | none => cases failure <;> cases found <;> simp_all

theorem expects_of_not_all {tasks : List (Task F)} (some : tasks.all Task.reported ≠ true) :
    Expects tasks := by
  simp only [ne_eq, List.all_eq_true, not_forall] at some
  obtain ⟨task, member, unheard⟩ := some
  exact ⟨task, member, by simpa using unheard⟩

theorem report_goes {index : Nat} (sound : Sound settings before)
    (went : before.report index = some after) :
    Goes settings request slots before slots after := by
  unfold report at went
  split at went
  case h_1 => cases went
  case h_2 task found =>
    split at went
    case h_2 => cases went
    case h_1 result done _ =>
      have same : List.Forall₂ (fun task later : Task F => later.phase = task.phase) before.tasks
          (before.tasks.set index { task with reported := true }) :=
        forall₂_set found rfl fun _ => rfl
      have told : Told before.tasks →
          Told (before.tasks.set index { task with reported := true }) := fun told =>
        forall_set told index fun _ => by rw [done]; rfl
      split at went
      case h_1 gather phase =>
        simp only [Option.some.injEq] at went
        subst went
        simp only [Sound, phase] at sound
        refine ⟨⟨none, .caller same fun fits => ?_⟩, ⟨by simpa using sound.1.1, told sound.1.2⟩,
          fun none => ?_, fun results outer => ?_⟩
        · rw [phase] at fits ⊢
          exact .idle fits
        · obtain ⟨earlier, succeeded, incomplete⟩ := notify_pending none
          have pleased : Pleased (before.tasks.set index { task with reported := true }) := by
            refine forall_set (sound.2.1 earlier).2 index fun _ => ?_
            cases result with
            | ok value => exact ⟨value, done⟩
            | error error => cases succeeded
          refine ⟨?_, pleased⟩
          apply expects_of_not_all
          intro all
          rw [if_pos all] at incomplete
          exact results?_of_pleased pleased (List.all_eq_true.mp all) incomplete
        · rcases notify_ok outer with earlier | complete
          · exact (results?_congr same).trans (sound.2.2 results earlier)
          · split at complete
            · exact complete
            · cases complete
      case h_2 gather pending phase =>
        simp only [Option.some.injEq] at went
        subst went
        simp only [Sound, phase] at sound
        refine ⟨⟨none, .caller same fun fits => ?_⟩, told sound.1, fun none => ?_,
          fun settled => ?_,
          fun results known => (results?_congr same).trans (sound.2.2.2 results known)⟩
        · rw [phase] at fits ⊢
          exact .idle fits
        · obtain ⟨_, _, incomplete⟩ := notify_pending none
          apply expects_of_not_all
          intro all
          rw [if_pos all] at incomplete
          cases incomplete
        · rcases notify_settled settled with earlier | complete
          · exact (sound.2.2.1 earlier).congr same
          · split at complete
            · rename_i all
              intro later member
              exact told sound.1 later member (List.all_eq_true.mp all later member)
            · exact absurd rfl complete
      all_goals cases went

theorem notify_error {Result : Type} {gather : Gather Result} {failure : Option Raised}
    {found : Option Result} {error : Raised}
    (outer : (gather.notify failure found).outer = some (.error error)) :
    gather.outer = some (.error error) ∨ failure = some error ∨ gather.cancelRequested = true := by
  unfold Gather.notify at outer
  split at outer
  · exact .inl outer
  · cases outer
    exact .inr (.inl rfl)
  · dsimp only at outer
    split at outer
    · rename_i requested
      exact .inr (.inr requested)
    · cases outer
  · exact .inl outer

theorem notify_cancelRequested {Result : Type} (gather : Gather Result) (failure : Option Raised)
    (found : Option Result) :
    (gather.notify failure found).cancelRequested = gather.cancelRequested := by
  unfold Gather.notify
  split <;> rfl

theorem awaited_ok {Result : Type} {mustCancel : Bool} {outer : Except Raised Result}
    {results : Result} (ok : awaited mustCancel outer = .ok results) : outer = .ok results := by
  unfold awaited at ok
  split at ok
  · cases ok
  · exact ok

theorem conclude_idle (call : Call F) (results : Results F) :
    (call.conclude settings results).status = .idle := by
  unfold conclude
  split
  · dsimp only
    split <;> rfl
  · rfl

theorem conclude_cases (settings : Settings) (call : Call F) (results : Results F) :
    (∃ response observation, call.conclude settings results = .returned response observation) ∨
      ∃ error, call.conclude settings results = .raised error := by
  unfold conclude
  split
  · dsimp only
    split <;> exact .inl ⟨_, _, rfl⟩
  · exact .inr ⟨_, rfl⟩

theorem cancelTasks_same (request index : Nat) (slots : Slots) (tasks : List (Task F)) :
    List.Forall₂ (fun task after : Task F => after.phase = task.phase) tasks
      (cancelTasks request index slots tasks).2 :=
  (cancelTasks_flags request index slots tasks).imp fun _ _ ⟨_, flagged⟩ => flagged ▸ rfl

theorem Told.cancelTasks {tasks : List (Task F)} (told : Told tasks) (request index : Nat)
    (slots : Slots) : Told (cancelTasks request index slots tasks).2 := by
  intro later member reported
  obtain ⟨task, present, mustCancel, rfl⟩ :=
    forall₂_mem_right (cancelTasks_flags request index slots tasks) member
  exact told task present reported

theorem Expects.cancelTasks {tasks : List (Task F)} (expects : Expects tasks)
    (request index : Nat) (slots : Slots) :
    Expects (cancelTasks request index slots tasks).2 := by
  obtain ⟨task, present, unheard⟩ := expects
  obtain ⟨later, member, mustCancel, rfl⟩ :=
    forall₂_mem_left (cancelTasks_flags request index slots tasks) present
  exact ⟨_, member, unheard⟩

theorem Pleased.cancelTasks {tasks : List (Task F)} (pleased : Pleased tasks)
    (request index : Nat) (slots : Slots) :
    Pleased (cancelTasks request index slots tasks).2 := by
  intro later member reported
  obtain ⟨task, present, mustCancel, rfl⟩ :=
    forall₂_mem_right (cancelTasks_flags request index slots tasks) member
  exact pleased task present reported

theorem wake_goes (sound : Sound settings before)
    (went : before.wake settings request slots = some (next, after)) :
    Goes settings request slots before next after := by
  unfold wake at went
  split at went
  case h_1 gather phase =>
    split at went
    case h_1 => cases went
    case h_2 outer settled =>
      simp only [Option.some.injEq, Prod.mk.injEq] at went
      obtain ⟨rfl, rfl⟩ := went
      have same : List.Forall₂ (fun task later : Task F => later.phase = task.phase) before.tasks
          ((cancelTasks request 0 slots before.tasks).2.map
            fun task => { task with reported := false }) :=
        List.forall₂_map_right_iff.mpr (cancelTasks_same request 0 slots before.tasks)
      simp only [Sound, phase] at sound
      refine ⟨⟨none, .caller same fun fits => ?_⟩, fun task member told => ?_, fun _ => ?_,
        fun settled => absurd rfl settled, fun results ok => ?_⟩
      · rw [phase] at fits ⊢
        exact cancelTasks_use 0 before.tasks fits fun _ => rfl
      · obtain ⟨earlier, _, rfl⟩ := List.mem_map.mp member
        cases told
      · obtain ⟨task, present⟩ := List.exists_mem_of_ne_nil _ sound.1.1
        obtain ⟨later, member, _⟩ :=
          forall₂_mem_left (cancelTasks_flags request 0 slots before.tasks) present
        exact ⟨_, List.mem_map_of_mem member, rfl⟩
      · exact (results?_congr same).trans (sound.2.2 results (awaited_ok ok ▸ settled))
  case h_2 gather pending phase =>
    split at went
    case h_1 => cases went
    case h_2 outer settled =>
      simp only [Option.some.injEq, Prod.mk.injEq] at went
      obtain ⟨rfl, rfl⟩ := went
      simp only [Sound, phase] at sound
      have done : AllDone before.tasks := sound.2.2.1 (by rw [settled]; simp)
      have raised : ∀ error, Goes settings request slots before slots
          { before with phase := .raised error } := fun error =>
        ⟨⟨none, .caller (same_tasks _) fun fits => by rw [phase] at fits ⊢; exact .idle fits⟩, done⟩
      split
      · exact raised _
      · exact raised _
      · rename_i results _
        refine ⟨⟨none, .caller (same_tasks _) fun fits => ?_⟩, ?_⟩
        · rw [phase] at fits ⊢
          rw [conclude_idle]
          exact .idle fits
        · rcases before.conclude_cases settings results with
            ⟨response, observation, returned⟩ | ⟨error, failed⟩
          · simp only [Sound, returned]
            exact ⟨results, sound.2.2.2 results rfl, returned⟩
          · simp only [Sound, failed]
            exact done
  all_goals cases went

theorem cancelGather_goes {Result : Type} {gather : Gather Result}
    {phase : Gather Result → Phase F} (own : before.phase = phase gather)
    (idle : ∀ gather, (phase gather).status = .idle)
    (kept : ∀ tasks, List.Forall₂ (fun task later : Task F => later.phase = task.phase)
      before.tasks tasks → (Told before.tasks → Told tasks) →
        (Expects before.tasks → Expects tasks) → (Pleased before.tasks → Pleased tasks) →
        Sound settings
          { before with tasks, phase := phase { gather with cancelRequested := true } })
    (sound : Sound settings before)
    (went : before.cancelGather request slots gather phase = (next, after)) :
    Goes settings request slots before next after := by
  unfold cancelGather at went
  split at went
  · cases went
    exact ⟨⟨none, .caller (same_tasks _) fun fits => .idle fits⟩, sound⟩
  · simp only [Prod.mk.injEq] at went
    obtain ⟨rfl, rfl⟩ := went
    have same := cancelTasks_same request 0 slots before.tasks
    refine ⟨⟨none, .caller same fun fits => ?_⟩, kept _ same (fun told => told.cancelTasks _ _ _)
      (fun expects => expects.cancelTasks _ _ _) fun pleased => pleased.cancelTasks _ _ _⟩
    rw [own, idle] at fits ⊢
    rw [idle]
    exact cancelTasks_use 0 before.tasks fits fun _ => rfl

theorem cancel_goes (sound : Sound settings before)
    (went : before.cancel request slots = some (next, after)) :
    Goes settings request slots before next after := by
  unfold cancel at went
  split at went
  case h_1 phase | h_2 phase =>
    cases went
    exact ⟨⟨none, .caller (same_tasks _) fun fits => .idle fits⟩, sound⟩
  case h_3 phase =>
    simp only [Option.some.injEq, Prod.mk.injEq] at went
    obtain ⟨rfl, rfl⟩ := went
    exact ⟨⟨none, .caller (same_tasks _) fun fits => interrupt_use _ fits rfl⟩, sound⟩
  case h_4 gather phase =>
    refine cancelGather_goes phase (fun _ => rfl) (fun tasks same told expects pleased => ?_) sound
      (Option.some.inj went)
    simp only [Sound, phase] at sound ⊢
    have present : tasks ≠ [] := by
      intro same
      subst same
      exact sound.1.1 (List.forall₂_nil_right_iff.mp same)
    exact ⟨⟨present, told sound.1.2⟩,
      fun none => ⟨expects (sound.2.1 none).1, pleased (sound.2.1 none).2⟩,
      fun results known => (results?_congr same).trans (sound.2.2 results known)⟩
  case h_5 gather pending phase =>
    refine cancelGather_goes phase (fun _ => rfl) (fun tasks same told expects pleased => ?_) sound
      (Option.some.inj went)
    simp only [Sound, phase] at sound ⊢
    exact ⟨told sound.1, fun none => expects (sound.2.1 none),
      fun settled => (sound.2.2.1 settled).congr same,
      fun results known => (results?_congr same).trans (sound.2.2.2 results known)⟩
  all_goals cases went

end Call

end VllmVerifier.Gateway

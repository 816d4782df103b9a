import VllmVerifier.CustomerService.DialogueProperties
import VllmVerifier.Suspension

/-!
The frames of a conversation over whole runs: none is lost or found twice, a
suspended one is not touched, and the last one is resumed first.
-/

set_option autoImplicit false

namespace VllmVerifier.CustomerService

open Python Suspension

variable [Unicode]

/-! ## Ready frames -/

/-- A frame between two turns: something is missing, or a summary waits for a yes. -/
structure Frame.Ready (frame : Frame) (store : DemoStore) : Prop where
  admits : Admits frame.intent.val frame.slots.entries
  known : frame.strayOrder store = false
  phase : frame.missing ≠ [] ∧ frame.phase = .collecting ∨
    frame.missing = [] ∧ frame.phase = .confirming ∧ frame.intent.val.confirmation = true

/-- The active and the suspended frames. -/
def Desk.live (desk : Desk) : List Frame := desk.active.toList ++ desk.suspended

def Desk.Ready (desk : Desk) : Prop := ∀ frame ∈ desk.live, frame.Ready desk.store

variable {desk prepared after : Desk} {frame : Frame} {store : DemoStore} {command : Str}
  {outcome : Except PyException Reply}

def SameOrders (store after : DemoStore) : Prop :=
  ∀ id, (after.orders.get? id).isSome = (store.orders.get? id).isSome

omit [Unicode] in
theorem strayOrder_of_sameOrders {after : DemoStore} (same : SameOrders store after) :
    frame.strayOrder after = frame.strayOrder store := by
  unfold Frame.strayOrder
  congr 1
  funext id
  rw [← Option.not_isSome, ← Option.not_isSome, same id]

theorem Frame.Ready.of_sameOrders {after : DemoStore} (ready : frame.Ready store)
    (same : SameOrders store after) : frame.Ready after :=
  ⟨ready.admits, (strayOrder_of_sameOrders same).trans ready.known, ready.phase⟩

/-- The frame that a turn goes on with was filled or left as it was. -/
structure Workable (desk : Desk) (frame : Frame) : Prop where
  busy : desk.active = some frame
  admits : Admits frame.intent.val frame.slots.entries
  phase : frame.phase = .collecting ∨ frame.Ready desk.store
  others : ∀ other ∈ desk.suspended, other.Ready desk.store

omit [Unicode] in
theorem mem_of_mem_lastItems {α : Type} {count : Nat} {items : List α} {item : α}
    (member : item ∈ lastItems count items) : item ∈ items := List.mem_of_mem_drop member

/-- A frame that is set aside was active. -/
theorem Desk.Ready.interrupted (ready : desk.Ready) :
    ∀ frame ∈ desk.interrupted.live, frame.Ready desk.store := by
  intro frame member
  apply ready
  unfold Desk.interrupted at member
  cases busy : desk.active with
  | none =>
      rw [busy] at member
      exact member
  | some active =>
      rw [busy] at member
      have kept := List.mem_append.mp (mem_of_mem_lastItems member)
      simpa [Desk.live, busy, or_comm] using kept

theorem Prepared.busy (step : Prepared command desk prepared frame) :
    prepared.active = some frame := by
  cases step with
  | same busy => exact busy
  | resumed | filled | opened => rfl

theorem Prepared.workable (ready : desk.Ready) (step : Prepared command desk prepared frame) :
    Workable prepared frame := by
  have suspended : ∀ other ∈ desk.suspended, other.Ready desk.store :=
    fun other member => ready other (List.mem_append_right _ member)
  have active : ∀ {other : Frame}, desk.active = some other → other.Ready desk.store := by
    intro other busy
    exact ready other (List.mem_append_left _ (by rw [busy]; exact List.mem_singleton_self _))
  cases step with
  | same busy => exact ⟨busy, (active busy).admits, .inr (active busy), suspended⟩
  | @resumed rest previous commanded waiting =>
      have last := suspended frame (by rw [waiting]; simp)
      refine ⟨rfl, last.admits, .inr last, fun other member => ?_⟩
      rcases List.mem_append.mp member with early | displaced
      · exact suspended other (by rw [waiting]; exact List.mem_append_left _ early)
      · exact active (Option.mem_toList.mp displaced)
  | filled busy admits shape =>
      refine ⟨rfl, fun entry member => ?_, .inl (by rw [shape]), suspended⟩
      subst shape
      rcases mem_entries_update member with before | new
      · exact (active busy).admits entry before
      · exact admits entry new
  | opened admits serial phase slots =>
      refine ⟨rfl, fun entry member => ?_, .inl phase, fun other member => ?_⟩
      · rw [slots, Dict.ofPairs_eq_update] at member
        rcases mem_entries_update member with before | new
        · cases before
        · exact admits entry new
      · rw [Desk.interrupted_store]
        exact ready.interrupted other (List.mem_append_right _ member)

omit [Unicode] in
theorem missing_eq_nil_iff :
    frame.missing = [] ↔ ∀ slot ∈ frame.intent.val.requiredSlots,
      (frame.slots.get? slot).isSome = true := by
  simp only [Frame.missing, List.filter_eq_nil_iff, Bool.not_eq_true, Option.isNone_eq_false_iff]

theorem executes_of_complete (admits : Admits frame.intent.val frame.slots.entries)
    (complete : frame.missing = []) (store : DemoStore) :
    ∃ result, execute frame.intent.val frame.slots store = .ok result := by
  refine execute_total frame.intent store (fun value found => ?_) (missing_eq_nil_iff.mp complete)
  obtain ⟨number, parsed, _⟩ :=
    ((admits _ (Dict.get?_eq_some_iff.mp found)).2 rfl).int
  rw [parsed]
  rfl

theorem execute_orders {intent : Intent} {slots : Dict Slot Str} {store after : DemoStore}
    {outcome : Outcome} (success : execute intent slots store = .ok (outcome, after)) :
    SameOrders store after := (execute_acts success).orders

/-- Without its order a frame that names one is asking for it. -/
theorem ready_of_stray (admits : Admits frame.intent.val frame.slots.entries)
    (collecting : frame.phase = .collecting) (stray : frame.strayOrder store = true) :
    Frame.Ready { frame with slots := frame.slots.erase .orderId } store := by
  have absent : (frame.slots.erase .orderId).get? .orderId = none := Dict.get?_erase_self _ _
  have named : ∃ id, frame.slots.get? .orderId = some id := by
    unfold Frame.strayOrder at stray
    obtain ⟨id, found, _⟩ := (Option.any_eq_true _ _).mp stray
    exact ⟨id, found⟩
  obtain ⟨id, found⟩ := named
  have required := (admits _ (Dict.get?_eq_some_iff.mp found)).1
  refine ⟨fun entry member => admits entry (List.mem_of_mem_filter member), ?_, .inl ⟨?_, collecting⟩⟩
  · rw [Frame.strayOrder, absent]
    rfl
  · intro none
    have present := missing_eq_nil_iff.mp none _ required
    rw [absent] at present
    cases present

/-- Advancing a frame leaves only ready ones, and it does not raise. -/
theorem Advanced.ready (work : Workable desk frame) (step : Advanced desk frame outcome after) :
    after.Ready ∧ ∃ reply, outcome = .ok reply := by
  obtain ⟨busy, admits, phase, others⟩ := work
  cases step with
  | stray strayed =>
      refine ⟨fun other member => ?_, _, rfl⟩
      rcases List.mem_cons.mp member with rfl | waiting
      · rcases phase with collecting | ready
        · exact ready_of_stray admits collecting strayed
        · rw [ready.known] at strayed
          cases strayed
      · exact others other waiting
  | asks known missing =>
      refine ⟨fun other member => ?_, _, rfl⟩
      rw [Desk.live, busy] at member
      rcases List.mem_cons.mp member with rfl | waiting
      · rcases phase with collecting | ready
        · exact ⟨admits, known, .inl ⟨missing, collecting⟩⟩
        · exact ready
      · exact others other waiting
  | summarises known complete confirmation =>
      refine ⟨fun other member => ?_, _, rfl⟩
      rcases List.mem_cons.mp member with rfl | waiting
      · exact ⟨admits, known, .inr ⟨complete, rfl, confirmation⟩⟩
      · exact others other waiting
  | executes _ _ _ executed =>
      refine ⟨fun other member => ?_, _, rfl⟩
      exact (others other member).of_sameOrders (execute_orders executed)
  | raises complete raised =>
      obtain ⟨result, executed⟩ := executes_of_complete admits complete desk.store
      rw [executed] at raised
      cases raised

theorem Turned.ready (ready : desk.Ready) (step : Turned command desk outcome after) :
    after.Ready := by
  have suspended : ∀ other ∈ desk.suspended, other.Ready desk.store :=
    fun other member => ready other (List.mem_append_right _ member)
  cases step with
  | replied | raised => exact ready
  | questioned =>
      intro other member
      rw [Desk.interrupted_store]
      exact ready.interrupted other member
  | cancelled => exact suspended
  | confirmed _ _ _ executed =>
      exact fun other member =>
        (suspended other member).of_sameOrders (execute_orders executed)
  | advanced step done => exact (done.ready (step.workable ready)).1

theorem Turned.raised_same (ready : desk.Ready) {error : PyException}
    (step : Turned command desk (.error error) after) : after = desk := by
  cases step with
  | replied | raised => rfl
  | advanced step done =>
      obtain ⟨_, reply, same⟩ := done.ready (step.workable ready)
      cases same

/-! ## The stack -/

/-- What a turn does to the suspended frames. -/
inductive Stacked (command : Str) (desk after : Desk) : Prop where
  | kept : after.suspended = desk.suspended → Stacked command desk after
  | pushed {frame : Frame} : desk.active = some frame →
      after.suspended = lastItems 8 (desk.suspended ++ [frame]) → Stacked command desk after
  | popped {rest : List Frame} {previous : Frame} : command ∈ resumeWords →
      desk.suspended = rest ++ [previous] → after.active = some previous →
      after.suspended = rest ++ desk.active.toList → Stacked command desk after

theorem Advanced.suspended (step : Advanced desk frame outcome after) :
    after.suspended = desk.suspended := by
  cases step <;> rfl

/-- A ready frame is shown again as it was. -/
theorem Advanced.active_of_ready (step : Advanced desk frame outcome after)
    (busy : desk.active = some frame) (ready : frame.Ready desk.store) :
    after.active = some frame := by
  cases step with
  | stray strayed =>
      rw [ready.known] at strayed
      cases strayed
  | asks => exact busy
  | summarises _ complete _ =>
      rcases ready.phase with ⟨missing, _⟩ | ⟨_, confirming, _⟩
      · exact absurd complete missing
      · rw [← confirming]
  | executes _ complete direct _ =>
      rcases ready.phase with ⟨missing, _⟩ | ⟨_, _, confirmation⟩
      · exact absurd complete missing
      · rw [direct] at confirmation
        cases confirmation
  | raises => exact busy

omit [Unicode] in
theorem interrupted_stacked (same : after.suspended = desk.interrupted.suspended) :
    Stacked command desk after := by
  unfold Desk.interrupted at same
  cases busy : desk.active with
  | none =>
      rw [busy] at same
      exact .kept same
  | some frame =>
      rw [busy] at same
      exact .pushed busy same

theorem Turned.stacked (ready : desk.Ready) (step : Turned command desk outcome after) :
    Stacked command desk after := by
  cases step with
  | replied | raised | cancelled | confirmed => exact .kept rfl
  | questioned => exact interrupted_stacked rfl
  | @advanced prepared _ frame _ step done =>
      cases step with
      | same | filled => exact .kept done.suspended
      | opened => exact interrupted_stacked done.suspended
      | resumed commanded waiting =>
          have last := ready frame (List.mem_append_right _ (by rw [waiting]; simp))
          exact .popped commanded waiting (done.active_of_ready rfl last) done.suspended

omit [Unicode] in
theorem Stacked.live (stacked : Stacked command desk after) :
    ∀ frame ∈ after.suspended, frame ∈ desk.live := by
  intro frame member
  cases stacked with
  | kept same => exact List.mem_append_right _ (same ▸ member)
  | pushed busy same =>
      rw [same] at member
      rcases List.mem_append.mp (mem_of_mem_lastItems member) with early | pushed
      · exact List.mem_append_right _ early
      · rw [Desk.live, busy]
        exact List.mem_append_left _ pushed
  | popped _ waiting _ same =>
      rw [same] at member
      rcases List.mem_append.mp member with early | displaced
      · exact List.mem_append_right _ (by rw [waiting]; exact List.mem_append_left _ early)
      · exact List.mem_append_left _ displaced

/-! ## The ledger -/

/-- The tasks of a desk by their numbers, with those that left it. -/
def Desk.ledger (desk : Desk) (completed discarded : List Nat) : Ledger Nat :=
  ⟨desk.active.map Frame.serial, desk.suspended.map Frame.serial, completed, discarded,
    List.range desk.created⟩

def Completes (after : Desk) (serial : Nat) : Prop :=
  ∃ frame, after.lastCompleted = some frame ∧ frame.serial = serial ∧ frame.phase = .completed

/-- The task was the oldest of more than eight suspended ones. -/
def Overflows (desk after : Desk) (serial : Nat) : Prop :=
  ∃ oldest rest frame, desk.suspended = oldest :: rest ∧ rest.length = 7 ∧
    desk.active = some frame ∧ after.suspended = rest ++ [frame] ∧ oldest.serial = serial

/-- The task was active when its user cancelled. -/
def Cancels (command : Str) (desk after : Desk) (serial : Nat) : Prop :=
  command ∈ noWords ∧ after.active = none ∧ ∃ frame, desk.active = some frame ∧ frame.serial = serial

def Discards (command : Str) (desk after : Desk) (serial : Nat) : Prop :=
  Cancels command desk after serial ∨ Overflows desk after serial

/-- Moves from one desk to another, with what is so of the tasks that leave. -/
def Moves (desk after : Desk) (completes discards : Nat → Prop) : Prop :=
  ∀ completed discarded, ∃ newly dropped,
    Relation.ReflTransGen (Move 8) (desk.ledger completed discarded)
      (after.ledger (completed ++ newly) (discarded ++ dropped)) ∧
    (∀ serial ∈ newly, completes serial) ∧ ∀ serial ∈ dropped, discards serial

section Moves

variable {completes discards : Nat → Prop}

omit [Unicode]

theorem Moves.of_same (same : ∀ completed discarded,
    after.ledger completed discarded = desk.ledger completed discarded) :
    Moves desk after completes discards := by
  intro completed discarded
  refine ⟨[], [], ?_, List.forall_mem_nil _, List.forall_mem_nil _⟩
  rw [List.append_nil, List.append_nil, same]

theorem Moves.of_move (move : ∀ completed discarded,
    Move 8 (desk.ledger completed discarded) (after.ledger completed discarded)) :
    Moves desk after completes discards := by
  intro completed discarded
  refine ⟨[], [], .single ?_, List.forall_mem_nil _, List.forall_mem_nil _⟩
  rw [List.append_nil, List.append_nil]
  exact move completed discarded

theorem Moves.trans {middle : Desk} (first : Moves desk middle completes discards)
    (second : Moves middle after completes discards) : Moves desk after completes discards := by
  intro completed discarded
  obtain ⟨newly, dropped, moves, completing, discarding⟩ := first completed discarded
  obtain ⟨later, gone, further, alsoCompleting, alsoDiscarding⟩ :=
    second (completed ++ newly) (discarded ++ dropped)
  refine ⟨newly ++ later, dropped ++ gone, ?_, List.forall_mem_append.mpr ⟨completing, alsoCompleting⟩,
    List.forall_mem_append.mpr ⟨discarding, alsoDiscarding⟩⟩
  rw [← List.append_assoc, ← List.append_assoc]
  exact moves.trans further

/-- Setting a frame aside discards at most the oldest suspended one. -/
theorem interrupted_moves (bounded : desk.suspended.length ≤ 8)
    (overflows : ∀ serial oldest rest frame, desk.suspended = oldest :: rest → rest.length = 7 →
      desk.active = some frame → desk.interrupted.suspended = rest ++ [frame] →
      oldest.serial = serial → discards serial) :
    Moves desk desk.interrupted completes discards := by
  unfold Desk.interrupted at overflows ⊢
  cases busy : desk.active with
  | none => exact .of_same fun _ _ => rfl
  | some frame =>
      rw [busy] at overflows
      dsimp only at overflows ⊢
      intro completed discarded
      have active : (desk.ledger completed discarded).active = some frame.serial := by
        rw [Desk.ledger, busy]
        rfl
      refine ⟨[], (desk.suspended.map Frame.serial ++ [frame.serial]).take
        (desk.suspended.length + 1 - 8), .single ?_, List.forall_mem_nil _, fun serial member => ?_⟩
      · have kept : (lastItems 8 (desk.suspended ++ [frame])).map Frame.serial =
            (desk.suspended.map Frame.serial ++ [frame.serial]).drop
              (desk.suspended.length + 1 - 8) := by
          rw [lastItems, List.map_drop, List.map_append, List.length_append]
          rfl
        have move : Move 8 _ _ := .interrupts active
        simp only [Ledger.excess, Desk.ledger, List.length_map, ← kept] at move
        rw [List.append_nil]
        exact move
      · rcases Nat.lt_or_eq_of_le bounded with room | full
        · rw [Nat.sub_eq_zero_of_le (by omega), List.take_zero] at member
          cases member
        · obtain ⟨oldest, rest, shape⟩ := List.exists_cons_of_length_eq_add_one full
          rw [shape, List.length_cons] at full
          have first : serial ∈ [oldest.serial] := by
            rw [shape, List.length_cons, full] at member
            exact member
          refine overflows serial oldest rest frame shape (by omega) rfl ?_
            (List.mem_singleton.mp first).symm
          rw [shape, lastItems, List.length_append, List.length_cons, full]
          rfl

theorem finished_moves {frame done : Frame} {store : DemoStore} (busy : desk.active = some frame)
    (same : done.serial = frame.serial) :
    Moves desk (desk.finished done store) (Completes (desk.finished done store)) discards := by
  intro completed discarded
  have active : (desk.ledger completed discarded).active = some frame.serial := by
    rw [Desk.ledger, busy]
    rfl
  refine ⟨[frame.serial], [], .single ?_, ?_, List.forall_mem_nil _⟩
  · rw [List.append_nil]
    exact .completes active
  · exact List.forall_mem_singleton.mpr ⟨_, rfl, same, rfl⟩

theorem ledger_congr (active : after.active.map Frame.serial = desk.active.map Frame.serial)
    (suspended : after.suspended = desk.suspended) (created : after.created = desk.created)
    (completed discarded : List Nat) :
    after.ledger completed discarded = desk.ledger completed discarded := by
  rw [Desk.ledger, active, suspended, created]
  rfl

end Moves

theorem Prepared.moves {completes discards : Nat → Prop} (bounded : desk.suspended.length ≤ 8)
    (step : Prepared command desk prepared frame)
    (overflows : ∀ serial, Overflows desk prepared serial → discards serial) :
    Moves desk prepared completes discards := by
  cases step with
  | same => exact .of_same fun _ _ => rfl
  | @resumed rest _ commanded waiting =>
      refine .of_move fun completed discarded => ?_
      have shape : (desk.ledger completed discarded).suspended =
          rest.map Frame.serial ++ [frame.serial] := by
        rw [Desk.ledger, waiting, List.map_append]
        rfl
      have move : Move 8 _ _ := .resumes shape
      simp only [Desk.ledger, Option.toList_map, ← List.map_append] at move
      exact move
  | filled busy _ shape =>
      refine .of_same (ledger_congr ?_ rfl rfl)
      rw [busy, shape]
      rfl
  | opened _ serial =>
      refine (interrupted_moves bounded fun serial oldest rest pushed shape seven busy left same =>
        overflows serial ⟨oldest, rest, pushed, shape, seven, busy, left, same⟩).trans
          (.of_move fun completed discarded => ?_)
      have idle : (desk.interrupted.ledger completed discarded).active = none := by
        rw [Desk.ledger, desk.interrupted_active]
        rfl
      have fresh : frame.serial ∉ (desk.interrupted.ledger completed discarded).opened := by
        rw [serial, Desk.ledger, desk.interrupted_created]
        exact List.not_mem_range_self
      have move : Move 8 _ _ := .opens idle fresh
      have opened : (desk.interrupted.ledger completed discarded).opened ++ [frame.serial] =
          List.range (desk.created + 1) := by
        rw [serial, Desk.ledger, desk.interrupted_created, ← List.range_succ]
      rw [opened] at move
      exact move

theorem Advanced.moves {discards : Nat → Prop} (busy : desk.active = some frame)
    (step : Advanced desk frame outcome after) : Moves desk after (Completes after) discards := by
  cases step with
  | stray | summarises =>
      refine .of_same (ledger_congr ?_ rfl rfl)
      rw [busy]
      rfl
  | asks | raises => exact .of_same fun _ _ => rfl
  | @executes reply done store =>
      have same : (frame.keepProduct done.2).serial = frame.serial := by
        unfold Frame.keepProduct
        split
        · rfl
        · rfl
      exact finished_moves busy same

theorem Turned.moves (bounded : desk.suspended.length ≤ 8)
    (step : Turned command desk outcome after) :
    Moves desk after (Completes after) (Discards command desk after) := by
  cases step with
  | replied | raised => exact .of_same fun _ _ => rfl
  | questioned =>
      exact interrupted_moves bounded fun serial oldest rest frame shape seven busy left same =>
        .inr ⟨oldest, rest, frame, shape, seven, busy, left, same⟩
  | cancelled commanded =>
      cases busy : desk.active with
      | none => exact .of_same (ledger_congr (by rw [busy]) rfl rfl)
      | some frame =>
          intro completed discarded
          have active : (desk.ledger completed discarded).active = some frame.serial := by
            rw [Desk.ledger, busy]
            rfl
          refine ⟨[], [frame.serial], .single ?_, List.forall_mem_nil _,
            List.forall_mem_singleton.mpr (.inl ⟨commanded, rfl, frame, busy, rfl⟩)⟩
          rw [List.append_nil]
          exact .cancels active
  | confirmed busy => exact finished_moves busy rfl
  | @advanced prepared _ frame _ step done =>
      have overflows : ∀ serial, Overflows desk prepared serial → Overflows desk after serial := by
        intro serial given
        obtain ⟨oldest, rest, pushed, shape, seven, busy, left, same⟩ := given
        exact ⟨oldest, rest, pushed, shape, seven, busy, done.suspended.trans left, same⟩
      have found : Moves desk prepared (Completes after) (Discards command desk after) :=
        step.moves bounded fun serial lost => .inr (overflows serial lost)
      exact found.trans (done.moves step.busy)

/-! ## Runs -/

/-- A turn with the conversations around it. -/
structure Step where
  before : Conversation
  utterance : Utterance
  result : Except PyException Reply
  after : Conversation

/-- The command that a turn reads. -/
def Step.normalized (step : Step) : Str := normalize step.utterance.text

def takeTurn (state : Conversation) (utterance : Utterance) : Step :=
  let outcome := turn state utterance
  ⟨state, utterance, outcome.1, outcome.2⟩

def stepsFrom (state : Conversation) : List Utterance → List Step
  | [] => []
  | utterance :: rest =>
      let step := takeTurn state utterance
      step :: stepsFrom step.after rest

def steps (utterances : List Utterance) : List Step := stepsFrom freshConversation utterances

def converse (utterances : List Utterance) : Conversation :=
  utterances.foldl (fun state utterance => (turn state utterance).2) freshConversation

@[simp] theorem converse_append_singleton (utterances : List Utterance) (utterance : Utterance) :
    converse (utterances ++ [utterance]) = (takeTurn (converse utterances) utterance).after := by
  simp [converse, takeTurn]

theorem steps_append_singleton (utterances : List Utterance) (utterance : Utterance) :
    steps (utterances ++ [utterance]) =
      steps utterances ++ [takeTurn (converse utterances) utterance] := by
  have general : ∀ state, stepsFrom state (utterances ++ [utterance]) = stepsFrom state utterances ++
      [takeTurn (utterances.foldl (fun state utterance => (turn state utterance).2) state)
        utterance] := by
    induction utterances with
    | nil => exact fun _ => rfl
    | cons first rest ih =>
        intro state
        rw [List.cons_append, stepsFrom, stepsFrom, ih]
        rfl
  exact general freshConversation

theorem steps_split {utterances : List Utterance} {first later : List Step} {step : Step}
    (shape : steps utterances = first ++ step :: later) :
    ∃ earlier utterance, first = steps earlier ∧ step = takeTurn (converse earlier) utterance := by
  induction utterances using List.reverseRecOn generalizing later with
  | nil => cases first <;> cases shape
  | append_singleton earlier utterance ih =>
      rw [steps_append_singleton] at shape
      cases later using List.reverseRecOn with
      | nil =>
          obtain ⟨same, single⟩ := List.append_inj' shape rfl
          cases single
          exact ⟨earlier, utterance, same.symm, rfl⟩
      | append_singleton later last =>
          rw [← List.cons_append, ← List.append_assoc] at shape
          exact ih (List.append_inj' shape rfl).1

theorem mem_steps {utterances : List Utterance} {step : Step} (member : step ∈ steps utterances) :
    ∃ earlier utterance, step = takeTurn (converse earlier) utterance := by
  obtain ⟨first, later, shape⟩ := List.append_of_mem member
  obtain ⟨earlier, utterance, _, same⟩ := steps_split shape
  exact ⟨earlier, utterance, same⟩

theorem takeTurn_turned (state : Conversation) (utterance : Utterance) :
    Turned (takeTurn state utterance).normalized state.desk (takeTurn state utterance).result
      (takeTurn state utterance).after.desk := turn_turned state utterance

/-- Between turns every frame is ready. -/
theorem converse_ready (utterances : List Utterance) : (converse utterances).desk.Ready := by
  induction utterances using List.reverseRecOn with
  | nil => exact List.forall_mem_nil _
  | append_singleton earlier utterance ih =>
      rw [converse_append_singleton]
      exact (takeTurn_turned _ utterance).ready ih

/-- A turn that raises changes neither the tasks nor the store. -/
theorem raised_keeps {utterances : List Utterance} {step : Step} {error : PyException}
    (member : step ∈ steps utterances) (raised : step.result = .error error) :
    step.after.desk = step.before.desk := by
  obtain ⟨earlier, utterance, rfl⟩ := mem_steps member
  have turned := takeTurn_turned (converse earlier) utterance
  rw [raised] at turned
  exact turned.raised_same (converse_ready earlier)

/-- The tasks that left the desk during a run. -/
structure Tracked (utterances : List Utterance) (completed discarded : List Nat) : Prop where
  conserved : Conserved 8 ((converse utterances).desk.ledger completed discarded)
  completes : ∀ serial ∈ completed, ∃ step ∈ steps utterances, Completes step.after.desk serial
  discards : ∀ serial ∈ discarded, ∃ step ∈ steps utterances,
    Discards step.normalized step.before.desk step.after.desk serial

theorem Tracked.bounded {utterances : List Utterance} {completed discarded : List Nat}
    (tracked : Tracked utterances completed discarded) :
    (converse utterances).suspended.length ≤ 8 := by
  have limited := tracked.conserved.bounded
  rwa [Desk.ledger, List.length_map] at limited

theorem exists_tracked (utterances : List Utterance) :
    ∃ completed discarded, Tracked utterances completed discarded := by
  induction utterances using List.reverseRecOn with
  | nil => exact ⟨[], [], conserved_empty 8, List.forall_mem_nil _, List.forall_mem_nil _⟩
  | append_singleton earlier utterance ih =>
      obtain ⟨completed, discarded, tracked⟩ := ih
      obtain ⟨newly, dropped, moves, completing, discarding⟩ :=
        (takeTurn_turned (converse earlier) utterance).moves tracked.bounded completed discarded
      obtain ⟨conserved, completes, discards⟩ := tracked
      refine ⟨completed ++ newly, discarded ++ dropped, ?_, ?_, ?_⟩
      · rw [converse_append_singleton]
        exact conserved.run moves
      · rw [steps_append_singleton]
        intro serial member
        rcases List.mem_append.mp member with before | now
        · obtain ⟨step, taken, done⟩ := completes serial before
          exact ⟨step, List.mem_append_left _ taken, done⟩
        · exact ⟨_, List.mem_append_right _ (List.mem_singleton_self _), completing serial now⟩
      · rw [steps_append_singleton]
        intro serial member
        rcases List.mem_append.mp member with before | now
        · obtain ⟨step, taken, done⟩ := discards serial before
          exact ⟨step, List.mem_append_left _ taken, done⟩
        · exact ⟨_, List.mem_append_right _ (List.mem_singleton_self _), discarding serial now⟩

theorem live_nodup (utterances : List Utterance) :
    ((converse utterances).desk.live.map Frame.serial).Nodup := by
  obtain ⟨completed, discarded, tracked⟩ := exists_tracked utterances
  have places := tracked.conserved.nodup
  rw [Ledger.places, Desk.ledger, Option.toList_map, ← List.append_assoc, ← List.map_append] at places
  exact (List.nodup_append.mp places).1

theorem eq_of_serial {utterances : List Utterance} {frame other : Frame}
    (first : frame ∈ (converse utterances).desk.live)
    (second : other ∈ (converse utterances).desk.live) (same : frame.serial = other.serial) :
    frame = other :=
  List.inj_on_of_nodup_map (live_nodup utterances) first second same

/-- Nothing happens to the frames of a run but what is said here. -/
structure TasksConserved (utterances : List Utterance) : Prop where
  placed : ∃ completed discarded : List Nat,
    ((converse utterances).desk.live.map Frame.serial ++ (completed ++ discarded)).Perm
        (List.range (converse utterances).created) ∧
      (∀ serial ∈ completed, ∃ step ∈ steps utterances, Completes step.after.desk serial) ∧
        ∀ serial ∈ discarded, ∃ step ∈ steps utterances,
          Discards step.normalized step.before.desk step.after.desk serial
  bounded : (converse utterances).suspended.length ≤ 8
  stacked : ∀ step ∈ steps utterances, Stacked step.normalized step.before.desk step.after.desk
  resumed : ∀ step ∈ steps utterances, step.normalized ∈ resumeWords →
    ∀ rest previous, step.before.suspended = rest ++ [previous] →
      step.after.active = some previous ∧
        step.after.suspended = rest ++ step.before.active.toList
  frozen : ∀ step ∈ steps utterances, ∀ frame ∈ step.before.suspended,
    ∀ other ∈ step.after.suspended, frame.serial = other.serial → frame = other

/-- Interrupted tasks are conserved, whatever is said and however it is classified. -/
theorem turn_conserves (utterances : List Utterance) : TasksConserved utterances := by
  obtain ⟨completed, discarded, tracked⟩ := exists_tracked utterances
  refine ⟨⟨completed, discarded, ?_, tracked.completes, tracked.discards⟩, tracked.bounded, ?_, ?_, ?_⟩
  · have placed := tracked.conserved.placed
    rw [Ledger.places, Desk.ledger, Option.toList_map, ← List.append_assoc, ← List.map_append]
      at placed
    exact placed
  · intro step member
    obtain ⟨earlier, utterance, rfl⟩ := mem_steps member
    exact (takeTurn_turned _ utterance).stacked (converse_ready earlier)
  · intro step member commanded rest previous waiting
    obtain ⟨earlier, utterance, rfl⟩ := mem_steps member
    have last : previous ∈ (converse earlier).suspended := by
      rw [show (converse earlier).suspended = rest ++ [previous] from waiting]
      exact List.mem_append_right _ (List.mem_singleton_self _)
    have ready := converse_ready earlier previous (List.mem_append_right _ last)
    have done := @turn_resumed _ (converse earlier) utterance rest previous commanded waiting
    exact ⟨done.active_of_ready rfl ready, done.suspended⟩
  · intro step member frame waiting other later same
    obtain ⟨earlier, utterance, rfl⟩ := mem_steps member
    have stacked := (takeTurn_turned _ utterance).stacked (converse_ready earlier)
    exact eq_of_serial (List.mem_append_right _ waiting) (stacked.live other later) same

def say (text : String) (selected : Option Str) : Utterance :=
  ⟨lit text, selected, fun _ _ => .ok ⟨none, []⟩⟩

example : ((@steps basicUnicode [say "ORD-1002" (some (lit "order_cancel")),
    say "도착" (some (lit "delivery_eta")), say "이어서" none]).map fun step =>
      (step.after.active.map Frame.serial, step.after.suspended.map Frame.serial)) =
    [(some 0, []), (some 1, [0]), (some 0, [1])] := by decide +kernel

end VllmVerifier.CustomerService

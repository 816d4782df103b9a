import VllmVerifier.CustomerService.Actions

/-!
What an execution does. It reads only slots that its intent requires, so it
returns once none of them is missing; only a change that was to be confirmed
writes to the store, and it adds at most one ticket.
-/

set_option autoImplicit false

namespace VllmVerifier.CustomerService

open Python

/-! ## The catalogue -/

/-- The option of these changes is checked against the product. -/
def optionKeys : List Str := [lit "order_option", lit "exchange_request"]

/-- The slots that the changing branches read. -/
def changeReads (key : Str) : List Slot :=
  (if key ∈ openOrderKeys ++ optionKeys ++ orderKeys then [.orderId] else []) ++
    (if key ∈ optionKeys then [.option] else []) ++
    (if key = lit "order_quantity" then [.quantity] else []) ++
    (if key = lit "delivery_address" then [.address] else []) ++
    (if key = lit "delivery_instructions" then [.instructions] else [])

/-- The slots that `execute` reads. -/
def Intent.reads (intent : Intent) : List Slot :=
  match intent.handler with
  | .faq | .orders | .events | .coupons => []
  | .event => [.event]
  | .coupon => [.coupon]
  | .search => [.query]
  | .product => [.product]
  | .compare => [.product, .otherProduct]
  | .order => [.orderId]
  | .mutation | .handoff => changeReads intent.id

/-- The handlers that write to the store. -/
def Intent.changes (intent : Intent) : Prop :=
  intent.handler = .mutation ∨ intent.handler = .handoff

theorem reads_required : ∀ intent ∈ intents, ∀ slot ∈ intent.reads, slot ∈ intent.requiredSlots := by
  decide +kernel

theorem faq_answered : ∀ intent ∈ intents, intent.handler = .faq →
    (faq.lookup intent.id).isSome = true := by
  decide +kernel

theorem changes_confirmed : ∀ intent ∈ intents, intent.handler = .mutation ∨
    intent.handler = .handoff → intent.confirmation = true := by
  decide +kernel

theorem catalogue_ids : (intents.map Intent.id).Nodup := by decide +kernel

theorem eq_of_id {first second : Catalogued} (same : first.val.id = second.val.id) :
    first = second :=
  Subtype.ext (List.inj_on_of_nodup_map catalogue_ids first.property second.property same)

/-! ## Reading -/

theorem readSlot_ok {slots : Dict Slot Str} {slot : Slot} (present : (slots.get? slot).isSome = true) :
    ∃ value, readSlot slots slot = .ok value ∧ slots.get? slot = some value := by
  obtain ⟨value, found⟩ := Option.isSome_iff_exists.mp present
  exact ⟨value, by rw [readSlot, found], found⟩

theorem slotAction_ok {slots : Dict Slot Str} {slot : Slot} {answer : Str → Outcome}
    (present : (slots.get? slot).isSome = true) :
    ∃ outcome, slotAction slots slot answer = .ok outcome := by
  obtain ⟨value, read, _⟩ := readSlot_ok present
  exact ⟨answer value, by rw [slotAction, read]; rfl⟩

theorem productAction_ok {intent : Intent} {slots : Dict Slot Str}
    (product : (slots.get? .product).isSome = true)
    (other : intent.handler = .compare → (slots.get? .otherProduct).isSome = true) :
    ∃ outcome, productAction intent slots = .ok outcome := by
  obtain ⟨name, read, _⟩ := readSlot_ok product
  unfold productAction
  rw [read, except_ok_bind]
  split
  · exact ⟨_, rfl⟩
  · split
    · rename_i compared
      obtain ⟨second, readOther, _⟩ := readSlot_ok (other compared)
      rw [readOther, except_ok_bind]
      exact ⟨_, rfl⟩
    · exact ⟨_, rfl⟩

theorem unchanged_ok {store after : DemoStore} {outcome : Except PyException Outcome}
    {found : Outcome} (success : unchanged store outcome = .ok (found, after)) :
    after = store := by
  cases outcome with
  | error error => cases success
  | ok _ =>
      cases success
      rfl

theorem unchanged_of_ok {store : DemoStore} {outcome : Except PyException Outcome}
    (success : ∃ found, outcome = .ok found) : ∃ result, unchanged store outcome = .ok result := by
  obtain ⟨found, rfl⟩ := success
  exact ⟨_, rfl⟩

/-- What an execution leaves of the store. -/
structure Acts (intent : Intent) (slots : Dict Slot Str) (store after : DemoStore) : Prop where
  orders : ∀ id, (after.orders.get? id).isSome = (store.orders.get? id).isSome
  tickets : after.tickets = store.tickets ∨ ∃ ticket, ticket.intent = intent.id ∧
    ticket.slots = slots ∧ after.tickets = store.tickets ++ [ticket]

theorem Acts.same (intent : Intent) (slots : Dict Slot Str) (store : DemoStore) :
    Acts intent slots store store := ⟨fun _ => rfl, .inl rfl⟩

/-! ## Changing -/

theorem shippedRefusal_ok {key : Str} {order : Option Order}
    (present : key ∈ openOrderKeys → order.isSome = true) :
    ∃ refusal, shippedRefusal key order = .ok refusal := by
  unfold shippedRefusal
  split
  · rename_i member
    obtain ⟨found, rfl⟩ := Option.isSome_iff_exists.mp (present member)
    dsimp only
    split
    · exact ⟨_, rfl⟩
    · exact ⟨_, rfl⟩
  · exact ⟨_, rfl⟩

theorem optionRefusal_ok {key : Str} {slots : Dict Slot Str} {order : Option Order}
    (present : key ∈ optionKeys → order.isSome = true ∧ (slots.get? .option).isSome = true) :
    ∃ refusal, optionRefusal key slots order = .ok refusal := by
  unfold optionRefusal
  split
  · rename_i member
    obtain ⟨some, option⟩ := present member
    obtain ⟨found, rfl⟩ := Option.isSome_iff_exists.mp some
    obtain ⟨product, stocked⟩ := Option.isSome_iff_exists.mp found.stocked
    obtain ⟨value, read, _⟩ := readSlot_ok option
    rw [Option.bind_some, stocked]
    dsimp only
    rw [read, except_ok_bind]
    split
    · exact ⟨_, rfl⟩
    · exact ⟨_, rfl⟩
  · exact ⟨_, rfl⟩

variable [Unicode]

/-- A quantity, where there is one, is a number. -/
def Countable (slots : Dict Slot Str) : Prop :=
  ∀ value, slots.get? .quantity = some value → (Unicode.int? value).isSome = true

theorem readQuantity_ok {slots : Dict Slot Str} (countable : Countable slots)
    (present : (slots.get? .quantity).isSome = true) :
    ∃ value, readQuantity slots = .ok value := by
  obtain ⟨text, read, found⟩ := readSlot_ok present
  obtain ⟨value, parsed⟩ := Option.isSome_iff_exists.mp (countable text found)
  refine ⟨value, ?_⟩
  rw [readQuantity, read, except_ok_bind]
  simp only [parsed]
  rfl

theorem changeOrder_ok {key : Str} {slots : Dict Slot Str} (order : Order)
    (countable : Countable slots) (known : key ∈ orderKeys)
    (present : ∀ slot ∈ changeReads key, (slots.get? slot).isSome = true) :
    ∃ changed, changeOrder key slots order = .ok changed := by
  simp only [orderKeys, List.mem_cons, List.not_mem_nil, or_false] at known
  rcases known with rfl | rfl | rfl | rfl | rfl
  · exact ⟨_, rfl⟩
  · obtain ⟨value, read⟩ := readQuantity_ok countable (present .quantity (by decide))
    refine ⟨{ order with quantity := value }, ?_⟩
    unfold changeOrder
    rw [if_neg (by decide), if_pos rfl, read]
    rfl
  · obtain ⟨value, read, _⟩ := readSlot_ok (present .option (by decide))
    refine ⟨{ order with option := value }, ?_⟩
    unfold changeOrder
    rw [if_neg (by decide), if_neg (by decide), if_pos rfl, read]
    rfl
  · obtain ⟨value, read, _⟩ := readSlot_ok (present .address (by decide))
    refine ⟨{ order with address := value }, ?_⟩
    unfold changeOrder
    rw [if_neg (by decide), if_neg (by decide), if_neg (by decide), if_pos rfl, read]
    rfl
  · obtain ⟨value, read, _⟩ := readSlot_ok (present .instructions (by decide))
    refine ⟨{ order with instructions := some value }, ?_⟩
    unfold changeOrder
    rw [if_neg (by decide), if_neg (by decide), if_neg (by decide), if_neg (by decide), read]
    rfl

theorem applyChange_ok {key : Str} {slots : Dict Slot Str} {store : DemoStore}
    (countable : Countable slots)
    (present : ∀ slot ∈ changeReads key, (slots.get? slot).isSome = true)
    (ordered : key ∈ orderKeys →
      (store.orders.get? ((slots.get? .orderId).getD [])).isSome = true) :
    ∃ after, applyChange key slots store = .ok after := by
  unfold applyChange
  split
  · rename_i known
    obtain ⟨order, found⟩ := Option.isSome_iff_exists.mp (ordered known)
    obtain ⟨changed, applied⟩ := changeOrder_ok order countable known present
    dsimp only
    rw [found]
    dsimp only
    rw [applied]
    exact ⟨_, rfl⟩
  · split
    · exact ⟨_, rfl⟩
    · exact ⟨_, rfl⟩

theorem changeAction_ok {intent : Intent} {slots : Dict Slot Str} {store : DemoStore}
    (countable : Countable slots)
    (present : ∀ slot ∈ changeReads intent.id, (slots.get? slot).isSome = true)
    (ordered : .orderId ∈ changeReads intent.id →
      (store.orders.get? ((slots.get? .orderId).getD [])).isSome = true) :
    ∃ result, changeAction intent slots store
      (store.orders.get? ((slots.get? .orderId).getD [])) = .ok result := by
  have needs : intent.id ∈ openOrderKeys ++ optionKeys ++ orderKeys →
      .orderId ∈ changeReads intent.id := by
    intro member
    unfold changeReads
    rw [if_pos member]
    exact List.mem_append_left _ (List.mem_append_left _ (List.mem_append_left _
      (List.mem_append_left _ List.mem_cons_self)))
  have chooses : intent.id ∈ optionKeys → .option ∈ changeReads intent.id := by
    intro member
    unfold changeReads
    rw [if_pos member]
    simp
  obtain ⟨shipped, first⟩ := @shippedRefusal_ok intent.id
    (store.orders.get? ((slots.get? .orderId).getD [])) fun member => ordered (needs (by simp [member]))
  obtain ⟨refused, second⟩ := @optionRefusal_ok intent.id slots
    (store.orders.get? ((slots.get? .orderId).getD [])) fun member =>
      ⟨ordered (needs (by simp [member])), present _ (chooses member)⟩
  obtain ⟨after, third⟩ := @applyChange_ok _ intent.id slots store countable present
    fun member => ordered (needs (by simp [member]))
  unfold changeAction
  rw [first, except_ok_bind]
  cases shipped with
  | some refusal => exact ⟨_, rfl⟩
  | none =>
      dsimp only
      rw [second, except_ok_bind]
      cases refused with
      | some refusal => exact ⟨_, rfl⟩
      | none =>
          dsimp only
          rw [third, except_ok_bind]
          exact ⟨_, rfl⟩

/-! ## Execution -/

/-- An intent of the catalogue with all its slots is executed without an exception. -/
theorem execute_total (intent : Catalogued) {slots : Dict Slot Str} (store : DemoStore)
    (countable : Countable slots)
    (complete : ∀ slot ∈ intent.val.requiredSlots, (slots.get? slot).isSome = true) :
    ∃ result, execute intent.val slots store = .ok result := by
  have present : ∀ slot ∈ intent.val.reads, (slots.get? slot).isSome = true :=
    fun slot member => complete slot (reads_required intent.val intent.property slot member)
  unfold execute
  dsimp only
  split
  · exact ⟨_, rfl⟩
  · rename_i admitted
    have ordered : .orderId ∈ intent.val.reads →
        (store.orders.get? ((slots.get? .orderId).getD [])).isSome = true := by
      intro member
      have needed := reads_required intent.val intent.property _ member
      rw [Option.isSome_iff_ne_none]
      exact fun none => admitted ⟨needed, Option.isNone_iff_eq_none.mpr none⟩
    unfold Intent.reads at present ordered
    cases handler : intent.val.handler with
    | faq =>
        obtain ⟨text, found⟩ :=
          Option.isSome_iff_exists.mp (faq_answered intent.val intent.property handler)
        exact unchanged_of_ok ⟨_, by rw [faqAction, found]⟩
    | orders | events | coupons => exact ⟨_, rfl⟩
    | event | coupon | search =>
        simp only [handler, List.mem_singleton, forall_eq] at present
        exact unchanged_of_ok (slotAction_ok present)
    | product =>
        simp only [handler, List.mem_singleton, forall_eq] at present
        exact unchanged_of_ok (productAction_ok present (by simp [handler]))
    | compare =>
        simp only [handler] at present
        exact unchanged_of_ok (productAction_ok (present .product (by decide))
          fun _ => present .otherProduct (by decide))
    | order =>
        simp only [handler, List.mem_singleton, forall_eq, forall_const] at present ordered
        obtain ⟨order, found⟩ := Option.isSome_iff_exists.mp ordered
        obtain ⟨id, read, _⟩ := readSlot_ok present
        exact unchanged_of_ok ⟨_, by simp only [orderAction, found, read, except_ok_bind]; rfl⟩
    | mutation | handoff =>
        simp only [handler] at present ordered
        exact changeAction_ok countable present ordered

theorem applyChange_keeps {key : Str} {slots : Dict Slot Str} {store after : DemoStore}
    (success : applyChange key slots store = .ok after) :
    after.tickets = store.tickets ∧
      ∀ id, (after.orders.get? id).isSome = (store.orders.get? id).isSome := by
  unfold applyChange at success
  split at success
  · dsimp only at success
    cases found : store.orders.get? ((slots.get? .orderId).getD []) with
    | none =>
        rw [found] at success
        cases success
    | some order =>
        rw [found] at success
        obtain ⟨changed, _, success⟩ := except_bind_ok success
        cases success
        refine ⟨rfl, fun id => ?_⟩
        dsimp only
        by_cases same : id = (slots.get? .orderId).getD []
        · rw [same, Dict.get?_set_self, found]
          rfl
        · rw [Dict.get?_set_of_ne same]
  · split at success
    · cases success
      exact ⟨rfl, fun _ => rfl⟩
    · cases success
      exact ⟨rfl, fun _ => rfl⟩

theorem changeAction_acts {intent : Intent} {slots : Dict Slot Str} {store after : DemoStore}
    {order : Option Order} {outcome : Outcome}
    (success : changeAction intent slots store order = .ok (outcome, after)) :
    Acts intent slots store after := by
  unfold changeAction at success
  obtain ⟨shipped, _, success⟩ := except_bind_ok success
  cases shipped with
  | some refusal =>
      cases success
      exact .same _ _ _
  | none =>
      obtain ⟨refused, _, success⟩ := except_bind_ok success
      cases refused with
      | some refusal =>
          cases success
          exact .same _ _ _
      | none =>
          obtain ⟨changed, applied, success⟩ := except_bind_ok success
          cases success
          obtain ⟨tickets, orders⟩ := applyChange_keeps applied
          exact ⟨orders, .inr ⟨_, rfl, rfl, by rw [tickets]⟩⟩

theorem execute_reads {intent : Intent} {slots : Dict Slot Str} {store after : DemoStore}
    {outcome : Outcome} (reads : ¬ intent.changes)
    (success : execute intent slots store = .ok (outcome, after)) : after = store := by
  unfold execute at success
  dsimp only at success
  split at success
  · cases success
    rfl
  · unfold Intent.changes at reads
    cases handler : intent.handler with
    | faq | event | coupon | search | product | compare | order =>
        rw [handler] at success
        exact unchanged_ok success
    | orders | events | coupons =>
        rw [handler] at success
        cases success
        rfl
    | mutation => exact absurd (.inl handler) reads
    | handoff => exact absurd (.inr handler) reads

theorem execute_acts {intent : Intent} {slots : Dict Slot Str} {store after : DemoStore}
    {outcome : Outcome} (success : execute intent slots store = .ok (outcome, after)) :
    Acts intent slots store after := by
  by_cases changes : intent.changes
  · unfold execute at success
    dsimp only at success
    split at success
    · cases success
      exact .same _ _ _
    · rcases changes with handler | handler
      · rw [handler] at success
        exact changeAction_acts success
      · rw [handler] at success
        exact changeAction_acts success
  · rw [execute_reads changes success]
    exact .same _ _ _

end VllmVerifier.CustomerService

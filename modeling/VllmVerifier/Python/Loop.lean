import VllmVerifier.Python.Result

/-!
Loops that write in place: what an exception leaves behind of the state. Where
that is not looked at, such a loop is a fold in the exception monad.
-/

set_option autoImplicit false

namespace VllmVerifier.Python

variable {State Item ε : Type}

/-- A loop over these items, with what it wrote before an exception. -/
def loop (body : State → Item → State × Option ε) : State → List Item → State × Option ε
  | state, [] => (state, none)
  | state, item :: rest =>
      match body state item with
      | (written, none) => loop body written rest
      | (written, some error) => (written, some error)

/-- A body that writes nothing when it raises. -/
def atomically (body : State → Item → Except ε State) (state : State) (item : Item) :
    State × Option ε :=
  match body state item with
  | .ok written => (written, none)
  | .error error => (state, some error)

/-- The state of a statement that returned, or its exception. -/
def returned : State × Option ε → Except ε State
  | (written, none) => .ok written
  | (_, some error) => .error error

/-- The items that a fold comes to, up to the one at which it raises. -/
def reached (fold : State → Item → Except ε State) : State → List Item → List Item
  | _, [] => []
  | state, item :: rest =>
      item :: match fold state item with
        | .ok next => reached fold next rest
        | .error _ => []

variable {body : State → Item → State × Option ε}

theorem reached_of_ok {fold : State → Item → Except ε State} {state final : State}
    {items : List Item} (success : items.foldlM fold state = .ok final) :
    reached fold state items = items := by
  induction items generalizing state with
  | nil => rfl
  | cons item rest ih =>
      rw [List.foldlM_cons] at success
      obtain ⟨next, turned, success⟩ := except_bind_ok success
      rw [reached, turned]
      exact congrArg (item :: ·) (ih success)

theorem returned_atomically (body : State → Item → Except ε State) (state : State) (item : Item) :
    returned (atomically body state item) = body state item := by
  unfold atomically
  cases body state item <;> rfl

theorem returned_loop {fold : State → Item → Except ε State}
    (same : ∀ state item, returned (body state item) = fold state item) (state : State)
    (items : List Item) : returned (loop body state items) = items.foldlM fold state := by
  induction items generalizing state with
  | nil => rfl
  | cons item rest ih =>
      rw [List.foldlM_cons, ← same, loop]
      rcases body state item with ⟨written, raised⟩
      cases raised with
      | none => exact ih written
      | some error => rfl

/-- What no turn of a loop changes is as before, also after an exception. -/
theorem loop_keeps {Trait : Type} {trait : State → Trait}
    (kept : ∀ state item, trait (body state item).1 = trait state) (state : State)
    (items : List Item) : trait (loop body state items).1 = trait state := by
  induction items generalizing state with
  | nil => rfl
  | cons item rest ih =>
      have first := kept state item
      rw [loop]
      cases turned : body state item with
      | mk written raised =>
          rw [turned] at first
          cases raised with
          | none => exact (ih written).trans first
          | some error => exact first

end VllmVerifier.Python

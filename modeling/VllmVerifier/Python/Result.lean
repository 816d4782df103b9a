import Mathlib.Data.List.Forall2

/-!
Inversion of the exception monad: a computation that returns had every part of
it return, and one that raised had some part of it raise.
-/

set_option autoImplicit false

namespace VllmVerifier.Python

variable {α β ε : Type}

theorem except_bind_ok {source : Except ε α} {continuation : α → Except ε β} {result : β}
    (success : (source >>= continuation) = .ok result) :
    ∃ value, source = .ok value ∧ continuation value = .ok result := by
  cases source with
  | error error => cases success
  | ok value => exact ⟨value, rfl, success⟩

theorem except_bind_error {source : Except ε α} {continuation : α → Except ε β} {raised : ε}
    (failure : (source >>= continuation) = .error raised) :
    source = .error raised ∨ ∃ value, source = .ok value ∧ continuation value = .error raised := by
  cases source with
  | error error =>
      cases failure
      exact .inl rfl
  | ok value => exact .inr ⟨value, rfl, failure⟩

theorem except_ok_bind (value : α) (continuation : α → Except ε β) :
    (Except.ok value >>= continuation) = continuation value := rfl

theorem exists_ok_of_toBool {computation : Except ε α} (returned : computation.toBool = true) :
    ∃ value, computation = .ok value := by
  cases computation with
  | error error => cases returned
  | ok value => exact ⟨value, rfl⟩

theorem error_of_map {f : α → β} {computation : Except ε α} {raised : ε}
    (mapped : computation.map f = .error raised) : computation = .error raised := by
  cases computation with
  | ok value => cases mapped
  | error error =>
      cases mapped
      rfl

theorem mapM_ok_iff {f : α → Except ε β} {items : List α} {results : List β} :
    items.mapM f = .ok results ↔
      List.Forall₂ (fun item result => f item = .ok result) items results := by
  induction items generalizing results with
  | nil => simp [pure, Except.pure, eq_comm]
  | cons item rest ih =>
      rw [List.mapM_cons, List.forall₂_cons_left_iff]
      constructor
      · intro success
        obtain ⟨head, first, continuation⟩ := except_bind_ok success
        obtain ⟨tail, others, shape⟩ := except_bind_ok continuation
        cases shape
        exact ⟨head, tail, first, ih.mp others, rfl⟩
      · intro given
        obtain ⟨head, tail, first, others, rfl⟩ := given
        rw [first, except_ok_bind, ih.mpr others]
        rfl

theorem mapM_ok_map_iff {f : α → Except ε β} {g : α → β} {admits : α → Prop}
    (each : ∀ item result, f item = .ok result ↔ admits item ∧ result = g item)
    {items : List α} {results : List β} :
    items.mapM f = .ok results ↔ (∀ item ∈ items, admits item) ∧ results = items.map g := by
  rw [mapM_ok_iff]
  constructor
  · intro related
    induction related with
    | nil => simp
    | cons head _ ih =>
        obtain ⟨admitted, rfl⟩ := (each _ _).mp head
        exact ⟨List.forall_mem_cons.mpr ⟨admitted, ih.1⟩, by rw [ih.2, List.map_cons]⟩
  · intro given
    obtain ⟨admitted, rfl⟩ := given
    exact List.forall₂_map_right_iff.mpr (List.forall₂_same.mpr fun item member =>
      (each item _).mpr ⟨admitted item member, rfl⟩)

theorem mapM_ok_length {f : α → Except ε β} {items : List α} {results : List β}
    (success : items.mapM f = .ok results) : results.length = items.length :=
  (mapM_ok_iff.mp success).length_eq.symm

theorem mapM_error {f : α → Except ε β} {items : List α} {raised : ε}
    (failure : items.mapM f = .error raised) : ∃ item ∈ items, f item = .error raised := by
  induction items with
  | nil => cases failure
  | cons item rest ih =>
      rw [List.mapM_cons] at failure
      rcases except_bind_error failure with first | ⟨head, _, continuation⟩
      · exact ⟨item, List.mem_cons_self, first⟩
      · rcases except_bind_error continuation with others | ⟨tail, _, shape⟩
        · obtain ⟨found, member, raisedThere⟩ := ih others
          exact ⟨found, List.mem_cons_of_mem _ member, raisedThere⟩
        · cases shape

theorem mapM_total {f : α → Except ε β} {g : α → β} {items : List α}
    (total : ∀ item ∈ items, f item = .ok (g item)) : items.mapM f = .ok (items.map g) := by
  rw [mapM_ok_iff, List.forall₂_map_right_iff, List.forall₂_same]
  exact total

/-- What no step of a loop changes is as before, when the loop returns. -/
theorem foldlM_keeps {Trait : Type} (trait : α → Trait) {body : α → β → Except ε α}
    (kept : ∀ state item written, body state item = .ok written → trait written = trait state)
    {items : List β} {state last : α} (folded : items.foldlM body state = .ok last) :
    trait last = trait state := by
  induction items generalizing state with
  | nil =>
      cases folded
      rfl
  | cons item rest ih =>
      rw [List.foldlM_cons] at folded
      obtain ⟨written, first, others⟩ := except_bind_ok folded
      exact (ih others).trans (kept state item written first)

/-! ## Related computations -/

/-- Both return related values, or both raise the same exception. -/
inductive Together (related : α → β → Prop) : Except ε α → Except ε β → Prop where
  | ok {value : α} {twin : β} : related value twin → Together related (.ok value) (.ok twin)
  | error (raised : ε) : Together related (.error raised) (.error raised)

theorem Together.bind {γ δ : Type} {related : α → β → Prop} {after : γ → δ → Prop}
    {source : Except ε α} {other : Except ε β} {continuation : α → Except ε γ}
    {otherContinuation : β → Except ε δ} (together : Together related source other)
    (next : ∀ value twin, related value twin →
      Together after (continuation value) (otherContinuation twin)) :
    Together after (source >>= continuation) (other >>= otherContinuation) := by
  cases together with
  | ok known => exact next _ _ known
  | error raised => exact .error raised

theorem Together.foldlM {γ : Type} {related : α → β → Prop} {step : α → γ → Except ε α}
    {otherStep : β → γ → Except ε β}
    (each : ∀ item value twin, related value twin →
      Together related (step value item) (otherStep twin item))
    (items : List γ) {value : α} {twin : β} (known : related value twin) :
    Together related (items.foldlM step value) (items.foldlM otherStep twin) := by
  induction items generalizing value twin with
  | nil => exact .ok known
  | cons item rest ih =>
      rw [List.foldlM_cons, List.foldlM_cons]
      exact (each item value twin known).bind fun _ _ after => ih after

/-! ## Related lists -/

theorem forall₂_mem_left {related : α → β → Prop} {items : List α} {results : List β}
    (all : List.Forall₂ related items results) {item : α} (member : item ∈ items) :
    ∃ result ∈ results, related item result := by
  induction all with
  | nil => cases member
  | cons head _ ih =>
      rcases List.mem_cons.mp member with rfl | member
      · exact ⟨_, List.mem_cons_self, head⟩
      · obtain ⟨result, present, known⟩ := ih member
        exact ⟨result, List.mem_cons_of_mem _ present, known⟩

theorem forall₂_mem_right {related : α → β → Prop} {items : List α} {results : List β}
    (all : List.Forall₂ related items results) {result : β} (member : result ∈ results) :
    ∃ item ∈ items, related item result := by
  obtain ⟨item, present, known⟩ := forall₂_mem_left all.flip member
  exact ⟨item, present, known⟩

theorem forall₂_getElem? {related : α → β → Prop} {items : List α} {results : List β}
    (all : List.Forall₂ related items results) {index : Nat} {item : α}
    (found : items[index]? = some item) : ∃ result, results[index]? = some result ∧
      related item result := by
  induction all generalizing index with
  | nil => cases found
  | cons head _ ih =>
      cases index with
      | zero =>
          cases found
          exact ⟨_, rfl, head⟩
      | succ index => exact ih found

theorem forall₂_set_right {related : α → β → Prop} {items : List α} {results : List β}
    (all : List.Forall₂ related items results) {index : Nat} {item : α} {result : β}
    (found : items[index]? = some item) (known : related item result) :
    List.Forall₂ related items (results.set index result) := by
  induction all generalizing index with
  | nil => exact .nil
  | cons head tail ih =>
      cases index with
      | zero =>
          cases found
          exact .cons known tail
      | succ index => exact .cons head (ih found)

theorem forall₂_set_left {related : α → β → Prop} {items : List α} {results : List β}
    (all : List.Forall₂ related items results) {index : Nat} {item : α} {result : β}
    (found : results[index]? = some result) (known : related item result) :
    List.Forall₂ related (items.set index item) results :=
  (forall₂_set_right all.flip found known).flip

theorem forall₂_concat {related : α → β → Prop} {items : List α} {item : α} {results : List β}
    (all : List.Forall₂ related (items ++ [item]) results) : ∃ before result,
      results = before ++ [result] ∧ List.Forall₂ related items before ∧ related item result := by
  induction items generalizing results with
  | nil =>
      obtain ⟨result, rest, known, none, rfl⟩ := List.forall₂_cons_left_iff.mp all
      cases none
      exact ⟨[], result, rfl, .nil, known⟩
  | cons first items ih =>
      obtain ⟨head, rest, known, others, rfl⟩ := List.forall₂_cons_left_iff.mp all
      obtain ⟨before, result, rfl, same, last⟩ := ih others
      exact ⟨head :: before, result, rfl, .cons known same, last⟩

theorem exists_forall₂ {related : α → β → Prop} {items : List α}
    (each : ∀ item ∈ items, ∃ result, related item result) :
    ∃ results, List.Forall₂ related items results := by
  induction items with
  | nil => exact ⟨[], .nil⟩
  | cons item rest ih =>
      obtain ⟨head, known⟩ := each item List.mem_cons_self
      obtain ⟨tail, others⟩ := ih fun found member => each found (List.mem_cons_of_mem _ member)
      exact ⟨head :: tail, .cons known others⟩

theorem forall₂_map_eq {γ : Type} {f : α → γ} {g : β → γ} {items : List α} {results : List β}
    (all : List.Forall₂ (fun item result => f item = g result) items results) :
    items.map f = results.map g := by
  induction all with
  | nil => rfl
  | cons head _ ih => rw [List.map_cons, List.map_cons, head, ih]

theorem mapM_congr {γ : Type} {f : α → Except ε γ} {g : β → Except ε γ} {items : List α}
    {others : List β} (all : List.Forall₂ (fun item other => f item = g other) items others) :
    items.mapM f = others.mapM g := by
  induction all with
  | nil => rfl
  | cons head _ ih => rw [List.mapM_cons, List.mapM_cons, head, ih]

theorem forall₂_zipIdx {related : α → β → Prop} {items : List α} {others : List β} (start : Nat)
    (all : List.Forall₂ related items others) :
    List.Forall₂ (fun item other => related item.1 other.1 ∧ item.2 = other.2)
      (items.zipIdx start) (others.zipIdx start) := by
  induction all generalizing start with
  | nil => exact .nil
  | cons head _ ih => exact .cons ⟨head, rfl⟩ (ih (start + 1))

end VllmVerifier.Python

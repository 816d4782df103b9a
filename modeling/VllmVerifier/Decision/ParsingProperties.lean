import VllmVerifier.Decision.Artifact
import VllmVerifier.Json.DumpsProperties
import VllmVerifier.Json.LoadsProperties

/-!
A plain `json.loads`: its only exception is a `ValueError`, no object that it
returns repeats a name, and it reads back what `json.dumps` writes.
-/

set_option autoImplicit false

namespace VllmVerifier.Decision.Artifact

open Python Json

/-! ## Names -/

theorem distinct_of_lookup {members : List (Str × Json)}
    (distinct : Json.distinctMembers members = true) {key : Str} {value : Json}
    (found : Dict.lookupEntries key members = some value) : value.distinctNames = true := by
  induction members with
  | nil => cases found
  | cons member rest ih =>
      obtain ⟨name, first⟩ := member
      rw [Json.distinctMembers, Bool.and_eq_true] at distinct
      rw [Dict.lookupEntries] at found
      split at found
      · cases found
        exact distinct.1
      · exact ih distinct.2 found

theorem distinctMembers_set {members : List (Str × Json)}
    (distinct : Json.distinctMembers members = true) (key : Str) {value : Json}
    (known : value.distinctNames = true) :
    Json.distinctMembers (Dict.setEntries key value members) = true := by
  induction members with
  | nil => simp [Dict.setEntries, Json.distinctMembers, known]
  | cons member rest ih =>
      obtain ⟨name, first⟩ := member
      rw [Json.distinctMembers, Bool.and_eq_true] at distinct
      rw [Dict.setEntries]
      split
      · rw [Json.distinctMembers, known, distinct.2]
        rfl
      · rw [Json.distinctMembers, distinct.1, ih distinct.2]
        rfl

/-- The last of equal names counts, so no name is left twice. -/
theorem distinct_of_plainDict {members : List (Str × Json)}
    (distinct : Json.distinctMembers members = true) {value : Json}
    (made : plainDict members = .ok value) : value.distinctNames = true := by
  have updated : ∀ (pairs : List (Str × Json)) (dict : Dict Str Json),
      Json.distinctMembers dict.entries = true → Json.distinctMembers pairs = true →
        Json.distinctMembers (dict.update pairs).entries = true := by
    intro pairs
    induction pairs with
    | nil => exact fun _ entries _ => entries
    | cons pair rest ih =>
        obtain ⟨name, first⟩ := pair
        intro dict entries known
        rw [Json.distinctMembers, Bool.and_eq_true] at known
        exact ih (dict.set name first) (distinctMembers_set entries name known.1) known.2
  cases made
  rw [Json.distinctNames, Bool.and_eq_true, decide_eq_true_eq]
  exact ⟨(Dict.ofPairs members).distinct, updated members Dict.empty rfl distinct⟩

mutual

theorem rebuild_distinct : ∀ (raw : Json) {value : Json},
    rebuild plainDict raw = .ok value → value.distinctNames = true
  | .null, _, made | .bool _, _, made | .number _, _, made | .str _, _, made => by
      cases made
      rfl
  | .array items, _, made => by
      obtain ⟨values, rebuilt, shape⟩ := except_bind_ok made
      cases shape
      exact rebuildItems_distinct items rebuilt
  | .object members, _, made => by
      obtain ⟨values, rebuilt, shape⟩ := except_bind_ok made
      exact distinct_of_plainDict (rebuildMembers_distinct members rebuilt) shape

theorem rebuildItems_distinct : ∀ (items : List Json) {values : List Json},
    rebuildItems plainDict items = .ok values →
      Json.distinctItems values = true
  | [], _, made => by
      cases made
      rfl
  | item :: rest, _, made => by
      obtain ⟨value, first, made⟩ := except_bind_ok made
      obtain ⟨values, others, shape⟩ := except_bind_ok made
      cases shape
      rw [Json.distinctItems, rebuild_distinct item first, rebuildItems_distinct rest others]
      rfl

theorem rebuildMembers_distinct : ∀ (members : List (Str × Json)) {values : List (Str × Json)},
    rebuildMembers plainDict members = .ok values →
      Json.distinctMembers values = true
  | [], _, made => by
      cases made
      rfl
  | (name, item) :: rest, _, made => by
      obtain ⟨value, first, made⟩ := except_bind_ok made
      obtain ⟨values, others, shape⟩ := except_bind_ok made
      cases shape
      rw [Json.distinctMembers, rebuild_distinct item first, rebuildMembers_distinct rest others]
      rfl

end

/-! ## Exceptions -/

/-- Not a failure of the hook. -/
def Unhooked {α : Type} (scanned : Except (LoadsError PyException) α) : Prop :=
  ∀ raised, scanned = .error raised → raised = .decode

theorem Unhooked.decode {α : Type} : Unhooked (.error .decode : Except _ α) := by
  intro raised failed
  cases failed
  rfl

theorem Unhooked.ok {α : Type} (value : α) : Unhooked (.ok value) := by
  intro raised failed
  cases failed

theorem Unhooked.bind {α β : Type} {scanned : Except (LoadsError PyException) α}
    {continuation : α → Except (LoadsError PyException) β} (first : Unhooked scanned)
    (next : ∀ value, Unhooked (continuation value)) : Unhooked (scanned >>= continuation) := by
  intro raised failed
  rcases except_bind_error failed with head | ⟨value, _, later⟩
  · exact first raised head
  · exact next value raised later

theorem scanScalar_unhooked (text : Str) :
    Unhooked (scanScalar text : Except (LoadsError PyException) (Json × Str)) := by
  unfold scanScalar
  repeat' split
  all_goals first
    | exact .ok _
    | exact .decode

/-- A hook that accepts everything raises nothing. -/
theorem scan_unhooked (fuel : Nat) : ∀ text : Str,
    Unhooked (scanOnce plainDict fuel text) ∧
      Unhooked (scanItems plainDict fuel text) ∧
        Unhooked (scanMembers plainDict fuel text) := by
  have hooked : ∀ members, Unhooked (runHook plainDict members) :=
    fun members => .ok _
  induction fuel with
  | zero => exact fun text => ⟨.decode, .decode, .decode⟩
  | succ fuel ih =>
      refine fun text => ⟨?_, ?_, ?_⟩
      · cases text with
        | nil => exact .decode
        | cons code rest =>
            rw [scanOnce]
            split
            · split
              · exact .decode
              · exact .ok _
            · split
              · split
                · exact (hooked _).bind fun _ => .ok _
                · exact (ih _).2.2.bind fun _ => (hooked _).bind fun _ => .ok _
              · split
                · split
                  · exact .ok _
                  · exact (ih _).2.1.bind fun _ => .ok _
                · exact scanScalar_unhooked _
      · rw [scanItems]
        refine (ih _).1.bind fun _ => ?_
        dsimp only
        split
        · exact .ok _
        · split
          · exact .decode
          · exact (ih _).2.1.bind fun _ => .ok _
      · rw [scanMembers]
        split
        · exact .decode
        · split
          · exact .decode
          · split
            · exact .decode
            · refine (ih _).1.bind fun _ => ?_
              dsimp only
              split
              · exact .ok _
              · split
                · exact .decode
                · exact (ih _).2.2.bind fun _ => .ok _

theorem parse_only {text : Str} {raised : PyException}
    (failed : parse text = .error raised) :
    ∃ message, raised = .valueError message := by
  have plain : Unhooked (loads plainDict text) := by
    unfold loads
    refine (scan_unhooked _ _).1.bind fun _ => ?_
    dsimp only
    split
    · exact .ok _
    · exact .decode
  unfold parse at failed
  split at failed
  · cases failed
  · cases failed
    exact ⟨_, rfl⟩
  · rename_i refused
    cases plain _ refused

theorem parse_distinct {text : Str} {value : Json}
    (parsed : parse text = .ok value) : value.distinctNames = true := by
  unfold parse at parsed
  split at parsed
  · rename_i loaded
    cases parsed
    obtain ⟨raw, _, rebuilt⟩ := loads_ok_iff.mp loaded
    exact rebuild_distinct raw rebuilt
  all_goals cases parsed

/-! ## What was written is read back -/

mutual

theorem rebuild_plainDict : ∀ value : Json, value.distinctNames = true →
    rebuild plainDict value = .ok value
  | .null, _ | .bool _, _ | .number _, _ | .str _, _ => by rw [rebuild]
  | .array items, distinct => by
      rw [Json.distinctNames] at distinct
      rw [rebuild, rebuildItems_plainDict items distinct]
      rfl
  | .object members, distinct => by
      rw [Json.distinctNames, Bool.and_eq_true, decide_eq_true_eq] at distinct
      rw [rebuild, rebuildMembers_plainDict members distinct.2]
      change plainDict members = _
      rw [plainDict, Dict.entries_ofPairs distinct.1]

theorem rebuildItems_plainDict : ∀ items : List Json, Json.distinctItems items = true →
    rebuildItems plainDict items = .ok items
  | [], _ => by rw [rebuildItems]
  | item :: rest, distinct => by
      rw [Json.distinctItems, Bool.and_eq_true] at distinct
      rw [rebuildItems, rebuild_plainDict item distinct.1, rebuildItems_plainDict rest distinct.2]
      rfl

theorem rebuildMembers_plainDict : ∀ members : List (Str × Json),
    Json.distinctMembers members = true → rebuildMembers plainDict members = .ok members
  | [], _ => by rw [rebuildMembers]
  | (name, value) :: rest, distinct => by
      rw [Json.distinctMembers, Bool.and_eq_true] at distinct
      rw [rebuildMembers, rebuild_plainDict value distinct.1,
        rebuildMembers_plainDict rest distinct.2]
      rfl

end

theorem parse_dumps {layout : Layout} (spaced : layout.Spaced) {value : Json} {text : Str}
    (written : dumps layout value = some text) (distinct : value.distinctNames = true) :
    parse text = .ok value := by
  rw [parse, loads_complete (dumps_document spaced written) (rebuild_plainDict value distinct)]

end VllmVerifier.Decision.Artifact

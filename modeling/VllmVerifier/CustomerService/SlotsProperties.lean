import VllmVerifier.CustomerService.QuantityProperties

/-!
What the values of an extraction are. Every value comes from one of the patterns
or word lists; each kind of value is then described on its own.
-/

set_option autoImplicit false

namespace VllmVerifier.CustomerService

open Python

variable {text : Str} {expected : Option Slot} {slot : Slot} {value : Str}

/-! ## Where a value comes from -/

theorem mem_grouped_iff {found : Option Regex.Found} {other : Slot} :
    (slot, value) ∈ grouped other found ↔
      slot = other ∧ found.bind Regex.Found.group = some value := by
  simp only [grouped, Option.mem_toList, Option.map_eq_some_iff, Prod.mk.injEq]
  constructor
  · intro given
    obtain ⟨_, found, rfl, rfl⟩ := given
    exact ⟨rfl, found⟩
  · intro given
    obtain ⟨rfl, found⟩ := given
    exact ⟨value, found, rfl, rfl⟩

theorem mem_whole_iff {found : Option Regex.Found} {other : Slot} :
    (slot, value) ∈ whole other found ↔
      slot = other ∧ ∃ candidate, found = some candidate ∧ candidate.text = value := by
  simp only [whole, Option.mem_toList, Option.map_eq_some_iff, Prod.mk.injEq]
  constructor
  · intro given
    obtain ⟨candidate, found, rfl, same⟩ := given
    exact ⟨rfl, candidate, found, same⟩
  · intro given
    obtain ⟨rfl, candidate, found, same⟩ := given
    exact ⟨candidate, found, rfl, same⟩

theorem mem_of_mem_firstNamed {names : List Str} {other : Slot}
    (member : (slot, value) ∈ firstNamed other names text) : slot = other ∧ value ∈ names := by
  simp only [firstNamed, Option.mem_toList, Option.map_eq_some_iff,
    Prod.mk.injEq] at member
  obtain ⟨_, found, rfl, rfl⟩ := member
  exact ⟨rfl, List.mem_of_find?_eq_some found⟩

variable [Unicode]

/-- The slots whose values are words of the text. -/
def namedSlots : List (Slot × List Str) :=
  (.event, events.map Event.name) :: (.region, regions) :: namedValues

/-- The ways in which a text assigns a value to a slot. -/
inductive Assigned (text : Str) (expected : Option Slot) : Slot → Str → Prop where
  | orderId {digits : Str} :
      (searchOr Pattern.orderId Pattern.bareOrderId .orderId expected text).bind
        Regex.Found.group = some digits → Assigned text expected .orderId (lit "ORD-" ++ digits)
  | product {value : Str} : (.product, value) ∈ productsIn text expected →
      Assigned text expected .product value
  | otherProduct {value : Str} : (.otherProduct, value) ∈ productsIn text expected →
      Assigned text expected .otherProduct value
  | named {slot : Slot} {names : List Str} {value : Str} : (slot, names) ∈ namedSlots →
      value ∈ names → Assigned text expected slot value
  | coupon {candidate : Regex.Found} : Regex.search Pattern.coupon text = some candidate →
      Assigned text expected .coupon (Unicode.upper candidate.text)
  | size {value : Str} : value ∈ [lit "S", lit "M", lit "L"] →
      Assigned text expected .option value
  | quantity {value : Str} :
      (searchOr Pattern.quantity Pattern.bareQuantity .quantity expected text).bind
        Regex.Found.group = some value → Assigned text expected .quantity value
  | date {candidate : Regex.Found} : Regex.search Pattern.date text = some candidate →
      (fromisoformat candidate.text).isSome = true → Assigned text expected .date candidate.text
  | email {candidate : Regex.Found} : Regex.search Pattern.email text = some candidate →
      Assigned text expected .email candidate.text
  | phone {candidate : Regex.Found} : Regex.search Pattern.phone text = some candidate →
      Assigned text expected .phone candidate.text
  | notification {value : Str} : value ∈ [lit "끄기", lit "켜기"] →
      Assigned text expected .notification value
  | prefixed {slot : Slot} {start value : Str} : (slot, start) ∈ prefixes →
      (Regex.search (Pattern.prefixed start) text).bind Regex.Found.group = some value →
      Assigned text expected slot ((Str.strip value).take 200)
  | query {group : Str} :
      (Regex.search Pattern.query text).bind Regex.Found.group = some group →
      Assigned text expected .query ((Str.strip (withoutFiller group)).take 100)
  | free {slot : Slot} : slot ∈ prefixes.map Prod.fst → 1 ≤ (Str.strip text).length →
      Assigned text expected slot (Str.strip text)

theorem slot_of_mem_productsIn (member : (slot, value) ∈ productsIn text expected) :
    slot = .product ∨ slot = .otherProduct := by
  unfold productsIn at member
  split at member
  · cases member
  · split at member
    · cases List.mem_singleton.mp member
      exact .inr rfl
    · cases List.mem_singleton.mp member
      exact .inl rfl
  · rcases List.mem_pair.mp member with same | same
    · cases same
      exact .inl rfl
    · cases same
      exact .inr rfl

theorem assigned_of_mem (member : (slot, value) ∈ assignments text expected) :
    Assigned text expected slot value := by
  simp only [assignments, List.mem_append, List.mem_flatMap] at member
  rcases member with ((((((((((((ordered | products) | event) | coupon) | region) | named) |
    size) | quantity) | dated) | email) | phone) | notification) | prefixed) | query
  · obtain ⟨⟨other, digits⟩, found, same⟩ := List.mem_map.mp ordered
    obtain ⟨rfl, read⟩ := mem_grouped_iff.mp found
    cases same
    exact .orderId read
  · rcases slot_of_mem_productsIn products with rfl | rfl
    · exact .product products
    · exact .otherProduct products
  · obtain ⟨rfl, member⟩ := mem_of_mem_firstNamed event
    exact .named List.mem_cons_self member
  · obtain ⟨⟨other, found⟩, matched, same⟩ := List.mem_map.mp coupon
    obtain ⟨rfl, candidate, chosen, rfl⟩ := mem_whole_iff.mp matched
    cases same
    exact .coupon chosen
  · obtain ⟨rfl, member⟩ := mem_of_mem_firstNamed region
    exact .named (List.mem_cons_of_mem _ List.mem_cons_self) member
  · obtain ⟨⟨other, names⟩, listed, found⟩ := named
    obtain ⟨rfl, member⟩ := mem_of_mem_firstNamed found
    exact .named (List.mem_cons_of_mem _ (List.mem_cons_of_mem _ listed)) member
  · unfold sizeIn at size
    dsimp only at size
    split at size
    · rename_i accepted
      cases List.mem_singleton.mp size
      exact .size accepted.2
    · cases size
  · obtain ⟨rfl, found⟩ := mem_grouped_iff.mp quantity
    exact .quantity found
  · obtain ⟨matched, accepted⟩ := List.mem_filter.mp dated
    obtain ⟨rfl, candidate, chosen, rfl⟩ := mem_whole_iff.mp matched
    exact .date chosen accepted
  · obtain ⟨rfl, candidate, chosen, rfl⟩ := mem_whole_iff.mp email
    exact .email chosen
  · obtain ⟨rfl, candidate, chosen, rfl⟩ := mem_whole_iff.mp phone
    exact .phone chosen
  · unfold notificationIn at notification
    split at notification
    · cases List.mem_singleton.mp notification
      exact .notification List.mem_cons_self
    · split at notification
      · cases List.mem_singleton.mp notification
        exact .notification (List.mem_cons_of_mem _ List.mem_cons_self)
      · cases notification
  · obtain ⟨⟨other, start⟩, listed, found⟩ := prefixed
    obtain ⟨⟨_, group⟩, matched, same⟩ := List.mem_map.mp found
    obtain ⟨rfl, matched⟩ := mem_grouped_iff.mp matched
    cases same
    exact .prefixed listed matched
  · obtain ⟨⟨other, stripped⟩, found, same⟩ := List.mem_filterMap.mp query
    obtain ⟨⟨_, group⟩, matched, shape⟩ := List.mem_map.mp found
    obtain ⟨rfl, read⟩ := mem_grouped_iff.mp matched
    cases shape
    split at same
    · cases same
    · cases same
      exact .query read

theorem extract_assigned (found : (extract text expected).get? slot = some value) :
    Assigned text expected slot value := by
  rcases Dict.get?_update found with early | late
  · rw [Dict.ofPairs_eq_update] at early
    rcases Dict.get?_update early with absent | member
    · cases absent
    · exact assigned_of_mem member
  · unfold freeText at late
    split at late
    · cases late
    · split at late
      · rename_i accepted
        cases List.mem_singleton.mp late
        exact .free accepted.1 accepted.2.2.2.1
      · cases late

/-! ## Quantities -/

/-- The quantity of a text is its first count, or the whole text. -/
theorem quantity_of_searchOr
    (found : (searchOr Pattern.quantity Pattern.bareQuantity .quantity expected text).bind
      Regex.Found.group = some value) :
    (∃ before after, FirstCount text before value after) ∨
      IsCount value ∧ ∃ before after, Str.Spaces before ∧ Str.Spaces after ∧
        text = before ++ (value ++ after) := by
  unfold searchOr at found
  cases searched : Regex.search Pattern.quantity text with
  | some candidate =>
      rw [searched] at found
      exact .inl (search_quantity_iff.mp (searched ▸ found))
  | none =>
      rw [searched] at found
      dsimp only at found
      split at found
      · obtain ⟨candidate, full, grouped⟩ := Option.bind_eq_some_iff.mp found
        obtain ⟨_, matched⟩ := Regex.fullmatch_some full
        obtain ⟨before, after, spaces, count, later, rfl⟩ :=
          matches_bareQuantity_iff.mp (grouped ▸ matched)
        exact .inr ⟨count, before, after, spaces, later, rfl⟩
      · cases found

theorem searchOr_of_extract (found : (extract text expected).get? .quantity = some value) :
    (searchOr Pattern.quantity Pattern.bareQuantity .quantity expected text).bind
      Regex.Found.group = some value := by
  cases extract_assigned found with
  | quantity read => exact read
  | named listed _ =>
      have absent : Slot.quantity ∉ namedSlots.map Prod.fst := by decide
      exact absurd (List.mem_map_of_mem listed) absent
  | prefixed listed _ =>
      have absent : Slot.quantity ∉ prefixes.map Prod.fst := by decide
      exact absurd (List.mem_map_of_mem listed) absent
  | free listed _ => exact absurd listed (by decide)

theorem isCount_of_searchOr
    (found : (searchOr Pattern.quantity Pattern.bareQuantity .quantity expected text).bind
      Regex.Found.group = some value) : IsCount value := by
  rcases quantity_of_searchOr found with ⟨_, _, first⟩ | ⟨count, _⟩
  · exact first.count
  · exact count

theorem isCount_of_extract (found : (extract text expected).get? .quantity = some value) :
    IsCount value := isCount_of_searchOr (searchOr_of_extract found)

end VllmVerifier.CustomerService

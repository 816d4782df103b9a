import Mathlib.Data.List.Basic
import Mathlib.Data.List.TakeWhile

/-!
Python strings as lists of code points. Every natural number is allowed as a
code point, so lone surrogates, which `str` can hold, are included.
-/

set_option autoImplicit false

namespace VllmVerifier.Python

abbrev Str := List Nat

def ord (character : Char) : Nat := character.toNat

/-- The string a Lean literal denotes. -/
def lit (literal : String) : Str := literal.toList.map ord

namespace Str

instance instLawfulBEq : LawfulBEq Str := inferInstance

/-- `str.isspace` on one code point. -/
def isspace (code : Nat) : Bool :=
  (0x09 ≤ code && code ≤ 0x0D) || (0x1C ≤ code && code ≤ 0x20) || code == 0x85 ||
    code == 0xA0 || code == 0x1680 || (0x2000 ≤ code && code ≤ 0x200A) ||
    code == 0x2028 || code == 0x2029 || code == 0x202F || code == 0x205F || code == 0x3000

def lstrip (text : Str) : Str := text.dropWhile isspace

def rstrip (text : Str) : Str := (lstrip text.reverse).reverse

/-- `text.strip()`. -/
def strip (text : Str) : Str := rstrip (lstrip text)

/-- `text.startswith(prefix)`. -/
def startswith (text start : Str) : Bool := start.isPrefixOf text

/-- `text.endswith(suffix)`. -/
def endswith (text finish : Str) : Bool := finish.isSuffixOf text

/-- `text[start:-stop]`. -/
def sliceBack (text : Str) (start stop : Nat) : Str := (text.take (text.length - stop)).drop start

/-- The text before and after the first occurrence of a separator. -/
def partition (separator : Str) : Str → Option (Str × Str)
  | [] => if separator = [] then some ([], []) else none
  | code :: rest =>
      if separator.isPrefixOf (code :: rest) then
        some ([], (code :: rest).drop separator.length)
      else (partition separator rest).map fun found => (code :: found.1, found.2)

/-- `part in text`. -/
def contains (part text : Str) : Bool := (partition part text).isSome

theorem partition_some {separator text before after : Str}
    (found : partition separator text = some (before, after)) :
    text = before ++ separator ++ after := by
  induction text generalizing before with
  | nil =>
      unfold partition at found
      split at found
      · cases found
        simp [*]
      · cases found
  | cons code rest ih =>
      unfold partition at found
      split at found
      · cases found
        rename_i start
        obtain ⟨tail, shape⟩ := List.isPrefixOf_iff_prefix.mp start
        simp [← shape]
      · obtain ⟨⟨head, tail⟩, inner, shape⟩ := Option.map_eq_some_iff.mp found
        cases shape
        simp [ih inner]

/-- A partition finds the first occurrence: none ends inside the text before it. -/
theorem partition_first {separator text before after : Str} (visible : separator ≠ [])
    (found : partition separator text = some (before, after)) :
    contains separator before = false := by
  induction text generalizing before with
  | nil => simp [partition, visible] at found
  | cons code rest ih =>
      unfold partition at found
      split at found
      · cases found
        simp [contains, partition, visible]
      · rename_i later
        obtain ⟨⟨head, tail⟩, inner, shape⟩ := Option.map_eq_some_iff.mp found
        cases shape
        have shorter : separator.isPrefixOf (code :: head) = false := by
          cases starts : separator.isPrefixOf (code :: head) with
          | false => rfl
          | true =>
              obtain ⟨remaining, same⟩ := List.isPrefixOf_iff_prefix.mp starts
              refine absurd (List.isPrefixOf_iff_prefix.mpr ?_) later
              exact ⟨remaining ++ separator ++ tail, by
                simpa [partition_some inner] using congrArg (· ++ (separator ++ tail)) same⟩
        have absent := ih inner
        simp only [contains, Option.isSome_eq_false_iff, Option.isNone_iff_eq_none] at absent ⊢
        simp [partition, shorter, absent]

/-- A separator whose first code point does not come back in it cannot straddle
its own first occurrence, so the text before that occurrence is recovered. -/
theorem partition_append {code : Nat} {tail before : Str} (fresh : code ∉ tail)
    (absent : contains (code :: tail) before = false) (after : Str) :
    partition (code :: tail) (before ++ (code :: tail) ++ after) = some (before, after) := by
  induction before with
  | nil => simp [partition]
  | cons first before ih =>
      unfold contains partition at absent
      split at absent
      · cases absent
      rename_i shorter
      have inner := ih (by simpa [contains] using absent)
      have later : (code :: tail).isPrefixOf
          (first :: before ++ (code :: tail) ++ after) = false := by
        refine Bool.eq_false_iff.mpr fun starts => ?_
        obtain ⟨remaining, shape⟩ := List.isPrefixOf_iff_prefix.mp starts
        rw [List.append_assoc] at shape
        rcases List.append_eq_append_iff.mp shape with ⟨gap, within, -⟩ | ⟨rest, across, straddled⟩
        · exact shorter (List.isPrefixOf_iff_prefix.mpr ⟨gap, within.symm⟩)
        · cases rest with
          | nil => exact shorter (List.isPrefixOf_iff_prefix.mpr ⟨[], by simpa using across⟩)
          | cons next rest =>
              have again : next = code := by
                simp only [List.cons_append, List.cons.injEq] at straddled
                exact straddled.1.symm
              simp only [List.cons_append, List.cons.injEq] at across
              exact fresh (by rw [across.2, again]; simp)
      simp only [List.cons_append] at later inner ⊢
      rw [partition, later]
      simpa using inner

theorem mem_of_contains {part text : Str} (contained : contains part text = true) {code : Nat}
    (member : code ∈ part) : code ∈ text := by
  obtain ⟨⟨before, after⟩, found⟩ := Option.isSome_iff_exists.mp contained
  rw [partition_some found]
  exact List.mem_append_left _ (List.mem_append_right _ member)

/-- Every code point is white space. -/
def Spaces (text : Str) : Prop := ∀ code ∈ text, isspace code = true

instance (text : Str) : Decidable (Spaces text) :=
  inferInstanceAs (Decidable (∀ code ∈ text, isspace code = true))

theorem not_spaces_of_mem {text : Str} {code : Nat} (member : code ∈ text)
    (visible : isspace code = false) : ¬ Spaces text := by
  intro spaces
  rw [spaces code member] at visible
  cases visible

theorem spaces_append {left right : Str} : Spaces (left ++ right) ↔ Spaces left ∧ Spaces right :=
  List.forall_mem_append

private theorem lstrip_shape (text : Str) :
    ∃ before, Spaces before ∧ text = before ++ lstrip text :=
  ⟨text.takeWhile isspace, fun _ member => List.mem_takeWhile_imp member,
    List.takeWhile_append_dropWhile.symm⟩

private theorem lstrip_eq (text : Str) : ∃ after, Spaces after ∧ lstrip text = strip text ++ after := by
  obtain ⟨after, spaces, right⟩ := lstrip_shape (lstrip text).reverse
  refine ⟨after.reverse, fun code member => spaces code (List.mem_reverse.mp member), ?_⟩
  rw [← List.reverse_reverse (lstrip text), right, List.reverse_append]
  simp [strip, rstrip, lstrip]

theorem strip_shape (text : Str) :
    ∃ before after, Spaces before ∧ Spaces after ∧ text = before ++ strip text ++ after := by
  obtain ⟨before, beforeSpaces, left⟩ := lstrip_shape text
  obtain ⟨after, afterSpaces, right⟩ := lstrip_eq text
  refine ⟨before, after, beforeSpaces, afterSpaces, ?_⟩
  rw [List.append_assoc, ← right]
  exact left

theorem strip_eq_nil_iff {text : Str} : strip text = [] ↔ Spaces text := by
  constructor
  · intro stripped
    obtain ⟨before, after, beforeSpaces, afterSpaces, shape⟩ := strip_shape text
    rw [shape, stripped, List.append_nil]
    exact spaces_append.mpr ⟨beforeSpaces, afterSpaces⟩
  · intro spaces
    have left : lstrip text = [] := List.dropWhile_eq_nil_iff.mpr spaces
    rw [strip, left]
    rfl

private theorem lstrip_head {text rest : Str} {code : Nat} (shape : lstrip text = code :: rest) :
    isspace code = false := by
  have first := List.head?_dropWhile_not isspace text
  rw [← lstrip, shape] at first
  exact first

theorem strip_head {text rest : Str} {code : Nat} (shape : strip text = code :: rest) :
    isspace code = false := by
  obtain ⟨after, _, stripped⟩ := lstrip_eq text
  rw [shape] at stripped
  exact lstrip_head stripped

theorem strip_last {text start : Str} {code : Nat} (shape : strip text = start ++ [code]) :
    isspace code = false := by
  have reversed := congrArg List.reverse shape
  rw [strip, rstrip, List.reverse_reverse, List.reverse_append] at reversed
  exact lstrip_head reversed

private theorem lstrip_of_visible {text : Str} (visible : ∀ code ∈ text, isspace code = false) :
    lstrip text = text := by
  cases text with
  | nil => rfl
  | cons code rest =>
      rw [lstrip, List.dropWhile_cons_of_neg (by simp [visible code List.mem_cons_self])]

theorem strip_of_visible {text : Str} (visible : ∀ code ∈ text, isspace code = false) :
    strip text = text := by
  have reversed : ∀ code ∈ text.reverse, isspace code = false :=
    fun code member => visible code (List.mem_reverse.mp member)
  rw [strip, lstrip_of_visible visible, rstrip, lstrip_of_visible reversed, List.reverse_reverse]

theorem sliceBack_append (start body finish : Str) :
    sliceBack (start ++ body ++ finish) start.length finish.length = body := by
  have kept : (start ++ body ++ finish).length - finish.length = (start ++ body).length := by
    simp only [List.length_append, Nat.add_sub_cancel]
  rw [sliceBack, kept, List.take_left, List.drop_left]

/-- A slice between a start and an end: they enclose it, or they overlap. -/
theorem sliceBack_shape {text start finish : Str} (starts : startswith text start = true)
    (ends : endswith text finish = true) :
    text = start ++ sliceBack text start.length finish.length ++ finish ∨
      sliceBack text start.length finish.length = [] := by
  obtain ⟨tail, tailShape⟩ := List.isPrefixOf_iff_prefix.mp starts
  obtain ⟨head, headShape⟩ := List.isSuffixOf_iff_suffix.mp ends
  have lengths := congrArg List.length headShape
  simp only [List.length_append] at lengths
  by_cases overlap : start.length ≤ head.length
  · left
    have kept : text.take (text.length - finish.length) = head := by
      rw [← headShape]
      simp
    have startKept : start <+: head := by
      rw [← tailShape] at headShape
      exact List.prefix_of_prefix_length_le ⟨tail, rfl⟩ ⟨finish, headShape⟩ overlap
    obtain ⟨middle, rfl⟩ := startKept
    rw [sliceBack, kept]
    simpa using headShape.symm
  · right
    simp only [sliceBack, List.drop_eq_nil_iff, List.length_take]
    omega

end Str

end VllmVerifier.Python

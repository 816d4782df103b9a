import Mathlib.Analysis.SpecialFunctions.Log.NegMulLog
import Mathlib.InformationTheory.KullbackLeibler.KLFun

/-!
The entropy of a finite distribution given as a list. It lies between zero and
the logarithm of the length, and both bounds are reached in one case only.
-/

set_option autoImplicit false

namespace VllmVerifier.Entropy

/-- Non-negative numbers that sum to one. -/
structure Mass (shares : List ℝ) : Prop where
  nonneg : ∀ share ∈ shares, 0 ≤ share
  total : shares.sum = 1

noncomputable def entropy (shares : List ℝ) : ℝ := (shares.map Real.negMulLog).sum

theorem entropy_perm {left right : List ℝ} (same : left.Perm right) :
    entropy left = entropy right :=
  (same.map Real.negMulLog).sum_eq

theorem sum_eq_zero_iff {values : List ℝ} (nonneg : ∀ value ∈ values, 0 ≤ value) :
    values.sum = 0 ↔ ∀ value ∈ values, value = 0 := by
  constructor
  · intro zero value member
    exact le_antisymm (zero ▸ List.single_le_sum nonneg value member) (nonneg value member)
  · exact List.sum_eq_zero

namespace Mass

variable {shares : List ℝ}

theorem le_one (mass : Mass shares) : ∀ share ∈ shares, share ≤ 1 :=
  fun share member => mass.total ▸ List.single_le_sum mass.nonneg share member

theorem entropy_nonneg (mass : Mass shares) : 0 ≤ entropy shares := by
  apply List.sum_nonneg
  intro term member
  obtain ⟨share, present, rfl⟩ := List.mem_map.mp member
  exact Real.negMulLog_nonneg (mass.nonneg share present) (mass.le_one share present)

theorem zero_or_one_iff (mass : Mass shares) :
    (∀ share ∈ shares, share = 0 ∨ share = 1) ↔
      (shares.filter fun share => decide (share ≠ 0)).length = 1 := by
  have kept : (shares.filter fun share => decide (share ≠ 0)).sum = 1 := by
    rw [← mass.total]
    clear mass
    induction shares with
    | nil => rfl
    | cons share rest ih => by_cases zero : share = 0 <;> simpa [zero] using ih
  constructor
  · intro extreme
    have ones : ∀ share ∈ shares.filter fun share => decide (share ≠ 0), share = 1 := by
      intro share member
      obtain ⟨present, nonzero⟩ := List.mem_filter.mp member
      exact (extreme share present).resolve_left (of_decide_eq_true nonzero)
    rw [List.eq_replicate_of_mem ones, List.sum_replicate] at kept
    exact_mod_cast (by simpa using kept)
  · intro single share member
    obtain ⟨only, shape⟩ := List.length_eq_one_iff.mp single
    by_cases zero : share = 0
    · exact .inl zero
    · have present : share ∈ shares.filter fun share => decide (share ≠ 0) :=
        List.mem_filter.mpr ⟨member, decide_eq_true zero⟩
      rw [shape] at present kept
      rw [List.mem_singleton.mp present]
      exact .inr (by simpa using kept)

theorem entropy_eq_zero_iff (mass : Mass shares) :
    entropy shares = 0 ↔ (shares.filter fun share => decide (share ≠ 0)).length = 1 := by
  rw [← mass.zero_or_one_iff, entropy, sum_eq_zero_iff]
  · constructor
    · intro zero share member
      have vanishes := zero _ (List.mem_map.mpr ⟨share, member, rfl⟩)
      rcases mul_eq_zero.mp vanishes with noShare | noLog
      · exact .inl (neg_eq_zero.mp noShare)
      · rcases Real.log_eq_zero.mp noLog with zero | one | minus
        · exact .inl zero
        · exact .inr one
        · have nonneg := mass.nonneg share member
          rw [minus] at nonneg
          norm_num at nonneg
    · intro extreme term member
      obtain ⟨share, present, rfl⟩ := List.mem_map.mp member
      rcases extreme share present with rfl | rfl
      · exact Real.negMulLog_zero
      · exact Real.negMulLog_one
  · intro term member
    obtain ⟨share, present, rfl⟩ := List.mem_map.mp member
    exact Real.negMulLog_nonneg (mass.nonneg share present) (mass.le_one share present)

/-- The gap to the largest entropy, as a sum of non-negative divergences. -/
theorem gap (nonneg : ∀ share ∈ shares, 0 ≤ share) {scale : ℝ} (positive : 0 < scale) :
    (shares.map fun share => InformationTheory.klFun (scale * share)).sum =
      scale * (Real.log scale * shares.sum - entropy shares) + shares.length -
        scale * shares.sum := by
  induction shares with
  | nil => simp [entropy]
  | cons share rest ih =>
      obtain ⟨headNonneg, restNonneg⟩ := List.forall_mem_cons.mp nonneg
      have split : scale * share * Real.log (scale * share) =
          scale * (Real.log scale * share - Real.negMulLog share) := by
        rcases headNonneg.eq_or_lt with rfl | above
        · simp
        · rw [Real.log_mul positive.ne' above.ne', Real.negMulLog]
          ring
      have tail := ih restNonneg
      simp only [entropy, List.map_cons, List.sum_cons, List.length_cons] at tail ⊢
      rw [tail, InformationTheory.klFun_apply, split]
      push_cast
      ring

theorem length_positive (mass : Mass shares) : (0 : ℝ) < shares.length := by
  cases shares with
  | nil => simpa using mass.total
  | cons => exact_mod_cast Nat.succ_pos _

/-- The gap of a distribution, scaled by its length. -/
theorem scaled_gap (mass : Mass shares) :
    (shares.map fun share => InformationTheory.klFun (shares.length * share)).sum =
      shares.length * (Real.log shares.length - entropy shares) := by
  rw [gap mass.nonneg mass.length_positive, mass.total]
  ring

private theorem divergence_nonneg (mass : Mass shares) :
    ∀ term ∈ shares.map fun share => InformationTheory.klFun (shares.length * share), 0 ≤ term := by
  intro term member
  obtain ⟨share, present, rfl⟩ := List.mem_map.mp member
  exact InformationTheory.klFun_nonneg
    (mul_nonneg mass.length_positive.le (mass.nonneg share present))

theorem entropy_le_log (mass : Mass shares) : entropy shares ≤ Real.log shares.length := by
  have spread := List.sum_nonneg mass.divergence_nonneg
  rw [mass.scaled_gap] at spread
  linarith [nonneg_of_mul_nonneg_right spread mass.length_positive]

theorem entropy_eq_log_iff (mass : Mass shares) :
    entropy shares = Real.log shares.length ↔
      ∀ left ∈ shares, ∀ right ∈ shares, left = right := by
  have positive := mass.length_positive
  have uniform : entropy shares = Real.log shares.length ↔
      ∀ share ∈ shares, shares.length * share = 1 := by
    have vanishing := sum_eq_zero_iff mass.divergence_nonneg
    rw [mass.scaled_gap, mul_eq_zero, or_iff_right positive.ne', sub_eq_zero] at vanishing
    rw [eq_comm, vanishing, List.forall_mem_map]
    refine forall₂_congr fun share member => ?_
    exact InformationTheory.klFun_eq_zero_iff (mul_nonneg positive.le (mass.nonneg share member))
  rw [uniform]
  constructor
  · intro each left leftMember right rightMember
    exact mul_left_cancel₀ positive.ne' ((each left leftMember).trans (each right rightMember).symm)
  · intro same share member
    have all : shares = List.replicate shares.length share :=
      List.eq_replicate_of_mem fun other present => same other present share member
    have total := mass.total
    rw [all, List.sum_replicate, nsmul_eq_mul] at total
    exact total

end Mass

end VllmVerifier.Entropy

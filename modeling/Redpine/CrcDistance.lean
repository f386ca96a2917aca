import Redpine.CrcDetection

/-! Up to five flips are seen in any frame of the maximum size. The polynomial of the CRC is the
square of `x + 1` times a factor of which the roots come in inverse pairs of order 32769. -/
namespace Redpine.Crc
open Machine Lfsr Wire

section Root
variable {K : Type*} [Field K] {β : K}

/-- The factor of degree 30. -/
def cofactor (β : K) : K :=
  1 + β ^ 2 + β ^ 3 + β ^ 5 + β ^ 9 + β ^ 10 + β ^ 11 + β ^ 12 + β ^ 13 + β ^ 14 + β ^ 15 +
    β ^ 16 + β ^ 17 + β ^ 18 + β ^ 19 + β ^ 20 + β ^ 21 + β ^ 25 + β ^ 27 + β ^ 28 + β ^ 30

lemma value_factor (β : K) : value β factor =
    1 + β ^ 3 + β ^ 4 + β ^ 7 + β ^ 9 + β ^ 10 + β ^ 22 + β ^ 23 + β ^ 25 + β ^ 28 + β ^ 29 := by
  simp [value, factor, Finset.sum_range_succ]
  ring

lemma root_ne_zero (h : cofactor β = 0) : β ≠ 0 := by
  rintro rfl
  simp [cofactor] at h

variable [CharP K 2]

lemma value_factor_of_root (h : cofactor β = 0) : value β factor = β ^ 32 := by
  have htwo : (2 : K) = 0 := CharTwo.two_eq_zero
  rw [value_factor]
  unfold cofactor at h
  linear_combination (-(β ^ 2 + 1)) * h + (1 + β ^ 2 + β ^ 3 + β ^ 4 + β ^ 5 + β ^ 7 + β ^ 9 +
    β ^ 10 + β ^ 11 + β ^ 12 + β ^ 13 + β ^ 14 + β ^ 15 + β ^ 16 + β ^ 17 + β ^ 18 + β ^ 19 +
    β ^ 20 + β ^ 21 + β ^ 22 + β ^ 23 + β ^ 25 + β ^ 27 + β ^ 28 + β ^ 29 + β ^ 30) * htwo

lemma root_ne_one (h : cofactor β = 0) : β ≠ 1 := by
  rintro rfl
  have htwo : (2 : K) = 0 := CharTwo.two_eq_zero
  unfold cofactor at h
  refine one_ne_zero (α := K) ?_
  linear_combination h - 10 * htwo

/-- The polynomial reads the same from both ends. -/
lemma value_inv_factor_of_root (h : cofactor β = 0) : value β⁻¹ factor = β⁻¹ ^ 32 := by
  have hβ := root_ne_zero h
  have hroot := value_factor_of_root h
  have hinv : β * β⁻¹ = 1 := mul_inv_cancel₀ hβ
  refine mul_left_cancel₀ (pow_ne_zero 32 hβ) ?_
  have hcancel : ∀ m n, m + n = 32 → β ^ 32 * β⁻¹ ^ m = β ^ n := by
    intro m n hmn
    rw [← hmn, pow_add, mul_right_comm, ← mul_pow, hinv, one_pow, one_mul]
  have hone : β ^ 32 * 1 = β ^ 32 := mul_one _
  rw [value_factor] at hroot ⊢
  simp only [mul_add, hone, hcancel 3 29 rfl, hcancel 4 28 rfl, hcancel 7 25 rfl, hcancel 9 23 rfl,
    hcancel 10 22 rfl, hcancel 22 10 rfl, hcancel 23 9 rfl, hcancel 25 7 rfl, hcancel 28 4 rfl,
    hcancel 29 3 rfl, hcancel 32 0 rfl, pow_zero]
  have htwo : (2 : K) = 0 := CharTwo.two_eq_zero
  linear_combination - hroot + (β ^ 3 + β ^ 4 + β ^ 7 + β ^ 9 + β ^ 10 + β ^ 22 + β ^ 23 + β ^ 25 +
    β ^ 28 + β ^ 29) * htwo

lemma value_power_root (h : cofactor β = 0) (digits : List Bool) :
    value β (power factor digits ^^^ monomial 0) =
      β ^ Nat.ofDigits 2 (digits.map Bool.toNat) + 1 := by
  rw [value_xor, value_power (by decide) (value_factor_of_root h), value_monomial (by decide),
    pow_zero]

lemma value_successor (β : K) : value β (monomial 1 ^^^ monomial 0 : U32) = β + 1 := by
  rw [value_xor, value_monomial (by decide), value_monomial (by decide), pow_one, pow_zero]

/-- A power of a root is not one if its successor divides the successor of the root. -/
lemma pow_ne_one_of_quotient (h : cofactor β = 0) (quotient : U32) (digits : List Bool)
    (hquotient : mul factor quotient (power factor digits ^^^ monomial 0) =
      monomial 1 ^^^ monomial 0) : β ^ Nat.ofDigits 2 (digits.map Bool.toNat) ≠ 1 := by
  intro hone
  have hvalue := congrArg (value β) hquotient
  rw [value_mul (value_factor_of_root h), value_power_root h, hone, CharTwo.add_self_eq_zero,
    mul_zero, value_successor] at hvalue
  exact root_ne_one h (CharTwo.add_eq_zero.mp hvalue.symm)

/-- The binary digits of 32769, from the lowest one up. -/
def orderDigits : List Bool := true :: List.replicate 14 false ++ [true]

lemma pow_order (h : cofactor β = 0) : β ^ 32769 = 1 := by
  have hproduct : mul factor (monomial 1 ^^^ monomial 0)
      (power factor orderDigits ^^^ monomial 0) = 0#32 := by
    decide +kernel
  have hdigits : Nat.ofDigits 2 (orderDigits.map Bool.toNat) = 32769 := by decide
  have hvalue := congrArg (value β) hproduct
  rw [value_mul (value_factor_of_root h), value_power_root h, value_successor, value_zero,
    hdigits] at hvalue
  rcases mul_eq_zero.mp hvalue with hroot | hpow
  · exact absurd (CharTwo.add_eq_zero.mp hroot) (root_ne_one h)
  · exact CharTwo.add_eq_zero.mp hpow

lemma pow_third_ne_one (h : cofactor β = 0) : β ^ 10923 ≠ 1 := by
  have hne := pow_ne_one_of_quotient h 0x45350e38 [true, true, false, true, false, true, false,
    true, false, true, false, true, false, true] (by decide +kernel)
  simpa [Nat.ofDigits] using hne

lemma pow_eleventh_ne_one (h : cofactor β = 0) : β ^ 2979 ≠ 1 := by
  have hne := pow_ne_one_of_quotient h 0x78f066e0 [true, true, false, false, false, true, false,
    true, true, true, false, true] (by decide +kernel)
  simpa [Nat.ofDigits] using hne

lemma pow_ninety_nine_ne_one (h : cofactor β = 0) : β ^ 99 ≠ 1 := by
  have hne := pow_ne_one_of_quotient h 0xa7ea9484 [true, true, false, false, false, true, true]
    (by decide +kernel)
  simpa [Nat.ofDigits] using hne

lemma orderOf_root (h : cofactor β = 0) : orderOf β = 32769 := by
  refine orderOf_eq_of_pow_and_pow_div_prime (by decide) (pow_order h) fun q hq hdvd => ?_
  have hfactors : (32769 : ℕ) = 3 * (3 * (11 * 331)) := by norm_num
  have hprime : ∀ r, r.Prime → q ∣ r → q = r :=
    fun r hr hqr => (Nat.prime_dvd_prime_iff_eq hq hr).mp hqr
  rw [hfactors, hq.dvd_mul, hq.dvd_mul, hq.dvd_mul] at hdvd
  rcases hdvd with hdvd | hdvd | hdvd | hdvd
  · rw [hprime 3 (by norm_num) hdvd]
    exact pow_third_ne_one h
  · rw [hprime 3 (by norm_num) hdvd]
    exact pow_third_ne_one h
  · rw [hprime 11 (by norm_num) hdvd]
    exact pow_eleventh_ne_one h
  · rw [hprime 331 (by norm_num) hdvd]
    exact pow_ninety_nine_ne_one h

end Root

lemma exists_root : ∃ β : AlgebraicClosure (ZMod 2), cofactor β = 0 := by
  let h : Polynomial (AlgebraicClosure (ZMod 2)) :=
    1 + .X ^ 2 + .X ^ 3 + .X ^ 5 + .X ^ 9 + .X ^ 10 + .X ^ 11 + .X ^ 12 + .X ^ 13 + .X ^ 14 +
      .X ^ 15 + .X ^ 16 + .X ^ 17 + .X ^ 18 + .X ^ 19 + .X ^ 20 + .X ^ 21 + .X ^ 25 + .X ^ 27 +
      .X ^ 28 + .X ^ 30
  have hdegree : h.natDegree = 30 := by
    unfold h
    compute_degree!
  obtain ⟨β, hβ⟩ := IsAlgClosed.exists_root h (fun hzero => by
    rw [Polynomial.degree_eq_natDegree (fun hnull => by simp [hnull] at hdegree), hdegree] at hzero
    cases hzero)
  refine ⟨β, ?_⟩
  simpa [h, cofactor, Polynomial.IsRoot.def] using hβ

/-- Any one to five flips of a frame of the maximum size are seen. -/
theorem detects_five_flips (bd : Build) (frame error : Bytes) (hsize : frame.length ≤ 1472)
    (haccepted : verifyCrc bd frame = .ok true) (hlen : error.length = frame.length)
    (hpos : 1 ≤ weight error) (hfive : weight error ≤ 5) :
    verifyCrc bd (xorBytes frame error) = .ok false := by
  refine rejected_of_feed haccepted hlen ?_
  rcases Nat.even_or_odd (weight error) with heven | hodd
  · obtain ⟨β, hβ⟩ := exists_root
    have hfew : weight error = 2 ∨ weight error = 4 := by
      obtain ⟨k, hk⟩ := heven
      omega
    refine feed_few_ne_zero (by decide) (root_ne_zero hβ) (value_factor_of_root hβ)
      (value_inv_factor_of_root hβ) ?_ hfew
    rw [orderOf_root hβ, bits_length]
    omega
  · exact feed_odd_ne_zero (by decide) factor_odd hodd

/-- Two flips in the first byte of a frame and two in the last one. -/
theorem detects_five_flips_four :
    verifyCrc .release ([1, 2, 3] ++ toLeBytes (compute [1, 2, 3])) = .ok true ∧
      weight [3, 0, 0, 0, 0, 0, 3] = 4 ∧
      verifyCrc .release (xorBytes ([1, 2, 3] ++ toLeBytes (compute [1, 2, 3]))
        [3, 0, 0, 0, 0, 0, 3]) = .ok false := by
  have haccepted := verifyCrc_append .release [1, 2, 3]
  have hweight : weight [3, 0, 0, 0, 0, 0, 3] = 4 := rfl
  exact ⟨haccepted, hweight,
    detects_five_flips .release _ _ (by decide) haccepted rfl (by omega) (by omega)⟩

end Redpine.Crc

import Mathlib

/-! A machine word that remembers which of the last positions are missing: its bit `i` is about the
position `i + 1` before the base. -/
namespace Redpine.Recent

variable {w : ℕ}

/-- The zeros of the word are the positions that are missing, none of which lies too far back. -/
structure Holds (x : BitVec w) (base : ℕ) (missing : Finset ℕ) : Prop where
  bit : ∀ i < w, x.getLsbD i = false ↔ i < base ∧ base - 1 - i ∈ missing
  recent : ∀ u ∈ missing, u < base ∧ base ≤ u + w

/-- The number of ones before the first zero. -/
def leadingOnes (x : BitVec w) : ℕ := (~~~x).clz.toNat

section LeadingOnes
variable {x : BitVec w}

lemma leadingOnes_allOnes : leadingOnes (BitVec.allOnes w) = w := by
  have hclz : (0#w).clz = BitVec.ofNat w w := BitVec.clz_eq_iff_eq_zero.mpr rfl
  unfold leadingOnes
  rw [BitVec.not_allOnes, hclz, BitVec.toNat_ofNat, Nat.mod_eq_of_lt Nat.lt_two_pow_self]

lemma leadingOnes_le_width (x : BitVec w) : leadingOnes x ≤ w := by
  have hle := BitVec.clz_le (x := ~~~x)
  rw [BitVec.le_def, BitVec.natCast_eq_ofNat, BitVec.toNat_ofNat,
    Nat.mod_eq_of_lt Nat.lt_two_pow_self] at hle
  exact hle

lemma not_ne_zero (h : x ≠ BitVec.allOnes w) : ~~~x ≠ 0#w := by
  intro hzero
  apply h
  rw [← BitVec.not_not (b := x), hzero, BitVec.not_zero]

lemma leadingOnes_lt (h : x ≠ BitVec.allOnes w) : leadingOnes x < w := by
  have hlt := BitVec.clz_lt_iff_ne_zero.mpr (not_ne_zero h)
  rw [BitVec.lt_def, BitVec.natCast_eq_ofNat, BitVec.toNat_ofNat,
    Nat.mod_eq_of_lt Nat.lt_two_pow_self] at hlt
  exact hlt

/-- The first zero. -/
lemma getLsbD_leadingOnes (h : x ≠ BitVec.allOnes w) :
    x.getLsbD (w - 1 - leadingOnes x) = false := by
  have hlt := leadingOnes_lt h
  have hbit := BitVec.getLsbD_true_clz_of_ne_zero (by omega) (not_ne_zero h)
  rw [BitVec.getLsbD_not, Bool.and_eq_true] at hbit
  exact Bool.not_eq_true' _ |>.mp hbit.2

/-- Everything before the first zero is one. -/
lemma getLsbD_of_leadingOnes {i : ℕ} (hi : i < w) (h : w ≤ i + leadingOnes x) :
    x.getLsbD i = true := by
  have hlt := BitVec.toNat_lt_two_pow_sub_clz (x := ~~~x)
  have hzero : (~~~x).getLsbD i = false := by
    refine Nat.testBit_lt_two_pow (hlt.trans_le (Nat.pow_le_pow_right Nat.two_pos ?_))
    unfold leadingOnes at h
    omega
  rw [BitVec.getLsbD_not] at hzero
  simpa [hi] using hzero

lemma cpop_eq_card : x.cpop.toNat = ((Finset.range w).filter fun i => x.getLsbD i = true).card := by
  have hrec : ∀ n, x.cpopNatRec n 0 =
      ((Finset.range n).filter fun i => x.getLsbD i = true).card := by
    intro n
    induction n with
    | zero => rfl
    | succ n ih =>
      rw [BitVec.cpopNatRec_succ, BitVec.cpopNatRec_add, ih, Finset.range_add_one,
        Finset.filter_insert]
      cases hbit : x.getLsbD n with
      | false => simp
      | true => simp [Nat.add_comm]
  rw [BitVec.toNat_cpop, hrec]

end LeadingOnes

section Holds
variable {x : BitVec w} {base : ℕ} {missing : Finset ℕ}

lemma Holds.allOnes (base : ℕ) : Holds (BitVec.allOnes w) base ∅ := by
  refine ⟨fun i hi => ?_, by simp⟩
  simp [hi]

/-- The bit of a position that is missing. -/
lemma Holds.getLsbD_of_mem (h : Holds x base missing) {u : ℕ} (hu : u ∈ missing) :
    x.getLsbD (base - 1 - u) = false := by
  obtain ⟨hlt, hle⟩ := h.recent u hu
  refine (h.bit _ (by omega)).mpr ⟨by omega, ?_⟩
  rwa [show base - 1 - (base - 1 - u) = u by omega]

lemma Holds.eq_allOnes_iff (h : Holds x base missing) :
    x = BitVec.allOnes w ↔ missing = ∅ := by
  constructor
  · rintro rfl
    refine Finset.eq_empty_of_forall_notMem fun u hu => ?_
    obtain ⟨hlt, hle⟩ := h.recent u hu
    have hbit := h.getLsbD_of_mem hu
    rw [BitVec.getLsbD_allOnes, decide_eq_false_iff_not] at hbit
    omega
  · rintro rfl
    refine BitVec.eq_of_getLsbD_eq fun i hi => ?_
    have hbit := (h.bit i hi).not.mpr (by simp)
    rw [BitVec.getLsbD_allOnes, decide_eq_true hi]
    simpa using hbit

/-- The missing positions lie behind the leading ones. -/
lemma Holds.leadingOnes_le (h : Holds x base missing) {u : ℕ} (hu : u ∈ missing) :
    base + leadingOnes x ≤ u + w := by
  obtain ⟨hlt, hle⟩ := h.recent u hu
  have hbit := h.getLsbD_of_mem hu
  by_contra hgt
  rw [getLsbD_of_leadingOnes (by omega) (by omega)] at hbit
  cases hbit

/-- The oldest position that is missing is the one of the first zero. -/
lemma Holds.oldest (h : Holds x base missing) (hne : missing ≠ ∅) :
    base + leadingOnes x - w ∈ missing ∧ w < base + leadingOnes x + 1 ∧
      ∀ v ∈ missing, base + leadingOnes x - w ≤ v := by
  have hones : x ≠ BitVec.allOnes w := fun hx => hne (h.eq_allOnes_iff.mp hx)
  have hlt := leadingOnes_lt hones
  obtain ⟨hbase, hmem⟩ := (h.bit _ (by omega)).mp (getLsbD_leadingOnes hones)
  rw [show base - 1 - (w - 1 - leadingOnes x) = base + leadingOnes x - w by omega] at hmem
  refine ⟨hmem, by omega, fun v hv => ?_⟩
  have := h.leadingOnes_le hv
  omega

/-- New positions are missing at first. -/
lemma Holds.shift (h : Holds x base missing) {d : ℕ} (hd : d ≤ leadingOnes x) :
    Holds (x <<< d) (base + d) (missing ∪ Finset.Ico base (base + d)) := by
  have hw := leadingOnes_le_width x
  constructor
  · intro i hi
    rw [BitVec.getLsbD_shiftLeft, Finset.mem_union, Finset.mem_Ico]
    by_cases hnew : i < d
    · simp only [hi, hnew, decide_true, Bool.not_true, Bool.and_false, Bool.false_and, true_iff]
      omega
    · have hbit := h.bit (i - d) (by omega)
      rw [show base - 1 - (i - d) = base + d - 1 - i by omega] at hbit
      simp only [hi, hnew, decide_true, decide_false, Bool.not_false, Bool.and_true,
        Bool.true_and, hbit]
      constructor
      · rintro ⟨hlt, hmem⟩
        exact ⟨by omega, .inl hmem⟩
      · rintro ⟨hlt, hmem | hmem⟩
        · exact ⟨by have := (h.recent _ hmem).1; omega, hmem⟩
        · omega
  · intro u hu
    rcases Finset.mem_union.mp hu with hu | hu
    · have := h.recent u hu
      have := h.leadingOnes_le hu
      omega
    · rw [Finset.mem_Ico] at hu
      omega

/-- Positions that a mask selects are no longer missing. -/
lemma Holds.or (h : Holds x base missing) (mask : BitVec w) :
    Holds (x ||| mask) base (missing.filter fun u => mask.getLsbD (base - 1 - u) = false) := by
  constructor
  · intro i hi
    rw [BitVec.getLsbD_or, Bool.or_eq_false_iff, h.bit i hi, Finset.mem_filter, and_assoc]
    refine and_congr_right fun hlt => and_congr_right fun _ => ?_
    rw [show base - 1 - (base - 1 - i) = i by omega]
  · exact fun u hu => h.recent u (Finset.mem_filter.mp hu).1

/-- The ones after the first zero are the positions after the oldest one that are not missing. -/
lemma Holds.count (h : Holds x base missing) (hne : missing ≠ ∅) :
    ((x <<< leadingOnes x) >>> leadingOnes x).cpop.toNat =
      (Finset.Ioo (base + leadingOnes x - w) base \ missing).card := by
  obtain ⟨hmem, hle, -⟩ := h.oldest hne
  have hones : x ≠ BitVec.allOnes w := fun hx => hne (h.eq_allOnes_iff.mp hx)
  have hlt := leadingOnes_lt hones
  have hfirst := getLsbD_leadingOnes hones
  have hlow : ∀ i < w, ((x <<< leadingOnes x) >>> leadingOnes x).getLsbD i = true ↔
      leadingOnes x + i < w ∧ x.getLsbD i = true := by
    intro i hi
    rw [BitVec.getLsbD_ushiftRight, BitVec.getLsbD_shiftLeft]
    simp [Nat.not_lt.mpr (Nat.le_add_right _ i)]
  rw [cpop_eq_card]
  refine Finset.card_bij (fun i _ => base - 1 - i) ?_ ?_ ?_
  · intro i hi
    obtain ⟨hi, hbit⟩ := Finset.mem_filter.mp hi
    rw [Finset.mem_range] at hi
    rw [hlow i hi] at hbit
    have hne' : i ≠ w - 1 - leadingOnes x := by
      rintro rfl
      rw [hfirst] at hbit
      simp at hbit
    have hpresent := (h.bit i hi).not.mp (by simp [hbit.2])
    rw [Finset.mem_sdiff, Finset.mem_Ioo]
    refine ⟨by omega, fun hmem' => hpresent ⟨by omega, hmem'⟩⟩
  · intro i hi j hj he
    rw [Finset.mem_filter, Finset.mem_range] at hi hj
    rw [hlow i hi.1] at hi
    rw [hlow j hj.1] at hj
    omega
  · intro v hv
    rw [Finset.mem_sdiff, Finset.mem_Ioo] at hv
    have hi : base - 1 - v < w := by omega
    have hpresent : x.getLsbD (base - 1 - v) = true := by
      rw [← Bool.not_eq_false, h.bit _ hi, show base - 1 - (base - 1 - v) = v by omega]
      exact fun hboth => hv.2 hboth.2
    refine ⟨base - 1 - v, ?_, by omega⟩
    rw [Finset.mem_filter, Finset.mem_range, hlow _ hi]
    exact ⟨hi, by omega, hpresent⟩

end Holds

end Redpine.Recent

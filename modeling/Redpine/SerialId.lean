import Mathlib

/-! Identifiers that count modulo `2 ^ w`. The `n`-th identifier after a base is
`idAt base n`; differences of two identifiers recover the distance of their
positions as long as that distance is smaller than the identifier space. -/
namespace Redpine.SerialId

variable {w : ℕ}

def idAt (base : BitVec w) (n : ℕ) : BitVec w := base + BitVec.ofNat w n

@[simp] theorem idAt_zero (base : BitVec w) : idAt base 0 = base := by
  simp [idAt]

theorem idAt_add (base : BitVec w) (m n : ℕ) :
    idAt base (m + n) = idAt base m + BitVec.ofNat w n := by
  simp [idAt, BitVec.ofNat_add, BitVec.add_assoc]

theorem idAt_succ (base : BitVec w) (n : ℕ) : idAt base (n + 1) = idAt base n + 1#w :=
  idAt_add base n 1

theorem idAt_idAt (base : BitVec w) (m n : ℕ) : idAt (idAt base m) n = idAt base (m + n) :=
  (idAt_add base m n).symm

theorem idAt_sub_idAt (base : BitVec w) {m n : ℕ} (h : m ≤ n) :
    idAt base n - idAt base m = BitVec.ofNat w (n - m) := by
  obtain ⟨k, rfl⟩ := Nat.exists_eq_add_of_le h
  rw [idAt_add, Nat.add_sub_cancel_left, BitVec.add_comm, BitVec.add_sub_cancel]

theorem toNat_sub_of_le (base : BitVec w) {m n : ℕ} (h : m ≤ n) (hd : n - m < 2 ^ w) :
    (idAt base n - idAt base m).toNat = n - m := by
  rw [idAt_sub_idAt base h, BitVec.toNat_ofNat, Nat.mod_eq_of_lt hd]

/-- An identifier that lies behind another one is seen far ahead of it. -/
theorem toNat_sub_of_lt (base : BitVec w) {m n : ℕ} (h : n < m) (hd : m - n ≤ 2 ^ w) :
    (idAt base n - idAt base m).toNat = 2 ^ w - (m - n) := by
  have hneg : idAt base n - idAt base m = -BitVec.ofNat w (m - n) := by
    rw [← idAt_sub_idAt base h.le, neg_sub]
  rw [hneg, BitVec.toNat_neg, BitVec.toNat_ofNat]
  rcases Nat.lt_or_eq_of_le hd with hlt | heq
  · rw [Nat.mod_eq_of_lt hlt, Nat.mod_eq_of_lt (by omega)]
  · simp [heq]

theorem idAt_injOn (base : BitVec w) {m n : ℕ} (h : m < n + 2 ^ w) (h' : n < m + 2 ^ w)
    (he : idAt base m = idAt base n) : m = n := by
  rcases Nat.lt_trichotomy m n with hlt | heq | hgt
  · have := toNat_sub_of_le base hlt.le (by omega)
    rw [he, BitVec.sub_self] at this
    simp at this
    omega
  · exact heq
  · have := toNat_sub_of_le base hgt.le (by omega)
    rw [he, BitVec.sub_self] at this
    simp at this
    omega

theorem idAt_inj (base : BitVec w) {m n : ℕ} (h : m < n + 2 ^ w) (h' : n < m + 2 ^ w) :
    idAt base m = idAt base n ↔ m = n :=
  ⟨idAt_injOn base h h', fun he => he ▸ rfl⟩

/-- The identifier that comes some way before another one. -/
theorem eq_before_iff (base : BitVec w) (m n i : ℕ) :
    idAt base m = idAt base n - 1 - BitVec.ofNat w i ↔
      idAt base (m + 1 + i) = idAt base n := by
  rw [idAt_add, idAt_succ, eq_sub_iff_add_eq, eq_sub_iff_add_eq, add_right_comm]
  rfl

/-- Membership in a window of identifiers is membership of the positions, provided that
no position is so old that its identifier has come round again. -/
theorem sub_lt_iff (base : BitVec w) {m n size : ℕ} (hold : m ≤ n + (2 ^ w - size))
    (hnew : n < m + 2 ^ w) :
    (idAt base n - idAt base m).toNat < size ↔ m ≤ n ∧ n < m + size := by
  rcases Nat.lt_or_ge n m with hlt | hge
  · rw [toNat_sub_of_lt base hlt (by omega)]
    omega
  · rw [toNat_sub_of_le base hge (by omega)]
    omega

/-- Every identifier is `idAt` of its own distance from the base. -/
theorem idAt_toNat_sub (base x : BitVec w) : idAt base (x - base).toNat = x := by
  rw [idAt, BitVec.ofNat_toNat, BitVec.setWidth_eq, BitVec.add_comm, BitVec.sub_add_cancel]

/-- Every identifier names a position between two given ones, or lies beyond them. -/
lemma between_or_beyond (base x : BitVec w) {m n : ℕ} (h : m ≤ n) :
    (∃ j, m ≤ j ∧ j ≤ n ∧ x = idAt base j) ∨ n - m < (x - idAt base m).toNat := by
  rcases Nat.lt_or_ge (n - m) (x - idAt base m).toNat with hgt | hle
  · exact .inr hgt
  · left
    refine ⟨m + (x - idAt base m).toNat, by omega, by omega, ?_⟩
    rw [← idAt_idAt, idAt_toNat_sub]

section Ring
variable {k : ℕ}

/-! A ring of `2 ^ k` slots is addressed by the low bits of an identifier. -/

lemma toNat_and_mask {x mask : BitVec w} (h : mask.toNat = 2 ^ k - 1) :
    (x &&& mask).toNat = x.toNat % 2 ^ k := by
  rw [BitVec.toNat_and, h, Nat.and_two_pow_sub_one_eq_mod]

lemma idAt_toNat_mod (base : BitVec w) (n : ℕ) (hk : k ≤ w) :
    (idAt base n).toNat % 2 ^ k = (base.toNat + n) % 2 ^ k := by
  have hdvd : 2 ^ k ∣ 2 ^ w := Nat.pow_dvd_pow 2 hk
  unfold idAt
  rw [BitVec.toNat_add, BitVec.toNat_ofNat, Nat.mod_mod_of_dvd _ hdvd, Nat.add_mod,
    Nat.mod_mod_of_dvd _ hdvd, ← Nat.add_mod]

/-- Positions that are less than a lap apart use different slots. -/
lemma slot_injOn (base : BitVec w) (hk : k ≤ w) {m n : ℕ} (hm : m < n + 2 ^ k)
    (hn : n < m + 2 ^ k) (h : (idAt base m).toNat % 2 ^ k = (idAt base n).toNat % 2 ^ k) :
    m = n := by
  rw [idAt_toNat_mod base m hk, idAt_toNat_mod base n hk] at h
  have hmod : m ≡ n [MOD 2 ^ k] := Nat.ModEq.add_left_cancel' base.toNat h
  rcases Nat.le_total m n with hle | hle
  · have hdvd := (Nat.modEq_iff_dvd' hle).mp hmod
    have hzero := Nat.eq_zero_of_dvd_of_lt hdvd (by omega)
    omega
  · have hdvd := (Nat.modEq_iff_dvd' hle).mp hmod.symm
    have hzero := Nat.eq_zero_of_dvd_of_lt hdvd (by omega)
    omega

end Ring

end Redpine.SerialId

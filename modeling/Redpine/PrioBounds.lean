import Redpine.Prio
import Redpine.Transition

/-! The arithmetic of the channel counters stays within 32 bits: exactly which settings the
constructor accepts, and what any number of transmissions does to the counters. -/
namespace Redpine.Prio
open Machine Transition

lemma burstSizeMax_eq : burstSizeMax = 16711425 := rfl

/-- The product of all weights. -/
def totalProduct (weights : Channel → ℕ) : ℕ := weights 0 * weights 1 * weights 2 * weights 3

/-- The product of the weights of the other channels. -/
def transformed (weights : Channel → ℕ) : Channel → ℕ :=
  ![weights 1 * weights 2 * weights 3, weights 0 * weights 2 * weights 3,
    weights 0 * weights 1 * weights 3, weights 0 * weights 1 * weights 2]

/-- The settings that are accepted. -/
structure Admissible (weights : Channel → ℕ) (burstSize : ℕ) : Prop where
  weights_pos : ∀ i, 1 ≤ weights i
  weights_le : ∀ i, weights i ≤ weightMax
  product_le : totalProduct weights ≤ weightMax
  burst_pos : 1 ≤ burstSize
  burst_le : burstSize ≤ burstSizeMax

lemma admissible_iff {weights : Channel → ℕ} {burstSize : ℕ} :
    Admissible weights burstSize ↔ (∀ i, 1 ≤ weights i ∧ weights i ≤ weightMax) ∧
      totalProduct weights ≤ weightMax ∧ 1 ≤ burstSize ∧ burstSize ≤ burstSizeMax :=
  ⟨fun h => ⟨fun i => ⟨h.1 i, h.2 i⟩, h.3, h.4, h.5⟩,
    fun h => ⟨fun i => (h.1 i).1, fun i => (h.1 i).2, h.2.1, h.2.2.1, h.2.2.2⟩⟩

instance (weights : Channel → ℕ) (burstSize : ℕ) : Decidable (Admissible weights burstSize) :=
  decidable_of_iff' _ admissible_iff

section Settings
variable {weights : Channel → ℕ} {burstSize : ℕ}

lemma transformed_mul (weights : Channel → ℕ) (i : Channel) :
    transformed weights i * weights i = totalProduct weights := by
  unfold totalProduct
  fin_cases i
  · change weights 1 * weights 2 * weights 3 * weights 0 = _
    ring
  · change weights 0 * weights 2 * weights 3 * weights 1 = _
    ring
  · change weights 0 * weights 1 * weights 3 * weights 2 = _
    ring
  · rfl

lemma triple_lt {a b c : ℕ} (ha : a ≤ weightMax) (hb : b ≤ weightMax) (hc : c ≤ weightMax) :
    a * b * c < 2 ^ 32 := by
  have habc := Nat.mul_le_mul (Nat.mul_le_mul ha hb) hc
  simp only [weightMax] at habc
  omega

lemma mul3_of_le {bd : Build} {a b c : ℕ} (ha : a ≤ weightMax) (hb : b ≤ weightMax)
    (hc : c ≤ weightMax) : mul3 bd a b c = .ok (a * b * c) := by
  have hab := Nat.mul_le_mul ha hb
  simp only [weightMax] at hab
  unfold mul3
  rw [checkedMul_of_lt (by omega), ok_bind, checkedMul_of_lt (triple_lt ha hb hc)]

lemma transformed_lt (h : ∀ i, weights i ≤ weightMax) (i : Channel) :
    transformed weights i < 2 ^ 32 := by
  fin_cases i
  · exact triple_lt (h 1) (h 2) (h 3)
  · exact triple_lt (h 0) (h 2) (h 3)
  · exact triple_lt (h 0) (h 1) (h 3)
  · exact triple_lt (h 0) (h 1) (h 2)

namespace Admissible
variable (h : Admissible weights burstSize)
include h

lemma transformed_pos (i : Channel) : 0 < transformed weights i := by
  fin_cases i
  · exact Nat.mul_pos (Nat.mul_pos (h.weights_pos 1) (h.weights_pos 2)) (h.weights_pos 3)
  · exact Nat.mul_pos (Nat.mul_pos (h.weights_pos 0) (h.weights_pos 2)) (h.weights_pos 3)
  · exact Nat.mul_pos (Nat.mul_pos (h.weights_pos 0) (h.weights_pos 1)) (h.weights_pos 3)
  · exact Nat.mul_pos (Nat.mul_pos (h.weights_pos 0) (h.weights_pos 1)) (h.weights_pos 2)

lemma transformed_le (i : Channel) : transformed weights i ≤ weightMax := by
  refine le_trans ?_ h.product_le
  rw [← transformed_mul weights i]
  exact Nat.le_mul_of_pos_right _ (h.weights_pos i)

lemma totalProduct_lt : totalProduct weights < 2 ^ 32 := by
  have hle := h.product_le
  simp only [weightMax] at hle
  omega

lemma totalProduct_pos : 0 < totalProduct weights := by
  rw [← transformed_mul weights 0]
  exact Nat.mul_pos (h.transformed_pos 0) (h.weights_pos 0)

/-- The counters leave room for one datagram of the maximum size. -/
lemma counterMax_add_lt (i : Channel) :
    burstSize * totalProduct weights + dataSizeMax * transformed weights i < 2 ^ 32 := by
  have hmax := Nat.mul_le_mul h.burst_le h.product_le
  have hsize := Nat.mul_le_mul_left dataSizeMax (h.transformed_le i)
  refine lt_of_le_of_lt (Nat.add_le_add hmax hsize) ?_
  rw [burstSizeMax_eq, dataSizeMax, weightMax]
  norm_num

lemma counterMax_lt : burstSize * totalProduct weights < 2 ^ 32 :=
  lt_of_le_of_lt (Nat.le_add_right _ _) (h.counterMax_add_lt 0)

lemma burst_mod : burstSize % 2 ^ 32 = burstSize := by
  refine Nat.mod_eq_of_lt (lt_of_le_of_lt h.burst_le ?_)
  rw [burstSizeMax_eq]
  norm_num

end Admissible

/-- A failed assertion is one that admissible settings meet. -/
lemma rejected {p : Prop} [Decidable p] (hp : ¬ p) (hmeets : Admissible weights burstSize → p)
    (rest : Exec Config) (config : Config) :
    (do Machine.assert p; rest) =
      if Admissible weights burstSize then .ok config else .error .assertion := by
  rw [if_neg fun h => hp (hmeets h), Machine.assert, if_neg hp]
  rfl

/-- What the constructor does for any weights and any burst size. -/
lemma Config.new_eq (bd : Build) (weights : Channel → ℕ) (burstSize : ℕ) :
    Config.new bd weights burstSize =
      if Admissible weights burstSize then
        .ok ⟨transformed weights, burstSize * totalProduct weights⟩
      else .error .assertion := by
  unfold Config.new
  by_cases hweights : ∀ i, weights i ≠ 0 ∧ weights i ≤ weightMax
  swap
  · exact rejected hweights (fun h i =>
      ⟨Nat.one_le_iff_ne_zero.mp (h.weights_pos i), h.weights_le i⟩) _ _
  have hpos : ∀ i, 1 ≤ weights i := fun i => Nat.one_le_iff_ne_zero.mpr (hweights i).1
  have hle : ∀ i, weights i ≤ weightMax := fun i => (hweights i).2
  rw [assert_true hweights, ok_bind, mul3_of_le (hle 0) (hle 1) (hle 2), ok_bind]
  by_cases hproduct : weights 0 * weights 1 * weights 2 ≤ weightMax / weights 3
  swap
  · exact rejected hproduct (fun h => (Nat.le_div_iff_mul_le (hpos 3)).mpr h.product_le) _ _
  rw [assert_true hproduct, ok_bind]
  rw [Nat.le_div_iff_mul_le (hpos 3)] at hproduct
  by_cases hzero : burstSize ≠ 0
  swap
  · exact rejected hzero (fun h => Nat.one_le_iff_ne_zero.mp h.burst_pos) _ _
  rw [assert_true hzero, ok_bind]
  by_cases hburst : burstSize ≤ burstSizeMax
  swap
  · exact rejected hburst (fun h => h.burst_le) _ _
  have h : Admissible weights burstSize :=
    ⟨hpos, hle, hproduct, Nat.one_le_iff_ne_zero.mpr hzero, hburst⟩
  have htotal : weights 0 * weights 1 * weights 2 * weights 3 < 2 ^ 32 := h.totalProduct_lt
  have hmax : burstSize * (weights 0 * weights 1 * weights 2 * weights 3) < 2 ^ 32 :=
    h.counterMax_lt
  rw [assert_true hburst, ok_bind, mul3_of_le (hle 1) (hle 2) (hle 3), ok_bind,
    mul3_of_le (hle 0) (hle 2) (hle 3), ok_bind, mul3_of_le (hle 0) (hle 1) (hle 3), ok_bind,
    ok_bind, ok_bind, checkedMul_of_lt htotal, ok_bind, h.burst_mod, checkedMul_of_lt hmax, ok_bind,
    if_pos h]
  rfl

lemma Config.new_eq_ok {bd : Build} {config : Config} :
    Config.new bd weights burstSize = .ok config ↔
      Admissible weights burstSize ∧
        config = ⟨transformed weights, burstSize * totalProduct weights⟩ := by
  rw [Config.new_eq]
  by_cases h : Admissible weights burstSize
  · rw [if_pos h, Except.ok.injEq]
    exact ⟨fun heq => ⟨h, heq.symm⟩, fun heq => heq.2.symm⟩
  · rw [if_neg h]
    exact ⟨fun heq => (by cases heq), fun heq => absurd heq.1 h⟩

end Settings

/-- What holds of the counters at all times. -/
structure Inv (weights : Channel → ℕ) (burstSize : ℕ) (p : Prio) : Prop where
  admissible : Admissible weights burstSize
  weights_eq : p.weights = transformed weights
  counterMax_eq : p.counterMax = burstSize * totalProduct weights
  counters_le : ∀ i, p.counters i ≤ p.counterMax

namespace Inv
variable {weights : Channel → ℕ} {burstSize : ℕ} {p p' : Prio}

lemma new {bd : Build} {config : Config} (h : Config.new bd weights burstSize = .ok config) :
    Inv weights burstSize (Prio.new config) := by
  obtain ⟨hadmissible, rfl⟩ := Config.new_eq_ok.mp h
  exact ⟨hadmissible, rfl, rfl, fun i => Nat.zero_le _⟩

variable (h : Inv weights burstSize p)
include h

lemma counterMax_pos : 0 < p.counterMax := by
  rw [h.counterMax_eq]
  exact Nat.mul_pos h.admissible.burst_pos h.admissible.totalProduct_pos

lemma weighted_lt (i : Channel) {dataSize : ℕ} (hsize : dataSize ≤ dataSizeMax) :
    p.counters i + dataSize * p.weights i < 2 ^ 32 := by
  have hroom := h.admissible.counterMax_add_lt i
  have hcounter := h.counters_le i
  have hweighted := Nat.mul_le_mul_right (transformed weights i) hsize
  rw [h.counterMax_eq] at hcounter
  rw [h.weights_eq]
  omega

/-- The counters after a transmission. Nothing is taken back below the limit. -/
lemma markSent_eq (bd : Build) (i : Channel) {dataSize : ℕ} (hsize : dataSize ≤ dataSizeMax) :
    p.markSent bd i dataSize = .ok { p with
      counters := fun j =>
        Function.update p.counters i (p.counters i + dataSize * p.weights i) j -
          (p.counters i + dataSize * p.weights i - p.counterMax) } := by
  have hlt := h.weighted_lt i hsize
  have hmod : dataSize % 2 ^ 32 = dataSize := by
    refine Nat.mod_eq_of_lt ?_
    simp only [dataSizeMax] at hsize
    omega
  unfold markSent
  rw [debugAssert_true hsize, ok_bind, hmod, checkedMul_of_lt (by omega), ok_bind]
  dsimp only
  rw [Nat.mod_eq_of_lt hlt]
  by_cases hmax : p.counterMax < p.counters i + dataSize * p.weights i
  · rw [if_pos hmax]
    rfl
  · rw [if_neg hmax, Nat.sub_eq_zero_of_le (Nat.le_of_not_lt hmax)]
    rfl

lemma markSent {bd : Build} {i : Channel} {dataSize : ℕ} (hsize : dataSize ≤ dataSizeMax)
    (hsent : p.markSent bd i dataSize = .ok p') : Inv weights burstSize p' := by
  rw [h.markSent_eq bd i hsize] at hsent
  cases hsent
  refine ⟨h.admissible, h.weights_eq, h.counterMax_eq, fun j => ?_⟩
  have hcounter := h.counters_le j
  by_cases hj : j = i
  · rw [hj]
    simp only [Function.update_self]
    omega
  · simp only [Function.update_of_ne hj]
    omega

end Inv

/-- Any channel may be charged with any transmission that `mark_sent` admits. -/
def marking (bd : Build) (weights : Channel → ℕ) (burstSize : ℕ) : System Prio (Channel × ℕ) where
  init p := ∃ config, Config.new bd weights burstSize = .ok config ∧ p = Prio.new config
  step p sent p' := sent.2 ≤ dataSizeMax ∧ p.markSent bd sent.1 sent.2 = .ok p'

lemma inv_of_marking {bd : Build} {weights : Channel → ℕ} {burstSize : ℕ} {p : Prio}
    (hp : Reachable (marking bd weights burstSize) p) : Inv weights burstSize p := by
  induction hp using Reachable.induct with
  | init hinit =>
    obtain ⟨config, hnew, rfl⟩ := hinit
    exact Inv.new hnew
  | step hp hstep ih => exact ih.markSent hstep.1 hstep.2

/-- The settings that are accepted, with exact products, and the counters of every run. -/
theorem never_wraps (bd : Build) (weights : Channel → ℕ) (burstSize : ℕ) :
    (Config.new bd weights burstSize =
      if Admissible weights burstSize then
        .ok ⟨transformed weights, burstSize * totalProduct weights⟩
      else .error .assertion) ∧
    ((∀ i, weights i ≤ weightMax) → ∀ i, transformed weights i < 2 ^ 32) ∧
    (Admissible weights burstSize →
      totalProduct weights < 2 ^ 32 ∧ burstSize * totalProduct weights < 2 ^ 32) ∧
    ∀ p, Reachable (marking bd weights burstSize) p →
      (∀ i, p.counters i ≤ p.counterMax) ∧
        ∀ i dataSize, dataSize ≤ dataSizeMax →
          dataSize < 2 ^ 32 ∧ dataSize * p.weights i < 2 ^ 32 ∧
            p.counters i + dataSize * p.weights i < 2 ^ 32 ∧
            ∃ p', p.markSent bd i dataSize = .ok p' := by
  refine ⟨Config.new_eq bd weights burstSize, transformed_lt, 
    fun h => ⟨h.totalProduct_lt, h.counterMax_lt⟩, fun p hp => ?_⟩
  have h := inv_of_marking hp
  refine ⟨h.counters_le, fun i dataSize hsize => ?_⟩
  have hlt := h.weighted_lt i hsize
  refine ⟨?_, by omega, hlt, _, h.markSent_eq bd i hsize⟩
  simp only [dataSizeMax] at hsize
  omega

end Redpine.Prio

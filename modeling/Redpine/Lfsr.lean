import Mathlib

/-! Linear feedback shift registers. Bits leave a word at its low end, and a one that leaves is fed
back by the XOR with a constant word. -/
namespace Redpine.Lfsr

variable {w : ℕ}

def shift (p x : BitVec w) : BitVec w :=
  if x.getLsbD 0 then (x >>> 1) ^^^ p else x >>> 1

/-- A bit at the low end of a word. -/
def bit (b : Bool) : BitVec w := (BitVec.ofBool b).setWidth w

/-- The bits are taken in one after the other. -/
def feed (p x : BitVec w) (bits : List Bool) : BitVec w :=
  bits.foldl (fun x b => shift p (x ^^^ bit b)) x

/-- The word of some bits, the first one at the low end. -/
def word : List Bool → BitVec w
  | [] => 0#w
  | b :: bits => bit b ^^^ (word bits <<< 1)

section Shift
variable (p : BitVec w)

lemma shift_xor (x y : BitVec w) : shift p (x ^^^ y) = shift p x ^^^ shift p y := by
  unfold shift
  rw [BitVec.getLsbD_xor, BitVec.ushiftRight_xor_distrib]
  refine BitVec.eq_of_getLsbD_eq fun i hi => ?_
  cases x.getLsbD 0 <;> cases y.getLsbD 0 <;>
    simp only [Bool.xor_false, Bool.xor_true, Bool.not_false, Bool.not_true, Bool.false_eq_true,
      if_true, if_false, BitVec.getLsbD_xor] <;>
    cases (x >>> 1).getLsbD i <;> cases (y >>> 1).getLsbD i <;> cases p.getLsbD i <;> rfl

@[simp] lemma shift_zero : shift p 0#w = 0#w := by
  simp [shift]

lemma iterate_shift_xor (n : ℕ) (x y : BitVec w) :
    (shift p)^[n] (x ^^^ y) = (shift p)^[n] x ^^^ (shift p)^[n] y := by
  induction n generalizing x y with
  | zero => rfl
  | succ n ih => rw [Function.iterate_succ_apply, shift_xor, ih]; rfl

lemma iterate_shift_zero (n : ℕ) : (shift p)^[n] 0#w = 0#w :=
  Function.iterate_fixed (shift_zero p) n

/-- A word with a zero at its low end only moves down. -/
lemma shift_of_even {x : BitVec w} (h : x.getLsbD 0 = false) : shift p x = x >>> 1 := by
  rw [shift, h, if_neg Bool.false_ne_true]

/-- A word moves down until its first one leaves it. -/
lemma iterate_shift_of_low {x : BitVec w} {n : ℕ} (h : ∀ i < n, x.getLsbD i = false) :
    (shift p)^[n] x = x >>> n := by
  induction n with
  | zero => rfl
  | succ n ih =>
    have hlow : (x >>> n).getLsbD 0 = false := by
      rw [BitVec.getLsbD_ushiftRight, Nat.add_zero]
      exact h n (Nat.lt_succ_self n)
    rw [Function.iterate_succ_apply', ih fun i hi => h i (Nat.lt_succ_of_lt hi),
      shift_of_even p hlow, BitVec.shiftRight_add]

/-- Only the bits that leave the word are fed back. -/
lemma iterate_shift_split (n : ℕ) (x : BitVec w) :
    (shift p)^[n] x = (shift p)^[n] ((x.setWidth n).setWidth w) ^^^ (x >>> n) := by
  have hlow : ∀ i < n, (((x.setWidth n).setWidth w) ^^^ x).getLsbD i = false := by
    intro i hi
    rw [BitVec.getLsbD_xor, BitVec.getLsbD_setWidth, BitVec.getLsbD_setWidth]
    by_cases hw : i < w
    · simp [hi, hw]
    · simp [hi, hw, BitVec.getLsbD_of_ge x i (Nat.le_of_not_lt hw)]
  have hhigh : (((x.setWidth n).setWidth w) ^^^ x) >>> n = x >>> n := by
    refine BitVec.eq_of_getLsbD_eq fun i hi => ?_
    simp [BitVec.getLsbD_setWidth]
  have hrest := iterate_shift_of_low p hlow
  rw [iterate_shift_xor, hhigh] at hrest
  rw [← hrest, ← BitVec.xor_assoc, BitVec.xor_self, BitVec.zero_xor]

lemma shift_shiftLeft {x : BitVec w} (h : x.getLsbD (w - 1) = false) :
    shift p (x <<< 1) = x := by
  have hlow : (x <<< 1).getLsbD 0 = false := by simp
  rw [shift_of_even p hlow]
  refine BitVec.eq_of_getLsbD_eq fun i hi => ?_
  rw [BitVec.getLsbD_ushiftRight, BitVec.getLsbD_shiftLeft]
  by_cases hlast : i = w - 1
  · rw [hlast, h]
    simp [show ¬ 1 + (w - 1) < w by omega]
  · simp [show 1 + i < w by omega]

/-- Nothing is lost if the high end of the word is fed back. -/
lemma shift_injective (hp : p.getLsbD (w - 1) = true) : Function.Injective (shift p) := by
  have hzero : ∀ x, shift p x = 0#w → x = 0#w := by
    intro x hx
    unfold shift at hx
    cases hlow : x.getLsbD 0 with
    | true =>
      rw [hlow, if_pos rfl] at hx
      have hhigh := congrArg (fun y => BitVec.getLsbD y (w - 1)) hx
      have hout : x.getLsbD (1 + (w - 1)) = false := BitVec.getLsbD_of_ge _ _ (by omega)
      simp [hp, hout] at hhigh
    | false =>
      rw [hlow, if_neg Bool.false_ne_true] at hx
      refine BitVec.eq_of_getLsbD_eq fun i hi => ?_
      cases i with
      | zero => rw [hlow, BitVec.getLsbD_zero]
      | succ i =>
        have hi := congrArg (fun y => BitVec.getLsbD y i) hx
        rw [BitVec.getLsbD_ushiftRight, Nat.add_comm, BitVec.getLsbD_zero] at hi
        rw [hi, BitVec.getLsbD_zero]
  intro x y hxy
  have hxor : x ^^^ y = 0#w := by
    refine hzero _ ?_
    rw [shift_xor, hxy, BitVec.xor_self]
  exact BitVec.xor_eq_zero_iff.mp hxor

lemma iterate_shift_injective (hp : p.getLsbD (w - 1) = true) (n : ℕ) :
    Function.Injective (shift p)^[n] :=
  (shift_injective p hp).iterate n

end Shift

section Bits

@[simp] lemma bit_false : (bit false : BitVec w) = 0#w := by
  simp [bit]

lemma bit_getLsbD (b : Bool) (i : ℕ) :
    (bit b : BitVec w).getLsbD i = (decide (i < w) && (decide (i = 0) && b)) := by
  cases i with
  | zero => simp [bit]
  | succ i => simp [bit, BitVec.getLsbD_setWidth]

lemma bit_xor (a b : Bool) : (bit (xor a b) : BitVec w) = bit a ^^^ bit b := by
  refine BitVec.eq_of_getLsbD_eq fun i hi => ?_
  rw [BitVec.getLsbD_xor, bit_getLsbD, bit_getLsbD, bit_getLsbD]
  cases a <;> cases b <;> simp

lemma word_getLsbD (bits : List Bool) (i : ℕ) :
    (word bits : BitVec w).getLsbD i = (decide (i < w) && bits.getD i false) := by
  induction bits generalizing i with
  | nil => simp [word]
  | cons b bits ih =>
    rw [word, BitVec.getLsbD_xor, bit_getLsbD, BitVec.getLsbD_shiftLeft, ih]
    cases i with
    | zero => simp
    | succ i =>
      by_cases hi : i + 1 < w
      · simp [hi, Nat.lt_of_succ_lt hi]
      · simp [hi]

/-- A word is made of its own bits. -/
lemma word_of_getLsbD (x : BitVec w) {n : ℕ} (h : ∀ i, n ≤ i → x.getLsbD i = false) :
    word ((List.range n).map x.getLsbD) = x := by
  refine BitVec.eq_of_getLsbD_eq fun i hi => ?_
  rw [word_getLsbD]
  by_cases hn : i < n
  · simp [hi, hn]
  · rw [h i (Nat.le_of_not_lt hn)]
    simp [hn]

lemma word_ne_zero {bits : List Bool} (hlen : bits.length ≤ w) (h : true ∈ bits) :
    (word bits : BitVec w) ≠ 0#w := by
  intro hzero
  obtain ⟨i, hi, hbit⟩ := List.mem_iff_getElem.mp h
  have hword := word_getLsbD (w := w) bits i
  rw [hzero, BitVec.getLsbD_zero, List.getD_eq_getElem _ _ hi, hbit] at hword
  simp [Nat.lt_of_lt_of_le hi hlen] at hword

end Bits

section Feed
variable (p : BitVec w)

@[simp] lemma feed_nil (x : BitVec w) : feed p x [] = x := rfl

lemma feed_cons (x : BitVec w) (b : Bool) (bits : List Bool) :
    feed p x (b :: bits) = feed p (shift p (x ^^^ bit b)) bits := rfl

lemma feed_append (x : BitVec w) (as bs : List Bool) :
    feed p x (as ++ bs) = feed p (feed p x as) bs :=
  List.foldl_append

/-- Two streams are taken in side by side. -/
lemma feed_xor {as bs : List Bool} (h : as.length = bs.length) (x y : BitVec w) :
    feed p (x ^^^ y) (List.zipWith xor as bs) = feed p x as ^^^ feed p y bs := by
  induction as generalizing bs x y with
  | nil => rw [List.length_eq_zero_iff.mp h.symm]; rfl
  | cons a as ih =>
    cases bs with
    | nil => cases h
    | cons b bs =>
      rw [List.zipWith_cons_cons, feed_cons, feed_cons, feed_cons, ← ih (Nat.succ.inj h),
        ← shift_xor, bit_xor]
      congr 2
      ac_rfl

lemma feed_replicate_false (x : BitVec w) (n : ℕ) :
    feed p x (List.replicate n false) = (shift p)^[n] x := by
  induction n generalizing x with
  | zero => rfl
  | succ n ih =>
    rw [List.replicate_succ, feed_cons, ih, bit_false, BitVec.xor_zero, Function.iterate_succ_apply]

/-- Bits that fit in the word could be put in all at once. -/
lemma feed_eq_iterate {bits : List Bool} (h : bits.length ≤ w) (x : BitVec w) :
    feed p x bits = (shift p)^[bits.length] (x ^^^ word bits) := by
  induction bits generalizing x with
  | nil => simp [word]
  | cons b bits ih =>
    have hlen : bits.length < w := h
    have hlast : (word bits : BitVec w).getLsbD (w - 1) = false := by
      rw [word_getLsbD, List.getD_eq_default _ _ (by omega), Bool.and_false]
    have hback : shift p (word bits <<< 1) = word bits := shift_shiftLeft p hlast
    rw [feed_cons, ih hlen.le, List.length_cons, Function.iterate_succ_apply, word,
      ← BitVec.xor_assoc, shift_xor p (x ^^^ bit b), hback]

/-- A burst no longer than the word is never lost. -/
theorem feed_burst_ne_zero (hp : p.getLsbD (w - 1) = true) {burst : List Bool}
    (hlen : burst.length ≤ w) (htrue : true ∈ burst) (m n : ℕ) :
    feed p 0#w (List.replicate m false ++ burst ++ List.replicate n false) ≠ 0#w := by
  rw [feed_append, feed_append, feed_replicate_false p 0#w m, iterate_shift_zero,
    feed_eq_iterate p hlen, BitVec.zero_xor, feed_replicate_false, ← Function.iterate_add_apply]
  intro hzero
  rw [← iterate_shift_zero p (n + burst.length)] at hzero
  exact word_ne_zero hlen htrue (iterate_shift_injective p hp _ hzero)

end Feed

section Value
variable {R : Type*} [CommRing R] (β : R)

/-- A word as a polynomial in `β`, of which the low end is the leading coefficient. -/
def value (β : R) (x : BitVec w) : R :=
  ∑ i ∈ Finset.range w, if x.getLsbD i then β ^ (w - 1 - i) else 0

/-- The powers of `β` at the places of the ones, the last bit being at the first power. -/
def locators (β : R) (bits : List Bool) : R :=
  ∑ i ∈ Finset.range bits.length, if bits.getD i false then β ^ (bits.length - i) else 0

@[simp] lemma value_zero : value β (0#w) = 0 := by
  simp [value]

lemma value_xor [CharP R 2] (x y : BitVec w) : value β (x ^^^ y) = value β x + value β y := by
  unfold value
  rw [← Finset.sum_add_distrib]
  refine Finset.sum_congr rfl fun i hi => ?_
  rw [BitVec.getLsbD_xor]
  cases x.getLsbD i <;> cases y.getLsbD i <;> simp [CharTwo.add_self_eq_zero]

lemma value_bit (hw : 0 < w) (b : Bool) :
    value β (bit b : BitVec w) = if b then β ^ (w - 1) else 0 := by
  unfold value
  rw [Finset.sum_eq_single_of_mem 0 (Finset.mem_range.mpr hw)]
  · rw [bit_getLsbD]
    simp [hw]
  · intro i hi hne
    simp [bit_getLsbD, hne]

lemma mul_ite_pow (b : Bool) {m n : ℕ} (h : m + 1 = n) :
    β * (if b then β ^ m else 0) = if b then β ^ n else 0 := by
  rw [mul_ite, mul_zero, ← pow_succ', h]

/-- What leaves the word is the coefficient of the next power. -/
lemma value_shiftRight (x : BitVec w) :
    value β (x >>> 1) + (if x.getLsbD 0 then β ^ w else 0) = β * value β x := by
  unfold value
  cases w with
  | zero => simp
  | succ n =>
    rw [Finset.sum_range_succ, Finset.sum_range_succ', mul_add, Finset.mul_sum]
    have htop : (x >>> 1).getLsbD n = false := by
      rw [BitVec.getLsbD_ushiftRight, BitVec.getLsbD_of_ge _ _ (by omega)]
    rw [htop, if_neg Bool.false_ne_true, add_zero]
    congr 1
    · refine Finset.sum_congr rfl fun i hi => ?_
      have hlt : i < n := Finset.mem_range.mp hi
      rw [BitVec.getLsbD_ushiftRight, Nat.add_comm 1 i, mul_ite_pow]
      omega
    · rw [mul_ite_pow]
      rfl

/-- At a root of the feedback a shift is a multiplication. -/
lemma value_shift [CharP R 2] {p : BitVec w} (hp : value β p = β ^ w) (x : BitVec w) :
    value β (shift p x) = β * value β x := by
  rw [← value_shiftRight]
  unfold shift
  split
  · rw [value_xor, hp]
  · rw [add_zero]

lemma locators_append_singleton (bits : List Bool) (b : Bool) :
    locators β (bits ++ [b]) = β * (locators β bits + if b then 1 else 0) := by
  unfold locators
  rw [List.length_append, List.length_singleton, Finset.sum_range_succ, mul_add, Finset.mul_sum]
  congr 1
  · refine Finset.sum_congr rfl fun i hi => ?_
    have hlt : i < bits.length := Finset.mem_range.mp hi
    rw [List.getD_append _ _ _ _ hlt, mul_ite_pow]
    omega
  · rw [List.getD_append_right _ _ _ _ le_rfl]
    cases b <;> simp

lemma value_feed_zero [CharP R 2] (hw : 0 < w) {p : BitVec w} (hp : value β p = β ^ w)
    (bits : List Bool) :
    value β (feed p 0#w bits) = β ^ (w - 1) * locators β bits := by
  induction bits using List.reverseRecOn with
  | nil => simp [locators]
  | append_singleton bits b ih =>
    rw [feed_append, feed_cons, feed_nil, value_shift β hp, value_xor, ih, value_bit β hw,
      locators_append_singleton]
    split <;> ring

/-- Bits that leave the register clear have a root at `β`. -/
lemma locators_eq_zero [CharP R 2] (hw : 0 < w) {p : BitVec w} (hp : value β p = β ^ w)
    (hβ : IsUnit β) {bits : List Bool} (h : feed p 0#w bits = 0#w) : locators β bits = 0 := by
  have hvalue := value_feed_zero β hw hp bits
  rw [h, value_zero] at hvalue
  exact (hβ.pow (w - 1)).mul_right_eq_zero.mp hvalue.symm

lemma locators_one (bits : List Bool) : locators (1 : R) bits = (bits.count true : R) := by
  induction bits using List.reverseRecOn with
  | nil => simp [locators]
  | append_singleton bits b ih =>
    rw [locators_append_singleton, ih, one_mul, List.count_append]
    cases b <;> simp

end Value

/-- An odd number of ones is never lost where the feedback has a root at one. -/
theorem feed_odd_ne_zero (hw : 0 < w) {p : BitVec w} (hp : value (1 : ZMod 2) p = 1)
    {bits : List Bool} (hodd : Odd (bits.count true)) : feed p 0#w bits ≠ 0#w := by
  intro hzero
  have hcount : ((bits.count true : ℕ) : ZMod 2) = 0 := by
    rw [← locators_one]
    refine locators_eq_zero 1 hw ?_ isUnit_one hzero
    rw [hp, one_pow]
  rw [ZMod.natCast_eq_zero_iff_even] at hcount
  exact Nat.not_even_iff_odd.mpr hodd hcount

/-- The places of the ones. -/
def places (bits : List Bool) : Finset ℕ :=
  (Finset.range bits.length).filter fun i => bits.getD i false = true

lemma mem_places {bits : List Bool} {i : ℕ} (h : i ∈ places bits) : i < bits.length :=
  Finset.mem_range.mp (Finset.mem_filter.mp h).1

lemma locators_eq_sum {R : Type*} [CommRing R] (β : R) (bits : List Bool) :
    locators β bits = ∑ i ∈ places bits, β ^ (bits.length - i) := by
  rw [locators, places, Finset.sum_filter]

lemma card_places (bits : List Bool) : (places bits).card = bits.count true := by
  have hsum := locators_eq_sum (1 : ℤ) bits
  rw [locators_one] at hsum
  simp only [one_pow, Finset.sum_const, nsmul_one] at hsum
  exact_mod_cast hsum.symm

section Few
variable {K : Type*} [Field K] {β : K}

lemma pow_ne_pow {a b n : ℕ} (hβ : β ≠ 0) (horder : n ≤ orderOf β) (ha : a < n) (hb : b < n)
    (hne : a ≠ b) : β ^ (n - a) ≠ β ^ (n - b) := by
  wlog hlt : a < b generalizing a b
  · exact (this hb ha hne.symm (by omega)).symm
  intro heq
  have hsplit : n - a = (b - a) + (n - b) := by omega
  rw [hsplit, pow_add] at heq
  have hone : β ^ (b - a) = 1 := mul_eq_right₀ (pow_ne_zero _ hβ) |>.mp heq
  exact pow_ne_one_of_lt_orderOf (by omega) (by omega) hone

variable [CharP K 2]

/-- Four terms whose sum and whose sum of inverses vanish are two pairs. -/
lemma eq_of_sum_inv_eq_zero {a b c d : K} (ha : a ≠ 0) (hb : b ≠ 0) (hc : c ≠ 0) (hd : d ≠ 0)
    (hsum : a + b + c + d = 0) (hinv : a⁻¹ + b⁻¹ + c⁻¹ + d⁻¹ = 0) : a = b ∨ a = c ∨ b = c := by
  have hthree : b * c * d + a * c * d + a * b * d + a * b * c = 0 := by
    field_simp at hinv
    linear_combination hinv
  have hproduct : (a + b) * ((a + c) * (b + c)) = 0 := by
    linear_combination (a * b + a * c + b * c) * hsum - hthree
  rcases mul_eq_zero.mp hproduct with hab | hrest
  · exact .inl (CharTwo.add_eq_zero.mp hab)
  · rcases mul_eq_zero.mp hrest with hac | hbc
    · exact .inr (.inl (CharTwo.add_eq_zero.mp hac))
    · exact .inr (.inr (CharTwo.add_eq_zero.mp hbc))

/-- Two or four ones are never lost where the feedback has two roots inverse to each other, and the
powers of a root do not repeat before the bits end. -/
theorem feed_few_ne_zero (hw : 0 < w) {p : BitVec w} (hβ : β ≠ 0) (hp : value β p = β ^ w)
    (hp' : value β⁻¹ p = β⁻¹ ^ w) {bits : List Bool} (horder : bits.length ≤ orderOf β)
    (hcount : bits.count true = 2 ∨ bits.count true = 4) : feed p 0#w bits ≠ 0#w := by
  intro hzero
  have hsum := locators_eq_zero β hw hp hβ.isUnit hzero
  have hinv := locators_eq_zero β⁻¹ hw hp' (inv_ne_zero hβ).isUnit hzero
  rw [locators_eq_sum] at hsum hinv
  simp only [inv_pow] at hinv
  have hne : ∀ i ∈ places bits, ∀ j ∈ places bits, i ≠ j →
      β ^ (bits.length - i) ≠ β ^ (bits.length - j) := fun i hi j hj =>
    pow_ne_pow hβ horder (mem_places hi) (mem_places hj)
  rcases hcount with htwo | hfour
  · rw [← card_places, Finset.card_eq_two] at htwo
    obtain ⟨i, j, hij, hplaces⟩ := htwo
    rw [hplaces] at hsum hne
    rw [Finset.sum_pair hij] at hsum
    exact hne i (by simp) j (by simp) hij (CharTwo.add_eq_zero.mp hsum)
  · rw [← card_places] at hfour
    obtain ⟨i, rest, hi, hplaces, hrest⟩ := Finset.card_eq_succ.mp hfour
    obtain ⟨j, k, l, hjk, hjl, hkl, rfl⟩ := Finset.card_eq_three.mp hrest
    rw [← hplaces] at hsum hinv hne
    rw [Finset.sum_insert hi, Finset.sum_insert (by simp [hjk, hjl]), Finset.sum_pair hkl,
      ← add_assoc, ← add_assoc] at hsum hinv
    have hpow : ∀ n, β ^ n ≠ 0 := fun n => pow_ne_zero n hβ
    simp only [Finset.mem_insert, Finset.mem_singleton, not_or] at hi
    rcases eq_of_sum_inv_eq_zero (hpow _) (hpow _) (hpow _) (hpow _) hsum hinv with h | h | h
    · exact hne i (by simp) j (by simp) hi.1 h
    · exact hne i (by simp) k (by simp) hi.2.1 h
    · exact hne j (by simp) k (by simp) hjk h

end Few

section Product
variable (p : BitVec w)

/-- The product of two words as polynomials, reduced by the feedback. -/
def mul (x y : BitVec w) : BitVec w :=
  (List.range w).foldl (fun acc i => shift p acc ^^^ if x.getLsbD i then y else 0#w) 0#w

/-- The word with the value `β ^ n`. -/
def monomial (n : ℕ) : BitVec w := BitVec.twoPow w (w - 1 - n)

/-- The word with the value `β ^ n`, the digits of `n` being given from the lowest one up. -/
def power : List Bool → BitVec w
  | [] => monomial 0
  | d :: digits =>
    let square := mul p (power digits) (power digits)
    if d then shift p square else square

variable {R : Type*} [CommRing R] {β : R}

lemma value_monomial {n : ℕ} (h : n < w) : value β (monomial n : BitVec w) = β ^ n := by
  unfold value monomial
  rw [Finset.sum_eq_single_of_mem (w - 1 - n) (Finset.mem_range.mpr (by omega))]
  · rw [BitVec.getLsbD_twoPow, if_pos (by simp; omega)]
    congr 1
    omega
  · intro i hi hne
    rw [BitVec.getLsbD_twoPow, if_neg (by simp [hne.symm])]

variable [CharP R 2] {p}

lemma value_mul (hp : value β p = β ^ w) (x y : BitVec w) :
    value β (mul p x y) = value β x * value β y := by
  have hpart : ∀ n, value β ((List.range n).foldl
      (fun acc i => shift p acc ^^^ if x.getLsbD i then y else 0#w) 0#w) =
        (∑ i ∈ Finset.range n, if x.getLsbD i then β ^ (n - 1 - i) else 0) * value β y := by
    intro n
    induction n with
    | zero => simp
    | succ n ih =>
      rw [List.range_succ, List.foldl_append, List.foldl_cons, List.foldl_nil, value_xor,
        value_shift β hp, ih, Finset.sum_range_succ, add_mul, ← mul_assoc, Finset.mul_sum]
      congr 1
      · congr 1
        refine Finset.sum_congr rfl fun i hi => ?_
        have hlt : i < n := Finset.mem_range.mp hi
        rw [mul_ite_pow]
        omega
      · split <;> simp
  exact hpart w

lemma value_power (hw : 0 < w) (hp : value β p = β ^ w) (digits : List Bool) :
    value β (power p digits) = β ^ Nat.ofDigits 2 (digits.map Bool.toNat) := by
  induction digits with
  | nil => rw [power, value_monomial hw, List.map_nil, Nat.ofDigits_nil]
  | cons d digits ih =>
    have hsquare : value β (mul p (power p digits) (power p digits)) =
        β ^ (2 * Nat.ofDigits 2 (digits.map Bool.toNat)) := by
      rw [value_mul hp, ih, two_mul, pow_add]
    rw [power, List.map_cons, Nat.ofDigits_cons, pow_add]
    cases d with
    | false => simp [hsquare]
    | true => simp [value_shift β hp, hsquare]

end Product

end Redpine.Lfsr

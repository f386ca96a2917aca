import Mathlib

/-! The XOR of a list of bits, and the folding by which it is computed on machine words. -/
namespace Redpine.Parity

def xorAll (bits : List Bool) : Bool := bits.foldr xor false

@[simp] lemma xorAll_nil : xorAll [] = false := rfl

@[simp] lemma xorAll_cons (b : Bool) (bits : List Bool) :
    xorAll (b :: bits) = xor b (xorAll bits) := rfl

lemma xorAll_append (xs ys : List Bool) : xorAll (xs ++ ys) = xor (xorAll xs) (xorAll ys) := by
  induction xs with
  | nil => simp
  | cons x xs ih => simp [ih]

/-- Masked bits contribute nothing. -/
lemma xorAll_map_and {α : Type*} (p f : α → Bool) (xs : List α) :
    xorAll (xs.map fun x => p x && f x) = xorAll ((xs.filter p).map f) := by
  induction xs with
  | nil => rfl
  | cons x xs ih => cases hp : p x <;> simp [hp, ih]

lemma xorAll_map_xor {α : Type*} (f g : α → Bool) (xs : List α) :
    xorAll (xs.map fun x => xor (f x) (g x)) = xor (xorAll (xs.map f)) (xorAll (xs.map g)) := by
  induction xs with
  | nil => rfl
  | cons x xs ih =>
    simp only [List.map_cons, xorAll_cons, ih]
    cases f x <;> cases g x <;> simp

lemma xorAll_range_single (n d : ℕ) (c : Bool) :
    xorAll ((List.range n).map fun i => decide (i = d) && c) = (decide (d < n) && c) := by
  induction n with
  | zero => simp
  | succ n ih =>
    simp only [List.range_succ, List.map_append, List.map_cons, List.map_nil, xorAll_append, ih,
      xorAll_cons, xorAll_nil, Bool.xor_false]
    rcases Nat.lt_trichotomy d n with hlt | heq | hgt
    · simp [hlt, hlt.ne', Nat.lt_succ_of_lt hlt]
    · simp [heq]
    · simp [hgt.ne, not_lt.mpr hgt.le, not_lt.mpr (Nat.succ_le_of_lt hgt)]

/-- The parity of the low `n` bits of a word. -/
def parity {w : ℕ} (x : BitVec w) (n : ℕ) : Bool := xorAll ((List.range n).map x.getLsbD)

variable {w : ℕ}

lemma parity_add (x : BitVec w) (m n : ℕ) :
    parity x (m + n) = xor (parity x m) (parity (x >>> m) n) := by
  unfold parity
  rw [List.range_add, List.map_append, xorAll_append, List.map_map]
  congr 2
  apply List.map_congr_left
  intro i hi
  rw [Function.comp_apply, BitVec.getLsbD_ushiftRight]

lemma parity_xor (x y : BitVec w) (n : ℕ) :
    parity (x ^^^ y) n = xor (parity x n) (parity y n) := by
  unfold parity
  induction n with
  | zero => rfl
  | succ n ih =>
    simp only [List.range_succ, List.map_append, List.map_cons, List.map_nil, xorAll_append,
      xorAll_cons, xorAll_nil, Bool.xor_false, BitVec.getLsbD_xor, ih]
    cases x.getLsbD n <;> cases y.getLsbD n <;> simp

/-- Folding a word onto its lower half keeps the parity. -/
lemma parity_fold (x : BitVec w) (m : ℕ) :
    parity (x ^^^ (x >>> m)) m = parity x (m + m) := by
  rw [parity_xor, parity_add]

lemma parity_congr {v : ℕ} {x : BitVec w} {y : BitVec v} {n : ℕ}
    (h : ∀ i < n, x.getLsbD i = y.getLsbD i) : parity x n = parity y n := by
  unfold parity
  congr 1
  apply List.map_congr_left
  intro i hi
  exact h i (List.mem_range.mp hi)

/-- High bits that are zero do not count. -/
lemma parity_of_high_zero {x : BitVec w} {m n : ℕ} (hle : m ≤ n)
    (h : ∀ i, m ≤ i → x.getLsbD i = false) : parity x n = parity x m := by
  obtain ⟨d, rfl⟩ := Nat.exists_eq_add_of_le hle
  have hzero : parity (x >>> m) d = false := by
    unfold parity
    induction d with
    | zero => rfl
    | succ d ih =>
      have hd := h (m + d) (by omega)
      simp only [List.range_succ, List.map_append, List.map_cons, List.map_nil, xorAll_append,
        ih (by omega), xorAll_cons, xorAll_nil, BitVec.getLsbD_ushiftRight, hd, Bool.xor_false]
  rw [parity_add, hzero, Bool.xor_false]

/-- Testing the lowest bit of a folded word. -/
lemma and_one_beq (x : BitVec w) (hw : 0 < w) : (x &&& 1#w == 1#w) = parity x 1 := by
  have hparity : parity x 1 = x.getLsbD 0 := by simp [parity]
  rw [hparity, Bool.eq_iff_iff, beq_iff_eq]
  constructor
  · intro h
    have hbit := congrArg (fun y => y.getLsbD 0) h
    simpa [hw] using hbit
  · intro h
    apply BitVec.eq_of_getLsbD_eq
    intro i hi
    rw [BitVec.getLsbD_and, BitVec.getLsbD_one]
    by_cases hi0 : i = 0
    · subst hi0
      simp [h]
    · simp [hi0]

end Redpine.Parity

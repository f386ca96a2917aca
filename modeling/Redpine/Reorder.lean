import Mathlib

/-! Reordering of numbered items. A bounded buffer keeps the items that arrive ahead of
the next expected position, and gives up missing positions once it is full. -/
namespace Redpine.Reorder

variable {α : Type*}

/-- The positions increase strictly, starting not before `base`. -/
def Ordered : ℕ → List (ℕ × α) → Prop
  | _, [] => True
  | base, x :: xs => base ≤ x.1 ∧ Ordered (x.1 + 1) xs

/-- Puts an item in its place unless its position is taken. -/
def place (x : ℕ × α) : List (ℕ × α) → List (ℕ × α)
  | [] => [x]
  | y :: ys =>
      if x.1 < y.1 then x :: y :: ys
      else if x.1 = y.1 then y :: ys
      else y :: place x ys

/-- Releases the first item as long as it is expected next or more than `cap` are held.
The result is what was released, the next expected position and what is kept. -/
def settle (cap : ℕ) : ℕ → List (ℕ × α) → List (ℕ × α) × ℕ × List (ℕ × α)
  | base, [] => ([], base, [])
  | base, x :: xs =>
      if x.1 = base ∨ cap ≤ xs.length then
        (x :: (settle cap (x.1 + 1) xs).1, (settle cap (x.1 + 1) xs).2)
      else ([], base, x :: xs)

lemma Ordered.weaken {m n : ℕ} (h : m ≤ n) {xs : List (ℕ × α)} (hx : Ordered n xs) :
    Ordered m xs := by
  cases xs with
  | nil => trivial
  | cons x xs => exact ⟨h.trans hx.1, hx.2⟩

lemma Ordered.le_of_mem {base : ℕ} {xs : List (ℕ × α)} (hx : Ordered base xs) {x : ℕ × α}
    (hmem : x ∈ xs) : base ≤ x.1 := by
  induction xs generalizing base with
  | nil => simp at hmem
  | cons y ys ih =>
    rcases List.mem_cons.mp hmem with rfl | hmem
    · exact hx.1
    · have hle := ih hx.2 hmem
      have hy := hx.1
      omega

lemma Ordered.append {base mid : ℕ} {xs ys : List (ℕ × α)} (hx : Ordered base xs)
    (hlt : ∀ x ∈ xs, x.1 < mid) (hle : base ≤ mid) (hy : Ordered mid ys) :
    Ordered base (xs ++ ys) := by
  induction xs generalizing base with
  | nil => exact hy.weaken hle
  | cons x xs ih =>
    refine ⟨hx.1, ih hx.2 (fun y hmem => hlt y (List.mem_cons_of_mem _ hmem)) ?_⟩
    exact hlt x List.mem_cons_self

lemma Ordered.pairwise {base : ℕ} {xs : List (ℕ × α)} (h : Ordered base xs) :
    xs.Pairwise (fun x y => x.1 < y.1) := by
  induction xs generalizing base with
  | nil => exact List.Pairwise.nil
  | cons x xs ih =>
    refine List.pairwise_cons.mpr ⟨fun y hy => ?_, ih h.2⟩
    have := h.2.le_of_mem hy
    omega

/-- There are at most as many items as positions. -/
lemma Ordered.length_le {m n : ℕ} {xs : List (ℕ × α)} (h : Ordered m xs) (hle : m ≤ n)
    (hlt : ∀ x ∈ xs, x.1 < n) : m + xs.length ≤ n := by
  induction xs generalizing m with
  | nil => exact hle
  | cons x xs ih =>
    have hx := hlt x List.mem_cons_self
    have hrest := ih h.2 hx fun y hy => hlt y (List.mem_cons_of_mem _ hy)
    have hm := h.1
    rw [List.length_cons]
    omega

/-- Equal positions carry equal items. -/
lemma Ordered.eq_of_fst_eq {base : ℕ} {xs : List (ℕ × α)} (h : Ordered base xs) {x y : ℕ × α}
    (hx : x ∈ xs) (hy : y ∈ xs) (he : x.1 = y.1) : x = y := by
  induction xs generalizing base with
  | nil => simp at hx
  | cons z zs ih =>
    rcases List.mem_cons.mp hx with hxz | hx
    · rcases List.mem_cons.mp hy with hyz | hy
      · rw [hxz, hyz]
      · have hlt := h.2.le_of_mem hy
        rw [hxz] at he
        omega
    · rcases List.mem_cons.mp hy with hyz | hy
      · have hlt := h.2.le_of_mem hx
        rw [hyz] at he
        omega
      · exact ih h.2 hx hy

section Place
variable {x y : ℕ × α} {ys : List (ℕ × α)}

lemma place_of_lt (h : x.1 < y.1) : place x (y :: ys) = x :: y :: ys := by
  unfold place
  rw [if_pos h]

lemma place_of_eq (h : x.1 = y.1) : place x (y :: ys) = y :: ys := by
  unfold place
  rw [if_neg (by omega), if_pos h]

lemma place_of_gt (h : y.1 < x.1) : place x (y :: ys) = y :: place x ys := by
  rw [place, if_neg (by omega), if_neg (by omega)]

/-- An item before all others is put in front of them. -/
lemma place_of_forall_lt (h : ∀ z ∈ ys, x.1 < z.1) : place x ys = x :: ys := by
  cases ys with
  | nil => rfl
  | cons z zs => exact place_of_lt (h z List.mem_cons_self)

end Place

lemma mem_place {x y : ℕ × α} {xs : List (ℕ × α)} (h : y ∈ place x xs) : y = x ∨ y ∈ xs := by
  induction xs with
  | nil => simpa [place] using h
  | cons z zs ih =>
    unfold place at h
    split_ifs at h with hlt heq
    · simpa using h
    · exact .inr h
    · rcases List.mem_cons.mp h with rfl | h
      · exact .inr List.mem_cons_self
      · rcases ih h with rfl | h
        · exact .inl rfl
        · exact .inr (List.mem_cons_of_mem _ h)

lemma Ordered.place {base : ℕ} {x : ℕ × α} {xs : List (ℕ × α)} (h : Ordered base xs)
    (hx : base ≤ x.1) : Ordered base (place x xs) := by
  induction xs generalizing base with
  | nil => exact ⟨hx, trivial⟩
  | cons y ys ih =>
    unfold Reorder.place
    split_ifs with hlt heq
    · exact ⟨hx, hlt, h.2⟩
    · exact h
    · exact ⟨h.1, ih h.2 (by omega)⟩

/-- An item whose position is taken is dropped. -/
lemma place_of_taken {base : ℕ} {x : ℕ × α} {xs : List (ℕ × α)} (h : Ordered base xs)
    (hx : ∃ y ∈ xs, y.1 = x.1) : place x xs = xs := by
  induction xs generalizing base with
  | nil => simp at hx
  | cons y ys ih =>
    obtain ⟨z, hz, he⟩ := hx
    rcases List.mem_cons.mp hz with rfl | hz
    · exact place_of_eq he.symm
    · have hle := h.2.le_of_mem hz
      rw [place_of_gt (by omega), ih h.2 ⟨z, hz, he⟩]

/-- Any other item is added. -/
lemma place_perm {x : ℕ × α} {xs : List (ℕ × α)} (hx : ∀ y ∈ xs, y.1 ≠ x.1) :
    (place x xs).Perm (x :: xs) := by
  induction xs with
  | nil => exact .refl _
  | cons y ys ih =>
    unfold place
    split_ifs with hlt heq
    · exact .refl _
    · exact absurd heq.symm (hx y List.mem_cons_self)
    · have hys : ∀ z ∈ ys, z.1 ≠ x.1 := fun z hz => hx z (List.mem_cons_of_mem _ hz)
      exact ((ih hys).cons y).trans (.swap x y ys)

section Settle
variable {cap base : ℕ} {x : ℕ × α} {xs : List (ℕ × α)}

lemma settle_release (h : x.1 = base ∨ cap ≤ xs.length) :
    settle cap base (x :: xs) =
      (x :: (settle cap (x.1 + 1) xs).1, (settle cap (x.1 + 1) xs).2) := by
  rw [settle, if_pos h]

lemma settle_keep (hne : x.1 ≠ base) (hlen : xs.length < cap) :
    settle cap base (x :: xs) = ([], base, x :: xs) := by
  rw [settle, if_neg (by omega)]

lemma settle_append (cap base : ℕ) (xs : List (ℕ × α)) :
    (settle cap base xs).1 ++ (settle cap base xs).2.2 = xs := by
  induction xs generalizing base with
  | nil => rfl
  | cons x xs ih =>
    unfold settle
    split_ifs
    · simp [ih]
    · rfl

variable (cap) in
/-- What is kept lies strictly ahead of the new base, and what is released behind it. -/
lemma settle_spec (h : Ordered base xs) :
    base ≤ (settle cap base xs).2.1 ∧
      Ordered base (settle cap base xs).1 ∧
      (∀ x ∈ (settle cap base xs).1, x.1 < (settle cap base xs).2.1) ∧
      Ordered ((settle cap base xs).2.1 + 1) (settle cap base xs).2.2 ∧
      (settle cap base xs).2.2.length ≤ cap := by
  induction xs generalizing base with
  | nil => simp [settle, Ordered]
  | cons x xs ih =>
    obtain ⟨hle, hout, hlt, hrest, hlen⟩ := ih h.2
    unfold settle
    by_cases hx : x.1 = base ∨ cap ≤ xs.length
    · rw [if_pos hx]
      refine ⟨?_, ⟨h.1, hout⟩, ?_, hrest, hlen⟩
      · have := h.1
        simp only
        omega
      · intro y hy
        rcases List.mem_cons.mp hy with rfl | hy
        · simp only
          omega
        · exact hlt y hy
    · rw [if_neg hx]
      have hne : x.1 ≠ base := fun he => hx (.inl he)
      have hcap : xs.length < cap := by
        by_contra hc
        exact hx (.inr (by omega))
      have hge := h.1
      exact ⟨le_rfl, trivial, by simp, ⟨by simp only; omega, h.2⟩, by simpa using hcap⟩

end Settle

/-- A buffer for items that lie less than `size` ahead of the next expected position,
with the record of all it has released. -/
structure Buffer (α : Type*) (cap size : ℕ) where
  base : ℕ
  pending : List (ℕ × α)
  released : List (ℕ × α)
  ordered : Ordered (base + 1) pending
  within : ∀ x ∈ pending, x.1 < base + size
  length_le : pending.length ≤ cap
  increasing : Ordered 0 released
  before : ∀ x ∈ released, x.1 < base

namespace Buffer
variable {cap size : ℕ}

def empty (α : Type*) (cap size : ℕ) : Buffer α cap size where
  base := 0
  pending := []
  released := []
  ordered := trivial
  within := by simp
  length_le := by simp
  increasing := trivial
  before := by simp

/-- Takes an item within the window and releases what becomes due. -/
def offer (b : Buffer α cap size) (x : ℕ × α) : Buffer α cap size :=
  if h : b.base ≤ x.1 ∧ x.1 < b.base + size then
    have hplace : Ordered b.base (place x b.pending) :=
      (b.ordered.weaken (Nat.le_succ _)).place h.1
    have hspec := settle_spec cap hplace
    have happend := settle_append cap b.base (place x b.pending)
    { base := (settle cap b.base (place x b.pending)).2.1
      pending := (settle cap b.base (place x b.pending)).2.2
      released := b.released ++ (settle cap b.base (place x b.pending)).1
      ordered := hspec.2.2.2.1
      within := by
        intro y hy
        have hmem : y ∈ place x b.pending := by
          rw [← happend]
          exact List.mem_append_right _ hy
        have hlt : y.1 < b.base + size := by
          rcases mem_place hmem with rfl | hmem
          · exact h.2
          · exact b.within y hmem
        exact lt_of_lt_of_le hlt (Nat.add_le_add_right hspec.1 size)
      length_le := hspec.2.2.2.2
      increasing := b.increasing.append b.before (Nat.zero_le _) hspec.2.1
      before := by
        intro y hy
        rcases List.mem_append.mp hy with hy | hy
        · exact lt_of_lt_of_le (b.before y hy) hspec.1
        · exact hspec.2.2.1 y hy }
  else b

/-- Releases everything and skips to a position ahead. -/
def skipTo (b : Buffer α cap size) (next : ℕ) : Buffer α cap size :=
  if h : b.base ≤ next ∧ ∀ x ∈ b.pending, x.1 < next then
    { base := next
      pending := []
      released := b.released ++ b.pending
      ordered := trivial
      within := by simp
      length_le := by simp
      increasing :=
        b.increasing.append b.before (Nat.zero_le _) (b.ordered.weaken (Nat.le_succ _))
      before := by
        intro y hy
        rcases List.mem_append.mp hy with hy | hy
        · exact lt_of_lt_of_le (b.before y hy) h.1
        · exact h.2 y hy }
  else b

lemma offer_of_mem {b : Buffer α cap size} {x : ℕ × α}
    (h : b.base ≤ x.1 ∧ x.1 < b.base + size) :
    (b.offer x).base = (settle cap b.base (place x b.pending)).2.1 ∧
      (b.offer x).pending = (settle cap b.base (place x b.pending)).2.2 ∧
      (b.offer x).released = b.released ++ (settle cap b.base (place x b.pending)).1 := by
  unfold offer
  rw [dif_pos h]
  exact ⟨rfl, rfl, rfl⟩

lemma offer_of_not_mem {b : Buffer α cap size} {x : ℕ × α}
    (h : ¬ (b.base ≤ x.1 ∧ x.1 < b.base + size)) : b.offer x = b := by
  unfold offer
  rw [dif_neg h]

lemma skipTo_of_le {b : Buffer α cap size} {next : ℕ} (hle : b.base ≤ next)
    (hlt : ∀ x ∈ b.pending, x.1 < next) :
    (b.skipTo next).base = next ∧ (b.skipTo next).pending = [] ∧
      (b.skipTo next).released = b.released ++ b.pending := by
  unfold skipTo
  rw [dif_pos ⟨hle, hlt⟩]
  exact ⟨rfl, rfl, rfl⟩

lemma base_le_offer (b : Buffer α cap size) (x : ℕ × α) : b.base ≤ (b.offer x).base := by
  by_cases h : b.base ≤ x.1 ∧ x.1 < b.base + size
  · rw [(offer_of_mem h).1]
    exact (settle_spec cap ((b.ordered.weaken (Nat.le_succ _)).place h.1)).1
  · rw [offer_of_not_mem h]

/-- Everything a buffer holds or has released after an offer was there before or is the
item offered. -/
lemma mem_offer {b : Buffer α cap size} {x y : ℕ × α}
    (h : y ∈ (b.offer x).released ++ (b.offer x).pending) :
    y ∈ b.released ++ b.pending ∨ y = x := by
  by_cases hx : b.base ≤ x.1 ∧ x.1 < b.base + size
  · obtain ⟨-, hpending, hreleased⟩ := offer_of_mem hx
    rw [hpending, hreleased, List.append_assoc, settle_append] at h
    rcases List.mem_append.mp h with h | h
    · exact .inl (List.mem_append_left _ h)
    · rcases mem_place h with rfl | h
      · exact .inr rfl
      · exact .inl (List.mem_append_right _ h)
  · rw [offer_of_not_mem hx] at h
    exact .inl h

/-- What an offer releases, in order, lies between the old base and the new one. -/
lemma offer_released {b : Buffer α cap size} {x : ℕ × α} {rel : List (ℕ × α)}
    (h : (b.offer x).released = b.released ++ rel) :
    Ordered b.base rel ∧ ∀ y ∈ rel, y.1 < (b.offer x).base := by
  by_cases hx : b.base ≤ x.1 ∧ x.1 < b.base + size
  · obtain ⟨hbase, -, hreleased⟩ := offer_of_mem hx
    rw [hreleased] at h
    obtain ⟨-, hout, hlt, -⟩ := settle_spec cap ((b.ordered.weaken (Nat.le_succ _)).place hx.1)
    rw [← List.append_cancel_left h, hbase]
    exact ⟨hout, hlt⟩
  · rw [offer_of_not_mem hx] at h
    have hnil : rel = [] := by simpa using h
    subst hnil
    exact ⟨trivial, by simp⟩

/-- What an offer releases or keeps was kept before, or is the item offered. -/
lemma mem_offer_new {b : Buffer α cap size} {x y : ℕ × α} {rel : List (ℕ × α)}
    (h : (b.offer x).released = b.released ++ rel) (hy : y ∈ rel ++ (b.offer x).pending) :
    y = x ∨ y ∈ b.pending := by
  by_cases hx : b.base ≤ x.1 ∧ x.1 < b.base + size
  · obtain ⟨-, hpending, hreleased⟩ := offer_of_mem hx
    rw [hreleased] at h
    rw [← List.append_cancel_left h, hpending, settle_append] at hy
    exact mem_place hy
  · rw [offer_of_not_mem hx] at h hy
    have hnil : rel = [] := by simpa using h
    rw [hnil, List.nil_append] at hy
    exact .inr hy

/-- An offer keeps or releases what was kept before, and the item if it is accepted. -/
lemma offer_perm {b : Buffer α cap size} {x : ℕ × α}
    (h : b.base ≤ x.1 ∧ x.1 < b.base + size) (hnew : ∀ y ∈ b.pending, y.1 ≠ x.1) :
    ((b.offer x).released ++ (b.offer x).pending).Perm (b.released ++ b.pending ++ [x]) := by
  obtain ⟨-, hpending, hreleased⟩ := offer_of_mem h
  rw [hpending, hreleased, List.append_assoc, settle_append, List.append_assoc]
  refine List.Perm.append_left _ ((place_perm hnew).trans ?_)
  exact (List.perm_append_singleton x b.pending).symm

/-- Nothing happens where the position is not in the window or is taken. -/
lemma offer_ignored {b : Buffer α cap size} {x : ℕ × α}
    (h : ¬ ((b.base ≤ x.1 ∧ x.1 < b.base + size) ∧ ∀ y ∈ b.pending, y.1 ≠ x.1)) :
    (b.offer x).released ++ (b.offer x).pending = b.released ++ b.pending := by
  by_cases hx : b.base ≤ x.1 ∧ x.1 < b.base + size
  · have htaken : ∃ y ∈ b.pending, y.1 = x.1 := by
      by_contra hnone
      push Not at hnone
      exact h ⟨hx, hnone⟩
    obtain ⟨-, hpending, hreleased⟩ := offer_of_mem hx
    rw [hpending, hreleased, List.append_assoc, settle_append, place_of_taken b.ordered htaken]
  · rw [offer_of_not_mem hx]

lemma mem_skipTo {b : Buffer α cap size} {next : ℕ} {y : ℕ × α}
    (h : y ∈ (b.skipTo next).released ++ (b.skipTo next).pending) :
    y ∈ b.released ++ b.pending := by
  unfold skipTo at h
  split_ifs at h
  · simpa using h
  · exact h

/-- The base passes released positions only, or the positions it is told to skip. -/
lemma offer_base_le {b : Buffer α cap size} {x : ℕ × α} {bound : ℕ} (hb : b.base ≤ bound)
    (hx : x.1 < bound) (hp : ∀ y ∈ b.pending, y.1 < bound) : (b.offer x).base ≤ bound := by
  by_cases h : b.base ≤ x.1 ∧ x.1 < b.base + size
  · rw [(offer_of_mem h).1]
    have hplace : ∀ y ∈ place x b.pending, y.1 < bound := by
      intro y hy
      rcases mem_place hy with rfl | hy
      · exact hx
      · exact hp y hy
    clear h
    generalize place x b.pending = xs at hplace
    revert hb
    generalize b.base = base
    intro hb
    induction xs generalizing base with
    | nil => exact hb
    | cons y ys ih =>
      unfold settle
      split_ifs
      · exact ih (fun z hz => hplace z (List.mem_cons_of_mem _ hz)) _
          (hplace y List.mem_cons_self)
      · exact hb
  · rw [offer_of_not_mem h]
    exact hb

/-- An offer moves the base by at most the size of the window. -/
lemma base_offer_le (b : Buffer α cap size) (x : ℕ × α) :
    (b.offer x).base ≤ b.base + size := by
  by_cases h : b.base ≤ x.1 ∧ x.1 < b.base + size
  · exact offer_base_le (Nat.le_add_right _ _) h.2 b.within
  · rw [offer_of_not_mem h]
    exact Nat.le_add_right _ _

end Buffer

end Redpine.Reorder

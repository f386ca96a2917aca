import Redpine.Reorder

/-! A reorder buffer that never has to give up a position. If no item arrives after more items
beyond it than the buffer can hold, all items are released in order. -/
namespace Redpine.Reorder

variable {α : Type*} {cap size : ℕ}

def positions (xs : List (ℕ × α)) : List ℕ := xs.map Prod.fst

/-- The item that arrives first at a position. -/
def firstAt (xs : List (ℕ × α)) (p : ℕ) : Option (ℕ × α) := xs.find? fun x => x.1 = p

lemma mem_positions {xs : List (ℕ × α)} {x : ℕ × α} (hx : x ∈ xs) : x.1 ∈ positions xs :=
  List.mem_map_of_mem hx

lemma positions_append (xs ys : List (ℕ × α)) :
    positions (xs ++ ys) = positions xs ++ positions ys :=
  List.map_append

lemma firstAt_eq_none {xs : List (ℕ × α)} {p : ℕ} (h : p ∉ positions xs) :
    firstAt xs p = none := by
  refine List.find?_eq_none.mpr fun x hx => ?_
  rw [decide_eq_true_eq]
  rintro rfl
  exact h (mem_positions hx)

lemma firstAt_mem {xs : List (ℕ × α)} {p : ℕ} {x : ℕ × α} (h : firstAt xs p = some x) :
    x ∈ xs ∧ x.1 = p :=
  ⟨List.mem_of_find?_eq_some h, by simpa using List.find?_some h⟩

lemma firstAt_append {xs ys : List (ℕ × α)} {p : ℕ} {x : ℕ × α} (h : firstAt xs p = some x) :
    firstAt (xs ++ ys) p = some x := by
  unfold firstAt at h ⊢
  rw [List.find?_append, h]
  rfl

lemma firstAt_concat {xs : List (ℕ × α)} {x : ℕ × α} (h : x.1 ∉ positions xs) :
    firstAt (xs ++ [x]) x.1 = some x := by
  have hnone := firstAt_eq_none h
  unfold firstAt at hnone ⊢
  rw [List.find?_append, hnone]
  simp

/-- The first arrival at a position. -/
lemma exists_firstArrival {xs : List (ℕ × α)} {p : ℕ} (h : p ∈ positions xs) :
    ∃ pre x post, xs = pre ++ x :: post ∧ x.1 = p ∧ p ∉ positions pre := by
  induction xs with
  | nil => simp [positions] at h
  | cons y ys ih =>
    by_cases hy : y.1 = p
    · exact ⟨[], y, ys, rfl, hy, by simp [positions]⟩
    · have hys : p ∈ positions ys := by
        rcases List.mem_cons.mp h with he | hmem
        · exact absurd he.symm hy
        · exact hmem
      obtain ⟨pre, x, post, rfl, hx, hpre⟩ := ih hys
      refine ⟨y :: pre, x, post, rfl, hx, ?_⟩
      simp only [positions, List.map_cons, List.mem_cons, not_or]
      exact ⟨Ne.symm hy, hpre⟩

section Settle
variable {base : ℕ} {xs : List (ℕ × α)}

variable (base) in
/-- As long as there is room, only consecutive positions are released. -/
lemma settle_run (h : xs.length ≤ cap) :
    (settle cap base xs).1.map Prod.fst =
        List.range' base (settle cap base xs).1.length ∧
      (settle cap base xs).2.1 = base + (settle cap base xs).1.length := by
  induction xs generalizing base with
  | nil => exact ⟨rfl, rfl⟩
  | cons x xs ih =>
    have hlen : xs.length < cap := h
    by_cases hx : x.1 = base
    · obtain ⟨hrun, hend⟩ := ih (x.1 + 1) hlen.le
      rw [settle_release (.inl hx)]
      dsimp only
      rw [List.map_cons, hrun, hend, List.length_cons, List.range'_succ, hx]
      exact ⟨rfl, by omega⟩
    · rw [settle_keep hx hlen]
      exact ⟨rfl, rfl⟩

/-- The item that is expected next releases itself first. -/
lemma settle_run_next {x : ℕ × α} (hx : x.1 = base) (h : xs.length ≤ cap) :
    (settle cap base (x :: xs)).1.map Prod.fst =
        List.range' base (settle cap base (x :: xs)).1.length ∧
      (settle cap base (x :: xs)).2.1 = base + (settle cap base (x :: xs)).1.length := by
  obtain ⟨hrun, hend⟩ := settle_run (x.1 + 1) h
  rw [settle_release (.inl hx)]
  dsimp only
  rw [List.map_cons, hrun, hend, List.length_cons, List.range'_succ, hx]
  exact ⟨rfl, by omega⟩

end Settle

namespace Buffer

def offerAll (b : Buffer α cap size) (xs : List (ℕ × α)) : Buffer α cap size :=
  xs.foldl offer b

@[simp] lemma offerAll_nil (b : Buffer α cap size) : b.offerAll [] = b := rfl

@[simp] lemma offerAll_concat (b : Buffer α cap size) (xs : List (ℕ × α)) (x : ℕ × α) :
    b.offerAll (xs ++ [x]) = (b.offerAll xs).offer x :=
  List.foldl_concat ..

/-- Nothing has been given up: everything before the base has been released, and everything that
has arrived beyond it is kept. -/
structure CaughtUp (b : Buffer α cap size) (xs : List (ℕ × α)) : Prop where
  released_eq : positions b.released = List.range b.base
  first : ∀ y ∈ b.released ++ b.pending, firstAt xs y.1 = some y
  arrived : ∀ x ∈ xs, x.1 < b.base ∨ ∃ y ∈ b.pending, y.1 = x.1

section Offer
variable {b : Buffer α cap size} {xs : List (ℕ × α)} {x : ℕ × α}

lemma CaughtUp.base_not_mem (h : b.CaughtUp xs) : b.base ∉ positions xs := by
  intro hmem
  obtain ⟨x, hx, he⟩ := List.mem_map.mp hmem
  rcases h.arrived x hx with hlt | ⟨y, hy, hyx⟩
  · omega
  · have := b.ordered.le_of_mem hy
    omega

lemma CaughtUp.mem_of_lt (h : b.CaughtUp xs) {p : ℕ} (hp : p < b.base) : p ∈ positions xs := by
  have hmem : p ∈ positions b.released := by
    rw [h.released_eq]
    exact List.mem_range.mpr hp
  obtain ⟨y, hy, rfl⟩ := List.mem_map.mp hmem
  exact mem_positions (firstAt_mem (h.first y (List.mem_append_left _ hy))).1

/-- A duplicate changes nothing. -/
lemma CaughtUp.duplicate (h : b.CaughtUp xs) (hx : x.1 ∈ positions xs) :
    (b.offer x).CaughtUp (xs ++ [x]) := by
  have hsame : (b.offer x).base = b.base ∧ (b.offer x).pending = b.pending ∧
      (b.offer x).released = b.released := by
    by_cases hwindow : b.base ≤ x.1 ∧ x.1 < b.base + size
    · obtain ⟨z, hz, hzx⟩ := List.mem_map.mp hx
      have htaken : ∃ y ∈ b.pending, y.1 = x.1 := by
        rcases h.arrived z hz with hlt | ⟨y, hy, hyz⟩
        · omega
        · exact ⟨y, hy, hyz.trans hzx⟩
      obtain ⟨hbase, hpending, hreleased⟩ := offer_of_mem hwindow
      rw [place_of_taken b.ordered htaken] at hbase hpending hreleased
      have hsettled : settle cap b.base b.pending = ([], b.base, b.pending) := by
        have hordered := b.ordered
        have hlen := b.length_le
        generalize b.pending = pending at hordered hlen
        cases pending with
        | nil => rfl
        | cons y ys => exact settle_keep (by have := hordered.1; omega) hlen
      rw [hsettled] at hbase hpending hreleased
      exact ⟨hbase, hpending, by simpa using hreleased⟩
    · rw [offer_of_not_mem hwindow]
      exact ⟨rfl, rfl, rfl⟩
  obtain ⟨hbase, hpending, hreleased⟩ := hsame
  refine ⟨?_, ?_, ?_⟩
  · rw [hreleased, hbase]
    exact h.released_eq
  · rw [hreleased, hpending]
    exact fun y hy => firstAt_append (h.first y hy)
  · intro z hz
    rw [hbase, hpending]
    rcases List.mem_append.mp hz with hz | hz
    · exact h.arrived z hz
    · rw [List.mem_singleton.mp hz]
      obtain ⟨u, hu, hux⟩ := List.mem_map.mp hx
      rw [← hux]
      exact h.arrived u hu

/-- A new item is released, or is kept if there is room for it. -/
lemma CaughtUp.new (h : b.CaughtUp xs) (hx : x.1 ∉ positions xs) (hsize : x.1 < b.base + size)
    (hroom : x.1 ≠ b.base → b.pending.length < cap) : (b.offer x).CaughtUp (xs ++ [x]) := by
  have hle : b.base ≤ x.1 := by
    by_contra hlt
    exact hx (h.mem_of_lt (not_le.mp hlt))
  have hfree : ∀ y ∈ b.pending, y.1 ≠ x.1 := by
    intro y hy he
    rw [← he] at hx
    exact hx (mem_positions (firstAt_mem (h.first y (List.mem_append_right _ hy))).1)
  obtain ⟨hbase, hpending, hreleased⟩ := offer_of_mem ⟨hle, hsize⟩
  have hperm := place_perm hfree
  have happend := settle_append cap b.base (place x b.pending)
  obtain ⟨hmono, -, hbefore, -⟩ :=
    settle_spec cap ((b.ordered.weaken (Nat.le_succ _)).place hle)
  have hrun : (settle cap b.base (place x b.pending)).1.map Prod.fst =
        List.range' b.base (settle cap b.base (place x b.pending)).1.length ∧
      (settle cap b.base (place x b.pending)).2.1 =
        b.base + (settle cap b.base (place x b.pending)).1.length := by
    by_cases hnext : x.1 = b.base
    · have hfront : place x b.pending = x :: b.pending := by
        refine place_of_forall_lt fun y hy => ?_
        have := b.ordered.le_of_mem hy
        omega
      rw [hfront]
      exact settle_run_next hnext b.length_le
    · refine settle_run _ ?_
      rw [hperm.length_eq]
      exact hroom hnext
  generalize settle cap b.base (place x b.pending) = r at *
  have hall : ∀ y, y ∈ r.1 ++ r.2.2 ↔ y = x ∨ y ∈ b.pending := by
    intro y
    rw [happend, hperm.mem_iff, List.mem_cons]
  refine ⟨?_, ?_, ?_⟩
  · have happ := @List.range'_append_1 0 b.base r.1.length
    rw [Nat.zero_add] at happ
    rw [hreleased, hbase, hrun.2, positions_append, h.released_eq, positions, hrun.1,
      List.range_eq_range', List.range_eq_range', happ]
  · intro y hy
    rw [hreleased, hpending, List.append_assoc] at hy
    rcases List.mem_append.mp hy with hy | hy
    · exact firstAt_append (h.first y (List.mem_append_left _ hy))
    · rcases (hall y).mp hy with rfl | hy
      · exact firstAt_concat hx
      · exact firstAt_append (h.first y (List.mem_append_right _ hy))
  · intro z hz
    have hkept : z.1 < b.base ∨ ∃ y ∈ r.1 ++ r.2.2, y.1 = z.1 := by
      rcases List.mem_append.mp hz with hz | hz
      · rcases h.arrived z hz with hlt | ⟨y, hy, he⟩
        · exact .inl hlt
        · exact .inr ⟨y, (hall y).mpr (.inr hy), he⟩
      · exact .inr ⟨x, (hall x).mpr (.inl rfl), by rw [List.mem_singleton.mp hz]⟩
    rw [hbase, hpending]
    rcases hkept with hlt | ⟨y, hy, he⟩
    · exact .inl (hlt.trans_le hmono)
    · rcases List.mem_append.mp hy with hy | hy
      · exact .inl (he ▸ hbefore y hy)
      · exact .inr ⟨y, hy, he⟩

end Offer

section Arrivals
variable {xs : List (ℕ × α)} {n : ℕ}

/-- The items are those of the first positions, each arrives while it is in the window, and no more
items arrive beyond it before than the buffer can hold. -/
structure Tolerable (cap size n : ℕ) (xs : List (ℕ × α)) : Prop where
  only : ∀ x ∈ xs, x.1 < n
  complete : ∀ p < n, p ∈ positions xs
  inWindow : ∀ pre x post, xs = pre ++ x :: post → x.1 ∉ positions pre →
    x.1 < ((empty α cap size).offerAll pre).base + size
  late : ∀ pre x post, xs = pre ++ x :: post → x.1 ∉ positions pre →
    ((positions pre).dedup.filter (x.1 < ·)).length ≤ cap

/-- While a position is missing, there is room for what arrives beyond it. -/
lemma Tolerable.room (h : Tolerable cap size n xs) {b : Buffer α cap size} {pre post : List (ℕ × α)}
    {x : ℕ × α} (hxs : xs = pre ++ x :: post) (hb : b.CaughtUp pre) (hnew : x.1 ∉ positions pre)
    (hne : x.1 ≠ b.base) : b.pending.length < cap := by
  have hlt : b.base < x.1 := by
    by_contra hle
    exact hnew (hb.mem_of_lt (by omega))
  have hxn : x.1 < n := h.only x (by rw [hxs]; simp)
  obtain ⟨pre', z, post', hxs', hz, hmissing⟩ :=
    exists_firstArrival (h.complete b.base (by omega))
  -- everything so far arrives before the position that is missing
  have hbefore : ∃ mid, pre' = (pre ++ [x]) ++ mid := by
    have heq : (pre ++ [x]) ++ post = pre' ++ z :: post' := by
      rw [← hxs', hxs, List.append_assoc, List.singleton_append]
    rcases List.append_eq_append_iff.mp heq with ⟨mid, hmid, -⟩ | ⟨mid, hmid, hrest⟩
    · exact ⟨mid, hmid⟩
    · cases mid with
      | nil => exact ⟨[], by simpa using hmid.symm⟩
      | cons y ys =>
        rw [List.cons_append, List.cons.injEq] at hrest
        have hmem : z ∈ pre ++ [x] := by
          rw [hmid, hrest.1]
          simp
        rcases List.mem_append.mp hmem with hmem | hmem
        · have := mem_positions hmem
          rw [hz] at this
          exact absurd this hb.base_not_mem
        · rw [List.mem_singleton.mp hmem] at hz
          exact absurd hz hne
  obtain ⟨mid, rfl⟩ := hbefore
  have hcount := h.late _ z post' hxs' (by rw [hz]; exact hmissing)
  have hnodup : (x.1 :: positions b.pending).Nodup := by
    have hpairwise := b.ordered.pairwise
    refine List.nodup_cons.mpr ⟨fun hmem => ?_, ?_⟩
    · obtain ⟨y, hy, he⟩ := List.mem_map.mp hmem
      rw [← he] at hnew
      exact hnew (mem_positions (firstAt_mem (hb.first y (List.mem_append_right _ hy))).1)
    · rw [List.Nodup, positions, List.pairwise_map]
      exact hpairwise.imp fun hlt => hlt.ne
  have hsubset : x.1 :: positions b.pending ⊆
      (positions ((pre ++ [x]) ++ mid)).dedup.filter (z.1 < ·) := by
    intro p hp
    rw [List.mem_filter, List.mem_dedup, positions_append, positions_append, hz]
    rcases List.mem_cons.mp hp with rfl | hp
    · simp [positions, hlt]
    · obtain ⟨y, hy, rfl⟩ := List.mem_map.mp hp
      have hmem := mem_positions (firstAt_mem (hb.first y (List.mem_append_right _ hy))).1
      have hgt := b.ordered.le_of_mem hy
      simp [hmem, show b.base < y.1 by omega]
  have hle := (hnodup.subperm hsubset).length_le
  rw [List.length_cons, positions, List.length_map] at hle
  omega

lemma Tolerable.caughtUp (h : Tolerable cap size n xs) {pre post : List (ℕ × α)}
    (hxs : xs = pre ++ post) : ((empty α cap size).offerAll pre).CaughtUp pre := by
  induction pre using List.reverseRecOn generalizing post with
  | nil => exact ⟨rfl, by simp [empty], by simp⟩
  | append_singleton pre x ih =>
    rw [List.append_assoc, List.singleton_append] at hxs
    have hb := ih hxs
    rw [offerAll_concat]
    by_cases hx : x.1 ∈ positions pre
    · exact hb.duplicate hx
    · exact hb.new hx (h.inWindow pre x post hxs hx) (h.room hxs hb hx)

/-- All items are released in order, as they arrived first, and nothing is kept. -/
theorem Tolerable.released (h : Tolerable cap size n xs) :
    ((empty α cap size).offerAll xs).base = n ∧ ((empty α cap size).offerAll xs).pending = [] ∧
      positions ((empty α cap size).offerAll xs).released = List.range n ∧
      ((empty α cap size).offerAll xs).released.map some = (List.range n).map (firstAt xs) := by
  have hb := h.caughtUp (List.append_nil xs).symm
  generalize (empty α cap size).offerAll xs = b at hb
  have hle : b.base ≤ n := by
    by_contra hgt
    obtain ⟨x, hx, he⟩ := List.mem_map.mp (hb.mem_of_lt (not_le.mp hgt))
    have := h.only x hx
    omega
  have hbase : b.base = n := by
    by_contra hne
    exact hb.base_not_mem (h.complete b.base (by omega))
  refine ⟨hbase, ?_, by rw [hb.released_eq, hbase], ?_⟩
  · refine List.eq_nil_iff_forall_not_mem.mpr fun y hy => ?_
    have hgt := b.ordered.le_of_mem hy
    have hlt := h.only y (firstAt_mem (hb.first y (List.mem_append_right _ hy))).1
    omega
  · rw [← hbase, ← hb.released_eq, positions, List.map_map]
    exact List.map_congr_left fun y hy => (hb.first y (List.mem_append_left _ hy)).symm

end Arrivals

end Buffer

end Redpine.Reorder

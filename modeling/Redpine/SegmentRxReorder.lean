import Redpine.Reorder
import Redpine.SegmentRx

/-! The receiver's segment window is a reorder buffer of capacity two: the base ID and the
slots are those of the buffer, and the histories record what it has released. -/
namespace Redpine
open Machine Buffer SerialId Reorder

structure Segment where
  nonce : Bool
  data : Bytes
  deriving DecidableEq, Repr

namespace SegmentRx

/-- The bytes handed to the callback. -/
def dataOf (xs : List (ℕ × Segment)) : List Bytes := xs.map (·.2.data)

structure SlotHolds (slot : Slot) (base0 : U32) (x : ℕ × Segment) : Prop where
  id_eq : slot.id = idAt base0 x.1
  nonce_eq : slot.nonce = x.2.nonce
  data_eq : slotData slot = .ok x.2.data

def Holds (s : SegmentRx) (base0 : U32) : List (ℕ × Segment) → Prop
  | [] => s.len = 0
  | [x] => s.len = 1 ∧ SlotHolds s.slot0 base0 x
  | [x, y] => s.len = 2 ∧ SlotHolds s.slot0 base0 x ∧ SlotHolds s.slot1 base0 y
  | _ => False

/-- Bit `i` of the histories is about the position `i + 1` before the base. -/
structure History (s : SegmentRx) (base : ℕ) (released : List (ℕ × Segment)) : Prop where
  rxBit : ∀ i < 32, s.rxHistory.getLsbD i = true ↔ ∃ x ∈ released, x.1 + 1 + i = base
  nonceBit : ∀ i < 32, s.nonceHistory.getLsbD i = true ↔
    ∃ x ∈ released, x.1 + 1 + i = base ∧ x.2.nonce = true

structure Tracks (s : SegmentRx) (base0 : U32) (size slotSize base : ℕ)
    (released : List (ℕ × Segment)) : Prop where
  baseId_eq : s.window.baseId = idAt base0 base
  size_eq : s.window.size.toNat = size
  slot0_size : s.slot0.data.length = slotSize
  slot1_size : s.slot1.data.length = slotSize
  history : s.History base released
  before : ∀ x ∈ released, x.1 < base

structure Mirrors {size : ℕ} (s : SegmentRx) (base0 : U32) (slotSize : ℕ)
    (b : Reorder.Buffer Segment 2 size) : Prop where
  tracks : s.Tracks base0 size slotSize b.base b.released
  holds : s.Holds base0 b.pending

/-- A window that takes up at most half of the IDs tells old segments from new ones. -/
structure Models {size : ℕ} (s : SegmentRx) (base0 : U32) (slotSize : ℕ)
    (b : Reorder.Buffer Segment 2 size) : Prop where
  tracks : s.Tracks base0 size slotSize b.base b.released
  holds : s.Holds base0 b.pending
  size_le : size ≤ 2 ^ 31

section History
variable {s : SegmentRx} {base : ℕ} {released : List (ℕ × Segment)}

lemma pushHistorySkips_bits (s : SegmentRx) (count : U32) {i : ℕ} (hi : i < 32) :
    (s.pushHistorySkips count).rxHistory.getLsbD i =
        (decide (count.toNat ≤ i) && s.rxHistory.getLsbD (i - count.toNat)) ∧
      (s.pushHistorySkips count).nonceHistory.getLsbD i =
        (decide (count.toNat ≤ i) && s.nonceHistory.getLsbD (i - count.toNat)) := by
  unfold pushHistorySkips
  by_cases hc : count < 32
  · have hnot : (!decide (i < count.toNat)) = decide (count.toNat ≤ i) := by
      rw [← decide_not, decide_eq_decide, not_lt]
    rw [if_pos hc]
    simp only [BitVec.getLsbD_shiftLeft, hi, decide_true, Bool.true_and, hnot, and_self]
  · have hlt : ¬ count.toNat ≤ i := by
      simp only [BitVec.lt_def, BitVec.reduceToNat] at hc
      omega
    rw [if_neg hc]
    simp [hlt]

lemma History.skips (h : s.History base released) (hb : ∀ x ∈ released, x.1 < base)
    (count : U32) : (s.pushHistorySkips count).History (base + count.toNat) released := by
  constructor
  · intro i hi
    rw [(s.pushHistorySkips_bits count hi).1, Bool.and_eq_true, decide_eq_true_eq]
    constructor
    · rintro ⟨hle, hbit⟩
      obtain ⟨x, hx, he⟩ := (h.rxBit _ (by omega)).mp hbit
      exact ⟨x, hx, by omega⟩
    · rintro ⟨x, hx, he⟩
      have := hb x hx
      exact ⟨by omega, (h.rxBit _ (by omega)).mpr ⟨x, hx, by omega⟩⟩
  · intro i hi
    rw [(s.pushHistorySkips_bits count hi).2, Bool.and_eq_true, decide_eq_true_eq]
    constructor
    · rintro ⟨hle, hbit⟩
      obtain ⟨x, hx, he, hn⟩ := (h.nonceBit _ (by omega)).mp hbit
      exact ⟨x, hx, by omega, hn⟩
    · rintro ⟨x, hx, he, hn⟩
      have := hb x hx
      exact ⟨by omega, (h.nonceBit _ (by omega)).mpr ⟨x, hx, by omega, hn⟩⟩

lemma pushHistoryAck_bits (s : SegmentRx) (nonce : Bool) {i : ℕ} (hi : i < 32) :
    (s.pushHistoryAck nonce).rxHistory.getLsbD i =
        (decide (i = 0) || s.rxHistory.getLsbD (i - 1) && decide (0 < i)) ∧
      (s.pushHistoryAck nonce).nonceHistory.getLsbD i =
        (decide (i = 0) && nonce || s.nonceHistory.getLsbD (i - 1) && decide (0 < i)) := by
  unfold pushHistoryAck
  cases i with
  | zero => cases nonce <;> simp
  | succ i =>
    have hpred : i < 32 := by omega
    cases nonce <;> simp [hi, BitVec.getLsbD_eq_getElem hpred]

lemma History.ack (h : s.History base released) (hb : ∀ x ∈ released, x.1 < base)
    (seg : Segment) :
    (s.pushHistoryAck seg.nonce).History (base + 1) (released ++ [(base, seg)]) := by
  constructor
  · intro i hi
    rw [(s.pushHistoryAck_bits seg.nonce hi).1]
    cases i with
    | zero => simp
    | succ i =>
      have hbit := h.rxBit i (by omega)
      simp only [Nat.add_eq_zero_iff, one_ne_zero, and_false, decide_false, Bool.false_or,
        Nat.add_sub_cancel, Nat.zero_lt_succ, decide_true, Bool.and_true, hbit]
      constructor
      · rintro ⟨x, hx, he⟩
        exact ⟨x, List.mem_append_left _ hx, by omega⟩
      · rintro ⟨x, hx, he⟩
        rcases List.mem_append.mp hx with hx | hx
        · exact ⟨x, hx, by omega⟩
        · rw [List.mem_singleton.mp hx] at he
          simp only at he
          omega
  · intro i hi
    rw [(s.pushHistoryAck_bits seg.nonce hi).2]
    cases i with
    | zero =>
      simp only [decide_true, Bool.true_and, Nat.lt_irrefl, decide_false, Bool.and_false,
        Bool.or_false]
      constructor
      · intro hn
        exact ⟨(base, seg), by simp, rfl, hn⟩
      · rintro ⟨x, hx, he, hn⟩
        rcases List.mem_append.mp hx with hx | hx
        · have := hb x hx
          omega
        · rwa [List.mem_singleton.mp hx] at hn
    | succ i =>
      have hbit := h.nonceBit i (by omega)
      simp only [Nat.add_eq_zero_iff, one_ne_zero, and_false, decide_false, Bool.false_and,
        Bool.false_or, Nat.add_sub_cancel, Nat.zero_lt_succ, decide_true, Bool.and_true, hbit]
      constructor
      · rintro ⟨x, hx, he, hn⟩
        exact ⟨x, List.mem_append_left _ hx, by omega, hn⟩
      · rintro ⟨x, hx, he, hn⟩
        rcases List.mem_append.mp hx with hx | hx
        · exact ⟨x, hx, by omega, hn⟩
        · rw [List.mem_singleton.mp hx] at he
          simp only at he
          omega

end History

section Slots

@[simp] lemma pushHistorySkips_frame (s : SegmentRx) (count : U32) :
    (s.pushHistorySkips count).len = s.len ∧ (s.pushHistorySkips count).slot0 = s.slot0 ∧
      (s.pushHistorySkips count).slot1 = s.slot1 ∧
      (s.pushHistorySkips count).window = s.window := by
  unfold pushHistorySkips
  split_ifs <;> exact ⟨rfl, rfl, rfl, rfl⟩

@[simp] lemma pushHistorySkips_zero (s : SegmentRx) : s.pushHistorySkips 0 = s := by
  simp [pushHistorySkips]

lemma Holds.congr {s s' : SegmentRx} {base0 : U32} {xs : List (ℕ × Segment)}
    (h : s.Holds base0 xs) (hlen : s'.len = s.len) (h0 : s'.slot0 = s.slot0)
    (h1 : s'.slot1 = s.slot1) : s'.Holds base0 xs := by
  rcases xs with _ | ⟨x, _ | ⟨y, _ | ⟨z, zs⟩⟩⟩
  · exact hlen.trans h
  · exact ⟨hlen.trans h.1, h0 ▸ h.2⟩
  · exact ⟨hlen.trans h.1, h0 ▸ h.2.1, h1 ▸ h.2.2⟩
  · exact h

lemma Holds.len_eq {s : SegmentRx} {base0 : U32} {xs : List (ℕ × Segment)}
    (h : s.Holds base0 xs) : s.len = xs.length := by
  rcases xs with _ | ⟨x, _ | ⟨y, _ | ⟨z, zs⟩⟩⟩
  · exact h
  · exact h.1
  · exact h.1
  · exact h.elim

/-- A slot keeps what is saved to it. -/
lemma saveSegment_holds (slot : Slot) (base0 : U32) (p : ℕ) (seg : Segment)
    (hfit : seg.data.length ≤ slot.data.length) :
    ∃ slot', saveSegment slot (idAt base0 p) seg.nonce seg.data = .ok slot' ∧
      slot'.data.length = slot.data.length ∧ SlotHolds slot' base0 (p, seg) := by
  unfold saveSegment
  rw [if_pos hfit]
  refine ⟨_, rfl, ?_, rfl, rfl, ?_⟩
  · simp only [List.length_append, List.length_drop]
    omega
  · unfold slotData
    rw [slice_of_le (Nat.zero_le _) (by simp)]
    simp

end Slots

section Deliver
variable {bd : Build} {s : SegmentRx} {base0 : U32} {size slotSize base : ℕ}
  {released : List (ℕ × Segment)}

/-- Skipping to a segment and delivering it. -/
lemma Tracks.deliver (h : s.Tracks base0 size slotSize base released) {x : ℕ × Segment}
    (hle : base ≤ x.1) {delta : U32} (hdelta : delta.toNat = x.1 - base) :
    (((s.pushHistorySkips delta).pushHistoryAck x.2.nonce).advanceWindowPast
      (idAt base0 x.1)).Tracks base0 size slotSize (x.1 + 1) (released ++ [x]) := by
  obtain ⟨-, h0, h1, hw⟩ := s.pushHistorySkips_frame delta
  have hskip := h.history.skips h.before delta
  rw [hdelta, Nat.add_sub_cancel' hle] at hskip
  have hbefore : ∀ y ∈ released, y.1 < x.1 := fun y hy => (h.before y hy).trans_le hle
  have hack := hskip.ack hbefore x.2
  refine ⟨(idAt_succ _ _).symm, ?_, ?_, ?_, ⟨hack.rxBit, hack.nonceBit⟩, ?_⟩
  · change (s.pushHistorySkips delta).window.size.toNat = size
    rw [hw]
    exact h.size_eq
  · change (s.pushHistorySkips delta).slot0.data.length = slotSize
    rw [h0]
    exact h.slot0_size
  · change (s.pushHistorySkips delta).slot1.data.length = slotSize
    rw [h1]
    exact h.slot1_size
  · intro y hy
    rcases List.mem_append.mp hy with hy | hy
    · exact (hbefore y hy).trans (Nat.lt_succ_self _)
    · rw [List.mem_singleton.mp hy]
      exact Nat.lt_succ_self _

/-- Delivering the segment that is expected next. -/
lemma Tracks.deliverNext (h : s.Tracks base0 size slotSize base released) {x : ℕ × Segment}
    (hx : x.1 = base) :
    ((s.pushHistoryAck x.2.nonce).advanceWindowPast (idAt base0 x.1)).Tracks base0 size slotSize
      (x.1 + 1) (released ++ [x]) := by
  have hzero : (0 : U32).toNat = x.1 - base := by simp [hx]
  have hd := h.deliver hx.ge hzero
  rwa [pushHistorySkips_zero] at hd

lemma Holds.head {x : ℕ × Segment} {xs : List (ℕ × Segment)} (h : s.Holds base0 (x :: xs)) :
    SlotHolds s.slot0 base0 x ∧ xs.length < 2 := by
  rcases xs with _ | ⟨y, _ | ⟨z, zs⟩⟩
  · exact ⟨h.2, by simp⟩
  · exact ⟨h.2.1, by simp⟩
  · exact h.elim

variable (bd) in
/-- One pass of the loop at the end of `receive`. -/
lemma drainStep_spec {x : ℕ × Segment} {xs : List (ℕ × Segment)}
    (h : s.Tracks base0 size slotSize base released) (hh : s.Holds base0 (x :: xs))
    (hx : x.1 = base) :
    ∃ s', s.drainStep bd = .ok (s', x.2.data) ∧
      s'.Tracks base0 size slotSize (x.1 + 1) (released ++ [x]) ∧ s'.Holds base0 xs := by
  have hslot := hh.head.1
  have ht := h.deliverNext hx
  rw [← hslot.id_eq, ← hslot.nonce_eq] at ht
  unfold drainStep
  simp only [hslot.data_eq, ok_bind]
  rcases xs with _ | ⟨y, _ | ⟨z, zs⟩⟩
  · have h1 : s.len = 1 := hh.1
    simp only [pure_eq_ok, ok_bind, advanceWindowPast, pushHistoryAck, h1]
    exact ⟨_, rfl, ⟨ht.1, ht.2, ht.3, ht.4, ⟨ht.5.1, ht.5.2⟩, ht.6⟩, rfl⟩
  · have h2 : s.len = 2 := hh.1
    simp only [swapSlots, advanceWindowPast, pushHistoryAck, h2, debugAssert_true, ok_bind,
      pure_eq_ok]
    exact ⟨_, rfl, ⟨ht.1, ht.2, ht.4, ht.3, ⟨ht.5.1, ht.5.2⟩, ht.6⟩, rfl, hh.2.2⟩
  · exact hh.elim

variable (bd) in
/-- The loop at the end of `receive` releases what `settle` releases. -/
lemma drainLoop_spec {xs : List (ℕ × Segment)} (h : s.Tracks base0 size slotSize base released)
    (hh : s.Holds base0 xs) (ho : Ordered base xs) (hw : ∀ x ∈ xs, x.1 < base + 2 ^ 32)
    (out : List Bytes) :
    ∃ s', drainLoop bd s.len s out = .ok (s', out ++ dataOf (settle 2 base xs).1) ∧
      s'.Tracks base0 size slotSize (settle 2 base xs).2.1
        (released ++ (settle 2 base xs).1) ∧
      s'.Holds base0 (settle 2 base xs).2.2 := by
  induction xs generalizing s base released out with
  | nil =>
    have hlen : s.len = 0 := hh
    refine ⟨s, ?_, by simpa [settle] using h, hh⟩
    unfold drainLoop
    simp [hlen, settle, dataOf]
  | cons x xs ih =>
    obtain ⟨hslot, hcap⟩ := hh.head
    have hlen : s.len = xs.length + 1 := hh.len_eq
    have hidx : s.slot0.id = s.window.baseId ↔ x.1 = base := by
      have := ho.1
      have := hw x List.mem_cons_self
      rw [hslot.id_eq, h.baseId_eq]
      exact idAt_inj base0 (by omega) (by omega)
    unfold settle
    by_cases hx : x.1 = base
    · rw [if_pos (.inl hx), hlen]
      obtain ⟨s1, hstep, ht1, hh1⟩ := drainStep_spec bd h hh hx
      have hwin : ∀ y ∈ xs, y.1 < x.1 + 1 + 2 ^ 32 := by
        intro y hy
        have := hw y (List.mem_cons_of_mem _ hy)
        omega
      obtain ⟨s', hok, ht', hh'⟩ := ih ht1 hh1 ho.2 hwin (out ++ [x.2.data])
      rw [hh1.len_eq] at hok
      refine ⟨s', ?_, by simpa using ht', hh'⟩
      unfold drainLoop
      rw [if_pos ⟨by omega, hidx.mpr hx⟩]
      simp only [hstep, ok_bind, hok]
      simp [dataOf]
    · have hkeep : ¬ (x.1 = base ∨ 2 ≤ xs.length) := by omega
      rw [if_neg hkeep]
      refine ⟨s, ?_, by simpa using h, hh⟩
      unfold drainLoop
      rw [if_neg (fun hc => hx (hidx.mp hc.2))]
      simp [dataOf]

end Deliver

section Receive
variable {bd : Build} {s : SegmentRx} {base0 : U32} {size slotSize base : ℕ}
  {released pending : List (ℕ × Segment)} {x : ℕ × Segment}

lemma Tracks.contains_iff (h : s.Tracks base0 size slotSize base released) {p : ℕ}
    (hold : base ≤ p + (2 ^ 32 - size)) (hnew : p < base + 2 ^ 32) :
    s.window.contains (idAt base0 p) = true ↔ base ≤ p ∧ p < base + size := by
  simp only [Window.contains, decide_eq_true_eq, BitVec.lt_def, h.baseId_eq, h.size_eq]
  exact sub_lt_iff base0 hold hnew

/-- The distance of a position from the base. -/
lemma Tracks.sub_base (h : s.Tracks base0 size slotSize base released) {p : ℕ}
    (hle : base ≤ p) (hlt : p < base + 2 ^ 32) :
    (idAt base0 p - s.window.baseId).toNat = p - base := by
  rw [h.baseId_eq]
  exact toNat_sub_of_le base0 hle (by omega)

variable (bd) in
/-- The two slots are put in order. -/
lemma swapSlotsIfBackward_spec (h : s.Tracks base0 size slotSize base released)
    {a c : ℕ × Segment} (hlen : s.len = 2) (ha : SlotHolds s.slot0 base0 a)
    (hc : SlotHolds s.slot1 base0 c) (hab : base ≤ a.1 ∧ a.1 < base + 2 ^ 32)
    (hcb : base ≤ c.1 ∧ c.1 < base + 2 ^ 32) :
    ∃ s', s.swapSlotsIfBackward bd = .ok s' ∧ s'.Tracks base0 size slotSize base released ∧
      s'.Holds base0 (if c.1 < a.1 then [c, a] else [a, c]) := by
  have hlt : s.slot1.id - s.window.baseId < s.slot0.id - s.window.baseId ↔ c.1 < a.1 := by
    rw [BitVec.lt_def, ha.id_eq, hc.id_eq, h.sub_base hab.1 hab.2, h.sub_base hcb.1 hcb.2]
    omega
  unfold swapSlotsIfBackward
  simp only [hlen, debugAssert_true, ok_bind, hlt]
  by_cases hca : c.1 < a.1
  · simp only [if_pos hca, swapSlots, hlen, debugAssert_true, ok_bind, pure_eq_ok]
    exact ⟨_, rfl, ⟨h.1, h.2, h.4, h.3, ⟨h.5.1, h.5.2⟩, h.6⟩, rfl, hc, ha⟩
  · simp only [if_neg hca]
    exact ⟨s, rfl, h, hlen, ha, hc⟩

/-- An operation releases the first part of `out`, moves the base to the second and keeps
the third. -/
def Delivers (r : Exec (SegmentRx × List Bytes)) (base0 : U32) (size slotSize : ℕ)
    (released : List (ℕ × Segment))
    (out : List (ℕ × Segment) × ℕ × List (ℕ × Segment)) : Prop :=
  ∃ s', r = .ok (s', dataOf out.1) ∧
    s'.Tracks base0 size slotSize out.2.1 (released ++ out.1) ∧ s'.Holds base0 out.2.2

/-- The segment that is expected next. -/
lemma receive_next (h : s.Tracks base0 size slotSize base released)
    (hh : s.Holds base0 pending) (ho : Ordered (base + 1) pending)
    (hw : ∀ y ∈ pending, y.1 < base + 2 ^ 32)
    (hcontains : s.window.contains (idAt base0 x.1) = true) (hx : x.1 = base) :
    Delivers (s.receive bd (idAt base0 x.1) x.2.nonce x.2.data) base0 size slotSize released
      (settle 2 base (place x pending)) := by
  have hplace : place x pending = x :: pending := by
    refine place_of_forall_lt (fun y hy => ?_)
    have := ho.le_of_mem hy
    omega
  have ht := h.deliverNext hx
  have hh' : ((s.pushHistoryAck x.2.nonce).advanceWindowPast (idAt base0 x.1)).Holds base0
      pending := hh.congr rfl rfl rfl
  have ho' : Ordered (x.1 + 1) pending := ho.weaken (by omega)
  have hw' : ∀ y ∈ pending, y.1 < x.1 + 1 + 2 ^ 32 := by
    intro y hy
    have := hw y hy
    omega
  obtain ⟨s', hok, ht', hh''⟩ := drainLoop_spec bd ht hh' ho' hw' [x.2.data]
  rw [hplace, settle_release (.inl hx)]
  unfold receive
  rw [if_pos hcontains, if_pos (by rw [hx, h.baseId_eq])]
  exact ⟨s', hok, by simpa using ht', hh''⟩

/-- A segment ahead of the base, with nothing in the slots. -/
lemma receive_empty (h : s.Tracks base0 size slotSize base released) (hlen : s.len = 0)
    (hcontains : s.window.contains (idAt base0 x.1) = true)
    (hne : idAt base0 x.1 ≠ s.window.baseId) (hx : x.1 ≠ base)
    (hfit : x.2.data.length ≤ slotSize) :
    Delivers (s.receive bd (idAt base0 x.1) x.2.nonce x.2.data) base0 size slotSize released
      (settle 2 base (place x [])) := by
  obtain ⟨slot', hsave, hsl, hold⟩ := saveSegment_holds s.slot0 base0 x.1 x.2
    (by rw [h.slot0_size]; exact hfit)
  unfold receive
  rw [if_pos hcontains, if_neg hne, if_pos hlen, hsave, place, settle_keep hx (by simp)]
  refine ⟨_, rfl, ?_, rfl, hold⟩
  exact ⟨h.1, h.2, hsl.trans h.3, h.4, by simpa using ⟨h.5.1, h.5.2⟩, by simpa using h.6⟩

/-- A segment ahead of the base, with one slot in use. -/
lemma receive_one {y : ℕ × Segment} (h : s.Tracks base0 size slotSize base released)
    (hh : s.Holds base0 [y]) (hy : base < y.1 ∧ y.1 < base + 2 ^ 32)
    (hcontains : s.window.contains (idAt base0 x.1) = true)
    (hne : idAt base0 x.1 ≠ s.window.baseId) (hx : base < x.1 ∧ x.1 < base + 2 ^ 32)
    (hfit : x.2.data.length ≤ slotSize) :
    Delivers (s.receive bd (idAt base0 x.1) x.2.nonce x.2.data) base0 size slotSize released
      (settle 2 base (place x [y])) := by
  obtain ⟨hlen, hslot⟩ := hh
  have hid : s.slot0.id = idAt base0 x.1 ↔ y.1 = x.1 := by
    rw [hslot.id_eq]
    exact idAt_inj base0 (by omega) (by omega)
  unfold receive
  rw [if_pos hcontains, if_neg hne, if_neg (by omega), if_pos hlen]
  by_cases hyx : y.1 = x.1
  · rw [if_neg (not_not.mpr (hid.mpr hyx)), place_of_eq hyx.symm,
      settle_keep (by omega) (by simp)]
    exact ⟨s, rfl, by simpa using h, hlen, hslot⟩
  · obtain ⟨slot', hsave, hsl, hold⟩ := saveSegment_holds s.slot1 base0 x.1 x.2
      (by rw [h.slot1_size]; exact hfit)
    have ht : SegmentRx.Tracks { s with slot1 := slot', len := 2 } base0 size slotSize base
        released := ⟨h.1, h.2, h.3, hsl.trans h.4, ⟨h.5.1, h.5.2⟩, h.6⟩
    obtain ⟨s', hswap, ht', hh'⟩ := swapSlotsIfBackward_spec bd ht rfl hslot hold
      ⟨hy.1.le, hy.2⟩ ⟨hx.1.le, hx.2⟩
    have hsettle : settle 2 base (place x [y]) =
        ([], base, if x.1 < y.1 then [x, y] else [y, x]) := by
      by_cases hlt : x.1 < y.1
      · rw [place_of_lt hlt, settle_keep (by omega) (by simp), if_pos hlt]
      · rw [place_of_gt (by omega), settle_keep (by omega) (by simp [place]), if_neg hlt, place]
    rw [if_pos (fun he => hyx (hid.mp he)), hsettle]
    simp only [hsave, ok_bind, hswap, pure_eq_ok]
    exact ⟨s', rfl, by simpa using ht', hh'⟩

section Full
variable {y z : ℕ × Segment}

lemma Holds.ids_iff (hh : s.Holds base0 [y, z]) (hy : base < y.1)
    (hz : y.1 < z.1 ∧ z.1 < base + 2 ^ 32) (hx : base < x.1 ∧ x.1 < base + 2 ^ 32) :
    (s.slot0.id = idAt base0 x.1 ↔ y.1 = x.1) ∧ (s.slot1.id = idAt base0 x.1 ↔ z.1 = x.1) := by
  obtain ⟨-, hslot0, hslot1⟩ := hh
  constructor
  · rw [hslot0.id_eq]
    exact idAt_inj base0 (by omega) (by omega)
  · rw [hslot1.id_eq]
    exact idAt_inj base0 (by omega) (by omega)

lemma Tracks.slot0_sub (h : s.Tracks base0 size slotSize base released)
    (hh : s.Holds base0 [y, z]) (hy : base < y.1) (hz : y.1 < z.1 ∧ z.1 < base + 2 ^ 32) :
    (s.slot0.id - s.window.baseId).toNat = y.1 - base := by
  rw [hh.2.1.id_eq]
  exact h.sub_base hy.le (by omega)

/-- The position of the segment is taken. -/
lemma receive_taken (h : s.Tracks base0 size slotSize base released)
    (hh : s.Holds base0 [y, z]) (hy : base < y.1) (hz : y.1 < z.1 ∧ z.1 < base + 2 ^ 32)
    (hcontains : s.window.contains (idAt base0 x.1) = true)
    (hne : idAt base0 x.1 ≠ s.window.baseId) (hx : base < x.1 ∧ x.1 < base + 2 ^ 32)
    (htaken : y.1 = x.1 ∨ z.1 = x.1) :
    Delivers (s.receive bd (idAt base0 x.1) x.2.nonce x.2.data) base0 size slotSize released
      (settle 2 base (place x [y, z])) := by
  have hlen := hh.1
  obtain ⟨hid0, hid1⟩ := hh.ids_iff hy hz hx
  have hplace : place x [y, z] = [y, z] := by
    rcases htaken with he | he
    · exact place_of_eq he.symm
    · rw [place_of_gt (by omega), place_of_eq he.symm]
  have hseen : ¬ (s.slot0.id ≠ idAt base0 x.1 ∧ s.slot1.id ≠ idAt base0 x.1) := by
    rw [Ne, Ne, hid0, hid1]
    tauto
  unfold receive
  rw [if_pos hcontains, if_neg hne, if_neg (by omega), if_neg (by omega), if_pos hlen,
    if_neg hseen, hplace]
  refine drainLoop_spec bd h hh ⟨hy.le, hz.1, trivial⟩ ?_ []
  simp only [List.mem_cons, List.not_mem_nil, or_false, forall_eq_or_imp, forall_eq]
  omega

/-- The segment comes before both that are held, and is released. -/
lemma receive_before (h : s.Tracks base0 size slotSize base released)
    (hh : s.Holds base0 [y, z]) (hy : base < y.1) (hz : y.1 < z.1 ∧ z.1 < base + 2 ^ 32)
    (hcontains : s.window.contains (idAt base0 x.1) = true)
    (hne : idAt base0 x.1 ≠ s.window.baseId) (hx : base < x.1 ∧ x.1 < base + 2 ^ 32)
    (hxy : x.1 < y.1) :
    Delivers (s.receive bd (idAt base0 x.1) x.2.nonce x.2.data) base0 size slotSize released
      (settle 2 base (place x [y, z])) := by
  have hlen := hh.1
  obtain ⟨hid0, hid1⟩ := hh.ids_iff hy hz hx
  have hsub : (idAt base0 x.1 - s.window.baseId).toNat = x.1 - base :=
    h.sub_base hx.1.le hx.2
  have hlt : idAt base0 x.1 - s.window.baseId < s.slot0.id - s.window.baseId := by
    rw [BitVec.lt_def, hsub, h.slot0_sub hh hy hz]
    omega
  have ht := h.deliver hx.1.le hsub
  have hh' : (((s.pushHistorySkips (idAt base0 x.1 - s.window.baseId)).pushHistoryAck
      x.2.nonce).advanceWindowPast (idAt base0 x.1)).Holds base0 [y, z] := by
    obtain ⟨hl, h0, h1, -⟩ := s.pushHistorySkips_frame (idAt base0 x.1 - s.window.baseId)
    exact hh.congr hl h0 h1
  have hw' : ∀ v ∈ [y, z], v.1 < x.1 + 1 + 2 ^ 32 := by
    simp only [List.mem_cons, List.not_mem_nil, or_false, forall_eq_or_imp, forall_eq]
    omega
  obtain ⟨s', hok, ht', hh''⟩ := drainLoop_spec bd ht hh' ⟨hxy, hz.1, trivial⟩ hw' [x.2.data]
  unfold receive
  rw [if_pos hcontains, if_neg hne, if_neg (by omega), if_neg (by omega), if_pos hlen,
    if_pos ⟨fun he => hxy.ne' (hid0.mp he), fun he => (hxy.trans hz.1).ne' (hid1.mp he)⟩,
    place_of_lt hxy, settle_release (.inr (by simp))]
  simp only [if_pos hlt]
  exact ⟨s', hok, by simpa using ht', hh''⟩

/-- The segment comes after the first that is held, which is released and makes room for it. -/
lemma receive_after (h : s.Tracks base0 size slotSize base released)
    (hh : s.Holds base0 [y, z]) (hy : base < y.1) (hz : y.1 < z.1 ∧ z.1 < base + 2 ^ 32)
    (hcontains : s.window.contains (idAt base0 x.1) = true)
    (hne : idAt base0 x.1 ≠ s.window.baseId) (hx : base < x.1 ∧ x.1 < base + 2 ^ 32)
    (hfit : x.2.data.length ≤ slotSize) (hyx : y.1 < x.1) (hzx : z.1 ≠ x.1) :
    Delivers (s.receive bd (idAt base0 x.1) x.2.nonce x.2.data) base0 size slotSize released
      (settle 2 base (place x [y, z])) := by
  obtain ⟨hlen, hslot0, hslot1⟩ := id hh
  obtain ⟨hid0, hid1⟩ := hh.ids_iff hy hz hx
  have hsub : (idAt base0 x.1 - s.window.baseId).toNat = x.1 - base :=
    h.sub_base hx.1.le hx.2
  have hsub0 := h.slot0_sub hh hy hz
  have hge : ¬ idAt base0 x.1 - s.window.baseId < s.slot0.id - s.window.baseId := by
    rw [BitVec.lt_def, hsub, hsub0]
    omega
  have ht := h.deliver hy.le hsub0
  rw [← hslot0.id_eq, ← hslot0.nonce_eq] at ht
  unfold receive
  rw [if_pos hcontains, if_neg hne, if_neg (by omega), if_neg (by omega), if_pos hlen,
    if_pos ⟨fun he => hyx.ne (hid0.mp he), fun he => hzx (hid1.mp he)⟩]
  simp only [if_neg hge, hslot0.data_eq, ok_bind]
  generalize hs1 : ((s.pushHistorySkips (s.slot0.id - s.window.baseId)).pushHistoryAck
    s.slot0.nonce).advanceWindowPast s.slot0.id = s1 at ht
  obtain ⟨hl, h0, h1, -⟩ := s.pushHistorySkips_frame (s.slot0.id - s.window.baseId)
  have hs1len : s1.len = 2 := by rw [← hs1]; exact hl.trans hlen
  have hs1slot1 : SlotHolds s1.slot1 base0 z := by
    rw [← hs1]
    change SlotHolds (s.pushHistorySkips _).slot1 base0 z
    rw [h1]
    exact hslot1
  obtain ⟨slot', hsave, hsl, hold⟩ := saveSegment_holds s1.slot0 base0 x.1 x.2
    (by rw [ht.slot0_size]; exact hfit)
  have ht2 : SegmentRx.Tracks { s1 with slot0 := slot' } base0 size slotSize (y.1 + 1)
      (released ++ [y]) := ⟨ht.1, ht.2, hsl.trans ht.3, ht.4, ⟨ht.5.1, ht.5.2⟩, ht.6⟩
  obtain ⟨s2, hswap, ht3, hh3⟩ := swapSlotsIfBackward_spec bd ht2 hs1len hold hs1slot1
    ⟨hyx, by simp only; omega⟩ ⟨hz.1, by omega⟩
  have hplace : place x [z] = if z.1 < x.1 then [z, x] else [x, z] := by
    by_cases hlt' : z.1 < x.1
    · rw [place_of_gt hlt', if_pos hlt', place]
    · rw [place_of_lt (by omega), if_neg hlt']
  have ho' : Ordered (y.1 + 1) (place x [z]) :=
    Ordered.place ⟨hz.1, trivial⟩ hyx
  have hw' : ∀ v ∈ place x [z], v.1 < y.1 + 1 + 2 ^ 32 := by
    intro v hv
    rcases mem_place hv with rfl | hv
    · omega
    · rw [List.mem_singleton.mp hv]
      omega
  rw [← hplace] at hh3
  obtain ⟨s', hok, ht', hh'⟩ := drainLoop_spec bd ht3 hh3 ho' hw' [y.2.data]
  have hlen2 : 2 ≤ (place x [z]).length := by
    rw [hplace]
    split_ifs <;> simp
  simp only [hsave, hswap, ok_bind]
  rw [place_of_gt hyx, settle_release (.inr hlen2)]
  exact ⟨s', hok, by simpa using ht', hh'⟩

/-- A segment ahead of the base, with both slots in use: the least of the three positions
is given up on waiting for. -/
lemma receive_two (h : s.Tracks base0 size slotSize base released)
    (hh : s.Holds base0 [y, z]) (hy : base < y.1) (hz : y.1 < z.1 ∧ z.1 < base + 2 ^ 32)
    (hcontains : s.window.contains (idAt base0 x.1) = true)
    (hne : idAt base0 x.1 ≠ s.window.baseId) (hx : base < x.1 ∧ x.1 < base + 2 ^ 32)
    (hfit : x.2.data.length ≤ slotSize) :
    Delivers (s.receive bd (idAt base0 x.1) x.2.nonce x.2.data) base0 size slotSize released
      (settle 2 base (place x [y, z])) := by
  by_cases htaken : y.1 = x.1 ∨ z.1 = x.1
  · exact receive_taken h hh hy hz hcontains hne hx htaken
  · rcases Nat.lt_or_ge x.1 y.1 with hxy | hyx
    · exact receive_before h hh hy hz hcontains hne hx hxy
    · exact receive_after h hh hy hz hcontains hne hx hfit
        (lt_of_le_of_ne hyx fun he => htaken (.inl he)) fun he => htaken (.inr he)

end Full

end Receive

section Models
variable {bd : Build} {s : SegmentRx} {base0 : U32} {size slotSize : ℕ}
  {b : Reorder.Buffer Segment 2 size}

lemma Models.mirrors (h : s.Models base0 slotSize b) : s.Mirrors base0 slotSize b :=
  ⟨h.tracks, h.holds⟩

lemma Mirrors.models (h : s.Mirrors base0 slotSize b) (hsize : size ≤ 2 ^ 31) :
    s.Models base0 slotSize b := ⟨h.tracks, h.holds, hsize⟩

lemma Tracks.size_lt {base : ℕ} {released : List (ℕ × Segment)}
    (h : s.Tracks base0 size slotSize base released) : size < 2 ^ 32 := by
  rw [← h.size_eq]
  exact s.window.size.isLt

variable (base0 slotSize) in
lemma new_mirrors (windowSize : U32) : (SegmentRx.new base0 windowSize slotSize).Mirrors base0
    slotSize (Reorder.Buffer.empty Segment 2 windowSize.toNat) := by
  refine ⟨⟨(idAt_zero base0).symm, rfl, ?_, ?_, ⟨?_, ?_⟩, ?_⟩, rfl⟩
  · simp [SegmentRx.new]
  · simp [SegmentRx.new]
  · simp [SegmentRx.new, Reorder.Buffer.empty]
  · simp [SegmentRx.new, Reorder.Buffer.empty]
  · simp [Reorder.Buffer.empty]

variable (base0 slotSize) in
lemma new_models {windowSize : U32} (hsize : windowSize.toNat ≤ 2 ^ 31) :
    (SegmentRx.new base0 windowSize slotSize).Models base0 slotSize
      (Reorder.Buffer.empty Segment 2 windowSize.toNat) :=
  (new_mirrors base0 slotSize windowSize).models hsize

lemma Mirrors.pending_window (h : s.Mirrors base0 slotSize b) :
    ∀ y ∈ b.pending, b.base < y.1 ∧ y.1 < b.base + 2 ^ 32 := by
  intro y hy
  have hle := b.ordered.le_of_mem hy
  have hlt := b.within y hy
  have hsize := h.tracks.size_lt
  omega

variable (bd) in
/-- `receive` offers the segment to the reorder buffer. -/
theorem Mirrors.receive (h : s.Mirrors base0 slotSize b) {x : ℕ × Segment}
    (hold : b.base ≤ x.1 + (2 ^ 32 - size)) (hnew : x.1 < b.base + 2 ^ 32)
    (hfit : x.2.data.length ≤ slotSize) :
    ∃ s' rel, s.receive bd (idAt base0 x.1) x.2.nonce x.2.data = .ok (s', dataOf rel) ∧
      (b.offer x).released = b.released ++ rel ∧ s'.Mirrors base0 slotSize (b.offer x) := by
  have hsize := h.tracks.size_lt
  have hpending := h.pending_window
  have hiff := h.tracks.contains_iff hold hnew
  by_cases hx : b.base ≤ x.1 ∧ x.1 < b.base + size
  · have hcontains := hiff.mpr hx
    have hnext : x.1 ≠ b.base → idAt base0 x.1 ≠ s.window.baseId := by
      intro hne he
      rw [h.tracks.baseId_eq] at he
      exact hne (idAt_injOn base0 (by omega) (by omega) he)
    have hdelivers : Delivers (s.receive bd (idAt base0 x.1) x.2.nonce x.2.data) base0 size
        slotSize b.released (settle 2 b.base (place x b.pending)) := by
      have hh := h.holds
      have ho := b.ordered
      by_cases hbase : x.1 = b.base
      · exact receive_next h.tracks hh ho (fun y hy => (hpending y hy).2) hcontains hbase
      · have hahead : b.base < x.1 ∧ x.1 < b.base + 2 ^ 32 := by omega
        generalize b.pending = pending at hh ho hpending
        rcases pending with _ | ⟨y, _ | ⟨z, _ | ⟨w, ws⟩⟩⟩
        · exact receive_empty h.tracks hh hcontains (hnext hbase) hbase hfit
        · exact receive_one h.tracks hh (hpending y (by simp)) hcontains (hnext hbase) hahead hfit
        · exact receive_two h.tracks hh (hpending y (by simp)).1
            ⟨ho.2.1, (hpending z (by simp)).2⟩ hcontains (hnext hbase) hahead hfit
        · exact hh.elim
    obtain ⟨s', hok, ht, hh⟩ := hdelivers
    obtain ⟨hb, hp, hr⟩ := Reorder.Buffer.offer_of_mem hx
    refine ⟨s', _, hok, hr, ⟨?_, ?_⟩⟩
    · rw [hb, hr]
      exact ht
    · rw [hp]
      exact hh
  · refine ⟨s, [], ?_, ?_, ?_⟩
    · unfold SegmentRx.receive
      rw [if_neg (fun hc => hx (hiff.mp hc))]
      rfl
    · rw [Reorder.Buffer.offer_of_not_mem hx, List.append_nil]
    · rw [Reorder.Buffer.offer_of_not_mem hx]
      exact h

variable (bd) in
theorem Models.receive (h : s.Models base0 slotSize b) {x : ℕ × Segment}
    (hold : b.base ≤ x.1 + (2 ^ 32 - size)) (hnew : x.1 < b.base + 2 ^ 32)
    (hfit : x.2.data.length ≤ slotSize) :
    ∃ s' rel, s.receive bd (idAt base0 x.1) x.2.nonce x.2.data = .ok (s', dataOf rel) ∧
      (b.offer x).released = b.released ++ rel ∧ s'.Models base0 slotSize (b.offer x) := by
  obtain ⟨s', rel, hok, hreleased, h'⟩ := h.mirrors.receive bd hold hnew hfit
  exact ⟨s', rel, hok, hreleased, h'.models h.size_le⟩

/-- The least distance a sync has to exceed, where a segment is buffered. -/
lemma Mirrors.minDelta_eq (h : s.Mirrors base0 slotSize b) {y : ℕ × Segment}
    (hy : b.pending.getLast? = some y) : s.minDelta.toNat = y.1 - b.base := by
  have hpending := h.pending_window
  have hh := h.holds
  unfold minDelta
  generalize b.pending = pending at hy hh hpending
  rcases pending with _ | ⟨u, _ | ⟨v, _ | ⟨w, ws⟩⟩⟩
  · simp at hy
  · simp only [List.getLast?_singleton, Option.some.injEq] at hy
    subst hy
    have hu := hpending u (by simp)
    rw [if_pos hh.1, hh.2.id_eq]
    exact h.tracks.sub_base hu.1.le hu.2
  · simp only [List.getLast?_cons_cons, List.getLast?_singleton, Option.some.injEq] at hy
    subst hy
    have hv := hpending v (by simp)
    rw [if_neg (by rw [hh.1]; decide), if_pos hh.1, hh.2.2.id_eq]
    exact h.tracks.sub_base hv.1.le hv.2
  · exact hh.elim

/-- With nothing buffered a sync has to exceed the base ID itself. -/
lemma Mirrors.minDelta_empty (h : s.Mirrors base0 slotSize b) (hp : b.pending = []) :
    s.minDelta = s.window.baseId := by
  have hlen : s.len = 0 := by
    have hh := h.holds
    rw [hp] at hh
    exact hh
  unfold minDelta
  rw [if_neg (by omega), if_neg (by omega)]

/-- The segment in a slot is delivered, and those missing before it are skipped. -/
lemma deliverSlot_spec {base : ℕ} {released : List (ℕ × Segment)} {slot : Slot}
    {y : ℕ × Segment} (h : s.Tracks base0 size slotSize base released)
    (hslot : SlotHolds slot base0 y) (hle : base ≤ y.1) (hlt : y.1 < base + 2 ^ 32) :
    ∃ s', s.deliverSlot slot = .ok (s', y.2.data) ∧
      s'.Tracks base0 size slotSize (y.1 + 1) (released ++ [y]) ∧
      s'.len = s.len ∧ s'.slot0 = s.slot0 ∧ s'.slot1 = s.slot1 := by
  have hsub : (slot.id - s.window.baseId).toNat = y.1 - base := by
    rw [hslot.id_eq]
    exact h.sub_base hle hlt
  have ht := h.deliver hle hsub
  obtain ⟨hl, h0, h1, -⟩ := s.pushHistorySkips_frame (slot.id - s.window.baseId)
  rw [← hslot.id_eq, ← hslot.nonce_eq] at ht
  unfold deliverSlot
  simp only [hslot.data_eq, ok_bind, pure_eq_ok]
  exact ⟨_, rfl, ht, hl, h0, h1⟩

lemma deliverOutstanding_spec {base : ℕ} {released pending : List (ℕ × Segment)}
    (h : s.Tracks base0 size slotSize base released) (hh : s.Holds base0 pending)
    (ho : Ordered (base + 1) pending) (hw : ∀ y ∈ pending, y.1 < base + 2 ^ 32) {q : ℕ}
    (hle : base ≤ q) (hall : ∀ y ∈ pending, y.1 < q) :
    ∃ s' base', s.deliverOutstanding = .ok (s', dataOf pending) ∧
      s'.Tracks base0 size slotSize base' (released ++ pending) ∧
      base ≤ base' ∧ base' ≤ q := by
  unfold deliverOutstanding
  rcases pending with _ | ⟨y, _ | ⟨z, _ | ⟨w, ws⟩⟩⟩
  · have hlen : s.len = 0 := hh
    rw [if_neg (by omega), List.append_nil]
    exact ⟨s, base, rfl, h, le_rfl, hle⟩
  · obtain ⟨hlen, hslot⟩ := hh
    have hy := ho.1
    have hyq := hall y (by simp)
    obtain ⟨s', hok, ht, hl, -⟩ := deliverSlot_spec h hslot (by omega) (hw y (by simp))
    rw [if_pos (by omega)]
    simp only [hok, ok_bind]
    rw [if_neg (by omega)]
    exact ⟨s', y.1 + 1, rfl, ht, by omega, by omega⟩
  · obtain ⟨hlen, hslot0, hslot1⟩ := hh
    have hy := ho.1
    have hz := ho.2.1
    have hzq := hall z (by simp)
    have hzw := hw z (by simp)
    obtain ⟨s1, hok1, ht1, hl1, -, h1⟩ := deliverSlot_spec h hslot0 (by omega) (hw y (by simp))
    rw [← h1] at hslot1
    obtain ⟨s2, hok2, ht2, -⟩ := deliverSlot_spec ht1 hslot1 hz (by omega)
    rw [if_pos (by omega)]
    simp only [hok1, ok_bind]
    rw [if_pos (hl1.trans hlen)]
    simp only [hok2, ok_bind, pure_eq_ok]
    exact ⟨s2, z.1 + 1, rfl, by simpa using ht2, by omega, by omega⟩
  · exact hh.elim

lemma Tracks.completeSync {base q : ℕ} {released : List (ℕ × Segment)}
    (h : s.Tracks base0 size slotSize base released) (hle : base ≤ q) (hlt : q < base + 2 ^ 32) :
    (SegmentRx.completeSync s (idAt base0 q)).Tracks base0 size slotSize q released ∧
      (SegmentRx.completeSync s (idAt base0 q)).len = s.len := by
  obtain ⟨hl, h0, h1, hw⟩ := s.pushHistorySkips_frame (idAt base0 q - s.window.baseId)
  have hskip := h.history.skips h.before (idAt base0 q - s.window.baseId)
  rw [h.sub_base hle hlt, Nat.add_sub_cancel' hle] at hskip
  unfold SegmentRx.completeSync
  refine ⟨⟨rfl, ?_, ?_, ?_, ⟨hskip.rxBit, hskip.nonceBit⟩,
    fun y hy => (h.before y hy).trans_le hle⟩, hl⟩
  · simp only [hw]
    exact h.size_eq
  · simp only [h0]
    exact h.slot0_size
  · simp only [h1]
    exact h.slot1_size

/-- When `sync` acts on an ID. -/
def SyncAccepts (s : SegmentRx) (nextSegmentId : U32) : Prop :=
  s.minDelta < nextSegmentId - s.window.baseId ∧
    nextSegmentId - s.window.baseId ≤ s.window.size

lemma sync_reject {nextSegmentId : U32} (h : ¬ s.SyncAccepts nextSegmentId) :
    s.sync nextSegmentId = .ok (s, []) := by
  unfold sync
  exact if_neg h

/-- An accepted sync exceeds every buffered segment; with none buffered its distance
exceeds the base ID. -/
theorem Mirrors.syncAccepts_iff (h : s.Mirrors base0 slotSize b) {q : ℕ} (hle : b.base ≤ q)
    (hlt : q < b.base + 2 ^ 32) :
    s.SyncAccepts (idAt base0 q) ↔ q ≤ b.base + size ∧ (∀ y ∈ b.pending, y.1 < q) ∧
      (b.pending = [] → s.window.baseId.toNat < q - b.base) := by
  have hsub := h.tracks.sub_base hle hlt
  unfold SyncAccepts
  rw [BitVec.lt_def, BitVec.le_def, hsub, h.tracks.size_eq]
  rcases List.eq_nil_or_concat' b.pending with hp | ⟨ys, y, hp⟩
  · rw [h.minDelta_empty hp]
    simp only [hp, List.not_mem_nil, false_implies, implies_true, true_and, forall_const]
    omega
  · have hlast : b.pending.getLast? = some y := by rw [hp, List.getLast?_concat]
    have hy := h.pending_window y (by simp [hp])
    have hmax : ∀ u ∈ b.pending, u.1 ≤ y.1 := by
      intro u hu
      have hpw := b.ordered.pairwise
      rw [hp] at hu hpw
      rcases List.mem_append.mp hu with hu | hu
      · exact ((List.pairwise_append.mp hpw).2.2 u hu y (by simp)).le
      · rw [List.mem_singleton.mp hu]
    have hne : b.pending ≠ [] := by simp [hp]
    rw [h.minDelta_eq hlast]
    constructor
    · rintro ⟨hmin, hsize⟩
      refine ⟨by omega, fun u hu => ?_, fun he => absurd he hne⟩
      have := hmax u hu
      omega
    · rintro ⟨hsize, hall, -⟩
      have := hall y (by simp [hp])
      omega

/-- An accepted sync delivers everything buffered and skips to its position. -/
theorem Mirrors.sync (h : s.Mirrors base0 slotSize b) {q : ℕ} (hle : b.base ≤ q)
    (hlt : q < b.base + 2 ^ 32) (hacc : s.SyncAccepts (idAt base0 q)) :
    ∃ s', s.sync (idAt base0 q) = .ok (s', dataOf b.pending) ∧
      s'.Mirrors base0 slotSize (b.skipTo q) := by
  obtain ⟨-, hall, -⟩ := (h.syncAccepts_iff hle hlt).mp hacc
  obtain ⟨hb, hp, hr⟩ := Reorder.Buffer.skipTo_of_le hle hall
  have hwin : ∀ y ∈ b.pending, y.1 < b.base + 2 ^ 32 := fun y hy => (h.pending_window y hy).2
  obtain ⟨s1, base1, hok, ht, hbase, hq⟩ :=
    deliverOutstanding_spec h.tracks h.holds b.ordered hwin hle hall
  have ht1 : SegmentRx.Tracks { s1 with len := 0 } base0 size slotSize base1
      (b.released ++ b.pending) := ⟨ht.1, ht.2, ht.3, ht.4, ⟨ht.5.1, ht.5.2⟩, ht.6⟩
  obtain ⟨ht2, hlen⟩ := ht1.completeSync (q := q) hq (by omega)
  refine ⟨SegmentRx.completeSync { s1 with len := 0 } (idAt base0 q), ?_, ?_, ?_⟩
  · unfold SyncAccepts at hacc
    unfold SegmentRx.sync
    simp only [if_pos hacc, hok, ok_bind, pure_eq_ok]
  · rw [hb, hr]
    exact ht2
  · rw [hp]
    exact hlen

theorem Models.syncAccepts_iff (h : s.Models base0 slotSize b) {q : ℕ} (hle : b.base ≤ q)
    (hlt : q < b.base + 2 ^ 32) :
    s.SyncAccepts (idAt base0 q) ↔ q ≤ b.base + size ∧ (∀ y ∈ b.pending, y.1 < q) ∧
      (b.pending = [] → s.window.baseId.toNat < q - b.base) :=
  h.mirrors.syncAccepts_iff hle hlt

theorem Models.sync (h : s.Models base0 slotSize b) {q : ℕ} (hle : b.base ≤ q)
    (hlt : q < b.base + 2 ^ 32) (hacc : s.SyncAccepts (idAt base0 q)) :
    ∃ s', s.sync (idAt base0 q) = .ok (s', dataOf b.pending) ∧
      s'.Models base0 slotSize (b.skipTo q) := by
  obtain ⟨s', hok, h'⟩ := h.mirrors.sync hle hlt hacc
  exact ⟨s', hok, h'.models h.size_le⟩

end Models

end SegmentRx

end Redpine

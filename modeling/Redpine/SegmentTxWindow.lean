import Redpine.SerialId
import Redpine.SegmentTx

/-! The sender's window under arbitrary acks: which segments are in flight, and that their
sizes are accounted for. Segments are numbered by their position among all segments sent. -/
namespace Redpine
open Machine SerialId

namespace SegmentTx

/-- Sizes and masks of the rings of a window of `2 ^ k` segments. -/
structure Shape (s : SegmentTx) (k : ℕ) : Prop where
  six_le : 6 ≤ k
  lt_width : k < 32
  size_eq : s.size.toNat = 2 ^ k
  transitMask_eq : s.transitBufMask.toNat = 2 ^ k - 1
  nonceMask_eq : s.nonceBufMask.toNat = 2 ^ (k - 6) - 1
  transit_length : s.transitBuf.length = 2 ^ k
  nonce_length : s.nonceBuf.length = 2 ^ (k - 6)

/-- Segments of the given sizes have been sent, and those before `acked` are acknowledged. -/
structure InFlight (s : SegmentTx) (bd : Build) (k : ℕ) (base0 : U32) (sizes : List ℕ)
    (acked : ℕ) : Prop where
  shape : s.Shape k
  baseId_eq : s.baseId = idAt base0 acked
  nextId_eq : s.nextId = idAt base0 sizes.length
  acked_le : acked ≤ sizes.length
  window_le : sizes.length ≤ acked + 2 ^ k
  ring : ∀ i, acked ≤ i → i < sizes.length →
    s.transitBuf[(idAt base0 i &&& s.transitBufMask).toNat]? = sizes[i]?
  total : Accounts bd 64 s.transitTotal (sizes.drop acked).sum
  small : ∀ x ∈ sizes, x < 2 ^ 64

section New
variable {bd : Build} {base0 size : U32} {s : SegmentTx}

/-- The constructor accepts the powers of two from 64 on. -/
lemma new_shape (h : new base0 size = .ok s) :
    ∃ k, s.Shape k ∧ s.size = size ∧ s.baseId = base0 ∧ s.nextId = base0 ∧
      s.transitTotal = 0 ∧ s.nonceHistory = 0 := by
  unfold new at h
  obtain ⟨u, hpow, h⟩ := bind_eq_ok.mp h
  obtain ⟨u', hmin, h⟩ := bind_eq_ok.mp h
  rw [assert_eq_ok] at hpow hmin
  simp only [pure_eq_ok, Except.ok.injEq] at h
  obtain ⟨hne, hand⟩ := hpow
  have hlt := size.isLt
  have hmin' : 64 ≤ size.toNat := hmin
  have hpred : ∀ x : U32, 0 < x.toNat → (x - 1).toNat = x.toNat - 1 := by
    intro x hx
    bv_omega
  have hone := hpred size (by omega)
  have hpow2 : size.toNat.isPowerOfTwo := by
    rw [← Nat.and_sub_one_eq_zero_iff_isPowerOfTwo (by omega), Nat.land_comm, ← hone,
      ← BitVec.toNat_and, hand]
    rfl
  obtain ⟨k, hk⟩ := hpow2
  have h6 : 6 ≤ k := by
    by_contra hc
    have : 2 ^ k ≤ 2 ^ 5 := Nat.pow_le_pow_right (by decide) (by omega)
    omega
  have h32 : k < 32 := by
    by_contra hc
    have : 2 ^ 32 ≤ 2 ^ k := Nat.pow_le_pow_right (by decide) (by omega)
    omega
  have hsplit : 2 ^ k = 64 * 2 ^ (k - 6) := by
    rw [show (64 : ℕ) = 2 ^ 6 from rfl, ← pow_add, Nat.add_sub_cancel' h6]
  have hdiv : (size / 64).toNat = 2 ^ (k - 6) := by
    rw [BitVec.toNat_udiv]
    simp only [BitVec.reduceToNat]
    rw [hk, hsplit, Nat.mul_div_cancel_left _ (by decide)]
  have hdiv1 : (size / 64 - 1).toNat = 2 ^ (k - 6) - 1 := by
    rw [hpred _ (by rw [hdiv]; exact Nat.two_pow_pos _), hdiv]
  subst h
  refine ⟨k, ⟨h6, h32, hk, ?_, hdiv1, ?_, ?_⟩, rfl, rfl, rfl, rfl, rfl⟩
  · rw [hone, hk]
  · rw [List.length_replicate, hk]
  · rw [List.length_replicate, hdiv]

variable (bd) in
theorem new_inFlight (h : new base0 size = .ok s) :
    ∃ k, s.InFlight bd k base0 [] 0 ∧ size.toNat = 2 ^ k := by
  obtain ⟨k, hshape, hsize, hbase, hnext, htotal, -⟩ := new_shape h
  refine ⟨k, ⟨hshape, ?_, ?_, le_rfl, by simp, by simp, ?_, by simp⟩, ?_⟩
  · rw [hbase, idAt_zero]
  · rw [hnext]
    exact (idAt_zero base0).symm
  · rw [htotal]
    exact accounts_zero
  · rw [← hsize]
    exact hshape.size_eq

end New

namespace InFlight
variable {bd : Build} {k : ℕ} {base0 : U32} {sizes : List ℕ} {acked : ℕ} {s s' : SegmentTx}

lemma pow_lt (h : s.InFlight bd k base0 sizes acked) : 2 ^ k < 2 ^ 32 :=
  Nat.pow_lt_pow_right (by decide) h.shape.lt_width

lemma next_sub (h : s.InFlight bd k base0 sizes acked) :
    (s.nextId - s.baseId).toNat = sizes.length - acked := by
  have := h.pow_lt
  have := h.window_le
  rw [h.baseId_eq, h.nextId_eq]
  exact toNat_sub_of_le base0 h.acked_le (by omega)

lemma canSend_iff (h : s.InFlight bd k base0 sizes acked) :
    s.canSend = true ↔ sizes.length < acked + 2 ^ k := by
  have := h.acked_le
  simp only [canSend, decide_eq_true_eq, BitVec.lt_def, h.next_sub, h.shape.size_eq]
  omega

lemma slot_eq (h : s.InFlight bd k base0 sizes acked) (i : ℕ) :
    (idAt base0 i &&& s.transitBufMask).toNat = (idAt base0 i).toNat % 2 ^ k :=
  toNat_and_mask h.shape.transitMask_eq

/-- `mark_sent` under its precondition. -/
theorem markSent (h : s.InFlight bd k base0 sizes acked) {size : ℕ} (hcan : s.canSend = true)
    (hsize : size < 2 ^ 64) (hok : s.markSent bd size = .ok s') :
    s'.InFlight bd k base0 (sizes ++ [size]) acked ∧ s'.nonceBuf = s.nonceBuf ∧
      s'.nonceHistory = s.nonceHistory := by
  have hlt := h.canSend_iff.mp hcan
  have hle := h.acked_le
  have hpos : 0 < 2 ^ k := Nat.two_pow_pos k
  have hslot : (s.nextId &&& s.transitBufMask).toNat < s.transitBuf.length := by
    rw [h.nextId_eq, h.slot_eq, h.shape.transit_length]
    exact Nat.mod_lt _ hpos
  unfold SegmentTx.markSent at hok
  simp only [debugAssert_true hcan, ok_bind, update_of_lt hslot] at hok
  obtain ⟨total, htotal, hok⟩ := bind_eq_ok.mp hok
  simp only [pure_eq_ok, Except.ok.injEq] at hok
  subst hok
  refine ⟨⟨⟨h.shape.1, h.shape.2, h.shape.3, h.shape.4, h.shape.5, ?_, h.shape.7⟩,
    h.baseId_eq, ?_, ?_, ?_, ?_, ?_, ?_⟩, rfl, rfl⟩
  · simpa using h.shape.transit_length
  · simp only [List.length_append, List.length_singleton, idAt_succ, h.nextId_eq]
    rfl
  · simp only [List.length_append, List.length_singleton]
    omega
  · simp only [List.length_append, List.length_singleton]
    omega
  · intro i hi hin
    simp only [List.length_append, List.length_singleton] at hin
    rw [List.getElem?_set]
    rcases Nat.lt_or_ge i sizes.length with hold | hnew
    · have hne : (s.nextId &&& s.transitBufMask).toNat ≠
          (idAt base0 i &&& s.transitBufMask).toNat := by
        rw [h.nextId_eq, h.slot_eq, h.slot_eq]
        intro he
        have := slot_injOn base0 h.shape.lt_width.le (by omega) (by omega) he
        omega
      rw [if_neg hne, List.getElem?_append_left hold]
      exact h.ring i hi hold
    · have hieq : i = sizes.length := by omega
      subst hieq
      rw [← h.nextId_eq, if_pos rfl, if_pos hslot]
      simp
  · rw [List.drop_append_of_le_length hle, List.sum_append, List.sum_singleton]
    exact h.total.add htotal
  · intro x hx
    rcases List.mem_append.mp hx with hx | hx
    · exact h.small x hx
    · rw [List.mem_singleton.mp hx]
      exact hsize

/-- `mark_sent` fails only if the total overflows. -/
lemma markSent_ok (h : s.InFlight bd k base0 sizes acked) {size : ℕ} (hcan : s.canSend = true)
    (htotal : s.transitTotal + size < 2 ^ 64) : ∃ s', s.markSent bd size = .ok s' := by
  have hslot : (s.nextId &&& s.transitBufMask).toNat < s.transitBuf.length := by
    rw [h.nextId_eq, h.slot_eq, h.shape.transit_length]
    exact Nat.mod_lt _ (Nat.two_pow_pos k)
  unfold SegmentTx.markSent
  simp only [debugAssert_true hcan, ok_bind, update_of_lt hslot, checkedAdd_of_lt htotal]
  exact ⟨_, rfl⟩

/-- The loop of `acknowledge` takes back the sizes of the segments it passes. -/
lemma subtractTransit (h : s.InFlight bd k base0 sizes acked) (count i total : ℕ)
    (hle : acked + i + count ≤ sizes.length)
    (ht : Accounts bd 64 total (sizes.drop (acked + i)).sum) :
    ∃ t, SegmentTx.subtractTransit bd s count i total = .ok t ∧
      Accounts bd 64 t (sizes.drop (acked + i + count)).sum := by
  induction count generalizing i total with
  | zero => exact ⟨total, rfl, by simpa using ht⟩
  | succ count ih =>
    have hlt : acked + i < sizes.length := by omega
    have hget : s.transitBuf[((s.baseId + BitVec.ofNat 32 i) &&& s.transitBufMask).toNat]? =
        some sizes[acked + i] := by
      rw [h.baseId_eq, ← idAt_add, h.ring _ (by omega) hlt, List.getElem?_eq_getElem hlt]
    have hdrop : (sizes.drop (acked + i)).sum =
        sizes[acked + i] + (sizes.drop (acked + (i + 1))).sum := by
      rw [List.drop_eq_getElem_cons hlt, List.sum_cons]
      rfl
    rw [hdrop] at ht
    obtain ⟨t, hsub, ht'⟩ := ht.sub (h.small _ (List.getElem_mem hlt))
    obtain ⟨t', hrest, ht''⟩ := ih (i + 1) t (by omega) ht'
    refine ⟨t', ?_, ?_⟩
    · unfold SegmentTx.subtractTransit
      simp only [index_eq_ok.mpr hget, ok_bind, hsub, hrest]
    · rw [show acked + i + (count + 1) = acked + (i + 1) + count by omega]
      exact ht''

end InFlight

end SegmentTx

end Redpine

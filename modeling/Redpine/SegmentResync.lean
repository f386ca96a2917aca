import Redpine.SegmentChannel

/-! Resynchronization of the segment layer: the sender announces its next ID, and the
receiver's ack of the announcement returns. -/
namespace Redpine.SegmentChannel
open Machine Buffer SerialId Transition Reorder

/-- The slots in use. -/
def buffered (rx : SegmentRx) : List Slot := [rx.slot0, rx.slot1].take rx.len

/-- The receiver handles a sync with the sender's next ID and the sender the ack of it:
everything buffered is delivered in the order of the IDs, the receiver expects the
sender's next segment, and the sender has nothing in transit and may send. -/
def Resynchronizes (bd : Build) (s : State) : Prop :=
  ∃ rx out tx drop, s.rx.sync s.tx.nextId = .ok (rx, out) ∧
    handleAck bd s.tx (ackOf rx) = .ok (tx, drop) ∧
    rx.nextExpectedId = s.tx.nextId ∧ rx.len = 0 ∧
    (buffered s.rx).mapM SegmentRx.slotData = .ok out ∧
    (buffered s.rx).Pairwise
      (fun x y => x.id - s.rx.window.baseId < y.id - s.rx.window.baseId) ∧
    tx.bytesInTransit = 0 ∧ tx.canSend = true

section Resync
variable {bd : Build} {baseId : U32} {slotSize k : ℕ} {s : State} {sizes : List ℕ} {acked : ℕ}
  {b : Reorder.Buffer Segment 2 (2 ^ k)}

/-- The slots in use hold the buffered segments in order. -/
lemma Inv.buffered_spec (h : Inv bd baseId slotSize k s sizes acked b) :
    (SegmentChannel.buffered s.rx).mapM SegmentRx.slotData = .ok (SegmentRx.dataOf b.pending) ∧
      (SegmentChannel.buffered s.rx).Pairwise
        (fun x y => x.id - s.rx.window.baseId < y.id - s.rx.window.baseId) := by
  have hpending := h.rx.mirrors.pending_window
  have hh := h.rx.holds
  have ho := b.ordered
  unfold SegmentChannel.buffered
  generalize b.pending = pending at hpending hh ho
  rcases pending with _ | ⟨y, _ | ⟨z, _ | ⟨w, ws⟩⟩⟩
  · have hlen : s.rx.len = 0 := hh
    simp [hlen, SegmentRx.dataOf]
  · obtain ⟨hlen, hslot⟩ := hh
    simp [hlen, SegmentRx.dataOf, hslot.data_eq]
  · obtain ⟨hlen, hslot0, hslot1⟩ := hh
    have hy := hpending y (by simp)
    have hz := hpending z (by simp)
    have hyz := ho.2.1
    have hlt : s.rx.slot0.id - s.rx.window.baseId < s.rx.slot1.id - s.rx.window.baseId := by
      rw [BitVec.lt_def, hslot0.id_eq, hslot1.id_eq, h.rx.tracks.sub_base hy.1.le hy.2,
        h.rx.tracks.sub_base hz.1.le hz.2]
      omega
    simp [hlen, SegmentRx.dataOf, hslot0.data_eq, hslot1.data_eq, hlt]
  · exact hh.elim

/-- Once the receiver expects the sender's next segment, its ack empties the pipe. -/
lemma Inv.acknowledge_all (h : Inv bd baseId slotSize k s sizes acked b) {rx : SegmentRx}
    (hrx : rx.window.baseId = s.tx.nextId) :
    ∃ tx drop, SegmentChannel.handleAck bd s.tx (SegmentChannel.ackOf rx) = .ok (tx, drop) ∧
      tx.bytesInTransit = 0 ∧ tx.canSend = true := by
  have hid : (SegmentChannel.ackOf rx).id = idAt baseId sizes.length := by
    rw [← h.tx.nextId_eq]
    exact hrx
  unfold SegmentChannel.handleAck
  rw [hid]
  obtain ⟨tx, drop, hok, hflight, -⟩ := h.tx.acknowledge s.nonces h.tx.acked_le le_rfl
    ((SegmentChannel.ackOf rx).history.setWidth 32) (SegmentChannel.ackOf rx).checksum
  have htotal := hflight.total.1
  rw [List.drop_length] at htotal
  refine ⟨tx, drop, hok, htotal, hflight.canSend_iff.mpr ?_⟩
  have : 0 < 2 ^ k := Nat.two_pow_pos k
  omega

end Resync

/-- Of two segments the first was received and the second was lost. -/
def lostState : State where
  tx := ⟨0, 2, 64, [1, 1] ++ List.replicate 62 0, 63, [0], 0, 2, 0xFFFFFFFF, 0⟩
  rx := { SegmentRx.new 0 64 16 with
    window := ⟨1, 64⟩
    rxHistory := 1 }
  segments := [⟨0, false, [7]⟩, ⟨1, false, [8]⟩]
  syncs := []
  acks := []
  delivered := [[7]]

lemma lostState_reachable : Reachable (system .debug 0 64 16) lostState := by
  have hexec : (interpreter .debug 0 64 16).exec
      [.send false 1 [7], .send false 1 [8], .receive ⟨0, false, [7]⟩] = some lostState := by
    decide +kernel
  exact Executable.exec_reachable _ hexec

/-- The sync is rejected, since its distance 1 does not exceed the base ID 1. -/
theorem lostState_not_resynchronizes :
    Reachable (system .debug 0 64 16) lostState ∧ lostState.segments.length < 2 ^ 31 ∧
      ¬ Resynchronizes .debug lostState := by
  refine ⟨lostState_reachable, by decide, ?_⟩
  rintro ⟨rx, out, tx, drop, hsync, -, hexpected, -⟩
  have hreject : lostState.rx.sync lostState.tx.nextId = .ok (lostState.rx, []) := by
    rfl
  rw [hreject] at hsync
  cases hsync
  exact absurd hexpected (by decide)

/-- Resynchronization succeeds if and only if a segment is buffered, nothing is
outstanding, or the base ID, taken as a number, is less than the number of outstanding IDs. -/
theorem resynchronizes_iff {bd : Build} {baseId size : U32} {slotSize : ℕ} {s : State}
    (hs : Reachable (system bd baseId size slotSize) s) (hbound : s.segments.length < 2 ^ 31) :
    Resynchronizes bd s ↔
      0 < s.rx.len ∨ s.tx.nextId = s.rx.window.baseId ∨
        s.rx.window.baseId < s.tx.nextId - s.rx.window.baseId := by
  obtain ⟨k, hk, sizes, acked, b, h⟩ := inv_reachable hs hbound
  have hacked := h.acked_le
  have hbase := h.base_le
  have hlen := h.sizes_length
  have hwin := h.tx.window_le
  have hnext : s.tx.nextId = idAt baseId s.segments.length := by rw [h.tx.nextId_eq, hlen]
  have hsub : (s.tx.nextId - s.rx.window.baseId).toNat = s.segments.length - b.base := by
    rw [hnext]
    exact h.rx.tracks.sub_base hbase (by omega)
  have hall : ∀ y ∈ b.pending, y.1 < s.segments.length := by
    intro y hy
    obtain ⟨frame, hframe, -⟩ := h.buffered y (List.mem_append_right _ hy)
    exact (List.getElem?_eq_some_iff.mp hframe).1
  have hempty : s.rx.len = 0 ↔ b.pending = [] := by
    rw [h.rx.holds.len_eq, List.length_eq_zero_iff]
  have hiff : s.rx.SyncAccepts s.tx.nextId ↔
      (s.rx.len = 0 → s.rx.window.baseId < s.tx.nextId - s.rx.window.baseId) := by
    rw [BitVec.lt_def, hsub, hnext, h.rx.syncAccepts_iff hbase (by omega), hempty]
    constructor
    · exact fun hacc => hacc.2.2
    · exact fun hacc => ⟨by omega, hall, hacc⟩
  obtain ⟨hmap, hpairwise⟩ := h.buffered_spec
  constructor
  · rintro ⟨rx, out, tx, drop, hsync, -, hexpected, -⟩
    by_contra hnot
    simp only [not_or] at hnot
    obtain ⟨hlen0, hne, hge⟩ := hnot
    have hreject : ¬ s.rx.SyncAccepts s.tx.nextId := fun hacc =>
      hge (hiff.mp hacc (by omega))
    rw [SegmentRx.sync_reject hreject] at hsync
    cases hsync
    exact hne hexpected.symm
  · intro hcond
    by_cases hacc : s.rx.SyncAccepts s.tx.nextId
    · rw [hnext] at hacc
      obtain ⟨rx, hsync, hmodels⟩ := h.rx.sync hbase (by omega) hacc
      obtain ⟨hb, hp, -⟩ := Reorder.Buffer.skipTo_of_le hbase hall
      have hrx : rx.window.baseId = s.tx.nextId := by
        rw [hmodels.tracks.baseId_eq, hb, hnext]
      have hlen0 : rx.len = 0 := by rw [hmodels.holds.len_eq, hp, List.length_nil]
      obtain ⟨tx, drop, hack, hbytes, hcan⟩ := h.acknowledge_all hrx
      rw [← hnext] at hsync
      exact ⟨rx, _, tx, drop, hsync, hack, hrx, hlen0, hmap, hpairwise, hbytes, hcan⟩
    · -- the sync is rejected, and nothing is outstanding
      obtain ⟨hlen0, hge⟩ := Classical.not_imp.mp (hiff.not.mp hacc)
      have heq : s.rx.window.baseId = s.tx.nextId := by
        rcases hcond with hpos | heq | hlt
        · omega
        · exact heq.symm
        · exact absurd hlt hge
      obtain ⟨tx, drop, hack, hbytes, hcan⟩ := h.acknowledge_all heq
      rw [hempty.mp hlen0] at hmap
      exact ⟨s.rx, [], tx, drop, SegmentRx.sync_reject hacc, hack, heq, hlen0, hmap, hpairwise,
        hbytes, hcan⟩

/-- Of three segments the second one was lost, and the third one waits for it in a slot: the sync
is accepted, and delivers it. -/
theorem resynchronizes_iff_sample : ∃ s rx, Reachable (system .debug 0 64 16) s ∧
    s.rx.window.baseId = 1 ∧ s.rx.len = 1 ∧ s.delivered = [[7]] ∧
    s.rx.sync s.tx.nextId = .ok (rx, [[9]]) ∧ rx.window.baseId = 3 ∧
    Resynchronizes .debug s := by
  have hrun : ((interpreter .debug 0 64 16).exec
      [.send false 1 [7], .send true 1 [8], .send true 1 [9], .receive ⟨0, false, [7]⟩,
        .receive ⟨2, true, [9]⟩]).map
        (fun s => decide (s.rx.window.baseId = 1 ∧ s.rx.len = 1 ∧ s.delivered = [[7]] ∧
          s.segments.length = 3 ∧
          (s.rx.sync s.tx.nextId).toOption.map (fun r => (r.1.window.baseId, r.2)) =
            some (3, [[9]]))) =
      some true := by
    decide +kernel
  obtain ⟨s, hexec, hdecide⟩ := Option.map_eq_some_iff.mp hrun
  obtain ⟨hbase, hlen, hdelivered, hcount, hmap⟩ := of_decide_eq_true hdecide
  obtain ⟨⟨rx, out⟩, hsync, hout⟩ := toOption_map_eq_some.mp hmap
  obtain ⟨hbase', rfl⟩ := Prod.mk.inj hout
  have hreachable := (interpreter .debug 0 64 16).exec_reachable hexec
  have hresync : Resynchronizes .debug s := by
    apply (resynchronizes_iff hreachable (by rw [hcount]; decide)).mpr
    left
    rw [hlen]
    decide
  exact ⟨s, rx, hreachable, hbase, hlen, hdelivered, hsync, hbase', hresync⟩

end Redpine.SegmentChannel

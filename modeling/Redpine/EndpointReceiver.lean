import Redpine.Endpoint
import Redpine.WireCodec
import Redpine.SegmentRxReorder

/-! The receiving half of an endpoint: it takes any segment and any sync without failing,
and passes the datagrams of the delivered segments on one after the other. -/
namespace Redpine
open Machine Buffer Wire SerialId Reorder

namespace Endpoint

section Delivery
variable {bd : Build}

/-- Reading ends after finitely many datagrams, which depend on the bytes only. -/
lemma datagramLoop_total (bd : Build) {r : PayloadReader} {fuel : ℕ}
    (hr : r.readIdx ≤ r.buffer.length) (hfuel : r.buffer.length - r.readIdx < fuel) :
    ∃ datagrams : List Datagram, ∀ d : Delivery,
      datagramLoop bd fuel r d = .ok (datagrams.foldl Delivery.receive d) := by
  induction fuel generalizing r with
  | zero => omega
  | succ fuel ih =>
    obtain ⟨obj, r', hread, hbuffer, hle, hlt⟩ :=
      PayloadReader.read_total (α := Datagram) bd hr
    cases obj with
    | none =>
      refine ⟨[], fun d => ?_⟩
      unfold datagramLoop
      rw [hread, ok_bind]
      rfl
    | some datagram =>
      have hlt' := hlt rfl
      obtain ⟨datagrams, hloop⟩ := ih (r := r') (by rw [hbuffer]; exact hle)
        (by rw [hbuffer]; omega)
      refine ⟨datagram :: datagrams, fun d => ?_⟩
      unfold datagramLoop
      rw [hread, ok_bind]
      exact hloop (d.receive datagram)

lemma segment_total (bd : Build) (segmentBytes : Bytes) :
    ∃ datagrams : List Datagram, ∀ d : Delivery,
      d.segment bd segmentBytes = .ok (datagrams.foldl Delivery.receive d) :=
  datagramLoop_total bd (Nat.zero_le _) (Nat.lt_succ_self _)

lemma segments_total (bd : Build) (delivered : List Bytes) :
    ∃ datagrams : List Datagram, ∀ d : Delivery,
      d.segments bd delivered = .ok (datagrams.foldl Delivery.receive d) := by
  induction delivered with
  | nil => exact ⟨[], fun d => rfl⟩
  | cons segmentBytes delivered ih =>
    obtain ⟨first, hfirst⟩ := segment_total bd segmentBytes
    obtain ⟨rest, hrest⟩ := ih
    refine ⟨first ++ rest, fun d => ?_⟩
    unfold Delivery.segments at hrest ⊢
    rw [List.foldlM_cons, hfirst, ok_bind, hrest, List.foldl_append]

/-- The datagrams written into a segment are the ones read from it. -/
lemma datagramLoop_encode (bd : Build) {r : PayloadReader} {fuel : ℕ}
    {datagrams : List Datagram} (hr : r.readIdx ≤ r.buffer.length)
    (hdrop : r.buffer.drop r.readIdx = datagrams.flatMap encodeDatagram)
    (hvalid : ∀ d ∈ datagrams, d.data.length ≤ datagramDataSizeMax)
    (hfuel : r.buffer.length - r.readIdx < fuel) (d : Delivery) :
    datagramLoop bd fuel r d = .ok (datagrams.foldl Delivery.receive d) := by
  induction datagrams generalizing r fuel d with
  | nil =>
    have hlen := congrArg List.length hdrop
    rw [List.length_drop] at hlen
    simp only [List.flatMap_nil, List.length_nil] at hlen
    cases fuel with
    | zero => omega
    | succ fuel =>
      obtain ⟨obj, r', hread, hbuffer, hle, hlt⟩ :=
        PayloadReader.read_total (α := Datagram) bd hr
      cases obj with
      | none =>
        unfold datagramLoop
        rw [hread, ok_bind]
        rfl
      | some datagram =>
        have := hlt rfl
        omega
  | cons datagram datagrams ih =>
    cases fuel with
    | zero => omega
    | succ fuel =>
      have hlen := congrArg List.length hdrop
      rw [List.length_drop] at hlen
      have hfirst : r.buffer.drop r.readIdx =
          LawfulSerial.encode datagram ++ datagrams.flatMap encodeDatagram := hdrop
      obtain ⟨r', hread, hbuffer, hle, hrest⟩ := PayloadReader.read_encode bd hr hfirst
        (hvalid datagram List.mem_cons_self)
      have hlen' := congrArg List.length hrest
      rw [List.length_drop] at hlen'
      have hsize := encodeDatagram_length datagram
      rw [List.flatMap_cons, List.length_append] at hlen
      simp only [datagramHeaderSize] at hsize
      unfold datagramLoop
      rw [hread, ok_bind]
      exact ih hle hrest (fun x hx => hvalid x (List.mem_cons_of_mem _ hx)) (by omega)
        (d.receive datagram)

lemma segment_encode (bd : Build) {datagrams : List Datagram}
    (hvalid : ∀ d ∈ datagrams, d.data.length ≤ datagramDataSizeMax) (d : Delivery) :
    d.segment bd (datagrams.flatMap encodeDatagram) = .ok (datagrams.foldl Delivery.receive d) :=
  datagramLoop_encode bd (Nat.zero_le _) rfl hvalid (Nat.lt_succ_self _) d

/-- A call that passes a packet on. -/
def IsReceive (call : HostCall) : Prop := ∃ unrel packetBytes, call = .onReceive unrel packetBytes

lemma receive_calls (d : Delivery) (datagram : Datagram) :
    ∀ call ∈ (d.receive datagram).calls, call ∈ d.calls ∨ IsReceive call := by
  intro call hcall
  unfold Delivery.receive at hcall
  cases hunrel : datagram.unrel with
  | true =>
    rw [hunrel, if_pos rfl] at hcall
    rcases List.mem_append.mp hcall with hcall | hcall
    · exact .inl hcall
    · obtain ⟨packet, -, rfl⟩ := List.mem_map.mp hcall
      exact .inr ⟨_, _, rfl⟩
  | false =>
    rw [hunrel, if_neg Bool.false_ne_true] at hcall
    rcases List.mem_append.mp hcall with hcall | hcall
    · exact .inl hcall
    · obtain ⟨packet, -, rfl⟩ := List.mem_map.mp hcall
      exact .inr ⟨_, _, rfl⟩

lemma foldl_receive_calls (datagrams : List Datagram) (d : Delivery) :
    ∀ call ∈ (datagrams.foldl Delivery.receive d).calls, call ∈ d.calls ∨ IsReceive call := by
  induction datagrams generalizing d with
  | nil => exact fun call hcall => .inl hcall
  | cons datagram datagrams ih =>
    intro call hcall
    rw [List.foldl_cons] at hcall
    rcases ih (d.receive datagram) call hcall with hfirst | hrest
    · exact receive_calls d datagram call hfirst
    · exact .inr hrest

/-- The delivery of segments makes no other calls. -/
lemma segments_calls {e : Endpoint} {delivered : List Bytes} {d : Delivery}
    (h : e.delivery.segments bd delivered = .ok d) : ∀ call ∈ d.calls, IsReceive call := by
  obtain ⟨datagrams, htotal⟩ := segments_total bd delivered
  rw [htotal] at h
  cases h
  intro call hcall
  rcases foldl_receive_calls datagrams e.delivery call hcall with hnil | hreceive
  · cases hnil
  · exact hreceive

end Delivery

/-- The reorder buffer behind the segment window. -/
abbrev SegmentQueue := Reorder.Buffer Segment 2 segmentWindowSize.toNat

section Receive
variable {e : Endpoint} {b : SegmentQueue}

/-- A segment under an arbitrary ID is delivered, kept or dropped without failing. -/
theorem receive_total (bd : Build) (h : e.segmentRx.Models 0 frameSizeMax b)
    (segmentId : U32) (segmentNonce : Bool) {segmentBytes : Bytes}
    (hfit : segmentBytes.length ≤ frameSizeMax) :
    ∃ segmentRx delivered d b', e.segmentRx.receive bd segmentId segmentNonce segmentBytes =
        .ok (segmentRx, delivered) ∧
      e.delivery.segments bd delivered = .ok d ∧
      segmentRx.Models 0 frameSizeMax (b' : SegmentQueue) := by
  have hid : segmentId = idAt 0 (b.base + (segmentId - e.segmentRx.window.baseId).toNat) := by
    rw [h.tracks.baseId_eq, ← idAt_idAt, idAt_toNat_sub]
  have hlt := (segmentId - e.segmentRx.window.baseId).isLt
  obtain ⟨segmentRx, rel, hreceive, -, hmodels⟩ := h.receive bd
    (x := (b.base + (segmentId - e.segmentRx.window.baseId).toNat, ⟨segmentNonce, segmentBytes⟩))
    (by simp only; omega) (by simp only; omega) hfit
  rw [← hid] at hreceive
  obtain ⟨datagrams, hsegments⟩ := segments_total bd (SegmentRx.dataOf rel)
  exact ⟨segmentRx, _, _, _, hreceive, hsegments e.delivery, hmodels⟩

/-- A sync to an arbitrary ID is accepted or rejected without failing. -/
theorem sync_total (bd : Build) (h : e.segmentRx.Models 0 frameSizeMax b) (nextSegmentId : U32) :
    ∃ segmentRx delivered d b', e.segmentRx.sync nextSegmentId = .ok (segmentRx, delivered) ∧
      e.delivery.segments bd delivered = .ok d ∧
      segmentRx.Models 0 frameSizeMax (b' : SegmentQueue) := by
  by_cases hacc : e.segmentRx.SyncAccepts nextSegmentId
  · have hid : nextSegmentId =
        idAt 0 (b.base + (nextSegmentId - e.segmentRx.window.baseId).toNat) := by
      rw [h.tracks.baseId_eq, ← idAt_idAt, idAt_toNat_sub]
    have hlt := (nextSegmentId - e.segmentRx.window.baseId).isLt
    rw [hid] at hacc
    obtain ⟨segmentRx, hsync, hmodels⟩ := h.sync (Nat.le_add_right _ _) (by omega) hacc
    rw [← hid] at hsync
    obtain ⟨datagrams, hsegments⟩ := segments_total bd (SegmentRx.dataOf b.pending)
    exact ⟨segmentRx, _, _, _, hsync, hsegments e.delivery, hmodels⟩
  · exact ⟨_, _, _, b, SegmentRx.sync_reject hacc, rfl, h⟩

end Receive

end Endpoint

end Redpine

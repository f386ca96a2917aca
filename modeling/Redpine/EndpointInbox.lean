import Redpine.EndpointOutbox

/-! What an endpoint takes from the stream of its peer. As far as the frames it receives tell the
truth, the packets it passes on are packets that the peer has accepted, in their order. -/
namespace Redpine
open Machine Buffer Wire SerialId Reorder Unreliable FragmentTxBuffers

namespace Endpoint

/-- The packets passed on that datagrams of one kind have completed. -/
def received (unrel : Bool) (calls : List HostCall) : List Bytes :=
  calls.filterMap fun
    | .onReceive u packetBytes => if u = unrel then some packetBytes else none
    | _ => none

/-- Bounds below which the IDs in use are distinct. -/
structure Outbox.Small (o : Outbox) : Prop where
  segments_lt : o.segments.length < 2 ^ 31
  fragments_lt : o.fragments.length < 2 ^ 31
  origins_lt : o.origins.length < 2 ^ 31

/-- The receive buffers when the datagrams before some position have been looked at. -/
structure Tracked (unreliableRx : Unreliable.RxBuffer) (reliableRx : Reliable.RxBuffer)
    (o : Outbox) (taken : ℕ) (calls : List HostCall) : Prop where
  reliableSize : reliableRx.fragmentSize = fragmentSize
  unreliableSize : unreliableRx.fragmentSize = fragmentSize
  reliable : ∃ accepted, reliableRx.Assembles 0 o.fragments accepted (received false calls)
  unreliable : ∃ done,
    unreliableRx.Tracks 0 o.unreliable o.origins taken (received true calls) done

section Received
variable {unrel : Bool} {calls calls' : List HostCall}

lemma received_append : received unrel (calls ++ calls') =
    received unrel calls ++ received unrel calls' :=
  List.filterMap_append

lemma received_onReceive (packets : List Bytes) :
    received unrel (packets.map (.onReceive unrel)) = packets := by
  simp [received, List.filterMap_map]

lemma received_other {other : Bool} (hne : other ≠ unrel) (packets : List Bytes) :
    received unrel (packets.map (.onReceive other)) = [] := by
  simp [received, List.filterMap_map, hne]

/-- Other calls pass nothing on. -/
lemma received_eq_nil (h : ∀ call ∈ calls, ∀ unrel packetBytes,
    call ≠ .onReceive unrel packetBytes) : received unrel calls = [] := by
  unfold received
  rw [List.filterMap_eq_nil_iff]
  intro call hcall
  cases call with
  | onReceive u packetBytes => exact absurd rfl (h _ hcall u packetBytes)
  | _ => rfl

lemma received_transport (h : ∀ call ∈ calls, IsTransport call) : received unrel calls = [] := by
  apply received_eq_nil
  rintro call hcall u packetBytes rfl
  rcases h _ hcall with ⟨_, h⟩ | ⟨_, h⟩ | h <;> cases h

end Received

section Tracked
variable {o o' : Outbox} {taken : ℕ} {calls calls' : List HostCall}
  {unreliableRx : Unreliable.RxBuffer} {reliableRx : Reliable.RxBuffer}

lemma Tracked.mono (h : Tracked unreliableRx reliableRx o taken calls) (hle : o.Extends o')
    {taken' : ℕ} (htaken : taken ≤ taken') : Tracked unreliableRx reliableRx o' taken' calls := by
  obtain ⟨accepted, hreliable⟩ := h.reliable
  obtain ⟨done, hunreliable⟩ := h.unreliable
  refine ⟨h.reliableSize, h.unreliableSize, ⟨accepted, ?_⟩, ⟨done, ?_⟩⟩
  · obtain ⟨more, hmore⟩ := hle.fragments
    rw [← hmore]
    exact hreliable.append more
  · obtain ⟨pushed, hpushed⟩ := hle.unreliable
    obtain ⟨origins, horigins⟩ := hle.origins
    rw [← hpushed, ← horigins]
    exact hunreliable.mono pushed origins htaken

/-- Calls that pass nothing on. -/
lemma Tracked.quiet (h : Tracked unreliableRx reliableRx o taken calls)
    (hquiet : ∀ unrel, received unrel calls' = []) :
    Tracked unreliableRx reliableRx o taken (calls ++ calls') := by
  have hreceived : ∀ unrel, received unrel (calls ++ calls') = received unrel calls := by
    intro unrel
    rw [received_append, hquiet, List.append_nil]
  refine ⟨h.reliableSize, h.unreliableSize, ?_, ?_⟩
  · rw [hreceived]
    exact h.reliable
  · rw [hreceived]
    exact h.unreliable

end Tracked

section Delivery
variable {o : Outbox} {taken : ℕ} {prior : List HostCall} {d : Delivery}

/-- The receive buffers during a delivery. -/
def Delivery.Tracks (d : Delivery) (o : Outbox) (taken : ℕ) (prior : List HostCall) : Prop :=
  Tracked d.unreliableRx d.reliableRx o taken (prior ++ d.calls)

lemma Delivery.Tracks.mono (h : d.Tracks o taken prior) {taken' : ℕ} (htaken : taken ≤ taken') :
    d.Tracks o taken' prior :=
  Tracked.mono h (.refl o) htaken

lemma Delivery.Tracks.receive_reliable (h : d.Tracks o taken prior) (hsmall : o.Small) {k : ℕ}
    {rc : FragmentRc} (hget : o.fragments[k]? = some rc) :
    (d.receive (toDatagram false (idAt 0 k) rc)).Tracks o taken prior := by
  have hlt := hsmall.fragments_lt
  obtain ⟨accepted, hreliable⟩ := h.reliable
  obtain ⟨packet, -, hrc⟩ := List.mem_flatMap.mp (List.mem_of_getElem? hget)
  have hvalid : fragmentIsValid rc.view d.reliableRx.fragmentSize = true := by
    rw [h.reliableSize]
    exact (fragmentsOf_isFragmentOf (by decide) hrc).valid
  obtain ⟨accepted', hreliable', -⟩ := hreliable.receive (by omega) hget hvalid
  have hcalls : (d.receive (toDatagram false (idAt 0 k) rc)).calls = d.calls ++
      (d.reliableRx.receive (idAt 0 k) rc.view).2.toList.map (.onReceive false) := rfl
  unfold Delivery.Tracks
  rw [hcalls, ← List.append_assoc]
  refine ⟨?_, h.unreliableSize, ⟨accepted', ?_⟩, ?_⟩
  · exact (Reliable.RxBuffer.receive_fragmentSize _ _).trans h.reliableSize
  · rw [received_append, received_onReceive]
    exact hreliable'
  · rw [received_append, received_other Bool.false_ne_true, List.append_nil]
    exact h.unreliable

lemma Delivery.Tracks.receive_unreliable (h : d.Tracks o taken prior) (ho : o.Sound)
    (hsmall : o.Small) {n : ℕ} (hn : taken ≤ n) {origin : Origin} {rc : FragmentRc}
    (hget : o.origins[n]? = some origin)
    (hrc : IsFragment fragmentSize o.unreliable origin rc) :
    (d.receive (toDatagram true (idAt 0 n) rc)).Tracks o (n + 1) prior := by
  have hlt := hsmall.origins_lt
  obtain ⟨done, hunreliable⟩ := h.unreliable
  rw [← h.unreliableSize] at hrc
  obtain ⟨done', hunreliable'⟩ := hunreliable.receive ho.chain (by omega) hn hget hrc
  have hcalls : (d.receive (toDatagram true (idAt 0 n) rc)).calls = d.calls ++
      (d.unreliableRx.receive (idAt 0 n) rc.view).2.toList.map (.onReceive true) := rfl
  unfold Delivery.Tracks
  rw [hcalls, ← List.append_assoc]
  refine ⟨h.reliableSize, ?_, ?_, ⟨done', ?_⟩⟩
  · exact (Unreliable.RxBuffer.receive_fragmentSize _ _ _).trans h.unreliableSize
  · rw [received_append, received_other Bool.false_ne_true.symm, List.append_nil]
    exact h.reliable
  · rw [received_append, received_onReceive]
    exact hunreliable'

/-- The datagrams of one segment. -/
lemma Delivery.Tracks.foldl (ho : o.Sound) (hsmall : o.Small) {n n' : ℕ}
    {datagrams : List Datagram} (hcarries : o.Carries n datagrams n') (h : d.Tracks o taken prior)
    (hn : taken ≤ n) : (datagrams.foldl Delivery.receive d).Tracks o n' prior := by
  induction hcarries generalizing d taken with
  | nil n => exact h.mono hn
  | rel hget rest ih => exact ih (h.receive_reliable hsmall hget) hn
  | unrel hget hrc rest ih => exact ih (h.receive_unreliable ho hsmall hn hget hrc) le_rfl

/-- A segment that has been received, under its number. -/
def IsSegment (o : Outbox) (x : ℕ × Segment) : Prop :=
  ∃ datagrams, o.segments[x.1]? = some datagrams ∧ x.2.data = datagrams.flatMap encodeDatagram

lemma IsSegment.mono {o' : Outbox} {x : ℕ × Segment} (h : IsSegment o x) (hle : o.Extends o') :
    IsSegment o' x := by
  obtain ⟨datagrams, hget, hdata⟩ := h
  exact ⟨datagrams, Outbox.get_of_isPrefix hle.segments hget, hdata⟩

/-- Segments that are released in order, before the next one that is expected. -/
lemma Delivery.Tracks.segments (bd : Build) (ho : o.Sound) (hsmall : o.Small) {base next : ℕ}
    {xs : List (ℕ × Segment)} (hordered : Ordered base xs) (hbefore : ∀ x ∈ xs, x.1 < next)
    (hle : base ≤ next) (hitems : ∀ x ∈ xs, IsSegment o x)
    (hcarries : o.Carries 0 (o.segments.take base).flatten taken) (h : d.Tracks o taken prior) :
    ∃ d' taken', d.segments bd (SegmentRx.dataOf xs) = .ok d' ∧
      o.Carries 0 (o.segments.take next).flatten taken' ∧ d'.Tracks o taken' prior := by
  induction xs generalizing base d taken with
  | nil =>
    obtain ⟨taken', htaken, hcarries'⟩ := ho.take_mono hcarries hle
    exact ⟨d, taken', rfl, hcarries', h.mono htaken⟩
  | cons x xs ih =>
    obtain ⟨datagrams, hget, hdata⟩ := hitems x List.mem_cons_self
    obtain ⟨n, htaken, hbefore'⟩ := ho.take_mono hcarries hordered.1
    obtain ⟨n', hsegment, hafter⟩ := ho.segment hbefore' hget
    obtain ⟨d', taken', hok, hcarries', h'⟩ := ih hordered.2
      (fun y hy => hbefore y (List.mem_cons_of_mem _ hy)) (hbefore x List.mem_cons_self)
      (fun y hy => hitems y (List.mem_cons_of_mem _ hy)) hafter
      (h.foldl ho hsmall hsegment htaken)
    refine ⟨d', taken', ?_, hcarries', h'⟩
    unfold Delivery.segments at hok ⊢
    rw [SegmentRx.dataOf, List.map_cons, List.foldlM_cons, hdata,
      segment_encode bd hsegment.data_length_le, ok_bind]
    exact hok

end Delivery

/-- What the receiving half has of the outbox of its peer. -/
structure Incoming (e : Endpoint) (o : Outbox) (b : SegmentQueue) (taken : ℕ)
    (calls : List HostCall) : Prop where
  models : e.segmentRx.Models 0 frameSizeMax b
  pending : ∀ x ∈ b.pending, IsSegment o x
  base_le : b.base ≤ o.segments.length
  carries : o.Carries 0 (o.segments.take b.base).flatten taken
  tracked : Tracked e.unreliableRx e.reliableRx o taken calls

section Incoming
variable {bd : Build} {e e' : Endpoint} {o o' : Outbox} {b : SegmentQueue} {taken : ℕ}
  {prior calls : List HostCall} {segmentRx : SegmentRx} {delivered : List Bytes} {d : Delivery}

lemma IsSegment.lt {x : ℕ × Segment} (h : IsSegment o x) : x.1 < o.segments.length := by
  obtain ⟨datagrams, hget, -⟩ := h
  exact (List.getElem?_eq_some_iff.mp hget).1

lemma Incoming.mono (h : Incoming e o b taken prior) (hle : o.Extends o') :
    Incoming e o' b taken prior := by
  refine ⟨h.models, fun x hx => (h.pending x hx).mono hle,
    h.base_le.trans hle.segments.length_le, ?_, h.tracked.mono hle le_rfl⟩
  have hcarries := h.carries.mono hle
  obtain ⟨more, hmore⟩ := hle.segments
  rwa [← hmore, List.take_append_of_le_length h.base_le]

/-- The receiving half is left alone, and nothing is passed on. -/
lemma Incoming.quiet (h : Incoming e o b taken prior) (hsegment : e'.segmentRx = e.segmentRx)
    (hunreliable : e'.unreliableRx = e.unreliableRx) (hreliable : e'.reliableRx = e.reliableRx)
    (hquiet : ∀ unrel, received unrel calls = []) : Incoming e' o b taken (prior ++ calls) := by
  refine ⟨?_, h.pending, h.base_le, h.carries, ?_⟩
  · rw [hsegment]
    exact h.models
  · rw [hunreliable, hreliable]
    exact h.tracked.quiet hquiet

lemma Incoming.sendOnly (h : Incoming e o b taken prior) (hs : SendOnly e e')
    (hcalls : ∀ call ∈ calls, IsTransport call) : Incoming e' o b taken (prior ++ calls) :=
  h.quiet hs.segmentRx_eq hs.unreliableRx_eq hs.reliableRx_eq fun _ => received_transport hcalls

lemma Incoming.start (h : Incoming e o b taken prior) : e.delivery.Tracks o taken prior := by
  have hnil : prior ++ e.delivery.calls = prior := List.append_nil prior
  unfold Delivery.Tracks
  rw [hnil]
  exact h.tracked

/-- A segment that was sent is taken under its number. -/
theorem Incoming.receive (h : Incoming e o b taken prior) (ho : o.Sound) (hsmall : o.Small)
    {p : ℕ} {nonce : Bool} {datagrams : List Datagram} (hget : o.segments[p]? = some datagrams)
    (hreceive : e.segmentRx.receive bd (idAt 0 p) nonce (datagrams.flatMap encodeDatagram) =
      .ok (segmentRx, delivered)) (hdelivery : e.delivery.segments bd delivered = .ok d) :
    ∃ b' taken', Incoming (e.withDelivery segmentRx d) o b' taken' (prior ++ d.calls) := by
  have hlt := (List.getElem?_eq_some_iff.mp hget).1
  have hsegments := hsmall.segments_lt
  have hbase := h.base_le
  have hold : b.base ≤ p + (2 ^ 32 - segmentWindowSize.toNat) := by
    have hsize : segmentWindowSize.toNat = 4096 := rfl
    omega
  have hnew : p < b.base + 2 ^ 32 := by omega
  set x : ℕ × Segment := (p, ⟨nonce, datagrams.flatMap encodeDatagram⟩)
  have hitem : IsSegment o x := ⟨datagrams, hget, rfl⟩
  obtain ⟨segmentRx', rel, hok, hrel, hmodels⟩ := h.models.receive bd (x := x) hold hnew
    (ho.fits datagrams (List.mem_of_getElem? hget))
  rw [hreceive] at hok
  cases hok
  obtain ⟨hordered, hbefore⟩ := Reorder.Buffer.offer_released hrel
  have hmem : ∀ y ∈ rel ++ (b.offer x).pending, IsSegment o y := by
    intro y hy
    rcases Reorder.Buffer.mem_offer_new hrel hy with rfl | hy
    · exact hitem
    · exact h.pending y hy
  obtain ⟨d', taken', hok, hcarries, htracks⟩ := h.start.segments bd ho hsmall hordered hbefore
    (b.base_le_offer x) (fun y hy => hmem y (List.mem_append_left _ hy)) h.carries
  rw [hdelivery] at hok
  cases hok
  refine ⟨b.offer x, taken', hmodels, fun y hy => hmem y (List.mem_append_right _ hy), ?_,
    hcarries, htracks⟩
  exact Reorder.Buffer.offer_base_le hbase hitem.lt fun y hy => (h.pending y hy).lt

/-- A sync names a number of segments that were sent, and all those kept are delivered. -/
theorem Incoming.sync (h : Incoming e o b taken prior) (ho : o.Sound) (hsmall : o.Small) {q : ℕ}
    (hq : q ≤ o.segments.length)
    (hsync : e.segmentRx.sync (idAt 0 q) = .ok (segmentRx, delivered))
    (hdelivery : e.delivery.segments bd delivered = .ok d) :
    ∃ b' taken', Incoming
      (e.withDelivery segmentRx { d with unreliableRx := d.unreliableRx.reset }) o b' taken'
      (prior ++ d.calls) := by
  have hsegments := hsmall.segments_lt
  have hbase := h.base_le
  have hreset : ∀ {d : Delivery} {taken : ℕ}, d.Tracks o taken prior →
      Tracked d.unreliableRx.reset d.reliableRx o taken (prior ++ d.calls) := by
    rintro d taken ⟨hrel, hunrel, hreliable, done, hunreliable⟩
    exact ⟨hrel, hunrel, hreliable, done, hunreliable.reset⟩
  by_cases hacc : e.segmentRx.SyncAccepts (idAt 0 q)
  · have hle : b.base ≤ q := by
      by_contra hlt
      have hwindow := hacc.2
      rw [BitVec.le_def, h.models.tracks.size_eq, h.models.tracks.baseId_eq,
        toNat_sub_of_lt 0 (not_le.mp hlt) (by omega)] at hwindow
      have hsize : segmentWindowSize.toNat = 4096 := rfl
      omega
    have hlt : q < b.base + 2 ^ 32 := by omega
    obtain ⟨segmentRx', hok, hmodels⟩ := h.models.sync hle hlt hacc
    rw [hsync] at hok
    cases hok
    obtain ⟨-, hall, -⟩ := (h.models.syncAccepts_iff hle hlt).mp hacc
    obtain ⟨hbase', hpending', -⟩ := Reorder.Buffer.skipTo_of_le hle hall
    obtain ⟨d', taken', hok, hcarries, htracks⟩ := h.start.segments bd ho hsmall
      (b.ordered.weaken (Nat.le_succ _)) hall hle h.pending h.carries
    rw [hdelivery] at hok
    cases hok
    refine ⟨b.skipTo q, taken', hmodels, ?_, ?_, ?_, hreset htracks⟩
    · rw [hpending']
      simp
    · rw [hbase']
      exact hq
    · rw [hbase']
      exact hcarries
  · rw [SegmentRx.sync_reject hacc] at hsync
    cases hsync
    cases hdelivery
    exact ⟨b, taken, h.models, h.pending, h.base_le, h.carries, hreset h.start⟩

end Incoming

section Effects
variable {bd : Build} {e e' : Endpoint} {o : Outbox} {b : SegmentQueue} {taken nowMs : ℕ}
  {prior calls : List HostCall} {r r' : PayloadReader} {d : Delivery}

/-- The rest of a payload behind the ack in front of it. -/
lemma AckPart.reader {ack : StreamAck} {rest : Bytes}
    (hs : AckPart bd nowMs e (PayloadReader.new (LawfulBlock.encode ack ++ rest)) true
      (some (e', r', calls))) (hvalid : LawfulBlock.Valid ack) :
    r'.readIdx ≤ r'.buffer.length ∧ r'.buffer.drop r'.readIdx = rest := by
  obtain ⟨r₁, hok, -, hle, hdrop⟩ := PayloadReader.read_encode bd
    (r := PayloadReader.new (LawfulBlock.encode ack ++ rest)) (Nat.zero_le _)
    (rfl : _ = LawfulSerial.encode ack ++ rest) hvalid
  cases hs with
  | ack hread hstep =>
    rw [hread] at hok
    cases hok
    exact ⟨hle, hdrop⟩

lemma Incoming.dataPart_segment (h : Incoming e o b taken prior) (ho : o.Sound)
    (hsmall : o.Small) (hs : DataPart bd e r (e', d)) {p : ℕ} {nonce : Bool}
    {datagrams : List Datagram} (hget : o.segments[p]? = some datagrams)
    (hr : r.readIdx ≤ r.buffer.length)
    (hdrop : r.buffer.drop r.readIdx =
      LawfulBlock.encode (⟨idAt 0 p, nonce⟩ : StreamSegmentHeader) ++
        datagrams.flatMap encodeDatagram) :
    ∃ b' taken', Incoming e' o b' taken' (prior ++ d.calls) := by
  have hvalid : LawfulSerial.Valid (⟨idAt 0 p, nonce⟩ : StreamSegmentHeader) := trivial
  obtain ⟨r₁, hok, -, hle, hrest⟩ := PayloadReader.read_encode bd hr hdrop hvalid
  cases hs with
  | absent => exact ⟨b, taken, h.quiet rfl rfl rfl fun _ => rfl⟩
  | segment hread hbytes hreceive hdelivery =>
    rw [hread] at hok
    cases hok
    have hall : r₁.remainingBytes = .ok ((r₁.buffer.drop r₁.readIdx).take _) :=
      slice_of_le hle le_rfl
    rw [hall, List.take_of_length_le (by simp), hrest] at hbytes
    cases hbytes
    exact h.receive ho hsmall hget hreceive hdelivery

/-- A frame without a segment passes nothing on. -/
lemma Incoming.dataPart_exhausted (h : Incoming e o b taken prior)
    (hs : DataPart bd e r (e', d)) (hr : r.readIdx ≤ r.buffer.length)
    (hdrop : r.buffer.drop r.readIdx = []) : Incoming e' o b taken (prior ++ d.calls) := by
  have hend : r.readIdx = r.buffer.length := by
    have hlen := List.drop_eq_nil_iff.mp hdrop
    omega
  cases hs with
  | absent => exact h.quiet rfl rfl rfl fun _ => rfl
  | segment hread hbytes hreceive hdelivery =>
    rw [read_exhausted hend] at hread
    cases hread

lemma Incoming.streamRun {frameType : FrameType} {payloadBytes : Bytes}
    (h : Incoming e o b taken prior) (ho : o.Sound) (hsmall : o.Small)
    (hframe : o.Honest frameType payloadBytes)
    (hs : StreamRun bd nowMs e frameType payloadBytes calls e') :
    ∃ b' taken', Incoming e' o b' taken' (prior ++ calls) := by
  cases hs with
  | truncated hparts hack => exact ⟨b, taken, h.quiet rfl rfl rfl fun _ => rfl⟩
  | @run readAck readData e₁ e₂ e' r d ackCalls flushCalls hparts hack hdata hflush =>
    have h₁ : Incoming e₁ o b taken (prior ++ ackCalls) :=
      h.sendOnly hack.frame.2 hack.isTransport
    have h₂ : ∃ b' taken', Incoming e₂ o b' taken' (prior ++ ackCalls ++ d.calls) := by
      cases hframe with
      | segment hget =>
        cases hparts
        cases hack with
        | absent => exact h₁.dataPart_segment ho hsmall hdata hget (Nat.zero_le _) rfl
      | segmentAck hvalid hget =>
        cases hparts
        obtain ⟨hr, hdrop⟩ := hack.reader hvalid
        exact h₁.dataPart_segment ho hsmall hdata hget hr hdrop
      | @ack ack hvalid =>
        cases hparts
        rw [← List.append_nil (LawfulBlock.encode ack)] at hack
        obtain ⟨hr, hdrop⟩ := hack.reader hvalid
        exact ⟨b, taken, h₁.dataPart_exhausted hdata hr hdrop⟩
      | sync hle => cases hparts
      | close => cases hparts
      | closeAck => cases hparts
    obtain ⟨b', taken', h₂⟩ := h₂
    have h' := h₂.sendOnly hflush.sendOnly hflush.isTransport
    rw [List.append_assoc, List.append_assoc, ← List.append_assoc ackCalls] at h'
    exact ⟨b', taken', h'⟩

variable (bd) in
lemma read_streamSync (q : ℕ) : ∃ r,
    (PayloadReader.new (LawfulBlock.encode (StreamSync.mk (idAt 0 q)))).read StreamSync bd =
      .ok (some ⟨idAt 0 q⟩, r) := by
  obtain ⟨r, hok, -⟩ := PayloadReader.read_encode bd
    (r := PayloadReader.new (LawfulBlock.encode (StreamSync.mk (idAt 0 q)))) (Nat.zero_le _)
    (List.append_nil (LawfulSerial.encode (StreamSync.mk (idAt 0 q)))).symm trivial
  exact ⟨r, hok⟩

lemma Incoming.syncRun {payloadBytes : Bytes} (h : Incoming e o b taken prior) (ho : o.Sound)
    (hsmall : o.Small) (hframe : o.Honest .streamSync payloadBytes)
    (hs : SyncRun bd nowMs e payloadBytes calls e') :
    ∃ b' taken', Incoming e' o b' taken' (prior ++ calls) := by
  cases hs with
  | truncated => exact ⟨b, taken, h.quiet rfl rfl rfl fun _ => rfl⟩
  | run hread hsync hdelivery hflush =>
    cases hframe with
    | @sync q hle =>
      obtain ⟨r', hok⟩ := read_streamSync bd q
      rw [hread] at hok
      cases hok
      obtain ⟨b', taken', h₁⟩ := h.sync ho hsmall hle hsync hdelivery
      have h' := h₁.sendOnly hflush.sendOnly hflush.isTransport
      rw [List.append_assoc] at h'
      exact ⟨b', taken', h'⟩

/-- What every call takes from the outbox of the peer, if the frame that it handles tells the
truth. -/
theorem Effect.incoming {input : Input} (hs : Effect bd nowMs e input calls e')
    (h : Incoming e o b taken prior) (ho : o.Sound) (hsmall : o.Small)
    (hframe : ∀ frameType payloadBytes, input = .frame frameType payloadBytes →
      o.Honest frameType payloadBytes) :
    ∃ b' taken', Incoming e' o b' taken' (prior ++ calls) := by
  cases hs with
  | flush hs hflush => exact ⟨b, taken, h.sendOnly hflush.sendOnly hflush.isTransport⟩
  | stream hs hrun => exact h.streamRun ho hsmall (hframe _ _ rfl) hrun
  | sync hs hrun => exact h.syncRun ho hsmall (hframe _ _ rfl) hrun
  | @resend timer rtoMs rtoSumMs timeMs ccState rest e' hs htimer hback hcc hflush =>
    have hstart : Incoming ((e.rearmed rtoMs rtoSumMs).resending ccState) o b taken
        (prior ++ [.setRtoTimer timeMs, .sendFrame (syncFrame e.segmentTx.nextId)]) :=
      h.quiet rfl rfl rfl fun _ => rfl
    have h' := hstart.sendOnly hflush.sendOnly hflush.isTransport
    rw [List.append_assoc] at h'
    exact ⟨b, taken, h'⟩
  | _ => exact ⟨b, taken, h.quiet rfl rfl rfl fun _ => rfl⟩

/-- A new endpoint has received nothing. -/
lemma Incoming.new {config : Config} (hfresh : e.Fresh config) :
    ∃ b, Incoming e .empty b 0 [] := by
  obtain ⟨hunreliableSize, hunreliableBase, hunreliable⟩ := hfresh.unreliableRx_eq
  obtain ⟨hreliableSize, hreliableNext, hreliable⟩ := hfresh.reliableRx_eq
  refine ⟨Reorder.Buffer.empty Segment 2 segmentWindowSize.toNat, hfresh.models, ?_, le_rfl, .nil 0,
    hreliableSize, hunreliableSize, ⟨0, hreliableNext.trans (idAt_zero 0).symm, le_rfl, ?_⟩,
    ⟨[], .nil, .nil, by simp, ?_⟩⟩
  · simp [Reorder.Buffer.empty]
  · rw [hreliable]
    rfl
  · rw [hunreliable]
    simp

end Effects

end Endpoint

end Redpine

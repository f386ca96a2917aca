import Redpine.EndpointSession
import Redpine.FragmentTransfer
import Redpine.Transition

/-! The segments that an endpoint sends, and how many bytes they count in transit. Where no empty
packet is enqueued, a segment that is sent counts at least one. -/
namespace Redpine
open Machine Buffer Wire SerialId Transition

namespace FragmentTxBuffers

/-- No fragment in the queues is empty. -/
structure Filled (b : FragmentTxBuffers) : Prop where
  unrel : ∀ entry ∈ b.unrel.fragments, 0 < entry.fragment.view.data.length
  rel : ∀ rc ∈ b.rel.fragments, 0 < rc.view.data.length

section Filled
variable {bd : Build} {b b' : FragmentTxBuffers} {nowMs : ℕ} {datagram : Datagram}
  {datagrams : List Datagram}

lemma fragmentsOf_pos {fragmentSize : ℕ} {packet : Bytes} {rc : FragmentRc}
    (hpos : 0 < fragmentSize) (hne : packet ≠ []) (h : rc ∈ fragmentsOf fragmentSize packet) :
    0 < rc.view.data.length :=
  (fragmentsOf_isFragmentOf hpos h).pos hne

lemma Filled.enqueue (h : b.Filled) {packetBytes : Bytes} {mode : SendMode}
    (hne : packetBytes ≠ []) (hok : b.enqueue bd packetBytes mode nowMs = .ok b') : b'.Filled := by
  cases mode with
  | reliable =>
    cases hok
    refine ⟨h.unrel, fun rc hrc => ?_⟩
    rcases List.mem_append.mp hrc with hrc | hrc
    · exact h.rel rc hrc
    · exact fragmentsOf_pos b.rel.fragmentSize_pos hne hrc
  | unreliable timeoutMs =>
    obtain ⟨first, -, hok⟩ := bind_eq_ok.mp hok
    obtain ⟨expireTimeMs, -, hok⟩ := bind_eq_ok.mp hok
    cases hok
    refine ⟨fun entry hentry => ?_, h.rel⟩
    rcases List.mem_append.mp hentry with hentry | hentry
    · exact h.unrel entry hentry
    · obtain ⟨rc, hrc, rfl⟩ := List.mem_map.mp hentry
      exact fragmentsOf_pos b.unrel.fragmentSize_pos hne hrc

lemma Filled.acknowledge (h : b.Filled) {relFragmentId : Option U32}
    (hok : b.acknowledge bd relFragmentId = .ok b') : b'.Filled := by
  cases relFragmentId with
  | none =>
    cases hok
    exact h
  | some id =>
    obtain ⟨r, hrel, hok⟩ := bind_eq_ok.mp hok
    cases hok
    refine ⟨h.unrel, fun rc hrc => h.rel rc ?_⟩
    unfold Reliable.TxBuffer.acknowledge at hrel
    by_cases hid : id = b.rel.sendWindow.baseId
    · rw [if_pos hid] at hrel
      obtain ⟨count, -, hrel⟩ := bind_eq_ok.mp hrel
      cases hrel
      dsimp only at hrc
      split_ifs at hrc
      · exact hrc
      · exact hrc
    · rw [if_neg hid] at hrel
      by_cases hle : id - b.rel.sendWindow.baseId ≤ b.rel.maxAckId - b.rel.sendWindow.baseId
      · simp only [if_pos hle] at hrel
        obtain ⟨fragments, hdrain, hrel⟩ := bind_eq_ok.mp hrel
        cases hrel
        unfold Reliable.TxBuffer.drain at hdrain
        split_ifs at hdrain
        cases hdrain
        exact List.mem_of_mem_drop hrc
      · simp only [if_neg hle] at hrel
        cases hrel
        exact hrc

lemma Filled.handleTimeout (h : b.Filled) : b.handleTimeout.Filled := ⟨h.unrel, h.rel⟩

lemma Filled.popExpired (h : b.Filled) (nowMs : ℕ) : (b.popExpired nowMs).Filled :=
  ⟨fun entry hentry => h.unrel entry (mem_popExpired hentry), h.rel⟩

/-- What is popped is not empty. -/
lemma Filled.pops (h : b.Filled) (hp : Pops nowMs b datagram b') :
    0 < datagram.data.length ∧ b'.Filled := by
  cases hp with
  | @unrel entry rest prio hfront hprio =>
    have hpopped := (h.popExpired nowMs).unrel
    rw [hfront] at hpopped
    exact ⟨hpopped entry List.mem_cons_self,
      fun x hx => hpopped x (List.mem_cons_of_mem _ hx), h.rel⟩
  | @rel id rc rel prio hpop hprio =>
    obtain ⟨-, hget, hfragments, -⟩ := popSendable_moves hpop
    refine ⟨h.rel rc (List.mem_of_getElem? hget), (h.popExpired nowMs).unrel, fun x hx => ?_⟩
    dsimp only at hx
    rw [hfragments] at hx
    exact h.rel x hx

lemma Filled.sends (h : b.Filled) (hs : Sends nowMs b datagrams b') :
    (∀ d ∈ datagrams, 0 < d.data.length) ∧ b'.Filled := by
  induction hs with
  | done b => exact ⟨by simp, h.popExpired nowMs⟩
  | step hpops _ ih =>
    obtain ⟨hpos, hfilled⟩ := h.pops hpops
    obtain ⟨hrest, hfilled'⟩ := ih hfilled
    refine ⟨fun d hd => ?_, hfilled'⟩
    rcases List.mem_cons.mp hd with rfl | hd
    · exact hpos
    · exact hrest d hd

end Filled

end FragmentTxBuffers

namespace Endpoint

/-- `flush_stream` is entered by a call on an endpoint. -/
inductive FlushEntry (bd : Build) (e : Endpoint) (nowMs : ℕ) :
    (sendAck ackRel : Bool) → Endpoint → Prop
  | flush (hs : e.stateId = .active) : FlushEntry bd e nowMs false false e
  | stream {frameType : FrameType} {payloadBytes : Bytes} {readAck readData : Bool}
      {e₁ e₂ : Endpoint} {reader : PayloadReader} {ackCalls : List HostCall} {d : Delivery}
      (hs : e.stateId = .active) (hparts : streamParts frameType = .ok (readAck, readData))
      (hack : readAckPart bd readAck e (PayloadReader.new payloadBytes) nowMs =
        .ok (some (e₁, reader, ackCalls)))
      (hdata : readDataPart bd readData e₁ reader = .ok (e₂, d)) :
      FlushEntry bd e nowMs d.sendAck d.ackRel e₂
  | sync {payloadBytes : Bytes} {sync : StreamSync} {reader : PayloadReader}
      {segmentRx : SegmentRx} {delivered : List Bytes} {d : Delivery} (hs : e.stateId = .active)
      (hread : (PayloadReader.new payloadBytes).read StreamSync bd = .ok (some sync, reader))
      (hsync : e.segmentRx.sync sync.nextSegmentId = .ok (segmentRx, delivered))
      (hdelivery : e.delivery.segments bd delivered = .ok d) :
      FlushEntry bd e nowMs true true
        (e.withDelivery segmentRx { d with unreliableRx := d.unreliableRx.reset })
  | timer {e₁ : Endpoint} {calls : List HostCall} {ccState : AimdReno} (hs : e.stateId = .active)
      (hback : e.backOff bd nowMs = .ok (e₁, calls, .continue))
      (hcc : e₁.ccState.handleTimeout bd = .ok ccState) :
      FlushEntry bd e nowMs false false (e₁.resending ccState)

/-- A pass through the loop of `flush_stream` begins in some state, in a call on an endpoint. -/
inductive FlushPass (bd : Build) (e : Endpoint) (nowMs : ℕ) :
    (sendAck ackRel : Bool) → Endpoint → Prop
  | entry {sendAck ackRel : Bool} {e₁ : Endpoint} (h : FlushEntry bd e nowMs sendAck ackRel e₁) :
      FlushPass bd e nowMs sendAck ackRel e₁
  | next {sendAck ackRel nonce : Bool} {e₁ e₂ : Endpoint} {calls : List HostCall}
      (h : FlushPass bd e nowMs sendAck ackRel e₁)
      (hstep : e₁.flushStep bd nonce sendAck ackRel nowMs = .ok (e₂, some calls)) :
      FlushPass bd e nowMs false ackRel e₂

/-- The frame writer that is handed to `FragmentTxBuffers::flush`. -/
def segmentWriter (bd : Build) (nonce sendAck ackRel : Bool) (e : Endpoint) : Exec FrameWriter := do
  let frameType ← flushFrameType sendAck true
  let frameWriter ← FrameWriter.new bd frameSizeMax frameType
  let frameWriter ← e.writeAck bd sendAck ackRel frameWriter
  let (frameWriter, _) ← frameWriter.write bd (⟨e.segmentTx.nextId, nonce⟩ : StreamSegmentHeader)
  return frameWriter

section Passes
variable {bd : Build} {e e' : Endpoint} {nowMs : ℕ} {sendAck ackRel nonce : Bool}
  {calls : List HostCall}

/-- The sending half is sound and no fragment is empty. -/
def Accounted (bd : Build) (nowMs : ℕ) (e : Endpoint) : Prop :=
  (∃ v, e.Sender bd False nowMs v) ∧ e.fragmentTx.Filled

lemma AckPart.filled {readAck : Bool} {r r' : PayloadReader}
    (hs : AckPart bd nowMs e r readAck (some (e', r', calls))) (h : e.fragmentTx.Filled) :
    e'.fragmentTx.Filled := by
  cases hs with
  | absent => exact h
  | ack hread hstep => exact h.acknowledge hstep.fragmentTx

lemma DataPart.filled {r : PayloadReader} {d : Delivery} (hs : DataPart bd e r (e', d))
    (h : e.fragmentTx.Filled) : e'.fragmentTx.Filled := by
  cases hs with
  | absent => exact h
  | segment hread hbytes hreceive hdelivery => exact h

lemma Accounted.ack (h : e.Accounted bd nowMs) {readAck : Bool} {r r' : PayloadReader}
    (hs : AckPart bd nowMs e r readAck (some (e', r', calls))) : e'.Accounted bd nowMs := by
  obtain ⟨⟨v, hsender⟩, hfilled⟩ := h
  obtain ⟨_, _, _, hsender'⟩ := hs.sender hsender
  exact ⟨⟨_, hsender'⟩, hs.filled hfilled⟩

lemma Accounted.data (h : e.Accounted bd nowMs) {r : PayloadReader} {d : Delivery}
    (hs : DataPart bd e r (e', d)) : e'.Accounted bd nowMs := by
  obtain ⟨⟨v, hsender⟩, hfilled⟩ := h
  exact ⟨⟨v, hs.sender hsender⟩, hs.filled hfilled⟩

lemma Accounted.resending (h : e.Accounted bd nowMs) {rtoMs : ℕ} (rtoSumMs : ℕ)
    (hrto : rtoMs ≤ rtoMaxMs) {ccState : AimdReno}
    (hcc : e.ccState.handleTimeout bd = .ok ccState) :
    ((e.rearmed rtoMs rtoSumMs).resending ccState).Accounted bd nowMs := by
  obtain ⟨⟨v, hsender⟩, hfilled⟩ := h
  exact ⟨⟨_, hsender.resending rtoSumMs hrto hcc⟩, hfilled.handleTimeout⟩

lemma Accounted.expire (h : e.Accounted bd nowMs) : (e.expire nowMs).Accounted bd nowMs := by
  obtain ⟨⟨v, hsender⟩, hfilled⟩ := h
  exact ⟨⟨v, hsender.expire⟩, hfilled.popExpired nowMs⟩

lemma Accounted.segment (h : e.Accounted bd nowMs) {datagrams : List Datagram}
    (hs : SegmentStep bd nonce nowMs e datagrams e' calls) : e'.Accounted bd nowMs := by
  obtain ⟨⟨v, hsender⟩, hfilled⟩ := h
  obtain ⟨_, _, -, -, hsender'⟩ := hs.sender hsender
  exact ⟨⟨_, hsender'⟩, (hfilled.sends hs.sends).2⟩

lemma Accounted.flushRun (h : e.Accounted bd nowMs)
    (hs : FlushRun bd ackRel nowMs sendAck e calls e') : e'.Accounted bd nowMs := by
  induction hs with
  | stop hdata => exact h.expire
  | ack hdata rest ih => exact ih h.expire
  | segment hdata hstep rest ih => exact ih (h.expire.segment hstep)

/-- The sending half is as sound where `flush_stream` is entered as it is before the call. -/
lemma FlushEntry.sender (hentry : FlushEntry bd e nowMs sendAck ackRel e') {v : SenderView}
    (h : e.Sender bd False nowMs v) :
    (∃ v', e'.Sender bd False nowMs v') ∧ (e.fragmentTx.Filled → e'.fragmentTx.Filled) := by
  cases hentry with
  | flush hs => exact ⟨⟨v, h⟩, id⟩
  | @stream frameType payloadBytes readAck readData e₁ _ reader ackCalls d hs hparts hack hdata =>
    obtain ⟨hpart, hframe⟩ := (readAckPart_spec h False.elim readAck
      (r := PayloadReader.new payloadBytes) (Nat.zero_le _)).elim hack
    obtain ⟨hbuffer, hle, -⟩ := hframe _ _ _ rfl
    have hspec := @readDataPart_spec bd False e₁ readData _ (hbuffer ▸ hle) False.elim
    have hdata := hspec.elim hdata
    obtain ⟨_, _, _, hsender⟩ := hpart.sender h
    exact ⟨⟨_, hdata.sender hsender⟩, fun hfilled => hdata.filled (hpart.filled hfilled)⟩
  | sync hs hread hsync hdelivery => exact ⟨⟨v, h.withDelivery _ _⟩, id⟩
  | timer hs hback hcc =>
    obtain ⟨timer, rtoSumMs, -, hcases⟩ := backOff_cases hback
    rcases hcases with ⟨-, -, -, -, hterminate⟩ | ⟨rtoMs, timeMs, hrearm, rfl, -, -⟩
    · cases hterminate
    · exact ⟨⟨_, h.resending rtoSumMs hrearm.rto_le hcc⟩, fun hfilled => hfilled.handleTimeout⟩

lemma Accounted.entry (h : e.Accounted bd nowMs)
    (hentry : FlushEntry bd e nowMs sendAck ackRel e') : e'.Accounted bd nowMs := by
  obtain ⟨⟨v, hsender⟩, hfilled⟩ := h
  obtain ⟨hsender', hfilled'⟩ := hentry.sender hsender
  exact ⟨hsender', hfilled' hfilled⟩

lemma Accounted.pass (h : e.Accounted bd nowMs)
    (hpass : FlushPass bd e nowMs sendAck ackRel e') : e'.Accounted bd nowMs := by
  induction hpass with
  | entry hentry => exact h.entry hentry
  | @next sendAck ackRel nonce e₁ e₂ calls _ hstep ih =>
    obtain ⟨v, hsender⟩ := ih.1
    rcases (hsender.flushStep False.elim nonce sendAck ackRel).elim hstep with
      ⟨-, -, hr⟩ | ⟨-, -, hr⟩ | ⟨-, datagrams, timerCalls, hsegment, -, -⟩
    · cases hr
    · cases hr
      exact ih.expire
    · exact ih.expire.segment hsegment

lemma segmentWriter_eq (bd : Build) (nonce sendAck ackRel : Bool) (e : Endpoint) :
    e.segmentWriter bd nonce sendAck ackRel =
      .ok ⟨frameSizeMax, typeBits (if sendAck then .streamSegmentAck else .streamSegment) ::
        (e.ackBytes sendAck ackRel ++
          LawfulBlock.encode (⟨e.segmentTx.nextId, nonce⟩ : StreamSegmentHeader))⟩ := by
  have htype : flushFrameType sendAck true =
      .ok (if sendAck then .streamSegmentAck else .streamSegment) := by
    cases sendAck <;> rfl
  have hlen := e.ackBytes_length sendAck ackRel
  unfold segmentWriter
  rw [htype, ok_bind, FrameWriter.new_eq (by decide), ok_bind, writeAck_eq, ok_bind,
    write_segmentHeader bd _ rfl (by simp only [List.length_cons]; omega), ok_bind]
  rfl

/-- A pass that sends data writes at least one datagram, and some bytes. -/
lemma Accounted.writes (h : e.Accounted bd nowMs) (hdata : e.sendData nowMs = true)
    (nonce sendAck ackRel : Bool) :
    ∃ w b w' size datagrams,
      (e.expire nowMs).segmentWriter bd nonce sendAck ackRel = .ok w ∧
      (e.expire nowMs).fragmentTx.flush bd w nowMs = .ok (b, w', size) ∧
      FragmentTxBuffers.WrittenBehind bd w w' datagrams ∧ datagrams ≠ [] ∧ 0 < size := by
  obtain ⟨⟨v, hsender⟩, hfilled⟩ := h.expire
  obtain ⟨-, -, hsendable⟩ := (e.sendData_iff nowMs).mp hdata
  have hsendable' : ((e.expire nowMs).fragmentTx.popExpired nowMs).sendable = true := by
    change ((e.fragmentTx.popExpired nowMs).popExpired nowMs).sendable = true
    rwa [popExpired_idem]
  have hlen := (e.expire nowMs).ackBytes_length sendAck ackRel
  set header : StreamSegmentHeader := ⟨(e.expire nowMs).segmentTx.nextId, nonce⟩ with hheader
  have hencode : (LawfulBlock.encode header).length = 5 := rfl
  set p := (e.expire nowMs).ackBytes sendAck ackRel ++ LawfulBlock.encode header with hp
  have hroom : p.length ≤ 14 := by
    rw [hp, List.length_append, hencode]
    omega
  obtain ⟨datagrams, b, w', size, hflush, hsends, hw, -, hne⟩ :=
    FragmentTxBuffers.flush_spec (w := ⟨frameSizeMax,
      typeBits (if sendAck then .streamSegmentAck else .streamSegment) :: p⟩)
      bd nowMs hsender.queues (by decide)
      (by simp only [List.length_cons, frameSizeMax]; omega)
      (by simp only [frameSizeMax]; omega)
  have hne' : datagrams ≠ [] := by
    refine hne hsendable' ?_
    simp only [List.length_cons, frameSizeMax, fragmentSize]
    omega
  obtain ⟨-, -, -, -, -, hgood⟩ := hsender.queues.sends hsends
  obtain ⟨hpos, -⟩ := hfilled.sends hsends
  refine ⟨_, b, w', size, datagrams, segmentWriter_eq .., hflush,
    FragmentTxBuffers.writtenBehind _ hw fun d hd => (hgood d hd).1.trans (by decide), hne', ?_⟩
  rw [hw.total_eq, Nat.zero_add]
  obtain ⟨d, rest, rfl⟩ := List.exists_cons_of_ne_nil hne'
  have hfirst := hpos d List.mem_cons_self
  rw [List.map_cons, List.sum_cons]
  omega

lemma Accounted.effect {input : Input} (h : e.Accounted bd nowMs)
    (hfills : ∀ packetBytes mode, input = .enqueue packetBytes mode → e.stateId = .active →
      packetBytes ≠ [])
    (heffect : Effect bd nowMs e input calls e') : e'.fragmentTx.Filled := by
  cases heffect with
  | enqueue hs hqueue => exact h.2.enqueue (hfills _ _ rfl hs) hqueue
  | flush hs hflush => exact (h.flushRun hflush).2
  | stream hs hrun =>
    cases hrun with
    | truncated hparts hack => exact h.2
    | run hparts hack hdata hflush => exact (((h.ack hack).data hdata).flushRun hflush).2
  | sync hs hrun =>
    cases hrun with
    | truncated => exact h.2
    | run hread hsync hdelivery hflush =>
      obtain ⟨⟨v, hsender⟩, hfilled⟩ := h
      have h' := Accounted.flushRun ⟨⟨v, hsender.withDelivery _ _⟩, hfilled⟩ hflush
      exact h'.2
  | resend hs htimer hback hcc hflush =>
    exact ((h.resending _ hback.rto_le hcc).flushRun hflush).2
  | _ => exact h.2

end Passes

end Endpoint

namespace EndpointSegments
open Endpoint

structure Call where
  input : Input
  nowMs : ℕ
  nonces : ℕ → Bool

def Initial (bd : Build) (e : Endpoint) : Prop :=
  ∃ config : Endpoint.Config, config.Accepted bd ∧ Endpoint.new config = .ok e

/-- A call that returns. -/
def Step (bd : Build) (e : Endpoint) (call : Call) (e' : Endpoint) : Prop :=
  ∃ calls, e.perform bd call.nonces call.input call.nowMs = .ok (e', calls)

def system (bd : Build) : System Endpoint Call := ⟨Initial bd, Step bd⟩

/-- The packet that is accepted by a call, if any, is not empty. -/
def Fills (e : Endpoint) (call : Call) : Prop :=
  ∀ packetBytes mode, call.input = .enqueue packetBytes mode → e.stateId = .active →
    packetBytes ≠ []

section Invariant
variable {bd : Build} {past : List (Endpoint × Call)} {e e' : Endpoint} {call : Call}

lemma sound_initial (h : Initial bd e) : e.Sound bd := by
  obtain ⟨config, hconfig, hnew⟩ := h
  exact new_isSound hconfig hnew

lemma filled_initial (h : Initial bd e) : e.fragmentTx.Filled := by
  obtain ⟨config, hconfig, hnew⟩ := h
  have hrel := (new_sender bd False 0 hconfig hnew).queues.rel.fragments_eq
  have hunrel := (new_fresh hnew).unrel_eq.1
  constructor
  · simp [hunrel]
  · simp [hrel]

lemma filled_step (h : e.Sound bd ∧ e.fragmentTx.Filled) (hfills : Fills e call)
    (hstep : Step bd e call e') : e'.Sound bd ∧ e'.fragmentTx.Filled := by
  obtain ⟨hsound, hfilled⟩ := h
  obtain ⟨calls, hok⟩ := hstep
  obtain ⟨heffect, hsound'⟩ := hsound.perform hok
  obtain ⟨v, hsender⟩ := hsound
  have haccounted : e.Accounted bd call.nowMs := ⟨⟨v, hsender.later False.elim⟩, hfilled⟩
  exact ⟨hsound', haccounted.effect hfills heffect⟩

lemma filled_run (run : Run (system bd) past e) (hpast : ∀ p ∈ past, Fills p.1 p.2) :
    e.Sound bd ∧ e.fragmentTx.Filled := by
  have hrule := @Run.invariant _ _ (system bd) (fun e => e.Sound bd ∧ e.fragmentTx.Filled) Fills
  exact hrule (fun _ h => ⟨sound_initial h, filled_initial h⟩)
    (fun _ _ _ h hfills hstep => filled_step h hfills hstep) run hpast

/-- Where no accepted packet was empty, a pass of `flush_stream` that decides to send data writes
a datagram, and some bytes. -/
theorem segment_counts (run : Run (system bd) past e) (hpast : ∀ p ∈ past, Fills p.1 p.2)
    {nowMs : ℕ} {sendAck ackRel : Bool} (hpass : FlushPass bd e nowMs sendAck ackRel e')
    (hdata : e'.sendData nowMs = true) (nonce : Bool) :
    ∃ w b w' size datagrams,
      (e'.expire nowMs).segmentWriter bd nonce sendAck ackRel = .ok w ∧
      (e'.expire nowMs).fragmentTx.flush bd w nowMs = .ok (b, w', size) ∧
      FragmentTxBuffers.WrittenBehind bd w w' datagrams ∧ datagrams ≠ [] ∧ 0 < size := by
  obtain ⟨⟨v, hsender⟩, hfilled⟩ := filled_run run hpast
  have haccounted : e.Accounted bd nowMs := ⟨⟨v, hsender.later False.elim⟩, hfilled⟩
  exact (haccounted.pass hpass).writes hdata nonce sendAck ackRel

end Invariant

section Sample

def next (bd : Build) (e : Endpoint) (call : Call) : Option Endpoint :=
  (e.perform bd call.nonces call.input call.nowMs).toOption.map Prod.fst

lemma next_step {bd : Build} (e : Endpoint) (call : Call) (e' : Endpoint)
    (h : next bd e call = some e') : Step bd e call e' := by
  obtain ⟨r, hok, rfl⟩ := toOption_map_eq_some.mp h
  exact ⟨r.2, hok⟩

def start (config : Endpoint.Config) : Option Endpoint := (Endpoint.new config).toOption

lemma start_initial {bd : Build} {e : Endpoint} (h : start (sampleConfig 10000) = some e) :
    Initial bd e :=
  ⟨sampleConfig 10000, sampleConfig_accepted bd 10000, toOption_eq_some.mp h⟩

def interpreter (bd : Build) : Executable (system bd) where
  start := start (sampleConfig 10000)
  next := next bd
  start_init _ := start_initial
  next_step := next_step

/-- A packet is enqueued as soon as the endpoint is active. -/
def enqueueFirst (packetBytes : Bytes) : List Call :=
  [⟨.init, 0, fun _ => false⟩, ⟨.enqueue packetBytes .reliable, 0, fun _ => false⟩]

/-- The size that a flush after this reports. -/
def sizeOf (bd : Build) (e : Endpoint) : Option ℕ :=
  match e.segmentWriter bd false false false with
  | .ok w =>
    match e.fragmentTx.flush bd w 0 with
    | .ok (_, _, size) => some size
    | .error _ => none
  | .error _ => none

end Sample

theorem segment_counts_sample : ∃ (e : Endpoint) (past : List (Endpoint × Call)) (w w' : FrameWriter)
    (b : FragmentTxBuffers) (size : ℕ), Run (system .debug) past e ∧ e.stateId = .active ∧
      (e.expire 0).segmentWriter .debug false false false = .ok w ∧
      (e.expire 0).fragmentTx.flush .debug w 0 = .ok (b, w', size) ∧ 0 < size := by
  have hrun : ((interpreter .debug).exec (enqueueFirst [7])).map
        (fun e => decide (e.stateId = .active ∧ e.sendData 0 = true)) = some true := by
    rfl
  obtain ⟨e, hexec, he⟩ := Option.map_eq_some_iff.mp hrun
  obtain ⟨hactive, hdata⟩ := of_decide_eq_true he
  obtain ⟨past, run, hpast⟩ := Executable.exec_run _ hexec
  have hfills : ∀ p ∈ past, Fills p.1 p.2 := by
    intro p hp packetBytes mode hinput _
    have hmem : p.2 ∈ enqueueFirst [7] := hpast ▸ List.mem_map_of_mem hp
    simp only [enqueueFirst, List.mem_cons, List.not_mem_nil, or_false] at hmem
    rcases hmem with h | h
    · simp [h] at hinput
    · rw [h] at hinput
      cases hinput
      simp
  obtain ⟨w, b, w', size, -, hwriter, hflush, -, -, hpos⟩ :=
    segment_counts run hfills (.entry (.flush hactive)) hdata false
  exact ⟨e, past, w, w', b, size, run, hactive, hwriter, hflush, hpos⟩

/-- An empty packet is a fragment without data, and a segment of it counts nothing. -/
theorem empty_segment : ¬ ∀ (bd : Build) (past : List (Endpoint × Call)) (e e' : Endpoint)
    (nowMs : ℕ) (sendAck ackRel nonce : Bool), Run (system bd) past e →
      FlushPass bd e nowMs sendAck ackRel e' → e'.sendData nowMs = true →
        ∃ w b w' size datagrams,
          (e'.expire nowMs).segmentWriter bd nonce sendAck ackRel = .ok w ∧
          (e'.expire nowMs).fragmentTx.flush bd w nowMs = .ok (b, w', size) ∧
          FragmentTxBuffers.WrittenBehind bd w w' datagrams ∧ datagrams ≠ [] ∧ 0 < size := by
  intro hclaim
  have hrun : ((interpreter .debug).exec (enqueueFirst [])).map
        (fun e => decide (e.stateId = .active ∧ e.sendData 0 = true ∧
          sizeOf .debug (e.expire 0) = some 0)) = some true := by
    rfl
  obtain ⟨e, hexec, he⟩ := Option.map_eq_some_iff.mp hrun
  obtain ⟨hactive, hdata, hsize⟩ := of_decide_eq_true he
  obtain ⟨past, run, -⟩ := Executable.exec_run _ hexec
  obtain ⟨w, b, w', size, -, hwriter, hflush, -, -, hpos⟩ :=
    hclaim .debug past e e 0 false false false run (.entry (.flush hactive)) hdata
  simp only [sizeOf, hwriter, hflush, Option.some.injEq] at hsize
  exact absurd hsize hpos.ne'

end EndpointSegments

end Redpine

import Redpine.ServerTable

/-! Address validation. The code in the second request of a handshake is one that the server
has sent to the same IP address and port, unless it is forged or the hash function collides. -/
namespace Redpine.ServerRun
open Machine Buffer Wire Endpoint Transition Server ServerCore

/-- The answer to a first request, as it is sent. -/
def ackFrameBytes (ack : HandshakeAlphaAckFrame) : Bytes :=
  frameOf .handshakeAlphaAck (LawfulBlock.encode ack)

/-- The server has sent the answer to the address. -/
def HasAnswered (s : State) (ack : HandshakeAlphaAckFrame) (addr : SocketAddr) : Prop :=
  .reply (ackFrameBytes ack) addr ∈ s.emitted

/-- The bytes that the code of an answer authenticates. -/
def ackInput (ack : HandshakeAlphaAckFrame) (addr : SocketAddr) : Bytes :=
  HandshakeMacHasher.input addr ack.clientNonce ack.serverNonce ack.serverTimestamp

/-- Every code that has been sent is the hash of bytes that have been hashed. -/
def AcksHashed (hash : Bytes → U64) (s : State) : Prop :=
  ∀ ack addr, HasAnswered s ack addr →
    ack.serverMac = hash (ackInput ack addr) ∧ ackInput ack addr ∈ s.hashed

/-- A valid code in a request has been sent by the server, to whomever. -/
def Unforged (bd : Build) (hash : Bytes → U64) (s : State) (a : Action) : Prop :=
  ∀ draws frameBytes addr frame, a = .frame draws frameBytes addr →
    readBeta bd frameBytes = .ok (some frame) → macValid hash frame addr = true →
      ∃ ack addr', HasAnswered s ack addr' ∧ ack.serverMac = frame.serverMac

section Frames
variable {bd : Build} {frameBytes : Bytes}

lemma frameOf_injective {frameType frameType' : FrameType} {p p' : Bytes}
    (h : frameOf frameType p = frameOf frameType' p') : frameType = frameType' ∧ p = p' := by
  have htype := congrArg (readType .debug) h
  rw [readType_frameOf, readType_frameOf] at htype
  have hpayload := congrArg (payload .debug) h
  rw [payload_frameOf, payload_frameOf] at hpayload
  cases htype
  cases hpayload
  exact ⟨rfl, rfl⟩

lemma ackFrameBytes_injective {ack ack' : HandshakeAlphaAckFrame}
    (h : ackFrameBytes ack = ackFrameBytes ack') : ack = ack' := by
  have hread := congrArg (readPayload HandshakeAlphaAckFrame .debug) (frameOf_injective h).2
  have hencode : ∀ obj : HandshakeAlphaAckFrame,
      readPayload HandshakeAlphaAckFrame .debug (LawfulBlock.encode obj) = .ok (some obj) := by
    intro obj
    have hread : readPayload HandshakeAlphaAckFrame .debug (LawfulBlock.encode obj ++ []) =
        .ok (some obj) := readPayload_encode .debug [] trivial
    rwa [List.append_nil] at hread
  rw [hencode, hencode] at hread
  cases hread
  rfl

/-- Only frames of the largest size are first requests. -/
lemma readAlpha_length {frame : HandshakeAlphaFrame}
    (h : readAlpha bd frameBytes = .ok (some frame)) : frameBytes.length = 1472 := by
  obtain ⟨valid, hverify, h⟩ := bind_eq_ok.mp h
  unfold verifyHandshakeAlphaSizeAndCrc at hverify
  by_cases hlen : frameBytes.length = min Server.frameSizeMax handshakeAlphaFrameSizeMax
  · exact hlen
  · rw [if_neg hlen] at hverify
    cases hverify
    cases h

end Frames

section Codes
variable {bd : Build} {hash : Bytes → U64} {s s' : State} {a : Action}

variable (hash) in
lemma hashedBy_alpha {draws : Draws} {frameBytes : Bytes} {addr : SocketAddr}
    {frame : HandshakeAlphaFrame} (htype : readType bd frameBytes = .ok (some .handshakeAlpha))
    (hread : readAlpha bd frameBytes = .ok (some frame)) : hashedBy bd draws frameBytes addr =
      [ackInput (alphaAck hash draws.serverNonce frame addr draws.nowMs) addr] := by
  simp only [hashedBy, htype, hread]
  rfl

lemma hashedBy_beta {draws : Draws} {frameBytes : Bytes} {addr : SocketAddr}
    {frame : HandshakeBetaFrame} (htype : readType bd frameBytes = .ok (some .handshakeBeta))
    (hread : readBeta bd frameBytes = .ok (some frame)) : hashedBy bd draws frameBytes addr =
      [HandshakeMacHasher.input addr frame.clientNonce frame.serverNonce
        frame.serverTimestamp] := by
  simp only [hashedBy, htype, hread]

/-- Something else than the answer to a first request is sent. -/
lemma AcksHashed.append (h : AcksHashed hash s) {more : List Emission}
    (hemitted : s'.emitted = s.emitted ++ more) (hhashed : ∀ bytes ∈ s.hashed, bytes ∈ s'.hashed)
    (hmore : ∀ ack addr, .reply (ackFrameBytes ack) addr ∈ more →
      ack.serverMac = hash (ackInput ack addr) ∧ ackInput ack addr ∈ s'.hashed) :
    AcksHashed hash s' := by
  intro ack addr hsent
  unfold HasAnswered at hsent
  rw [hemitted] at hsent
  rcases List.mem_append.mp hsent with hsent | hsent
  · obtain ⟨hmac, hmem⟩ := h ack addr hsent
    exact ⟨hmac, hhashed _ hmem⟩
  · exact hmore ack addr hsent

lemma reply_not_mem_host {frameBytes : Bytes} {addr addr' : SocketAddr} {peer : PeerRef}
    {calls : List HostCall} :
    Emission.reply frameBytes addr ∉ calls.map (Emission.host peer addr') := by
  intro h
  obtain ⟨call, -, h⟩ := List.mem_map.mp h
  cases h

/-- The calls of a peer carry no code of the server. -/
lemma AcksHashed.called (h : AcksHashed hash s) {call : Endpoint → Exec (Endpoint × List HostCall)}
    {peer : PeerRef} {core : ServerCore} {emissions : List Emission}
    (hok : s.core.callPeer peer call = .ok (core, emissions))
    (hemitted : s'.emitted = s.emitted ++ emissions) (hhashed : s'.hashed = s.hashed) :
    AcksHashed hash s' := by
  obtain ⟨p, e, calls, -, -, -, rfl⟩ := callPeer_eq_ok hok
  exact h.append hemitted (fun _ hmem => hhashed ▸ hmem)
    fun ack addr hmem => absurd hmem reply_not_mem_host

lemma AcksHashed.fired (h : AcksHashed hash s) {peer : PeerRef} {core : ServerCore}
    {emissions : List Emission} {nonces : ℕ → Bool} {nowMs : ℕ}
    (hok : s.core.fireNext bd nonces peer nowMs = .ok (core, emissions))
    (hemitted : s'.emitted = s.emitted ++ emissions) (hhashed : s'.hashed = s.hashed) :
    AcksHashed hash s' := by
  obtain ⟨p, -, hok⟩ := bind_eq_ok.mp hok
  obtain ⟨⟨e, calls, action⟩, -, hok⟩ := bind_eq_ok.mp hok
  have hhost : emissions = calls.map (.host peer p.addr) := by
    cases action <;> cases hok <;> rfl
  rw [hhost] at hemitted
  exact h.append hemitted (fun _ hmem => hhashed ▸ hmem)
    fun ack addr hmem => absurd hmem reply_not_mem_host

lemma AcksHashed.frame (h : AcksHashed hash s) {draws : Draws} {frameBytes : Bytes}
    {addr : SocketAddr} {core : ServerCore} {emissions : List Emission}
    (hstep : FrameStep bd hash draws s.core frameBytes addr core emissions)
    (hemitted : s'.emitted = s.emitted ++ emissions)
    (hhashed : s'.hashed = s.hashed ++ hashedBy bd draws frameBytes addr) :
    AcksHashed hash s' := by
  refine h.append hemitted (fun _ hmem => hhashed ▸ List.mem_append_left _ hmem) ?_
  intro ack addr' hmem
  cases hstep with
  | ignored hnone => cases hmem
  | alpha htype hread hack =>
    obtain ⟨hbytes, rfl⟩ := Emission.reply.inj (List.mem_singleton.mp hmem)
    obtain rfl := ackFrameBytes_injective (hbytes.trans hack)
    refine ⟨rfl, ?_⟩
    rw [hhashed, hashedBy_alpha hash htype hread]
    exact List.mem_append_right _ (List.mem_singleton_self _)
  | answered hrequest herror hack =>
    obtain ⟨hbytes, -⟩ := Emission.reply.inj (List.mem_singleton.mp hmem)
    exact absurd (frameOf_injective (hbytes.trans hack)).1 (by decide)
  | created hrequest hlookup hcount hprio hnew hack =>
    rcases List.mem_cons.mp hmem with hmem | hmem
    · cases hmem
    · obtain ⟨hbytes, -⟩ := Emission.reply.inj (List.mem_singleton.mp hmem)
      exact absurd (frameOf_injective (hbytes.trans hack)).1 (by decide)
  | delivered htype hother hpayload hlookup hp hcall => exact absurd hmem reply_not_mem_host

lemma AcksHashed.step (h : AcksHashed hash s) (hstep : Step bd hash s a s') :
    AcksHashed hash s' := by
  cases hstep with
  | frame hpass hclock hok => exact h.frame (handleFrame_step hok) rfl rfl
  | fireNext hpass hbuffer hclock hok => exact h.fired hok rfl rfl
  | send hhandle hclock hok => exact h.called hok rfl rfl
  | enqueue hhandle hclock hok => exact h.called hok rfl rfl
  | flush hhandle hclock hok => exact h.called hok rfl rfl
  | disconnect hhandle hclock hok => exact h.called hok rfl rfl
  | _ => exact h

theorem acksHashed_reachable (hs : Reachable (system bd hash) s) : AcksHashed hash s := by
  refine hs.invariant (fun s h => ?_) fun s a s' h hstep => h.step hstep
  obtain ⟨config, core, hbind, rfl⟩ := h
  intro ack addr hsent
  cases hsent

end Codes

/-- A peer is created only if the server has sent an answer with the nonces and the timestamp of
the request to the IP address and port that the request comes from, at most ten seconds ago. -/
def CreatesValidated (bd : Build) (s : State) (a : Action) (s' : State) : Prop :=
  ∀ peer p, s.core.heap.length ≤ peer → s'.core.heap[peer]? = some p →
    ∃ draws frameBytes frame ack addr, a = .frame draws frameBytes p.addr ∧
      readBeta bd frameBytes = .ok (some frame) ∧
      HasAnswered s ack addr ∧ addr.SameEndpoint p.addr ∧
      ack.clientNonce = frame.clientNonce ∧ ack.serverNonce = frame.serverNonce ∧
      ack.serverTimestamp = frame.serverTimestamp ∧
      (timestamp draws.nowMs - ack.serverTimestamp).toNat < 10000

/-- A first request, and a second request that leads to no peer, leave the core alone. -/
def RequestsStateless (bd : Build) (s : State) (a : Action) (s' : State) : Prop :=
  ∀ draws frameBytes addr, a = .frame draws frameBytes addr →
    (readType bd frameBytes = .ok (some .handshakeAlpha) ∨
      (readType bd frameBytes = .ok (some .handshakeBeta) ∧
        s'.core.heap.length = s.core.heap.length)) → s'.core = s.core

/-- A frame from an address without a peer is answered to this address, with at most one frame,
which is not longer. -/
def DoesNotAmplify (s : State) (a : Action) (s' : State) : Prop :=
  ∀ draws frameBytes addr, a = .frame draws frameBytes addr → s.core.peers.lookup addr = none →
    ∃ more, s'.emitted = s.emitted ++ more ∧ (more.filterMap Emission.frame).length ≤ 1 ∧
      ∀ reply ∈ more.filterMap Emission.frame,
        reply.1.length ≤ frameBytes.length ∧ reply.2 = addr

section Validation
variable {bd : Build} {hash : Bytes → U64} {s s' : State} {a : Action}

lemma heap_length_of_change (h : Change bd hash s a s')
    (hnew : s.core.heap.length < s'.core.heap.length) :
    ∃ draws frameBytes addr, a = .frame draws frameBytes addr := by
  cases h with
  | still hstill hclock hemitted hreplies =>
    rw [hstill.heap_eq] at hnew
    exact absurd hnew (lt_irrefl _)
  | collected hpass hqueue => exact absurd hnew (lt_irrefl _)
  | tested hpass hqueue hp => simp at hnew
  | fired hpass hbuffer hclock hp heffect hsound => simp at hnew
  | delivered hpass hclock hlookup hp heffect hsound => exact ⟨_, _, _, rfl⟩
  | created hpass hclock hrequest hlookup hcount haccepted hnew => exact ⟨_, _, _, rfl⟩
  | used hhandle hclock hp hrun hsound hdisconnect hdisconnected => simp at hnew

/-- Two valid codes that are equal authenticate the same bytes. -/
lemma same_request (hacks : AcksHashed hash s) (hhashed : ∀ bytes ∈ s.hashed, bytes ∈ s'.hashed)
    (hcollision : Set.InjOn hash {bytes | bytes ∈ s'.hashed}) {ack : HandshakeAlphaAckFrame}
    {addr addr' : SocketAddr} {frame : HandshakeBetaFrame} (hsent : HasAnswered s ack addr')
    (hmac : ack.serverMac = frame.serverMac) (hvalid : macValid hash frame addr = true)
    (hinput : HandshakeMacHasher.input addr frame.clientNonce frame.serverNonce
      frame.serverTimestamp ∈ s'.hashed) :
    addr'.SameEndpoint addr ∧ ack.clientNonce = frame.clientNonce ∧
      ack.serverNonce = frame.serverNonce ∧ ack.serverTimestamp = frame.serverTimestamp := by
  obtain ⟨hcode, hmem⟩ := hacks ack addr' hsent
  have hsame : hash (ackInput ack addr') = hash (HandshakeMacHasher.input addr
      frame.clientNonce frame.serverNonce frame.serverTimestamp) := by
    rw [← hcode, hmac]
    exact of_decide_eq_true hvalid
  exact HandshakeMacHasher.input_injective (hcollision (hhashed _ hmem) hinput hsame)

lemma createsValidated (hs : Reachable (system bd hash) s) (h : Step bd hash s a s')
    (hunforged : Unforged bd hash s a)
    (hcollision : Set.InjOn hash {bytes | bytes ∈ s'.hashed}) : CreatesValidated bd s a s' := by
  intro peer p hle hp
  have hnew : s.core.heap.length < s'.core.heap.length := lt_of_le_of_lt hle (lt_of_getElem? hp)
  obtain ⟨draws, frameBytes, addr, rfl⟩ := heap_length_of_change (change_of_reachable hs h) hnew
  cases h with
  | @frame _ _ _ core emissions hpass hclock hok =>
    have hstep := handleFrame_step hok
    cases hstep with
    | ignored hnone => exact absurd hnew (lt_irrefl _)
    | alpha htype hread hack => exact absurd hnew (lt_irrefl _)
    | answered hrequest herror hack => exact absurd hnew (lt_irrefl _)
    | delivered htype hother hpayload hlookup hp hcall => simp at hnew
    | @created frame ackBytes prioConfig e hrequest hlookup hcount hprio hnew' hack =>
      obtain ⟨htype, hread, hvalid, htime⟩ := hrequest
      have haddr : p.addr = addr := by
        have hlast : ∀ r q, (s.core.withCreated addr e).heap[r]? = some q →
            s.core.heap.length ≤ r → q.addr = addr :=
          forall_append (fun r q hq hr => absurd (lt_of_getElem? hq) (not_lt.mpr hr)) fun _ => rfl
        exact hlast peer p hp hle
      obtain ⟨ack, addr', hsent, hmac⟩ :=
        hunforged draws frameBytes addr frame rfl hread hvalid
      have hinput : HandshakeMacHasher.input addr frame.clientNonce frame.serverNonce
          frame.serverTimestamp ∈ s.hashed ++ hashedBy bd draws frameBytes addr := by
        rw [hashedBy_beta htype hread]
        exact List.mem_append_right _ (List.mem_singleton_self _)
      obtain ⟨hendpoint, hclient, hserver, htimestamp⟩ := same_request (acksHashed_reachable hs)
        (fun _ hmem => List.mem_append_left _ hmem) hcollision hsent hmac hvalid hinput
      refine ⟨draws, frameBytes, frame, ack, addr', by rw [haddr], hread, hsent,
        by rwa [haddr], hclient, hserver, htimestamp, ?_⟩
      rw [htimestamp]
      exact of_decide_eq_true htime

lemma requestsStateless (h : Step bd hash s a s') : RequestsStateless bd s a s' := by
  rintro draws frameBytes addr rfl htypes
  cases h with
  | frame hpass hclock hok =>
    have hstep := handleFrame_step hok
    cases hstep with
    | ignored hnone => rfl
    | alpha htype hread hack => rfl
    | answered hrequest herror hack => rfl
    | created hrequest hlookup hcount hprio hnew hack =>
      rcases htypes with htype' | ⟨-, hlen⟩
      · cases hrequest.1.symm.trans htype'
      · simp [withCreated] at hlen
    | delivered htype hother hpayload hlookup hp hcall =>
      rcases htypes with htype' | ⟨htype', -⟩
      · rw [htype] at htype'
        cases htype'
        exact absurd rfl hother.1
      · rw [htype] at htype'
        cases htype'
        exact absurd rfl hother.2

lemma doesNotAmplify (h : Step bd hash s a s') : DoesNotAmplify s a s' := by
  rintro draws frameBytes addr rfl hnone
  cases h with
  | frame hpass hclock hok =>
    have hstep := handleFrame_step hok
    refine ⟨_, rfl, ?_⟩
    cases hstep with
    | ignored hnone => simp
    | @alpha frame ackBytes htype hread hack =>
      have hlen : ackBytes.length = 33 := by
        rw [hack, frameOf_length]
        rfl
      simp [Emission.frame, readAlpha_length hread, hlen]
    | @answered frame ackBytes error hrequest herror hack =>
      have hlen : ackBytes.length = 10 := by
        rw [hack, frameOf_length]
        rfl
      simp [Emission.frame, readBeta_length hrequest.2.1, hlen]
    | @created frame ackBytes prioConfig e hrequest hlookup hcount hprio hnew hack =>
      have hlen : ackBytes.length = 10 := by
        rw [hack, frameOf_length]
        rfl
      have hsent : [.host s.core.heap.length addr .onConnect, .reply ackBytes addr].filterMap
          Emission.frame = [(ackBytes, addr)] := rfl
      rw [hsent]
      simp [readBeta_length hrequest.2.1, hlen]
    | delivered htype hother hpayload hlookup hp hcall =>
      rw [hnone] at hlookup
      cases hlookup

/-- Address validation by the handshake. -/
theorem address_validation (hs : Reachable (system bd hash) s) (h : Step bd hash s a s')
    (hunforged : Unforged bd hash s a)
    (hcollision : Set.InjOn hash {bytes | bytes ∈ s'.hashed}) :
    CreatesValidated bd s a s' ∧ RequestsStateless bd s a s' ∧ DoesNotAmplify s a s' :=
  ⟨createsValidated hs h hunforged hcollision, requestsStateless h, doesNotAmplify h⟩

end Validation

/-- A client whose first request has been answered is granted its second request. -/
theorem address_validation_granted : ∃ s s', Reachable (system .debug sampleHash) s ∧
    Step .debug sampleHash s (sampleBeta 100 200) s' ∧ s'.core.heap.length = 1 ∧
    CreatesValidated .debug s (sampleBeta 100 200) s' ∧
    RequestsStateless .debug s (sampleBeta 100 200) s' ∧
    DoesNotAmplify s (sampleBeta 100 200) s' := by
  have hrun : (((sampleStart default).bind fun s =>
      replay (next .debug sampleHash) s [sampleAlpha 100]).bind fun s =>
        (next .debug sampleHash s (sampleBeta 100 200)).map fun s' =>
          (s.emitted, s'.hashed, s'.core.heap.length)) =
      some ([.reply (ackFrameBytes (alphaAck sampleHash 9 ⟨protocolId, 7⟩ sampleAddr 100))
          sampleAddr],
        List.replicate 2 (HandshakeMacHasher.input sampleAddr 7 9 100), 1) := by decide +kernel
  obtain ⟨s, hreplay, hrun⟩ := Option.bind_eq_some_iff.mp hrun
  obtain ⟨s', hnext, hrun⟩ := Option.map_eq_some_iff.mp hrun
  obtain ⟨hemitted, hrun⟩ := Prod.mk.inj hrun
  obtain ⟨hhashed, hlen⟩ := Prod.mk.inj hrun
  have hs := replay_reachable hreplay
  have hstep := next_step hnext
  have hunforged : Unforged .debug sampleHash s (sampleBeta 100 200) := by
    rintro draws frameBytes addr frame ha hread hvalid
    cases ha
    refine ⟨alphaAck sampleHash 9 ⟨protocolId, 7⟩ sampleAddr 100, sampleAddr, ?_, ?_⟩
    · unfold HasAnswered
      rw [hemitted]
      exact List.mem_singleton_self _
    · have hbeta : readBeta .debug (frameOf .handshakeBeta (LawfulBlock.encode
          (HandshakeBetaFrame.mk localParams 7 9 100
            (HandshakeMacHasher.compute sampleHash sampleAddr 7 9 100)))) =
          .ok (some ⟨localParams, 7, 9, 100,
            HandshakeMacHasher.compute sampleHash sampleAddr 7 9 100⟩) := by decide +kernel
      cases hread.symm.trans hbeta
      rfl
  have hcollision : Set.InjOn sampleHash {bytes | bytes ∈ s'.hashed} := by
    intro x hx y hy _
    rw [hhashed] at hx hy
    exact (List.eq_of_mem_replicate hx).trans (List.eq_of_mem_replicate hy).symm
  exact ⟨s, s', hs, hstep, hlen, address_validation hs hstep hunforged hcollision⟩

end Redpine.ServerRun

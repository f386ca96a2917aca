import Redpine.ServerAddress

/-! Whether a granted handshake has a live counterpart. A request from an address that is in the
table is answered with success, whatever the state of the peer there. -/
namespace Redpine.ServerRun
open Machine Buffer Wire Endpoint Transition Server ServerCore

/-- The answer to a second request that is granted, as it is sent. -/
def grantFrameBytes (clientNonce : U32) : Bytes :=
  frameOf .handshakeBetaAck (LawfulBlock.encode (HandshakeBetaAckFrame.mk none clientNonce))

/-- The table holds an active endpoint for the address. -/
def HasActivePeer (core : ServerCore) (addr : SocketAddr) : Prop :=
  ∃ peer p, core.peers.lookup addr = some peer ∧ core.heap[peer]? = some p ∧
    p.endpoint.stateId = .active

/-- Whenever the step answers a request with success, it leaves an active endpoint behind. -/
def Truthful (s : State) (a : Action) (s' : State) : Prop :=
  ∀ draws frameBytes addr more clientNonce, a = .frame draws frameBytes addr →
    s'.emitted = s.emitted ++ more → .reply (grantFrameBytes clientNonce) addr ∈ more →
      HasActivePeer s'.core addr

/-- A valid request finds no peer at its address, or an active one. -/
def FindsActive (bd : Build) (hash : Bytes → U64) (s : State) (a : Action) : Prop :=
  ∀ draws frameBytes addr frame, a = .frame draws frameBytes addr →
    IsRequest bd hash draws frameBytes addr frame → ∀ peer p, s.core.peers.lookup addr = some peer →
      s.core.heap[peer]? = some p → p.endpoint.stateId = .active

section Reply
variable {bd : Build} {hash : Bytes → U64} {s s' : State} {a : Action}

lemma grant_ne_alphaAck {ack : HandshakeAlphaAckFrame} {clientNonce : U32} :
    grantFrameBytes clientNonce ≠ frameOf .handshakeAlphaAck (LawfulBlock.encode ack) :=
  fun h => absurd (frameOf_injective h).1 (by decide)

/-- The code of the answer tells whether the request has been granted. -/
lemma grant_eq {error : Option HandshakeErrorKind} {clientNonce clientNonce' : U32}
    (h : grantFrameBytes clientNonce =
      frameOf .handshakeBetaAck (LawfulBlock.encode (HandshakeBetaAckFrame.mk error clientNonce'))) :
    error = none := by
  have hhead := (List.cons.inj (frameOf_injective h).2).1
  have hstatus := congrArg handshakeErrorOfStatus hhead
  rw [handshakeErrorOfStatus_status, handshakeErrorOfStatus_status] at hstatus
  exact hstatus.symm

lemma truthful_of_findsActive (hs : Reachable (system bd hash) s) (h : Step bd hash s a s')
    (hfinds : FindsActive bd hash s a) : Truthful s a s' := by
  rintro draws frameBytes addr more clientNonce rfl hemitted hmem
  cases h with
  | frame hpass hclock hok =>
    have hmore := List.append_cancel_left hemitted
    rw [← hmore] at hmem
    have hstep := handleFrame_step hok
    cases hstep with
    | ignored hnone => cases hmem
    | alpha htype hread hack =>
      obtain ⟨hbytes, -⟩ := Emission.reply.inj (List.mem_singleton.mp hmem)
      exact absurd (hbytes.trans hack) grant_ne_alphaAck
    | answered hrequest herror hack =>
      obtain ⟨hbytes, -⟩ := Emission.reply.inj (List.mem_singleton.mp hmem)
      have hsome := herror.mp (grant_eq (hbytes.trans hack))
      obtain ⟨peer, hlookup⟩ := Option.isSome_iff_exists.mp hsome
      obtain ⟨p, hp, -⟩ := ((inv_reachable hs).live addr peer).mp hlookup
      exact ⟨peer, p, hlookup, hp,
        hfinds draws frameBytes addr _ rfl hrequest peer p hlookup hp⟩
    | created hrequest hlookup hcount hprio hnew hack =>
      exact ⟨s.core.heap.length, _, AList.lookup_insert _, List.getElem?_concat_length, rfl⟩
    | delivered htype hother hpayload hlookup hp hcall => exact absurd hmem reply_not_mem_host

lemma findsActive_of_truthful (h : Step bd hash s a s') (htruthful : Truthful s a s') :
    FindsActive bd hash s a := by
  rintro draws frameBytes addr frame rfl hrequest peer p hlookup hp
  cases h with
  | frame hpass hclock hok =>
    have hstep := handleFrame_step hok
    cases hstep with
    | ignored hnone => exact absurd hrequest (hnone frame)
    | alpha htype hread hack => cases hrequest.1.symm.trans htype
    | answered hrequest' herror hack =>
      cases hrequest.2.1.symm.trans hrequest'.2.1
      have hnone := herror.mpr (by rw [hlookup]; rfl)
      subst hnone
      obtain ⟨peer', p', hlookup', hp', hactive⟩ := htruthful draws frameBytes addr _
        frame.clientNonce rfl rfl (List.mem_singleton.mpr (by rw [hack]; rfl))
      rw [hlookup] at hlookup'
      cases hlookup'
      rw [hp] at hp'
      cases hp'
      exact hactive
    | created hrequest' hnone hcount hprio hnew hack => cases hlookup.symm.trans hnone
    | delivered htype hother hpayload hlookup' hp' hcall =>
      cases hrequest.1.symm.trans htype
      exact absurd rfl hother.2

/-- A granted handshake has a live counterpart exactly where the request finds no peer at its
address, or an active one. -/
theorem truthful_iff (hs : Reachable (system bd hash) s) (h : Step bd hash s a s') :
    Truthful s a s' ↔ FindsActive bd hash s a :=
  ⟨findsActive_of_truthful h, truthful_of_findsActive hs h⟩

end Reply

/-- A client that is granted its second request, whose counterpart is active. -/
theorem truthful_iff_granted : ∃ s s', Reachable (system .debug sampleHash) s ∧
    Step .debug sampleHash s (sampleBeta 100 200) s' ∧
    (∃ more, s'.emitted = s.emitted ++ more ∧ .reply (grantFrameBytes 7) sampleAddr ∈ more) ∧
    (Truthful s (sampleBeta 100 200) s' ↔
      FindsActive .debug sampleHash s (sampleBeta 100 200)) := by
  have hrun : (((sampleStart default).bind fun s =>
      replay (next .debug sampleHash) s [sampleAlpha 100]).bind fun s =>
        (next .debug sampleHash s (sampleBeta 100 200)).map fun s' =>
          decide (s'.emitted = s.emitted ++
            [.host 0 sampleAddr .onConnect, .reply (grantFrameBytes 7) sampleAddr])) =
      some true := by decide +kernel
  obtain ⟨s, hreplay, hrun⟩ := Option.bind_eq_some_iff.mp hrun
  obtain ⟨s', hnext, hrun⟩ := Option.map_eq_some_iff.mp hrun
  have hs := replay_reachable hreplay
  have hstep := next_step hnext
  exact ⟨s, s', hs, hstep, ⟨_, of_decide_eq_true hrun, by simp⟩, truthful_iff hs hstep⟩

/-- A client that has been disconnected connects again from its address, while the table still
holds its closed peer: it is told that its request is granted. -/
theorem closed_peer_granted : ∃ s a s', Reachable (system .debug sampleHash) s ∧
    Step .debug sampleHash s a s' ∧ ¬ Truthful s a s' := by
  have hrun : (((sampleStart default).bind fun s => replay (next .debug sampleHash) s
      [sampleAlpha 100, sampleBeta 100 200, .poll, .disconnect 0 300, sampleCloseAck 400,
        sampleAlpha 500]).bind fun s =>
        (next .debug sampleHash s (sampleBeta 500 600)).map fun s' =>
          (decide (s'.emitted = s.emitted ++ [.reply (grantFrameBytes 7) sampleAddr]),
            s'.core.peers.lookup sampleAddr,
            s'.core.heap[0]?.map fun p => p.endpoint.stateId)) =
      some (true, some 0, some .closed) := by decide +kernel
  obtain ⟨s, hreplay, hrun⟩ := Option.bind_eq_some_iff.mp hrun
  obtain ⟨s', hnext, hrun⟩ := Option.map_eq_some_iff.mp hrun
  obtain ⟨hemitted, hrun⟩ := Prod.mk.inj hrun
  obtain ⟨hlookup, hclosed⟩ := Prod.mk.inj hrun
  refine ⟨s, _, s', replay_reachable hreplay, next_step hnext, fun htruthful => ?_⟩
  obtain ⟨peer, p, hlookup', hp, hactive⟩ := htruthful _ _ _ _ 7 rfl
    (of_decide_eq_true hemitted) (List.mem_singleton_self _)
  cases hlookup.symm.trans hlookup'
  rw [hp] at hclosed
  cases (Option.some.inj hclosed).symm.trans hactive

end Redpine.ServerRun

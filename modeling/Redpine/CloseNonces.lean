import Redpine.ClientLifecycle
import Redpine.EndpointFrames
import Redpine.ServerTable

/-! Close frames and the nonces of the handshake. The nonces never reach the endpoints, all of
which expect and send the nonce zero. -/
namespace Redpine.CloseNonces
open Machine Buffer Wire Endpoint Transition ServerRun

/-- An endpoint, at any point of its run, of a connection whose handshake used these nonces. On
the client they are those of the second request, which it has sent. -/
inductive Established (bd : Build) (hash : Bytes → U64) (clientNonce serverNonce : U32) :
    Endpoint → Prop
  | client {s₀ s : ClientRun.State} {state : Client.HandshakeState} {serverTimestamp : U32}
      {serverMac : U64} {e : Endpoint} (hs : Reachable (ClientRun.system bd) s₀)
      (hstate : s₀.core.state = .handshake state) (hphase : state.phase = .beta)
      (hframe : state.frame = frameOf .handshakeBeta
        (handshakeBytes localParams clientNonce serverNonce serverTimestamp serverMac))
      (hcontinues : Continues (ClientRun.system bd) s₀ s) (hactive : s.core.state = .active e) :
      Established bd hash clientNonce serverNonce e
  | server {s : ServerRun.State} {peer : Server.PeerRef} {p : Peer} {creation : Creation}
      (hs : Reachable (ServerRun.system bd hash) s) (hp : s.core.heap[peer]? = some p)
      (hcreation : s.created[peer]? = some creation)
      (hnonces : creation.frame.clientNonce = clientNonce ∧
        creation.frame.serverNonce = serverNonce) :
      Established bd hash clientNonce serverNonce p.endpoint

/-- The endpoint sends the frame when it is called in some way. -/
def Sends (bd : Build) (e : Endpoint) (frameBytes : Bytes) : Prop :=
  ∃ nonces input nowMs e' calls, e.perform bd nonces input nowMs = .ok (e', calls) ∧
    .sendFrame frameBytes ∈ calls

/-- The frame is a close frame, or acknowledges one. -/
def Closes (bd : Build) (frameBytes : Bytes) : Prop :=
  readType bd frameBytes = .ok (some .close) ∨ readType bd frameBytes = .ok (some .closeAck)

/-- The endpoint regards the close frame, or its acknowledgement, as that of its peer. -/
def Accepts (bd : Build) (e : Endpoint) (frameBytes : Bytes) : Prop :=
  ∃ payloadBytes, payload bd frameBytes = .ok payloadBytes ∧
    ((readType bd frameBytes = .ok (some .close) ∧
      e.validateCloseFrame bd payloadBytes = .ok true) ∨
    (readType bd frameBytes = .ok (some .closeAck) ∧
      e.validateCloseAckFrame bd payloadBytes = .ok true))

/-- No frame with which the first endpoint closes its connection is accepted by the second. -/
def BoundTo (bd : Build) (e e' : Endpoint) : Prop :=
  ∀ frameBytes, Sends bd e frameBytes → Closes bd frameBytes → ¬ Accepts bd e' frameBytes

/-- Both nonces of an endpoint are zero. -/
def ZeroNonces (e : Endpoint) : Prop := e.localNonce = 0 ∧ e.remoteNonce = 0

section Zero
variable {bd : Build} {hash : Bytes → U64} {e e' : Endpoint} {nowMs : ℕ} {input : Input}
  {calls : List HostCall} {clientNonce serverNonce : U32}

lemma ZeroNonces.effect (h : ZeroNonces e) (heffect : Effect bd nowMs e input calls e') :
    ZeroNonces e' := by
  have hsame := heffect.nonces
  exact ⟨hsame.localNonce_eq.trans h.1, hsame.remoteNonce_eq.trans h.2⟩

lemma ZeroNonces.run (h : ZeroNonces e) (hrun : UserRun bd nowMs e calls e') : ZeroNonces e' := by
  cases hrun with
  | single heffect hinput => exact h.effect heffect
  | send henqueue hflush => exact (h.effect henqueue).effect hflush

lemma client_kept : ClientRun.KeptBySteps bd fun state _ _ =>
    ∀ e, state = .active e → ZeroNonces e := by
  intro state events frames state' events' frames' hsound h hstep e he
  cases hstep with
  | handshake => cases he
  | fail kind => cases he
  | activate hsound' hactive hnonces hcalls =>
    cases he
    exact hnonces
  | endpoint hinput heffect hsound' halive =>
    cases he
    exact (h _ rfl).effect heffect
  | terminate heffect halive hzombie => cases he

lemma client_zero {s : ClientRun.State} (hs : Reachable (ClientRun.system bd) s)
    (he : s.core.state = .active e) : e.Sound bd ∧ ZeroNonces e := by
  have hkept := ClientRun.reachable_keeps client_kept (fun state frames e he => by cases he) hs
  refine ⟨?_, hkept.2 e he⟩
  have hsound := hkept.1
  rw [he] at hsound
  exact hsound

lemma server_zero {s : ServerRun.State} (hs : Reachable (ServerRun.system bd hash) s) :
    ∀ (r : Server.PeerRef) (p : Peer), s.core.heap[r]? = some p → ZeroNonces p.endpoint := by
  induction hs using Reachable.induct with
  | init h =>
    obtain ⟨config, -, rfl⟩ := ServerRun.fresh_of_initial h
    simp
  | @step s s' a hs hstep ih =>
    cases change_of_reachable hs hstep with
    | still hstill hclock hemitted hreplies =>
      rw [hstill.heap_eq]
      exact ih
    | collected hpass hqueue => exact ih
    | @tested nowMs remaining timerQueue peer p hpass hqueue hp =>
      refine forall_set (fun r q _ => ih r q) ?_
      rw [test_endpoint]
      exact ih peer p hp
    | @fired peer rest nowMs nonces p e calls hpass hbuffer hclock hp heffect hsound =>
      exact forall_set (fun r q _ => ih r q) ((ih peer p hp).effect heffect)
    | @delivered _ _ _ _ _ peer p e calls hpass hclock hlookup hp heffect hsound =>
      exact forall_set (fun r q _ => ih r q) ((ih peer p hp).effect heffect)
    | created hpass hclock hrequest hlookup hcount haccepted hnew =>
      have hfresh := new_fresh hnew
      exact forall_append ih ⟨hfresh.localNonce_eq, hfresh.remoteNonce_eq⟩
    | @used _ peer p e calls nowMs disconnected hhandle hclock hp hrun hsound hdisconnect
        hdisconnected =>
      exact forall_set (fun r q _ => ih r q) ((ih peer p hp).run hrun)

lemma Established.zero (h : Established bd hash clientNonce serverNonce e) :
    e.Sound bd ∧ e.stateId ≠ .preInit ∧ ZeroNonces e := by
  cases h with
  | client hs hstate hphase hframe hcontinues hactive =>
    have hs' := hs.continues hcontinues
    obtain ⟨hsound, hzero⟩ := client_zero hs' hactive
    exact ⟨hsound, ClientRun.ne_preInit hs' e hactive, hzero⟩
  | server hs hp hcreation hnonces =>
    have hinv := inv_reachable hs
    exact ⟨hinv.sound _ _ hp, hinv.ne_preInit _ _ hp, server_zero hs _ _ hp⟩

/-- Whatever closes one connection closes any other. -/
lemma accepts_of_sends (hsound : e.Sound bd) (hzero : ZeroNonces e) (hzero' : ZeroNonces e')
    {frameBytes : Bytes} (hsends : Sends bd e frameBytes) (hcloses : Closes bd frameBytes) :
    Accepts bd e' frameBytes := by
  obtain ⟨nonces, input, nowMs, e₁, calls, hperform, hmem⟩ := hsends
  have hsent := (hsound.perform hperform).1.sent hmem
  have hnonce : e.remoteNonce = e'.localNonce := hzero.2.trans hzero'.1.symm
  rcases hsent.readType bd with ⟨-, frameType, htype, hread⟩ | ⟨-, hread, hpayload⟩ |
      ⟨-, hread, hpayload⟩
  · rcases hcloses with hclose | hclose
    · cases hread.symm.trans hclose
      exact htype.elim
    · cases hread.symm.trans hclose
      exact htype.elim
  · refine ⟨_, hpayload, .inl ⟨hread, ?_⟩⟩
    rw [validateCloseFrame_encode, decide_eq_true hnonce]
  · refine ⟨_, hpayload, .inr ⟨hread, ?_⟩⟩
    rw [validateCloseAckFrame_encode, decide_eq_true hnonce]

/-- An endpoint that is not over acknowledges a close frame, and an active one sends one. -/
lemma sends_closeAckFrame (hpre : e.stateId ≠ .preInit) (hzombie : e.stateId ≠ .zombie)
    (hzero : ZeroNonces e) : Sends bd e e.closeAckFrame := by
  have hvalid : e.validateCloseFrame bd (LawfulBlock.encode (CloseFrame.mk 0)) = .ok true := by
    rw [validateCloseFrame_encode, decide_eq_true hzero.1.symm]
  have htime : checkedAdd bd 64 0 disconnectTimeoutMs = .ok (0 + disconnectTimeoutMs) :=
    checkedAdd_of_lt (by decide)
  have hclose : e.handleClose bd (LawfulBlock.encode (CloseFrame.mk 0)) 0 =
      .ok (e.enteredClosed, [.sendFrame e.closeAckFrame, .onDisconnect,
        .setRtoTimer (0 + disconnectTimeoutMs)]) := by
    unfold handleClose enterClosed
    rw [hvalid, ok_bind, if_pos rfl, sendCloseAckFrame_eq, ok_bind, htime]
    rfl
  have hclosed : e.handleCloseClosed bd (LawfulBlock.encode (CloseFrame.mk 0)) =
      .ok (e, [.sendFrame e.closeAckFrame]) := by
    unfold handleCloseClosed
    rw [hvalid, ok_bind, if_pos rfl, sendCloseAckFrame_eq]
    rfl
  unfold Sends
  refine ⟨fun _ => false, .frame .close (LawfulBlock.encode (CloseFrame.mk 0)), 0, ?_⟩
  unfold Endpoint.perform Endpoint.handleFrame
  cases hs : e.stateId with
  | preInit => exact absurd hs hpre
  | active => exact ⟨_, _, hclose, by simp⟩
  | closing => exact ⟨_, _, hclose, by simp⟩
  | closed => exact ⟨_, _, hclosed, by simp⟩
  | zombie => exact absurd hs hzombie

lemma not_sends_of_zombie (hsound : e.Sound bd) (hzombie : e.stateId = .zombie)
    {frameBytes : Bytes} : ¬ Sends bd e frameBytes := by
  rintro ⟨nonces, input, nowMs, e', calls, hperform, hmem⟩
  have houtline := (hsound.perform hperform).1.outline
  by_cases hinit : input = .init
  · subst hinit
    generalize e'.stateId = s' at houtline
    cases houtline with
    | init => simp at hmem
    | quiet hinit hdisconnect htimer => exact absurd rfl hinit
    | stream hs hinit hdisconnect hcalls => exact absurd rfl hinit
  · rw [(houtline.zombie hzombie hinit).2] at hmem
    cases hmem

lemma Established.not_boundTo {clientNonce' serverNonce' : U32}
    (he : Established bd hash clientNonce serverNonce e)
    (he' : Established bd hash clientNonce' serverNonce' e') (hzombie : e.stateId ≠ .zombie) :
    ¬ BoundTo bd e e' := by
  obtain ⟨hsound, hpre, hzero⟩ := he.zero
  have hsends : Sends bd e e.closeAckFrame := sends_closeAckFrame hpre hzombie hzero
  have hcloses : Closes bd e.closeAckFrame := .inr (readType_frameOf bd _ _)
  exact fun hbound => hbound _ hsends hcloses
    (accepts_of_sends hsound hzero he'.zero.2.2 hsends hcloses)

/-- Whatever the nonces of two connections are, an endpoint of the second accepts every frame
with which an endpoint of the first closes its connection; the first one is bound to its own
connection only once it is over and sends nothing any more. -/
theorem closes_any_connection {clientNonce' serverNonce' : U32}
    (he : Established bd hash clientNonce serverNonce e)
    (he' : Established bd hash clientNonce' serverNonce' e') :
    (∀ frameBytes, Sends bd e frameBytes → Closes bd frameBytes → Accepts bd e' frameBytes) ∧
      (BoundTo bd e e' ↔ e.stateId = .zombie) := by
  obtain ⟨hsound, hpre, hzero⟩ := he.zero
  refine ⟨fun _ => accepts_of_sends hsound hzero he'.zero.2.2, fun hbound => ?_,
    fun hzombie frameBytes hsends _ => absurd hsends (not_sends_of_zombie hsound hzombie)⟩
  by_contra hzombie
  exact he.not_boundTo he' hzombie hbound

end Zero

section Sample

def otherAddr : SocketAddr := .v4 ⟨loopback, 4001⟩

/-- The handshake of a second client, with the nonces 8 and 10. -/
def otherHandshake : List ServerRun.Action :=
  [.frame ⟨10, fun _ => false, 300, 300⟩ (paddedAlpha ⟨protocolId, 8⟩ 1472) otherAddr,
    .frame ⟨10, fun _ => false, 400, 400⟩ (frameOf .handshakeBeta (LawfulBlock.encode
      (HandshakeBetaFrame.mk localParams 8 10 300
        (HandshakeMacHasher.compute sampleHash otherAddr 8 10 300)))) otherAddr]

/-- The two peers of a server that has granted both handshakes, which are active. -/
lemma sample_established : ∃ e e', Established .debug sampleHash 7 9 e ∧
    Established .debug sampleHash 8 10 e' ∧ e.stateId = .active := by
  have hrun : ((sampleStart default).bind fun s => replay (next .debug sampleHash) s
      ([sampleAlpha 100, sampleBeta 100 200] ++ otherHandshake)).map (fun s =>
        (s.core.heap.map fun p => p.endpoint.stateId, s.created.map fun c =>
          (c.frame.clientNonce, c.frame.serverNonce))) =
      some ([.active, .active], [(7, 9), (8, 10)]) := by decide +kernel
  obtain ⟨s, hreplay, hrun⟩ := Option.map_eq_some_iff.mp hrun
  obtain ⟨hheap, hcreated⟩ := Prod.mk.inj hrun
  have hs := replay_reachable hreplay
  obtain ⟨p, peers, hp, hactive, hrest⟩ := List.map_eq_cons_iff.mp hheap
  obtain ⟨p', peers', hp', -, -⟩ := List.map_eq_cons_iff.mp hrest
  obtain ⟨c, others, hc, hnonces, hmore⟩ := List.map_eq_cons_iff.mp hcreated
  obtain ⟨c', others', hc', hnonces', -⟩ := List.map_eq_cons_iff.mp hmore
  subst hp' hc'
  have hpeer : s.core.heap[0]? = some p := by rw [hp]; rfl
  have hpeer' : s.core.heap[1]? = some p' := by rw [hp]; rfl
  have hcreation : s.created[0]? = some c := by rw [hc]; rfl
  have hcreation' : s.created[1]? = some c' := by rw [hc]; rfl
  exact ⟨_, _, .server hs hpeer hcreation (Prod.mk.inj hnonces),
    .server hs hpeer' hcreation' (Prod.mk.inj hnonces'), hactive⟩

/-- Two connections with different nonces, one of which can end the other. -/
theorem closes_another_connection :
    ∃ clientNonce serverNonce clientNonce' serverNonce' e e',
      Established .debug sampleHash clientNonce serverNonce e ∧
      Established .debug sampleHash clientNonce' serverNonce' e' ∧
      clientNonce ≠ clientNonce' ∧ serverNonce ≠ serverNonce' ∧ ¬ BoundTo .debug e e' := by
  obtain ⟨e, e', he, he', hactive⟩ := sample_established
  exact ⟨7, 9, 8, 10, e, e', he, he', by decide, by decide,
    he.not_boundTo he' (by rw [hactive]; simp)⟩

theorem closes_any_connection_sample : ∃ e e', Established .debug sampleHash 7 9 e ∧
    Established .debug sampleHash 8 10 e' ∧ (∀ frameBytes, Sends .debug e frameBytes →
      Closes .debug frameBytes → Accepts .debug e' frameBytes) ∧
    (BoundTo .debug e e' ↔ e.stateId = .zombie) := by
  obtain ⟨e, e', he, he', -⟩ := sample_established
  exact ⟨e, e', he, he', closes_any_connection he he'⟩

end Sample

end Redpine.CloseNonces

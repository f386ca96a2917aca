import Redpine.CloseNonces
import Redpine.DisconnectAgreement
import Redpine.NetworkDelivery

/-! The end of a connection, between the users of a client and of its server: when one of them is
told that the other has disconnected, the other has, and nobody is told unless somebody did. -/
namespace Redpine
open Machine Buffer Wire Endpoint Transition CloseNonces

/-- The connection has been closed, or is being closed. -/
def StateId.Closing (s : StateId) : Prop := s = .closing ∨ s = .closed

/-- The type of a frame that closes a connection. -/
def IsCloseType (frameType : FrameType) : Prop := frameType = .close ∨ frameType = .closeAck

lemma closes_of_type {bd : Build} {frameBytes : Bytes} {frameType : FrameType}
    (htype : readType bd frameBytes = .ok (some frameType)) (hclose : IsCloseType frameType) :
    Closes bd frameBytes := by
  rcases hclose with rfl | rfl
  · exact .inl htype
  · exact .inr htype

lemma not_closes_of_type {bd : Build} {frameBytes : Bytes} {frameType : FrameType}
    (htype : readType bd frameBytes = .ok (some frameType)) (hclose : ¬ IsCloseType frameType) :
    ¬ Closes bd frameBytes := by
  rintro (h | h)
  · cases htype.symm.trans h
    exact hclose (.inl rfl)
  · cases htype.symm.trans h
    exact hclose (.inr rfl)

namespace Endpoint
section Calls
variable {bd : Build} {nowMs : ℕ} {e e' : Endpoint} {input : Input} {inputs : List Input}
  {calls : List HostCall} {frameBytes : Bytes}

/-- Only a connection that is being closed, or has been, sends a frame that closes it. -/
lemma Effect.closing_of_sent (h : Effect bd nowMs e input calls e')
    (hmem : .sendFrame frameBytes ∈ calls) (hcloses : Closes bd frameBytes) :
    e'.stateId.Closing := by
  rcases (h.sent hmem).readType bd with ⟨-, frameType, hstream, htype⟩ | ⟨hs, -⟩ | ⟨hs, -⟩
  · refine absurd hcloses (not_closes_of_type htype ?_)
    rintro (rfl | rfl) <;> exact hstream
  · exact .inl hs
  · exact .inr hs

lemma Inputs.ended (h : Inputs bd nowMs e inputs calls e') (hinit : .init ∉ inputs)
    (hended : e.stateId.Ended) : e'.stateId.Ended := by
  induction h with
  | nil e => exact hended
  | cons heffect rest ih =>
    rw [List.mem_cons, not_or] at hinit
    exact ih hinit.2 (heffect.outline.ended hended (Ne.symm hinit.1)).1

/-- There is no way back after a frame that closes the connection. -/
lemma Inputs.ended_of_sent (h : Inputs bd nowMs e inputs calls e') (hinit : .init ∉ inputs)
    (hmem : .sendFrame frameBytes ∈ calls) (hcloses : Closes bd frameBytes) :
    e'.stateId.Ended := by
  induction h with
  | nil e => cases hmem
  | cons heffect rest ih =>
    rw [List.mem_cons, not_or] at hinit
    rcases List.mem_append.mp hmem with hmem | hmem
    · refine rest.ended hinit.2 ?_
      exact (heffect.closing_of_sent hmem hcloses).elim .inl fun hclosed => .inr (.inl hclosed)
    · exact ih hinit.2 hmem

/-- A disconnection is reported for a frame that closes the connection. -/
lemma Inputs.frame_of_disconnect (h : Inputs bd nowMs e inputs calls e')
    (hmem : .onDisconnect ∈ calls) :
    ∃ frameType payloadBytes, .frame frameType payloadBytes ∈ inputs ∧ IsCloseType frameType := by
  induction h with
  | nil e => cases hmem
  | cons heffect rest ih =>
    rcases List.mem_append.mp hmem with hmem | hmem
    · obtain ⟨frameType, payloadBytes, rfl, hclose⟩ :=
        EndpointPair.Outline.closes heffect.outline hmem
      exact ⟨frameType, payloadBytes, List.mem_cons_self, hclose⟩
    · obtain ⟨frameType, payloadBytes, hinput, hclose⟩ := ih hmem
      exact ⟨frameType, payloadBytes, List.mem_cons_of_mem _ hinput, hclose⟩

/-- The input neither asks for the end of the connection nor agrees to it. -/
def KeepsOpen (input : Input) : Prop :=
  input ≠ .disconnect ∧ ∀ frameType payloadBytes, input = .frame frameType payloadBytes →
    ¬ IsCloseType frameType

lemma Effect.stays_open (h : Effect bd nowMs e input calls e') (hkeeps : KeepsOpen input)
    (hopen : ¬ e.stateId.Closing) : ¬ e'.stateId.Closing := by
  have houtline := h.outline
  generalize e'.stateId = st at houtline ⊢
  cases houtline with
  | init | stream | timeout | destroyed => exact fun h => (by rcases h with h | h <;> cases h)
  | quiet => exact hopen
  | disconnect hs => exact absurd rfl hkeeps.1
  | close hs hvalid => exact absurd (.inl rfl) (hkeeps.2 _ _ rfl)
  | closeAck hs hvalid => exact absurd (.inr rfl) (hkeeps.2 _ _ rfl)
  | closeAgain hs hvalid => exact absurd (.inl rfl) (hkeeps.2 _ _ rfl)
  | resendClose hs => exact absurd (.inl hs) hopen

lemma Inputs.stays_open (h : Inputs bd nowMs e inputs calls e')
    (hkeeps : ∀ input ∈ inputs, KeepsOpen input) (hopen : ¬ e.stateId.Closing) :
    ¬ e'.stateId.Closing ∧
      ∀ frameBytes, .sendFrame frameBytes ∈ calls → ¬ Closes bd frameBytes := by
  induction h with
  | nil e => exact ⟨hopen, fun _ hmem => (by cases hmem)⟩
  | cons heffect rest ih =>
    obtain ⟨hfirst, hrest⟩ := List.forall_mem_cons.mp hkeeps
    have hopen' := heffect.stays_open hfirst hopen
    obtain ⟨hlast, hframes⟩ := ih hrest hopen'
    refine ⟨hlast, fun frameBytes hmem hcloses => ?_⟩
    rcases List.mem_append.mp hmem with hmem | hmem
    · exact hopen' (heffect.closing_of_sent hmem hcloses)
    · exact hframes frameBytes hmem hcloses

end Calls
end Endpoint

namespace Network
open Server ServerCore ServerRun ClientRun EndpointPair

/-- The client takes no more part in a connection, or is about to leave it. -/
def Over : Client.State → Prop
  | .handshake _ => False
  | .active e => e.stateId.Ended
  | .quiescent => True

/-- The client has an endpoint that closes its connection. -/
def ClientCloses (state : Client.State) : Prop := ∃ e, state = .active e ∧ e.stateId.Closing

/-- What an action of the client has to do with the end of its connection. -/
structure ClientEnding (bd : Build) (a : ClientRun.Action) (client client' : ClientRun.State) :
    Prop where
  stays_over : Over client.core.state → Over client'.core.state
  frames : ∀ frameBytes ∈ client'.sent, Closes bd frameBytes →
    frameBytes ∈ client.sent ∨ Over client'.core.state
  report : .disconnect ∈ client'.produced → .disconnect ∈ client.produced ∨
    ∃ frameBytes nowMs nonces, a = .frame frameBytes nowMs nonces ∧ Closes bd frameBytes
  stays_open : (∀ nowMs, a ≠ .disconnect nowMs) →
    (∀ frameBytes nowMs nonces, a = .frame frameBytes nowMs nonces → ¬ Closes bd frameBytes) →
    ¬ ClientCloses client.core.state → ¬ ClientCloses client'.core.state ∧
      ∀ frameBytes ∈ client'.sent, Closes bd frameBytes → frameBytes ∈ client.sent

section Client
variable {bd : Build} {a : ClientRun.Action} {client client' : ClientRun.State}
  {frames : List Bytes} {calls : List HostCall} {inputs : List Input}

lemma disconnect_of_event (h : .disconnect ∈ eventsOf calls) : .onDisconnect ∈ calls := by
  obtain ⟨call, hmem, hevent⟩ := List.mem_filterMap.mp h
  cases call with
  | onDisconnect => exact hmem
  | _ => cases hevent

lemma keepsOpen_of_inputs (h : ClientRun.InputsOf bd a inputs)
    (hasks : ∀ nowMs, a ≠ .disconnect nowMs)
    (hframe : ∀ frameBytes nowMs nonces, a = .frame frameBytes nowMs nonces →
      ¬ Closes bd frameBytes) : ∀ input ∈ inputs, KeepsOpen input := by
  intro input hmem
  refine ⟨?_, fun frameType payloadBytes hinput hclose => ?_⟩
  · rintro rfl
    cases h with
    | disconnect => exact hasks _ rfl
    | _ => simp at hmem
  · subst hinput
    obtain ⟨frameBytes, nowMs, nonces, ha, htype, -⟩ := h.frame_of_mem hmem
    exact hframe _ _ _ ha (closes_of_type htype hclose)

lemma not_closes_of_request {frameBytes : Bytes} (h : IsRequestFrame bd frameBytes) :
    ¬ Closes bd frameBytes := by
  rcases h with h | h <;> exact not_closes_of_type h (by rintro (h | h) <;> cases h)

/-- The client does nothing that has to do with it. -/
lemma ClientEnding.apart {events : List Client.Event}
    (hover : Over client.core.state → Over client'.core.state)
    (hcloses : ClientCloses client'.core.state → ClientCloses client.core.state)
    (hsent : client'.sent = client.sent ++ frames) (hframes : ∀ frame ∈ frames, ¬ Closes bd frame)
    (hproduced : client'.produced = client.produced ++ events) (hevents : .disconnect ∉ events) :
    ClientEnding bd a client client' := by
  have hold : ∀ frameBytes ∈ client'.sent, Closes bd frameBytes → frameBytes ∈ client.sent := by
    intro frameBytes hmem hclose
    rcases List.mem_append.mp (hsent ▸ hmem) with hmem | hmem
    · exact hmem
    · exact absurd hclose (hframes frameBytes hmem)
  refine ⟨hover, fun frameBytes hmem hclose => .inl (hold frameBytes hmem hclose),
    fun hmem => .inl ?_, fun _ _ hopen => ⟨mt hcloses hopen, hold⟩⟩
  rcases List.mem_append.mp (hproduced ▸ hmem) with hmem | hmem
  · exact hmem
  · exact absurd hmem hevents

lemma ClientEnding.idle (hstate : client'.core.state = client.core.state)
    (hsent : client'.sent = client.sent) (hproduced : client'.produced = client.produced) :
    ClientEnding bd a client client' := by
  have hsent : client'.sent = client.sent ++ [] := by rw [hsent, List.append_nil]
  have hproduced : client'.produced = client.produced ++ [] := by rw [hproduced, List.append_nil]
  exact .apart (fun h => hstate ▸ h) (fun h => hstate ▸ h) hsent (by simp) hproduced (by simp)

lemma ClientEnding.handshake {state state' : Client.HandshakeState}
    (hs : client.core.state = .handshake state) (hs' : client'.core.state = .handshake state')
    (hrequest : IsRequestFrame bd state'.frame) (hframes : ∀ frame ∈ frames, frame = state'.frame)
    (hsent : client'.sent = client.sent ++ frames)
    (hproduced : client'.produced = client.produced) : ClientEnding bd a client client' := by
  have hproduced : client'.produced = client.produced ++ [] := by rw [hproduced, List.append_nil]
  refine .apart (fun h => ?_) (fun h => ?_) hsent (fun frame hmem => ?_) hproduced (by simp)
  · rw [hs] at h
    exact h.elim
  · obtain ⟨e, he, -⟩ := h
    cases hs'.symm.trans he
  · rw [hframes frame hmem]
    exact not_closes_of_request hrequest

lemma ClientEnding.failed {kind : ErrorKind} (hs' : client'.core.state = .quiescent)
    (hsent : client'.sent = client.sent)
    (hproduced : client'.produced = client.produced ++ [.error kind]) :
    ClientEnding bd a client client' := by
  have hsent : client'.sent = client.sent ++ [] := by rw [hsent, List.append_nil]
  refine .apart (fun _ => ?_) (fun h => ?_) hsent (by simp) hproduced (by simp)
  · rw [hs']
    trivial
  · obtain ⟨e, he, -⟩ := h
    cases hs'.symm.trans he

/-- The packets that were queued during the handshake do not end the connection. -/
lemma keepsOpen_of_enqueues {packets : List (Bytes × SendMode)} :
    ∀ input ∈ enqueues packets ++ [.flush], KeepsOpen input := by
  intro input hmem
  rcases List.mem_append.mp hmem with hmem | hmem
  · obtain ⟨packet, -, rfl⟩ := List.mem_map.mp hmem
    exact ⟨by simp, by simp⟩
  · cases List.mem_singleton.mp hmem
    exact ⟨by simp, by simp⟩

lemma ClientEnding.activated {state : Client.HandshakeState} {nowMs : ℕ} {e₀ e : Endpoint}
    {packets : List (Bytes × SendMode)} (hs : client.core.state = .handshake state)
    (hs' : client'.core.state = .active e)
    (hcalls : Inputs bd nowMs { e₀ with stateId := .active } (enqueues packets ++ [.flush]) calls e)
    (hsent : client'.sent = client.sent ++ sentFrames calls)
    (hproduced : client'.produced = client.produced ++ .connect :: eventsOf calls) :
    ClientEnding bd a client client' := by
  obtain ⟨hopen, hframes⟩ :=
    hcalls.stays_open keepsOpen_of_enqueues (by rintro (h | h) <;> cases h)
  have hreport : .onDisconnect ∉ calls := by
    intro hmem
    obtain ⟨frameType, payloadBytes, hinput, hclose⟩ := hcalls.frame_of_disconnect hmem
    exact (keepsOpen_of_enqueues _ hinput).2 _ _ rfl hclose
  refine .apart (fun h => ?_) (fun h => ?_) hsent
    (fun frame hmem => hframes frame (mem_sentFrames.mp hmem)) hproduced fun hmem => ?_
  · rw [hs] at h
    exact h.elim
  · obtain ⟨e', he', hclosing⟩ := h
    cases hs'.symm.trans he'
    exact absurd hclosing hopen
  · rcases List.mem_cons.mp hmem with hmem | hmem
    · cases hmem
    · exact hreport (disconnect_of_event hmem)

lemma ClientEnding.called {e e' : Endpoint} {nowMs : ℕ} (hs : client.core.state = .active e)
    (hinputs : ClientRun.InputsOf bd a inputs) (hcalls : Inputs bd nowMs e inputs calls e')
    (hs' : client'.core.state = .active e' ∨
      client'.core.state = .quiescent ∧ e'.stateId = .zombie)
    (hsent : client'.sent = client.sent ++ sentFrames calls)
    (hproduced : client'.produced = client.produced ++ eventsOf calls) :
    ClientEnding bd a client client' := by
  have hinit := hinputs.packets.2
  have hover : e'.stateId.Ended → Over client'.core.state := by
    intro hended
    rcases hs' with hs' | ⟨hs', -⟩
    · rw [hs']
      exact hended
    · rw [hs']
      trivial
  have hcloses : ClientCloses client'.core.state → e'.stateId.Closing := by
    rintro ⟨e₁, he₁, hclosing⟩
    rcases hs' with hs' | ⟨hs', -⟩
    · cases hs'.symm.trans he₁
      exact hclosing
    · cases hs'.symm.trans he₁
  have hnew : ∀ frameBytes ∈ client'.sent,
      frameBytes ∈ client.sent ∨ .sendFrame frameBytes ∈ calls := fun frameBytes hmem =>
    (List.mem_append.mp (hsent ▸ hmem)).imp_right mem_sentFrames.mp
  refine ⟨fun h => ?_, fun frameBytes hmem hclose => ?_, fun hmem => ?_,
    fun hasks hpeer hnot => ?_⟩
  · rw [hs] at h
    exact hover (hcalls.ended hinit h)
  · exact (hnew frameBytes hmem).imp_right fun hmem =>
      hover (hcalls.ended_of_sent hinit hmem hclose)
  · refine (List.mem_append.mp (hproduced ▸ hmem)).imp_right fun hmem => ?_
    obtain ⟨frameType, payloadBytes, hinput, hclose⟩ :=
      hcalls.frame_of_disconnect (disconnect_of_event hmem)
    obtain ⟨frameBytes, nowMs, nonces, ha, htype, -⟩ := hinputs.frame_of_mem hinput
    exact ⟨frameBytes, nowMs, nonces, ha, closes_of_type htype hclose⟩
  · have hopen : ¬ e.stateId.Closing := fun hclosing => hnot ⟨e, hs, hclosing⟩
    obtain ⟨hstays, hframes⟩ :=
      hcalls.stays_open (keepsOpen_of_inputs hinputs hasks hpeer) hopen
    exact ⟨mt hcloses hstays, fun frameBytes hmem hclose =>
      (hnew frameBytes hmem).resolve_right fun hmem => hframes frameBytes hmem hclose⟩

lemma clientEnding_of_move
    (hrequest : ∀ state, client'.core.state = .handshake state → IsRequestFrame bd state.frame)
    (hmove : ClientRun.Move bd client.core a frames client'.core)
    (hsent : client'.sent = client.sent ++ frames) (hpolled : client'.polled = client.polled) :
    ClientEnding bd a client client' := by
  have hproduced : ∀ events, client'.core.events = client.core.events ++ events →
      client'.produced = client.produced ++ events := by
    intro events hevents
    unfold ClientRun.State.produced
    rw [hpolled, hevents, List.append_assoc]
  cases hmove with
  | idle hstate hevents hgiven =>
    have hproduced := hproduced [] (by rw [hevents, List.append_nil])
    exact .idle hstate (by rw [hsent, List.append_nil]) (by rw [hproduced, List.append_nil])
  | handshake hs hs' hevents hnonce hgiven hchange hframes =>
    have hproduced := hproduced [] (by rw [hevents, List.append_nil])
    exact .handshake hs hs' (hrequest _ hs') hframes hsent (by rw [hproduced, List.append_nil])
  | failed hs hs' hevents hgiven =>
    exact .failed hs' (by rw [hsent, List.append_nil]) (hproduced _ hevents)
  | activated hs hs' hphase hack haccepted hnew hcalls hevents =>
    exact .activated hs hs' hcalls hsent (hproduced _ hevents)
  | called hs hinputs hcalls hs' hevents =>
    exact .called hs hinputs hcalls hs' hsent (hproduced _ hevents)

lemma clientEnding_of_step (hsound : StateSound bd client.core.state)
    (hrequest : ∀ state, client'.core.state = .handshake state → IsRequestFrame bd state.frame)
    (hstep : ClientRun.Step bd client a client') : ClientEnding bd a client client' := by
  rcases ClientRun.Step.move hsound hstep with ⟨frames, hmove, hsent, hpolled⟩ |
    ⟨rfl, hstate, hproduced, hsent⟩
  · exact clientEnding_of_move hrequest hmove hsent hpolled
  · exact .idle hstate hsent hproduced

end Client

/-- The peer for the address takes no more part in the connection, or is about to leave it. -/
def PeerOver (server : ServerRun.State) (addr : SocketAddr) (peer : PeerRef) : Prop :=
  ∃ e, server.endpoints[peer]? = some (addr, e) ∧ e.stateId.Ended

/-- A peer for the address closes its connection. -/
def PeerCloses (server : ServerRun.State) (addr : SocketAddr) : Prop :=
  ∃ (peer : PeerRef) (e : Endpoint), server.endpoints[peer]? = some (addr, e) ∧ e.stateId.Closing

/-- What an action of the server has to do with the ends of the connections of an address. -/
structure ServerEnding (bd : Build) (addr : SocketAddr) (a : ServerRun.Action)
    (server server' : ServerRun.State) : Prop where
  stays_over : ∀ peer, PeerOver server addr peer → PeerOver server' addr peer
  frames : ∀ peer frameBytes, .host peer addr (.sendFrame frameBytes) ∈ server'.emitted →
    Closes bd frameBytes → .host peer addr (.sendFrame frameBytes) ∈ server.emitted ∨
      PeerOver server' addr peer
  report : ∀ peer, .host peer addr .onDisconnect ∈ server'.emitted →
    .host peer addr .onDisconnect ∈ server.emitted ∨
      ∃ draws frameBytes, a = .frame draws frameBytes addr ∧ Closes bd frameBytes
  stays_open : (∀ peer nowMs, a = .disconnect peer nowMs → server.addrs[peer]? ≠ some addr) →
    (∀ draws frameBytes, a = .frame draws frameBytes addr → ¬ Closes bd frameBytes) →
    ¬ PeerCloses server addr → ¬ PeerCloses server' addr ∧
      ∀ peer frameBytes, .host peer addr (.sendFrame frameBytes) ∈ server'.emitted →
        Closes bd frameBytes → .host peer addr (.sendFrame frameBytes) ∈ server.emitted

section Server
variable {bd : Build} {addr addr₀ : SocketAddr} {a : ServerRun.Action}
  {server server' : ServerRun.State} {peer : PeerRef} {inputs : List Input}

lemma keepsOpen_of_peer_inputs (h : ServerRun.InputsOf bd peer addr a inputs)
    (hasks : ∀ nowMs, a ≠ .disconnect peer nowMs)
    (hframe : ∀ draws frameBytes, a = .frame draws frameBytes addr → ¬ Closes bd frameBytes) :
    ∀ input ∈ inputs, KeepsOpen input := by
  intro input hmem
  refine ⟨?_, fun frameType payloadBytes hinput hclose => ?_⟩
  · rintro rfl
    cases h with
    | disconnect => exact hasks _ rfl
    | _ => simp at hmem
  · subst hinput
    obtain ⟨draws, frameBytes, ha, htype, -⟩ := h.frame_of_mem hmem
    exact hframe _ _ ha (closes_of_type htype hclose)

/-- No endpoint for the address is called. -/
lemma ServerEnding.apart {news : List Emission}
    (hover : ∀ (peer : PeerRef) e, server.endpoints[peer]? = some (addr, e) →
      server'.endpoints[peer]? = some (addr, e))
    (hcloses : PeerCloses server' addr → PeerCloses server addr)
    (hemitted : server'.emitted = server.emitted ++ news)
    (hnews : ∀ peer call, .host peer addr call ∈ news → call = .onConnect) :
    ServerEnding bd addr a server server' := by
  have hold : ∀ peer call, .host peer addr call ∈ server'.emitted → call ≠ .onConnect →
      .host peer addr call ∈ server.emitted := by
    intro peer call hmem hne
    rcases List.mem_append.mp (hemitted ▸ hmem) with hmem | hmem
    · exact hmem
    · exact absurd (hnews peer call hmem) hne
  refine ⟨fun peer h => ?_, fun peer frameBytes hmem _ => .inl (hold peer _ hmem (by simp)),
    fun peer hmem => .inl (hold peer _ hmem (by simp)),
    fun _ _ hopen => ⟨mt hcloses hopen, fun peer frameBytes hmem _ => hold peer _ hmem (by simp)⟩⟩
  obtain ⟨e, hp, hended⟩ := h
  exact ⟨e, hover peer e hp, hended⟩

lemma ServerEnding.still {answers : List Emission} (hpeers : server'.endpoints = server.endpoints)
    (hemitted : server'.emitted = server.emitted ++ answers)
    (hanswers : ∀ emission ∈ answers, Answer server.core emission) :
    ServerEnding bd addr a server server' := by
  refine .apart (fun peer e hp => hpeers ▸ hp) (fun h => ?_) hemitted fun peer call hmem => ?_
  · unfold PeerCloses at h ⊢
    rwa [hpeers] at h
  · cases hanswers _ hmem

lemma ServerEnding.created {e : Endpoint} {answer : Bytes}
    (hpeers : server'.endpoints = server.endpoints ++ [(addr₀, { e with stateId := .active })])
    (hemitted : server'.emitted = server.emitted ++
      [.host server.endpoints.length addr₀ .onConnect, .reply answer addr₀]) :
    ServerEnding bd addr a server server' := by
  refine .apart (fun peer e hp => ?_) (fun h => ?_) hemitted fun peer call hmem => ?_
  · rw [hpeers]
    exact Unreliable.getElem?_append_some hp
  · obtain ⟨peer, e', hp, hclosing⟩ := h
    rw [hpeers] at hp
    rcases List.mem_append.mp (List.mem_of_getElem? hp) with hmem | hmem
    · obtain ⟨r, hr⟩ := List.mem_iff_getElem?.mp hmem
      exact ⟨r, e', hr, hclosing⟩
    · cases List.mem_singleton.mp hmem
      rcases hclosing with h | h <;> cases h
  · simp only [List.mem_cons, List.not_mem_nil, or_false, Emission.host.injEq,
      reduceCtorEq] at hmem
    exact hmem.2.2

section Called
variable {r : PeerRef} {e e' : Endpoint} {calls : List HostCall} {nowMs : ℕ}

/-- What is emitted in a call of a peer's endpoint comes from that endpoint. -/
lemma emitted_called {call : HostCall}
    (hemitted : server'.emitted = server.emitted ++ calls.map (.host r addr₀))
    (hmem : .host peer addr call ∈ server'.emitted) :
    .host peer addr call ∈ server.emitted ∨ peer = r ∧ addr = addr₀ ∧ call ∈ calls := by
  refine (List.mem_append.mp (hemitted ▸ hmem)).imp_right fun hmem => ?_
  obtain ⟨call', hmem, heq⟩ := List.mem_map.mp hmem
  cases heq
  exact ⟨rfl, rfl, hmem⟩

/-- The endpoint that is called is the only one that changes. -/
lemma endpoints_called (hr : server.endpoints[r]? = some (addr₀, e))
    (hpeers : server'.endpoints = server.endpoints.set r (addr₀, e')) :
    server'.endpoints[r]? = some (addr₀, e') ∧
      ∀ {peer : PeerRef}, peer ≠ r → server'.endpoints[peer]? = server.endpoints[peer]? := by
  rw [hpeers]
  exact ⟨List.getElem?_set_self (List.getElem?_eq_some_iff.mp hr).1,
    fun hne => List.getElem?_set_ne (Ne.symm hne)⟩

lemma ServerEnding.called (hr : server.endpoints[r]? = some (addr₀, e))
    (hinputs : ServerRun.InputsOf bd r addr₀ a inputs) (hcalls : Inputs bd nowMs e inputs calls e')
    (hpeers : server'.endpoints = server.endpoints.set r (addr₀, e'))
    (hemitted : server'.emitted = server.emitted ++ calls.map (.host r addr₀)) :
    ServerEnding bd addr a server server' := by
  obtain ⟨hset, hother⟩ := endpoints_called hr hpeers
  have hinit := hinputs.packets.2
  refine ⟨fun peer h => ?_, fun peer frameBytes hmem hclose => ?_, fun peer hmem => ?_,
    fun hasks hpeer hnot => ?_⟩
  · obtain ⟨e₁, hp, hended⟩ := h
    by_cases heq : peer = r
    · subst heq
      cases hr.symm.trans hp
      exact ⟨e', hset, hcalls.ended hinit hended⟩
    · exact ⟨e₁, (hother heq).trans hp, hended⟩
  · refine (emitted_called hemitted hmem).imp_right fun ⟨heq, haddr, hmem⟩ => ?_
    subst heq haddr
    exact ⟨e', hset, hcalls.ended_of_sent hinit hmem hclose⟩
  · refine (emitted_called hemitted hmem).imp_right fun ⟨heq, haddr, hmem⟩ => ?_
    subst heq haddr
    obtain ⟨frameType, payloadBytes, hinput, hclose⟩ := hcalls.frame_of_disconnect hmem
    obtain ⟨draws, frameBytes, ha, htype, -⟩ := hinputs.frame_of_mem hinput
    exact ⟨draws, frameBytes, ha, closes_of_type htype hclose⟩
  · have hstays : addr = addr₀ → ¬ e'.stateId.Closing ∧
        ∀ frameBytes, .sendFrame frameBytes ∈ calls → ¬ Closes bd frameBytes := by
      rintro rfl
      have hasked : ∀ nowMs, a ≠ .disconnect r nowMs :=
        fun nowMs ha => hasks r nowMs ha (addrs_of_endpoints hr)
      exact hcalls.stays_open (keepsOpen_of_peer_inputs hinputs hasked hpeer)
        fun hclosing => hnot ⟨r, e, hr, hclosing⟩
    refine ⟨?_, fun peer frameBytes hmem hclose => ?_⟩
    · rintro ⟨peer, e₁, hp, hclosing⟩
      by_cases heq : peer = r
      · subst heq
        cases hset.symm.trans hp
        exact (hstays rfl).1 hclosing
      · exact hnot ⟨peer, e₁, (hother heq).symm.trans hp, hclosing⟩
    · rcases emitted_called hemitted hmem with hmem | ⟨-, haddr, hmem⟩
      · exact hmem
      · exact absurd hclose ((hstays haddr).2 frameBytes hmem)

end Called

lemma serverEnding_of_move (hmove : ServerRun.Move bd server a server') :
    ServerEnding bd addr a server server' := by
  cases hmove with
  | still hpeers hemitted hanswers hcreated hpackets => exact .still hpeers hemitted hanswers
  | created ha htype hread haccepted hnew hpeers hemitted hcreated =>
    exact .created hpeers hemitted
  | called hr hinputs hcalls hpeers hemitted hcreated =>
    exact .called hr hinputs hcalls hpeers hemitted

end Server

/-- What the frames and the reports of each side say about the other. -/
structure Ending (bd : Build) (addr : SocketAddr) (s : State) : Prop where
  client : ∀ frameBytes ∈ s.client.sent, Closes bd frameBytes → Over s.client.core.state
  peers : ∀ peer frameBytes, .host peer addr (.sendFrame frameBytes) ∈ s.server.emitted →
    Closes bd frameBytes → PeerOver s.server addr peer
  peerReport : ∀ peer, .host peer addr .onDisconnect ∈ s.server.emitted → Over s.client.core.state
  clientReport : .disconnect ∈ s.client.produced → ∃ peer, PeerOver s.server addr peer

/-- No side has ended the connection on its own account or on that of the other. -/
structure Undisturbed (bd : Build) (addr : SocketAddr) (s : State) : Prop where
  client : ∀ frameBytes ∈ s.client.sent, ¬ Closes bd frameBytes
  peers : ∀ peer frameBytes, .host peer addr (.sendFrame frameBytes) ∈ s.server.emitted →
    ¬ Closes bd frameBytes
  clientOpen : ¬ ClientCloses s.client.core.state
  peersOpen : ¬ PeerCloses s.server addr
  peerReport : ∀ peer, .host peer addr .onDisconnect ∉ s.server.emitted
  clientReport : .disconnect ∉ s.client.produced

/-- The user of the client, or that of a peer for the address, asks for the end. -/
def Asks (addr : SocketAddr) (s : State) : Action → Prop
  | .client (.disconnect _) => True
  | .server (.disconnect peer _) => s.server.addrs[peer]? = some addr
  | _ => False

section Runs
variable {bd : Build} {hash : Bytes → U64} {addr : SocketAddr} {s s' : State} {a : Action}
  {past : List (State × Action)}

/-- A frame of the server that closes a connection is one of an endpoint. -/
lemma host_of_sent {frameBytes : Bytes} (htraced : Traced bd s.server)
    (hsent : s.HasSent frameBytes addr) (hclose : Closes bd frameBytes) :
    ∃ peer, .host peer addr (.sendFrame frameBytes) ∈ s.server.emitted := by
  have hanswer : ∀ {frameType : FrameType} {p : Bytes}, ¬ IsCloseType frameType →
      ¬ Closes bd (frameOf frameType p) := not_closes_of_type (readType_frameOf bd _ _)
  rcases sent_cases htraced hsent with ⟨peer, -, -, hmem, -⟩ | ⟨ack, rfl, -⟩ |
    ⟨error, clientNonce, rfl, -⟩
  · exact ⟨peer, hmem⟩
  · exact absurd hclose (hanswer (by rintro (h | h) <;> cases h))
  · exact absurd hclose (hanswer (by rintro (h | h) <;> cases h))

/-- What each step has to do with the end of a connection. -/
inductive Ends (bd : Build) (addr : SocketAddr) (s : State) : Action → State → Prop
  | client {b : ClientRun.Action} {s' : State} (h : ClientEnding bd b s.client s'.client)
      (hserver : s'.server = s.server)
      (hpeer : (∃ frameBytes nowMs nonces, b = .frame frameBytes nowMs nonces ∧
        Closes bd frameBytes) → ∃ peer frameBytes,
          .host peer addr (.sendFrame frameBytes) ∈ s.server.emitted ∧ Closes bd frameBytes) :
      Ends bd addr s (.client b) s'
  | server {b : ServerRun.Action} {s' : State} (h : ServerEnding bd addr b s.server s'.server)
      (hclient : s'.client = s.client)
      (hpeer : (∃ draws frameBytes, b = .frame draws frameBytes addr ∧ Closes bd frameBytes) →
        ∃ frameBytes ∈ s.client.sent, Closes bd frameBytes) :
      Ends bd addr s (.server b) s'

lemma ends_of_step (hs : Reachable (system bd hash addr) s) (hstep : Step bd hash addr s a s') :
    Ends bd addr s a s' := by
  obtain ⟨localNonce, answer, hhandshaking⟩ := handshaking_reachable (hs.step hstep)
  cases hstep with
  | client hsent hstep =>
    refine .client (clientEnding_of_step (stateSound_reachable hs)
      (fun state hstate => (hhandshaking.requesting state hstate).2.isRequestFrame) hstep) rfl ?_
    rintro ⟨frameBytes, nowMs, nonces, ha, hclose⟩
    obtain ⟨peer, hmem⟩ := host_of_sent (server_traced hs) (hsent _ _ _ ha) hclose
    exact ⟨peer, frameBytes, hmem, hclose⟩
  | server hsent hstep =>
    have hinv := ServerRun.inv_reachable (server_reachable hs)
    refine .server (serverEnding_of_move (ServerRun.Step.move hinv hstep)) rfl ?_
    rintro ⟨draws, frameBytes, ha, hclose⟩
    exact ⟨frameBytes, hsent _ _ ha, hclose⟩

lemma Ends.stays_over (h : Ends bd addr s a s') :
    (Over s.client.core.state → Over s'.client.core.state) ∧
      ∀ peer, PeerOver s.server addr peer → PeerOver s'.server addr peer := by
  cases h with
  | client h hserver hpeer => exact ⟨h.stays_over, fun peer hover => hserver ▸ hover⟩
  | server h hclient hpeer => exact ⟨fun hover => hclient ▸ hover, h.stays_over⟩

lemma ending_step (h : Ending bd addr s) (hends : Ends bd addr s a s') : Ending bd addr s' := by
  obtain ⟨hclient, hpeers⟩ := hends.stays_over
  cases hends with
  | client hends hserver hpeer =>
    refine ⟨fun frameBytes hmem hclose => ?_, fun peer frameBytes hmem hclose => ?_,
      fun peer hmem => ?_, fun hmem => ?_⟩
    · exact (hends.frames frameBytes hmem hclose).elim
        (fun hmem => hclient (h.client frameBytes hmem hclose)) id
    · exact hpeers peer (h.peers peer frameBytes (hserver ▸ hmem) hclose)
    · exact hclient (h.peerReport peer (hserver ▸ hmem))
    · rcases hends.report hmem with hmem | hframe
      · exact (h.clientReport hmem).imp hpeers
      · obtain ⟨peer, frameBytes, hsent, hclose⟩ := hpeer hframe
        exact ⟨peer, hpeers peer (h.peers peer frameBytes hsent hclose)⟩
  | server hends hsame hpeer =>
    refine ⟨fun frameBytes hmem hclose => ?_, fun peer frameBytes hmem hclose => ?_,
      fun peer hmem => ?_, fun hmem => ?_⟩
    · exact hclient (h.client frameBytes (hsame ▸ hmem) hclose)
    · exact (hends.frames peer frameBytes hmem hclose).elim
        (fun hmem => hpeers peer (h.peers peer frameBytes hmem hclose)) id
    · rcases hends.report peer hmem with hmem | hframe
      · exact hclient (h.peerReport peer hmem)
      · obtain ⟨frameBytes, hsent, hclose⟩ := hpeer hframe
        exact hclient (h.client frameBytes hsent hclose)
    · exact (h.clientReport (hsame ▸ hmem)).imp hpeers

/-- Neither side closes a connection while nobody asks for it. -/
lemma undisturbed_step (h : Undisturbed bd addr s) (hasks : ¬ Asks addr s a)
    (hends : Ends bd addr s a s') : Undisturbed bd addr s' := by
  cases hends with
  | @client b s' hends hserver hpeer =>
    have hquiet : ∀ frameBytes nowMs nonces, b = .frame frameBytes nowMs nonces →
        ¬ Closes bd frameBytes := fun frameBytes nowMs nonces ha hclose => by
      obtain ⟨peer, frameBytes', hsent, hclose'⟩ := hpeer ⟨_, _, _, ha, hclose⟩
      exact h.peers peer frameBytes' hsent hclose'
    obtain ⟨hopen, hframes⟩ := hends.stays_open (fun nowMs ha => hasks (ha ▸ trivial)) hquiet
      h.clientOpen
    refine ⟨fun frameBytes hmem hclose => ?_, hserver ▸ h.peers, hopen, hserver ▸ h.peersOpen,
      hserver ▸ h.peerReport, fun hmem => ?_⟩
    · exact h.client frameBytes (hframes frameBytes hmem hclose) hclose
    · rcases hends.report hmem with hmem | ⟨frameBytes, nowMs, nonces, ha, hclose⟩
      · exact h.clientReport hmem
      · exact hquiet _ _ _ ha hclose
  | @server b s' hends hsame hpeer =>
    have hquiet : ∀ draws frameBytes, b = .frame draws frameBytes addr →
        ¬ Closes bd frameBytes := fun draws frameBytes ha hclose => by
      obtain ⟨frameBytes', hsent, hclose'⟩ := hpeer ⟨_, _, ha, hclose⟩
      exact h.client frameBytes' hsent hclose'
    obtain ⟨hopen, hframes⟩ := hends.stays_open
      (fun peer nowMs ha haddr => hasks (by rw [ha]; exact haddr)) hquiet h.peersOpen
    refine ⟨hsame ▸ h.client, fun peer frameBytes hmem hclose => ?_, hsame ▸ h.clientOpen, hopen,
      fun peer hmem => ?_, hsame ▸ h.clientReport⟩
    · exact h.peers peer frameBytes (hframes peer frameBytes hmem hclose) hclose
    · rcases hends.report peer hmem with hmem | ⟨draws, frameBytes, ha, hclose⟩
      · exact h.peerReport peer hmem
      · exact hquiet _ _ ha hclose

lemma undisturbed_initial (h : Initial bd s) : Undisturbed bd addr s := by
  obtain ⟨⟨config, localNonce, hclient⟩, config', hserver⟩ := bothFresh_of_initial h
  have halpha := not_closes_of_request (.inl (readType_alphaFrame bd localNonce))
  refine ⟨?_, ?_, ?_, ?_, ?_, ?_⟩
  · intro frameBytes hmem
    rw [hclient] at hmem
    rw [List.mem_singleton.mp hmem]
    exact halpha
  · simp [hserver]
  · rintro ⟨e, he, -⟩
    rw [hclient] at he
    cases he
  · rintro ⟨peer, e, hp, -⟩
    rw [hserver] at hp
    cases hp
  · simp [hserver]
  · rw [hclient]
    exact List.not_mem_nil

theorem ending_reachable (hs : Reachable (system bd hash addr) s) : Ending bd addr s := by
  induction hs using Reachable.induct with
  | init h =>
    have hquiet : Undisturbed bd addr _ := undisturbed_initial h
    exact ⟨fun _ hmem hclose => absurd hclose (hquiet.client _ hmem),
      fun _ _ hmem hclose => absurd hclose (hquiet.peers _ _ hmem),
      fun _ hmem => absurd hmem (hquiet.peerReport _), fun hmem => absurd hmem hquiet.clientReport⟩
  | step hs hstep ih => exact ending_step ih (ends_of_step hs hstep)

lemma over_continues (hs : Reachable (system bd hash addr) s)
    (h : Continues (system bd hash addr) s s') :
    (Over s.client.core.state → Over s'.client.core.state) ∧
      ∀ peer, PeerOver s.server addr peer → PeerOver s'.server addr peer := by
  induction h with
  | refl => exact ⟨id, fun _ => id⟩
  | tail hcontinues hlast ih =>
    obtain ⟨a, hstep⟩ := hlast
    obtain ⟨hclient, hpeers⟩ := (ends_of_step (hs.continues hcontinues) hstep).stays_over
    exact ⟨hclient ∘ ih.1, fun peer => hpeers peer ∘ ih.2 peer⟩

/-- The event of a peer comes from its endpoint. -/
lemma host_of_event {peer : PeerRef} (hs : Reachable (system bd hash addr) s)
    (hpeer : s.server.addrs[peer]? = some addr) (hmem : .disconnect peer ∈ s.server.events) :
    .host peer addr .onDisconnect ∈ s.server.emitted := by
  rw [events_eq (server_reachable hs)] at hmem
  obtain ⟨emission, hemission, hevent⟩ := List.mem_filterMap.mp hmem
  cases (server_traced hs).emitted emission hemission with
  | @host r addr' call haddr htype =>
    cases call with
    | onDisconnect =>
      cases hevent
      cases haddr.symm.trans hpeer
      exact hemission
    | _ => cases hevent
  | _ => cases hevent

/-- When the server reports that a peer of the client has disconnected, the client is out of the
connection for good; and when the client reports that the server has, the peer that it was
connected to is. -/
theorem disconnects_agree (hs : Reachable (system bd hash addr) s) :
    (∀ peer, s.server.addrs[peer]? = some addr → .disconnect peer ∈ s.server.events →
      ∀ s', Continues (system bd hash addr) s s' →
        (∀ e, s'.client.core.state = .active e → e.stateId ≠ .active) ∧
          ∀ state, s'.client.core.state ≠ .handshake state) ∧
    (.disconnect ∈ s.client.produced → ∃ peer : PeerRef, s.server.addrs[peer]? = some addr ∧
      ∀ s', Continues (system bd hash addr) s s' →
        ∀ p : Peer, s'.server.core.heap[peer]? = some p → p.endpoint.stateId ≠ .active) := by
  have hending := ending_reachable hs
  constructor
  · intro peer hpeer hmem s' hcontinues
    have hover := hending.peerReport peer (host_of_event hs hpeer hmem)
    have hover' := (over_continues hs hcontinues).1 hover
    refine ⟨fun e he => ?_, fun state hstate => ?_⟩
    · rw [he] at hover'
      exact ended_ne_active hover'
    · rw [hstate] at hover'
      exact hover'
  · intro hmem
    obtain ⟨peer, e, hp, hended⟩ := hending.clientReport hmem
    refine ⟨peer, addrs_of_endpoints hp, fun s' hcontinues p hp' => ?_⟩
    obtain ⟨e', he', hended'⟩ := (over_continues hs hcontinues).2 peer ⟨e, hp, hended⟩
    cases he'.symm.trans (endpoints_getElem? hp')
    exact ended_ne_active hended'

/-- Nobody is told that the other side has disconnected in a run in which the user of neither
side has asked for it. -/
theorem nobody_disconnected_unasked (run : Run (system bd hash addr) past s)
    (hnone : ∀ p ∈ past, ¬ Asks addr p.1 p.2) :
    .disconnect ∉ s.client.produced ∧ ∀ peer, s.server.addrs[peer]? = some addr →
      .disconnect peer ∉ s.server.events := by
  have hrule := @Run.invariant _ _ (system bd hash addr)
    (fun s => Reachable (system bd hash addr) s ∧ Undisturbed bd addr s)
    (fun s a => ¬ Asks addr s a)
  obtain ⟨hs, hquiet⟩ := hrule (fun s h => ⟨.init h, undisturbed_initial h⟩)
    (fun s a s' h hasks hstep =>
      ⟨h.1.step hstep, undisturbed_step h.2 hasks (ends_of_step h.1 hstep)⟩) run hnone
  exact ⟨hquiet.clientReport, fun peer hpeer hmem =>
    hquiet.peerReport peer (host_of_event hs hpeer hmem)⟩

end Runs

section Sample

/-- Once the client is connected, it disconnects, and its frame arrives. -/
def sampleFarewell : List Action :=
  sampleHandshake ++ [.client (.disconnect 5),
    .server (sampleFrame 6 (frameOf .close (LawfulBlock.encode (CloseFrame.mk 0))))]

theorem disconnects_agree_sample : ∃ s, Reachable (system .debug sampleHash sampleAddr) s ∧
    .disconnect 0 ∈ s.server.events ∧
      ∀ s', Continues (system .debug sampleHash sampleAddr) s s' →
        ∀ e, s'.client.core.state = .active e → e.stateId ≠ .active := by
  have hrun : ((sampleStart.bind fun s =>
      replay (next .debug sampleHash sampleAddr) s sampleFarewell).map fun s =>
        decide (s.server.addrs[0]? = some sampleAddr ∧ .disconnect 0 ∈ s.server.events)) =
        some true := by decide +kernel
  obtain ⟨s, hreplay, houtcome⟩ := Option.map_eq_some_iff.mp hrun
  obtain ⟨hpeer, hevent⟩ := of_decide_eq_true houtcome
  have hs := replay_reachable hreplay
  exact ⟨s, hs, hevent, fun s' hcontinues =>
    ((disconnects_agree hs).1 0 hpeer hevent s' hcontinues).1⟩

theorem nobody_disconnected_unasked_sample : ∃ past s,
    Run (system .debug sampleHash sampleAddr) past s ∧ .connect ∈ s.client.produced ∧
      .disconnect ∉ s.client.produced := by
  have hrun : ((sampleStart.bind fun s =>
      replay (next .debug sampleHash sampleAddr) s sampleExchange).map fun s =>
        decide (.connect ∈ s.client.produced)) = some true := by decide +kernel
  obtain ⟨s, hreplay, houtcome⟩ := Option.map_eq_some_iff.mp hrun
  have hstart : ∀ s, sampleStart = some s → (system .debug sampleHash sampleAddr).init s :=
    fun _ => sampleStart_initial
  obtain ⟨past, run, hactions⟩ := start_replay_run (fun _ _ _ => next_step) hstart hreplay
  have hnone : ∀ p ∈ past, ¬ Asks sampleAddr p.1 p.2 := by
    intro p hp
    have hmem : p.2 ∈ sampleExchange := hactions ▸ List.mem_map_of_mem hp
    generalize p.2 = a at hmem
    simp only [sampleExchange, sampleHandshake, List.mem_append, List.mem_cons, List.not_mem_nil,
      or_false] at hmem
    rcases hmem with (rfl | rfl | rfl | rfl) | rfl | rfl | rfl | rfl | rfl <;> exact not_false
  exact ⟨past, s, run, of_decide_eq_true houtcome, (nobody_disconnected_unasked run hnone).1⟩

end Sample

end Network

end Redpine

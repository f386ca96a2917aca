import Redpine.Network

/-! Delivery between the users of a client and of its server: from the packets handed over on one
side to the events taken on the other, through the handshake, the connection and its end. -/
namespace Redpine.Network
open Machine Buffer Wire Endpoint Transition Server ServerCore ServerRun ClientRun EndpointPair

/-- Fewer than `2^31` segments are among the frames, and fewer than `2^31` fragments make up the
packets. -/
def Few (bd : Build) (frames : List Bytes) (given : List (Bytes × SendMode)) : Prop :=
  frames.countP (fun frameBytes => carriesSegment bd (.sendFrame frameBytes)) < 2 ^ 31 ∧
    ((given.map Prod.fst).flatMap (fragmentsOf fragmentSize)).length < 2 ^ 31

/-- A peer with its endpoint, as a party of a connection. -/
def State.peerParty (s : State) (peer : PeerRef) (e : Endpoint) : Party :=
  ⟨e, none, callsOf peer s.server.emitted, s.answers peer⟩

/-- The frame is one of the requests of a handshake. -/
def IsRequestFrame (bd : Build) (frameBytes : Bytes) : Prop :=
  readType bd frameBytes = .ok (some .handshakeAlpha) ∨
    readType bd frameBytes = .ok (some .handshakeBeta)

/-- What the client is as a party of a connection. -/
inductive ClientSide (bd : Build) (s : State) : Option Party → Prop
  | waiting (hs : ∀ e, s.client.core.state ≠ .active e)
      (hbuffer : ∀ state, s.client.core.state = .handshake state → state.packetBuffer = s.given)
      (hsent : ∀ frameBytes ∈ s.client.sent, IsRequestFrame bd frameBytes)
      (hpackets : packetsIn s.client.produced = []) : ClientSide bd s none
  | joined {e : Endpoint} {calls : List HostCall} {requests : List Bytes}
      (hs : s.client.core.state = .active e ∨
        s.client.core.state = .quiescent ∧ e.stateId = .zombie)
      (hconnect : .connect ∈ s.client.produced)
      (hsent : s.client.sent = requests ++ sentFrames calls)
      (hrequests : ∀ frameBytes ∈ requests, IsRequestFrame bd frameBytes)
      (hpackets : packetsIn s.client.produced = packetsIn (eventsOf calls)) :
      ClientSide bd s (some ⟨e, none, calls, s.given⟩)

/-- What an action of the client does to it as a party. -/
inductive ClientStep (bd : Build) (a : ClientRun.Action) (given : List (Bytes × SendMode)) :
    Option Party → Option Party → Prop
  | waits : ClientStep bd a given none none
  | joins {config : Endpoint.Config} {e₀ e : Endpoint} {calls : List HostCall} {nowMs : ℕ}
      (haccepted : config.Accepted bd) (hnew : Endpoint.new config = .ok e₀)
      (hcalls : Inputs bd nowMs { e₀ with stateId := .active } (enqueues given ++ [.flush]) calls
        e) :
      ClientStep bd a given none (some ⟨e, none, [.onConnect] ++ calls, given⟩)
  | ignores {e : Endpoint} {calls : List HostCall}
      (hzombie : packetsOf a ≠ [] → e.stateId = .zombie) :
      ClientStep bd a given (some ⟨e, none, calls, given⟩)
        (some ⟨e, none, calls, given ++ packetsOf a⟩)
  | called {e e' : Endpoint} {inputs : List Input} {calls more : List HostCall} {nowMs : ℕ}
      (hinputs : ClientRun.InputsOf bd a inputs) (hcalls : Inputs bd nowMs e inputs more e') :
      ClientStep bd a given (some ⟨e, none, calls, given⟩)
        (some ⟨e', none, calls ++ more, given ++ packetsOf a⟩)

/-- What an action of the server does to a peer as a party. -/
inductive PeerStep (bd : Build) (a : ServerRun.Action) (s s' : State) (peer : PeerRef)
    (addr : SocketAddr) (e' : Endpoint) : Prop
  | same (hp : s.server.endpoints[peer]? = some (addr, e'))
      (hsame : s'.peerParty peer e' = s.peerParty peer e')
  | called {e : Endpoint} {inputs : List Input} {calls : List HostCall} {nowMs : ℕ}
      (hp : s.server.endpoints[peer]? = some (addr, e))
      (hinputs : ServerRun.InputsOf bd peer addr a inputs)
      (hcalls : Inputs bd nowMs e inputs calls e')
      (hparty : s'.peerParty peer e' = ⟨e', none, callsOf peer s.server.emitted ++ calls,
        s.answers peer ++ inputs.flatMap enqueuedBy⟩)
  | created {config : Endpoint.Config} {e : Endpoint} (haccepted : config.Accepted bd)
      (hnew : Endpoint.new config = .ok e) (haddrs : s'.server.addrs = s.server.addrs ++ [addr])
      (hparty : s'.peerParty peer e' = newParty e)

instance decidableFew (bd : Build) (frames : List Bytes) (given : List (Bytes × SendMode)) :
    Decidable (Few bd frames given) := instDecidableAnd

section Small
variable {bd : Build} {s : State} {frames more : List Bytes}
  {given given' : List (Bytes × SendMode)} {p q : Party} {o : Outbox}

lemma Few.of_prefix (h : Few bd (frames ++ more) (given ++ given')) : Few bd frames given := by
  obtain ⟨hsegments, hfragments⟩ := h
  rw [List.countP_append] at hsegments
  rw [List.map_append, List.flatMap_append, List.length_append] at hfragments
  exact ⟨(Nat.le_add_right _ _).trans_lt hsegments, (Nat.le_add_right _ _).trans_lt hfragments⟩

lemma segmentsSent_eq : segmentsSent bd p =
    (sentFrames p.calls).countP fun frameBytes => carriesSegment bd (.sendFrame frameBytes) := by
  unfold segmentsSent
  induction p.calls with
  | nil => rfl
  | cons call calls ih =>
    rw [List.countP_cons, ih]
    cases call with
    | sendFrame frameBytes => exact List.countP_cons.symm
    | _ => rfl

lemma Few.small (h : Few bd (sentFrames p.calls) p.enqueued) (hlinked : Linked bd p q o) :
    o.Small := by
  refine hlinked.small ?_ h.2
  rw [segmentsSent_eq]
  exact h.1

/-- A client as a party has sent no more than the client. -/
lemma ClientSide.few (h : ClientSide bd s (some p)) (hfew : Few bd s.client.sent s.given) :
    Few bd (sentFrames p.calls) p.enqueued := by
  cases h with
  | joined hs hconnect hsent hrequests hpackets =>
    refine ⟨lt_of_le_of_lt ?_ hfew.1, hfew.2⟩
    rw [hsent, List.countP_append]
    exact Nat.le_add_left _ _

end Small

section Server
variable {bd : Build} {s : State} {a : ServerRun.Action} {server : ServerRun.State}
  {peer : PeerRef} {addr : SocketAddr} {e' : Endpoint}

lemma callsOf_answers {answers : List Emission}
    (h : ∀ emission ∈ answers, Answer s.server.core emission) :
    callsOf peer (s.server.emitted ++ answers) = callsOf peer s.server.emitted := by
  have hreplies : callsOf peer answers = [] := by
    refine callsOf_replies fun emission hmem => ?_
    cases h emission hmem with
    | alphaAck ack addr => exact ⟨_, _, rfl⟩
    | betaAck error clientNonce addr hgranted => exact ⟨_, _, rfl⟩
  rw [callsOf_append, hreplies, List.append_nil]

/-- What an action of the server does to each of its peers. -/
lemma peerStep_of_move (htraced : Traced bd s.server)
    (hanswers : ∀ r, s.server.endpoints.length ≤ r → s.answers r = [])
    (hmove : ServerRun.Move bd s.server a server)
    (hp : server.endpoints[peer]? = some (addr, e')) :
    PeerStep bd a s
      { s with server := server, answers := fun peer => s.answers peer ++ packetsFor peer a }
      peer addr e' := by
  cases hmove with
  | still hpeers hemitted hans hcreated hpackets =>
    rw [hpeers] at hp
    refine .same hp ?_
    unfold State.peerParty
    dsimp only
    rw [hemitted, callsOf_answers hans, hpackets, List.append_nil]
  | @called r addr₀ e e₀ inputs calls nowMs hr hinputs hcalls hpeers hemitted hcreated =>
    rw [hpeers] at hp
    by_cases heq : peer = r
    · subst heq
      rw [List.getElem?_set_self (List.getElem?_eq_some_iff.mp hr).1] at hp
      cases hp
      refine .called hr hinputs hcalls ?_
      unfold State.peerParty
      rw [hemitted, callsOf_called_self, hinputs.packets.1]
    · rw [List.getElem?_set_ne (Ne.symm heq)] at hp
      refine .same hp ?_
      unfold State.peerParty
      dsimp only
      rw [hemitted, callsOf_called_other heq, hinputs.packets_other heq, List.append_nil]
  | @created draws frameBytes addr₀ frame config e ha htype hread haccepted hnew hpeers hemitted
      hcreated =>
    subst ha
    rw [hpeers] at hp
    rcases Nat.lt_trichotomy peer s.server.endpoints.length with hlt | heq | hgt
    · rw [List.getElem?_append_left hlt] at hp
      refine .same hp ?_
      unfold State.peerParty
      rw [hemitted, callsOf_created, if_neg hlt.ne', List.append_nil]
      exact congrArg (Party.mk e' none _) (List.append_nil _)
    · rw [heq, List.getElem?_concat_length] at hp
      cases hp
      refine .created haccepted hnew ?_ ?_
      · unfold State.addrs
        rw [hpeers, List.map_append]
        rfl
      · unfold State.peerParty
        dsimp only
        rw [hemitted, callsOf_created, if_pos heq.symm, htraced.callsOf_eq_nil heq.ge,
          hanswers peer heq.ge]
        rfl
    · rw [List.getElem?_eq_none (by simpa using hgt)] at hp
      cases hp

end Server

section Client
variable {bd : Build} {s : State} {party : Option Party} {a : ClientRun.Action}
  {client : ClientRun.State} {frames : List Bytes} {localNonce : U32}
  {answer : Option HandshakeAlphaAckFrame}

lemma Requests.isRequestFrame {phase : Client.HandshakePhase} {frameBytes : Bytes}
    (h : Requests localNonce answer phase frameBytes) : IsRequestFrame bd frameBytes := by
  cases h with
  | alpha hnone => exact .inl (readType_alphaFrame bd localNonce)
  | beta hack => exact .inr (readType_frameOf bd _ _)

lemma ClientSide.waiting_move (h : ClientSide bd s none)
    (hframe : ∀ state, client.core.state = .handshake state → IsRequestFrame bd state.frame)
    (hmove : ClientRun.Move bd s.client.core a frames client.core)
    (hsent : client.sent = s.client.sent ++ frames) (hpolled : client.polled = s.client.polled) :
    ∃ party, ClientSide bd { s with client := client, given := s.given ++ packetsOf a } party ∧
      ClientStep bd a s.given none party := by
  have hproduced : client.produced = s.client.polled ++ client.core.events :=
    congrArg (· ++ client.core.events) hpolled
  cases h with
  | waiting hs hbuffer hrequests hpackets =>
    cases hmove with
    | idle hstate hevents hgiven =>
      refine ⟨none, .waiting (fun e he => hs e (hstate.symm.trans he)) (fun state hstate' => ?_)
        (fun frameBytes hmem => ?_) ?_, .waits⟩
      · have hhandshake := hstate.symm.trans hstate'
        have hnone : packetsOf a = [] := by
          by_contra hne
          cases hhandshake.symm.trans (hgiven hne)
        dsimp only
        rw [hnone, List.append_nil]
        exact hbuffer state hhandshake
      · rw [hsent, List.append_nil] at hmem
        exact hrequests frameBytes hmem
      · rw [hproduced, hevents]
        exact hpackets
    | @handshake _ state state' _ _ hs₀ hs' hevents hnonce hgiven hchange hframes =>
      refine ⟨none, .waiting (fun e he => (by cases hs'.symm.trans he)) (fun state'' hstate' => ?_)
        (fun frameBytes hmem => ?_) ?_, .waits⟩
      · cases hs'.symm.trans hstate'
        exact hgiven.trans (congrArg (· ++ packetsOf a) (hbuffer state hs₀))
      · rcases List.mem_append.mp (hsent ▸ hmem) with hmem | hmem
        · exact hrequests frameBytes hmem
        · rw [hframes frameBytes hmem]
          exact hframe state' hs'
      · rw [hproduced, hevents]
        exact hpackets
    | @failed _ state kind _ hs₀ hs' hevents hgiven =>
      refine ⟨none, .waiting (fun e he => (by cases hs'.symm.trans he))
        (fun state' hstate' => (by cases hs'.symm.trans hstate')) (fun frameBytes hmem => ?_) ?_,
        .waits⟩
      · rw [hsent, List.append_nil] at hmem
        exact hrequests frameBytes hmem
      · rw [hproduced, hevents, ← List.append_assoc, packetsIn_append]
        exact congrArg (· ++ []) hpackets
    | @activated frameBytes nowMs nonces state config e₀ e calls _ hs₀ hs' hphase hack haccepted
        hnew hcalls hevents =>
      have hgiven : s.given ++ packetsOf (.frame frameBytes nowMs nonces) = s.given :=
        List.append_nil _
      rw [hgiven]
      rw [hbuffer state hs₀] at hcalls
      refine ⟨some ⟨e, none, [.onConnect] ++ calls, s.given⟩,
        .joined (.inl hs') ?_ hsent hrequests ?_, .joins haccepted hnew hcalls⟩
      · rw [hproduced, hevents]
        simp
      · rw [hproduced, hevents, ← List.append_assoc, packetsIn_append]
        exact congrArg (· ++ packetsIn (.connect :: eventsOf calls)) hpackets
    | called hs₀ hinputs hcalls hs' hevents => exact absurd hs₀ (hs _)

lemma ClientSide.joined_move {p : Party} (h : ClientSide bd s (some p))
    (hmove : ClientRun.Move bd s.client.core a frames client.core)
    (hsent : client.sent = s.client.sent ++ frames) (hpolled : client.polled = s.client.polled) :
    ∃ party, ClientSide bd { s with client := client, given := s.given ++ packetsOf a } party ∧
      ClientStep bd a s.given (some p) party := by
  have hproduced : client.produced = s.client.polled ++ client.core.events :=
    congrArg (· ++ client.core.events) hpolled
  cases h with
  | @joined e calls requests hs hconnect hsent₀ hrequests hpackets =>
    cases hmove with
    | idle hstate hevents hgiven =>
      have hsame : client.produced = s.client.produced := by
        rw [hproduced, hevents]
        rfl
      refine ⟨_, .joined (hstate.symm ▸ hs) (hsame ▸ hconnect) ?_ hrequests
        (hsame.symm ▸ hpackets), .ignores fun hne => ?_⟩
      · rw [hsent, List.append_nil, hsent₀]
      · rcases hs with hs | ⟨-, hzombie⟩
        · cases hs.symm.trans (hgiven hne)
        · exact hzombie
    | handshake hs₀ hs' hevents hnonce hgiven hchange hframes =>
      rcases hs with hs | ⟨hs, -⟩
      · cases hs.symm.trans hs₀
      · cases hs.symm.trans hs₀
    | failed hs₀ hs' hevents hgiven =>
      rcases hs with hs | ⟨hs, -⟩
      · cases hs.symm.trans hs₀
      · cases hs.symm.trans hs₀
    | activated hs₀ hs' hphase hack haccepted hnew hcalls hevents =>
      rcases hs with hs | ⟨hs, -⟩
      · cases hs.symm.trans hs₀
      · cases hs.symm.trans hs₀
    | @called _ inputs e₁ e' more nowMs _ hs₀ hinputs hcalls hs' hevents =>
      have hactive : s.client.core.state = .active e := by
        rcases hs with hs | ⟨hs, -⟩
        · exact hs
        · cases hs.symm.trans hs₀
      cases hactive.symm.trans hs₀
      refine ⟨_, .joined hs' ?_ ?_ hrequests ?_, .called hinputs hcalls⟩
      · rw [hproduced, hevents, ← List.append_assoc]
        exact List.mem_append_left _ hconnect
      · rw [hsent, hsent₀, List.append_assoc]
        exact congrArg (requests ++ ·) (List.filterMap_append ..).symm
      · rw [hproduced, hevents, ← List.append_assoc, packetsIn_append, eventsOf_append,
          packetsIn_append (eventsOf calls)]
        exact congrArg (· ++ packetsIn (eventsOf more)) hpackets

/-- What an action does to the client as a party. -/
lemma ClientSide.step (h : ClientSide bd s party)
    (hsound : StateSound bd s.client.core.state)
    (hframe : ∀ state, client.core.state = .handshake state → IsRequestFrame bd state.frame)
    (hstep : ClientRun.Step bd s.client a client) :
    ∃ party', ClientSide bd { s with client := client, given := s.given ++ packetsOf a } party' ∧
      ClientStep bd a s.given party party' := by
  rcases ClientRun.Step.move hsound hstep with ⟨frames, hmove, hsent, hpolled⟩ |
    ⟨rfl, hstate, hproduced, hsent⟩
  · cases party with
    | none => exact h.waiting_move hframe hmove hsent hpolled
    | some p => exact h.joined_move hmove hsent hpolled
  · have hgiven : s.given ++ packetsOf .poll = s.given := List.append_nil _
    cases h with
    | waiting hs hbuffer hrequests hpackets =>
      rw [hgiven]
      exact ⟨none, .waiting (hstate.symm ▸ hs) (hstate.symm ▸ hbuffer) (hsent.symm ▸ hrequests)
        (hproduced.symm ▸ hpackets), .waits⟩
    | joined hs hconnect hsent₀ hrequests hpackets =>
      exact ⟨_, .joined (hstate.symm ▸ hs) (hproduced.symm ▸ hconnect) (hsent.trans hsent₀)
        hrequests (hproduced.symm ▸ hpackets), .ignores (absurd rfl)⟩

end Client

/-- What the peers of the client have received of what it has put on its stream. -/
def Upward (bd : Build) (addr : SocketAddr) (s : State) : Option Party → Prop
  | none => ∀ peer e, s.server.endpoints[peer]? = some (addr, e) →
      ∃ p, p.enqueued = [] ∧ Linked bd p (s.peerParty peer e) .empty
  | some p => ∃ o, (∃ q, Linked bd p q o) ∧
      ∀ peer e, s.server.endpoints[peer]? = some (addr, e) → Linked bd p (s.peerParty peer e) o

/-- What the client has received of what its peers have put on their streams. -/
def Downward (bd : Build) (addr : SocketAddr) (s : State) (party : Option Party) : Prop :=
  ∀ peer e, s.server.endpoints[peer]? = some (addr, e) →
    ∃ o q, Linked bd (s.peerParty peer e) q o ∧ ∀ p, party = some p → q = p

/-- The server has not created two peers for the address. -/
def Single (s : State) (addr : SocketAddr) : Prop :=
  ∀ r r' : PeerRef, s.server.addrs[r]? = some addr → s.server.addrs[r']? = some addr → r = r'

section Upward
variable {bd : Build} {addr : SocketAddr} {s s' : State} {party party' : Option Party}

/-- A frame of the client that is delivered to a peer is one of its endpoint. -/
lemma ClientSide.sent_of_delivered (h : ClientSide bd s party) {frameBytes : Bytes}
    {frameType : FrameType} (hmem : frameBytes ∈ s.client.sent)
    (htype : readType bd frameBytes = .ok (some frameType))
    (hother : frameType ≠ .handshakeAlpha ∧ frameType ≠ .handshakeBeta) :
    ∃ p, party = some p ∧ .sendFrame frameBytes ∈ p.calls := by
  have hnot : ¬ IsRequestFrame bd frameBytes := by
    rintro (halpha | hbeta)
    · cases htype.symm.trans halpha
      exact hother.1 rfl
    · cases htype.symm.trans hbeta
      exact hother.2 rfl
  cases h with
  | waiting hs hbuffer hsent hpackets => exact absurd (hsent frameBytes hmem) hnot
  | joined hs hconnect hsent hrequests hpackets =>
    rcases List.mem_append.mp (hsent ▸ hmem) with hmem | hmem
    · exact absurd (hrequests frameBytes hmem) hnot
    · exact ⟨_, rfl, mem_sentFrames.mp hmem⟩

/-- The server has done something. -/
lemma Upward.server {a : ServerRun.Action} (h : Upward bd addr s party)
    (hside : ClientSide bd s party) (hfew : Few bd s.client.sent s.given)
    (hdelivered : ∀ draws frameBytes, a = .frame draws frameBytes addr →
      frameBytes ∈ s.client.sent)
    (hpeers : ∀ peer e, s'.server.endpoints[peer]? = some (addr, e) →
      PeerStep bd a s s' peer addr e) : Upward bd addr s' party := by
  have hframe : ∀ {peer inputs frameType payloadBytes}, ServerRun.InputsOf bd peer addr a inputs →
      .frame frameType payloadBytes ∈ inputs → ∃ p frameBytes, party = some p ∧
        .sendFrame frameBytes ∈ p.calls ∧ readType bd frameBytes = .ok (some frameType) ∧
        payload bd frameBytes = .ok payloadBytes := by
    intro peer inputs frameType payloadBytes hinputs hmem
    obtain ⟨draws, frameBytes, ha, htype, hpayload, hother⟩ := hinputs.frame_of_mem hmem
    obtain ⟨p, hp, hsent⟩ := hside.sent_of_delivered (hdelivered _ _ ha) htype hother
    exact ⟨p, frameBytes, hp, hsent, htype, hpayload⟩
  cases party with
  | none =>
    intro peer e' hp'
    cases hpeers peer e' hp' with
    | same hp hsame =>
      rw [hsame]
      exact h peer e' hp
    | called hp hinputs hcalls hparty =>
      obtain ⟨p, hempty, hlinked⟩ := h peer _ hp
      rw [hparty]
      refine ⟨p, hempty, hlinked.receivesAll small_empty hcalls
        fun frameType payloadBytes hmem => ?_⟩
      obtain ⟨q, -, hq, -⟩ := hframe hinputs hmem
      cases hq
    | created haccepted hnew haddrs hparty =>
      rw [hparty]
      exact ⟨_, rfl, newParty_linked haccepted hnew haccepted hnew⟩
  | some p =>
    obtain ⟨o, ⟨q, hq⟩, hlinked⟩ := h
    refine ⟨o, ⟨q, hq⟩, fun peer e' hp' => ?_⟩
    cases hpeers peer e' hp' with
    | same hp hsame =>
      rw [hsame]
      exact hlinked peer e' hp
    | called hp hinputs hcalls hparty =>
      rw [hparty]
      refine (hlinked peer _ hp).receivesAll ((hside.few hfew).small hq) hcalls
        fun frameType payloadBytes hmem => ?_
      obtain ⟨q', frameBytes, hq', hsent, hrest⟩ := hframe hinputs hmem
      cases hq'
      exact ⟨frameBytes, hsent, hrest⟩
    | created haccepted hnew haddrs hparty =>
      rw [hparty]
      exact hq.withNew haccepted hnew

/-- The client has done something. -/
lemma Upward.client {a : ClientRun.Action} (h : Upward bd addr s party)
    (hstep : ClientStep bd a s.given party party') (hserver : s'.server = s.server)
    (hanswers : s'.answers = s.answers) : Upward bd addr s' party' := by
  have hparty : ∀ peer e, s'.peerParty peer e = s.peerParty peer e := by
    intro peer e
    unfold State.peerParty
    rw [hserver, hanswers]
  have hgrow : ∀ {p q : Party} {o o' : Outbox}, Linked bd p q o' → o.Extends o' →
      (∀ peer e, s.server.endpoints[peer]? = some (addr, e) →
        ∃ b taken, Incoming (s.peerParty peer e).endpoint o b taken (s.peerParty peer e).calls) →
      Upward bd addr s' (some p) := by
    intro p q o o' hlinked hle hin
    refine ⟨o', ⟨q, hlinked⟩, fun peer e hp => ?_⟩
    rw [hserver] at hp
    obtain ⟨b, taken, hin⟩ := hin peer e hp
    rw [hparty]
    exact hlinked.withReceiver ⟨b, taken, hin.mono hle⟩
  cases hstep with
  | waits =>
    intro peer e hp
    rw [hparty]
    exact h peer e (hserver ▸ hp)
  | @joins config e₀ e calls nowMs haccepted hnew hcalls =>
    have hfresh := newParty_linked haccepted hnew haccepted hnew
    obtain ⟨o', hlinked, hle⟩ := hfresh.sendsAll hcalls (by simp [enqueues])
    rw [List.flatMap_append, flatMap_enqueues] at hlinked
    have hgiven : ([] : List (Bytes × SendMode)) ++ (s.given ++ [Input.flush].flatMap enqueuedBy) =
        s.given := List.append_nil _
    rw [hgiven] at hlinked
    refine hgrow hlinked hle fun peer e hp => ?_
    obtain ⟨p, -, hpeer⟩ := h peer e hp
    exact hpeer.incoming
  | ignores hzombie =>
    obtain ⟨o, ⟨q, hq⟩, hlinked⟩ := h
    exact hgrow (hq.ignores hzombie) ⟨List.prefix_rfl, List.prefix_rfl, List.prefix_rfl,
      List.prefix_rfl⟩ fun peer e hp => (hlinked peer e hp).incoming
  | called hinputs hcalls =>
    obtain ⟨o, ⟨q, hq⟩, hlinked⟩ := h
    obtain ⟨hpackets, hinit⟩ := hinputs.packets
    obtain ⟨o', hq', hle⟩ := hq.sendsAll hcalls hinit
    rw [hpackets] at hq'
    exact hgrow hq' hle fun peer e hp => (hlinked peer e hp).incoming

end Upward

section Downward
variable {bd : Build} {hash : Bytes → U64} {addr : SocketAddr} {s s' : State}
  {party party' : Option Party}

/-- A frame that an endpoint of the server has sent to the client is one of its only peer. -/
lemma sent_of_single (htraced : Traced bd s.server) (hsingle : Single s addr) {frameBytes : Bytes}
    {frameType : FrameType} {peer : PeerRef} (hsent : s.HasSent frameBytes addr)
    (htype : readType bd frameBytes = .ok (some frameType))
    (hother : frameType ≠ .handshakeAlphaAck ∧ frameType ≠ .handshakeBetaAck)
    (hpeer : s.server.addrs[peer]? = some addr) :
    .sendFrame frameBytes ∈ callsOf peer s.server.emitted := by
  rcases sent_cases htraced hsent with ⟨r, -, haddr, hmem, -, -⟩ | ⟨ack, rfl, -⟩ |
    ⟨error, clientNonce, rfl, -⟩
  · obtain rfl := hsingle _ _ haddr hpeer
    exact List.mem_filterMap.mpr ⟨_, hmem, if_pos rfl⟩
  · cases (readType_frameOf bd _ _).symm.trans htype
    exact absurd rfl hother.1
  · cases (readType_frameOf bd _ _).symm.trans htype
    exact absurd rfl hother.2

lemma addrs_of_endpoints {server : ServerRun.State} {peer : PeerRef} {e : Endpoint}
    (hp : server.endpoints[peer]? = some (addr, e)) : server.addrs[peer]? = some addr := by
  unfold State.addrs
  rw [List.getElem?_map, hp]
  rfl

/-- The server has done something. -/
lemma Downward.server {a : ServerRun.Action} (h : Downward bd addr s party)
    (hpeers : ∀ peer e, s'.server.endpoints[peer]? = some (addr, e) →
      PeerStep bd a s s' peer addr e)
    (hnone : s'.server.addrs = s.server.addrs ++ [addr] → party = none) :
    Downward bd addr s' party := by
  intro peer e' hp'
  cases hpeers peer e' hp' with
  | same hp hsame =>
    rw [hsame]
    exact h peer e' hp
  | called hp hinputs hcalls hparty =>
    obtain ⟨o, q, hlinked, heq⟩ := h peer _ hp
    obtain ⟨o', hlinked', -⟩ := hlinked.sendsAll hcalls hinputs.packets.2
    rw [hparty]
    exact ⟨o', q, hlinked', heq⟩
  | created haccepted hnew haddrs hparty =>
    rw [hparty]
    exact ⟨.empty, _, newParty_linked haccepted hnew haccepted hnew,
      fun p hp => (by cases (hnone haddrs).symm.trans hp)⟩

/-- The client has done something. -/
lemma Downward.client {a : ClientRun.Action} (h : Downward bd addr s party)
    (hstep : ClientStep bd a s.given party party') (hserver : s'.server = s.server)
    (hanswers : s'.answers = s.answers) (htraced : Traced bd s.server) (hsingle : Single s addr)
    (hfew : ∀ peer, s.server.addrs[peer]? = some addr →
      Few bd (sentFrames (callsOf peer s.server.emitted)) (s.answers peer))
    (hdelivered : ∀ frameBytes nowMs nonces, a = .frame frameBytes nowMs nonces →
      s.HasSent frameBytes addr) : Downward bd addr s' party' := by
  intro peer e₁ hp
  have hparty : s'.peerParty peer e₁ = s.peerParty peer e₁ := by
    unfold State.peerParty
    rw [hserver, hanswers]
  rw [hserver] at hp
  rw [hparty]
  have haddr := addrs_of_endpoints hp
  obtain ⟨o, q, hlinked, heq⟩ := h peer e₁ hp
  have hsmall : o.Small := Few.small (hfew peer haddr) hlinked
  have hclient : ∀ p, party' = some p → (∃ b taken, Incoming p.endpoint o b taken p.calls) →
      ∃ o q, Linked bd (s.peerParty peer e₁) q o ∧ ∀ p, party' = some p → q = p :=
    fun p hp hin => ⟨o, p, hlinked.withReceiver hin,
      fun p' hp' => Option.some.inj (hp.symm.trans hp')⟩
  cases hstep with
  | waits => exact ⟨o, q, hlinked, heq⟩
  | joins haccepted hnew hcalls =>
    have hjoined := (hlinked.withNew haccepted hnew).receivesAll hsmall hcalls
      fun frameType payloadBytes hmem => (by simp [enqueues] at hmem)
    exact hclient _ rfl hjoined.incoming
  | ignores hzombie =>
    obtain rfl := heq _ rfl
    exact hclient _ rfl hlinked.incoming
  | called hinputs hcalls =>
    obtain rfl := heq _ rfl
    have hreceived := hlinked.receivesAll hsmall hcalls fun frameType payloadBytes hmem => by
      obtain ⟨frameBytes, nowMs, nonces, ha, htype, hpayload, hother⟩ := hinputs.frame_of_mem hmem
      exact ⟨frameBytes, sent_of_single htraced hsingle (hdelivered _ _ _ ha) htype hother haddr,
        htype, hpayload⟩
    exact hclient _ rfl hreceived.incoming

end Downward

/-- The peers for the address have sent few segments and been given few fragments. -/
def FewDown (bd : Build) (addr : SocketAddr) (s : State) : Prop :=
  ∀ peer, s.server.addrs[peer]? = some addr →
    Few bd (sentFrames (callsOf peer s.server.emitted)) (s.answers peer)

/-- The client as a party, and what has passed in each direction while the bounds are kept. -/
structure Delivering (bd : Build) (addr : SocketAddr) (s : State) (party : Option Party) :
    Prop where
  side : ClientSide bd s party
  upward : Few bd s.client.sent s.given → Upward bd addr s party
  downward : Single s addr → FewDown bd addr s → Downward bd addr s party
  answers : ∀ r, s.server.endpoints.length ≤ r → s.answers r = []

section Delivering
variable {bd : Build} {hash : Bytes → U64} {addr : SocketAddr} {s s' : State} {a : Action}
  {party : Option Party}

lemma delivering_initial (h : Initial bd s) : Delivering bd addr s none := by
  obtain ⟨⟨config, localNonce, hclient⟩, config', hserver⟩ := bothFresh_of_initial h
  obtain ⟨-, -, hgiven, hanswers⟩ := h
  have hpeers : ∀ (peer : PeerRef) e, s.server.endpoints[peer]? ≠ some (addr, e) := by
    intro peer e hp
    rw [hserver] at hp
    cases hp
  refine ⟨.waiting ?_ ?_ ?_ ?_, fun _ peer e hp => absurd hp (hpeers peer e),
    fun _ _ peer e hp => absurd hp (hpeers peer e), ?_⟩
  · intro e he
    rw [hclient] at he
    cases he
  · intro state hs
    rw [hclient] at hs
    cases hs
    exact hgiven.symm
  · intro frameBytes hmem
    rw [hclient] at hmem
    rw [List.mem_singleton.mp hmem]
    exact .inl (readType_alphaFrame bd localNonce)
  · rw [hclient]
    rfl
  · intro r hr
    rw [hanswers]

lemma client_sent_grows {b : ClientRun.Action} {client : ClientRun.State}
    (hsound : StateSound bd s.client.core.state) (hstep : ClientRun.Step bd s.client b client) :
    ∃ frames, client.sent = s.client.sent ++ frames := by
  rcases ClientRun.Step.move hsound hstep with ⟨frames, -, hsent, -⟩ | ⟨-, -, -, hsent⟩
  · exact ⟨frames, hsent⟩
  · exact ⟨[], hsent.trans (List.append_nil _).symm⟩

lemma Delivering.client {b : ClientRun.Action} {client : ClientRun.State}
    (h : Delivering bd addr s party) (hs : Reachable (system bd hash addr) s)
    (hsent : ∀ frameBytes nowMs nonces, b = .frame frameBytes nowMs nonces →
      s.HasSent frameBytes addr)
    (hstep : ClientRun.Step bd s.client b client) :
    ∃ party', Delivering bd addr { s with client := client, given := s.given ++ packetsOf b }
      party' := by
  have hsound := stateSound_reachable hs
  obtain ⟨localNonce, answer, hhandshaking⟩ := handshaking_reachable (hs.step (.client hsent hstep))
  have hframe : ∀ state, client.core.state = .handshake state → IsRequestFrame bd state.frame :=
    fun state hstate => (hhandshaking.requesting state hstate).2.isRequestFrame
  obtain ⟨party', hside', hclient⟩ := h.side.step hsound hframe hstep
  obtain ⟨frames, hframes⟩ := client_sent_grows hsound hstep
  refine ⟨party', hside', fun hfew => ?_, fun hsingle hfew => ?_, h.answers⟩
  · rw [hframes] at hfew
    exact (h.upward hfew.of_prefix).client hclient rfl rfl
  · exact (h.downward hsingle hfew).client hclient rfl rfl (server_traced hs) hsingle hfew hsent

lemma ClientSide.withServer (h : ClientSide bd s party) (server : ServerRun.State)
    (answers : PeerRef → List (Bytes × SendMode)) :
    ClientSide bd { s with server := server, answers := answers } party := by
  cases h with
  | waiting hs hbuffer hsent hpackets => exact .waiting hs hbuffer hsent hpackets
  | joined hs hconnect hsent hrequests hpackets =>
    exact .joined hs hconnect hsent hrequests hpackets

lemma Delivering.server {b : ServerRun.Action} {server : ServerRun.State}
    (h : Delivering bd addr s party) (hs : Reachable (system bd hash addr) s)
    (hsent : ∀ draws frameBytes, b = .frame draws frameBytes addr → frameBytes ∈ s.client.sent)
    (hstep : ServerRun.Step bd hash s.server b server) :
    Delivering bd addr
      { s with server := server, answers := fun peer => s.answers peer ++ packetsFor peer b }
      party := by
  have htraced := server_traced hs
  have hmove := ServerRun.Step.move (ServerRun.inv_reachable (server_reachable hs)) hstep
  obtain ⟨hemitted, haddrs⟩ := hmove.grows
  obtain ⟨more, hemitted⟩ := hemitted
  have hkept : ∀ {peer : PeerRef}, s.server.addrs[peer]? = some addr →
      server.addrs[peer]? = some addr := fun hp => Outbox.get_of_isPrefix haddrs hp
  refine ⟨h.side.withServer _ _, fun hfew => ?_, fun hsingle hfew => ?_, fun r hr => ?_⟩
  · exact (h.upward hfew).server h.side hfew hsent
      fun peer e hp => peerStep_of_move htraced h.answers hmove hp
  · have hsingle' : Single s addr := fun r r' hr hr' => hsingle r r' (hkept hr) (hkept hr')
    have hfew' : FewDown bd addr s := by
      intro peer hp
      have hall := hfew peer (hkept hp)
      rw [← hemitted, callsOf_append] at hall
      unfold sentFrames at hall
      rw [List.filterMap_append] at hall
      exact hall.of_prefix
    refine (h.downward hsingle' hfew').server
      (fun peer e hp => peerStep_of_move htraced h.answers hmove hp) fun hgrown => ?_
    -- A second peer for the address of a connected client would be one too many.
    cases hparty : party with
    | none => rfl
    | some p =>
      exfalso
      have hside := h.side
      rw [hparty] at hside
      cases hside with
      | joined hstate hconnect hsent' hrequests hpackets =>
        obtain ⟨localNonce, answer, hhandshaking⟩ := handshaking_reachable hs
        obtain ⟨r, hr⟩ := List.mem_iff_getElem?.mp (hhandshaking.connected (.inr hconnect))
        have hlast : server.addrs[s.server.addrs.length]? = some addr := by
          rw [hgrown, List.getElem?_concat_length]
        have heq := hsingle r s.server.addrs.length (hkept hr) hlast
        exact absurd (List.getElem?_eq_some_iff.mp hr).1 (not_lt.mpr heq.ge)
  · obtain ⟨hr, hnone⟩ := hmove.packetsFor_eq_nil hr
    dsimp only
    rw [h.answers r hr, hnone]
    rfl

theorem delivering_reachable (hs : Reachable (system bd hash addr) s) :
    ∃ party, Delivering bd addr s party := by
  induction hs using Reachable.induct with
  | init h => exact ⟨none, delivering_initial h⟩
  | step hs hstep ih =>
    obtain ⟨party, h⟩ := ih
    cases hstep with
    | client hsent hstep => exact h.client hs hsent hstep
    | server hsent hstep => exact ⟨party, h.server hs hsent hstep⟩

/-- What any peer of a client receives are packets that the user of the client has handed over. -/
theorem peers_receive (hs : Reachable (system bd hash addr) s) (hfew : Few bd s.client.sent s.given)
    {peer : PeerRef} {p : Peer} (hp : s.server.core.heap[peer]? = some p) (haddr : p.addr = addr) :
    Delivered (packetsIn (eventsFor peer s.server.events)) s.given := by
  obtain ⟨party, h⟩ := delivering_reachable hs
  have hpeer := endpoints_getElem? hp
  rw [haddr] at hpeer
  rw [events_eq (server_reachable hs), eventsFor_emitted]
  have hup := h.upward hfew
  cases hside : party with
  | none =>
    rw [hside] at hup
    obtain ⟨q, hempty, hlinked⟩ := hup peer _ hpeer
    have hdelivered := hlinked.delivered
    rw [hempty] at hdelivered
    exact hdelivered.mono List.nil_prefix
  | some q =>
    rw [hside] at hup
    obtain ⟨o, -, hlinked⟩ := hup
    have hgiven : q.enqueued = s.given := by
      have hjoined := h.side
      rw [hside] at hjoined
      cases hjoined with
      | joined hstate hconnect hsent hrequests hpackets => rfl
    exact hgiven ▸ (hlinked peer _ hpeer).delivered

/-- What a client receives are packets that have been handed over for its peer, if it has had only
one. -/
theorem client_receives (hs : Reachable (system bd hash addr) s) (hsingle : Single s addr)
    {peer : PeerRef} {p : Peer} (hp : s.server.core.heap[peer]? = some p) (haddr : p.addr = addr)
    (hfew : Few bd (sentFrames (callsOf peer s.server.emitted)) (s.answers peer)) :
    Delivered (packetsIn s.client.produced) (s.answers peer) := by
  obtain ⟨party, h⟩ := delivering_reachable hs
  have hpeer := endpoints_getElem? hp
  rw [haddr] at hpeer
  have hall : FewDown bd addr s := fun r hr => hsingle peer r (addrs_of_endpoints hpeer) hr ▸ hfew
  obtain ⟨o, q, hlinked, heq⟩ := h.downward hsingle hall peer _ hpeer
  have hside := h.side
  cases hside with
  | waiting hstate hbuffer hsent hpackets =>
    rw [hpackets]
    exact ⟨[], rfl, List.nil_prefix, List.nil_sublist _⟩
  | joined hstate hconnect hsent hrequests hpackets =>
    obtain rfl := heq _ rfl
    rw [hpackets]
    exact hlinked.delivered

end Delivering

section Sample

/-- The first segment of an endpoint, with one packet of one byte. -/
def sampleSegment (b : U8) : Bytes :=
  frameOf .streamSegment (LawfulBlock.encode (StreamSegmentHeader.mk 0 false) ++
    encodeDatagram ⟨0, false, true, true, [b]⟩)

/-- Once the client is connected, a packet is handed over on each side, and both arrive. -/
def sampleExchange : List Action :=
  sampleHandshake ++
    [.client (.send [1] .reliable 5 fun _ => false), .server (sampleFrame 6 (sampleSegment 1)),
      .server .poll, .server (.send 0 [2] .reliable 7 fun _ => false),
      .client (.frame (sampleSegment 2) 8 fun _ => false)]

lemma single_of_length {s : State} {addr : SocketAddr} (h : s.server.addrs.length = 1) :
    Single s addr := by
  intro r r' hr hr'
  have hlt := (List.getElem?_eq_some_iff.mp hr).1
  have hlt' := (List.getElem?_eq_some_iff.mp hr').1
  rw [h] at hlt hlt'
  exact (Nat.lt_one_iff.mp hlt).trans (Nat.lt_one_iff.mp hlt').symm

/-- What comes of it. -/
def sampleOutcome (s : State) : Bool :=
  decide (s.server.core.heap.map Peer.addr = [sampleAddr] ∧
    packetsIn (eventsFor 0 s.server.events) = [[1]] ∧ packetsIn s.client.produced = [[2]] ∧
    Few .debug s.client.sent s.given ∧
    Few .debug (sentFrames (callsOf 0 s.server.emitted)) (s.answers 0))

lemma sampleExchange_outcome : ∃ s, Reachable (system .debug sampleHash sampleAddr) s ∧
    sampleOutcome s = true := by
  have hrun : ((sampleStart.bind fun s =>
      replay (next .debug sampleHash sampleAddr) s sampleExchange).map sampleOutcome) =
        some true := by decide +kernel
  obtain ⟨s, hreplay, houtcome⟩ := Option.map_eq_some_iff.mp hrun
  exact ⟨s, replay_reachable hreplay, houtcome⟩

lemma sample_peer {s : State} (h : s.server.core.heap.map Peer.addr = [sampleAddr]) :
    ∃ p, s.server.core.heap[0]? = some p ∧ p.addr = sampleAddr := by
  obtain ⟨p, hheap, haddr⟩ := List.map_eq_singleton_iff.mp h
  rw [hheap]
  exact ⟨p, rfl, haddr⟩

theorem peers_receive_sample : ∃ s, Reachable (system .debug sampleHash sampleAddr) s ∧
    packetsIn (eventsFor 0 s.server.events) = [[1]] ∧
    Delivered (packetsIn (eventsFor 0 s.server.events)) s.given := by
  obtain ⟨s, hs, houtcome⟩ := sampleExchange_outcome
  obtain ⟨hheap, hpackets, -, hfew, -⟩ := of_decide_eq_true houtcome
  obtain ⟨p, hp, haddr⟩ := sample_peer hheap
  exact ⟨s, hs, hpackets, peers_receive hs hfew hp haddr⟩

theorem client_receives_sample : ∃ s, Reachable (system .debug sampleHash sampleAddr) s ∧
    packetsIn s.client.produced = [[2]] ∧
    Delivered (packetsIn s.client.produced) (s.answers 0) := by
  obtain ⟨s, hs, houtcome⟩ := sampleExchange_outcome
  obtain ⟨hheap, -, hpackets, -, hfew⟩ := of_decide_eq_true houtcome
  obtain ⟨p, hp, haddr⟩ := sample_peer hheap
  have hlength : s.server.addrs.length = 1 := by
    unfold State.addrs State.endpoints
    rw [List.length_map, List.length_map, ← List.length_map (f := Peer.addr), hheap]
    rfl
  exact ⟨s, hs, hpackets, client_receives hs (single_of_length hlength) hp haddr hfew⟩

end Sample

end Redpine.Network

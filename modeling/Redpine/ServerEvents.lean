import Redpine.ServerTimers
import Redpine.SessionEvents

/-! The events of a server. Each is pushed once, in the order of the calls on the contexts of the
peers, and taken once; those of one peer make up one session. -/
namespace Redpine.ServerRun
open Machine Buffer Wire Endpoint Transition Server ServerCore

/-- The events produced so far: those that have been taken, and those that are still queued. -/
def State.events (s : State) : List Server.Event := s.polled ++ s.core.events

/-- The event as the peer sees it. -/
def sessionEvent : Server.Event → Client.Event
  | .connect _ => .connect
  | .disconnect _ => .disconnect
  | .receive _ packetBytes => .receive packetBytes
  | .error _ kind => .error kind

/-- The events of one peer. -/
def eventsFor (peer : PeerRef) (events : List Server.Event) : List Client.Event :=
  (events.filter (·.peer = peer)).map sessionEvent

section Events
variable {bd : Build} {hash : Bytes → U64} {s s' : State} {a : Action}

/-- What a call pushes on the queue. -/
def Pushes (core core' : ServerCore) (emissions : List Emission) : Prop :=
  core'.events = core.events ++ emissions.filterMap Emission.event

lemma callPeer_pushes {core core' : ServerCore} {peer : PeerRef} {emissions : List Emission}
    {call : Endpoint → Exec (Endpoint × List HostCall)}
    (h : core.callPeer peer call = .ok (core', emissions)) : Pushes core core' emissions := by
  obtain ⟨p, e, calls, hp, hcall, rfl, rfl⟩ := callPeer_eq_ok h
  rfl

lemma FrameStep.pushes {core core' : ServerCore} {draws : Draws} {frameBytes : Bytes}
    {addr : SocketAddr} {emissions : List Emission}
    (h : FrameStep bd hash draws core frameBytes addr core' emissions) :
    Pushes core core' emissions := by
  cases h with
  | ignored hnone => exact (List.append_nil _).symm
  | alpha htype hread hack => exact (List.append_nil _).symm
  | answered hrequest herror hack => exact (List.append_nil _).symm
  | created hrequest hlookup hcount hprio hnew hack => rfl
  | delivered htype hother hpayload hlookup hp hcall => rfl

lemma fireNext_pushes {core core' : ServerCore} {peer : PeerRef} {nowMs : ℕ} {nonces : ℕ → Bool}
    {emissions : List Emission}
    (h : core.fireNext bd nonces peer nowMs = .ok (core', emissions)) :
    Pushes core core' emissions := by
  obtain ⟨p, hp, h⟩ := bind_eq_ok.mp h
  obtain ⟨⟨e, calls, action⟩, hcall, h⟩ := bind_eq_ok.mp h
  cases action with
  | «continue» =>
    cases h
    rfl
  | terminate =>
    cases h
    rfl

/-- A call whose events are pushed. -/
lemma events_append {core : ServerCore} {emissions : List Emission}
    (h : s.events = s.emitted.filterMap Emission.event) (hpush : Pushes s.core core emissions) :
    s.polled ++ core.events = (s.emitted ++ emissions).filterMap Emission.event := by
  rw [hpush, List.filterMap_append, ← h, State.events, List.append_assoc]

lemma events_step (h : s.events = s.emitted.filterMap Emission.event)
    (hstep : Step bd hash s a s') : s'.events = s'.emitted.filterMap Emission.event := by
  cases hstep with
  | frame hpass hclock hok => exact events_append h (FrameStep.pushes (handleFrame_step hok))
  | beginTimeouts hpass hclock => exact h
  | testNext hpass hok =>
    obtain ⟨timerQueue, ⟨hqueue, rfl, rfl⟩ | ⟨peer, p, hqueue, hp, rfl, rfl⟩⟩ := testNext_cases hok
    · exact h
    · exact h
  | endTests hpass => exact h
  | fireNext hpass hbuffer hclock hok => exact events_append h (fireNext_pushes hok)
  | endTimeouts hpass hbuffer => exact h
  | send hhandle hclock hok => exact events_append h (callPeer_pushes hok)
  | enqueue hhandle hclock hok => exact events_append h (callPeer_pushes hok)
  | flush hhandle hclock hok => exact events_append h (callPeer_pushes hok)
  | disconnect hhandle hclock hok => exact events_append h (callPeer_pushes hok)
  | @poll event events hpass hevents =>
    rw [← h]
    unfold State.events
    rw [hevents, List.append_assoc, List.singleton_append]
  | clone hhandle => exact h
  | drop hhandle => exact h

/-- No event is lost, and none is produced twice. -/
theorem events_eq (hs : Reachable (system bd hash) s) :
    s.events = s.emitted.filterMap Emission.event := by
  have hrule := @Reachable.invariant _ _ (system bd hash) fun s =>
    s.events = s.emitted.filterMap Emission.event
  refine hrule (fun s h => ?_) (fun s a s' h hstep => events_step h hstep) hs
  obtain ⟨config, -, rfl⟩ := fresh_of_initial h
  rfl

lemma eventsFor_self {event : Server.Event} (events : List Server.Event) :
    eventsFor event.peer (event :: events) = sessionEvent event :: eventsFor event.peer events := by
  simp [eventsFor]

lemma eventsFor_other {event : Server.Event} {peer : PeerRef} (hpeer : event.peer ≠ peer)
    (events : List Server.Event) : eventsFor peer (event :: events) = eventsFor peer events := by
  simp [eventsFor, hpeer]

lemma callsOf_cons_self (peer : PeerRef) (addr : SocketAddr) (call : HostCall)
    (emitted : List Emission) :
    callsOf peer (.host peer addr call :: emitted) = call :: callsOf peer emitted := by
  simp [callsOf]

lemma callsOf_cons_other {r peer : PeerRef} (hr : r ≠ peer) (addr : SocketAddr) (call : HostCall)
    (emitted : List Emission) :
    callsOf peer (.host r addr call :: emitted) = callsOf peer emitted := by
  simp [callsOf, hr]

/-- The events of a peer are those that the calls of its endpoint produce. -/
lemma eventsFor_emitted (peer : PeerRef) (emitted : List Emission) :
    eventsFor peer (emitted.filterMap Emission.event) = eventsOf (callsOf peer emitted) := by
  induction emitted with
  | nil => rfl
  | cons emission emitted ih =>
    cases emission with
    | reply frameBytes addr => exact ih
    | host r addr call =>
      by_cases hr : r = peer
      · subst hr
        rw [callsOf_cons_self]
        cases call with
        | onConnect =>
          exact (@eventsFor_self (.connect r) _).trans (congrArg (Client.Event.connect :: ·) ih)
        | onDisconnect =>
          exact (@eventsFor_self (.disconnect r) _).trans
            (congrArg (Client.Event.disconnect :: ·) ih)
        | onReceive unrel packetBytes =>
          exact (@eventsFor_self (.receive r packetBytes) _).trans
            (congrArg (Client.Event.receive packetBytes :: ·) ih)
        | onTimeout =>
          exact (@eventsFor_self (.error r .timeout) _).trans
            (congrArg (Client.Event.error .timeout :: ·) ih)
        | _ => exact ih
      · rw [callsOf_cons_other hr]
        cases call with
        | onConnect => exact (@eventsFor_other (.connect r) peer hr _).trans ih
        | onDisconnect => exact (@eventsFor_other (.disconnect r) peer hr _).trans ih
        | onReceive unrel packetBytes =>
          exact (@eventsFor_other (.receive r packetBytes) peer hr _).trans ih
        | onTimeout => exact (@eventsFor_other (.error r .timeout) peer hr _).trans ih
        | _ => exact ih

end Events

section Sessions
variable {bd : Build} {hash : Bytes → U64} {s : State} {calls : List HostCall}

lemma callsOf_called_self {peer : PeerRef} {addr : SocketAddr} {emitted : List Emission} :
    callsOf peer (emitted ++ calls.map (.host peer addr)) = callsOf peer emitted ++ calls := by
  rw [callsOf_append, callsOf_self]

lemma callsOf_called_other {r peer : PeerRef} {addr : SocketAddr} {emitted : List Emission}
    (hr : r ≠ peer) :
    callsOf r (emitted ++ calls.map (.host peer addr)) = callsOf r emitted := by
  rw [callsOf_append, callsOf_other hr, List.append_nil]

/-- Any number of calls of an endpoint that has been initialized, and the calls it makes. -/
inductive CallRun (bd : Build) (e : Endpoint) : List HostCall → Endpoint → Prop
  | refl : CallRun bd e [] e
  | call {calls more : List HostCall} {e₁ e' : Endpoint} {nowMs : ℕ} {input : Input}
      (run : CallRun bd e calls e₁) (heffect : Effect bd nowMs e₁ input more e')
      (hinit : input ≠ .init) : CallRun bd e (calls ++ more) e'

lemma CallRun.single {e e' : Endpoint} {nowMs : ℕ} {input : Input}
    (heffect : Effect bd nowMs e input calls e') (hinit : input ≠ .init) :
    CallRun bd e calls e' := CallRun.call .refl heffect hinit

lemma CallRun.trans {e e₁ e' : Endpoint} {more : List HostCall} (h : CallRun bd e calls e₁)
    (h' : CallRun bd e₁ more e') : CallRun bd e (calls ++ more) e' := by
  induction h' with
  | refl => rwa [List.append_nil]
  | call run heffect hinit ih =>
    rw [← List.append_assoc]
    exact ih.call heffect hinit

lemma UserRun.callRun {e e' : Endpoint} {nowMs : ℕ} (h : UserRun bd nowMs e calls e') :
    CallRun bd e calls e' := by
  cases h with
  | single heffect hinput => exact .single heffect hinput.ne.1
  | send henqueue hflush => exact (CallRun.single henqueue (by simp)).call hflush (by simp)

/-- One peer is called, and the others are left alone. -/
lemma kept_called {heap : List Peer} {emitted : List Emission} {peer r : PeerRef} {p q : Peer}
    {core : PeerCore} {e : Endpoint} (hp : heap[peer]? = some p)
    (hrun : CallRun bd p.endpoint calls e) (hq : heap[r]? = some q) :
    ∃ q' more, (heap.set peer ⟨core, e⟩)[r]? = some q' ∧
      callsOf r (emitted ++ calls.map (.host peer p.addr)) = callsOf r emitted ++ more ∧
      CallRun bd q.endpoint more q'.endpoint := by
  by_cases hr : r = peer
  · subst hr
    cases hp.symm.trans hq
    exact ⟨_, calls, List.getElem?_set_self (lt_of_getElem? hp), callsOf_called_self, hrun⟩
  · refine ⟨q, [], (List.getElem?_set_ne (Ne.symm hr)).trans hq, ?_, .refl⟩
    rw [callsOf_called_other hr, List.append_nil]

lemma callsOf_created (r peer : PeerRef) (addr : SocketAddr) (ackBytes : Bytes)
    (emitted : List Emission) :
    callsOf r (emitted ++ [.host peer addr .onConnect, .reply ackBytes addr]) =
      callsOf r emitted ++ if peer = r then [.onConnect] else [] := by
  rw [callsOf_append]
  by_cases hr : peer = r <;> simp [callsOf, hr]

/-- What a step does to a peer, as seen by its context. -/
lemma Change.kept {a : Action} {s' : State} {r : PeerRef} {p : Peer}
    (h : Change bd hash s a s') (hp : s.core.heap[r]? = some p) :
    ∃ p' more, s'.core.heap[r]? = some p' ∧
      callsOf r s'.emitted = callsOf r s.emitted ++ more ∧
      CallRun bd p.endpoint more p'.endpoint := by
  cases h with
  | still hstill hclock hemitted hreplies =>
    refine ⟨p, [], hstill.heap_eq ▸ hp, ?_, .refl⟩
    rw [hemitted, callsOf_append, callsOf_replies hreplies]
  | collected hpass hqueue => exact ⟨p, [], hp, (List.append_nil _).symm, .refl⟩
  | @tested nowMs remaining timerQueue peer q hpass hqueue hq =>
    by_cases hr : r = peer
    · subst hr
      cases hp.symm.trans hq
      refine ⟨_, [], List.getElem?_set_self (lt_of_getElem? hp), (List.append_nil _).symm, ?_⟩
      rw [test_endpoint]
      exact .refl
    · exact ⟨p, [], (List.getElem?_set_ne (Ne.symm hr)).trans hp, (List.append_nil _).symm, .refl⟩
  | fired hpass hbuffer hclock hq heffect hsound =>
    exact kept_called hq (.single heffect (by simp)) hp
  | delivered hpass hclock hlookup hq heffect hsound =>
    exact kept_called hq (.single heffect (by simp)) hp
  | created hpass hclock hrequest hlookup hcount haccepted hnew =>
    have hlt := lt_of_getElem? hp
    refine ⟨p, [], (List.getElem?_append_left hlt).trans hp, ?_, .refl⟩
    rw [callsOf_created, if_neg hlt.ne']
  | used hhandle hclock hq hrun hsound hdisconnect hdisconnected =>
    exact kept_called hq hrun.callRun hp

/-- A peer that is new, or that is yet to come. -/
lemma Change.born {a : Action} {s' : State} {r : PeerRef} (h : Change bd hash s a s')
    (hr : s.core.heap.length ≤ r) :
    (s'.core.heap.length ≤ r ∧ callsOf r s'.emitted = callsOf r s.emitted) ∨
      ∃ (config : Endpoint.Config) (e : Endpoint) (core : PeerCore), config.Accepted bd ∧
        Endpoint.new config = .ok e ∧
        s'.core.heap[r]? = some ⟨core, { e with stateId := .active }⟩ ∧
        callsOf r s'.emitted = callsOf r s.emitted ++ [.onConnect] := by
  cases h with
  | still hstill hclock hemitted hreplies =>
    refine .inl ⟨hstill.heap_eq ▸ hr, ?_⟩
    rw [hemitted, callsOf_append, callsOf_replies hreplies, List.append_nil]
  | collected hpass hqueue => exact .inl ⟨hr, rfl⟩
  | tested hpass hqueue hp => exact .inl ⟨List.length_set.trans_le hr, rfl⟩
  | fired hpass hbuffer hclock hp heffect hsound =>
    exact .inl ⟨List.length_set.trans_le hr,
      callsOf_called_other ((lt_of_getElem? hp).trans_le hr).ne'⟩
  | delivered hpass hclock hlookup hp heffect hsound =>
    exact .inl ⟨List.length_set.trans_le hr,
      callsOf_called_other ((lt_of_getElem? hp).trans_le hr).ne'⟩
  | @created draws _ ackBytes addr _ _ e hpass hclock hrequest hlookup hcount haccepted hnew =>
    rw [callsOf_created]
    by_cases hlast : s.core.heap.length = r
    · rw [if_pos hlast]
      refine .inr ⟨_, e, ⟨addr, none⟩, haccepted, hnew, ?_, rfl⟩
      simp [withCreated, ← hlast]
    · rw [if_neg hlast, List.append_nil]
      refine .inl ⟨?_, rfl⟩
      dsimp only [withCreated]
      rw [List.length_append, List.length_singleton]
      exact Nat.succ_le_of_lt (lt_of_le_of_ne hr hlast)
  | used hhandle hclock hp hrun hsound hdisconnect hdisconnected =>
    exact .inl ⟨List.length_set.trans_le hr,
      callsOf_called_other ((lt_of_getElem? hp).trans_le hr).ne'⟩

/-- What holds of the first call of each peer, and is preserved by the calls of its endpoint,
holds in every state. -/
lemma calls_invariant {prop : Endpoint → List HostCall → Prop}
    (hcreated : ∀ (config : Endpoint.Config) (e : Endpoint), config.Accepted bd →
      Endpoint.new config = .ok e → prop { e with stateId := .active } [.onConnect])
    (hcalled : ∀ e e' calls more nowMs input, prop e calls → input ≠ .init →
      Effect bd nowMs e input more e' → prop e' (calls ++ more))
    (hs : Reachable (system bd hash) s) (r : PeerRef) :
    (∀ p, s.core.heap[r]? = some p → prop p.endpoint (callsOf r s.emitted)) ∧
      (s.core.heap.length ≤ r → callsOf r s.emitted = []) := by
  have hruns : ∀ e e' calls more, prop e calls → CallRun bd e more e' → prop e' (calls ++ more) := by
    intro e e' calls more h hrun
    induction hrun with
    | refl => rwa [List.append_nil]
    | call run heffect hinit ih =>
      rw [← List.append_assoc]
      exact hcalled _ _ _ _ _ _ ih hinit heffect
  induction hs using Reachable.induct with
  | init h =>
    obtain ⟨config, -, rfl⟩ := fresh_of_initial h
    exact ⟨by simp, fun _ => rfl⟩
  | @step s s' a hs hstep ih =>
    obtain ⟨ih, hempty⟩ := ih
    have hchange := change_of_reachable hs hstep
    by_cases hr : s.core.heap.length ≤ r
    · rcases hchange.born hr with ⟨hr', hsame⟩ | ⟨config, e, core, haccepted, hnew, hp', hcalls⟩
      · refine ⟨fun p hp => absurd (lt_of_getElem? hp) (not_lt.mpr hr'), fun _ => ?_⟩
        rw [hsame, hempty hr]
      · refine ⟨fun p hp => ?_, fun hr' => absurd (lt_of_getElem? hp') (not_lt.mpr hr')⟩
        cases hp'.symm.trans hp
        rw [hcalls, hempty hr]
        exact hcreated config e haccepted hnew
    · obtain ⟨p', more, hp', hcalls, hrun⟩ :=
        hchange.kept (List.getElem?_eq_getElem (not_le.mp hr))
      refine ⟨fun p hp => ?_, fun hr' => absurd (lt_of_getElem? hp') (not_lt.mpr hr')⟩
      cases hp'.symm.trans hp
      rw [hcalls]
      exact hruns _ _ _ _ (ih _ (List.getElem?_eq_getElem (not_le.mp hr))) hrun

/-- The events of each peer make up a session. -/
theorem lived_reachable (hs : Reachable (system bd hash) s) (r : PeerRef) (p : Peer)
    (hp : s.core.heap[r]? = some p) : Lived p.endpoint.stateId (eventsFor r s.events) := by
  rw [events_eq hs, eventsFor_emitted]
  have hrule := @calls_invariant bd hash s fun e calls => Lived e.stateId (eventsOf calls)
  refine (hrule (fun _ _ _ _ => ⟨[], rfl⟩) (fun e e' calls more _ input h hinit heffect => ?_)
    hs r).1 p hp
  rw [eventsOf_append]
  exact h.step heffect.outline fun h => absurd h hinit

/-- The server reports each of its peers as connected once. -/
theorem count_connect (hs : Reachable (system bd hash) s) (r : PeerRef) :
    s.events.count (.connect r) = if r < s.core.heap.length then 1 else 0 := by
  have hcount : ∀ events : List Server.Event,
      events.count (.connect r) = (eventsFor r events).count .connect := by
    intro events
    induction events with
    | nil => rfl
    | cons event events ih =>
      by_cases hr : event.peer = r
      · subst hr
        rw [eventsFor_self, List.count_cons, List.count_cons, ih]
        cases event <;> simp [sessionEvent, Server.Event.peer]
      · rw [eventsFor_other hr, ← ih, List.count_cons_of_ne]
        rintro rfl
        exact hr rfl
  rw [hcount]
  by_cases hr : r < s.core.heap.length
  · rw [if_pos hr]
    have hp := List.getElem?_eq_getElem hr
    have hpre := (inv_reachable hs).ne_preInit r _ hp
    exact ((lived_reachable hs r _ hp).isSession_of_ne hpre).count_connect
  · have hrule := @calls_invariant bd hash s fun _ _ => True
    have hnone := (hrule (fun _ _ _ _ => trivial) (fun _ _ _ _ _ _ _ _ _ => trivial) hs r).2
    rw [if_neg hr, events_eq hs, eventsFor_emitted, hnone (not_lt.mp hr)]
    rfl

end Sessions

end Redpine.ServerRun

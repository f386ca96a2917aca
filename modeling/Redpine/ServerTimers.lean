import Redpine.EndpointHost
import Redpine.EndpointTimeout
import Redpine.ServerTable

/-! The timers of a server. A timer is tested and cleared in one critical section and handled in
another; a user who disconnects the peer in between sets the timer anew, and it is handled all
the same. -/
namespace Redpine.ServerRun
open Machine Buffer Wire Endpoint Transition Server ServerCore EndpointTimeout

/-- The calls that the endpoint of a peer has made. -/
def callsOf (peer : PeerRef) (emitted : List Emission) : List HostCall :=
  emitted.filterMap fun
    | .host peer' _ call => if peer' = peer then some call else none
    | .reply _ _ => none

/-- The deadline that the endpoint of a peer has set last. -/
def lastDeadline (peer : PeerRef) (emitted : List Emission) : Option ℕ :=
  deadlineCalls none (callsOf peer emitted)

section CallsOf
variable {peer r : PeerRef} {emitted replies : List Emission} {calls : List HostCall}
  {addr : SocketAddr}

lemma callsOf_append : callsOf peer (emitted ++ replies) =
    callsOf peer emitted ++ callsOf peer replies := List.filterMap_append ..

lemma callsOf_self : callsOf peer (calls.map (.host peer addr)) = calls := by
  induction calls with
  | nil => rfl
  | cons call calls ih =>
    have hhead : callsOf peer ((call :: calls).map (.host peer addr)) =
        call :: callsOf peer (calls.map (.host peer addr)) := by simp [callsOf]
    rw [hhead, ih]

lemma callsOf_other (hr : r ≠ peer) : callsOf r (calls.map (.host peer addr)) = [] := by
  refine List.filterMap_eq_nil_iff.mpr fun emission hmem => ?_
  obtain ⟨call, -, rfl⟩ := List.mem_map.mp hmem
  exact if_neg (Ne.symm hr)

lemma callsOf_replies (h : ∀ emission ∈ replies, ∃ frameBytes addr,
    emission = .reply frameBytes addr) : callsOf r replies = [] := by
  refine List.filterMap_eq_nil_iff.mpr fun emission hmem => ?_
  obtain ⟨frameBytes, addr, rfl⟩ := h emission hmem
  rfl

lemma lastDeadline_self : lastDeadline peer (emitted ++ calls.map (.host peer addr)) =
    deadlineCalls (lastDeadline peer emitted) calls := by
  unfold lastDeadline
  rw [callsOf_append, callsOf_self, deadlineCalls_append]

lemma lastDeadline_other (hr : r ≠ peer) :
    lastDeadline r (emitted ++ calls.map (.host peer addr)) = lastDeadline r emitted := by
  unfold lastDeadline
  rw [callsOf_append, callsOf_other hr, List.append_nil]

lemma lastDeadline_replies (h : ∀ emission ∈ replies, ∃ frameBytes addr,
    emission = .reply frameBytes addr) :
    lastDeadline r (emitted ++ replies) = lastDeadline r emitted := by
  unfold lastDeadline
  rw [callsOf_append, callsOf_replies h, List.append_nil]

end CallsOf

section Timers
variable {calls : List HostCall} {core : PeerCore} {timer deadlineMs : Option ℕ}

/-- The timer of a peer is set and cleared as its endpoint says. -/
lemma foldl_hostCall_rtoTimer : (calls.foldl Peer.hostCall core).rtoTimer =
    EndpointHost.timerCalls core.rtoTimer calls := by
  induction calls generalizing core with
  | nil => rfl
  | cons call calls ih =>
    rw [List.foldl_cons, ih, EndpointHost.timerCalls_cons]
    cases call <;> rfl

/-- A timer that is set is set to the deadline that was set last. -/
lemma timerCalls_deadline (h : ∀ t, timer = some t → deadlineMs = some t) :
    ∀ t, EndpointHost.timerCalls timer calls = some t →
      deadlineCalls deadlineMs calls = some t := by
  induction calls generalizing timer deadlineMs with
  | nil => exact h
  | cons call calls ih =>
    rw [EndpointHost.timerCalls_cons, deadlineCalls_cons]
    refine ih fun t ht => ?_
    cases call with
    | setRtoTimer timeMs => exact ht
    | unsetRtoTimer => cases ht
    | _ => exact h t ht

lemma timerCalls_frames (h : ∀ call ∈ calls, ∃ frameBytes, call = .sendFrame frameBytes) :
    EndpointHost.timerCalls timer calls = timer := by
  induction calls with
  | nil => rfl
  | cons call calls ih =>
    obtain ⟨frameBytes, rfl⟩ := h call List.mem_cons_self
    exact ih fun c hc => h c (List.mem_cons_of_mem _ hc)

lemma deadlineCalls_frames (h : ∀ call ∈ calls, ∃ frameBytes, call = .sendFrame frameBytes) :
    deadlineCalls deadlineMs calls = deadlineMs := by
  induction calls with
  | nil => rfl
  | cons call calls ih =>
    obtain ⟨frameBytes, rfl⟩ := h call List.mem_cons_self
    exact ih fun c hc => h c (List.mem_cons_of_mem _ hc)

end Timers

section Quiet
variable {bd : Build} {e e' : Endpoint} {nowMs : ℕ} {calls : List HostCall}

/-- A flush with a running timer sends frames, and does nothing else to its host. -/
lemma flushRun_frames {ackRel sendAck : Bool} {timer : RtoTimerState}
    (h : FlushRun bd ackRel nowMs sendAck e calls e') (hrunning : e.rtoTimerState = some timer) :
    ∀ call ∈ calls, ∃ frameBytes, call = .sendFrame frameBytes := by
  induction h with
  | stop hdata => exact fun call hcall => by cases hcall
  | ack hdata rest ih =>
    intro call hcall
    rcases List.mem_cons.mp hcall with rfl | hcall
    · exact ⟨_, rfl⟩
    · exact ih hrunning call hcall
  | @segment _ _ e₀ e₁ _ _ timerCalls _ hdata hstep rest ih =>
    have htimer := hstep.timer
    rw [show (e₀.expire nowMs).rtoTimerState = some timer from hrunning] at htimer
    generalize hafter : e₁.rtoTimerState = after at htimer
    cases htimer with
    | running =>
      intro call hcall
      rcases List.mem_cons.mp hcall with rfl | hcall
      · exact ⟨_, rfl⟩
      · exact ih hafter call hcall

/-- A user who does not disconnect an endpoint with a running timer only makes it send. -/
lemma UserRun.frames (h : UserRun bd nowMs e calls e')
    (hstays : e.stateId = .active → e'.stateId = .active)
    (hrunning : e.stateId = .active → e.rtoTimerState.isSome = true) :
    ∀ call ∈ calls, ∃ frameBytes, call = .sendFrame frameBytes := by
  have hflushed : ∀ {e₁ : Endpoint}, Effect bd nowMs e₁ .flush calls e' →
      (e₁.stateId = .active → e₁.rtoTimerState.isSome = true) →
      ∀ call ∈ calls, ∃ frameBytes, call = .sendFrame frameBytes := by
    intro e₁ heffect hrunning
    cases heffect with
    | flush hs hflush =>
      obtain ⟨timer, htimer⟩ := Option.isSome_iff_exists.mp (hrunning hs)
      exact flushRun_frames hflush htimer
    | flushIgnored hs => simp
  cases h with
  | single heffect hinput =>
    cases heffect with
    | enqueue hs hqueue => simp
    | enqueueIgnored hs => simp
    | flush hs hflush => exact hflushed (.flush hs hflush) hrunning
    | flushIgnored hs => simp
    | disconnect hs htime => cases hstays hs
    | disconnectIgnored hs => simp
    | init hs => exact hinput.elim
    | stream hs hrun => exact hinput.elim
    | sync hs hrun => exact hinput.elim
    | close hs hvalid htime => exact hinput.elim
    | closeAck hs hvalid htime => exact hinput.elim
    | closeAgain hs hvalid => exact hinput.elim
    | frameIgnored hs => exact hinput.elim
    | timeout hs htimer hsum htimeout => exact hinput.elim
    | resend hs htimer hback hcc hflush => exact hinput.elim
    | resendClose hs htimer hback => exact hinput.elim
    | destroyed hs => exact hinput.elim
    | timerIgnored hs => exact hinput.elim
  | send henqueue hflush =>
    cases henqueue with
    | enqueue hs hqueue => exact hflushed hflush hrunning
    | enqueueIgnored hs => exact hflushed hflush hrunning

end Quiet

section Buffer
variable {bd : Build} {hash : Bytes → U64} {s s' : State} {a : Action}

/-- What the thread has put aside: nothing between two calls of `handle_timeouts`, and within
one, no timer twice. -/
structure Buffered (s : State) : Prop where
  lt : ∀ peer ∈ s.timerDataBuffer, peer < s.core.heap.length
  nodup : s.timerDataBuffer.Nodup
  idle : s.pass = .idle → s.timerDataBuffer = []
  testing : ∀ nowMs remaining, s.pass = .testing nowMs remaining → nowMs ≤ s.nowMs ∧
    remaining ≤ s.core.timerQueue.queue.length ∧
    ∀ peer ∈ s.timerDataBuffer, peer ∉ s.core.timerQueue.queue.take remaining

lemma Buffered.of_idle (hpass : s.pass = .idle) (hbuffer : s.timerDataBuffer = []) :
    Buffered s := by
  refine ⟨by simp [hbuffer], by simp [hbuffer], fun _ => hbuffer, fun nowMs remaining h => ?_⟩
  cases hpass.symm.trans h

/-- The handles of the users leave the thread where it is. -/
lemma Buffered.same (h : Buffered s) (hpass : s'.pass = s.pass)
    (hbuffer : s'.timerDataBuffer = s.timerDataBuffer) (hclock : s.nowMs ≤ s'.nowMs)
    (hheap : s'.core.heap.length = s.core.heap.length)
    (hqueue : s'.core.timerQueue = s.core.timerQueue) : Buffered s' := by
  constructor
  · rw [hbuffer, hheap]
    exact h.lt
  · rw [hbuffer]
    exact h.nodup
  · rw [hpass, hbuffer]
    exact h.idle
  · intro nowMs remaining htesting
    rw [hpass] at htesting
    obtain ⟨hle, hlen, hnot⟩ := h.testing nowMs remaining htesting
    rw [hqueue, hbuffer]
    exact ⟨hle.trans hclock, hlen, hnot⟩

lemma Buffered.called (h : Buffered s) {peer : PeerRef} {nowMs : ℕ} {core : ServerCore}
    {emissions more : List Emission} {disconnected : List PeerRef}
    {call : Endpoint → Exec (Endpoint × List HostCall)} (hclock : s.nowMs ≤ nowMs)
    (hcall : s.core.callPeer peer call = .ok (core, emissions)) :
    Buffered { s with
      core := core, nowMs := nowMs, emitted := more, disconnected := disconnected } := by
  obtain ⟨p, e, calls, hp, hok, rfl, rfl⟩ := callPeer_eq_ok hcall
  exact h.same rfl rfl hclock (by simp) rfl

/-- The timer at the front of the queue has not been put aside. -/
lemma Buffered.fresh (h : Buffered s) {nowMs remaining : ℕ} {timerQueue : TimerQueue PeerRef}
    {peer : PeerRef} (hpass : s.pass = .testing nowMs (remaining + 1))
    (hqueue : s.core.timerQueue.next s.alive = some (some peer, timerQueue)) :
    peer ∉ s.timerDataBuffer := by
  obtain ⟨-, -, hnot⟩ := h.testing nowMs (remaining + 1) hpass
  obtain ⟨-, rest, hfront, -⟩ := TimerQueue.next_some hqueue
  rw [hfront] at hnot
  exact fun hmem => hnot peer hmem List.mem_cons_self

/-- A timer that is tested goes to the back of the queue, behind those still to be tested. -/
lemma Buffered.testNext (h : Buffered s) (hinv : Inv bd s.core) {nowMs remaining : ℕ}
    {core : ServerCore} {expired : Option PeerRef}
    (hpass : s.pass = .testing nowMs (remaining + 1))
    (htest : s.core.testNext s.alive nowMs = .ok (core, expired)) :
    Buffered { s with
      core := core
      pass := .testing nowMs remaining
      timerDataBuffer := s.timerDataBuffer ++ expired.toList } := by
  obtain ⟨hle, hlen, hnot⟩ := h.testing nowMs (remaining + 1) hpass
  obtain ⟨timerQueue, ⟨hqueue, rfl, rfl⟩ | ⟨peer, p, hqueue, hp, rfl, rfl⟩⟩ := testNext_cases htest
  · obtain ⟨front, rest, hfront, hrest⟩ := TimerQueue.next_none hqueue
    rw [hfront] at hlen hnot
    simp only [Option.toList_none, List.append_nil]
    refine ⟨h.lt, h.nodup, (fun hidle => nomatch hidle), fun _ _ htesting => ?_⟩
    cases htesting
    dsimp only
    rw [hrest]
    refine ⟨hle, Nat.le_of_succ_le_succ hlen, fun r hr hmem => hnot r hr ?_⟩
    exact List.mem_cons_of_mem _ hmem
  · have hfresh := h.fresh hpass hqueue
    obtain ⟨-, rest, hfront, hrest⟩ := TimerQueue.next_some hqueue
    have hnodup := hinv.nodup
    rw [hfront] at hlen hnot hnodup
    have hlen' : remaining ≤ rest.length := Nat.le_of_succ_le_succ hlen
    have hexpired : ∀ r ∈ (if (p.test nowMs).2 then some peer else none).toList, r = peer := by
      intro r hr
      split_ifs at hr with htrue
      · exact List.mem_singleton.mp hr
      · cases hr
    refine ⟨fun r hr => ?_, ?_, (fun hidle => nomatch hidle), fun _ _ htesting => ?_⟩
    · dsimp only
      rw [List.length_set]
      rcases List.mem_append.mp hr with hr | hr
      · exact h.lt r hr
      · rw [hexpired r hr]
        exact lt_of_getElem? hp
    · refine List.nodup_append.mpr ⟨h.nodup, ?_, fun r hr r' hr' heq => ?_⟩
      · split_ifs
        · exact List.nodup_singleton peer
        · exact List.nodup_nil
      · rw [heq, hexpired r' hr'] at hr
        exact hfresh hr
    · cases htesting
      dsimp only
      rw [hrest, List.take_append_of_le_length hlen']
      refine ⟨hle, by simp; omega, fun r hr hmem => ?_⟩
      rcases List.mem_append.mp hr with hr | hr
      · exact hnot r hr (List.mem_cons_of_mem _ hmem)
      · rw [hexpired r hr] at hmem
        exact (List.nodup_cons.mp hnodup).1 (List.mem_of_mem_take hmem)

lemma Buffered.step (h : Buffered s) (hinv : Inv bd s.core) (hstep : Step bd hash s a s') :
    Buffered s' := by
  cases hstep with
  | frame hpass hclock hok => exact .of_idle hpass (h.idle hpass)
  | @beginTimeouts nowMs hpass hclock =>
    have hempty : s.timerDataBuffer = [] := h.idle hpass
    refine ⟨by simp [hempty], by simp [hempty], (fun hidle => nomatch hidle), fun _ _ ht => ?_⟩
    cases ht
    exact ⟨le_rfl, min_le_right _ _, by simp [hempty]⟩
  | testNext hpass hok => exact h.testNext hinv hpass hok
  | endTests hpass =>
    exact ⟨h.lt, h.nodup, (fun hidle => nomatch hidle), fun _ _ ht => nomatch ht⟩
  | @fireNext peer rest nowMs nonces core emissions hpass hbuffer hclock hok =>
    have hlength : core.heap.length = s.core.heap.length := by
      obtain ⟨p, hp, hok⟩ := bind_eq_ok.mp hok
      obtain ⟨⟨e, calls, action⟩, hcall, hok⟩ := bind_eq_ok.mp hok
      cases action with
      | «continue» =>
        cases hok
        exact List.length_set
      | terminate =>
        cases hok
        exact List.length_set
    refine ⟨fun r hr => ?_, ?_, fun hidle => ?_, fun _ _ ht => ?_⟩
    · dsimp only
      rw [hlength]
      exact h.lt r (hbuffer ▸ List.mem_cons_of_mem _ hr)
    · exact (List.nodup_cons.mp (hbuffer ▸ h.nodup)).2
    · cases hpass.symm.trans hidle
    · cases hpass.symm.trans ht
  | endTimeouts hpass hbuffer => exact .of_idle rfl hbuffer
  | send hhandle hclock hok => exact h.called hclock hok
  | enqueue hhandle hclock hok => exact h.called hclock hok
  | flush hhandle hclock hok => exact h.called hclock hok
  | disconnect hhandle hclock hok => exact h.called hclock hok
  | poll hpass hevents => exact h.same rfl rfl le_rfl rfl rfl
  | clone hhandle => exact h.same rfl rfl le_rfl rfl rfl
  | drop hhandle => exact h.same rfl rfl le_rfl rfl rfl

theorem buffered_reachable (hs : Reachable (system bd hash) s) : Buffered s := by
  have hrule := @Reachable.invariant _ _ (system bd hash) fun s => Inv bd s.core ∧ Buffered s
  refine (hrule (fun s h => ⟨inv_initial h, ?_⟩) (fun s a s' h hstep => ?_) hs).2
  · obtain ⟨config, core, -, rfl⟩ := h
    exact .of_idle rfl rfl
  · exact ⟨(Step.change h.1.forall_sound hstep).inv h.1, h.2.step h.1 hstep⟩

end Buffer

/-- The timer of a peer: it is the one that its endpoint has asked for, or it has expired, and
is about to be handled. -/
inductive Waits (bd : Build) (s : State) (peer : PeerRef) (p : Peer) : Prop
  | set {v : SenderView} (hmem : peer ∉ s.timerDataBuffer) (hsender : p.endpoint.Sender bd False 0 v)
      (htimers : EndpointHost.Timers p.endpoint p.core.rtoTimer v)
      (hdeadline : ∀ t, p.core.rtoTimer = some t → lastDeadline peer s.emitted = some t)
  | expired {v : SenderView} {timeMs : ℕ} (hmem : peer ∈ s.timerDataBuffer)
      (hsender : p.endpoint.Sender bd False 0 v)
      (htimers : EndpointHost.Timers p.endpoint (some timeMs) v)
      (hunset : p.core.rtoTimer = none) (hdeadline : lastDeadline peer s.emitted = some timeMs)
      (hpassed : timeMs < s.nowMs)

/-- No user disconnects an active peer whose expired timer is about to be handled. -/
def NoRearm (s : State) : Action → Prop
  | .disconnect peer _ => peer ∈ s.timerDataBuffer → isActive s.core peer = false
  | _ => True

/-- A timer is handled after the deadline that was set last. -/
def FiresOnTime (s : State) : Action → Prop
  | .fireNext nowMs _ => ∀ peer rest, s.timerDataBuffer = peer :: rest →
      ∃ timeMs, lastDeadline peer s.emitted = some timeMs ∧ timeMs < nowMs
  | _ => True

section Waits
variable {bd : Build} {hash : Bytes → U64} {s s' : State} {a : Action} {peer r : PeerRef}
  {p : Peer} {e : Endpoint} {nowMs : ℕ} {calls : List HostCall}

/-- What concerns other peers does not matter. -/
lemma Waits.same (h : Waits bd s peer p)
    (hmem : peer ∈ s'.timerDataBuffer ↔ peer ∈ s.timerDataBuffer)
    (hdeadline : lastDeadline peer s'.emitted = lastDeadline peer s.emitted)
    (hclock : s.nowMs ≤ s'.nowMs) : Waits bd s' peer p := by
  cases h with
  | set hnot hsender htimers hlast =>
    exact .set (mt hmem.mp hnot) hsender htimers (hdeadline ▸ hlast)
  | expired hin hsender htimers hunset hlast hpassed =>
    exact .expired (hmem.mpr hin) hsender htimers hunset (hdeadline.trans hlast)
      (hpassed.trans_le hclock)

/-- A call that is made while the timer is not about to be handled. -/
lemma Waits.called {v : SenderView} {emitted : List Emission}
    (hnot : peer ∉ s'.timerDataBuffer) (hsender : e.Sender bd False nowMs v)
    (htimers : EndpointHost.Timers e (EndpointHost.timerCalls p.core.rtoTimer calls) v)
    (hemitted : s'.emitted = emitted ++ calls.map (.host peer p.addr))
    (hlast : ∀ t, p.core.rtoTimer = some t → lastDeadline peer emitted = some t) :
    Waits bd s' peer ⟨calls.foldl Peer.hostCall p.core, e⟩ := by
  refine .set hnot (hsender.later False.elim) ?_ ?_
  · rwa [foldl_hostCall_rtoTimer]
  · rw [foldl_hostCall_rtoTimer, hemitted, lastDeadline_self]
    exact timerCalls_deadline hlast

lemma UserRun.timers {e e' : Endpoint} {timer : Option ℕ} {v : SenderView}
    (h : UserRun bd nowMs e calls e') (htimers : EndpointHost.Timers e timer v)
    (hsender : e.Sender bd False nowMs v) :
    ∃ v', e'.Sender bd False nowMs v' ∧
      EndpointHost.Timers e' (EndpointHost.timerCalls timer calls) v' := by
  cases h with
  | @single input _ _ heffect hinput =>
    refine htimers.call heffect hsender ?_
    cases input with
    | init => exact hinput.elim
    | rtoTimer => exact hinput.elim
    | _ => trivial
  | send henqueue hflush =>
    obtain ⟨v₁, hsender₁, h₁⟩ := htimers.call henqueue hsender trivial
    exact h₁.call hflush hsender₁ trivial

lemma Timers.running {timer : Option ℕ} {v : SenderView} (hs : e.stateId = .active)
    (h : EndpointHost.Timers e timer v) : timer.isSome = e.rtoTimerState.isSome :=
  (h.armed hs).host

lemma timers_created {config : Endpoint.Config} (haccepted : config.Accepted bd)
    (hnew : Endpoint.new config = .ok e) :
    ∃ v, Endpoint.Sender { e with stateId := .active } bd False 0 v ∧
      EndpointHost.Timers { e with stateId := .active } none v := by
  have hsender := new_sender bd False 0 haccepted hnew
  refine ⟨_, ⟨hsender.1, hsender.2, hsender.3, hsender.4, hsender.5, hsender.6⟩,
    .of_armed rfl ⟨?_, ?_⟩⟩
  · exact congrArg Option.isSome (new_fresh hnew).rtoTimerState_eq.symm
  · simp [(new_fresh hnew).rtoTimerState_eq]

/-- The test of a timer leaves it alone, or it has expired and is cleared. -/
lemma test_cases (p : Peer) (nowMs : ℕ) : p.test nowMs = (p, false) ∨
    ∃ timeMs, p.core.rtoTimer = some timeMs ∧ timeMs < nowMs ∧
      p.test nowMs = ({ p with core := { p.core with rtoTimer := none } }, true) := by
  unfold Peer.test
  cases htimer : p.core.rtoTimer with
  | none => exact .inl rfl
  | some timeMs =>
    by_cases hlt : timeMs < nowMs
    · exact .inr ⟨timeMs, rfl, hlt, if_pos hlt⟩
    · exact .inl (if_neg hlt)

/-- The timer of the peer is tested. -/
lemma Waits.tested {remaining : ℕ} (hbuffered : Buffered s)
    (hpass : s.pass = .testing nowMs (remaining + 1)) {core : ServerCore} (h : Waits bd s peer p) :
    Waits bd { s with
      core := core
      pass := .testing nowMs remaining
      timerDataBuffer :=
        s.timerDataBuffer ++ (if (p.test nowMs).2 then some peer else none).toList }
      peer (p.test nowMs).1 := by
  have hle := (hbuffered.testing nowMs (remaining + 1) hpass).1
  rcases test_cases p nowMs with htest | ⟨timeMs, htimer, hlt, htest⟩
  · rw [htest]
    exact h.same (by simp) rfl le_rfl
  · rw [htest]
    cases h with
    | expired hmem hsender htimers hunset hdeadline hpassed => cases hunset.symm.trans htimer
    | set hmem hsender htimers hdeadline =>
      exact .expired (by simp) hsender (htimer ▸ htimers) rfl (hdeadline timeMs htimer)
        (hlt.trans_le hle)

/-- The timer of the peer is handled. -/
lemma Waits.fired {rest : List PeerRef} {core : ServerCore}
    (hbuffered : Buffered s) (hbuffer : s.timerDataBuffer = peer :: rest)
    (heffect : Effect bd nowMs p.endpoint .rtoTimer calls e) (h : Waits bd s peer p) :
    Waits bd { s with
      core := core
      timerDataBuffer := rest
      nowMs := nowMs
      emitted := s.emitted ++ calls.map (.host peer p.addr) }
      peer ⟨calls.foldl Peer.hostCall p.core, e⟩ := by
  have hnot : peer ∉ rest := (List.nodup_cons.mp (hbuffer ▸ hbuffered.nodup)).1
  cases h with
  | set hmem hsender htimers hdeadline => exact absurd (hbuffer ▸ List.mem_cons_self) hmem
  | expired hmem hsender htimers hunset hdeadline hpassed =>
    obtain ⟨v', hsender', htimers'⟩ := htimers.fire heffect (hsender.later False.elim)
    refine .called hnot hsender' (hunset ▸ htimers') rfl fun t ht => ?_
    rw [hunset] at ht
    cases ht

/-- A user calls the peer, and does not disconnect it while its timer is about to be handled. -/
lemma Waits.used {core : ServerCore} {disconnected : List PeerRef} (hclock : s.nowMs ≤ nowMs)
    (hrun : UserRun bd nowMs p.endpoint calls e)
    (hstays : peer ∈ s.timerDataBuffer → p.endpoint.stateId = .active → e.stateId = .active)
    (h : Waits bd s peer p) :
    Waits bd { s with
      core := core
      nowMs := nowMs
      emitted := s.emitted ++ calls.map (.host peer p.addr)
      disconnected := disconnected }
      peer ⟨calls.foldl Peer.hostCall p.core, e⟩ := by
  cases h with
  | set hmem hsender htimers hdeadline =>
    obtain ⟨v', hsender', htimers'⟩ := hrun.timers htimers (hsender.later False.elim)
    exact .called hmem hsender' htimers' rfl hdeadline
  | @expired _ timeMs hmem hsender htimers hunset hdeadline hpassed =>
    have hframes := hrun.frames (hstays hmem) fun hs => (Timers.running hs htimers).symm
    obtain ⟨v', hsender', htimers'⟩ := hrun.timers htimers (hsender.later False.elim)
    rw [timerCalls_frames hframes] at htimers'
    refine .expired hmem (hsender'.later False.elim) htimers' ?_ ?_ (hpassed.trans_le hclock)
    · rw [foldl_hostCall_rtoTimer, timerCalls_frames hframes, hunset]
    · rw [lastDeadline_self, deadlineCalls_frames hframes, hdeadline]

end Waits

section Run
variable {bd : Build} {hash : Bytes → U64} {s s' : State} {a : Action}

/-- The step lemma. -/
lemma Change.waits (hbuffered : Buffered s)
    (h : ∀ (r : PeerRef) (p : Peer), s.core.heap[r]? = some p → Waits bd s r p)
    (hno : NoRearm s a) (hchange : Change bd hash s a s') :
    ∀ (r : PeerRef) (p : Peer), s'.core.heap[r]? = some p → Waits bd s' r p := by
  cases hchange with
  | still hstill hclock hemitted hreplies =>
    intro r p hp
    rw [hstill.heap_eq] at hp
    refine (h r p hp).same (by rw [hstill.buffer_eq]) ?_ hclock
    rw [hemitted, lastDeadline_replies hreplies]
  | collected hpass hqueue => exact fun r p hp => (h r p hp).same Iff.rfl rfl le_rfl
  | @tested nowMs remaining timerQueue peer p hpass hqueue hp =>
    refine forall_set (fun r q hr hq => (h r q hq).same ?_ rfl le_rfl)
      ((h peer p hp).tested hbuffered hpass)
    split_ifs <;> simp [hr]
  | @fired peer rest nowMs nonces p e calls hpass hbuffer hclock hp heffect hsound =>
    refine forall_set (fun r q hr hq => (h r q hq).same ?_ (lastDeadline_other hr) hclock)
      ((h peer p hp).fired hbuffered hbuffer heffect)
    simp [hbuffer, hr]
  | @delivered draws _ _ addr _ peer p e calls hpass hclock hlookup hp heffect hsound =>
    refine forall_set (fun r q hr hq => (h r q hq).same Iff.rfl (lastDeadline_other hr)
      (hclock.1.trans hclock.2)) ?_
    have hempty := hbuffered.idle hpass
    cases h peer p hp with
    | set hmem hsender htimers hdeadline =>
      obtain ⟨v', hsender', htimers'⟩ :=
        htimers.call heffect (hsender.later False.elim) trivial
      exact .called hmem hsender' htimers' rfl hdeadline
    | expired hmem hsender htimers hunset hdeadline hpassed =>
      rw [hempty] at hmem
      cases hmem
  | @created draws _ _ addr _ _ e hpass hclock hrequest hlookup hcount haccepted hnew =>
    have hempty := hbuffered.idle hpass
    refine forall_append (fun r q hq => (h r q hq).same Iff.rfl ?_ (hclock.1.trans hclock.2)) ?_
    · simp [lastDeadline, callsOf, (lt_of_getElem? hq).ne']
    · obtain ⟨v, hsender, htimers⟩ := timers_created haccepted hnew
      exact .set (by simp [hempty]) hsender htimers fun t ht => nomatch ht
  | @used _ peer p e calls nowMs disconnected hhandle hclock hp hrun hsound hdisconnect
      hdisconnected =>
    refine forall_set (fun r q hr hq => (h r q hq).same Iff.rfl (lastDeadline_other hr) hclock)
      ((h peer p hp).used hclock hrun fun hmem hs => ?_)
    by_contra hne
    have ha := hdisconnect hs hne
    subst ha
    have hinactive := hno hmem
    unfold isActive at hinactive
    rw [hp] at hinactive
    exact absurd hs (of_decide_eq_false hinactive)

lemma waits_of_run {past : List (State × Action)} (run : Run (system bd hash) past s)
    (h : ∀ q ∈ past, NoRearm q.1 q.2) :
    ∀ (r : PeerRef) (p : Peer), s.core.heap[r]? = some p → Waits bd s r p := by
  induction run with
  | init hinit =>
    obtain ⟨config, -, rfl⟩ := fresh_of_initial hinit
    simp
  | @step past s s' a run hstep ih =>
    have hs : Reachable (system bd hash) s := ⟨past, run⟩
    refine (change_of_reachable hs hstep).waits (buffered_reachable hs)
      (ih fun q hq => h q (List.mem_append_left _ hq)) ?_
    exact h (s, a) (List.mem_append_right _ (List.mem_singleton_self _))

lemma fires_of_waits (hbuffered : Buffered s) (hstep : Step bd hash s a s')
    (h : ∀ (r : PeerRef) (p : Peer), s.core.heap[r]? = some p → Waits bd s r p) :
    FiresOnTime s a := by
  cases a with
  | fireNext nowMs nonces =>
    intro peer rest hbuffer
    have hmem : peer ∈ s.timerDataBuffer := hbuffer ▸ List.mem_cons_self
    have hclock : s.nowMs ≤ nowMs := by
      cases hstep with
      | fireNext hpass hbuffer' hclock hok => exact hclock
    cases h peer _ (List.getElem?_eq_getElem (hbuffered.lt peer hmem)) with
    | set hnot hsender htimers hdeadline => exact absurd hmem hnot
    | expired hin hsender htimers hunset hdeadline hpassed =>
      exact ⟨_, hdeadline, hpassed.trans_le hclock⟩
  | _ => trivial

/-- In a run in which no user disconnects an active peer between the test of its timer and the
handling of it, every timer that is handled has passed its deadline. -/
theorem fires_on_time {past : List (State × Action)} (run : Run (system bd hash) past s)
    (h : ∀ q ∈ past, NoRearm q.1 q.2) : ∀ q ∈ past, FiresOnTime q.1 q.2 := by
  induction run with
  | init hinit => simp
  | @step past s s' a run hstep ih =>
    have hpast : ∀ q ∈ past, NoRearm q.1 q.2 := fun q hq => h q (List.mem_append_left _ hq)
    intro q hq
    rcases List.mem_append.mp hq with hq | hq
    · exact ih hpast q hq
    · obtain rfl := List.mem_singleton.mp hq
      exact fires_of_waits (buffered_reachable ⟨past, run⟩) hstep (waits_of_run run hpast)

end Run

section Sample

/-- A peer is sent a packet, and its timer expires a second later. -/
def sampleExpired : List Action :=
  [sampleAlpha 100, sampleBeta 100 200, .poll, .send 0 [1] .reliable 300 fun _ => false] ++
    sampleTimeouts 1301

/-- A timer that nobody touches is handled after its deadline. -/
theorem fires_on_time_resend : ∃ past s s',
    Run (system .debug sampleHash) (past ++ [(s, .fireNext 1301 fun _ => false)]) s' ∧
    (∀ q ∈ past ++ [(s, .fireNext 1301 fun _ => false)], NoRearm q.1 q.2) ∧
    s.timerDataBuffer = [0] ∧
    ∃ timeMs, lastDeadline 0 s.emitted = some timeMs ∧ timeMs < 1301 := by
  have hrun : ((sampleStart default).bind fun s =>
      (replay (next .debug sampleHash) s sampleExpired).bind fun s =>
        (next .debug sampleHash s (.fireNext 1301 fun _ => false)).map fun _ =>
          s.timerDataBuffer) = some [0] := by decide +kernel
  obtain ⟨s₀, hstart, hrun⟩ := Option.bind_eq_some_iff.mp hrun
  obtain ⟨s, hreplay, hrun⟩ := Option.bind_eq_some_iff.mp hrun
  obtain ⟨s', hfire, hbuffer⟩ := Option.map_eq_some_iff.mp hrun
  have run₀ : Run (system .debug sampleHash) [] s₀ := .init (sampleStart_initial hstart)
  obtain ⟨past, run, hactions⟩ := replay_run (fun _ _ _ => next_step) run₀ hreplay
  have run' := run.step (next_step hfire)
  have hno : ∀ q ∈ past ++ [(s, .fireNext 1301 fun _ => false)], NoRearm q.1 q.2 := by
    intro q hq
    have hmem : q.2 ∈ sampleExpired ++ [.fireNext 1301 fun _ => false] := by
      rw [← hactions]
      simpa using List.mem_map_of_mem (f := Prod.snd) hq
    simp only [sampleExpired, sampleTimeouts, List.cons_append, List.nil_append,
      List.mem_cons, List.not_mem_nil, or_false] at hmem
    rcases hmem with h | h | h | h | h | h | h | h <;> (rw [h]; trivial)
  have hfires := fires_on_time run' hno (s, .fireNext 1301 fun _ => false) (by simp)
  exact ⟨past, s, s', run', hno, hbuffer, hfires 0 [] hbuffer⟩

/-- A peer that is disconnected after its timer has expired is handled before the new deadline:
its close frame is resent at once. -/
theorem fires_early : ∃ s s', Reachable (system .debug sampleHash) s ∧
    Step .debug sampleHash s (.fireNext 1303 fun _ => false) s' ∧ s.timerDataBuffer = [0] ∧
    lastDeadline 0 s.emitted = some 2302 ∧ ¬ FiresOnTime s (.fireNext 1303 fun _ => false) := by
  have hrun : ((sampleStart default).bind fun s =>
      (replay (next .debug sampleHash) s (sampleExpired ++ [.disconnect 0 1302])).bind fun s =>
        (next .debug sampleHash s (.fireNext 1303 fun _ => false)).map fun _ =>
          (s.timerDataBuffer, lastDeadline 0 s.emitted)) = some ([0], some 2302) := by
    decide +kernel
  obtain ⟨s₀, hstart, hrun⟩ := Option.bind_eq_some_iff.mp hrun
  obtain ⟨s, hreplay, hrun⟩ := Option.bind_eq_some_iff.mp hrun
  obtain ⟨s', hfire, hsame⟩ := Option.map_eq_some_iff.mp hrun
  obtain ⟨hbuffer, hdeadline⟩ := Prod.mk.inj hsame
  have hs := (sampleStart_reachable hstart).continues
    (replay_continues (fun _ _ _ => next_step) hreplay)
  refine ⟨s, s', hs, next_step hfire, hbuffer, hdeadline, fun hfires => ?_⟩
  obtain ⟨timeMs, htime, hlt⟩ := hfires 0 [] hbuffer
  rw [hdeadline] at htime
  cases htime
  exact absurd hlt (by decide)

end Sample

end Redpine.ServerRun

import Redpine.EndpointLife
import Redpine.ServerEvents

/-! Replayed handshakes. A server does not record the requests it has granted. A request is
granted twice only after its first peer has left the table, which takes the configured timeout
or the time for which a closed peer lingers, or after the timestamp has come around. -/
namespace Redpine.ServerRun
open Machine Buffer Wire Endpoint Transition Server ServerCore EndpointLife

/-- What identifies a handshake. -/
structure Handshake where
  senderAddr : SocketAddr
  clientNonce : U32
  serverNonce : U32
  serverTimestamp : U32
  deriving DecidableEq

/-- The handshake that a request belongs to. -/
def Creation.handshake (c : Creation) : Handshake :=
  ⟨c.addr, c.frame.clientNonce, c.frame.serverNonce, c.frame.serverTimestamp⟩

/-- The time for which a peer stays in the table at least. -/
def lifeMs (config : Server.Config) : ℕ := min config.connectionTimeoutMs disconnectTimeoutMs

/-- The time before which the timer of a peer is not handled, if it is handled at all. -/
def State.earliestMs (s : State) (peer : PeerRef) : Option ℕ :=
  if peer ∈ s.timerDataBuffer then some s.nowMs else lastDeadline peer s.emitted

/-- What holds of a peer and of the request that it was created for. -/
structure Tracked (bd : Build) (s : State) (peer : PeerRef) (p : Peer) (c : Creation) : Prop where
  addr_eq : c.addr = p.addr
  recent : timestampValid c.frame c.nowMs = true
  created_le : c.nowMs ≤ s.nowMs
  timeout_eq : p.endpoint.config.timeoutTimeMs = s.core.config.connectionTimeoutMs
  recorded : ∀ t, p.core.rtoTimer = some t → lastDeadline peer s.emitted = some t
  waits : p.endpoint.stateId = .active → Waits bd s peer p
  life : Life (lifeMs s.core.config) c.nowMs p.endpoint (s.earliestMs peer) s.nowMs

section Tracked
variable {bd : Build} {hash : Bytes → U64} {s s' : State} {a : Action} {peer : PeerRef} {p : Peer}
  {c : Creation} {e : Endpoint} {nowMs : ℕ} {calls : List HostCall}

lemma earliestMs_of_mem (hmem : peer ∈ s.timerDataBuffer) : s.earliestMs peer = some s.nowMs :=
  if_pos hmem

lemma earliestMs_of_not_mem (hmem : peer ∉ s.timerDataBuffer) :
    s.earliestMs peer = lastDeadline peer s.emitted := if_neg hmem

/-- What concerns other peers does not matter. -/
lemma Tracked.same (h : Tracked bd s peer p c) (hconfig : s'.core.config = s.core.config)
    (hmem : peer ∈ s'.timerDataBuffer ↔ peer ∈ s.timerDataBuffer)
    (hdeadline : lastDeadline peer s'.emitted = lastDeadline peer s.emitted)
    (hclock : s.nowMs ≤ s'.nowMs) : Tracked bd s' peer p c := by
  refine ⟨h.addr_eq, h.recent, h.created_le.trans hclock, hconfig ▸ h.timeout_eq,
    hdeadline ▸ h.recorded, fun hs => (h.waits hs).same hmem hdeadline hclock, ?_⟩
  rw [hconfig]
  refine (h.life.postpone fun t ht => ?_).later hclock
  by_cases hin : peer ∈ s.timerDataBuffer
  · rw [earliestMs_of_mem (hmem.mpr hin)] at ht
    cases ht
    exact ⟨s.nowMs, earliestMs_of_mem hin, hclock⟩
  · rw [earliestMs_of_not_mem (mt hmem.mp hin), hdeadline] at ht
    exact ⟨t, (earliestMs_of_not_mem hin).trans ht, le_rfl⟩

/-- A call that is made on the peer. -/
lemma Tracked.called (h : Tracked bd s peer p c)
    (hconfig : s'.core.config = s.core.config) (hnonces : SameNonces p.endpoint e)
    (hclock : s.nowMs ≤ s'.nowMs) (hemitted : s'.emitted = s.emitted ++ calls.map (.host peer p.addr))
    (hwaits : e.stateId = .active →
      Waits bd s' peer ⟨calls.foldl Peer.hostCall p.core, e⟩)
    (hlife : Life (lifeMs s.core.config) c.nowMs e (s'.earliestMs peer) s'.nowMs) :
    Tracked bd s' peer ⟨calls.foldl Peer.hostCall p.core, e⟩ c := by
  refine ⟨h.addr_eq.trans (called_addr p e calls).symm, h.recent, h.created_le.trans hclock, ?_, ?_,
    hwaits, hconfig ▸ hlife⟩
  · rw [hconfig, ← h.timeout_eq]
    exact congrArg Endpoint.Config.timeoutTimeMs hnonces.config_eq
  · rw [foldl_hostCall_rtoTimer, hemitted, lastDeadline_self]
    exact timerCalls_deadline h.recorded

/-- The timer of the peer is tested. -/
lemma Tracked.tested {remaining : ℕ} {core : ServerCore} (hbuffered : Buffered s)
    (hpass : s.pass = .testing nowMs (remaining + 1)) (hfresh : peer ∉ s.timerDataBuffer)
    (hconfig : core.config = s.core.config) (h : Tracked bd s peer p c) :
    Tracked bd { s with
      core := core
      pass := .testing nowMs remaining
      timerDataBuffer :=
        s.timerDataBuffer ++ (if (p.test nowMs).2 then some peer else none).toList }
      peer (p.test nowMs).1 c := by
  have hle := (hbuffered.testing nowMs (remaining + 1) hpass).1
  have hwaits := fun hs => @Waits.tested bd s peer p nowMs remaining hbuffered hpass core (h.waits hs)
  rcases test_cases p nowMs with htest | ⟨timeMs, htimer, hlt, htest⟩
  · rw [htest]
    exact h.same hconfig (by simp) rfl le_rfl
  · rw [htest] at hwaits ⊢
    refine ⟨h.addr_eq, h.recent, h.created_le, hconfig ▸ h.timeout_eq, fun t ht => (by cases ht),
      hwaits, ?_⟩
    have hlife := h.life
    rw [earliestMs_of_not_mem hfresh] at hlife
    dsimp only
    rw [hconfig]
    refine hlife.postpone fun t ht => ⟨timeMs, h.recorded timeMs htimer, ?_⟩
    rw [earliestMs_of_mem (by simp)] at ht
    cases ht
    exact hlt.le.trans hle

/-- The timer of the peer is handled. -/
lemma Tracked.fired {rest : List PeerRef} {core : ServerCore} (hbuffered : Buffered s)
    (hbuffer : s.timerDataBuffer = peer :: rest) (hnow : s.nowMs ≤ nowMs)
    (hconfig : core.config = s.core.config) (hclock : bd = .release → nowMs < 2 ^ 63)
    (heffect : Effect bd nowMs p.endpoint .rtoTimer calls e) (h : Tracked bd s peer p c) :
    Tracked bd { s with
      core := core
      timerDataBuffer := rest
      nowMs := nowMs
      emitted := s.emitted ++ calls.map (.host peer p.addr) }
      peer ⟨calls.foldl Peer.hostCall p.core, e⟩ c := by
  have hnot : peer ∉ rest := (List.nodup_cons.mp (hbuffer ▸ hbuffered.nodup)).1
  refine h.called hconfig heffect.nonces hnow rfl (fun hs => ?_) ?_
  · exact (h.waits (heffect.outline.active_of hs (by simp))).fired hbuffered hbuffer heffect
  · have hlife := h.life
    rw [earliestMs_of_mem (hbuffer ▸ List.mem_cons_self)] at hlife
    rw [earliestMs_of_not_mem hnot, lastDeadline_self]
    refine hlife.fire heffect hnow hnow ?_ (min_le_right _ _) hclock _
    rw [h.timeout_eq]
    exact min_le_left _ _

/-- A frame is delivered to the peer. -/
lemma Tracked.delivered {core : ServerCore} {hashed : List Bytes} {frameType : FrameType}
    {payloadBytes : Bytes} {v : SenderView} (hempty : s.timerDataBuffer = [])
    (hnow : s.nowMs ≤ nowMs) (hconfig : core.config = s.core.config)
    (hclock : bd = .release → nowMs < 2 ^ 63)
    (heffect : Effect bd nowMs p.endpoint (.frame frameType payloadBytes) calls e)
    (hsender : p.endpoint.Sender bd False nowMs v) (h : Tracked bd s peer p c) :
    Tracked bd { s with
      core := core
      nowMs := nowMs
      emitted := s.emitted ++ calls.map (.host peer p.addr)
      hashed := hashed }
      peer ⟨calls.foldl Peer.hostCall p.core, e⟩ c := by
  have hnot : peer ∉ s.timerDataBuffer := by simp [hempty]
  refine h.called hconfig heffect.nonces hnow rfl (fun hs => ?_) ?_
  · cases h.waits (heffect.outline.active_of hs (by simp)) with
    | set hmem hsender' htimers hdeadline =>
      obtain ⟨v', hsender'', htimers'⟩ := htimers.call heffect (hsender'.later False.elim) trivial
      exact .called hnot hsender'' htimers' rfl hdeadline
    | expired hmem hsender' htimers hunset hdeadline hpassed => exact absurd hmem hnot
  · have hlife := h.life
    rw [earliestMs_of_not_mem hnot] at hlife
    rw [State.earliestMs, if_neg hnot, lastDeadline_self]
    exact hlife.call heffect hsender (by simp) (by simp) hnow (h.created_le.trans hnow) hclock

lemma UserRun.nonces (h : UserRun bd nowMs p.endpoint calls e) : SameNonces p.endpoint e := by
  cases h with
  | single heffect hinput => exact heffect.nonces
  | send henqueue hflush => exact henqueue.nonces.trans hflush.nonces

lemma UserRun.active_of (h : UserRun bd nowMs p.endpoint calls e) (hs : e.stateId = .active) :
    p.endpoint.stateId = .active := by
  cases h with
  | single heffect hinput => exact heffect.outline.active_of hs hinput.ne.1
  | send henqueue hflush =>
    exact henqueue.outline.active_of (hflush.outline.active_of hs (by simp)) (by simp)

/-- A user calls the peer. -/
lemma UserRun.life {lifeMs createdMs : ℕ} {earliestMs : Option ℕ}
    (h : Life lifeMs createdMs p.endpoint earliestMs s.nowMs)
    (hrun : UserRun bd nowMs p.endpoint calls e) (hsound : p.endpoint.Sound bd)
    (hnow : s.nowMs ≤ nowMs) (hcreated : createdMs ≤ nowMs)
    (hclock : bd = .release → nowMs < 2 ^ 63) :
    Life lifeMs createdMs e (EndpointTimeout.deadlineCalls earliestMs calls) nowMs := by
  obtain ⟨v, hsender⟩ := hsound
  cases hrun with
  | single heffect hinput =>
    exact h.call heffect (hsender.later False.elim) hinput.ne.1 hinput.ne.2 hnow hcreated hclock
  | @send _ _ _ e₁ _ henqueue hflush =>
    have h₁ := h.call henqueue (hsender.later False.elim) (by simp) (by simp) hnow hcreated hclock
    obtain ⟨v₁, hsender₁⟩ :=
      henqueue.sender (hsender.later False.elim : p.endpoint.Sender bd False nowMs v)
        False.elim False.elim
    exact h₁.call hflush hsender₁ (by simp) (by simp) le_rfl hcreated hclock

lemma IsUserInput.ne_frame {input : Input} (h : IsUserInput input) (frameType : FrameType)
    (payloadBytes : Bytes) : input ≠ .frame frameType payloadBytes := by
  rintro rfl
  exact h

/-- A user calls the peer while its timer is about to be handled. -/
lemma UserRun.held {lifeMs createdMs timeMs : ℕ}
    (h : Life lifeMs createdMs p.endpoint (some timeMs) s.nowMs)
    (hrun : UserRun bd nowMs p.endpoint calls e) (hnow : s.nowMs ≤ nowMs)
    (hrunning : p.endpoint.stateId = .active → p.endpoint.rtoTimerState.isSome = true) :
    Life lifeMs createdMs e (some timeMs) nowMs := by
  cases hrun with
  | single heffect hinput =>
    exact h.held heffect hinput.ne.1 hinput.ne.2 hinput.ne_frame hnow hrunning
  | @send _ _ _ e₁ _ henqueue hflush =>
    have h₁ := h.held henqueue (by simp) (by simp) (by simp) hnow hrunning
    refine h₁.held hflush (by simp) (by simp) (by simp) le_rfl fun hs => ?_
    cases henqueue with
    | enqueue hs' hqueue => exact hrunning hs'
    | enqueueIgnored hs' => exact hrunning hs

lemma Tracked.used {core : ServerCore} {disconnected : List PeerRef} (hnow : s.nowMs ≤ nowMs)
    (hconfig : core.config = s.core.config) (hclock : bd = .release → nowMs < 2 ^ 63)
    (hrun : UserRun bd nowMs p.endpoint calls e) (hsound : p.endpoint.Sound bd)
    (h : Tracked bd s peer p c) :
    Tracked bd { s with
      core := core
      nowMs := nowMs
      emitted := s.emitted ++ calls.map (.host peer p.addr)
      disconnected := disconnected }
      peer ⟨calls.foldl Peer.hostCall p.core, e⟩ c := by
  refine h.called hconfig hrun.nonces hnow rfl (fun hs => ?_) ?_
  · exact (h.waits (hrun.active_of hs)).used hnow hrun fun _ _ => hs
  · have hlife := h.life
    by_cases hmem : peer ∈ s.timerDataBuffer
    · rw [earliestMs_of_mem hmem] at hlife
      rw [State.earliestMs, if_pos hmem]
      have hheld := UserRun.held hlife hrun hnow fun hs => by
        cases h.waits hs with
        | set hnot hsender htimers hdeadline => exact absurd hmem hnot
        | expired hin hsender htimers hunset hdeadline hpassed =>
          exact (Timers.running hs htimers).symm
      refine hheld.postpone fun t ht => ?_
      cases ht
      exact ⟨s.nowMs, rfl, hnow⟩
    · rw [earliestMs_of_not_mem hmem] at hlife
      rw [State.earliestMs, if_neg hmem, lastDeadline_self]
      exact UserRun.life hlife hrun hsound hnow (h.created_le.trans hnow) hclock

end Tracked

/-- What holds of all peers, and of the requests that they were created for. -/
structure Spaced (bd : Build) (s : State) : Prop where
  length_eq : s.created.length = s.core.heap.length
  tracked : ∀ (r : PeerRef) (p : Peer), s.core.heap[r]? = some p →
    ∃ c, s.created[r]? = some c ∧ Tracked bd s r p c
  spaced : s.created.Pairwise fun c c' => c.nowMs ≤ c'.nowMs ∧ timestampValid c.frame c.nowMs ∧
    timestampValid c'.frame c'.nowMs ∧
    (c.addr = c'.addr → c.nowMs + lifeMs s.core.config ≤ c'.nowMs)

section Spaced
variable {bd : Build} {hash : Bytes → U64} {s s' : State} {a : Action}

lemma spaced_initial (h : Initial bd s) : Spaced bd s := by
  obtain ⟨config, -, rfl⟩ := fresh_of_initial h
  exact ⟨rfl, by simp, List.Pairwise.nil⟩

/-- One peer is called or tested, and the others are left alone. -/
lemma Spaced.set {peer : PeerRef} {p p' : Peer} (h : Spaced bd s)
    (hp : s.core.heap[peer]? = some p) (hheap : s'.core.heap = s.core.heap.set peer p')
    (hconfig : s'.core.config = s.core.config) (hcreated : s'.created = s.created)
    (hother : ∀ r q c, r ≠ peer → Tracked bd s r q c → Tracked bd s' r q c)
    (hself : ∀ c, Tracked bd s peer p c → Tracked bd s' peer p' c) : Spaced bd s' := by
  constructor
  · rw [hcreated, hheap, List.length_set, h.length_eq]
  · rw [hheap, hcreated]
    refine forall_set (fun r q hr hq => ?_) ?_
    · obtain ⟨c, hc, htracked⟩ := h.tracked r q hq
      exact ⟨c, hc, hother r q c hr htracked⟩
    · obtain ⟨c, hc, htracked⟩ := h.tracked peer p hp
      exact ⟨c, hc, hself c htracked⟩
  · rw [hcreated, hconfig]
    exact h.spaced

/-- The earlier peers at the address of a new one have terminated. -/
lemma Spaced.past {addr : SocketAddr} {nowMs : ℕ} (h : Spaced bd s) (hinv : Inv bd s.core)
    (hlookup : s.core.peers.lookup addr = none) (hclock : s.nowMs ≤ nowMs) {c : Creation}
    (hc : c ∈ s.created) : c.nowMs ≤ nowMs ∧ timestampValid c.frame c.nowMs ∧
      (c.addr = addr → c.nowMs + lifeMs s.core.config ≤ nowMs) := by
  obtain ⟨r, hr⟩ := List.mem_iff_getElem?.mp hc
  have hlt : r < s.core.heap.length := h.length_eq ▸ (List.getElem?_eq_some_iff.mp hr).1
  have hp := List.getElem?_eq_getElem hlt
  obtain ⟨c', hc', htracked⟩ := h.tracked r _ hp
  cases hr.symm.trans hc'
  refine ⟨htracked.created_le.trans hclock, htracked.recent, fun haddr => ?_⟩
  have hzombie : s.core.heap[r].endpoint.stateId = .zombie := by
    by_contra hlive
    have hfound := (hinv.live addr r).mpr ⟨_, hp, htracked.addr_eq.symm.trans haddr, hlive⟩
    rw [hlookup] at hfound
    cases hfound
  cases htracked.life with
  | zombie hs hpassed => exact hpassed.trans hclock
  | running hs htimer hmatches hearliest => simp [hzombie] at hs
  | idle hs htimer => cases hzombie.symm.trans hs
  | closed hs hearliest => cases hzombie.symm.trans hs

lemma Change.spaced (h : Spaced bd s) (hbuffered : Buffered s) (hinv : Inv bd s.core)
    (hclock : bd = .release → s'.nowMs < 2 ^ 63) (hchange : Change bd hash s a s') :
    Spaced bd s' := by
  cases hchange with
  | still hstill hnow hemitted hreplies =>
    constructor
    · rw [hstill.created_eq, hstill.heap_eq, h.length_eq]
    · rw [hstill.heap_eq, hstill.created_eq]
      intro r p hp
      obtain ⟨c, hc, htracked⟩ := h.tracked r p hp
      refine ⟨c, hc, htracked.same hstill.config_eq (by rw [hstill.buffer_eq]) ?_ hnow⟩
      rw [hemitted, lastDeadline_replies hreplies]
    · rw [hstill.created_eq, hstill.config_eq]
      exact h.spaced
  | collected hpass hqueue =>
    refine ⟨h.length_eq, fun r p hp => ?_, h.spaced⟩
    obtain ⟨c, hc, htracked⟩ := h.tracked r p hp
    exact ⟨c, hc, htracked.same rfl Iff.rfl rfl le_rfl⟩
  | @tested nowMs remaining timerQueue peer p hpass hqueue hp =>
    refine h.set hp rfl rfl rfl (fun r q c hr htracked => htracked.same rfl ?_ rfl le_rfl)
      fun c htracked => htracked.tested hbuffered hpass (hbuffered.fresh hpass hqueue) rfl
    dsimp only
    split_ifs <;> simp [hr]
  | @fired peer rest nowMs nonces p e calls hpass hbuffer hnow hp heffect hsound =>
    exact h.set hp rfl rfl rfl
      (fun r q c hr htracked => htracked.same rfl (by simp [hbuffer, hr]) (lastDeadline_other hr)
        hnow)
      fun c htracked => htracked.fired hbuffered hbuffer hnow rfl hclock heffect
  | @delivered draws _ _ addr _ peer p e calls hpass hnow hlookup hp heffect hsound =>
    obtain ⟨v, hsender⟩ := hinv.sound peer p hp
    have hle := hnow.1.trans hnow.2
    exact h.set hp rfl rfl rfl
      (fun r q c hr htracked => htracked.same rfl Iff.rfl (lastDeadline_other hr) hle)
      fun c htracked => htracked.delivered (hbuffered.idle hpass) hle rfl hclock heffect
        (hsender.later False.elim)
  | @created draws _ ackBytes addr frame _ e hpass hnow hrequest hlookup hcount haccepted hnew =>
    have hle := hnow.1.trans hnow.2
    have hempty := hbuffered.idle hpass
    have hother : ∀ r, r ≠ s.core.heap.length → lastDeadline r (s.emitted ++
        [.host s.core.heap.length addr .onConnect, .reply ackBytes addr]) =
          lastDeadline r s.emitted := by
      intro r hr
      simp [lastDeadline, callsOf, Ne.symm hr]
    have hfresh := new_fresh hnew
    constructor
    · simp [withCreated, h.length_eq]
    · refine forall_append (fun r q hq => ?_) ?_
      · obtain ⟨c, hc, htracked⟩ := h.tracked r q hq
        refine ⟨c, ?_, htracked.same rfl Iff.rfl (hother r (lt_of_getElem? hq).ne) hle⟩
        rw [List.getElem?_append_left (List.getElem?_eq_some_iff.mp hc).1]
        exact hc
      · refine ⟨⟨addr, frame, draws.nowMs⟩, ?_, rfl, hrequest.2.2.2, hnow.2, ?_, ?_, ?_, ?_⟩
        · rw [← h.length_eq]
          simp
        · exact congrArg Endpoint.Config.timeoutTimeMs hfresh.config_eq
        · intro t ht
          cases ht
        · intro hs
          obtain ⟨v, hsender, htimers⟩ := timers_created haccepted hnew
          exact .set (by simp [hempty]) hsender htimers fun t ht => (by cases ht)
        · exact .idle rfl hfresh.rtoTimerState_eq
    · refine List.pairwise_append.mpr ⟨h.spaced, List.pairwise_singleton _ _, ?_⟩
      intro c hc c' hc'
      obtain rfl := List.mem_singleton.mp hc'
      obtain ⟨hle', hvalid, haddr⟩ := h.past hinv hlookup hnow.1 hc
      exact ⟨hle', hvalid, hrequest.2.2.2, haddr⟩
  | @used _ peer p e calls nowMs disconnected hhandle hnow hp hrun hsound hdisconnect
      hdisconnected =>
    exact h.set hp rfl rfl rfl
      (fun r q c hr htracked => htracked.same rfl Iff.rfl (lastDeadline_other hr) hnow)
      fun c htracked => htracked.used hnow rfl hclock hrun (hinv.sound peer p hp)

lemma nowMs_le_of_step (hs : Reachable (system bd hash) s) (h : Step bd hash s a s') :
    s.nowMs ≤ s'.nowMs := by
  cases change_of_reachable hs h with
  | still hstill hnow hemitted hreplies => exact hnow
  | collected hpass hqueue => exact le_rfl
  | tested hpass hqueue hp => exact le_rfl
  | fired hpass hbuffer hnow hp heffect hsound => exact hnow
  | delivered hpass hnow hlookup hp heffect hsound => exact hnow.1.trans hnow.2
  | created hpass hnow hrequest hlookup hcount haccepted hnew => exact hnow.1.trans hnow.2
  | used hhandle hnow hp hrun hsound hdisconnect hdisconnected => exact hnow

theorem spaced_reachable (hs : Reachable (system bd hash) s)
    (hclock : bd = .release → s.nowMs < 2 ^ 63) : Spaced bd s := by
  induction hs using Reachable.induct with
  | init h => exact spaced_initial h
  | step hs hstep ih =>
    have hle := nowMs_le_of_step hs hstep
    exact (change_of_reachable hs hstep).spaced (ih fun hbd => hle.trans_lt (hclock hbd))
      (buffered_reachable hs) (inv_reachable hs) hclock

/-- A timestamp is recent again only when it has come around. -/
lemma timestamp_wraps {frame frame' : HandshakeBetaFrame} {nowMs nowMs' : ℕ}
    (hsame : frame.serverTimestamp = frame'.serverTimestamp)
    (hvalid : timestampValid frame nowMs) (hvalid' : timestampValid frame' nowMs')
    (hle : nowMs + handshakeTimeoutMs.toNat ≤ nowMs') :
    nowMs + (2 ^ 32 - handshakeTimeoutMs.toNat) < nowMs' := by
  have hlt := of_decide_eq_true hvalid
  have hlt' := of_decide_eq_true hvalid'
  rw [← hsame] at hlt'
  simp only [timestamp, BitVec.lt_def, BitVec.toNat_sub, BitVec.toNat_ofNat] at hlt hlt'
  have hlimit : handshakeTimeoutMs.toNat = 10000 := rfl
  have hbound := frame.serverTimestamp.isLt
  omega

end Spaced

/-- Each request that was granted has created one peer and one event, and a handshake is not
granted again before its timestamp has come around. -/
structure ConnectsOnce (s : State) : Prop where
  apart : s.created.Pairwise fun c c' => c.handshake = c'.handshake →
    c.nowMs + (2 ^ 32 - handshakeTimeoutMs.toNat) < c'.nowMs
  length_eq : s.created.length = s.core.heap.length
  addr_eq : ∀ (r : PeerRef) (p : Peer), s.core.heap[r]? = some p →
    ∃ c, s.created[r]? = some c ∧ c.addr = p.addr
  connect_once : ∀ r, s.events.count (.connect r) = if r < s.created.length then 1 else 0

section Once
variable {bd : Build} {hash : Bytes → U64} {s : State}

/-- A handshake connects at most once while its timestamp does not come around, if the timeout
of connections is not shorter than that of handshakes. -/
theorem connects_once (hs : Reachable (system bd hash) s)
    (htimeout : handshakeTimeoutMs.toNat ≤ s.core.config.connectionTimeoutMs)
    (hclock : bd = .release → s.nowMs < 2 ^ 63) : ConnectsOnce s := by
  have hspaced := spaced_reachable hs hclock
  have hlife : handshakeTimeoutMs.toNat ≤ lifeMs s.core.config := le_min htimeout (by decide)
  refine ⟨hspaced.spaced.imp ?_, hspaced.length_eq, fun r p hp => ?_, fun r => ?_⟩
  · intro c c' ⟨hle, hvalid, hvalid', hapart⟩ hsame
    obtain ⟨haddr, hclient, hserver, htimestamp⟩ := Handshake.mk.inj hsame
    have hlater := hapart haddr
    exact timestamp_wraps htimestamp hvalid hvalid' (by omega)
  · obtain ⟨c, hc, htracked⟩ := hspaced.tracked r p hp
    exact ⟨c, hc, htracked.addr_eq⟩
  · rw [hspaced.length_eq]
    exact count_connect hs r

end Once

section Sample

/-- The handshake of the samples, begun at 100 ms. -/
def sampleHandshake : Handshake := ⟨sampleAddr, 7, 9, 100⟩

/-- A request that is repeated finds its peer in the table. -/
theorem connects_once_repeated : ∃ s, Reachable (system .debug sampleHash) s ∧
    s.created.map Creation.handshake = [sampleHandshake] ∧ ConnectsOnce s := by
  have hrun : ((sampleStart default).bind fun s => (replay (next .debug sampleHash) s
      [sampleAlpha 100, sampleBeta 100 200, sampleBeta 100 300]).map fun s =>
        (s.created.map Creation.handshake, s.core.config.connectionTimeoutMs)) =
      some ([sampleHandshake], 10000) := by decide +kernel
  obtain ⟨s₀, hstart, hrun⟩ := Option.bind_eq_some_iff.mp hrun
  obtain ⟨s, hreplay, hrun⟩ := Option.map_eq_some_iff.mp hrun
  obtain ⟨hcreated, hconfig⟩ := Prod.mk.inj hrun
  have hs := (sampleStart_reachable hstart).continues
    (replay_continues (fun _ _ _ => next_step) hreplay)
  exact ⟨s, hs, hcreated, connects_once hs (by rw [hconfig]; decide) fun h => nomatch h⟩

/-- The shortest timeout that a configuration may have. -/
def sampleShort : Server.Config := ⟨8, 2000, default⟩

/-- A peer is sent a packet that is not acknowledged, and times out three seconds later. -/
def sampleSilent : List Action :=
  [sampleAlpha 100, sampleBeta 100 200, .poll, .send 0 [1] .reliable 300 fun _ => false] ++
    sampleTimeouts 1301 ++ [.fireNext 1301 fun _ => false, .endTimeouts] ++
    sampleTimeouts 3302 ++ [.fireNext 3302 fun _ => false, .endTimeouts]

/-- A peer is disconnected, and leaves the table ten seconds later. -/
def sampleGone : List Action :=
  [sampleAlpha 100, sampleBeta 100 200, .poll, .disconnect 0 300, sampleCloseAck 400] ++
    sampleTimeouts 10401 ++ [.fireNext 10401 fun _ => false, .endTimeouts]

/-- One handshake has created two peers, and both have been reported as connected. -/
structure ConnectsTwice (s : State) : Prop where
  created_eq : s.created.map Creation.handshake = [sampleHandshake, sampleHandshake]
  first : s.events.count (.connect 0) = 1
  second : s.events.count (.connect 1) = 1

lemma connectsTwice_of_replay {config : Server.Config} {actions : List Action} {timeoutMs : ℕ}
    (h : ((sampleStart config).bind fun s =>
      (replay (next .debug sampleHash) s actions).map fun s =>
        (s.core.config.connectionTimeoutMs, s.created.map Creation.handshake,
          s.events.count (.connect 0), s.events.count (.connect 1))) =
      some (timeoutMs, [sampleHandshake, sampleHandshake], 1, 1)) :
    ∃ s, Reachable (system .debug sampleHash) s ∧
      s.core.config.connectionTimeoutMs = timeoutMs ∧ ConnectsTwice s := by
  obtain ⟨s₀, hstart, hrun⟩ := Option.bind_eq_some_iff.mp h
  obtain ⟨s, hreplay, hrun⟩ := Option.map_eq_some_iff.mp hrun
  obtain ⟨hconfig, hrun⟩ := Prod.mk.inj hrun
  obtain ⟨hcreated, hrun⟩ := Prod.mk.inj hrun
  obtain ⟨hfirst, hsecond⟩ := Prod.mk.inj hrun
  exact ⟨s, (sampleStart_reachable hstart).continues
    (replay_continues (fun _ _ _ => next_step) hreplay), hconfig, hcreated, hfirst, hsecond⟩

/-- A request connects twice: within the timeout of handshakes, if connections time out sooner,
or once its timestamp has come around. -/
theorem connects_twice :
    (∃ s, Reachable (system .debug sampleHash) s ∧ s.core.config.connectionTimeoutMs = 2000 ∧
      ConnectsTwice s) ∧
    ∃ s, Reachable (system .debug sampleHash) s ∧ s.core.config.connectionTimeoutMs = 10000 ∧
      ConnectsTwice s := by
  constructor
  · exact @connectsTwice_of_replay sampleShort (sampleSilent ++ [sampleBeta 100 3400]) _
      (by decide +kernel)
  · exact @connectsTwice_of_replay default (sampleGone ++ [sampleBeta 100 (2 ^ 32 + 200)]) _
      (by decide +kernel)

end Sample

end Redpine.ServerRun

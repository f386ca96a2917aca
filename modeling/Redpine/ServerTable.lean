import Redpine.ServerStep
import Redpine.SipHash

/-! The peer table of a server. In every state the table holds exactly the peers that have not
terminated, each under its own address, and each of them is in the queue of timers once. -/
namespace Redpine.ServerRun
open Machine Buffer Wire Endpoint Transition Server ServerCore

section Heap
variable {heap : List Peer} {peer r : PeerRef} {p p' q : Peer} {addr : SocketAddr}

lemma forall_set {prop : PeerRef → Peer → Prop}
    (hother : ∀ r q, r ≠ peer → heap[r]? = some q → prop r q) (hset : prop peer p') :
    ∀ r q, (heap.set peer p')[r]? = some q → prop r q := by
  intro r q hq
  rw [List.getElem?_set] at hq
  by_cases hr : peer = r
  · subst hr
    rw [if_pos rfl] at hq
    by_cases hlt : peer < heap.length
    · rw [if_pos hlt] at hq
      cases hq
      exact hset
    · rw [if_neg hlt] at hq
      cases hq
  · rw [if_neg hr] at hq
    exact hother r q (Ne.symm hr) hq

lemma forall_append {prop : PeerRef → Peer → Prop}
    (hother : ∀ r q, heap[r]? = some q → prop r q) (hlast : prop heap.length p') :
    ∀ r q, (heap ++ [p'])[r]? = some q → prop r q := by
  intro r q hq
  rcases Nat.lt_trichotomy r heap.length with hlt | heq | hgt
  · rw [List.getElem?_append_left hlt] at hq
    exact hother r q hq
  · subst heq
    rw [List.getElem?_append_right le_rfl, Nat.sub_self] at hq
    cases hq
    exact hlast
  · rw [List.getElem?_eq_none (by simpa using hgt)] at hq
    cases hq

lemma lt_of_getElem? (hp : heap[peer]? = some p) : peer < heap.length :=
  (List.getElem?_eq_some_iff.mp hp).1

/-- The peer has this address and has not terminated. -/
def IsLive (heap : List Peer) (addr : SocketAddr) (peer : PeerRef) : Prop :=
  ∃ p, heap[peer]? = some p ∧ p.addr = addr ∧ p.endpoint.stateId ≠ .zombie

lemma isLive_set (hp : heap[peer]? = some p) (haddr : p'.addr = p.addr)
    (hzombie : p'.endpoint.stateId = .zombie ↔ p.endpoint.stateId = .zombie) :
    IsLive (heap.set peer p') addr r ↔ IsLive heap addr r := by
  unfold IsLive
  rw [List.getElem?_set]
  by_cases hr : peer = r
  · subst hr
    rw [if_pos rfl, if_pos (lt_of_getElem? hp)]
    simp [hp, haddr, hzombie]
  · rw [if_neg hr]

lemma isLive_set_zombie (hp : heap[peer]? = some p) (hzombie : p'.endpoint.stateId = .zombie) :
    IsLive (heap.set peer p') addr r ↔ r ≠ peer ∧ IsLive heap addr r := by
  unfold IsLive
  rw [List.getElem?_set]
  by_cases hr : peer = r
  · subst hr
    rw [if_pos rfl, if_pos (lt_of_getElem? hp)]
    simp [hzombie]
  · rw [if_neg hr]
    simp [Ne.symm hr]

lemma isLive_append (hlive : p'.endpoint.stateId ≠ .zombie) :
    IsLive (heap ++ [p']) addr r ↔ (r = heap.length ∧ p'.addr = addr) ∨ IsLive heap addr r := by
  unfold IsLive
  rcases Nat.lt_trichotomy r heap.length with hlt | heq | hgt
  · rw [List.getElem?_append_left hlt]
    simp [hlt.ne]
  · subst heq
    rw [List.getElem?_append_right le_rfl, Nat.sub_self]
    simp [hlive]
  · rw [List.getElem?_eq_none (by simpa using hgt), List.getElem?_eq_none hgt.le]
    simp [hgt.ne']

end Heap

section HostCalls
variable {calls : List HostCall} {core : PeerCore}

@[simp] lemma foldl_hostCall_addr : (calls.foldl Peer.hostCall core).addr = core.addr := by
  induction calls generalizing core with
  | nil => rfl
  | cons call calls ih =>
    rw [List.foldl_cons, ih]
    cases call <;> rfl

lemma called_addr (p : Peer) (e : Endpoint) (calls : List HostCall) :
    (⟨calls.foldl Peer.hostCall p.core, e⟩ : Peer).addr = p.addr := foldl_hostCall_addr

@[simp] lemma test_endpoint (p : Peer) (nowMs : ℕ) : (p.test nowMs).1.endpoint = p.endpoint := by
  unfold Peer.test
  cases p.core.rtoTimer with
  | none => rfl
  | some t => dsimp only; split <;> rfl

@[simp] lemma test_addr (p : Peer) (nowMs : ℕ) : (p.test nowMs).1.addr = p.addr := by
  unfold Peer.test
  cases p.core.rtoTimer with
  | none => rfl
  | some t => dsimp only; split <;> rfl

end HostCalls

section Endpoints
variable {bd : Build} {e e' : Endpoint} {nowMs : ℕ} {input : Input} {calls : List HostCall}

/-- Only the timer ends the life of an endpoint. -/
lemma zombie_iff (h : Effect bd nowMs e input calls e') (hinit : input ≠ .init)
    (htimer : input ≠ .rtoTimer) : e'.stateId = .zombie ↔ e.stateId = .zombie := by
  have houtline := h.outline
  constructor
  · intro hzombie
    by_contra hs
    exact houtline.zombie_of hs htimer hzombie
  · exact fun hs => (houtline.zombie hs hinit).1

lemma IsUserInput.ne (h : IsUserInput input) : input ≠ .init ∧ input ≠ .rtoTimer := by
  cases input with
  | init => exact h.elim
  | rtoTimer => exact h.elim
  | _ => exact ⟨by simp, by simp⟩

lemma UserRun.zombie_iff (h : UserRun bd nowMs e calls e') :
    e'.stateId = .zombie ↔ e.stateId = .zombie := by
  cases h with
  | single heffect hinput => exact ServerRun.zombie_iff heffect hinput.ne.1 hinput.ne.2
  | send henqueue hflush =>
    rw [ServerRun.zombie_iff hflush (by simp) (by simp),
      ServerRun.zombie_iff henqueue (by simp) (by simp)]

lemma UserRun.ne_preInit (h : UserRun bd nowMs e calls e') (hs : e.stateId ≠ .preInit) :
    e'.stateId ≠ .preInit := by
  cases h with
  | single heffect hinput => exact heffect.outline.ne_preInit hs
  | send henqueue hflush => exact hflush.outline.ne_preInit (henqueue.outline.ne_preInit hs)

end Endpoints

/-- What holds of the peers of a server, of the table and of the queue of timers. -/
structure Inv (bd : Build) (core : ServerCore) : Prop where
  sound : ∀ (r : PeerRef) (p : Peer), core.heap[r]? = some p → p.endpoint.Sound bd
  ne_preInit : ∀ (r : PeerRef) (p : Peer), core.heap[r]? = some p → p.endpoint.stateId ≠ .preInit
  live : ∀ addr peer, core.peers.lookup addr = some peer ↔ IsLive core.heap addr peer
  count_le : core.peers.entries.length ≤ core.config.peerCountMax
  nodup : core.timerQueue.queue.Nodup
  queue_lt : ∀ peer ∈ core.timerQueue.queue, peer < core.heap.length
  queued : ∀ addr peer, core.peers.lookup addr = some peer → peer ∈ core.timerQueue.queue

section Invariant
variable {bd : Build} {hash : Bytes → U64} {s s' : State} {a : Action}

lemma Inv.forall_sound {core : ServerCore} (h : Inv bd core) :
    ∀ p ∈ core.heap, p.endpoint.Sound bd := by
  intro p hp
  obtain ⟨r, hr⟩ := List.mem_iff_getElem?.mp hp
  exact h.sound r p hr

lemma inv_initial (h : Initial bd s) : Inv bd s.core := by
  obtain ⟨config, -, rfl⟩ := fresh_of_initial h
  refine ⟨by simp, by simp, fun addr peer => ?_, by simp, by simp [TimerQueue.new],
    by simp [TimerQueue.new], by simp⟩
  simp [IsLive]

/-- A call on a peer that has not terminated, or a test of its timer. -/
lemma Inv.set {core core' : ServerCore} {peer : PeerRef} {p p' : Peer} (h : Inv bd core)
    (hp : core.heap[peer]? = some p) (haddr : p'.addr = p.addr)
    (hsound : p'.endpoint.Sound bd) (hinit : p'.endpoint.stateId ≠ .preInit)
    (hzombie : p'.endpoint.stateId = .zombie ↔ p.endpoint.stateId = .zombie)
    (hheap : core'.heap = core.heap.set peer p') (hpeers : core'.peers = core.peers)
    (hqueue : core'.timerQueue.queue.Perm core.timerQueue.queue)
    (hconfig : core'.config = core.config) : Inv bd core' := by
  constructor
  · rw [hheap]
    exact forall_set (fun r q _ => h.sound r q) hsound
  · rw [hheap]
    exact forall_set (fun r q _ => h.ne_preInit r q) hinit
  · intro addr r
    rw [hheap, hpeers, isLive_set hp haddr hzombie]
    exact h.live addr r
  · rw [hpeers, hconfig]
    exact h.count_le
  · exact hqueue.nodup_iff.mpr h.nodup
  · intro r hr
    rw [hheap, List.length_set]
    exact h.queue_lt r (hqueue.mem_iff.mp hr)
  · intro addr r hr
    rw [hpeers] at hr
    exact hqueue.mem_iff.mpr (h.queued addr r hr)

/-- The peer that terminates is the one that is found under its address. -/
lemma Inv.terminated {core : ServerCore} {peer : PeerRef} {p p' : Peer} (h : Inv bd core)
    (hp : core.heap[peer]? = some p) (hsound : p'.endpoint.Sound bd)
    (hlive : p.endpoint.stateId ≠ .zombie) (hzombie : p'.endpoint.stateId = .zombie)
    {events : List Server.Event} :
    Inv bd ⟨core.config, core.heap.set peer p', core.peers.erase p.addr, core.timerQueue,
      events⟩ := by
  have hown : core.peers.lookup p.addr = some peer :=
    (h.live p.addr peer).mpr ⟨p, hp, rfl, hlive⟩
  have hlookup : ∀ addr r, (core.peers.erase p.addr).lookup addr = some r ↔
      r ≠ peer ∧ core.peers.lookup addr = some r := by
    intro addr r
    by_cases haddr : addr = p.addr
    · rw [haddr, AList.lookup_erase, hown]
      constructor
      · exact fun hr => by cases hr
      · rintro ⟨hne, hr⟩
        exact absurd (Option.some.inj hr).symm hne
    · rw [AList.lookup_erase_ne haddr]
      constructor
      · intro hr
        refine ⟨?_, hr⟩
        rintro rfl
        obtain ⟨q, hq, hqaddr, -⟩ := (h.live addr r).mp hr
        rw [hp] at hq
        cases hq
        exact haddr hqaddr.symm
      · exact And.right
  constructor
  · exact forall_set (fun r q _ => h.sound r q) hsound
  · exact forall_set (fun r q _ => h.ne_preInit r q) (by rw [hzombie]; simp)
  · intro addr r
    rw [isLive_set_zombie hp hzombie, ← h.live addr r]
    exact hlookup addr r
  · exact le_trans (List.Sublist.length_le (List.kerase_sublist _ _)) h.count_le
  · exact h.nodup
  · intro r hr
    rw [List.length_set]
    exact h.queue_lt r hr
  · intro addr r hr
    exact h.queued addr r ((hlookup addr r).mp hr).2

lemma Inv.created {core : ServerCore} {addr : SocketAddr} {e : Endpoint} (h : Inv bd core)
    (hsound : e.Sound bd) (hlookup : core.peers.lookup addr = none)
    (hcount : core.peers.entries.length < core.config.peerCountMax) :
    Inv bd (core.withCreated addr e) := by
  have hnotMem : addr ∉ core.peers := AList.lookup_eq_none.mp hlookup
  have hfresh : core.heap.length ∉ core.timerQueue.queue :=
    fun hmem => absurd (h.queue_lt _ hmem) (lt_irrefl _)
  constructor
  · refine forall_append h.sound ?_
    obtain ⟨v, hsender⟩ := hsound
    exact ⟨v, hsender.1, hsender.2, hsender.3, hsender.4, hsender.5, hsender.6⟩
  · exact forall_append h.ne_preInit (by simp)
  · intro addr' r
    dsimp only [withCreated]
    rw [isLive_append (by simp)]
    by_cases haddr : addr' = addr
    · subst haddr
      rw [AList.lookup_insert]
      have hnone : ¬ IsLive core.heap addr' r := by
        rw [← h.live addr' r, hlookup]
        simp
      simp [hnone, Peer.addr, eq_comm]
    · rw [AList.lookup_insert_ne haddr, h.live addr' r]
      simp [Peer.addr, Ne.symm haddr]
  · dsimp only [withCreated]
    rw [AList.entries_insert_of_notMem hnotMem, List.length_cons]
    exact hcount
  · exact (List.perm_append_singleton _ _).nodup_iff.mpr (List.nodup_cons.mpr ⟨hfresh, h.nodup⟩)
  · intro r hr
    dsimp only [withCreated, TimerQueue.addTimer] at hr ⊢
    rw [List.length_append, List.length_singleton]
    rcases List.mem_append.mp hr with hr | hr
    · exact Nat.lt_succ_of_lt (h.queue_lt r hr)
    · rw [List.mem_singleton.mp hr]
      exact Nat.lt_succ_self _
  · intro addr' r hr
    dsimp only [withCreated, TimerQueue.addTimer] at hr ⊢
    by_cases haddr : addr' = addr
    · subst haddr
      rw [AList.lookup_insert] at hr
      cases hr
      simp
    · rw [AList.lookup_insert_ne haddr] at hr
      exact List.mem_append_left _ (h.queued addr' r hr)

lemma alive_of_lookup {addr : SocketAddr} {peer : PeerRef}
    (h : s.core.peers.lookup addr = some peer) : s.alive peer = true := by
  have hmem : (⟨addr, peer⟩ : Sigma fun _ : SocketAddr => PeerRef) ∈ s.core.peers.entries :=
    AList.mem_lookup_iff.mp h
  unfold State.alive
  have hany : s.core.peers.entries.any (·.2 == peer) = true :=
    List.any_eq_true.mpr ⟨_, hmem, beq_self_eq_true peer⟩
  rw [hany]
  simp

/-- A timer that falls off the queue is that of no peer in the table. -/
lemma Inv.collected {timerQueue : TimerQueue PeerRef} (h : Inv bd s.core)
    (hqueue : s.core.timerQueue.next s.alive = some (none, timerQueue)) :
    Inv bd { s.core with timerQueue := timerQueue } := by
  have hcount := fun r => TimerQueue.next_count hqueue r
  have hmem : ∀ r ∈ timerQueue.queue, r ∈ s.core.timerQueue.queue := by
    intro r hr
    have hpos := List.count_pos_iff.mpr hr
    exact List.count_pos_iff.mp (lt_of_lt_of_le hpos (hcount r).1)
  refine ⟨h.sound, h.ne_preInit, h.live, h.count_le, ?_, fun r hr => h.queue_lt r (hmem r hr), ?_⟩
  · rw [List.nodup_iff_count_le_one]
    exact fun r => (hcount r).1.trans (List.nodup_iff_count_le_one.mp h.nodup r)
  · intro addr r hr
    have hkept := (hcount r).2 (alive_of_lookup hr)
    rw [← List.count_pos_iff, hkept]
    exact List.count_pos_iff.mpr (h.queued addr r hr)

lemma next_perm {timerQueue : TimerQueue PeerRef} {peer : PeerRef} {alive : PeerRef → Bool}
    {q : TimerQueue PeerRef} (h : q.next alive = some (some peer, timerQueue)) :
    timerQueue.queue.Perm q.queue := by
  obtain ⟨-, rest, hq, hq'⟩ := TimerQueue.next_some h
  rw [hq, hq']
  exact List.perm_append_singleton _ _

lemma Change.inv (hinv : Inv bd s.core) (h : Change bd hash s a s') : Inv bd s'.core := by
  cases h with
  | still hstill hclock hemitted hreplies =>
    constructor
    · rw [hstill.heap_eq]
      exact hinv.sound
    · rw [hstill.heap_eq]
      exact hinv.ne_preInit
    · rw [hstill.heap_eq, hstill.peers_eq]
      exact hinv.live
    · rw [hstill.peers_eq, hstill.config_eq]
      exact hinv.count_le
    · rw [hstill.timerQueue_eq]
      exact hinv.nodup
    · rw [hstill.timerQueue_eq, hstill.heap_eq]
      exact hinv.queue_lt
    · rw [hstill.timerQueue_eq, hstill.peers_eq]
      exact hinv.queued
  | collected hpass hqueue => exact hinv.collected hqueue
  | @tested nowMs remaining timerQueue peer p hpass hqueue hp =>
    have hp' := test_endpoint p nowMs
    exact hinv.set hp (test_addr p nowMs) (hp' ▸ hinv.sound peer p hp)
      (hp' ▸ hinv.ne_preInit peer p hp) (by rw [hp']) rfl rfl (next_perm hqueue) rfl
  | @fired peer rest nowMs nonces p e calls hpass hbuffer hclock hp heffect hsound =>
    by_cases hend : Terminates p e
    · rw [if_pos hend]
      exact hinv.terminated hp hsound hend.1 hend.2
    · rw [if_neg hend]
      have hzombie : e.stateId = .zombie ↔ p.endpoint.stateId = .zombie := by
        constructor
        · intro hs
          by_contra hne
          exact hend ⟨hne, hs⟩
        · exact fun hs => (heffect.outline.zombie hs (by simp)).1
      exact hinv.set hp (called_addr p e calls) hsound
        (heffect.outline.ne_preInit (hinv.ne_preInit peer p hp)) hzombie rfl rfl (.refl _) rfl
  | @delivered draws frameBytes payloadBytes addr frameType peer p e calls hpass hclock hlookup hp
      heffect hsound =>
    exact hinv.set hp (called_addr p e calls) hsound
      (heffect.outline.ne_preInit (hinv.ne_preInit peer p hp))
      (zombie_iff heffect (by simp) (by simp)) rfl rfl (.refl _) rfl
  | created hpass hclock hrequest hlookup hcount haccepted hnew =>
    exact hinv.created (new_isSound haccepted hnew) hlookup hcount
  | @used _ peer p e calls nowMs disconnected hhandle hclock hp hrun hsound hdisconnect
      hdisconnected =>
    exact hinv.set hp (called_addr p e calls) hsound
      (hrun.ne_preInit (hinv.ne_preInit peer p hp)) hrun.zombie_iff rfl rfl (.refl _) rfl

theorem inv_reachable (hs : Reachable (system bd hash) s) : Inv bd s.core := by
  have hrule := @Reachable.invariant _ _ (system bd hash) fun s => Inv bd s.core
  exact hrule (fun s h => inv_initial h)
    (fun s a s' h hstep => (Step.change h.forall_sound hstep).inv h) hs

lemma change_of_reachable (hs : Reachable (system bd hash) s) (h : Step bd hash s a s') :
    Change bd hash s a s' := Step.change (inv_reachable hs).forall_sound h

end Invariant

/-- The table of a server between two steps. -/
structure Intact (core : ServerCore) : Prop where
  keyed : ∀ addr peer, core.peers.lookup addr = some peer → ∃ p, core.heap[peer]? = some p ∧
    p.addr = addr ∧ p.endpoint.stateId ≠ .preInit ∧ p.endpoint.stateId ≠ .zombie
  count_le : core.peers.entries.length ≤ core.config.peerCountMax
  timer_once : ∀ addr peer, core.peers.lookup addr = some peer →
    core.timerQueue.queue.count peer = 1

/-- An entry that a step removes is that of the peer whose timer is handled by the step, and
whose endpoint terminates. -/
def RemovesOwn (s : State) (a : Action) (s' : State) : Prop :=
  ∀ addr peer, s.core.peers.lookup addr = some peer → s'.core.peers.lookup addr ≠ some peer →
    (∃ nowMs nonces rest, a = .fireNext nowMs nonces ∧ s.timerDataBuffer = peer :: rest) ∧
    ∃ p p', s.core.heap[peer]? = some p ∧ p.endpoint.stateId ≠ .zombie ∧
      s'.core.heap[peer]? = some p' ∧ p'.endpoint.stateId = .zombie

section Integrity
variable {bd : Build} {hash : Bytes → U64} {s s' : State} {a : Action}

lemma Inv.intact {core : ServerCore} (h : Inv bd core) : Intact core := by
  refine ⟨fun addr peer hlookup => ?_, h.count_le, fun addr peer hlookup => ?_⟩
  · obtain ⟨p, hp, haddr, hlive⟩ := (h.live addr peer).mp hlookup
    exact ⟨p, hp, haddr, h.ne_preInit peer p hp, hlive⟩
  · exact List.count_eq_one_of_mem h.nodup (h.queued addr peer hlookup)

lemma Change.removesOwn (hinv : Inv bd s.core) (h : Change bd hash s a s') :
    RemovesOwn s a s' := by
  intro addr peer hlookup hlost
  cases h with
  | still hstill hclock hemitted hreplies =>
    rw [hstill.peers_eq] at hlost
    exact absurd hlookup hlost
  | collected hpass hqueue => exact absurd hlookup hlost
  | tested hpass hqueue hp => exact absurd hlookup hlost
  | @fired fired rest nowMs nonces p e calls hpass hbuffer hclock hp heffect hsound =>
    dsimp only at hlost
    by_cases hend : Terminates p e
    · rw [if_pos hend] at hlost
      have haddr : addr = p.addr := by
        by_contra hne
        rw [AList.lookup_erase_ne hne] at hlost
        exact hlost hlookup
      have hown : s.core.peers.lookup p.addr = some fired :=
        (hinv.live p.addr fired).mpr ⟨p, hp, rfl, hend.1⟩
      rw [haddr, hown] at hlookup
      cases hlookup
      refine ⟨⟨nowMs, nonces, rest, rfl, hbuffer⟩, p, _, hp, hend.1,
        List.getElem?_set_self (lt_of_getElem? hp), hend.2⟩
    · rw [if_neg hend] at hlost
      exact absurd hlookup hlost
  | delivered hpass hclock hlookup' hp heffect hsound => exact absurd hlookup hlost
  | @created _ _ _ created _ _ _ hpass hclock hrequest hnone hcount haccepted hnew =>
    have hne : addr ≠ created := by
      rintro rfl
      rw [hnone] at hlookup
      cases hlookup
    exact absurd ((AList.lookup_insert_ne hne).trans hlookup) hlost
  | used hhandle hclock hp hrun hsound hdisconnect hdisconnected => exact absurd hlookup hlost

/-- The table is intact in every state, and what is removed has terminated. -/
theorem table_integrity (hs : Reachable (system bd hash) s) :
    Intact s.core ∧ ∀ a s', Step bd hash s a s' → RemovesOwn s a s' :=
  ⟨(inv_reachable hs).intact, fun _ _ hstep =>
    (change_of_reachable hs hstep).removesOwn (inv_reachable hs)⟩

end Integrity

section Sample

def sampleHash : Bytes → U64 := SipHash.hash 1 3 0x0706050403020100 0x0f0e0d0c0b0a0908

def loopback : Vector U8 4 := #v[127, 0, 0, 1]

def sampleAddr : SocketAddr := .v4 ⟨loopback, 4000⟩

def sampleStart (config : Server.Config) : Option State :=
  (ServerCore.bindWithConfig .debug config).toOption.map fun core =>
    ⟨core, .idle, [], [], 0, [], [], [], [], []⟩

/-- A frame that is received at a time, when the server would draw the nonce 9. -/
def sampleFrame (nowMs : ℕ) (frameBytes : Bytes) : Action :=
  .frame ⟨9, fun _ => false, nowMs, nowMs⟩ frameBytes sampleAddr

/-- The first request of a client that has drawn the nonce 7. -/
def sampleAlpha (nowMs : ℕ) : Action := sampleFrame nowMs (paddedAlpha ⟨protocolId, 7⟩ 1472)

/-- The second request, once the first has been answered at a time. -/
def sampleBeta (serverTimestamp : U32) (nowMs : ℕ) : Action :=
  sampleFrame nowMs (frameOf .handshakeBeta (LawfulBlock.encode
    (HandshakeBetaFrame.mk localParams 7 9 serverTimestamp
      (HandshakeMacHasher.compute sampleHash sampleAddr 7 9 serverTimestamp))))

def sampleCloseAck (nowMs : ℕ) : Action :=
  sampleFrame nowMs (frameOf .closeAck (LawfulBlock.encode (CloseAckFrame.mk 0)))

/-- The timer of one peer is tested and, if it has expired, is handled. -/
def sampleTimeouts (nowMs : ℕ) : List Action := [.beginTimeouts nowMs, .testNext, .endTests]

lemma sampleStart_initial {config : Server.Config} {s : State}
    (h : sampleStart config = some s) : Initial .debug s := by
  obtain ⟨core, hbind, rfl⟩ := toOption_map_eq_some.mp h
  exact ⟨config, core, hbind, rfl⟩

lemma sampleStart_reachable {config : Server.Config} {s : State}
    (h : sampleStart config = some s) : Reachable (system .debug sampleHash) s :=
  .init (sampleStart_initial h)

lemma replay_reachable {config : Server.Config} {actions : List Action} {s : State}
    (h : ((sampleStart config).bind fun s => replay (next .debug sampleHash) s actions) = some s) :
    Reachable (system .debug sampleHash) s :=
  start_replay_reachable (fun _ _ _ => next_step) (fun _ => sampleStart_initial) h

/-- A peer that is disconnected terminates ten seconds after the disconnection has been
acknowledged, and its entry goes with it. -/
theorem table_integrity_removed : ∃ s s', Reachable (system .debug sampleHash) s ∧
    Step .debug sampleHash s (.fireNext 10401 fun _ => false) s' ∧
    s.core.peers.lookup sampleAddr = some 0 ∧ s'.core.peers.lookup sampleAddr = none ∧
    Intact s.core ∧ RemovesOwn s (.fireNext 10401 fun _ => false) s' := by
  have hrun : (((sampleStart default).bind fun s => replay (next .debug sampleHash) s
      ([sampleAlpha 100, sampleBeta 100 200, .poll, .disconnect 0 300, sampleCloseAck 400] ++
        sampleTimeouts 10401)).bind fun s =>
          (next .debug sampleHash s (.fireNext 10401 fun _ => false)).map fun s' =>
            (s.core.peers.lookup sampleAddr, s'.core.peers.lookup sampleAddr)) =
      some (some 0, none) := by decide +kernel
  obtain ⟨s, hreplay, hrun⟩ := Option.bind_eq_some_iff.mp hrun
  obtain ⟨s', hfire, hrun⟩ := Option.map_eq_some_iff.mp hrun
  obtain ⟨hbefore, hafter⟩ := Prod.mk.inj hrun
  have hs := replay_reachable hreplay
  have hstep := next_step hfire
  obtain ⟨hintact, hremoves⟩ := table_integrity hs
  exact ⟨s, s', hs, hstep, hbefore, hafter, hintact, hremoves _ s' hstep⟩

end Sample

end Redpine.ServerRun

import Redpine.ServerReplay

/-! The timers of a server are served: only so many passes of `handle_timeouts` can go by before
the timer of a peer that has expired is found. -/
namespace Redpine.ServerRun
open Machine Wire Transition Endpoint Server ServerCore

/-- The peer has its entry in the table, and its timer is set. -/
def TimerSet (peer : PeerRef) (timeMs : ℕ) (s : State) : Prop :=
  ∃ p, s.core.heap[peer]? = some p ∧ s.core.peers.lookup p.addr = some peer ∧
    p.core.rtoTimer = some timeMs

/-- The steps after a state that leave the timer of the peer as it is. -/
def waiting (bd : Build) (hash : Bytes → U64) (peer : PeerRef) (timeMs : ℕ) (s₀ : State) :
    System State Action :=
  ⟨fun s => s = s₀, fun s a s' => Step bd hash s a s' ∧ TimerSet peer timeMs s'⟩

/-- The number of timers to be tested before that of the peer. -/
def ahead (peer : PeerRef) (s : State) : ℕ := s.core.timerQueue.queue.idxOf peer

/-- The number of timers that a pass has tested, if it does not get as far as the position. -/
def Pass.tested (position : ℕ) : Pass → ℕ
  | .testing _ remaining =>
      if remaining ≤ timerTestLimit ∧ remaining ≤ position then timerTestLimit - remaining else 0
  | _ => 0

def Action.endsTests : Action → Bool
  | .endTests => true
  | _ => false

/-- The clock has passed the deadline, and a pass under way has begun after it. -/
structure Overdue (timeMs : ℕ) (s : State) : Prop where
  clock : timeMs < s.nowMs
  testing : ∀ nowMs remaining, s.pass = .testing nowMs remaining → timeMs < nowMs

section Service
variable {bd : Build} {hash : Bytes → U64} {s s' s₀ : State} {a : Action} {peer : PeerRef}
  {timeMs : ℕ} {past : List (State × Action)}

/-- The queue grows at its end, unless a timer is tested. -/
lemma Change.queue_grows (h : Change bd hash s a s') (ha : a ≠ .testNext) :
    ∃ more, s'.core.timerQueue.queue = s.core.timerQueue.queue ++ more := by
  cases h with
  | still hstill hnow hemitted hreplies =>
    rw [hstill.timerQueue_eq]
    exact ⟨[], (List.append_nil _).symm⟩
  | collected hpass hqueue => exact absurd rfl ha
  | tested hpass hqueue hp => exact absurd rfl ha
  | created hpass hnow hrequest hlookup hcount haccepted hnew => exact ⟨_, rfl⟩
  | fired hpass hbuffer hnow hp heffect hsound => exact ⟨[], (List.append_nil _).symm⟩
  | delivered hpass hnow hlookup hp heffect hsound => exact ⟨[], (List.append_nil _).symm⟩
  | used hhandle hnow hp hrun hsound hdisconnect hdisconnected =>
    exact ⟨[], (List.append_nil _).symm⟩

lemma TimerSet.mem_queue (h : TimerSet peer timeMs s) (hinv : Inv bd s.core) :
    peer ∈ s.core.timerQueue.queue := by
  obtain ⟨p, -, hlookup, -⟩ := h
  exact hinv.queued p.addr peer hlookup

lemma ahead_eq (hs : Reachable (system bd hash) s) (h : TimerSet peer timeMs s)
    (hstep : Step bd hash s a s') (ha : a ≠ .testNext) : ahead peer s' = ahead peer s := by
  obtain ⟨more, hmore⟩ := (change_of_reachable hs hstep).queue_grows ha
  unfold ahead
  rw [hmore]
  exact List.idxOf_append_of_mem (h.mem_queue (inv_reachable hs))

lemma idxOf_behind {front peer : PeerRef} {rest : List PeerRef} (hne : front ≠ peer) :
    (front :: rest).idxOf peer = rest.idxOf peer + 1 := by
  rw [List.idxOf_cons, beq_false_of_ne hne]
  rfl

/-- A timer that has expired is not left set by its test, so it is not the one at the front. -/
lemma ahead_testNext (hs : Reachable (system bd hash) s) (h : TimerSet peer timeMs s)
    (hoverdue : Overdue timeMs s) (hstep : Step bd hash s .testNext s')
    (h' : TimerSet peer timeMs s') : ahead peer s = ahead peer s' + 1 := by
  have hmem := h.mem_queue (inv_reachable hs)
  obtain ⟨p, hp, hlookup, htimer⟩ := h
  unfold ahead
  cases hstep with
  | @testNext nowMs remaining core expired hpass hok =>
    obtain ⟨timerQueue, ⟨hnext, rfl, rfl⟩ | ⟨q, p₁, hnext, hp₁, rfl, rfl⟩⟩ := testNext_cases hok
    · obtain ⟨front, rest, hqueue, ⟨-, hsome, -⟩ | ⟨hgone, -, hrest⟩⟩ :=
        TimerQueue.next_cases hnext
      · cases hsome
      · have hne : front ≠ peer := by
          rintro rfl
          cases (alive_of_lookup hlookup).symm.trans hgone
        dsimp only
        rw [hqueue, hrest, idxOf_behind hne]
    · obtain ⟨-, rest, hqueue, hrest⟩ := TimerQueue.next_some hnext
      have hne : q ≠ peer := by
        rintro rfl
        cases hp.symm.trans hp₁
        obtain ⟨p', hp', -, htimer'⟩ := h'
        rw [List.getElem?_set_self (List.getElem?_eq_some_iff.mp hp).1] at hp'
        have hlt := hoverdue.testing _ _ hpass
        unfold Peer.test at hp'
        simp only [htimer, if_pos hlt, Option.some.injEq] at hp'
        rw [← hp'] at htimer'
        cases htimer'
      rw [hqueue] at hmem
      have hrestMem : peer ∈ rest := (List.mem_cons.mp hmem).resolve_left (Ne.symm hne)
      dsimp only
      rw [hqueue, hrest, idxOf_behind hne, List.idxOf_append_of_mem hrestMem]

lemma Overdue.step (h : Overdue timeMs s) (hs : Reachable (system bd hash) s)
    (hstep : Step bd hash s a s') : Overdue timeMs s' := by
  refine ⟨h.clock.trans_le (nowMs_le_of_step hs hstep), fun nowMs remaining hpass => ?_⟩
  cases hstep with
  | beginTimeouts hidle hclock =>
    cases hpass
    exact h.clock.trans_le hclock
  | testNext htesting hok =>
    cases hpass
    exact h.testing _ _ htesting
  | endTests htesting => cases hpass
  | endTimeouts hfiring hbuffer => cases hpass
  | _ => exact h.testing _ _ hpass

/-- A pass that begins has tested none, or gets as far as the peer. -/
lemma Pass.tested_begin (nowMs : ℕ) {position len : ℕ} (hlt : position < len) :
    (Pass.testing nowMs (min timerTestLimit len)).tested position = 0 := by
  refine ite_eq_right_iff.mpr fun h => ?_
  omega

/-- A test that brings the peer forward counts for the pass. -/
lemma Pass.tested_next (nowMs remaining position : ℕ) :
    (Pass.testing nowMs remaining).tested position ≤
      (Pass.testing nowMs (remaining + 1)).tested (position + 1) + 1 := by
  unfold Pass.tested
  dsimp only
  by_cases hnext : remaining + 1 ≤ timerTestLimit ∧ remaining + 1 ≤ position + 1
  · rw [if_pos hnext, if_pos (by omega)]
    omega
  · rw [if_neg hnext]
    split_ifs <;> omega

/-- A pass that ends has brought the peer closer to its test. -/
lemma served_step (hs : Reachable (system bd hash) s) (h : TimerSet peer timeMs s)
    (hoverdue : Overdue timeMs s) (hstep : Step bd hash s a s') (h' : TimerSet peer timeMs s') :
    (if a.endsTests then timerTestLimit else 0) +
        (ahead peer s' + s'.pass.tested (ahead peer s')) ≤
      ahead peer s + s.pass.tested (ahead peer s) := by
  have hsame := fun ha => ahead_eq hs h hstep ha
  have hlt : ahead peer s < s.core.timerQueue.queue.length :=
    List.idxOf_lt_length_of_mem (h.mem_queue (inv_reachable hs))
  cases hstep with
  | @beginTimeouts nowMs hidle hclock =>
    rw [hsame (by simp)]
    have hbegin := Pass.tested_begin nowMs hlt
    simp [Action.endsTests, TimerQueue.len, hbegin]
  | @testNext nowMs remaining core expired htesting hok =>
    rw [ahead_testNext hs h hoverdue (.testNext htesting hok) h', htesting]
    generalize ahead peer _ = position
    have hnext := Pass.tested_next nowMs remaining position
    simp only [Action.endsTests, Bool.false_eq_true, if_false]
    omega
  | endTests htesting =>
    rw [hsame (by simp), htesting]
    simp only [Action.endsTests, Pass.tested, if_true, Nat.zero_le, and_self, Nat.sub_zero]
    omega
  | frame hidle hclock hok =>
    rw [hsame (by simp), hidle]
    simp [Action.endsTests]
  | fireNext hfiring hbuffer hclock hok =>
    rw [hsame (by simp), hfiring]
    simp [Action.endsTests]
  | endTimeouts hfiring hbuffer =>
    rw [hsame (by simp), hfiring]
    simp [Action.endsTests, Pass.tested]
  | _ =>
    rw [hsame (by simp)]
    simp [Action.endsTests]

lemma waiting_reachable (hs₀ : Reachable (system bd hash) s₀) (hset : TimerSet peer timeMs s₀)
    (hoverdue : Overdue timeMs s₀) (hs : Reachable (waiting bd hash peer timeMs s₀) s) :
    Reachable (system bd hash) s ∧ TimerSet peer timeMs s ∧ Overdue timeMs s := by
  induction hs using Reachable.induct with
  | init h =>
    obtain rfl := h
    exact ⟨hs₀, hset, hoverdue⟩
  | step _ hstep ih =>
    obtain ⟨hs, -, hoverdue⟩ := ih
    exact ⟨hs.step hstep.1, hstep.2, hoverdue.step hs hstep.1⟩

/-- A timer that has expired is found before many passes end: while the timer of a peer in the
table stays set although the deadline is over, no more passes end than the queue is long, divided
by the number of timers that one pass tests. -/
theorem timer_served (hs₀ : Reachable (system bd hash) s₀) (hidle : s₀.pass = .idle)
    (hlate : timeMs < s₀.nowMs) (hset : TimerSet peer timeMs s₀)
    (run : Run (waiting bd hash peer timeMs s₀) past s) :
    timerTestLimit * past.countP (fun p => p.2.endsTests) < s₀.core.timerQueue.len := by
  have hoverdue : Overdue timeMs s₀ := by
    refine ⟨hlate, fun nowMs remaining hpass => ?_⟩
    cases hidle.symm.trans hpass
  have hcount : ∀ past : List (State × Action),
      (past.map fun p => if p.2.endsTests then timerTestLimit else 0).sum =
        timerTestLimit * past.countP fun p => p.2.endsTests := by
    intro past
    induction past with
    | nil => rfl
    | cons p past ih =>
      rw [List.map_cons, List.sum_cons, ih, List.countP_cons, Nat.mul_add, Nat.add_comm]
      cases p.2.endsTests <;> simp
  have hinit : ∀ s, (waiting bd hash peer timeMs s₀).init s →
      ahead peer s + s.pass.tested (ahead peer s) ≤ ahead peer s₀ := by
    rintro _ rfl
    rw [hidle]
    exact le_rfl
  have hstep : ∀ s a s', Reachable (waiting bd hash peer timeMs s₀) s →
      (waiting bd hash peer timeMs s₀).step s a s' →
      (if a.endsTests then timerTestLimit else 0) +
          (ahead peer s' + s'.pass.tested (ahead peer s')) ≤
        ahead peer s + s.pass.tested (ahead peer s) + 0 := by
    intro s a s' hs hstep
    obtain ⟨hs, hset, hoverdue⟩ := waiting_reachable hs₀ hset hoverdue hs
    exact served_step hs hset hoverdue hstep.1 hstep.2
  have hpaid := run.amortized hinit hstep
  have hlt : ahead peer s₀ < s₀.core.timerQueue.queue.length :=
    List.idxOf_lt_length_of_mem (hset.mem_queue (inv_reachable hs₀))
  rw [hcount, List.map_const', List.sum_replicate, Nat.nsmul_eq_mul, Nat.mul_zero] at hpaid
  unfold TimerQueue.len
  omega

end Service

section Sample

/-- A peer is sent a packet, and is given another one when its timer has expired. -/
def sampleOverdue : List Action :=
  [sampleAlpha 100, sampleBeta 100 200, .poll, .send 0 [1] .reliable 300 fun _ => false,
    .enqueue 0 [2] .reliable 1400]

/-- The timer of the peer is set, as far as can be computed. -/
def timerIsSet (peer : PeerRef) (timeMs : ℕ) (s : State) : Bool :=
  s.core.heap[peer]?.any fun p =>
    decide (s.core.peers.lookup p.addr = some peer ∧ p.core.rtoTimer = some timeMs)

lemma timerSet_of_computed {peer : PeerRef} {timeMs : ℕ} {s : State}
    (h : timerIsSet peer timeMs s = true) : TimerSet peer timeMs s := by
  obtain ⟨p, hp, hset⟩ := Option.any_eq_true _ _ |>.mp h
  exact ⟨p, hp, of_decide_eq_true hset⟩

theorem timer_served_sample : ∃ (s₀ s : State) (past : List (State × Action)),
    Reachable (system .debug sampleHash) s₀ ∧ TimerSet 0 1300 s₀ ∧ s₀.nowMs = 1400 ∧
      Run (waiting .debug sampleHash 0 1300 s₀) past s ∧ past.map Prod.snd = [.beginTimeouts 1500] ∧
      timerTestLimit * past.countP (fun p => p.2.endsTests) < s₀.core.timerQueue.len := by
  have hrun : ((sampleStart default).bind fun s =>
      (replay (next .debug sampleHash) s sampleOverdue).bind fun s =>
        (next .debug sampleHash s (.beginTimeouts 1500)).map fun s' =>
          decide (s.pass = .idle ∧ s.nowMs = 1400 ∧ timerIsSet 0 1300 s = true ∧
            timerIsSet 0 1300 s' = true)) = some true := by decide +kernel
  obtain ⟨s, hstart, hrun⟩ := Option.bind_eq_some_iff.mp hrun
  obtain ⟨s₀, hreplay, hrun⟩ := Option.bind_eq_some_iff.mp hrun
  obtain ⟨s', hbegin, houtcome⟩ := Option.map_eq_some_iff.mp hrun
  obtain ⟨hidle, hclock, hset, hset'⟩ := of_decide_eq_true houtcome
  have hs₀ : Reachable (system .debug sampleHash) s₀ :=
    (Reachable.init (sampleStart_initial hstart)).continues
      (replay_continues (fun _ _ _ => next_step) hreplay)
  have hset := timerSet_of_computed hset
  have run : Run (waiting .debug sampleHash 0 1300 s₀) ([] ++ [(s₀, .beginTimeouts 1500)]) s' :=
    .step (.init rfl) ⟨next_step hbegin, timerSet_of_computed hset'⟩
  exact ⟨s₀, s', _, hs₀, hset, hclock, run, rfl, timer_served hs₀ hidle (by omega) hset run⟩

end Sample

end Redpine.ServerRun

import Redpine.ClientLifecycle
import Redpine.EventLoop
import Redpine.ServerEvents

/-! The calls by which the users of a client and of a server fetch an event: `poll_event`,
`wait_event` and `wait_event_timeout` of `client.rs` and `server/mod.rs`. -/
namespace Redpine
open Machine Transition EventLoop

/-- What is read while an endpoint handles a frame or its timer. -/
structure Reading where
  nowMs : ℕ
  nonces : ℕ → Bool

/-- `ClientCore::next_timer_timeout`. -/
def ClientCore.nextTimerTimeout (core : ClientCore) (nowMs : ℕ) : Option ℕ :=
  match core.rtoTimer with
  | some tMs => some (fromMillis (tMs - nowMs))
  | none => none

def Server.timerTestInterval : ℕ := fromMillis 250

/-- `ServerCore::next_timer_timeout`. -/
def ServerCore.nextTimerTimeout (core : ServerCore) : Option ℕ :=
  if 0 < core.timerQueue.len then some Server.timerTestInterval else none

namespace ClientRun
open Client

/-- The state once the user has taken the event at the front of the queue. -/
def State.take (s : State) (event : Event) (events : List Event) : State :=
  { s with core := { s.core with events := events }, polled := s.polled ++ [event] }

def host (bd : Build) : Host State (Bytes × Reading) Reading Event where
  events s := s.core.events
  take := State.take
  handleFrame s frame := next bd s (.frame frame.1 frame.2.nowMs frame.2.nonces)
  handleTimeouts s reading := next bd s (.timeouts reading.nowMs reading.nonces)
  nextTimerTimeout s nowMs := s.core.nextTimerTimeout nowMs

/-- What the socket, the clock and the random numbers have in store for a call. -/
abbrev Rounds := List (Round (Bytes × Reading) Reading)

/-- `Client::poll_event`. -/
def pollEvent (bd : Build) (s : State) (rounds : Rounds) : Outcome State Event :=
  (host bd).pollEvent s rounds

/-- `Client::wait_event`. -/
def waitEvent (bd : Build) (s : State) (clock : Clock) (rounds : Rounds) : Outcome State Event :=
  (host bd).waitEvent s clock rounds

/-- `Client::wait_event_timeout`. -/
def waitEventTimeout (bd : Build) (s : State) (timeoutNs : ℕ) (clock : Clock) (rounds : Rounds) :
    Outcome State Event :=
  (host bd).waitEventTimeout s timeoutNs clock rounds

def fetch (bd : Build) (call : Fetch) (s : State) (clock : Clock) (rounds : Rounds) :
    Outcome State Event :=
  match call with
  | .pollEvent => pollEvent bd s rounds
  | .waitEvent => waitEvent bd s clock rounds
  | .waitEventTimeout timeoutNs => waitEventTimeout bd s timeoutNs clock rounds

lemma fetch_eq (bd : Build) (call : Fetch) (s : State) (clock : Clock) (rounds : Rounds) :
    fetch bd call s clock rounds = (host bd).fetch call s clock rounds := by
  cases call <;> rfl

section Client
variable {bd : Build} {s s' : State}

lemma host_follows (bd : Build) : (host bd).Follows (system bd) fun _ => True where
  handleFrame s frame s' hs h := by
    have hstep := next_step h
    refine ⟨.single ⟨_, hstep⟩, ?_⟩
    cases hstep with
    | frame hok =>
      obtain ⟨events, hevents, -⟩ := handleFrame_runs (clientLived hs).1 hok
      exact ⟨events, hevents.symm⟩
  handleTimeouts s reading s' hs h := by
    have hstep := next_step h
    refine ⟨.single ⟨_, hstep⟩, ?_, trivial⟩
    cases hstep with
    | timeouts hok =>
      obtain ⟨events, hevents, -⟩ := processTimeouts_runs (clientLived hs).1 hok
      exact ⟨events, hevents.symm⟩
  take s event events _ h := ⟨.single ⟨.poll, .poll h⟩, trivial⟩

/-- Between two calls of its user a client is in a reachable state. -/
theorem fetch_reachable {call : Fetch} {clock : Clock} {rounds : Rounds} {result : Option Event}
    {ops : List SocketOp} (hs : Reachable (system bd) s)
    (h : fetch bd call s clock rounds = .returned result s' ops) : Reachable (system bd) s' := by
  rw [fetch_eq] at h
  exact hs.continues (fetch_follows (host_follows bd) hs trivial h).1

end Client

end ClientRun

namespace ServerRun
open Server ServerCore

/-- What is read by `handle_timeouts`, and then by the peer whose timer is handled first,
second, and so on. -/
structure TimeoutReading where
  nowMs : ℕ
  peers : ℕ → Reading

/-- `ServerCore::handle_timeouts`, with no other thread in between. -/
def handleTimeouts (bd : Build) (hash : Bytes → U64) (s : State) (reading : TimeoutReading) :
    Option State := do
  let s ← next bd hash s (.beginTimeouts reading.nowMs)
  let s ← replay (next bd hash) s
    (List.replicate (min timerTestLimit s.core.timerQueue.len) .testNext ++ [.endTests])
  let s ← replay (next bd hash) s ((List.range s.timerDataBuffer.length).map fun i =>
    .fireNext (reading.peers i).nowMs (reading.peers i).nonces)
  next bd hash s .endTimeouts

/-- The state once the user has taken the event at the front of the queue, and with it a handle. -/
def State.take (s : State) (event : Event) (events : List Event) : State :=
  { s with
    core := { s.core with events := events }
    handles := s.handles ++ [event.peer]
    polled := s.polled ++ [event] }

def host (bd : Build) (hash : Bytes → U64) :
    Host State (ServerCore.Draws × Bytes × SocketAddr) TimeoutReading Event where
  events s := s.core.events
  take := State.take
  handleFrame s frame := next bd hash s (.frame frame.1 frame.2.1 frame.2.2)
  handleTimeouts := handleTimeouts bd hash
  nextTimerTimeout s _ := s.core.nextTimerTimeout

abbrev Rounds := List (Round (Draws × Bytes × SocketAddr) TimeoutReading)

/-- `Server::poll_event`. -/
def pollEvent (bd : Build) (hash : Bytes → U64) (s : State) (rounds : Rounds) :
    Outcome State Event :=
  (host bd hash).pollEvent s rounds

/-- `Server::wait_event`. -/
def waitEvent (bd : Build) (hash : Bytes → U64) (s : State) (clock : Clock) (rounds : Rounds) :
    Outcome State Event :=
  (host bd hash).waitEvent s clock rounds

/-- `Server::wait_event_timeout`. -/
def waitEventTimeout (bd : Build) (hash : Bytes → U64) (s : State) (timeoutNs : ℕ)
    (clock : Clock) (rounds : Rounds) : Outcome State Event :=
  (host bd hash).waitEventTimeout s timeoutNs clock rounds

def fetch (bd : Build) (hash : Bytes → U64) (call : Fetch) (s : State) (clock : Clock)
    (rounds : Rounds) : Outcome State Event :=
  match call with
  | .pollEvent => pollEvent bd hash s rounds
  | .waitEvent => waitEvent bd hash s clock rounds
  | .waitEventTimeout timeoutNs => waitEventTimeout bd hash s timeoutNs clock rounds

lemma fetch_eq (bd : Build) (hash : Bytes → U64) (call : Fetch) (s : State) (clock : Clock)
    (rounds : Rounds) : fetch bd hash call s clock rounds =
      (host bd hash).fetch call s clock rounds := by
  cases call <;> rfl

section Server
variable {bd : Build} {hash : Bytes → U64} {s s' : State}

/-- Only the user takes events from the queue. -/
lemma Step.appends {a : Action} (hstep : Step bd hash s a s') (ha : a ≠ .poll) :
    s.core.events <+: s'.core.events := by
  cases hstep with
  | frame hpass hclock hok => exact ⟨_, (FrameStep.pushes (handleFrame_step hok)).symm⟩
  | testNext hpass hok =>
    obtain ⟨timerQueue, ⟨hqueue, rfl, rfl⟩ | ⟨peer, p, hqueue, hp, rfl, rfl⟩⟩ := testNext_cases hok
    · exact List.prefix_refl _
    · exact List.prefix_refl _
  | fireNext hpass hbuffer hclock hok => exact ⟨_, (fireNext_pushes hok).symm⟩
  | send hhandle hclock hok => exact ⟨_, (callPeer_pushes hok).symm⟩
  | enqueue hhandle hclock hok => exact ⟨_, (callPeer_pushes hok).symm⟩
  | flush hhandle hclock hok => exact ⟨_, (callPeer_pushes hok).symm⟩
  | disconnect hhandle hclock hok => exact ⟨_, (callPeer_pushes hok).symm⟩
  | poll hpass hevents => exact absurd rfl ha
  | beginTimeouts hpass hclock => exact List.prefix_refl _
  | endTests hpass => exact List.prefix_refl _
  | endTimeouts hpass hbuffer => exact List.prefix_refl _
  | clone hhandle => exact List.prefix_refl _
  | drop hhandle => exact List.prefix_refl _

lemma replay_appends {actions : List Action} (hactions : .poll ∉ actions)
    (h : replay (next bd hash) s actions = some s') : s.core.events <+: s'.core.events := by
  refine replay_invariant (motive := fun s₁ : State => s.core.events <+: s₁.core.events) h
    (List.prefix_refl _) fun s₁ a hmem s₂ hevents hnext => ?_
  exact hevents.trans ((next_step hnext).appends fun ha => hactions (ha ▸ hmem))

/-- A call of `handle_timeouts` is a run of the server. -/
lemma handleTimeouts_follows {reading : TimeoutReading}
    (h : handleTimeouts bd hash s reading = some s') :
    Continues (system bd hash) s s' ∧ s.core.events <+: s'.core.events ∧ s'.pass = .idle := by
  have hcontinues : ∀ {s s' : State} {actions : List Action},
      replay (next bd hash) s actions = some s' → Continues (system bd hash) s s' :=
    replay_continues fun _ _ _ => next_step
  unfold handleTimeouts at h
  obtain ⟨s₁, hbegin, h⟩ := Option.bind_eq_some_iff.mp h
  obtain ⟨s₂, htests, h⟩ := Option.bind_eq_some_iff.mp h
  obtain ⟨s₃, hfires, hend⟩ := Option.bind_eq_some_iff.mp h
  have hstep₁ := next_step hbegin
  have hstep₄ := next_step hend
  refine ⟨?_, ?_, ?_⟩
  · exact .head ⟨_, hstep₁⟩ ((hcontinues htests).trans ((hcontinues hfires).tail ⟨_, hstep₄⟩))
  · have happends₂ := replay_appends (by simp) htests
    have happends₃ := replay_appends (by simp) hfires
    exact (hstep₁.appends (by simp)).trans
      (happends₂.trans (happends₃.trans (hstep₄.appends (by simp))))
  · cases hstep₄ with
    | endTimeouts hpass hbuffer => rfl

lemma host_follows (bd : Build) (hash : Bytes → U64) :
    (host bd hash).Follows (system bd hash) fun s => s.pass = .idle where
  handleFrame s frame s' _ h := by
    have hstep : Step bd hash s (.frame frame.1 frame.2.1 frame.2.2) s' := next_step h
    exact ⟨.single ⟨_, hstep⟩, hstep.appends (by simp)⟩
  handleTimeouts s reading s' _ h := handleTimeouts_follows h
  take s event events hidle h := ⟨.single ⟨.poll, .poll hidle h⟩, hidle⟩

/-- Between two calls of its user a server is in a reachable state, and not handling timeouts. -/
theorem fetch_reachable {call : Fetch} {clock : Clock} {rounds : Rounds} {result : Option Event}
    {ops : List SocketOp} (hs : Reachable (system bd hash) s) (hidle : s.pass = .idle)
    (h : fetch bd hash call s clock rounds = .returned result s' ops) :
    Reachable (system bd hash) s' ∧ s'.pass = .idle := by
  rw [fetch_eq] at h
  obtain ⟨hcontinues, hidle'⟩ := fetch_follows (host_follows bd hash) hs hidle h
  exact ⟨hs.continues hcontinues, hidle'⟩

end Server

end ServerRun

/-- With events in the queue, `poll_event` and `wait_event_timeout` return the front one at once
and touch nothing else, and `wait_event` never does: it returns the same event, but waits for
the socket first. -/
theorem fetch_at_once (bd : Build) (hash : Bytes → U64) :
    (∀ s event events, Reachable (ClientRun.system bd) s → s.core.events = event :: events →
      ∀ call clock rounds,
        (ClientRun.fetch bd call s clock rounds = .returned (some event) (s.take event events) [] ↔
          call ≠ .waitEvent) ∧
        ∀ result s' ops, ClientRun.fetch bd call s clock rounds = .returned result s' ops →
          result = some event) ∧
      ∀ s event events, Reachable (ServerRun.system bd hash) s → s.core.events = event :: events →
        ∀ call clock rounds,
          (ServerRun.fetch bd hash call s clock rounds =
              .returned (some event) (s.take event events) [] ↔
            call ≠ .waitEvent) ∧
          ∀ result s' ops, ServerRun.fetch bd hash call s clock rounds = .returned result s' ops →
            result = some event := by
  constructor
  · intro s event events hs hevents call clock rounds
    rw [ClientRun.fetch_eq]
    have hfront : (ClientRun.host bd).events s = event :: events := hevents
    exact ⟨fetch_atOnce_iff hfront call, fun result s' ops h =>
      fetch_front (ClientRun.host_follows bd) hs hfront h⟩
  · intro s event events hs hevents call clock rounds
    rw [ServerRun.fetch_eq]
    have hfront : (ServerRun.host bd hash).events s = event :: events := hevents
    exact ⟨fetch_atOnce_iff hfront call, fun result s' ops h =>
      fetch_front (ServerRun.host_follows bd hash) hs hfront h⟩

namespace ClientRun
open Client Wire

/-- A call whose socket delivers these frames, all of them at one time. -/
def sampleRound (frames : List Bytes) (nowMs : ℕ) : Round (Bytes × Reading) Reading :=
  ⟨frames.map fun frameBytes => (frameBytes, ⟨nowMs, fun _ => false⟩), ⟨nowMs, fun _ => false⟩,
    ⟨fromMillis nowMs, nowMs⟩⟩

/-- The answer of a server to the first request. -/
def sampleAlphaAck : Bytes := frameOf .handshakeAlphaAck (handshakeBytes localParams 7 9 0 0)

/-- The answer to the second request, and a packet that comes with it. -/
def sampleBatch : List Bytes :=
  [frameOf .handshakeBetaAck (LawfulBlock.encode (HandshakeBetaAckFrame.mk none 7)),
    frameOf .streamSegment (LawfulBlock.encode (StreamSegmentHeader.mk 0 false) ++
      encodeDatagram ⟨0, false, true, true, [5]⟩)]

/-- The event that a call has returned, and the state it has left. -/
def resultOf {σ ε : Type} : Outcome σ ε → Option (Option ε × σ)
  | .returned event s _ => some (event, s)
  | _ => none

lemma resultOf_eq_some {σ ε : Type} {outcome : Outcome σ ε} {event : Option ε} {s : σ}
    (h : resultOf outcome = some (event, s)) : ∃ ops, outcome = .returned event s ops := by
  cases outcome with
  | returned event' s' ops =>
    cases h
    exact ⟨ops, rfl⟩
  | waiting s' ops => cases h
  | aborted => cases h

/-- Two calls of `poll_event`: the first has nothing to return, the second returns that the
client is connected and leaves a packet in the queue. -/
lemma sampleQueue : ∃ s₀ s₁ s₂ ops₀ ops₁, Reachable (system .debug) s₀ ∧
    pollEvent .debug s₀ [sampleRound [sampleAlphaAck] 3] = .returned none s₁ ops₀ ∧
    pollEvent .debug s₁ [sampleRound sampleBatch 4] = .returned (some .connect) s₂ ops₁ ∧
    s₂.core.events = [.receive [5]] ∧ s₂.core.rtoTimer = none := by
  have hrun : (sampleStart.bind fun s₀ =>
      (resultOf (pollEvent .debug s₀ [sampleRound [sampleAlphaAck] 3])).bind fun r₁ =>
        (resultOf (pollEvent .debug r₁.2 [sampleRound sampleBatch 4])).map fun r₂ =>
          (r₁.1, r₂.1, r₂.2.core.events, r₂.2.core.rtoTimer)) =
      some (none, some .connect, [.receive [5]], none) := by decide +kernel
  obtain ⟨s₀, hstart, hrun⟩ := Option.bind_eq_some_iff.mp hrun
  obtain ⟨⟨event₁, s₁⟩, hfirst, hrun⟩ := Option.bind_eq_some_iff.mp hrun
  obtain ⟨⟨event₂, s₂⟩, hsecond, hrun⟩ := Option.map_eq_some_iff.mp hrun
  simp only [Prod.mk.injEq] at hrun
  obtain ⟨rfl, rfl, hevents, htimer⟩ := hrun
  obtain ⟨ops₀, hpoll₀⟩ := resultOf_eq_some hfirst
  obtain ⟨ops₁, hpoll₁⟩ := resultOf_eq_some hsecond
  exact ⟨s₀, s₁, s₂, ops₀, ops₁, sampleStart_reachable hstart, hpoll₀, hpoll₁, hevents, htimer⟩

/-- A client that is left with an event by `poll_event`, and with no timer set. -/
lemma waitEvent_queued : ∃ s₀ s ops,
    pollEvent .debug s₀ [sampleRound sampleBatch 4] = .returned (some .connect) s ops ∧
    Reachable (system .debug) s ∧ s.core.events = [.receive [5]] ∧ s.core.rtoTimer = none := by
  obtain ⟨s₀, s₁, s₂, ops₀, ops₁, hs, hpoll₀, hpoll₁, hevents, htimer⟩ := sampleQueue
  have hpoll : ∀ {s s' : State} {rounds : Rounds} {result : Option Event} {ops : List SocketOp},
      Reachable (system .debug) s → pollEvent .debug s rounds = .returned result s' ops →
        Reachable (system .debug) s' :=
    fun {s s' rounds result ops} hs h =>
      @fetch_reachable .debug s s' .pollEvent ⟨0, 0⟩ rounds result ops hs h
  exact ⟨s₁, s₂, ops₁, hpoll₁, hpoll (hpoll hs hpoll₀) hpoll₁, hevents, htimer⟩

/-- A client that is left with an event by `poll_event` has `wait_event` wait for a frame, and
since no timer is set it waits until one comes. -/
theorem waitEvent_ignores_queue : ∃ s₀ s ops,
    pollEvent .debug s₀ [sampleRound sampleBatch 4] = .returned (some .connect) s ops ∧
    Reachable (system .debug) s ∧ s.core.events = [.receive [5]] ∧
    waitEvent .debug s ⟨fromMillis 5, 5⟩ [] = .waiting s [.waitForFrame none] ∧
    fetch .debug .waitEvent s ⟨fromMillis 5, 5⟩ [] ≠
      .returned (some (.receive [5])) (s.take (.receive [5]) []) [] := by
  obtain ⟨s₀, s, ops, hpoll, hs, hevents, htimer⟩ := waitEvent_queued
  have hwait : waitEvent .debug s ⟨fromMillis 5, 5⟩ [] = .waiting s [.waitForFrame none] := by
    have hnone : (host .debug).nextTimerTimeout s 5 = none := by
      dsimp only [host, ClientCore.nextTimerTimeout]
      rw [htimer]
    exact congrArg (fun t => Outcome.waiting s [.waitForFrame t]) hnone
  refine ⟨s₀, s, ops, hpoll, hs, hevents, hwait, ?_⟩
  dsimp only [fetch]
  rw [hwait]
  intro hreturned
  cases hreturned

end ClientRun

theorem fetch_at_once_queued :
    (∃ s, Reachable (ClientRun.system .debug) s ∧ s.core.events = [.receive [5]] ∧
      ClientRun.fetch .debug (.waitEventTimeout 0) s ⟨0, 0⟩ [] =
        .returned (some (.receive [5])) (s.take (.receive [5]) []) []) ∧
      ∃ s, Reachable (ServerRun.system .debug ServerRun.sampleHash) s ∧
        s.core.events = [.connect 0] ∧
        ServerRun.fetch .debug ServerRun.sampleHash .pollEvent s ⟨0, 0⟩ [] =
          .returned (some (.connect 0)) (s.take (.connect 0) []) [] := by
  have hboth := fetch_at_once .debug ServerRun.sampleHash
  constructor
  · obtain ⟨s₀, s, ops, -, hs, hevents, -⟩ := ClientRun.waitEvent_queued
    exact ⟨s, hs, hevents,
      (hboth.1 s _ _ hs hevents (.waitEventTimeout 0) ⟨0, 0⟩ []).1.mpr (by simp)⟩
  · have hrun : ((ServerRun.sampleStart default).bind fun s =>
        (replay (ServerRun.next .debug ServerRun.sampleHash) s
          [ServerRun.sampleAlpha 100, ServerRun.sampleBeta 100 200]).map fun s =>
            s.core.events) = some [.connect 0] := by decide +kernel
    obtain ⟨s₀, hstart, hrun⟩ := Option.bind_eq_some_iff.mp hrun
    obtain ⟨s, hreplay, hevents⟩ := Option.map_eq_some_iff.mp hrun
    have hs := (ServerRun.sampleStart_reachable hstart).continues
      (replay_continues (fun _ _ _ => ServerRun.next_step) hreplay)
    exact ⟨s, hs, hevents, (hboth.2 s _ _ hs hevents .pollEvent ⟨0, 0⟩ []).1.mpr (by simp)⟩

end Redpine

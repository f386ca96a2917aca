import Redpine.Transition

/-! Calls that fetch one event from a queue, which the frames of a socket and timers fill. What
the socket answers, and what is read besides, are arguments; a call whose answers have run out
is still waiting for the socket. -/
namespace Redpine.EventLoop
open Transition

/-- A call on the socket; durations are in nanoseconds. -/
inductive SocketOp
  | tryReadFrame
  | waitForFrame (timeoutNs : Option ℕ)
  deriving DecidableEq, Repr

/-- `Duration::from_millis`. -/
def fromMillis (ms : ℕ) : ℕ := ms * 1000000

/-- The clocks that timeouts are measured with. -/
structure Clock where
  instantNs : ℕ
  nowMs : ℕ

/-- The frames that the socket delivers until it has none, what is read while the timers are
handled after them, and the clocks then. -/
structure Round (ι τ : Type) where
  frames : List ι
  timers : τ
  clock : Clock

/-- What the calls need. An operation that does not return is `none`. -/
structure Host (σ ι τ ε : Type) where
  events : σ → List ε
  take : σ → ε → List ε → σ
  handleFrame : σ → ι → Option σ
  handleTimeouts : σ → τ → Option σ
  nextTimerTimeout : σ → ℕ → Option ℕ

inductive Outcome (σ ε : Type)
  | returned (event : Option ε) (s : σ) (ops : List SocketOp)
  | waiting (s : σ) (ops : List SocketOp)
  | aborted

/-- The outcome of what is left to do once these operations have been done. -/
def Outcome.after {σ ε : Type} (ops : List SocketOp) : Outcome σ ε → Outcome σ ε
  | .returned event s more => .returned event s (ops ++ more)
  | .waiting s more => .waiting s (ops ++ more)
  | .aborted => .aborted

namespace Host
variable {σ ι τ ε : Type} (host : Host σ ι τ ε)

def popFront (s : σ) : Option ε × σ :=
  match host.events s with
  | [] => (none, s)
  | event :: events => (some event, host.take s event events)

/-- The call returns what is at the front of the queue. -/
def finish (s : σ) (ops : List SocketOp) : Outcome σ ε :=
  .returned (host.popFront s).1 (host.popFront s).2 ops

def handleFrames (s : σ) (frames : List ι) : Option σ := frames.foldlM host.handleFrame s

def handleFramesWait (s : σ) : List ι → Option σ
  | [] => some s
  | frame :: frames => do
      let s ← host.handleFrame s frame
      host.handleFrames s frames

/-- The operations of a round that begins with waiting. -/
def waitOps (timeoutNs : Option ℕ) (round : Round ι τ) : List SocketOp :=
  .waitForFrame timeoutNs :: List.replicate round.frames.length .tryReadFrame

/-- The operations of a round that does not wait. -/
def pollOps (round : Round ι τ) : List SocketOp :=
  List.replicate (round.frames.length + 1) .tryReadFrame

/-- The frames of a round after waiting, then the timers. -/
def waitRound (s : σ) (round : Round ι τ) : Option σ := do
  let s ← host.handleFramesWait s round.frames
  host.handleTimeouts s round.timers

def pollRound (s : σ) (round : Round ι τ) : Option σ := do
  let s ← host.handleFrames s round.frames
  host.handleTimeouts s round.timers

def pollEvent (s : σ) (rounds : List (Round ι τ)) : Outcome σ ε :=
  if (host.events s).isEmpty then
    match rounds with
    | [] => .waiting s [.tryReadFrame]
    | round :: _ =>
        match host.pollRound s round with
        | some s => host.finish s (pollOps round)
        | none => .aborted
  else host.finish s []

def waitEvent (s : σ) (clock : Clock) : List (Round ι τ) → Outcome σ ε
  | [] => .waiting s [.waitForFrame (host.nextTimerTimeout s clock.nowMs)]
  | round :: rounds =>
      match host.waitRound s round with
      | some s' => Outcome.after (waitOps (host.nextTimerTimeout s clock.nowMs) round)
          (if (host.events s').isEmpty then waitEvent s' round.clock rounds
          else host.finish s' [])
      | none => .aborted

/-- The shorter of two timeouts, of which the second may be missing. -/
def waitTimeout (remainingNs : ℕ) : Option ℕ → ℕ
  | some timerNs => min remainingNs timerNs
  | none => remainingNs

/-- The loop of `wait_event_timeout`, with its two variables. -/
def waitEventLoop (s : σ) (remainingNs waitBegin nowMs : ℕ) :
    List (Round ι τ) → Outcome σ ε
  | [] => .waiting s
      [.waitForFrame (some (waitTimeout remainingNs (host.nextTimerTimeout s nowMs)))]
  | round :: rounds =>
      match host.waitRound s round with
      | some s' =>
          let elapsed := round.clock.instantNs - waitBegin
          Outcome.after
            (waitOps (some (waitTimeout remainingNs (host.nextTimerTimeout s nowMs))) round)
            (if !(host.events s').isEmpty then host.finish s' []
            else if remainingNs ≤ elapsed then host.finish s' []
            else waitEventLoop s' (remainingNs - elapsed) round.clock.instantNs round.clock.nowMs
              rounds)
      | none => .aborted

def waitEventTimeout (s : σ) (timeoutNs : ℕ) (clock : Clock) (rounds : List (Round ι τ)) :
    Outcome σ ε :=
  if (host.events s).isEmpty then
    host.waitEventLoop s timeoutNs clock.instantNs clock.nowMs rounds
  else host.finish s []

end Host

/-- The ways to fetch an event. -/
inductive Fetch
  | pollEvent
  | waitEvent
  | waitEventTimeout (timeoutNs : ℕ)
  deriving DecidableEq, Repr

namespace Host
variable {σ ι τ ε : Type} (host : Host σ ι τ ε)

def fetch (call : Fetch) (s : σ) (clock : Clock) (rounds : List (Round ι τ)) : Outcome σ ε :=
  match call with
  | .pollEvent => host.pollEvent s rounds
  | .waitEvent => host.waitEvent s clock rounds
  | .waitEventTimeout timeoutNs => host.waitEventTimeout s timeoutNs clock rounds

/-- The operations of a host are steps of a system, and only append to its queue. `idle` tells
where a call on the host can begin. -/
structure Follows {α : Type} (M : System σ α) (idle : σ → Prop) : Prop where
  handleFrame : ∀ s frame s', Reachable M s → host.handleFrame s frame = some s' →
    Continues M s s' ∧ host.events s <+: host.events s'
  handleTimeouts : ∀ s timers s', Reachable M s → host.handleTimeouts s timers = some s' →
    Continues M s s' ∧ host.events s <+: host.events s' ∧ idle s'
  take : ∀ s event events, idle s → host.events s = event :: events →
    Continues M s (host.take s event events) ∧ idle (host.take s event events)

end Host

section AtOnce
variable {σ ι τ ε : Type} {host : Host σ ι τ ε} {s s' : σ} {event : ε} {events : List ε}
  {clock : Clock} {rounds : List (Round ι τ)} {ops : List SocketOp} {result : Option ε}

lemma finish_of_events (h : host.events s = event :: events) (ops : List SocketOp) :
    host.finish s ops = .returned (some event) (host.take s event events) ops := by
  simp only [Host.finish, Host.popFront, h]

lemma after_eq_returned {outcome : Outcome σ ε} {before : List SocketOp}
    (h : outcome.after before = .returned result s ops) :
    ∃ more, outcome = .returned result s more ∧ ops = before ++ more := by
  cases outcome with
  | returned result' s' more =>
    cases h
    exact ⟨more, rfl, rfl⟩
  | waiting s' more => cases h
  | aborted => cases h

/-- Whether its first frame is waited for makes no difference to what a round does. -/
lemma waitRound_eq (host : Host σ ι τ ε) (s : σ) (round : Round ι τ) :
    host.waitRound s round = host.pollRound s round := by
  unfold Host.waitRound Host.pollRound Host.handleFramesWait Host.handleFrames
  cases round.frames with
  | nil => rfl
  | cons frame frames => rw [List.foldlM_cons]

/-- What `wait_event` does in its first round, if it returns. -/
lemma waitEvent_returned (h : host.waitEvent s clock rounds = .returned result s' ops) :
    ∃ round later s₁ more, rounds = round :: later ∧ host.pollRound s round = some s₁ ∧
      ops = Host.waitOps (host.nextTimerTimeout s clock.nowMs) round ++ more ∧
      (if (host.events s₁).isEmpty then host.waitEvent s₁ round.clock later
        else host.finish s₁ []) = .returned result s' more := by
  cases rounds with
  | nil => cases h
  | cons round later =>
    unfold Host.waitEvent at h
    rw [waitRound_eq] at h
    cases hround : host.pollRound s round with
    | none =>
      rw [hround] at h
      cases h
    | some s₁ =>
      rw [hround] at h
      obtain ⟨more, hrest, hops⟩ := after_eq_returned h
      exact ⟨round, later, s₁, more, rfl, hround, hops, hrest⟩

/-- `wait_event` returns only after it has waited for a frame. -/
lemma waitEvent_waits (h : host.waitEvent s clock rounds = .returned result s' ops) :
    ∃ more, ops = .waitForFrame (host.nextTimerTimeout s clock.nowMs) :: more := by
  obtain ⟨round, later, s₁, more, -, -, rfl, -⟩ := waitEvent_returned h
  exact ⟨_, rfl⟩

/-- Two of the ways to fetch an event return the front of a queue at once, and the third waits
for the socket first. -/
theorem fetch_atOnce_iff (h : host.events s = event :: events) (call : Fetch) :
    host.fetch call s clock rounds = .returned (some event) (host.take s event events) [] ↔
      call ≠ .waitEvent := by
  have hsome : (host.events s).isEmpty = false := by rw [h, List.isEmpty_cons]
  have hfinish := finish_of_events h []
  cases call with
  | pollEvent =>
    simp only [Host.fetch, Host.pollEvent, hsome, Bool.false_eq_true, if_false, hfinish]
    simp
  | waitEvent =>
    simp only [Host.fetch, ne_eq, not_true_eq_false, iff_false]
    intro hreturn
    obtain ⟨more, hops⟩ := waitEvent_waits hreturn
    cases hops
  | waitEventTimeout timeoutNs =>
    simp only [Host.fetch, Host.waitEventTimeout, hsome, Bool.false_eq_true, if_false, hfinish]
    simp

end AtOnce

section Follows
variable {σ ι τ ε α : Type} {host : Host σ ι τ ε} {M : System σ α} {idle : σ → Prop} {s s' : σ}
  {event : ε} {events : List ε} {clock : Clock} {rounds : List (Round ι τ)} {round : Round ι τ}
  {ops : List SocketOp} {result : Option ε}

lemma handleFrames_follows (hlaw : host.Follows M idle) {frames : List ι} (hs : Reachable M s)
    (h : host.handleFrames s frames = some s') :
    Continues M s s' ∧ host.events s <+: host.events s' := by
  refine replay_invariant (motive := fun s₁ => Continues M s s₁ ∧ host.events s <+: host.events s₁) h
    ⟨.refl, List.prefix_refl _⟩ ?_
  rintro s₁ frame - s₂ ⟨hcontinues, hevents⟩ hframe
  obtain ⟨hcontinues', hevents'⟩ := hlaw.handleFrame s₁ frame s₂ (hs.continues hcontinues) hframe
  exact ⟨hcontinues.trans hcontinues', hevents.trans hevents'⟩

lemma pollRound_follows (hlaw : host.Follows M idle) (hs : Reachable M s)
    (h : host.pollRound s round = some s') :
    Continues M s s' ∧ host.events s <+: host.events s' ∧ idle s' := by
  unfold Host.pollRound at h
  rw [Option.bind_eq_bind, Option.bind_eq_some_iff] at h
  obtain ⟨s₁, hframes, htimers⟩ := h
  obtain ⟨hcontinues, hevents⟩ := handleFrames_follows hlaw hs hframes
  obtain ⟨hcontinues', hevents', hidle⟩ :=
    hlaw.handleTimeouts s₁ _ s' (hs.continues hcontinues) htimers
  exact ⟨hcontinues.trans hcontinues', hevents.trans hevents', hidle⟩

lemma finish_follows {before : List SocketOp} (hlaw : host.Follows M idle) (hidle : idle s)
    (h : host.finish s before = .returned result s' ops) : Continues M s s' ∧ idle s' := by
  unfold Host.finish Host.popFront at h
  cases hevents : host.events s with
  | nil =>
    rw [hevents] at h
    cases h
    exact ⟨.refl, hidle⟩
  | cons event events =>
    rw [hevents] at h
    cases h
    exact hlaw.take s event events hidle hevents

lemma waitEvent_follows (hlaw : host.Follows M idle) (hs : Reachable M s)
    (h : host.waitEvent s clock rounds = .returned result s' ops) : Continues M s s' ∧ idle s' := by
  induction rounds generalizing s clock ops with
  | nil => cases h
  | cons round rounds ih =>
    obtain ⟨_, _, s₁, more, heq, hround, -, hrest⟩ := waitEvent_returned h
    obtain ⟨rfl, rfl⟩ := List.cons.inj heq
    obtain ⟨hcontinues, -, hidle⟩ := pollRound_follows hlaw hs hround
    have hend : Continues M s₁ s' ∧ idle s' := by
      by_cases hempty : (host.events s₁).isEmpty = true
      · rw [if_pos hempty] at hrest
        exact ih (hs.continues hcontinues) hrest
      · rw [if_neg hempty] at hrest
        exact finish_follows hlaw hidle hrest
    exact ⟨hcontinues.trans hend.1, hend.2⟩

lemma waitEventLoop_follows {remainingNs waitBegin nowMs : ℕ} (hlaw : host.Follows M idle)
    (hs : Reachable M s)
    (h : host.waitEventLoop s remainingNs waitBegin nowMs rounds = .returned result s' ops) :
    Continues M s s' ∧ idle s' := by
  induction rounds generalizing s remainingNs waitBegin nowMs ops with
  | nil => cases h
  | cons round rounds ih =>
    unfold Host.waitEventLoop at h
    rw [waitRound_eq] at h
    cases hround : host.pollRound s round with
    | none =>
      rw [hround] at h
      cases h
    | some s₁ =>
      rw [hround] at h
      obtain ⟨hcontinues, -, hidle⟩ := pollRound_follows hlaw hs hround
      obtain ⟨more, hrest, -⟩ := after_eq_returned h
      have hend : Continues M s₁ s' ∧ idle s' := by
        split_ifs at hrest with hsome htime
        · exact finish_follows hlaw hidle hrest
        · exact finish_follows hlaw hidle hrest
        · exact ih (hs.continues hcontinues) hrest
      exact ⟨hcontinues.trans hend.1, hend.2⟩

/-- A call that fetches an event is a run of the system, and leaves it where the next call can
begin. -/
theorem fetch_follows (hlaw : host.Follows M idle) (hs : Reachable M s) (hidle : idle s)
    {call : Fetch} (h : host.fetch call s clock rounds = .returned result s' ops) :
    Continues M s s' ∧ idle s' := by
  cases call with
  | pollEvent =>
    dsimp only [Host.fetch, Host.pollEvent] at h
    by_cases hempty : (host.events s).isEmpty = true
    · rw [if_pos hempty] at h
      cases rounds with
      | nil => cases h
      | cons round rounds =>
        dsimp only at h
        cases hround : host.pollRound s round with
        | none =>
          rw [hround] at h
          cases h
        | some s₁ =>
          rw [hround] at h
          obtain ⟨hcontinues, -, hidle₁⟩ := pollRound_follows hlaw hs hround
          obtain ⟨hcontinues', hidle'⟩ := finish_follows hlaw hidle₁ h
          exact ⟨hcontinues.trans hcontinues', hidle'⟩
    · rw [if_neg hempty] at h
      exact finish_follows hlaw hidle h
  | waitEvent => exact waitEvent_follows hlaw hs h
  | waitEventTimeout timeoutNs =>
    dsimp only [Host.fetch, Host.waitEventTimeout] at h
    by_cases hempty : (host.events s).isEmpty = true
    · rw [if_pos hempty] at h
      exact waitEventLoop_follows hlaw hs h
    · rw [if_neg hempty] at h
      exact finish_follows hlaw hidle h

/-- Whichever way an event is fetched, it is the one at the front of the queue. -/
theorem fetch_front (hlaw : host.Follows M idle) (hs : Reachable M s)
    (hevents : host.events s = event :: events) {call : Fetch}
    (h : host.fetch call s clock rounds = .returned result s' ops) : result = some event := by
  by_cases hcall : call = .waitEvent
  · subst hcall
    obtain ⟨round, later, s₁, ops', -, hround, -, hrest⟩ := waitEvent_returned h
    obtain ⟨-, ⟨more, hmore⟩, -⟩ := pollRound_follows hlaw hs hround
    rw [hevents, List.cons_append] at hmore
    rw [← hmore, List.isEmpty_cons, if_neg Bool.false_ne_true,
      finish_of_events hmore.symm] at hrest
    cases hrest
    rfl
  · rw [(fetch_atOnce_iff hevents call).mpr hcall] at h
    cases h
    rfl

end Follows

end Redpine.EventLoop

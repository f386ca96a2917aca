import Redpine.Client
import Redpine.EndpointFrames
import Redpine.EndpointHost

/-! Two endpoints of one connection, joined by a network that may lose, duplicate, delay and
reorder their frames. Each host answers the calls of its endpoint, and may enqueue, flush and
disconnect at any time. -/
namespace Redpine.EndpointPair
open Machine Buffer Wire Endpoint Transition EndpointHost

inductive Side
  | a
  | b
  deriving DecidableEq

def Side.other : Side → Side
  | .a => .b
  | .b => .a

/-- An endpoint, the timer of its host, the calls that the endpoint has made, and the packets
that it has been given. -/
structure Party where
  endpoint : Endpoint
  timer : Option ℕ
  calls : List HostCall
  enqueued : List (Bytes × SendMode)

abbrev State := Side → Party

/-- The frames that a party has sent, in order. -/
def State.sent (s : State) (side : Side) : List Bytes := sentFrames (s side).calls

inductive Action
  | call (side : Side) (input : Input) (nowMs : ℕ) (nonces : ℕ → Bool)
  | deliver (side : Side) (frameBytes : Bytes) (nowMs : ℕ) (nonces : ℕ → Bool)
  | fire (side : Side) (nowMs : ℕ) (nonces : ℕ → Bool)

/-- What a user asks of an endpoint. -/
def IsRequest : Input → Prop
  | .enqueue _ _ | .flush | .disconnect => True
  | _ => False

def enqueuedBy : Input → List (Bytes × SendMode)
  | .enqueue packetBytes mode => [(packetBytes, mode)]
  | _ => []

/-- The party after a call, when its timer was in a state. -/
def Party.after (p : Party) (timer : Option ℕ) (input : Input) (e : Endpoint)
    (calls : List HostCall) : Party :=
  ⟨e, timerCalls timer calls, p.calls ++ calls, p.enqueued ++ enqueuedBy input⟩

/-- Both endpoints have been initialized. -/
def Initial (bd : Build) (s : State) : Prop :=
  ∀ side, ∃ (config : Endpoint.Config) (e₀ e : Endpoint) (calls : List HostCall),
    config.Accepted bd ∧ Endpoint.new config = .ok e₀ ∧ e₀.init bd = .ok (e, calls) ∧
      s side = ⟨e, none, calls, []⟩

inductive Step (bd : Build) (s : State) : Action → State → Prop
  | call {side : Side} {input : Input} {nowMs : ℕ} {nonces : ℕ → Bool} {e : Endpoint}
      {calls : List HostCall} (hinput : IsRequest input)
      (h : (s side).endpoint.perform bd nonces input nowMs = .ok (e, calls)) :
      Step bd s (.call side input nowMs nonces)
        (Function.update s side ((s side).after (s side).timer input e calls))
  | deliver {side : Side} {frameBytes payloadBytes : Bytes} {frameType : FrameType} {nowMs : ℕ}
      {nonces : ℕ → Bool} {e : Endpoint} {calls : List HostCall}
      (hsent : .sendFrame frameBytes ∈ (s side.other).calls)
      (htype : readType bd frameBytes = .ok (some frameType))
      (hpayload : payload bd frameBytes = .ok payloadBytes)
      (h : (s side).endpoint.perform bd nonces (.frame frameType payloadBytes) nowMs =
        .ok (e, calls)) :
      Step bd s (.deliver side frameBytes nowMs nonces)
        (Function.update s side
          ((s side).after (s side).timer (.frame frameType payloadBytes) e calls))
  | fire {side : Side} {timeMs nowMs : ℕ} {nonces : ℕ → Bool} {e : Endpoint}
      {calls : List HostCall} (htimer : (s side).timer = some timeMs)
      (h : (s side).endpoint.perform bd nonces .rtoTimer nowMs = .ok (e, calls)) :
      Step bd s (.fire side nowMs nonces)
        (Function.update s side ((s side).after none .rtoTimer e calls))

def system (bd : Build) : System State Action := ⟨Initial bd, Step bd⟩

instance (input : Input) : Decidable (IsRequest input) :=
  match input with
  | .enqueue _ _ | .flush | .disconnect => .isTrue trivial
  | .init | .frame _ _ | .rtoTimer => .isFalse id

/-- The state after a call, if it returns. -/
def State.perform (bd : Build) (s : State) (side : Side) (timer : Option ℕ) (input : Input)
    (nowMs : ℕ) (nonces : ℕ → Bool) : Option State :=
  match (s side).endpoint.perform bd nonces input nowMs with
  | .ok (e, calls) => some (Function.update s side ((s side).after timer input e calls))
  | .error _ => none

/-- The step that an action leads to, if it can be taken and returns. -/
def next (bd : Build) (s : State) : Action → Option State
  | .call side input nowMs nonces =>
      if IsRequest input then s.perform bd side (s side).timer input nowMs nonces else none
  | .deliver side frameBytes nowMs nonces =>
      if .sendFrame frameBytes ∈ (s side.other).calls then
        match readType bd frameBytes, payload bd frameBytes with
        | .ok (some frameType), .ok payloadBytes =>
            s.perform bd side (s side).timer (.frame frameType payloadBytes) nowMs nonces
        | _, _ => none
      else none
  | .fire side nowMs nonces =>
      if (s side).timer.isSome then s.perform bd side none .rtoTimer nowMs nonces else none

section Next
variable {bd : Build} {s s' : State} {a : Action}

lemma perform_eq_some {side : Side} {timer : Option ℕ} {input : Input} {nowMs : ℕ}
    {nonces : ℕ → Bool} (h : s.perform bd side timer input nowMs nonces = some s') :
    ∃ e calls, (s side).endpoint.perform bd nonces input nowMs = .ok (e, calls) ∧
      s' = Function.update s side ((s side).after timer input e calls) := by
  unfold State.perform at h
  cases hok : (s side).endpoint.perform bd nonces input nowMs with
  | error e =>
    rw [hok] at h
    cases h
  | ok r =>
    rw [hok] at h
    cases h
    exact ⟨r.1, r.2, rfl, rfl⟩

lemma next_step (h : next bd s a = some s') : Step bd s a s' := by
  cases a with
  | call side input nowMs nonces =>
    dsimp only [next] at h
    by_cases hinput : IsRequest input
    · rw [if_pos hinput] at h
      obtain ⟨e, calls, hok, rfl⟩ := perform_eq_some h
      exact .call hinput hok
    · rw [if_neg hinput] at h
      cases h
  | deliver side frameBytes nowMs nonces =>
    dsimp only [next] at h
    by_cases hsent : .sendFrame frameBytes ∈ (s side.other).calls
    · rw [if_pos hsent] at h
      cases htype : readType bd frameBytes with
      | error e => simp [htype] at h
      | ok frameType =>
        cases hpayload : payload bd frameBytes with
        | error e => simp [htype, hpayload] at h
        | ok payloadBytes =>
          cases frameType with
          | none => simp [htype, hpayload] at h
          | some frameType =>
            rw [htype, hpayload] at h
            obtain ⟨e, calls, hok, rfl⟩ := perform_eq_some h
            exact .deliver hsent htype hpayload hok
    · rw [if_neg hsent] at h
      cases h
  | fire side nowMs nonces =>
    dsimp only [next] at h
    by_cases htimer : (s side).timer.isSome = true
    · rw [if_pos htimer] at h
      obtain ⟨e, calls, hok, rfl⟩ := perform_eq_some h
      obtain ⟨timeMs, htime⟩ := Option.isSome_iff_exists.mp htimer
      exact .fire htime hok
    · rw [if_neg htimer] at h
      cases h

end Next

/-- What holds of a party whatever it receives. -/
structure PartyInv (bd : Build) (p : Party) (v : SenderView) : Prop where
  sender : p.endpoint.Sender bd False 0 v
  timers : Timers p.endpoint p.timer v
  ne_preInit : p.endpoint.stateId ≠ .preInit

/-- What a step does: one of the parties makes a call. -/
inductive Change (bd : Build) (s : State) : Action → State → Prop
  | mk {action : Action} {side : Side} {input : Input} {nowMs : ℕ} {timer : Option ℕ}
      {e : Endpoint} {calls : List HostCall}
      (hinit : input ≠ .init)
      (heffect : Effect bd nowMs (s side).endpoint input calls e)
      (hframe : ∀ frameType payloadBytes, input = .frame frameType payloadBytes →
        ∃ frameBytes, .sendFrame frameBytes ∈ (s side.other).calls ∧
          readType bd frameBytes = .ok (some frameType) ∧
          payload bd frameBytes = .ok payloadBytes)
      (hparty : ∃ v, PartyInv bd ((s side).after timer input e calls) v) :
      Change bd s action (Function.update s side ((s side).after timer input e calls))

section Invariant
variable {bd : Build} {s s' : State} {a : Action} {side : Side}

lemma other_ne (side : Side) : side.other ≠ side := by cases side <;> simp [Side.other]

@[simp] lemma other_other (side : Side) : side.other.other = side := by cases side <;> rfl

lemma eq_or_other (side x : Side) : x = side ∨ x = side.other := by
  cases side <;> cases x <;> simp [Side.other]

lemma party_initial (h : Initial bd s) (side : Side) : ∃ v, PartyInv bd (s side) v := by
  obtain ⟨config, e₀, e, calls, hconfig, hnew, hinit, hs⟩ := h side
  obtain ⟨_, -, hinit⟩ := bind_eq_ok.mp hinit
  cases hinit
  have hsender := new_sender bd False 0 hconfig hnew
  have hfresh := new_fresh hnew
  rw [hs]
  refine ⟨_, ⟨hsender.1, hsender.2, hsender.3, hsender.4, hsender.5, hsender.6⟩,
    .of_armed rfl ⟨?_, ?_⟩, by simp⟩
  · exact congrArg Option.isSome hfresh.rtoTimerState_eq.symm
  · simp [hfresh.rtoTimerState_eq]

lemma IsRequest.allowed {input : Input} (h : IsRequest input) (e : Endpoint) :
    Allowed e input ∧ input ≠ .init := by
  cases input with
  | init => exact h.elim
  | rtoTimer => exact h.elim
  | _ => exact ⟨trivial, by simp⟩

lemma IsRequest.ne_frame {input : Input} (h : IsRequest input) (frameType : FrameType)
    (payloadBytes : Bytes) : input ≠ .frame frameType payloadBytes := by
  rintro rfl
  exact h

/-- A call other than the firing of the timer. -/
lemma party_call {p : Party} {v : SenderView} {input : Input} {nowMs : ℕ} {nonces : ℕ → Bool}
    {e : Endpoint} {calls : List HostCall} (h : PartyInv bd p v) (hallowed : Allowed p.endpoint input)
    (hok : p.endpoint.perform bd nonces input nowMs = .ok (e, calls)) :
    Effect bd nowMs p.endpoint input calls e ∧
      ∃ v', PartyInv bd (p.after p.timer input e calls) v' := by
  have hsender : p.endpoint.Sender bd False nowMs v := h.sender.later False.elim
  have heffect := hsender.perform False.elim hok
  obtain ⟨v', hsender', htimers'⟩ := h.timers.call heffect hsender hallowed
  exact ⟨heffect, v', hsender'.later False.elim, htimers', heffect.outline.ne_preInit h.ne_preInit⟩

lemma party_fire {p : Party} {v : SenderView} {timeMs nowMs : ℕ} {nonces : ℕ → Bool}
    {e : Endpoint} {calls : List HostCall} (h : PartyInv bd p v) (htimer : p.timer = some timeMs)
    (hok : p.endpoint.perform bd nonces .rtoTimer nowMs = .ok (e, calls)) :
    Effect bd nowMs p.endpoint .rtoTimer calls e ∧
      ∃ v', PartyInv bd (p.after none .rtoTimer e calls) v' := by
  have hsender : p.endpoint.Sender bd False nowMs v := h.sender.later False.elim
  have heffect := hsender.perform False.elim hok
  have htimers := h.timers
  rw [htimer] at htimers
  obtain ⟨v', hsender', htimers'⟩ := htimers.fire heffect hsender
  exact ⟨heffect, v', hsender'.later False.elim, htimers', heffect.outline.ne_preInit h.ne_preInit⟩

/-- Every step is a call of one party. -/
theorem Step.change (hparties : ∀ side, ∃ v, PartyInv bd (s side) v) (h : Step bd s a s') :
    Change bd s a s' := by
  cases h with
  | @call side input nowMs nonces e calls hinput hok =>
    obtain ⟨v, hparty⟩ := hparties side
    obtain ⟨hallowed, hinit⟩ := hinput.allowed (s side).endpoint
    obtain ⟨heffect, hparty'⟩ := party_call hparty hallowed hok
    exact .mk hinit heffect (fun frameType payloadBytes hframe =>
      absurd hframe (hinput.ne_frame frameType payloadBytes)) hparty'
  | @deliver side frameBytes payloadBytes frameType nowMs nonces e calls hsent htype hpayload hok =>
    obtain ⟨v, hparty⟩ := hparties side
    have hallowed : Allowed (s side).endpoint (.frame frameType payloadBytes) := trivial
    obtain ⟨heffect, hparty'⟩ := party_call hparty hallowed hok
    refine .mk (by simp) heffect (fun frameType' payloadBytes' hframe => ?_) hparty'
    cases hframe
    exact ⟨frameBytes, hsent, htype, hpayload⟩
  | @fire side timeMs nowMs nonces e calls htimer hok =>
    obtain ⟨v, hparty⟩ := hparties side
    obtain ⟨heffect, hparty'⟩ := party_fire hparty htimer hok
    exact .mk (by simp) heffect (fun frameType payloadBytes hframe => nomatch hframe) hparty'

theorem party_reachable (hs : Reachable (system bd) s) : ∀ side, ∃ v, PartyInv bd (s side) v := by
  have hrule := @Reachable.invariant _ _ (system bd) fun s => ∀ side, ∃ v, PartyInv bd (s side) v
  refine hrule (fun s h => party_initial h) (fun s a s' h hstep x => ?_) hs
  cases Step.change h hstep with
  | @mk side input nowMs timer e calls hinit heffect hframe hparty =>
    by_cases hx : x = side
    · subst hx
      rw [Function.update_self]
      exact hparty
    · rw [Function.update_of_ne hx]
      exact h x

lemma change_of_reachable (hs : Reachable (system bd) s) (h : Step bd s a s') :
    Change bd s a s' := Step.change (party_reachable hs) h

end Invariant

section Sample

/-- Two endpoints of equal weights that have been initialized. -/
def sampleStart : Option State :=
  (Endpoint.new (sampleConfig 10000)).toOption.bind fun e =>
    (e.init .debug).toOption.map fun r _ => ⟨r.1, none, r.2, []⟩

lemma sampleStart_reachable {s : State} (h : sampleStart = some s) :
    Reachable (system .debug) s := by
  simp only [sampleStart, Option.bind_eq_some_iff, toOption_eq_some, toOption_map_eq_some] at h
  obtain ⟨e, hnew, r, hinit, rfl⟩ := h
  exact .init fun side => ⟨_, e, r.1, r.2, sampleConfig_accepted .debug 10000, hnew, hinit, rfl⟩

/-- Actions that are chosen from the state they are taken in. -/
def play (bd : Build) (s : State) (moves : List (State → Option Action)) : Option State :=
  moves.foldlM (fun s move => (move s).bind (next bd s)) s

lemma play_reachable {bd : Build} {moves : List (State → Option Action)} {s s' : State}
    (hs : Reachable (system bd) s) (h : play bd s moves = some s') :
    Reachable (system bd) s' := by
  refine replay_invariant h hs fun s₁ move _ s₂ hs₁ hmove => ?_
  obtain ⟨a, -, hnext⟩ := Option.bind_eq_some_iff.mp hmove
  exact hs₁.step (next_step hnext)

lemma sampleStart_play {moves : List (State → Option Action)} {s : State}
    (h : (sampleStart.bind fun s => play .debug s moves) = some s) :
    Reachable (system .debug) s := by
  obtain ⟨s₀, hstart, hplay⟩ := Option.bind_eq_some_iff.mp h
  exact play_reachable (sampleStart_reachable hstart) hplay

end Sample

end Redpine.EndpointPair

import Redpine.EndpointTimeout
import Redpine.EndpointSession

/-! How long an endpoint lives. The timeouts that it adds up have all passed, so it does not end
before the configured time has passed since it was created, nor before the time for which a
closed endpoint lingers. -/
namespace Redpine.EndpointLife
open Machine Buffer Wire Endpoint EndpointTimeout

/-- The timer that runs was set to the current timeout. -/
def TimerMatches (e : Endpoint) : Prop :=
  ∀ timer, e.rtoTimerState = some timer → timer.rtoMs = e.rtoMs

section Matches
variable {bd : Build} {e e' : Endpoint} {nowMs : ℕ} {calls : List HostCall} {input : Input}

lemma TimerMatches.flush {ackRel sendAck : Bool} (h : TimerMatches e)
    (hs : FlushRun bd ackRel nowMs sendAck e calls e') : TimerMatches e' := by
  induction hs with
  | stop hdata => exact h
  | ack hdata rest ih => exact ih h
  | @segment _ _ e₀ e₁ _ _ timerCalls _ hdata hstep rest ih =>
    apply ih
    intro timer htimer
    have harm := hstep.timer
    have hrto : e₁.rtoMs = e₀.rtoMs := hstep.rtoMs_eq
    rw [htimer] at harm
    generalize hbefore : (e₀.expire nowMs).rtoTimerState = before at harm
    cases harm with
    | set htime => exact hrto.symm
    | running timer => exact (h timer hbefore).trans hrto.symm

lemma ackStep_matches {ack : StreamAck} (hs : AckStep bd nowMs e ack e' calls) :
    TimerMatches e' := by
  intro timer htimer
  have hack := hs.timer
  rw [htimer] at hack
  generalize e.rtoTimerState = before at hack
  cases hack with
  | expecting timer hid htime => rfl

lemma TimerMatches.effect (h : TimerMatches e) (hs : Effect bd nowMs e input calls e') :
    TimerMatches e' := by
  cases hs with
  | flush hs hflush => exact h.flush hflush
  | stream hs hrun =>
    cases hrun with
    | truncated hparts hack => exact h
    | @run _ _ e₁ _ _ r d _ _ hparts hack hdata hflush =>
      have h₁ : TimerMatches e₁ := by
        cases hack with
        | absent => exact h
        | ack hread hstep => exact ackStep_matches hstep
      cases hdata with
      | absent => exact h₁.flush hflush
      | @segment _ _ _ segmentRx _ d hread hbytes hreceive hdelivery =>
        have h₂ : TimerMatches (e₁.withDelivery segmentRx d) := h₁
        exact h₂.flush hflush
  | sync hs hrun =>
    cases hrun with
    | truncated => exact h
    | @run _ _ segmentRx _ d _ _ hread hsync hdelivery hflush =>
      have h₁ : TimerMatches
          (e.withDelivery segmentRx { d with unreliableRx := d.unreliableRx.reset }) := h
      exact h₁.flush hflush
  | disconnect hs htime =>
    rintro timer ⟨⟩
    rfl
  | close hs hvalid htime => exact fun timer htimer => nomatch htimer
  | closeAck hs hvalid htime => exact fun timer htimer => nomatch htimer
  | @timeout timer _ hs htimer hsum htimeout =>
    rintro timer' ⟨⟩
    exact h timer htimer
  | @resend _ rtoMs rtoSumMs _ ccState _ _ hs htimer hback hcc hflush =>
    have h₁ : TimerMatches ((e.rearmed rtoMs rtoSumMs).resending ccState) := by
      rintro timer ⟨⟩
      rfl
    exact h₁.flush hflush
  | resendClose hs htimer hback =>
    rintro timer ⟨⟩
    rfl
  | _ => exact h

end Matches

/-- What holds of an endpoint that was created at a time, and whose timer is not handled before
the earliest time given, if it is handled at all: its timeouts have passed by then. -/
inductive Life (lifeMs createdMs : ℕ) (e : Endpoint) (earliestMs : Option ℕ) (nowMs : ℕ) : Prop
  | running {timer : RtoTimerState} (hs : e.stateId = .active ∨ e.stateId = .closing)
      (htimer : e.rtoTimerState = some timer) (hmatches : TimerMatches e)
      (hearliest : ∀ t, earliestMs = some t → createdMs + timer.rtoSumMs + timer.rtoMs ≤ t)
  | idle (hs : e.stateId = .active) (htimer : e.rtoTimerState = none)
  | closed (hs : e.stateId = .closed)
      (hearliest : ∀ t, earliestMs = some t → createdMs + disconnectTimeoutMs ≤ t)
  | zombie (hs : e.stateId = .zombie) (hpassed : createdMs + lifeMs ≤ nowMs)

section Life
variable {bd : Build} {lifeMs createdMs nowMs nowMs' : ℕ} {e e' : Endpoint}
  {earliestMs : Option ℕ} {calls : List HostCall} {input : Input} {v : SenderView}

lemma Life.later (h : Life lifeMs createdMs e earliestMs nowMs) (hclock : nowMs ≤ nowMs') :
    Life lifeMs createdMs e earliestMs nowMs' := by
  cases h with
  | running hs htimer hmatches hearliest => exact .running hs htimer hmatches hearliest
  | idle hs htimer => exact .idle hs htimer
  | closed hs hearliest => exact .closed hs hearliest
  | zombie hs hpassed => exact .zombie hs (hpassed.trans hclock)

/-- A timer that is handled no earlier than before. -/
lemma Life.postpone {earliestMs' : Option ℕ} (h : Life lifeMs createdMs e earliestMs nowMs)
    (hle : ∀ t, earliestMs' = some t → ∃ t', earliestMs = some t' ∧ t' ≤ t) :
    Life lifeMs createdMs e earliestMs' nowMs := by
  cases h with
  | running hs htimer hmatches hearliest =>
    refine .running hs htimer hmatches fun t ht => ?_
    obtain ⟨t', ht', hle⟩ := hle t ht
    exact (hearliest t' ht').trans hle
  | idle hs htimer => exact .idle hs htimer
  | closed hs hearliest =>
    refine .closed hs fun t ht => ?_
    obtain ⟨t', ht', hle⟩ := hle t ht
    exact (hearliest t' ht').trans hle
  | zombie hs hpassed => exact .zombie hs hpassed

lemma Life.matches_of_active (h : Life lifeMs createdMs e earliestMs nowMs)
    (hs : e.stateId = .active) : TimerMatches e := by
  cases h with
  | running _ htimer hmatches hearliest => exact hmatches
  | idle _ htimer =>
    intro timer htimer'
    cases htimer.symm.trans htimer'
  | closed hs' hearliest => cases hs.symm.trans hs'
  | zombie hs' hpassed => cases hs.symm.trans hs'

/-- A timeout that starts now has passed when its deadline is reached. -/
lemma timeMs_eq {rtoMs timeMs : ℕ} (h : checkedAdd bd 64 nowMs rtoMs = .ok timeMs)
    (hrto : rtoMs ≤ rtoMaxMs) (hclock : bd = .release → nowMs < 2 ^ 63) :
    timeMs = nowMs + rtoMs := by
  refine checkedAdd_eq h fun hbd => ?_
  have hlt := hclock hbd
  rw [rtoMaxMs] at hrto
  omega

/-- A call that keeps an active endpoint active. -/
lemma Life.change {acked : Prop} {deadlineMs : Option ℕ}
    (h : Life lifeMs createdMs e earliestMs nowMs) (hs : e.stateId = .active)
    (hs' : e'.stateId = .active) (hmatches : TimerMatches e') (hcreated : createdMs ≤ nowMs')
    (hclock : bd = .release → nowMs' < 2 ^ 63)
    (hchange : TimerChange bd nowMs' acked e.rtoTimerState earliestMs e'.rtoTimerState
      deadlineMs) : Life lifeMs createdMs e' deadlineMs nowMs' := by
  generalize hbefore : e.rtoTimerState = before at hchange
  generalize hafter : e'.rtoTimerState = after at hchange
  cases hchange with
  | kept hacked =>
    cases h with
    | running _ htimer _ hearliest =>
      exact .running (.inl hs') (hafter.trans (hbefore.symm.trans htimer)) hmatches hearliest
    | idle _ htimer => exact .idle hs' (hafter.trans (hbefore.symm.trans htimer))
    | closed hs₁ hearliest => cases hs.symm.trans hs₁
    | zombie hs₁ hpassed => cases hs.symm.trans hs₁
  | stopped => exact .idle hs' hafter
  | started hstart hrto htime =>
    refine .running (.inl hs') hafter hmatches fun t ht => ?_
    cases ht
    rw [timeMs_eq htime hrto hclock]
    dsimp only
    omega

/-- A call other than the firing of the timer. -/
lemma Life.call (h : Life lifeMs createdMs e earliestMs nowMs)
    (heffect : Effect bd nowMs' e input calls e') (hsender : e.Sender bd False nowMs' v)
    (hinit : input ≠ .init) (hinput : input ≠ .rtoTimer) (hnow : nowMs ≤ nowMs')
    (hcreated : createdMs ≤ nowMs') (hclock : bd = .release → nowMs' < 2 ^ 63) :
    Life lifeMs createdMs e' (deadlineCalls earliestMs calls) nowMs' := by
  have hactive : e.stateId = .active → TimerMatches e' :=
    fun hs => (h.matches_of_active hs).effect heffect
  cases heffect with
  | init hs => exact absurd rfl hinit
  | enqueue hs hqueue => exact h.change hs hs (hactive hs) hcreated hclock (.kept False.elim)
  | enqueueIgnored hs => exact h.later hnow
  | flush hs hflush =>
    exact h.change hs (hflush.sendOnly.stateId_eq.trans hs) (hactive hs) hcreated hclock
      (flushRun_change hflush hsender.rto_le False.elim earliestMs)
  | flushIgnored hs => exact h.later hnow
  | disconnect hs htime =>
    refine .running (.inr rfl) rfl (hactive hs) fun t ht => ?_
    cases ht
    rw [timeMs_eq htime hsender.rto_le hclock]
    dsimp only
    omega
  | disconnectIgnored hs => exact h.later hnow
  | stream hs hrun =>
    exact h.change hs (hrun.session.stateId_eq.trans hs) (hactive hs) hcreated hclock
      (streamRun_change hrun hsender earliestMs)
  | sync hs hrun =>
    exact h.change hs (hrun.session.stateId_eq.trans hs) (hactive hs) hcreated hclock
      (syncRun_change hrun hsender earliestMs)
  | close hs hvalid htime =>
    refine .closed rfl fun t ht => ?_
    cases ht
    rw [timeMs_eq htime (by decide) hclock]
    omega
  | closeAck hs hvalid htime =>
    refine .closed rfl fun t ht => ?_
    cases ht
    rw [timeMs_eq htime (by decide) hclock]
    omega
  | closeAgain hs hvalid => exact h.later hnow
  | frameIgnored hs => exact h.later hnow
  | _ => exact absurd rfl hinput

/-- The timer is handled. -/
lemma Life.fire {timeMs : ℕ} (h : Life lifeMs createdMs e (some timeMs) nowMs)
    (heffect : Effect bd nowMs' e .rtoTimer calls e') (hpassed : timeMs ≤ nowMs')
    (hnow : nowMs ≤ nowMs') (hlife : lifeMs ≤ e.config.timeoutTimeMs)
    (hlinger : lifeMs ≤ disconnectTimeoutMs) (hclock : bd = .release → nowMs' < 2 ^ 63)
    (deadlineMs : Option ℕ) :
    Life lifeMs createdMs e' (deadlineCalls deadlineMs calls) nowMs' := by
  cases h with
  | @running timer hs htimer hmatches hearliest =>
    have hearliest := hearliest timeMs rfl
    have hmatches' := hmatches.effect heffect
    cases heffect with
    | timeout hs' htimer' hsum htimeout =>
      cases htimer.symm.trans htimer'
      have hle := checkedAdd_le hsum
      exact .zombie rfl (by omega)
    | @resend _ rtoMs rtoSumMs time ccState rest _ hs' htimer' hback hcc hflush =>
      cases htimer.symm.trans htimer'
      have hle := checkedAdd_le hback.sum
      have hrearmed : ((e.rearmed rtoMs rtoSumMs).resending ccState).rtoTimerState =
          some ⟨rtoMs, rtoSumMs⟩ := rfl
      obtain ⟨hsame, hdeadline⟩ := flushRun_running hflush hrearmed
        (deadlineCalls deadlineMs [.setRtoTimer time, .sendFrame (syncFrame e.segmentTx.nextId)])
      refine .running (.inl (hflush.sendOnly.stateId_eq.trans hs')) hsame hmatches' fun t ht => ?_
      cases hdeadline.symm.trans ht
      rw [timeMs_eq hback.time hback.rto_le hclock]
      dsimp only
      omega
    | resendClose hs' htimer' hback =>
      cases htimer.symm.trans htimer'
      have hle := checkedAdd_le hback.sum
      refine .running (.inr hs') rfl hmatches' fun t ht => ?_
      cases ht
      rw [timeMs_eq hback.time hback.rto_le hclock]
      dsimp only
      omega
    | destroyed hs' => simp [hs'] at hs
    | timerIgnored hs' => rcases hs' with hs' | hs' <;> simp [hs'] at hs
  | idle hs htimer =>
    cases heffect with
    | timeout hs' htimer' hsum htimeout => cases htimer.symm.trans htimer'
    | resend hs' htimer' hback hcc hflush => cases htimer.symm.trans htimer'
    | resendClose hs' htimer' hback => cases htimer.symm.trans htimer'
    | destroyed hs' => cases hs.symm.trans hs'
    | timerIgnored hs' => rcases hs' with hs' | hs' <;> cases hs.symm.trans hs'
  | closed hs hearliest =>
    have hearliest := hearliest timeMs rfl
    cases heffect with
    | destroyed hs' => exact .zombie rfl (by omega)
    | timeout hs' htimer' hsum htimeout => simp [hs] at hs'
    | resend hs' htimer' hback hcc hflush => cases hs.symm.trans hs'
    | resendClose hs' htimer' hback => cases hs.symm.trans hs'
    | timerIgnored hs' => rcases hs' with hs' | hs' <;> cases hs.symm.trans hs'
  | zombie hs hpassed' =>
    have houtline := (heffect.outline.zombie hs (by simp)).1
    exact .zombie houtline (hpassed'.trans hnow)

/-- A user calls the endpoint while its timer has expired and is about to be handled. -/
lemma Life.held {timeMs : ℕ} (h : Life lifeMs createdMs e (some timeMs) nowMs)
    (heffect : Effect bd nowMs' e input calls e') (hinit : input ≠ .init)
    (hinput : input ≠ .rtoTimer) (hframe : ∀ frameType payloadBytes,
      input ≠ .frame frameType payloadBytes)
    (hnow : nowMs ≤ nowMs') (hrunning : e.stateId = .active → e.rtoTimerState.isSome = true) :
    Life lifeMs createdMs e' (some timeMs) nowMs' := by
  cases h with
  | @running timer hs htimer hmatches hearliest =>
    have hmatches' := hmatches.effect heffect
    have hearliest' := hearliest timeMs rfl
    cases heffect with
    | enqueue hs' hqueue => exact .running hs htimer hmatches' hearliest
    | enqueueIgnored hs' => exact .running hs htimer hmatches hearliest
    | flush hs' hflush =>
      exact .running (.inl (hflush.sendOnly.stateId_eq.trans hs'))
        (flushRun_running hflush htimer none).1 hmatches' hearliest
    | flushIgnored hs' => exact .running hs htimer hmatches hearliest
    | disconnect hs' htime =>
      refine .running (.inr rfl) rfl hmatches' fun t ht => ?_
      cases ht
      rw [← hmatches timer htimer]
      dsimp only
      omega
    | disconnectIgnored hs' => exact .running hs htimer hmatches hearliest
    | init hs' => exact absurd rfl hinit
    | _ => first
      | exact absurd rfl hinput
      | exact absurd rfl (hframe _ _)
  | idle hs htimer =>
    have hsome := hrunning hs
    rw [htimer] at hsome
    cases hsome
  | closed hs hearliest =>
    have hsame : e' = e := by
      cases heffect with
      | enqueue hs' hqueue => cases hs.symm.trans hs'
      | flush hs' hflush => cases hs.symm.trans hs'
      | disconnect hs' htime => cases hs.symm.trans hs'
      | init hs' => exact absurd rfl hinit
      | _ => first
        | rfl
        | exact absurd rfl hinput
        | exact absurd rfl (hframe _ _)
    rw [hsame]
    exact .closed hs hearliest
  | zombie hs hpassed =>
    exact .zombie (heffect.outline.zombie hs hinit).1 (hpassed.trans hnow)

end Life

end Redpine.EndpointLife

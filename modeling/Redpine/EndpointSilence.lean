import Redpine.EndpointHost
import Redpine.EndpointSession
import Redpine.EndpointTimeout

/-! No endless silence. The timeout of an endpoint stays within its bounds, so each timer that
fires in vain adds at least a second to the sum of the timeouts; an endpoint that waits for its
peer therefore gives up in time, if its host serves its timer in time. -/
namespace Redpine.EndpointTimeout
open Machine Buffer Wire Endpoint Transition

/-- The timeout is neither too short nor too long, and so is the one that runs. -/
structure RtoBounded (e : Endpoint) : Prop where
  rto : rtoMinMs ≤ e.rtoMs ∧ e.rtoMs ≤ rtoMaxMs
  timer : ∀ timer, e.rtoTimerState = some timer → rtoMinMs ≤ timer.rtoMs ∧ timer.rtoMs ≤ rtoMaxMs

/-- The timeout is kept, or measured anew. -/
def RtoKept (e e' : Endpoint) : Prop := e'.rtoMs = e.rtoMs ∨ rtoMinMs ≤ e'.rtoMs

section Rto
variable {bd : Build} {e e' : Endpoint} {nowMs : ℕ} {v : SenderView} {calls : List HostCall}
  {nonces : ℕ → Bool}

lemma RtoKept.trans {e'' : Endpoint} (h : RtoKept e e') (h' : RtoKept e' e'') :
    RtoKept e e'' := by
  rcases h' with h' | h'
  · rcases h with h | h
    · exact .inl (h'.trans h)
    · exact .inr (h.trans h'.ge)
  · exact .inr h'

lemma RtoKept.bound (h : RtoKept e e') (hle : rtoMinMs ≤ e.rtoMs) : rtoMinMs ≤ e'.rtoMs := by
  rcases h with h | h
  · exact hle.trans h.ge
  · exact h

lemma rtoMin_le_clampRto (rtoMs : ℕ) : rtoMinMs ≤ clampRto rtoMs :=
  le_min (le_max_right _ _) (by decide)

lemma updateRtt_rto {segmentId : U32} (h : e.updateRtt bd segmentId nowMs = .ok e') :
    RtoKept e e' := by
  unfold Endpoint.updateRtt at h
  cases htimer : e.rttTimerState with
  | none =>
    rw [htimer] at h
    cases h
    exact .inl rfl
  | some timer =>
    rw [htimer] at h
    dsimp only at h
    split_ifs at h
    · obtain ⟨elapsedMs, -, h⟩ := bind_eq_ok.mp h
      cases h
      exact .inr (rtoMin_le_clampRto _)
    · cases h
      exact .inl rfl
    · cases h
      exact .inl rfl

lemma updateRtoTimer_rto {segmentId : U32}
    (h : e.updateRtoTimer bd segmentId nowMs = .ok (e', calls)) : e'.rtoMs = e.rtoMs := by
  unfold Endpoint.updateRtoTimer at h
  cases htimer : e.rtoTimerState with
  | none =>
    rw [htimer] at h
    cases h
    rfl
  | some timer =>
    rw [htimer] at h
    dsimp only at h
    split_ifs at h
    · cases h
      rfl
    · obtain ⟨timeMs, -, h⟩ := bind_eq_ok.mp h
      cases h
      rfl

lemma handleAck_rto {ack : StreamAck} (h : e.handleAck bd ack nowMs = .ok (e', calls)) :
    RtoKept e e' := by
  obtain ⟨ccState, -, h⟩ := bind_eq_ok.mp h
  obtain ⟨⟨segmentTx, drop⟩, -, h⟩ := bind_eq_ok.mp h
  obtain ⟨ccState', -, h⟩ := bind_eq_ok.mp h
  obtain ⟨fragmentTx, -, h⟩ := bind_eq_ok.mp h
  obtain ⟨e₁, hrtt, h⟩ := bind_eq_ok.mp h
  have hrtt := updateRtt_rto hrtt
  have hkept : RtoKept e e₁ := hrtt
  exact hkept.trans (.inl (updateRtoTimer_rto h))

lemma readAckPart_rto {readAck : Bool} {r r' : PayloadReader}
    (h : readAckPart bd readAck e r nowMs = .ok (some (e', r', calls))) : RtoKept e e' := by
  unfold readAckPart at h
  split_ifs at h
  · obtain ⟨⟨ack, r₁⟩, -, h⟩ := bind_eq_ok.mp h
    cases ack with
    | none => cases h
    | some ack =>
      obtain ⟨⟨e₁, calls₁⟩, hack, h⟩ := bind_eq_ok.mp h
      cases h
      exact handleAck_rto hack
  · cases h
    exact .inl rfl

lemma dataPart_rto {r : PayloadReader} {d : Delivery} (hs : DataPart bd e r (e', d)) :
    e'.rtoMs = e.rtoMs := by
  cases hs with
  | absent => rfl
  | segment hread hbytes hreceive hdelivery => rfl

lemma flushRun_rto {ackRel sendAck : Bool} (hs : FlushRun bd ackRel nowMs sendAck e calls e') :
    e'.rtoMs = e.rtoMs := by
  induction hs with
  | stop hdata => rfl
  | ack hdata rest ih => exact ih
  | segment hdata hstep rest ih => exact ih.trans hstep.rtoMs_eq

lemma handleStreamFrame_rto (hsender : e.Sender bd False nowMs v) {frameType : FrameType}
    {payloadBytes : Bytes}
    (h : e.handleStreamFrame bd nonces frameType payloadBytes nowMs = .ok (e', calls)) :
    RtoKept e e' := by
  obtain ⟨⟨readAck, readData⟩, -, h⟩ := bind_eq_ok.mp h
  obtain ⟨ackPart, hread, h⟩ := bind_eq_ok.mp h
  have hr : (PayloadReader.new payloadBytes).readIdx ≤
      (PayloadReader.new payloadBytes).buffer.length := Nat.zero_le _
  obtain ⟨hack, hframe⟩ := (readAckPart_spec hsender False.elim readAck hr).elim hread
  cases ackPart with
  | none =>
    cases h
    exact .inl rfl
  | some ackPart =>
    obtain ⟨e₁, r, ackCalls⟩ := ackPart
    obtain ⟨hbuffer, hle, -⟩ := hframe e₁ r ackCalls rfl
    obtain ⟨acked, discarded, cursor, hsender₁⟩ := hack.sender hsender
    obtain ⟨⟨e₂, d⟩, hread₂, h⟩ := bind_eq_ok.mp h
    have hrecv : Receives False e₁ r.buffer := False.elim
    have hdata := (readDataPart_spec readData (hbuffer ▸ hle) hrecv).elim hread₂
    obtain ⟨⟨e₃, flushCalls⟩, hflush, h⟩ := bind_eq_ok.mp h
    cases h
    have hrun := ((hdata.sender hsender₁).flushStream False.elim nonces d.sendAck d.ackRel).elim
      hflush
    have hsame : e'.rtoMs = e₁.rtoMs := (flushRun_rto hrun).trans (dataPart_rto hdata)
    exact (readAckPart_rto hread).trans (.inl hsame)

/-- What the timer does that is not the last one: the sum of the timeouts grows by the one that
has run, and stays below the configured time. -/
structure Resends (bd : Build) (e e' : Endpoint) (timer : RtoTimerState) (rtoSumMs : ℕ) :
    Prop where
  before : e.rtoTimerState = some timer
  after : e'.rtoTimerState = some ⟨e'.rtoMs, rtoSumMs⟩
  rto : rtoMinMs ≤ e'.rtoMs
  sum : checkedAdd bd 64 timer.rtoSumMs timer.rtoMs = .ok rtoSumMs
  sum_lt : rtoSumMs < e.config.timeoutTimeMs

lemma backOff_resends {action : TimeoutAction}
    (h : e.backOff bd nowMs = .ok (e', calls, action)) :
    action = .terminate ∧ e'.stateId = .zombie ∨
      action = .continue ∧ ∃ timer rtoSumMs, Resends bd e e' timer rtoSumMs := by
  obtain ⟨timer, htimer, h⟩ := bind_eq_ok.mp h
  obtain ⟨rtoSumMs, hsum, h⟩ := bind_eq_ok.mp h
  have htimer := expectTimerState_eq_ok.mp htimer
  by_cases htimeout : e.config.timeoutTimeMs ≤ rtoSumMs
  · rw [if_pos htimeout] at h
    cases h
    exact .inl ⟨rfl, rfl⟩
  · rw [if_neg htimeout] at h
    obtain ⟨doubled, -, h⟩ := bind_eq_ok.mp h
    obtain ⟨timeMs, -, h⟩ := bind_eq_ok.mp h
    cases h
    exact .inr ⟨rfl, timer, rtoSumMs, htimer, rfl, rtoMin_le_clampRto doubled, hsum,
      not_le.mp htimeout⟩

/-- A flush leaves the timer that has been set again alone. -/
lemma Resends.flushed {e₁ : Endpoint} {timer : RtoTimerState} {rtoSumMs : ℕ} {ackRel : Bool}
    (h : Resends bd e e₁ timer rtoSumMs) {ccState : AimdReno}
    (hrun : FlushRun bd ackRel nowMs false (e₁.resending ccState) calls e') :
    Resends bd e e' timer rtoSumMs := by
  have hrto := flushRun_rto hrun
  have hsame : e'.rtoMs = e₁.rtoMs := hrto
  obtain ⟨htimer, -⟩ := flushRun_running hrun h.after none
  exact ⟨h.before, by rw [htimer, hsame], h.rto.trans hsame.ge, h.sum, h.sum_lt⟩

/-- A timer that fires while the endpoint waits for its peer. -/
lemma rtoTimer_resends (hsender : e.Sender bd False nowMs v)
    (hlive : e.stateId = .active ∨ e.stateId = .closing)
    (hok : e.perform bd nonces .rtoTimer nowMs = .ok (e', calls)) :
    e'.stateId = .zombie ∨ ∃ timer rtoSumMs, Resends bd e e' timer rtoSumMs := by
  obtain ⟨⟨e₁, calls₁, action⟩, htimer, hok⟩ := bind_eq_ok.mp hok
  cases hok
  unfold Endpoint.handleRtoTimer at htimer
  rcases hlive with hs | hs
  · simp only [hs] at htimer
    obtain ⟨⟨e₁, calls₁, action₁⟩, hback, htimer⟩ := bind_eq_ok.mp htimer
    rcases backOff_resends hback with ⟨rfl, hzombie⟩ | ⟨rfl, timer, rtoSumMs, hresends⟩
    · cases htimer
      exact .inl hzombie
    · obtain ⟨_, sumMs, _, ⟨-, -, -, -, haction⟩ | ⟨rtoMs, timeMs, hback', rfl, -⟩⟩ :=
        backOff_cases hback
      · cases haction
      obtain ⟨⟨e₂, rest⟩, hresync, htimer⟩ := bind_eq_ok.mp htimer
      obtain ⟨ccState, hcc, hresync⟩ := bind_eq_ok.mp hresync
      dsimp only at hresync
      rw [sendStreamSyncFrame_eq, ok_bind] at hresync
      obtain ⟨⟨e₃, flushCalls⟩, hflush, hresync⟩ := bind_eq_ok.mp hresync
      cases hresync
      cases htimer
      have hresending := hsender.resending sumMs hback'.rto_le hcc
      have hrun := (hresending.flushStream False.elim nonces false false).elim hflush
      exact .inr ⟨timer, rtoSumMs, hresends.flushed hrun⟩
  · simp only [hs] at htimer
    obtain ⟨⟨e₁, calls₁, action₁⟩, hback, htimer⟩ := bind_eq_ok.mp htimer
    rcases backOff_resends hback with ⟨rfl, hzombie⟩ | ⟨rfl, timer, rtoSumMs, hresends⟩
    · cases htimer
      exact .inl hzombie
    · dsimp only at htimer
      rw [sendCloseFrame_eq] at htimer
      cases htimer
      exact .inr ⟨timer, rtoSumMs, hresends⟩

/-- No call makes the timeout too short. -/
lemma perform_rto (hsender : e.Sender bd False nowMs v) {input : Input}
    (hok : e.perform bd nonces input nowMs = .ok (e', calls)) : RtoKept e e' := by
  have heffect := hsender.perform False.elim hok
  cases heffect with
  | flush hs hflush => exact .inl (flushRun_rto hflush)
  | stream hs hrun => exact handleStreamFrame_rto hsender (hrun.handled hs hok)
  | sync hs hrun =>
    cases hrun with
    | truncated => exact .inl rfl
    | run hread hsync hdelivery hflush =>
      have hrto := flushRun_rto hflush
      exact .inl hrto
  | resend hs htimer hback hcc hflush =>
    rcases rtoTimer_resends hsender (.inl hs) hok with hzombie | ⟨timer, rtoSumMs, hresends⟩
    · cases (hflush.sendOnly.stateId_eq.trans hs).symm.trans hzombie
    · exact .inr hresends.rto
  | resendClose hs htimer hback =>
    rcases rtoTimer_resends hsender (.inr hs) hok with hzombie | ⟨timer, rtoSumMs, hresends⟩
    · cases hs.symm.trans hzombie
    · exact .inr hresends.rto
  | _ => exact .inl rfl

/-- The timer that runs is the one that has run before, or has been set with the timeout. -/
def TimerFrom (before : Option RtoTimerState) (rtoMs : ℕ) (after : Option RtoTimerState) : Prop :=
  ∀ timer, after = some timer →
    timer.rtoMs = rtoMs ∨ ∃ timer₀, before = some timer₀ ∧ timer.rtoMs = timer₀.rtoMs

lemma TimerFrom.refl (before : Option RtoTimerState) (rtoMs : ℕ) :
    TimerFrom before rtoMs before := fun timer h => .inr ⟨timer, h, rfl⟩

lemma TimerFrom.trans {before mid after : Option RtoTimerState} {rtoMs : ℕ}
    (h : TimerFrom before rtoMs mid) (h' : TimerFrom mid rtoMs after) :
    TimerFrom before rtoMs after := by
  intro timer hafter
  rcases h' timer hafter with hrto | ⟨timer₁, hmid, hsame⟩
  · exact .inl hrto
  · rw [hsame]
    exact h timer₁ hmid

lemma timerFrom_set (before : Option RtoTimerState) (rtoMs rtoSumMs : ℕ) :
    TimerFrom before rtoMs (some ⟨rtoMs, rtoSumMs⟩) := by
  rintro timer ⟨⟩
  exact .inl rfl

lemma timerFrom_none (before : Option RtoTimerState) (rtoMs : ℕ) : TimerFrom before rtoMs none := by
  rintro timer ⟨⟩

lemma flushRun_timerFrom {ackRel sendAck : Bool}
    (hs : FlushRun bd ackRel nowMs sendAck e calls e') :
    TimerFrom e.rtoTimerState e'.rtoMs e'.rtoTimerState := by
  induction hs with
  | stop hdata => exact .refl _ _
  | ack hdata rest ih => exact ih
  | @segment _ _ e₀ e₁ e₂ _ _ _ hdata hstep rest ih =>
    have hrto : e₂.rtoMs = e₀.rtoMs := (flushRun_rto rest).trans hstep.rtoMs_eq
    have harm := hstep.timer
    change ArmTimer bd nowMs e₀.rtoMs e₀.rtoTimerState e₁.rtoTimerState _ at harm
    refine TimerFrom.trans ?_ ih
    rw [hrto]
    generalize e₀.rtoTimerState = before at harm
    generalize e₁.rtoTimerState = after at harm
    cases harm with
    | set htime => exact timerFrom_set _ _ _
    | running timer => exact .refl _ _

lemma ackPart_timerFrom {r r' : PayloadReader} {readAck : Bool}
    (hs : AckPart bd nowMs e r readAck (some (e', r', calls))) :
    TimerFrom e.rtoTimerState e'.rtoMs e'.rtoTimerState := by
  cases hs with
  | absent => exact .refl _ _
  | ack hread hstep =>
    have htimer := hstep.timer
    generalize e.rtoTimerState = before at htimer
    generalize e'.rtoTimerState = after at htimer
    cases htimer with
    | idle => exact .refl _ _
    | caughtUp timer hid => exact timerFrom_none _ _
    | expecting timer hid htime => exact timerFrom_set _ _ _

lemma dataPart_timerFrom {r : PayloadReader} {d : Delivery} (hs : DataPart bd e r (e', d)) :
    e'.rtoTimerState = e.rtoTimerState := by
  cases hs with
  | absent => rfl
  | segment hread hbytes hreceive hdelivery => rfl

lemma effect_timerFrom {input : Input} (hs : Effect bd nowMs e input calls e') :
    TimerFrom e.rtoTimerState e'.rtoMs e'.rtoTimerState := by
  cases hs with
  | flush hs hflush => exact flushRun_timerFrom hflush
  | disconnect hs htime => exact timerFrom_set _ _ _
  | stream hs hrun =>
    cases hrun with
    | truncated hparts hack => exact .refl _ _
    | run hparts hack hdata hflush =>
      have hfrom := flushRun_timerFrom hflush
      have hrto := (flushRun_rto hflush).trans (dataPart_rto hdata)
      rw [dataPart_timerFrom hdata, hrto] at hfrom
      rw [hrto]
      exact (ackPart_timerFrom hack).trans hfrom
  | sync hs hrun =>
    cases hrun with
    | truncated => exact .refl _ _
    | run hread hsync hdelivery hflush =>
      have hfrom := flushRun_timerFrom hflush
      exact hfrom
  | close hs hvalid htime => exact timerFrom_none _ _
  | closeAck hs hvalid htime => exact timerFrom_none _ _
  | @timeout timer _ hs htimer hsum htimeout =>
    rintro _ ⟨⟩
    exact .inr ⟨timer, htimer, rfl⟩
  | @resend timer rtoMs rtoSumMs _ ccState _ _ hs htimer hback hcc hflush =>
    have hfrom := flushRun_timerFrom hflush
    have hrto := flushRun_rto hflush
    have hrto : e'.rtoMs = rtoMs := hrto
    rw [hrto] at hfrom ⊢
    exact (timerFrom_set e.rtoTimerState rtoMs rtoSumMs).trans hfrom
  | resendClose hs htimer hback => exact timerFrom_set _ _ _
  | _ => exact .refl _ _

/-- Every call keeps the timeout within its bounds. -/
theorem RtoBounded.perform (h : RtoBounded e) (hsender : e.Sender bd False nowMs v) {input : Input}
    (hok : e.perform bd nonces input nowMs = .ok (e', calls)) : RtoBounded e' := by
  have heffect := hsender.perform False.elim hok
  obtain ⟨v', hsender'⟩ := heffect.sender hsender False.elim False.elim
  have hrto : rtoMinMs ≤ e'.rtoMs ∧ e'.rtoMs ≤ rtoMaxMs :=
    ⟨(perform_rto hsender hok).bound h.rto.1, hsender'.rto_le⟩
  refine ⟨hrto, fun timer htimer => ?_⟩
  rcases effect_timerFrom heffect timer htimer with hsame | ⟨timer₀, htimer₀, hsame⟩
  · rw [hsame]
    exact hrto
  · rw [hsame]
    exact h.timer timer₀ htimer₀

end Rto

/-- The deadline is at most the sum of the timeouts after a mark, but for the lateness of each
timer that has fired in vain; and each of those has added a second to the sum. -/
structure Spends (lateMs : ℕ) (s : State) (timer : RtoTimerState) : Prop where
  mark : ∃ startMs deadlineMs, IsGreatest s.marks startMs ∧ s.deadlineMs = some deadlineMs ∧
    deadlineMs ≤ startMs + (timer.rtoSumMs + timer.rtoMs) + timer.rtoSumMs / rtoMinMs * lateMs
  sum_le : timer.rtoSumMs ≤ s.endpoint.config.timeoutTimeMs

/-- The endpoint waits for its peer: segments are in flight, or its close frame is. -/
def Waits (e : Endpoint) : Prop :=
  e.stateId = .active ∧ e.segmentTx.nextId ≠ e.segmentTx.baseId ∨ e.stateId = .closing

structure Timely (lateMs : ℕ) (s : State) : Prop where
  bounded : RtoBounded s.endpoint
  spends : s.endpoint.stateId = .active ∨ s.endpoint.stateId = .closing →
    ∀ timer, s.endpoint.rtoTimerState = some timer → Spends lateMs s timer

section Invariant
variable {bd : Build} {lateMs : ℕ} {s s' : State} {call : Call} {timer : RtoTimerState}

/-- A timer that starts at the time of a mark. -/
lemma Spends.start (hmark : s'.nowMs ∈ s'.marks) (hle : ∀ timeMs ∈ s'.marks, timeMs ≤ s'.nowMs)
    {rtoMs timeMs : ℕ} (hdeadline : s'.deadlineMs = some timeMs)
    (htime : timeMs = s'.nowMs + rtoMs) : Spends lateMs s' ⟨rtoMs, 0⟩ := by
  refine ⟨⟨s'.nowMs, timeMs, ⟨hmark, hle⟩, hdeadline, ?_⟩, Nat.zero_le _⟩
  dsimp only
  omega

lemma Spends.kept (h : Spends lateMs s timer) (hmarks : s'.marks = s.marks)
    (hdeadline : s'.deadlineMs = s.deadlineMs)
    (hconfig : s'.endpoint.config = s.endpoint.config) : Spends lateMs s' timer := by
  exact ⟨by rw [hmarks, hdeadline]; exact h.mark, hconfig ▸ h.sum_le⟩

/-- A timer that has fired in vain is set again, at most so much later than its deadline. -/
lemma Spends.again (h : Spends lateMs s timer) (hmarks : s'.marks = s.marks)
    (hrto : rtoMinMs ≤ timer.rtoMs) {rtoMs rtoSumMs timeMs nowMs : ℕ}
    (hprompt : ∀ deadlineMs, s.deadlineMs = some deadlineMs → nowMs ≤ deadlineMs + lateMs)
    (hsum : rtoSumMs = timer.rtoSumMs + timer.rtoMs)
    (hle : rtoSumMs ≤ s'.endpoint.config.timeoutTimeMs)
    (hdeadline : s'.deadlineMs = some timeMs) (htime : timeMs = nowMs + rtoMs) :
    Spends lateMs s' ⟨rtoMs, rtoSumMs⟩ := by
  obtain ⟨startMs, deadlineMs, hstart, hbefore, hbound⟩ := h.mark
  have hlate := hprompt deadlineMs hbefore
  have hfirings : timer.rtoSumMs / rtoMinMs + 1 ≤ rtoSumMs / rtoMinMs := by
    rw [rtoMinMs] at hrto ⊢
    omega
  have hspent := Nat.mul_le_mul_right lateMs hfirings
  rw [Nat.add_mul, Nat.one_mul] at hspent
  refine ⟨⟨startMs, timeMs, hmarks ▸ hstart, hdeadline, ?_⟩, hle⟩
  dsimp only
  omega

lemma Timely.streaming (h : Timely lateMs s) (hinv : Inv bd s) (hstep : Step bd s call s')
    (hactive : s.endpoint.stateId = .active) (hs : s'.endpoint.stateId = .active)
    (hconfig : s'.endpoint.config = s.endpoint.config)
    (hchange : TimerChange bd call.nowMs (CarriesAck bd call.input) s.endpoint.rtoTimerState
      s.deadlineMs s'.endpoint.rtoTimerState s'.deadlineMs)
    (hsome : s'.endpoint.rtoTimerState = some timer) : Spends lateMs s' timer := by
  have hcloses : ¬ EntersClosing s.endpoint s'.endpoint := by
    rintro ⟨-, hclosing⟩
    cases hs.symm.trans hclosing
  have hle := marks_le_step hstep hinv
  generalize hbefore : s.endpoint.rtoTimerState = before at hchange
  generalize hafter : s'.endpoint.rtoTimerState = after at hchange
  generalize hdl : s.deadlineMs = deadlineMs at hchange
  generalize hdl' : s'.deadlineMs = deadlineMs' at hchange
  cases hchange with
  | kept hack =>
    have hrunning : s.endpoint.rtoTimerState = some timer := by rw [hbefore, ← hafter, hsome]
    have hne : before ≠ none := by
      rw [← hbefore, hrunning]
      exact Option.some_ne_none timer
    have hmarks : s'.marks = s.marks := by
      refine marks_eq hstep (fun ha => hne ?_) (fun ha => hne (hack ha.2.2)) hcloses
      exact hbefore.symm.trans ha.2.1
    exact (h.spends (.inl hactive) timer hrunning).kept hmarks (hdl'.trans hdl.symm) hconfig
  | stopped => cases hafter.symm.trans hsome
  | @started rtoMs timeMs hstart hrto htime =>
    cases hafter.symm.trans hsome
    have htime' : timeMs = s'.nowMs + rtoMs := by
      rw [hstep.nowMs_eq]
      exact checkedAdd_eq htime fun hbd => by have := hstep.clock_lt hbd; omega
    refine .start ?_ hle hdl' htime'
    rw [hstep.nowMs_eq]
    by_cases hidle : s.endpoint.rtoTimerState = none
    · exact .inl (hstep.armed.of_occurs ⟨hs, hidle, by rw [hafter]; rfl⟩)
    · refine .inr (.inl (hstep.acked.of_occurs ⟨hactive, ?_, ?_⟩))
      · exact Option.isSome_iff_ne_none.mpr hidle
      · exact hstart.resolve_left fun hn => hidle (hbefore.trans hn)

/-- The timer has fired in vain. -/
lemma Timely.backedOff (h : Timely lateMs s) (hinv : Inv bd s) (hprompt : Prompt lateMs s call)
    (hstep : Step bd s call s') {v : SenderView}
    (hsender : s.endpoint.Sender bd False call.nowMs v) (hinput : call.input = .rtoTimer)
    (hlive : s.endpoint.stateId = .active ∨ s.endpoint.stateId = .closing)
    (hs : s'.endpoint.stateId = s.endpoint.stateId)
    (hconfig : s'.endpoint.config = s.endpoint.config) {rtoMs rtoSumMs timeMs : ℕ}
    (hbefore : s.endpoint.rtoTimerState = some timer)
    (hback : BackOff bd call.nowMs timer rtoMs rtoSumMs timeMs)
    (hafter : s'.endpoint.rtoTimerState = some ⟨rtoMs, rtoSumMs⟩)
    (hdeadline : s'.deadlineMs = some timeMs) : Spends lateMs s' ⟨rtoMs, rtoSumMs⟩ := by
  have hok := hstep.returns
  rw [hinput] at hok
  have hallowed := hstep.allowed
  rw [hinput] at hallowed
  have hmarks : s'.marks = s.marks := by
    refine marks_eq hstep (fun ha => ?_) (fun ha => ?_) fun hc => hc.1 (hs.symm.trans hc.2)
    · cases hbefore.symm.trans ha.2.1
    · exact carriesAck_frame (fun _ _ hf => by cases hinput.symm.trans hf) ha.2.2
  have hsum_le : rtoSumMs ≤ s.endpoint.config.timeoutTimeMs := by
    rcases rtoTimer_resends hsender hlive hok with hzombie | ⟨timer₀, sumMs, hresends⟩
    · rw [hs] at hzombie
      rw [hzombie] at hlive
      rcases hlive with hlive | hlive <;> cases hlive
    · cases hafter.symm.trans hresends.after
      exact hresends.sum_lt.le
  have hsum : rtoSumMs = timer.rtoSumMs + timer.rtoMs := by
    obtain ⟨startMs, deadlineMs, -, hdl, hcount⟩ := (hinv.counts hlive timer hbefore).mark
    have hfired := hallowed deadlineMs hdl
    exact checkedAdd_eq hback.sum fun hbd => by have := hstep.clock_lt hbd; omega
  have htime : timeMs = call.nowMs + rtoMs := by
    have hrto := hback.rto_le
    exact checkedAdd_eq hback.time fun hbd => by have := hstep.clock_lt hbd; omega
  have hrunning : s.endpoint.rtoTimerState.isSome = true := by
    rw [hbefore]
    rfl
  exact (h.spends hlive timer hbefore).again hmarks (h.bounded.timer timer hbefore).1
    (hprompt hlive hrunning) hsum (hconfig ▸ hsum_le) hdeadline htime

theorem Timely.step (h : Timely lateMs s) (hinv : Inv bd s) (hprompt : Prompt lateMs s call)
    (hstep : Step bd s call s') : Timely lateMs s' := by
  obtain ⟨v, hsender⟩ := hinv.sender
  obtain ⟨heffect, hsender⟩ := effect_of_step hstep hsender
  have hconfig := heffect.nonces.config_eq
  have hallowed := hstep.allowed
  have htimer := effect_timer heffect hsender
    (fun hinit => by rw [hinit] at hallowed; exact hallowed) s.deadlineMs
  rw [← hstep.deadlineMs_eq] at htimer
  refine ⟨h.bounded.perform hsender hstep.returns, fun hlive timer hsome => ?_⟩
  cases htimer with
  | opened hpre hs htimer =>
    rw [htimer, hinv.idle hpre] at hsome
    cases hsome
  | ignored hsame hdeadline hack =>
    rw [hsame] at hlive hsome
    have hmarks : s'.marks = s.marks := by
      refine marks_eq hstep (fun ha => ?_) hack fun hc => hc.1 (hsame ▸ hc.2)
      cases hsome.symm.trans ha.2.1
    exact (h.spends hlive timer hsome).kept hmarks hdeadline hconfig
  | streaming hactive hs hchange => exact h.streaming hinv hstep hactive hs hconfig hchange hsome
  | disconnected hactive hs htimer hdeadline htime =>
    cases htimer.symm.trans hsome
    have hentered : EntersClosing s.endpoint s'.endpoint := by
      refine ⟨?_, hs⟩
      rw [hactive]
      simp
    refine .start ?_ (marks_le_step hstep hinv) hdeadline ?_
    · rw [hstep.nowMs_eq]
      exact .inr (.inr (hstep.closing.of_occurs hentered))
    · rw [hstep.nowMs_eq]
      have hrto := h.bounded.rto.2
      exact checkedAdd_eq htime fun hbd => by have := hstep.clock_lt hbd; omega
  | backedOff hinput hlive' hs hbefore hback htimer hdeadline =>
    cases htimer.symm.trans hsome
    exact h.backedOff hinv hprompt hstep hsender hinput hlive' hs hconfig hbefore hback hsome
      hdeadline
  | ended hs =>
    rcases hs with hs | hs
    · rw [hs] at hlive
      rcases hlive with hlive | hlive <;> cases hlive
    · rw [hs] at hlive
      rcases hlive with hlive | hlive <;> cases hlive

end Invariant

section Sample

/-- A packet is sent, and the timer is served 3 ms late. -/
def sampleCalls : List (Input × ℕ) :=
  [(.init, 0), (.enqueue [7] .reliable, 0), (.flush, 0), (.rtoTimer, 1003)]

end Sample

end Redpine.EndpointTimeout

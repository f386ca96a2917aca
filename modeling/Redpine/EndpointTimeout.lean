import Redpine.EndpointStep
import Redpine.Transition

/-! No premature timeout: the timeouts that an endpoint adds up never exceed the time that
has passed since its peer was last heard of. -/
namespace Redpine.EndpointTimeout
open Machine Buffer Wire Endpoint Transition

/-- An endpoint, the deadline it set last, the time of the latest call, and the times at which
its timer was last armed from idle, an ack was last processed while the timer was armed, and
the closing state was entered. -/
structure State where
  endpoint : Endpoint
  deadlineMs : Option ℕ
  nowMs : ℕ
  armedMs : Option ℕ
  ackedMs : Option ℕ
  closingMs : Option ℕ

/-- A call of the host and the calls it is answered with. -/
structure Call where
  input : Input
  nowMs : ℕ
  nonces : ℕ → Bool
  calls : List HostCall

def deadlineCall (deadlineMs : Option ℕ) : HostCall → Option ℕ
  | .setRtoTimer timeMs => some timeMs
  | _ => deadlineMs

def deadlineCalls (deadlineMs : Option ℕ) (calls : List HostCall) : Option ℕ :=
  calls.foldl deadlineCall deadlineMs

/-- The input is a frame of a stream that starts with an ack. -/
def CarriesAck (bd : Build) (input : Input) : Prop :=
  ∃ frameType payloadBytes readData ack r, input = .frame frameType payloadBytes ∧
    streamParts frameType = .ok (true, readData) ∧
    (PayloadReader.new payloadBytes).read StreamAck bd = .ok (some ack, r)

def ArmsFromIdle (e e' : Endpoint) : Prop :=
  e'.stateId = .active ∧ e.rtoTimerState = none ∧ e'.rtoTimerState.isSome = true

def ProcessesAck (bd : Build) (e : Endpoint) (input : Input) : Prop :=
  e.stateId = .active ∧ e.rtoTimerState.isSome = true ∧ CarriesAck bd input

def EntersClosing (e e' : Endpoint) : Prop := e.stateId ≠ .closing ∧ e'.stateId = .closing

/-- The time of the latest occurrence. -/
inductive Latest (occurs : Prop) (nowMs : ℕ) (before : Option ℕ) : Option ℕ → Prop
  | now (h : occurs) : Latest occurs nowMs before (some nowMs)
  | kept (h : ¬ occurs) : Latest occurs nowMs before before

def Initial (bd : Build) (s : State) : Prop :=
  (∃ config : Endpoint.Config, config.Accepted bd ∧ Endpoint.new config = .ok s.endpoint) ∧
    s.deadlineMs = none ∧ s.nowMs = 0 ∧ s.armedMs = none ∧ s.ackedMs = none ∧ s.closingMs = none

/-- The host initializes an endpoint once, and calls `handle_rto_timer` at or after the
deadline. -/
def Allowed (s : State) (nowMs : ℕ) : Input → Prop
  | .init => s.endpoint.stateId = .preInit
  | .rtoTimer => ∀ deadlineMs, s.deadlineMs = some deadlineMs → deadlineMs ≤ nowMs
  | _ => True

/-- A call that returns. The clock does not go back; a deadline that exceeds a `u64` stops a
debug build, and a release build is not run for as long as that. -/
structure Step (bd : Build) (s : State) (call : Call) (s' : State) : Prop where
  allowed : Allowed s call.nowMs call.input
  clock : s.nowMs ≤ call.nowMs
  clock_lt : bd = .release → call.nowMs + rtoMaxMs < 2 ^ 64
  returns : s.endpoint.perform bd call.nonces call.input call.nowMs =
    .ok (s'.endpoint, call.calls)
  deadlineMs_eq : s'.deadlineMs = deadlineCalls s.deadlineMs call.calls
  nowMs_eq : s'.nowMs = call.nowMs
  armed : Latest (ArmsFromIdle s.endpoint s'.endpoint) call.nowMs s.armedMs s'.armedMs
  acked : Latest (ProcessesAck bd s.endpoint call.input) call.nowMs s.ackedMs s'.ackedMs
  closing : Latest (EntersClosing s.endpoint s'.endpoint) call.nowMs s.closingMs s'.closingMs

def system (bd : Build) : System State Call := ⟨Initial bd, Step bd⟩

/-- The times from which the silence of the peer is counted. -/
def State.marks (s : State) : Set ℕ :=
  { timeMs | s.armedMs = some timeMs ∨ s.ackedMs = some timeMs ∨ s.closingMs = some timeMs }

section Deadlines
variable {deadlineMs : Option ℕ} {calls calls' : List HostCall}

lemma deadlineCalls_append : deadlineCalls deadlineMs (calls ++ calls') =
    deadlineCalls (deadlineCalls deadlineMs calls) calls' :=
  List.foldl_append

@[simp] lemma deadlineCalls_nil : deadlineCalls deadlineMs [] = deadlineMs := rfl

@[simp] lemma deadlineCalls_cons (call : HostCall) : deadlineCalls deadlineMs (call :: calls) =
    deadlineCalls (deadlineCall deadlineMs call) calls := rfl

lemma deadlineCalls_receive (h : ∀ call ∈ calls, IsReceive call) :
    deadlineCalls deadlineMs calls = deadlineMs := by
  induction calls with
  | nil => rfl
  | cons call calls ih =>
    obtain ⟨unrel, packetBytes, rfl⟩ := h call List.mem_cons_self
    exact ih fun c hc => h c (List.mem_cons_of_mem _ hc)

lemma checkedAdd_eq {bd : Build} {w a b t : ℕ} (h : checkedAdd bd w a b = .ok t)
    (hlt : bd = .release → a + b < 2 ^ w) : t = a + b := by
  unfold checkedAdd checked at h
  cases bd with
  | release =>
    rw [if_pos (hlt rfl)] at h
    cases h
    rfl
  | debug =>
    rw [if_pos rfl] at h
    split_ifs at h
    cases h
    rfl

end Deadlines

/-- The timer and the deadline before and after a call that keeps an active endpoint active:
both are kept, or the timer is stopped, or both start anew. -/
inductive TimerChange (bd : Build) (nowMs : ℕ) (acked : Prop) :
    Option RtoTimerState → Option ℕ → Option RtoTimerState → Option ℕ → Prop
  | kept {timer : Option RtoTimerState} {deadlineMs : Option ℕ} (h : acked → timer = none) :
      TimerChange bd nowMs acked timer deadlineMs timer deadlineMs
  | stopped {timer : Option RtoTimerState} {deadlineMs deadlineMs' : Option ℕ} :
      TimerChange bd nowMs acked timer deadlineMs none deadlineMs'
  | started {timer : Option RtoTimerState} {deadlineMs : Option ℕ} {rtoMs timeMs : ℕ}
      (h : timer = none ∨ acked) (hrto : rtoMs ≤ rtoMaxMs)
      (htime : checkedAdd bd 64 nowMs rtoMs = .ok timeMs) :
      TimerChange bd nowMs acked timer deadlineMs (some ⟨rtoMs, 0⟩) (some timeMs)

section Runs
variable {bd : Build} {e e' : Endpoint} {nowMs : ℕ} {v : SenderView} {calls : List HostCall}

/-- A flush leaves a running timer alone. -/
lemma flushRun_running {ackRel sendAck : Bool} {timer : RtoTimerState}
    (hs : FlushRun bd ackRel nowMs sendAck e calls e') (hrunning : e.rtoTimerState = some timer)
    (deadlineMs : Option ℕ) :
    e'.rtoTimerState = some timer ∧ deadlineCalls deadlineMs calls = deadlineMs := by
  induction hs with
  | stop hdata => exact ⟨hrunning, rfl⟩
  | ack hdata rest ih => exact ih hrunning
  | @segment _ _ e₀ e₁ _ _ timerCalls _ hdata hstep rest ih =>
    have htimer := hstep.timer
    rw [show (e₀.expire nowMs).rtoTimerState = some timer from hrunning] at htimer
    generalize hafter : e₁.rtoTimerState = after at htimer
    cases htimer with
    | running => exact ih hafter

lemma flushRun_change {ackRel sendAck : Bool} {acked : Prop}
    (hs : FlushRun bd ackRel nowMs sendAck e calls e') (hrto : e.rtoMs ≤ rtoMaxMs)
    (hacked : acked → e.rtoTimerState = none) (deadlineMs : Option ℕ) :
    TimerChange bd nowMs acked e.rtoTimerState deadlineMs e'.rtoTimerState
      (deadlineCalls deadlineMs calls) := by
  induction hs with
  | stop hdata => exact .kept hacked
  | ack hdata rest ih => exact ih hrto hacked
  | @segment _ _ e₀ e₁ e₂ _ timerCalls calls hdata hstep rest ih =>
    have htimer := hstep.timer
    change ArmTimer bd nowMs e₀.rtoMs e₀.rtoTimerState e₁.rtoTimerState timerCalls at htimer
    rw [deadlineCalls_append, deadlineCalls_cons]
    generalize hbefore : e₀.rtoTimerState = before at htimer
    generalize hafter : e₁.rtoTimerState = after at htimer
    cases htimer with
    | set htime =>
      obtain ⟨hsame, hdeadline⟩ := flushRun_running rest hafter
        (deadlineCall (deadlineCalls deadlineMs [.setRtoTimer _]) (.sendFrame _))
      rw [hsame, hdeadline]
      exact .started (.inl rfl) hrto htime
    | running timer =>
      obtain ⟨hsame, hdeadline⟩ := flushRun_running rest hafter
        (deadlineCall (deadlineCalls deadlineMs []) (.sendFrame _))
      rw [hsame, hdeadline]
      exact .kept fun h => hbefore ▸ hacked h

/-- After an ack that stops the timer, it stays stopped or starts anew. -/
lemma TimerChange.after_stop {acked : Prop} {timer before after : Option RtoTimerState}
    {deadlineMs deadlineMs₁ deadlineMs' : Option ℕ} (hacked : acked) (hbefore : before = none)
    (h : TimerChange bd nowMs acked before deadlineMs₁ after deadlineMs') :
    TimerChange bd nowMs acked timer deadlineMs after deadlineMs' := by
  cases h with
  | kept _ =>
    rw [hbefore]
    exact .stopped
  | stopped => exact .stopped
  | started _ hrto htime => exact .started (.inr hacked) hrto htime

lemma dataPart_timer {r : PayloadReader} {d : Delivery} (hs : DataPart bd e r (e', d))
    (deadlineMs : Option ℕ) :
    e'.rtoTimerState = e.rtoTimerState ∧ deadlineCalls deadlineMs d.calls = deadlineMs := by
  cases hs with
  | absent => exact ⟨rfl, rfl⟩
  | segment hread hbytes hreceive hdelivery =>
    exact ⟨rfl, deadlineCalls_receive (segments_calls hdelivery)⟩

lemma streamRun_change {frameType : FrameType} {payloadBytes : Bytes}
    (hs : StreamRun bd nowMs e frameType payloadBytes calls e')
    (hsender : e.Sender bd False nowMs v) (deadlineMs : Option ℕ) :
    TimerChange bd nowMs (CarriesAck bd (.frame frameType payloadBytes)) e.rtoTimerState
      deadlineMs e'.rtoTimerState (deadlineCalls deadlineMs calls) := by
  cases hs with
  | truncated hparts hack =>
    cases hack with
    | unreadable hread =>
      refine .kept ?_
      rintro ⟨_, _, _, ack, r, hinput, -, hread'⟩
      cases hinput
      rw [hread] at hread'
      cases hread'
  | @run readAck _ e₁ e₂ _ r d ackCalls flushCalls hparts hack hdata hflush =>
    obtain ⟨_, _, _, hsender₁⟩ := hack.sender hsender
    have hrto := (hdata.sender hsender₁).rto_le
    obtain ⟨hsame, hdeadline⟩ := dataPart_timer hdata (deadlineCalls deadlineMs ackCalls)
    rw [deadlineCalls_append, deadlineCalls_append, hdeadline]
    cases hack with
    | absent =>
      rw [← hsame]
      refine flushRun_change hflush hrto ?_ _
      rintro ⟨_, _, _, _, _, hinput, hparts', -⟩
      cases hinput
      rw [hparts] at hparts'
      cases hparts'
    | @ack ack _ _ _ hread hstep =>
      have hcarries : CarriesAck bd (.frame frameType payloadBytes) :=
        ⟨_, _, _, ack, r, rfl, hparts, hread⟩
      have htimer := hstep.timer
      generalize hbefore : e.rtoTimerState = before at htimer
      generalize hafter : e₁.rtoTimerState = after at htimer
      cases htimer with
      | idle =>
        have hnone := hsame.trans hafter
        rw [← hnone]
        exact flushRun_change hflush hrto (fun _ => hnone) _
      | caughtUp timer hid =>
        have hnone := hsame.trans hafter
        exact (flushRun_change hflush hrto (fun _ => hnone) _).after_stop hcarries hnone
      | expecting timer hid htime =>
        obtain ⟨hkeep, hdeadline'⟩ := flushRun_running hflush (hsame.trans hafter)
          (deadlineCalls deadlineMs [.setRtoTimer _])
        rw [hkeep, hdeadline']
        exact .started (.inr hcarries) hstep.rto_le htime

lemma syncRun_change {payloadBytes : Bytes} (hs : SyncRun bd nowMs e payloadBytes calls e')
    (hsender : e.Sender bd False nowMs v) (deadlineMs : Option ℕ) :
    TimerChange bd nowMs False e.rtoTimerState deadlineMs e'.rtoTimerState
      (deadlineCalls deadlineMs calls) := by
  cases hs with
  | truncated => exact .kept False.elim
  | run hread hsync hdelivery hflush =>
    rw [deadlineCalls_append, deadlineCalls_receive (segments_calls hdelivery)]
    exact flushRun_change hflush (hsender.withDelivery _ _).rto_le False.elim _

/-- A call without an ack, whatever else it is. -/
lemma TimerChange.of_acked {acked : Prop} {timer after : Option RtoTimerState}
    {deadlineMs deadlineMs' : Option ℕ} (hno : ¬ acked)
    (h : TimerChange bd nowMs False timer deadlineMs after deadlineMs') :
    TimerChange bd nowMs acked timer deadlineMs after deadlineMs' := by
  cases h with
  | kept _ => exact .kept fun h => absurd h hno
  | stopped => exact .stopped
  | started hstart hrto htime => exact .started (.inl (hstart.resolve_right id)) hrto htime

/-- What a call does to the timer of the endpoint and to the deadline. -/
inductive TimerEffect (bd : Build) (nowMs : ℕ) (e : Endpoint) (input : Input)
    (deadlineMs : Option ℕ) (e' : Endpoint) (deadlineMs' : Option ℕ) : Prop
  | opened (hpre : e.stateId = .preInit) (hs : e'.stateId = .active)
      (htimer : e'.rtoTimerState = e.rtoTimerState)
  | ignored (hsame : e' = e) (hdeadline : deadlineMs' = deadlineMs)
      (hack : ¬ ProcessesAck bd e input)
  | streaming (hactive : e.stateId = .active) (hs : e'.stateId = .active)
      (hchange : TimerChange bd nowMs (CarriesAck bd input) e.rtoTimerState deadlineMs
        e'.rtoTimerState deadlineMs')
  | disconnected {timeMs : ℕ} (hactive : e.stateId = .active) (hs : e'.stateId = .closing)
      (htimer : e'.rtoTimerState = some ⟨e.rtoMs, 0⟩) (hdeadline : deadlineMs' = some timeMs)
      (htime : checkedAdd bd 64 nowMs e.rtoMs = .ok timeMs)
  | backedOff {timer : RtoTimerState} {rtoMs rtoSumMs timeMs : ℕ} (hinput : input = .rtoTimer)
      (hlive : e.stateId = .active ∨ e.stateId = .closing) (hs : e'.stateId = e.stateId)
      (hbefore : e.rtoTimerState = some timer) (hback : BackOff bd nowMs timer rtoMs rtoSumMs timeMs)
      (htimer : e'.rtoTimerState = some ⟨rtoMs, rtoSumMs⟩) (hdeadline : deadlineMs' = some timeMs)
  | ended (hs : e'.stateId = .closed ∨ e'.stateId = .zombie)

lemma carriesAck_frame {input : Input} (hinput : ∀ frameType payloadBytes,
    input ≠ .frame frameType payloadBytes) : ¬ CarriesAck bd input := by
  rintro ⟨frameType, payloadBytes, _, _, _, h, -⟩
  exact hinput frameType payloadBytes h

/-- A call that does not change the timer and carries no ack. -/
lemma TimerEffect.still {input : Input} {deadlineMs : Option ℕ} (hactive : e.stateId = .active)
    (hs : e'.stateId = .active) (htimer : e'.rtoTimerState = e.rtoTimerState)
    (hack : ¬ CarriesAck bd input) :
    TimerEffect bd nowMs e input deadlineMs e' deadlineMs := by
  refine .streaming hactive hs ?_
  rw [htimer]
  exact .kept fun h => absurd h hack

lemma effect_timer {input : Input} (hs : Effect bd nowMs e input calls e')
    (hsender : e.Sender bd False nowMs v) (hinit : input = .init → e.stateId = .preInit)
    (deadlineMs : Option ℕ) :
    TimerEffect bd nowMs e input deadlineMs e' (deadlineCalls deadlineMs calls) := by
  have hignored : e.stateId ≠ .active → ¬ ProcessesAck bd e input := fun hne h => hne h.1
  cases hs with
  | init hs => exact .opened (hinit rfl) rfl rfl
  | enqueue hs hqueue =>
    exact .still hs hs rfl (carriesAck_frame fun _ _ h => by cases h)
  | enqueueIgnored hs => exact .ignored rfl rfl (hignored hs)
  | flush hs hflush =>
    refine .streaming hs (hflush.sendOnly.stateId_eq.trans hs) ?_
    refine flushRun_change hflush hsender.rto_le (fun h => ?_) deadlineMs
    exact absurd h (carriesAck_frame fun _ _ h => by cases h)
  | flushIgnored hs => exact .ignored rfl rfl (hignored hs)
  | disconnect hs htime => exact .disconnected hs rfl rfl rfl htime
  | disconnectIgnored hs => exact .ignored rfl rfl (hignored hs)
  | stream hs hrun =>
    exact .streaming hs (hrun.session.stateId_eq.trans hs) (streamRun_change hrun hsender _)
  | @sync payloadBytes _ _ hs hrun =>
    refine .streaming hs (hrun.session.stateId_eq.trans hs) ?_
    have hno : ¬ CarriesAck bd (.frame .streamSync payloadBytes) := by
      rintro ⟨_, _, _, _, _, hinput, hparts, -⟩
      cases hinput
      cases hparts
    exact .of_acked hno (syncRun_change hrun hsender deadlineMs)
  | close hs hvalid htime => exact .ended (.inl rfl)
  | closeAck hs hvalid htime => exact .ended (.inl rfl)
  | closeAgain hs hvalid => exact .ended (.inl hs)
  | frameIgnored hs =>
    refine .ignored rfl rfl ?_
    rintro ⟨hactive, -, _, _, _, _, _, hinput, hparts, -⟩
    cases hinput
    exact hs hactive _ hparts
  | timeout hs htimer hsum htimeout => exact .ended (.inr rfl)
  | resend hs htimer hback hcc hflush =>
    obtain ⟨hsame, hdeadline⟩ := flushRun_running hflush rfl
      (deadlineCalls deadlineMs [.setRtoTimer _, .sendFrame (syncFrame e.segmentTx.nextId)])
    exact .backedOff rfl (.inl hs) hflush.sendOnly.stateId_eq htimer hback hsame hdeadline
  | resendClose hs htimer hback => exact .backedOff rfl (.inr hs) rfl htimer hback rfl rfl
  | destroyed hs => exact .ended (.inr rfl)
  | timerIgnored hs =>
    refine .ignored rfl rfl (hignored ?_)
    rcases hs with hs | hs
    · rw [hs]
      exact fun h => by cases h
    · rw [hs]
      exact fun h => by cases h

end Runs

/-- The sum of the timeouts, and of the one that runs, counts from a mark up to the deadline. -/
structure Counts (s : State) (timer : RtoTimerState) : Prop where
  mark : ∃ startMs deadlineMs, IsGreatest s.marks startMs ∧ s.deadlineMs = some deadlineMs ∧
    startMs + (timer.rtoSumMs + timer.rtoMs) ≤ deadlineMs

structure Inv (bd : Build) (s : State) : Prop where
  sender : ∃ v, s.endpoint.Sender bd False 0 v
  marks_le : ∀ timeMs ∈ s.marks, timeMs ≤ s.nowMs
  idle : s.endpoint.stateId = .preInit → s.endpoint.rtoTimerState = none
  counts : s.endpoint.stateId = .active ∨ s.endpoint.stateId = .closing →
    ∀ timer, s.endpoint.rtoTimerState = some timer → Counts s timer

section Invariant
variable {bd : Build} {s s' : State} {call : Call}

lemma inv_initial (h : Initial bd s) : Inv bd s := by
  obtain ⟨⟨config, hconfig, hnew⟩, hdeadline, hnow, harmed, hacked, hclosing⟩ := h
  have hfresh := new_fresh hnew
  refine ⟨⟨_, new_sender bd False 0 hconfig hnew⟩, ?_, fun _ => hfresh.rtoTimerState_eq, ?_⟩
  · intro timeMs hmem
    simp [State.marks, harmed, hacked, hclosing] at hmem
  · intro _ timer htimer
    rw [hfresh.rtoTimerState_eq] at htimer
    cases htimer

lemma Latest.le {occurs : Prop} {nowMs timeMs : ℕ} {before after : Option ℕ}
    (h : Latest occurs nowMs before after) (hafter : after = some timeMs)
    (hbefore : ∀ t, before = some t → t ≤ nowMs) : timeMs ≤ nowMs := by
  cases h with
  | now _ =>
    cases hafter
    exact le_rfl
  | kept _ => exact hbefore timeMs hafter

lemma Latest.of_not {occurs : Prop} {nowMs : ℕ} {before after : Option ℕ}
    (h : Latest occurs nowMs before after) (hn : ¬ occurs) : after = before := by
  cases h with
  | now ho => exact absurd ho hn
  | kept _ => rfl

lemma Latest.of_occurs {occurs : Prop} {nowMs : ℕ} {before after : Option ℕ}
    (h : Latest occurs nowMs before after) (ho : occurs) : after = some nowMs := by
  cases h with
  | now _ => rfl
  | kept hn => exact absurd ho hn

/-- No mark lies in the future. -/
lemma marks_le_step (h : Step bd s call s') (hinv : Inv bd s) :
    ∀ timeMs ∈ s'.marks, timeMs ≤ s'.nowMs := by
  intro timeMs hmem
  rw [h.nowMs_eq]
  rcases hmem with hmem | hmem | hmem
  · exact h.armed.le hmem fun t ht => (hinv.marks_le t (.inl ht)).trans h.clock
  · exact h.acked.le hmem fun t ht => (hinv.marks_le t (.inr (.inl ht))).trans h.clock
  · exact h.closing.le hmem fun t ht => (hinv.marks_le t (.inr (.inr ht))).trans h.clock

/-- A timer that starts at the time of a mark counts from there. -/
lemma Counts.start (hmark : s'.nowMs ∈ s'.marks) (hle : ∀ timeMs ∈ s'.marks, timeMs ≤ s'.nowMs)
    {rtoMs timeMs : ℕ} (hdeadline : s'.deadlineMs = some timeMs)
    (htime : timeMs = s'.nowMs + rtoMs) : Counts s' ⟨rtoMs, 0⟩ :=
  ⟨s'.nowMs, timeMs, ⟨hmark, hle⟩, hdeadline, by dsimp only; omega⟩

lemma Counts.of_marks_eq {timer timer' : RtoTimerState} (h : Counts s timer)
    (hmarks : s'.marks = s.marks)
    (hdeadline : ∀ startMs deadlineMs, s.deadlineMs = some deadlineMs →
      startMs + (timer.rtoSumMs + timer.rtoMs) ≤ deadlineMs → ∃ deadlineMs',
        s'.deadlineMs = some deadlineMs' ∧
        startMs + (timer'.rtoSumMs + timer'.rtoMs) ≤ deadlineMs') : Counts s' timer' := by
  obtain ⟨startMs, deadlineMs, hstart, hsome, hle⟩ := h.mark
  obtain ⟨deadlineMs', hsome', hle'⟩ := hdeadline startMs deadlineMs hsome hle
  exact ⟨startMs, deadlineMs', hmarks ▸ hstart, hsome', hle'⟩

lemma marks_eq (h : Step bd s call s') (harms : ¬ ArmsFromIdle s.endpoint s'.endpoint)
    (hacks : ¬ ProcessesAck bd s.endpoint call.input)
    (hcloses : ¬ EntersClosing s.endpoint s'.endpoint) : s'.marks = s.marks := by
  unfold State.marks
  rw [h.armed.of_not harms, h.acked.of_not hacks, h.closing.of_not hcloses]

lemma effect_of_step (h : Step bd s call s') {v : SenderView}
    (hsender : s.endpoint.Sender bd False 0 v) :
    Effect bd call.nowMs s.endpoint call.input call.calls s'.endpoint ∧
      s.endpoint.Sender bd False call.nowMs v := by
  have hlater : s.endpoint.Sender bd False call.nowMs v := hsender.later False.elim
  exact ⟨hlater.perform False.elim h.returns, hlater⟩

lemma Inv.streaming (hinv : Inv bd s) (h : Step bd s call s')
    (hactive : s.endpoint.stateId = .active) (hs : s'.endpoint.stateId = .active)
    (hchange : TimerChange bd call.nowMs (CarriesAck bd call.input) s.endpoint.rtoTimerState
      s.deadlineMs s'.endpoint.rtoTimerState s'.deadlineMs) {timer : RtoTimerState}
    (htimer : s'.endpoint.rtoTimerState = some timer) : Counts s' timer := by
  have hcloses : ¬ EntersClosing s.endpoint s'.endpoint := fun hc => by
    rw [EntersClosing, hs] at hc
    cases hc.2
  have hle := marks_le_step h hinv
  generalize hbefore : s.endpoint.rtoTimerState = before at hchange
  generalize hafter : s'.endpoint.rtoTimerState = after at hchange
  generalize hdl : s.deadlineMs = deadlineMs at hchange
  generalize hdl' : s'.deadlineMs = deadlineMs' at hchange
  cases hchange with
  | kept hack =>
    have hsome : s.endpoint.rtoTimerState = some timer := by rw [hbefore, ← hafter, htimer]
    have hne : before ≠ none := by
      rw [← hbefore, hsome]
      exact Option.some_ne_none timer
    have hmarks : s'.marks = s.marks := by
      refine marks_eq h (fun ha => hne ?_) (fun ha => hne (hack ha.2.2)) hcloses
      rw [← hbefore]
      exact ha.2.1
    refine (hinv.counts (.inl hactive) timer hsome).of_marks_eq hmarks fun startMs d hd hsum => ?_
    exact ⟨d, by rw [hdl', ← hdl, hd], hsum⟩
  | stopped =>
    rw [hafter] at htimer
    cases htimer
  | @started rtoMs timeMs hstart hrto htime =>
    rw [hafter] at htimer
    cases htimer
    have htime' : timeMs = s'.nowMs + rtoMs := by
      rw [h.nowMs_eq]
      exact checkedAdd_eq htime fun hbd => by have := h.clock_lt hbd; omega
    refine .start ?_ hle hdl' htime'
    rw [h.nowMs_eq]
    by_cases hidle : s.endpoint.rtoTimerState = none
    · exact .inl (h.armed.of_occurs ⟨hs, hidle, by rw [hafter]; rfl⟩)
    · refine .inr (.inl (h.acked.of_occurs ⟨hactive, ?_, ?_⟩))
      · exact Option.isSome_iff_ne_none.mpr hidle
      · exact hstart.resolve_left fun hn => hidle (hbefore.trans hn)

lemma Inv.backedOff (hinv : Inv bd s) (h : Step bd s call s')
    {timer : RtoTimerState} {rtoMs rtoSumMs timeMs : ℕ} (hinput : call.input = .rtoTimer)
    (hlive : s.endpoint.stateId = .active ∨ s.endpoint.stateId = .closing)
    (hs : s'.endpoint.stateId = s.endpoint.stateId)
    (hbefore : s.endpoint.rtoTimerState = some timer)
    (hback : BackOff bd call.nowMs timer rtoMs rtoSumMs timeMs)
    (hdeadline : s'.deadlineMs = some timeMs) : Counts s' ⟨rtoMs, rtoSumMs⟩ := by
  have hmarks : s'.marks = s.marks := by
    refine marks_eq h (fun ha => ?_) (fun ha => ?_) (fun hc => hc.1 (hs.symm.trans hc.2))
    · rw [ArmsFromIdle, hbefore] at ha
      cases ha.2.1
    · rw [ProcessesAck, hinput] at ha
      exact carriesAck_frame (fun _ _ hf => by cases hf) ha.2.2
  have hallowed := h.allowed
  rw [hinput] at hallowed
  refine (hinv.counts hlive timer hbefore).of_marks_eq hmarks fun startMs d hd hle => ?_
  refine ⟨timeMs, hdeadline, ?_⟩
  have hfired := hallowed d hd
  have hsum := checkedAdd_le hback.sum
  have hrto := hback.rto_le
  have htime := checkedAdd_eq hback.time fun hbd => by have := h.clock_lt hbd; omega
  dsimp only
  omega

lemma inv_step (hinv : Inv bd s) (h : Step bd s call s') : Inv bd s' := by
  obtain ⟨v, hsender⟩ := hinv.sender
  obtain ⟨heffect, hsender⟩ := effect_of_step h hsender
  have hallowed := h.allowed
  obtain ⟨v', hsender'⟩ := heffect.sender hsender False.elim False.elim
  have htimer := effect_timer heffect hsender
    (fun hinit => by rw [hinit] at hallowed; exact hallowed) s.deadlineMs
  rw [← h.deadlineMs_eq] at htimer
  have hle := marks_le_step h hinv
  refine ⟨⟨v', hsender'.later False.elim⟩, hle, fun hpre => ?_, fun hlive timer hsome => ?_⟩
  · cases htimer with
    | ignored hsame hdeadline hack =>
      rw [hsame] at hpre ⊢
      exact hinv.idle hpre
    | backedOff hinput hlive hs hbefore hback htimer hdeadline =>
      rw [hs] at hpre
      rw [hpre] at hlive
      rcases hlive with hlive | hlive <;> cases hlive
    | opened hp hs htimer =>
      rw [hs] at hpre
      cases hpre
    | streaming hactive hs hchange =>
      rw [hs] at hpre
      cases hpre
    | disconnected hactive hs htimer hdeadline htime =>
      rw [hs] at hpre
      cases hpre
    | ended hs =>
      rw [hpre] at hs
      rcases hs with hs | hs <;> cases hs
  · cases htimer with
    | opened hpre hs htimer =>
      rw [htimer, hinv.idle hpre] at hsome
      cases hsome
    | ignored hsame hdeadline hack =>
      rw [hsame] at hlive hsome
      have hmarks : s'.marks = s.marks := by
        refine marks_eq h (fun ha => ?_) hack (fun hc => ?_)
        · rw [ArmsFromIdle, hsame, hsome] at ha
          cases ha.2.1
        · rw [EntersClosing, hsame] at hc
          exact hc.1 hc.2
      refine (hinv.counts hlive timer hsome).of_marks_eq hmarks fun startMs d hd hsum => ?_
      exact ⟨d, hdeadline.trans hd, hsum⟩
    | streaming hactive hs hchange => exact hinv.streaming h hactive hs hchange hsome
    | @disconnected timeMs hactive hs htimer hdeadline htime =>
      rw [htimer] at hsome
      cases hsome
      have htime' : timeMs = s'.nowMs + s.endpoint.rtoMs := by
        rw [h.nowMs_eq]
        have hrto := hsender.rto_le
        exact checkedAdd_eq htime fun hbd => by have := h.clock_lt hbd; omega
      refine .start ?_ hle hdeadline htime'
      rw [h.nowMs_eq]
      exact .inr (.inr (h.closing.of_occurs ⟨(by rw [hactive]; exact fun hc => nomatch hc), hs⟩))
    | backedOff hinput hlive' hs hbefore hback htimer hdeadline =>
      rw [htimer] at hsome
      cases hsome
      exact hinv.backedOff h hinput hlive' hs hbefore hback hdeadline
    | ended hs =>
      rcases hs with hs | hs
      · rw [hs] at hlive
        rcases hlive with hlive | hlive <;> cases hlive
      · rw [hs] at hlive
        rcases hlive with hlive | hlive <;> cases hlive

theorem inv_reachable (hs : Reachable (system bd) s) : Inv bd s :=
  hs.invariant (fun _ => inv_initial) fun _ _ _ => inv_step

/-- Where the timeout is reported, it has been counted from a mark. -/
lemma effect_onTimeout {e e' : Endpoint} {nowMs : ℕ} {input : Input} {calls : List HostCall}
    (hs : Effect bd nowMs e input calls e') (hmem : .onTimeout ∈ calls) :
    input = .rtoTimer ∧ (e.stateId = .active ∨ e.stateId = .closing) ∧
      ∃ timer, e.rtoTimerState = some timer ∧
        e.config.timeoutTimeMs ≤ timer.rtoSumMs + timer.rtoMs := by
  have hstream : ¬ (IsTransport .onTimeout ∨ IsReceive .onTimeout) := by
    rintro ((⟨_, h⟩ | ⟨_, h⟩ | h) | ⟨_, _, h⟩) <;> cases h
  cases hs with
  | timeout hs htimer hsum htimeout =>
    exact ⟨rfl, hs, _, htimer, htimeout.trans (checkedAdd_le hsum)⟩
  | flush hs hflush => exact absurd (.inl (hflush.isTransport _ hmem)) hstream
  | stream hs hrun => exact absurd (hrun.calls_cases _ hmem) hstream
  | sync hs hrun => exact absurd (hrun.calls_cases _ hmem) hstream
  | resend hs htimer hback hcc hflush =>
    simp only [List.mem_cons, reduceCtorEq, false_or] at hmem
    exact absurd (.inl (hflush.isTransport _ hmem)) hstream
  | _ => simp at hmem

/-- A timeout is reported only after the peer has been silent for the configured time, counted
from the latest of the three marks. A release build is not run so long that a deadline exceeds a
`u64`, and would time out at once: that is the `clock_lt` of each step. -/
theorem no_premature_timeout (hs : Reachable (system bd) s) (h : (system bd).step s call s')
    (htimeout : .onTimeout ∈ call.calls) :
    ∃ startMs, IsGreatest s.marks startMs ∧
      startMs + s.endpoint.config.timeoutTimeMs ≤ call.nowMs := by
  have hstep : Step bd s call s' := h
  have hinv := inv_reachable hs
  obtain ⟨v, hsender⟩ := hinv.sender
  obtain ⟨hinput, hlive, timer, htimer, hle⟩ :=
    effect_onTimeout (effect_of_step hstep hsender).1 htimeout
  obtain ⟨startMs, deadlineMs, hstart, hdeadline, hcount⟩ := (hinv.counts hlive timer htimer).mark
  have hallowed := hstep.allowed
  rw [hinput] at hallowed
  have hfired := hallowed deadlineMs hdeadline
  exact ⟨startMs, hstart, by omega⟩

end Invariant

/-- The host serves the timer in time: as long as the endpoint waits for its peer, it is not
called later than this after the deadline. -/
def Prompt (lateMs : ℕ) (s : State) (call : Call) : Prop :=
  s.endpoint.stateId = .active ∨ s.endpoint.stateId = .closing →
    s.endpoint.rtoTimerState.isSome = true → ∀ deadlineMs, s.deadlineMs = some deadlineMs →
      call.nowMs ≤ deadlineMs + lateMs

section Sample

instance (e e' : Endpoint) : Decidable (ArmsFromIdle e e') :=
  inferInstanceAs (Decidable (_ ∧ _ ∧ _))

instance (e e' : Endpoint) : Decidable (EntersClosing e e') := inferInstanceAs (Decidable (_ ∧ _))

/-- The host may make the call, and serves the timer in time. -/
def Serves (lateMs : ℕ) (s : State) (input : Input) (nowMs : ℕ) : Prop :=
  (input = .init → s.endpoint.stateId = .preInit) ∧
    (∀ deadlineMs ∈ s.deadlineMs, (input = .rtoTimer → deadlineMs ≤ nowMs) ∧
      nowMs ≤ deadlineMs + lateMs) ∧ s.nowMs ≤ nowMs

instance (lateMs : ℕ) (s : State) (input : Input) (nowMs : ℕ) :
    Decidable (Serves lateMs s input nowMs) := inferInstanceAs (Decidable (_ ∧ _ ∧ _))

/-- The state after a call without a frame. -/
def State.after (s : State) (nowMs : ℕ) (e : Endpoint) (calls : List HostCall) : State where
  endpoint := e
  deadlineMs := deadlineCalls s.deadlineMs calls
  nowMs := nowMs
  armedMs := if ArmsFromIdle s.endpoint e then some nowMs else s.armedMs
  ackedMs := s.ackedMs
  closingMs := if EntersClosing s.endpoint e then some nowMs else s.closingMs

/-- A call without a frame, at the end of a run. -/
def record (lateMs : ℕ) (r : List (State × Call) × State) (a : Input × ℕ) :
    Option (List (State × Call) × State) :=
  match a.1, r.2.endpoint.perform .debug (fun _ => false) a.1 a.2 with
  | .frame _ _, _ | _, .error _ => none
  | input, .ok (e, calls) =>
      if Serves lateMs r.2 input a.2 then
        some (r.1 ++ [(r.2, ⟨input, a.2, fun _ => false, calls⟩)], r.2.after a.2 e calls)
      else none

lemma latest_ite {occurs : Prop} [Decidable occurs] (nowMs : ℕ) (before : Option ℕ) :
    Latest occurs nowMs before (if occurs then some nowMs else before) := by
  split_ifs with h
  · exact .now h
  · exact .kept h

lemma step_after {lateMs nowMs : ℕ} {s : State} {input : Input} {e : Endpoint}
    {calls : List HostCall}
    (hframe : ∀ frameType payloadBytes, input ≠ .frame frameType payloadBytes)
    (hserves : Serves lateMs s input nowMs)
    (hok : s.endpoint.perform .debug (fun _ => false) input nowMs = .ok (e, calls)) :
    Step .debug s ⟨input, nowMs, fun _ => false, calls⟩ (s.after nowMs e calls) := by
  obtain ⟨hinit, hdeadline, hclock⟩ := hserves
  have hacked : ¬ ProcessesAck .debug s.endpoint input := fun hack =>
    carriesAck_frame hframe hack.2.2
  refine ⟨?_, hclock, fun hbd => (by cases hbd), hok, rfl, rfl, latest_ite _ _, .kept hacked,
    latest_ite _ _⟩
  cases input with
  | init => exact hinit rfl
  | rtoTimer => exact fun deadlineMs hs => (hdeadline deadlineMs hs).1 rfl
  | _ => trivial

lemma record_run {lateMs : ℕ} {as : List (Input × ℕ)} {r r' : List (State × Call) × State}
    (run : Run (system .debug) r.1 r.2) (hprompt : ∀ q ∈ r.1, Prompt lateMs q.1 q.2)
    (h : as.foldlM (record lateMs) r = some r') :
    Run (system .debug) r'.1 r'.2 ∧ ∀ q ∈ r'.1, Prompt lateMs q.1 q.2 := by
  refine replay_invariant (motive := fun r => Run (system .debug) r.1 r.2 ∧
    ∀ q ∈ r.1, Prompt lateMs q.1 q.2) h ⟨run, hprompt⟩ ?_
  rintro r₁ a - r₂ ⟨run₁, hprompt₁⟩ hrecord
  unfold record at hrecord
  split at hrecord
  · cases hrecord
  · cases hrecord
  next e calls hok hframe =>
    obtain ⟨hserves, hrecord⟩ := Option.ite_none_right_eq_some.mp hrecord
    cases hrecord
    refine ⟨run₁.step (step_after hframe hserves hok), fun q hq => ?_⟩
    rcases List.mem_append.mp hq with hq | hq
    · exact hprompt₁ q hq
    · cases List.mem_singleton.mp hq
      exact fun _ _ deadlineMs hs => (hserves.2.1 deadlineMs hs).2

/-- An endpoint whose close frame is not answered for the configured second. -/
theorem no_premature_timeout_close : ∃ (s s' : State) (call : Call),
    Reachable (system .debug) s ∧ (system .debug).step s call s' ∧ .onTimeout ∈ call.calls ∧
      ∃ startMs, IsGreatest s.marks startMs ∧ startMs + 1000 ≤ call.nowMs := by
  have hrun : ((Endpoint.new (sampleConfig 1000)).toOption.bind fun e =>
      ([(.init, 0), (.disconnect, 0)].foldlM (record 0)
        ([], ⟨e, none, 0, none, none, none⟩)).bind fun r =>
      (r.2.endpoint.perform .debug (fun _ => false) .rtoTimer 1000).toOption.map fun result =>
        (decide (Serves 0 r.2 .rtoTimer 1000), decide (.onTimeout ∈ result.2),
          r.2.endpoint.config.timeoutTimeMs)) = some (true, true, 1000) := by
    rfl
  obtain ⟨e, hnew, hrun⟩ := Option.bind_eq_some_iff.mp hrun
  obtain ⟨⟨past, s⟩, hrecord, hrun⟩ := Option.bind_eq_some_iff.mp hrun
  obtain ⟨⟨e', calls⟩, hok, hrun⟩ := toOption_map_eq_some.mp hrun
  simp only [Prod.mk.injEq, decide_eq_true_eq] at hrun
  obtain ⟨hserves, hmem, htimeout⟩ := hrun
  have hinit : Initial .debug ⟨e, none, 0, none, none, none⟩ :=
    ⟨⟨_, sampleConfig_accepted .debug 1000, toOption_eq_some.mp hnew⟩,
      rfl, rfl, rfl, rfl, rfl⟩
  have hs : Reachable (system .debug) s := ⟨past, (record_run (.init hinit) (by simp) hrecord).1⟩
  have hstep := step_after (by simp) hserves hok
  obtain ⟨startMs, hstart, hle⟩ := no_premature_timeout hs hstep hmem
  rw [htimeout] at hle
  exact ⟨s, _, _, hs, hstep, hmem, startMs, hstart, hle⟩

end Sample

end Redpine.EndpointTimeout

import Redpine.EndpointStep
import Redpine.Transition

/-! No frame, however malformed, makes an endpoint fail: the runs of an endpoint under any
calls of its host and any frames that fit into the receive buffer. -/
namespace Redpine.EndpointSafety
open Machine Buffer Wire Endpoint Transition

/-- A frame of `FRAME_SIZE_MAX` bytes less its type and its checksum. -/
def payloadSizeMax : ℕ := 1467

structure State where
  endpoint : Endpoint
  /-- The time of the latest call. -/
  nowMs : ℕ

structure Call where
  input : Input
  nowMs : ℕ
  nonces : ℕ → Bool

/-- No packet is empty, and no payload exceeds a frame. -/
def Allowed : Input → Prop
  | .enqueue packetBytes _ => packetBytes ≠ []
  | .frame _ payloadBytes => payloadBytes.length ≤ payloadSizeMax
  | _ => True

/-- An endpoint as it is created, with weights that `prio::Config::new` accepts. -/
def Initial (bd : Build) (s : State) : Prop :=
  ∃ config : Endpoint.Config, config.Accepted bd ∧ Endpoint.new config = .ok s.endpoint ∧
    s.nowMs = 0

/-- A call that returns. The clock does not go back. -/
structure Step (bd : Build) (s : State) (call : Call) (s' : State) : Prop where
  allowed : Allowed call.input
  clock : s.nowMs ≤ call.nowMs
  clock_lt : call.nowMs < 2 ^ 62
  returns : ∃ calls, s.endpoint.perform bd call.nonces call.input call.nowMs =
    .ok (s'.endpoint, calls)
  nowMs_eq : s'.nowMs = call.nowMs

def system (bd : Build) : System State Call := ⟨Initial bd, Step bd⟩

structure Inv (bd : Build) (s : State) (v : SenderView) (b : SegmentQueue) : Prop where
  sender : s.endpoint.Sender bd True s.nowMs v
  models : s.endpoint.segmentRx.Models 0 frameSizeMax b

section Invariant
variable {bd : Build} {s s' : State} {call : Call}

lemma inv_initial (h : Initial bd s) : ∃ v b, Inv bd s v b := by
  obtain ⟨config, hconfig, hnew, hnow⟩ := h
  exact ⟨_, _, new_sender bd True s.nowMs hconfig hnew, (new_fresh hnew).models⟩

lemma inv_step (hinv : ∃ v b, Inv bd s v b) (h : Step bd s call s') : ∃ v b, Inv bd s' v b := by
  obtain ⟨v, b, hinv⟩ := hinv
  obtain ⟨calls, hok⟩ := h.returns
  have hsender := hinv.sender.later fun _ => h.clock
  have heffect := hsender.perform (fun _ => h.clock_lt) hok
  have hallowed := h.allowed
  obtain ⟨v', hsender'⟩ := heffect.sender hsender (fun _ => h.clock_lt) (by
    rintro - mode hinput
    rw [hinput] at hallowed
    exact hallowed rfl)
  obtain ⟨b', hmodels⟩ := heffect.models hinv.models (by
    intro frameType payloadBytes hinput
    rw [hinput] at hallowed
    exact le_trans hallowed (by decide))
  exact ⟨v', b', h.nowMs_eq ▸ hsender', hmodels⟩

theorem inv_reachable (hs : Reachable (system bd) s) : ∃ v b, Inv bd s v b :=
  hs.invariant (fun _ => inv_initial) fun _ _ _ => inv_step

end Invariant

/-- A frame is handled without a panic, a failed assertion, an access out of range, an
overflow or a loop that outruns its bound, whatever it contains. -/
theorem handleFrame_returns {bd : Build} {s : State} (hs : Reachable (system bd) s) {nowMs : ℕ}
    (hclock : s.nowMs ≤ nowMs) (hlt : nowMs < 2 ^ 62) (frameType : FrameType)
    {payloadBytes : Bytes} (hlen : payloadBytes.length ≤ payloadSizeMax) (nonces : ℕ → Bool) :
    ∃ e calls, s.endpoint.handleFrame bd nonces frameType payloadBytes nowMs = .ok (e, calls) := by
  obtain ⟨v, b, hinv⟩ := inv_reachable hs
  have hsender := hinv.sender.later fun _ => hclock
  have hreceives : Receives True s.endpoint payloadBytes :=
    fun _ => ⟨hlen.trans (by decide), b, hinv.models⟩
  obtain ⟨⟨e, calls⟩, hok, -⟩ :=
    (hsender.handleFrame (fun _ => hlt) nonces frameType hreceives).exists_ok trivial
  exact ⟨e, calls, hok⟩

/-- A stream segment of garbage, sent to an endpoint that has just become active. -/
theorem handleFrame_returns_sample :
    ∃ (s : State) (e : Endpoint) (calls : List HostCall), s.endpoint.stateId = .active ∧
      s.endpoint.handleFrame .debug (fun _ => false) .streamSegmentAck
        (List.replicate 1467 0xFF) 5 = .ok (e, calls) := by
  obtain ⟨e₀, hnew⟩ := new_total (sampleConfig 10000)
  have hinit : (system .debug).init ⟨e₀, 0⟩ :=
    ⟨_, sampleConfig_accepted .debug 10000, hnew, rfl⟩
  have hstep : (system .debug).step ⟨e₀, 0⟩ ⟨.init, 3, fun _ => false⟩
      ⟨{ e₀ with stateId := .active }, 3⟩ := by
    refine ⟨trivial, Nat.zero_le _, by norm_num, ⟨[.onConnect], ?_⟩, rfl⟩
    have hpre := (new_fresh hnew).stateId_eq
    simp [Endpoint.perform, Endpoint.init, hpre]
  have hlen : (List.replicate 1467 0xFF : Bytes).length ≤ payloadSizeMax :=
    le_of_eq List.length_replicate
  obtain ⟨e, calls, hok⟩ := handleFrame_returns ((Reachable.init hinit).step hstep)
    (by norm_num : 3 ≤ 5) (by norm_num) .streamSegmentAck hlen (fun _ => false)
  exact ⟨⟨{ e₀ with stateId := .active }, 3⟩, e, calls, rfl, hok⟩

end Redpine.EndpointSafety

import Redpine.EndpointPair

/-! Graceful disconnection. An endpoint reports that it has been disconnected only once the other
has left the active state, to which there is no way back. -/
namespace Redpine.EndpointPair
open Machine Buffer Wire Endpoint Transition

/-- What the frames and the reports of a party say about the two endpoints. -/
structure Agrees (s : State) (side : Side) : Prop where
  frames : ∀ frameBytes, .sendFrame frameBytes ∈ (s side).calls →
    IsStreamFrame frameBytes ∨ (s side).endpoint.stateId.Ended
  disconnect : .onDisconnect ∈ (s side).calls → (s side.other).endpoint.stateId.Ended

section Agreement
variable {bd : Build} {s s' : State} {a : Action} {side : Side} {e e' : Endpoint} {nowMs : ℕ}
  {input : Input} {calls : List HostCall}

/-- Only the two frames that close a connection make an endpoint report that it is closed. -/
lemma Outline.closes {st : StateId} (h : Outline bd e input st calls)
    (hmem : .onDisconnect ∈ calls) : ∃ frameType payloadBytes,
      input = .frame frameType payloadBytes ∧ (frameType = .close ∨ frameType = .closeAck) := by
  cases h with
  | close hs hvalid => exact ⟨_, _, rfl, .inl rfl⟩
  | closeAck hs hvalid => exact ⟨_, _, rfl, .inr rfl⟩
  | stream hs hinit hdisconnect hcalls =>
    rcases hcalls _ hmem with (⟨_, h⟩ | ⟨_, h⟩ | h) | ⟨_, _, h⟩ <;> cases h
  | _ => simp at hmem

lemma IsStreamFrame.not_close {frameBytes : Bytes} {frameType : FrameType}
    (h : IsStreamFrame frameBytes) (htype : readType bd frameBytes = .ok (some frameType)) :
    frameType ≠ .close ∧ frameType ≠ .closeAck := by
  obtain ⟨frameType', p, hstream, rfl⟩ := h
  rw [readType_frameOf] at htype
  cases htype
  exact ⟨by rintro rfl; exact hstream, by rintro rfl; exact hstream⟩

/-- A frame sent by a call is one of a stream, or the connection has ended. -/
lemma sent_agrees {frameBytes : Bytes} (heffect : Effect bd nowMs e input calls e')
    (hmem : .sendFrame frameBytes ∈ calls) :
    IsStreamFrame frameBytes ∨ e'.stateId.Ended := by
  have hsent := heffect.sent hmem
  generalize e'.stateId = st at hsent ⊢
  cases hsent with
  | stream hs h => exact .inl h
  | close h => exact .inr (.inl rfl)
  | closeAck h => exact .inr (.inr (.inl rfl))

/-- There is no way back. -/
lemma Change.ended (h : Change bd s a s') (hended : (s side).endpoint.stateId.Ended) :
    (s' side).endpoint.stateId.Ended := by
  cases h with
  | @mk x input nowMs timer e calls hinit heffect hframe hparty =>
    by_cases hx : side = x
    · subst hx
      rw [Function.update_self]
      exact (heffect.outline.ended hended hinit).1
    · rw [Function.update_of_ne hx]
      exact hended

lemma agrees_step (h : ∀ side, Agrees s side) (hchange : Change bd s a s') :
    ∀ side, Agrees s' side := by
  have hkept := fun side => @Change.ended bd s s' a side hchange
  cases hchange with
  | @mk x input nowMs timer e calls hinit heffect hframe hparty =>
    intro side
    constructor
    · intro frameBytes hmem
      by_cases hx : side = x
      · subst hx
        rw [Function.update_self] at hmem ⊢
        rcases List.mem_append.mp hmem with hmem | hmem
        · exact ((h side).frames frameBytes hmem).imp_right fun hended =>
            (heffect.outline.ended hended hinit).1
        · exact sent_agrees heffect hmem
      · rw [Function.update_of_ne hx] at hmem ⊢
        exact (h side).frames frameBytes hmem
    · intro hmem
      apply hkept
      by_cases hx : side = x
      · subst hx
        rw [Function.update_self] at hmem
        rcases List.mem_append.mp hmem with hmem | hmem
        · exact (h side).disconnect hmem
        · obtain ⟨frameType, payloadBytes, rfl, hclose⟩ := Outline.closes heffect.outline hmem
          obtain ⟨frameBytes, hsent, htype, -⟩ := hframe frameType payloadBytes rfl
          rcases (h side.other).frames frameBytes hsent with hstream | hended
          · obtain ⟨hne, hne'⟩ := IsStreamFrame.not_close hstream htype
            exact absurd hclose (not_or.mpr ⟨hne, hne'⟩)
          · exact hended
      · rw [Function.update_of_ne hx] at hmem
        exact (h side).disconnect hmem

theorem agrees_reachable (hs : Reachable (system bd) s) : ∀ side, Agrees s side := by
  induction hs using Reachable.induct with
  | init h =>
    intro side
    obtain ⟨config, e₀, e, calls, hconfig, hnew, hinit, hs⟩ := h side
    obtain ⟨_, -, hinit⟩ := bind_eq_ok.mp hinit
    cases hinit
    constructor
    · simp [hs]
    · simp [hs]
  | step hs hstep ih => exact agrees_step ih (change_of_reachable hs hstep)

lemma ended_continues (hs : Reachable (system bd) s) (h : Continues (system bd) s s')
    (hended : (s side).endpoint.stateId.Ended) : (s' side).endpoint.stateId.Ended := by
  induction h with
  | refl => exact hended
  | tail hcontinues hlast ih =>
    obtain ⟨a, hstep⟩ := hlast
    exact (change_of_reachable (hs.continues hcontinues) hstep).ended ih

lemma ended_ne_active {st : StateId} (h : st.Ended) : st ≠ .active := by
  rintro rfl
  simp [StateId.Ended] at h

/-- Once an endpoint has reported the disconnection, the other one is not active, and never will
be; so an endpoint whose peer is active has not reported it. -/
theorem disconnect_agreement (hs : Reachable (system bd) s) (side : Side) :
    (.onDisconnect ∈ (s side).calls → ∀ s', Continues (system bd) s s' →
      (s' side.other).endpoint.stateId ≠ .active) ∧
    ((s side.other).endpoint.stateId = .active → .onDisconnect ∉ (s side).calls) := by
  have hagrees := agrees_reachable hs side
  constructor
  · intro hmem s' hcontinues
    exact ended_ne_active (ended_continues hs hcontinues (hagrees.disconnect hmem))
  · exact fun hactive hmem => ended_ne_active (hagrees.disconnect hmem) hactive

end Agreement

section Sample

/-- One endpoint is disconnected, and its close frame is delivered. -/
theorem disconnect_agreement_closed : ∃ s, Reachable (system .debug) s ∧
    .onDisconnect ∈ (s .b).calls ∧ ∀ s', Continues (system .debug) s s' →
      (s' .a).endpoint.stateId ≠ .active := by
  have hrun : (sampleStart.bind fun s =>
      (next .debug s (.call .a .disconnect 1 fun _ => false)).bind fun s =>
        (s.sent .a)[0]?.bind fun frameBytes =>
          (next .debug s (.deliver .b frameBytes 2 fun _ => false)).map fun s =>
            decide (.onDisconnect ∈ (s .b).calls)) = some true := rfl
  obtain ⟨s₀, hstart, hrun⟩ := Option.bind_eq_some_iff.mp hrun
  obtain ⟨s₁, hdisconnect, hrun⟩ := Option.bind_eq_some_iff.mp hrun
  obtain ⟨frameBytes, hframe, hrun⟩ := Option.bind_eq_some_iff.mp hrun
  obtain ⟨s, hdeliver, hrun⟩ := Option.map_eq_some_iff.mp hrun
  have hs : Reachable (system .debug) s :=
    ((sampleStart_reachable hstart).step (next_step hdisconnect)).step (next_step hdeliver)
  have hmem := of_decide_eq_true hrun
  exact ⟨s, hs, hmem, (disconnect_agreement hs .b).1 hmem⟩

end Sample

end Redpine.EndpointPair

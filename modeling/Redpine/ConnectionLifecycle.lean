import Redpine.ClientLifecycle
import Redpine.ServerReplay

/-! The life of a connection on both sides. A client and each peer of a server produce at most
one session; once it has ended they only close the connection, and then fall silent. -/
namespace Redpine
open Machine Buffer Wire Endpoint Transition Server ServerRun

/-- Everything that has been added since satisfies the property. -/
def FollowedBy {α : Type} (before after : List α) (prop : α → Prop) : Prop :=
  ∃ more, after = before ++ more ∧ ∀ x ∈ more, prop x

/-- The frames that the endpoint of a peer has sent. -/
def framesFor (peer : PeerRef) (emitted : List Emission) : List Bytes :=
  sentFrames (callsOf peer emitted)

/-- The life of a client, in one of its states and in all that may follow. -/
structure ClientLifecycle (bd : Build) (s : ClientRun.State) : Prop where
  history : ClientRun.IsHistory s.produced
  alive : ∀ e, s.core.state = .active e → e.stateId ≠ .zombie
  ended : s.disconnected = true ∨ (∃ event ∈ s.produced, IsTerminal event) →
    ∀ s', Continues (ClientRun.system bd) s s' →
      FollowedBy s.produced s'.produced (fun event => ¬ IsReceived event) ∧
      FollowedBy s.sent s'.sent IsCloseFrame
  silent : s.core.state = .quiescent → ∀ s', Continues (ClientRun.system bd) s s' →
    s'.produced = s.produced ∧ s'.sent = s.sent

/-- The life of a peer of a server, in one of its states and in all that may follow. -/
structure PeerLifecycle (bd : Build) (hash : Bytes → U64) (s : ServerRun.State) (peer : PeerRef)
    (p : Peer) : Prop where
  session : IsSession (eventsFor peer s.events)
  ended : peer ∈ s.disconnected ∨ (∃ event ∈ eventsFor peer s.events, IsTerminal event) →
    ∀ s', Continues (ServerRun.system bd hash) s s' →
      FollowedBy (eventsFor peer s.events) (eventsFor peer s'.events)
        (fun event => ¬ IsReceived event) ∧
      FollowedBy (framesFor peer s.emitted) (framesFor peer s'.emitted) IsCloseFrame
  silent : p.endpoint.stateId = .zombie → ∀ s', Continues (ServerRun.system bd hash) s s' →
    callsOf peer s'.emitted = callsOf peer s.emitted

section Client
variable {bd : Build} {s : ClientRun.State}

theorem clientLifecycle (hs : Reachable (ClientRun.system bd) s) : ClientLifecycle bd s := by
  constructor
  · exact ClientRun.produced_isHistory hs
  · intro e he
    have hlived := (ClientRun.clientLived hs).2
    rw [he] at hlived
    exact hlived.2.1
  · intro hend s' hcontinues
    have hended : ClientRun.HasEnded s.core.state := by
      rcases hend with hdisconnected | ⟨event, hevent, hterminal⟩
      · exact ClientRun.hasEnded_of_disconnected hs hdisconnected
      · exact ClientRun.hasEnded_of_terminal hs hevent hterminal
    exact (hended.continues hs hcontinues).2
  · exact fun hquiescent s' hcontinues =>
      ClientRun.quiescent_continues hs hquiescent hcontinues

end Client

namespace ServerRun

section Server
variable {bd : Build} {hash : Bytes → U64} {s s' : State} {a : Action} {peer : PeerRef} {p : Peer}
  {e e' : Endpoint} {calls : List HostCall}

lemma CallRun.ended (h : CallRun bd e calls e') (hended : e.stateId.Ended) :
    e'.stateId.Ended ∧ ∀ call ∈ calls, IsFarewell call := by
  induction h with
  | refl => exact ⟨hended, by simp⟩
  | call run heffect hinit ih =>
    obtain ⟨hended', hcalls⟩ := heffect.outline.ended ih.1 hinit
    refine ⟨hended', fun call hcall => ?_⟩
    rcases List.mem_append.mp hcall with hcall | hcall
    · exact ih.2 call hcall
    · exact hcalls call hcall

lemma CallRun.zombie (h : CallRun bd e calls e') (hs : e.stateId = .zombie) :
    e'.stateId = .zombie ∧ calls = [] := by
  induction h with
  | refl => exact ⟨hs, rfl⟩
  | call run heffect hinit ih =>
    obtain ⟨hs', hmore⟩ := heffect.outline.zombie ih.1 hinit
    exact ⟨hs', by rw [ih.2, hmore, List.append_nil]⟩

/-- What happens to a peer from some state on. -/
lemma peer_continues (hs : Reachable (system bd hash) s) (hp : s.core.heap[peer]? = some p)
    (h : Continues (system bd hash) s s') :
    ∃ p' more, s'.core.heap[peer]? = some p' ∧
      callsOf peer s'.emitted = callsOf peer s.emitted ++ more ∧
      CallRun bd p.endpoint more p'.endpoint := by
  induction h with
  | refl => exact ⟨p, [], hp, (List.append_nil _).symm, .refl⟩
  | tail hcontinues hlast ih =>
    obtain ⟨p₁, calls, hp₁, hcalls, hrun⟩ := ih
    obtain ⟨a, hstep⟩ := hlast
    obtain ⟨p', more, hp', hmore, hrun'⟩ :=
      (change_of_reachable (hs.continues hcontinues) hstep).kept hp₁
    refine ⟨p', calls ++ more, hp', ?_, hrun.trans hrun'⟩
    rw [hmore, hcalls, List.append_assoc]

lemma Change.disconnected (h : Change bd hash s a s') (hmem : peer ∈ s'.disconnected) :
    peer ∈ s.disconnected ∨
      ∃ p', s'.core.heap[peer]? = some p' ∧ p'.endpoint.stateId.Ended := by
  cases h with
  | still hstill hclock hemitted hreplies => exact .inl (hstill.disconnected_eq ▸ hmem)
  | @used _ r q e calls nowMs disconnected hhandle hclock hq hrun hsound hdisconnect
      hdisconnected =>
    rcases hdisconnected with rfl | ⟨rfl, hended⟩
    · exact .inl hmem
    · rcases List.mem_append.mp hmem with hmem | hmem
      · exact .inl hmem
      · obtain rfl := List.mem_singleton.mp hmem
        exact .inr ⟨_, List.getElem?_set_self (lt_of_getElem? hq), hended⟩
  | _ => exact .inl hmem

/-- A peer that has been disconnected is not active. -/
lemma ended_of_disconnected (hs : Reachable (system bd hash) s) (hmem : peer ∈ s.disconnected) :
    ∃ p, s.core.heap[peer]? = some p ∧ p.endpoint.stateId.Ended := by
  induction hs using Reachable.induct with
  | init h =>
    obtain ⟨config, core, hbind, rfl⟩ := h
    cases hmem
  | step hs hstep ih =>
    have hchange := change_of_reachable hs hstep
    rcases hchange.disconnected hmem with hbefore | hended
    · obtain ⟨p, hp, hended⟩ := ih hbefore
      obtain ⟨p', more, hp', hmore, hrun⟩ := hchange.kept hp
      exact ⟨p', hp', (hrun.ended hended).1⟩
    · exact hended

theorem peerLifecycle (hs : Reachable (system bd hash) s) (hp : s.core.heap[peer]? = some p) :
    PeerLifecycle bd hash s peer p := by
  have hlived := lived_reachable hs peer p hp
  constructor
  · exact hlived.isSession_of_ne ((inv_reachable hs).ne_preInit peer p hp)
  · intro hend s' hcontinues
    have hended : p.endpoint.stateId.Ended := by
      rcases hend with hmem | ⟨event, hevent, hterminal⟩
      · obtain ⟨p', hp', hended⟩ := ended_of_disconnected hs hmem
        cases hp.symm.trans hp'
        exact hended
      · exact hlived.ended_of_terminal hevent hterminal
    obtain ⟨p', more, hp', hmore, hrun⟩ := peer_continues hs hp hcontinues
    have hcalls := (hrun.ended hended).2
    constructor
    · refine ⟨eventsOf more, ?_, eventsOf_farewell hcalls⟩
      rw [events_eq hs, events_eq (hs.continues hcontinues), eventsFor_emitted,
        eventsFor_emitted, hmore, eventsOf_append]
    · refine ⟨sentFrames more, ?_, sentFrames_farewell hcalls⟩
      unfold framesFor
      rw [hmore]
      exact List.filterMap_append ..
  · intro hzombie s' hcontinues
    obtain ⟨p', more, hp', hmore, hrun⟩ := peer_continues hs hp hcontinues
    rw [hmore, (hrun.zombie hzombie).2, List.append_nil]

end Server

end ServerRun

/-- The life of a connection on both sides. -/
theorem connection_lifecycle {bd : Build} {hash : Bytes → U64} {s : ClientRun.State}
    {t : ServerRun.State} (hs : Reachable (ClientRun.system bd) s)
    (ht : Reachable (ServerRun.system bd hash) t) :
    ClientLifecycle bd s ∧ ∀ (peer : PeerRef) (p : Peer), t.core.heap[peer]? = some p →
      PeerLifecycle bd hash t peer p :=
  ⟨clientLifecycle hs, fun _ _ hp => peerLifecycle ht hp⟩

/-- A client that has connected, and a server whose peer has been disconnected and is gone. -/
theorem connection_lifecycle_closed : ∃ (s : ClientRun.State) (t : ServerRun.State) (p : Peer),
    s.produced = [.connect] ∧ t.core.heap[0]? = some p ∧
    eventsFor 0 t.events = [.connect, .disconnect] ∧ ClientLifecycle .debug s ∧
    PeerLifecycle .debug sampleHash t 0 p := by
  have hclient : (ClientRun.sampleStart.bind fun s =>
      (replay (ClientRun.next .debug) s ClientRun.sampleAnswers).map (·.produced)) =
        some [.connect] := by decide +kernel
  have hserver : ((ServerRun.sampleStart default).bind fun s =>
      (replay (ServerRun.next .debug sampleHash) s sampleGone).map fun t =>
        (t.core.heap.length, eventsFor 0 t.events)) = some (1, [.connect, .disconnect]) := by
    decide +kernel
  obtain ⟨s₀, hstart, hclient⟩ := Option.bind_eq_some_iff.mp hclient
  obtain ⟨s, hreplay, hproduced⟩ := Option.map_eq_some_iff.mp hclient
  have hs := (ClientRun.sampleStart_reachable hstart).continues
    (replay_continues (fun _ _ _ => ClientRun.next_step) hreplay)
  obtain ⟨t₀, hstart', hserver⟩ := Option.bind_eq_some_iff.mp hserver
  obtain ⟨t, hreplay', hserver⟩ := Option.map_eq_some_iff.mp hserver
  obtain ⟨hlength, hevents⟩ := Prod.mk.inj hserver
  have ht := (ServerRun.sampleStart_reachable hstart').continues
    (replay_continues (fun _ _ _ => ServerRun.next_step) hreplay')
  have hp : t.core.heap[0]? = some (t.core.heap.get ⟨0, by omega⟩) := List.getElem?_eq_getElem _
  obtain ⟨hlife, hpeers⟩ := connection_lifecycle hs ht
  exact ⟨s, t, _, hproduced, hp, hevents, hlife, hpeers 0 _ hp⟩

end Redpine

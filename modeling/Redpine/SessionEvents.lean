import Redpine.Client
import Redpine.EndpointSession

/-! The events of one connection: it is connected, receives packets, and ends at most once,
gracefully or with an error. -/
namespace Redpine
open Machine Buffer Wire Endpoint

/-- The events that the calls of an endpoint produce. -/
def eventsOf (calls : List HostCall) : List Client.Event :=
  calls.filterMap fun
    | .onConnect => some .connect
    | .onDisconnect => some .disconnect
    | .onReceive _ packetBytes => some (.receive packetBytes)
    | .onTimeout => some (.error .timeout)
    | _ => none

def IsReceived (event : Client.Event) : Prop := ∃ packetBytes, event = .receive packetBytes

/-- The event that ends a session. -/
def IsTerminal (event : Client.Event) : Prop := event = .disconnect ∨ ∃ kind, event = .error kind

/-- The events of a session that has not ended. -/
def openSession (packets : List Bytes) : List Client.Event := .connect :: packets.map .receive

/-- What an endpoint has produced in each of its states. -/
def Lived : StateId → List Client.Event → Prop
  | .preInit, events => events = []
  | .active, events | .closing, events => ∃ packets, events = openSession packets
  | .closed, events => ∃ packets, events = openSession packets ++ [.disconnect]
  | .zombie, events => ∃ packets event, events = openSession packets ++ [event] ∧ IsTerminal event

section Events
variable {bd : Build} {calls : List HostCall} {events : List Client.Event}

lemma eventsOf_append {calls' : List HostCall} :
    eventsOf (calls ++ calls') = eventsOf calls ++ eventsOf calls' := List.filterMap_append ..

lemma eventsOf_stream (h : ∀ call ∈ calls, IsTransport call ∨ IsReceive call) :
    ∃ packets : List Bytes, eventsOf calls = packets.map .receive := by
  induction calls with
  | nil => exact ⟨[], rfl⟩
  | cons call calls ih =>
    obtain ⟨packets, hpackets⟩ := ih fun c hc => h c (List.mem_cons_of_mem _ hc)
    rcases h call List.mem_cons_self with (⟨_, rfl⟩ | ⟨_, rfl⟩ | rfl) | ⟨_, packetBytes, rfl⟩
    · exact ⟨packets, hpackets⟩
    · exact ⟨packets, hpackets⟩
    · exact ⟨packets, hpackets⟩
    · exact ⟨packetBytes :: packets, congrArg (Client.Event.receive packetBytes :: ·) hpackets⟩

lemma eventsOf_transport (h : ∀ call ∈ calls, IsTransport call) : eventsOf calls = [] := by
  refine List.filterMap_eq_nil_iff.mpr fun call hcall => ?_
  rcases h call hcall with ⟨_, rfl⟩ | ⟨_, rfl⟩ | rfl <;> rfl

lemma eventsOf_farewell (h : ∀ call ∈ calls, IsFarewell call) :
    ∀ event ∈ eventsOf calls, ¬ IsReceived event := by
  intro event hevent
  obtain ⟨call, hcall, heq⟩ := List.mem_filterMap.mp hevent
  have hfarewell := h call hcall
  rintro ⟨packetBytes, rfl⟩
  cases call with
  | onReceive unrel packetBytes => exact hfarewell
  | _ => cases heq

lemma sentFrames_farewell (h : ∀ call ∈ calls, IsFarewell call) :
    ∀ frame ∈ sentFrames calls, IsCloseFrame frame := by
  intro frame hframe
  obtain ⟨call, hcall, heq⟩ := List.mem_filterMap.mp hframe
  have hfarewell := h call hcall
  cases call with
  | sendFrame frameBytes =>
    cases heq
    exact hfarewell
  | _ => cases heq

lemma openSession_append (packets more : List Bytes) :
    openSession packets ++ more.map .receive = openSession (packets ++ more) := by
  simp [openSession]

lemma lived_open {s : StateId} (hs : s = .active ∨ s = .closing) (h : Lived s events) :
    ∃ packets, events = openSession packets := by
  rcases hs with rfl | rfl <;> exact h

/-- The step lemma. -/
lemma Lived.step {e : Endpoint} {input : Input} {s' : StateId}
    (houtline : Outline bd e input s' calls) (hinit : input = .init → e.stateId = .preInit)
    (h : Lived e.stateId events) : Lived s' (events ++ eventsOf calls) := by
  cases houtline with
  | init =>
    rw [hinit rfl] at h
    obtain rfl : events = [] := h
    exact ⟨[], rfl⟩
  | quiet hinit' hdisconnect htimer =>
    rw [show eventsOf [] = [] from rfl, List.append_nil]
    exact h
  | stream hs hinit' hdisconnect hcalls =>
    obtain ⟨packets, rfl⟩ := lived_open (.inl hs) h
    obtain ⟨more, hmore⟩ := eventsOf_stream hcalls
    exact ⟨packets ++ more, by rw [hmore, openSession_append]⟩
  | disconnect hs =>
    obtain ⟨packets, rfl⟩ := lived_open (.inl hs) h
    exact ⟨packets, List.append_nil _⟩
  | close hs hvalid =>
    obtain ⟨packets, rfl⟩ := lived_open hs h
    exact ⟨packets, rfl⟩
  | closeAck hs hvalid =>
    obtain ⟨packets, rfl⟩ := lived_open (.inr hs) h
    exact ⟨packets, rfl⟩
  | closeAgain hs hvalid =>
    rw [hs] at h
    rw [show eventsOf [.sendFrame e.closeAckFrame] = [] from rfl, List.append_nil]
    exact h
  | timeout hs =>
    obtain ⟨packets, rfl⟩ := lived_open hs h
    exact ⟨packets, .error .timeout, rfl, .inr ⟨_, rfl⟩⟩
  | resendClose hs =>
    obtain ⟨packets, rfl⟩ := lived_open (.inr hs) h
    exact ⟨packets, List.append_nil _⟩
  | destroyed hs =>
    rw [hs] at h
    obtain ⟨packets, rfl⟩ := h
    exact ⟨packets, .disconnect, List.append_nil _, .inl rfl⟩

lemma not_terminal_of_mem_openSession {packets : List Bytes} {event : Client.Event}
    (h : event ∈ openSession packets) : ¬ IsTerminal event := by
  rintro hterminal
  rcases List.mem_cons.mp h with rfl | h
  · rcases hterminal with h | ⟨kind, h⟩ <;> cases h
  · obtain ⟨packetBytes, -, rfl⟩ := List.mem_map.mp h
    rcases hterminal with h | ⟨kind, h⟩ <;> cases h

/-- An endpoint that has produced a terminal event is not active. -/
lemma Lived.ended_of_terminal {s : StateId} {event : Client.Event} (h : Lived s events)
    (hevent : event ∈ events) (hterminal : IsTerminal event) : s.Ended := by
  cases s with
  | preInit =>
    obtain rfl : events = [] := h
    cases hevent
  | active =>
    obtain ⟨packets, rfl⟩ := h
    exact absurd hterminal (not_terminal_of_mem_openSession hevent)
  | closing => exact .inl rfl
  | closed => exact .inr (.inl rfl)
  | zombie => exact .inr (.inr rfl)

/-- A session, which may have ended. -/
def IsSession (events : List Client.Event) : Prop :=
  ∃ packets last, events = openSession packets ++ last ∧
    (last = [] ∨ ∃ event, last = [event] ∧ IsTerminal event)

lemma Lived.isSession_of_ne {s : StateId} (h : Lived s events) (hs : s ≠ .preInit) :
    IsSession events := by
  cases s with
  | preInit => exact absurd rfl hs
  | active =>
    obtain ⟨packets, rfl⟩ := h
    exact ⟨packets, [], (List.append_nil _).symm, .inl rfl⟩
  | closing =>
    obtain ⟨packets, rfl⟩ := h
    exact ⟨packets, [], (List.append_nil _).symm, .inl rfl⟩
  | closed =>
    obtain ⟨packets, rfl⟩ := h
    exact ⟨packets, _, rfl, .inr ⟨_, rfl, .inl rfl⟩⟩
  | zombie =>
    obtain ⟨packets, event, rfl, hterminal⟩ := h
    exact ⟨packets, _, rfl, .inr ⟨_, rfl, hterminal⟩⟩

lemma Lived.isSession {s : StateId} (h : Lived s events) : events = [] ∨ IsSession events := by
  by_cases hs : s = .preInit
  · subst hs
    exact .inl h
  · exact .inr (h.isSession_of_ne hs)

/-- A session is opened once. -/
lemma IsSession.count_connect (h : IsSession events) : events.count .connect = 1 := by
  obtain ⟨packets, last, rfl, hlast⟩ := h
  have hpackets : (openSession packets).count .connect = 1 := by
    unfold openSession
    rw [List.count_cons_self, List.count_eq_zero.mpr]
    simp
  rw [List.count_append, hpackets]
  rcases hlast with rfl | ⟨event, rfl, rfl | ⟨kind, rfl⟩⟩ <;> rfl

end Events

end Redpine

import Redpine.EndpointDelivery
import Redpine.SessionEvents

/-! Calls on an endpoint one after the other, and what they do to a direction of the connection
that the endpoint belongs to. -/
namespace Redpine
open Machine Buffer Wire

namespace Endpoint

/-- Calls on an endpoint one after the other. -/
inductive Inputs (bd : Build) (nowMs : ℕ) :
    Endpoint → List Input → List HostCall → Endpoint → Prop
  | nil (e : Endpoint) : Inputs bd nowMs e [] [] e
  | cons {e e₁ e' : Endpoint} {input : Input} {inputs : List Input} {calls more : List HostCall}
      (h : Effect bd nowMs e input calls e₁) (rest : Inputs bd nowMs e₁ inputs more e') :
      Inputs bd nowMs e (input :: inputs) (calls ++ more) e'

/-- The type of a frame of the handshake. -/
def IsHandshakeType : FrameType → Prop
  | .handshakeAlpha | .handshakeAlphaAck | .handshakeBeta | .handshakeBetaAck => True
  | _ => False

section Inputs
variable {bd : Build} {nowMs : ℕ} {e e' : Endpoint} {input : Input} {inputs : List Input}
  {calls : List HostCall}

lemma Inputs.single (h : Effect bd nowMs e input calls e') :
    Inputs bd nowMs e [input] calls e' := by
  have hcons := Inputs.cons h (.nil e')
  rwa [List.append_nil] at hcons

lemma Inputs.append {e₁ : Endpoint} {more : List Input} {calls' : List HostCall}
    (h : Inputs bd nowMs e inputs calls e₁) (h' : Inputs bd nowMs e₁ more calls' e') :
    Inputs bd nowMs e (inputs ++ more) (calls ++ calls') e' := by
  induction h with
  | nil e => exact h'
  | cons heffect rest ih =>
    rw [List.append_assoc]
    exact .cons heffect (ih h')

lemma Effect.readType {frameBytes : Bytes} (h : Effect bd nowMs e input calls e')
    (hmem : .sendFrame frameBytes ∈ calls) :
    ∃ frameType, readType bd frameBytes = .ok (some frameType) ∧ ¬ IsHandshakeType frameType := by
  rcases (h.sent hmem).readType bd with ⟨-, frameType, hstream, htype⟩ | ⟨-, htype, -⟩ |
    ⟨-, htype, -⟩
  · refine ⟨frameType, htype, ?_⟩
    cases frameType <;> first | exact hstream.elim | exact not_false
  · exact ⟨.close, htype, not_false⟩
  · exact ⟨.closeAck, htype, not_false⟩

/-- No frame of the handshake is sent by an endpoint. -/
lemma Inputs.readType {frameBytes : Bytes} (h : Inputs bd nowMs e inputs calls e')
    (hmem : .sendFrame frameBytes ∈ calls) :
    ∃ frameType, readType bd frameBytes = .ok (some frameType) ∧ ¬ IsHandshakeType frameType := by
  induction h with
  | nil e => cases hmem
  | cons heffect rest ih =>
    rcases List.mem_append.mp hmem with hmem | hmem
    · exact heffect.readType hmem
    · exact ih hmem

end Inputs

end Endpoint

namespace EndpointPair
open Endpoint

/-- The packets among the events of a connection. -/
def packetsIn (events : List Client.Event) : List Bytes :=
  events.filterMap fun
    | .receive packetBytes => some packetBytes
    | _ => none

/-- The packets that an endpoint passes on, each with whether it was sent as unreliable. -/
def taggedPackets (calls : List HostCall) : List (Bool × Bytes) :=
  calls.filterMap fun
    | .onReceive unrel packetBytes => some (unrel, packetBytes)
    | _ => none

/-- The packets received are made up of the reliable packets handed over, up to some point and
in order, and of some of the unreliable ones, in order. -/
def Delivered (packets : List Bytes) (given : List (Bytes × SendMode)) : Prop :=
  ∃ tagged : List (Bool × Bytes), packets = tagged.map Prod.snd ∧
    (tagged.filter fun packet => !packet.1).map Prod.snd <+: reliablePackets given ∧
    ((tagged.filter fun packet => packet.1).map Prod.snd).Sublist (unreliablePackets given)

/-- A party whose endpoint has just been initialized. -/
def newParty (e : Endpoint) : Party := ⟨{ e with stateId := .active }, none, [.onConnect], []⟩

section Delivered
variable {bd : Build} {p q : Party} {o : Outbox} {calls : List HostCall}

lemma packetsIn_append (events events' : List Client.Event) :
    packetsIn (events ++ events') = packetsIn events ++ packetsIn events' :=
  List.filterMap_append ..

lemma packetsIn_eventsOf : packetsIn (eventsOf calls) = (taggedPackets calls).map Prod.snd := by
  induction calls with
  | nil => rfl
  | cons call calls ih =>
    cases call with
    | onReceive unrel packetBytes => exact congrArg (packetBytes :: ·) ih
    | _ => exact ih

lemma received_eq (unrel : Bool) : received unrel calls =
    ((taggedPackets calls).filter fun packet => packet.1 == unrel).map Prod.snd := by
  induction calls with
  | nil => rfl
  | cons call calls ih =>
    cases call with
    | onReceive u packetBytes =>
      by_cases hu : u = unrel
      · simpa [received, taggedPackets, hu] using ih
      · simpa [received, taggedPackets, hu] using ih
    | _ => exact ih

/-- What the receiver of a direction has passed on. -/
theorem Linked.delivered (h : Linked bd p q o) :
    Delivered (packetsIn (eventsOf q.calls)) p.enqueued := by
  obtain ⟨b, taken, hin⟩ := h.incoming
  obtain ⟨accepted, hreliable⟩ := hin.tracked.reliable
  obtain ⟨done, hunreliable⟩ := hin.tracked.unreliable
  have hprefix := (hreliable.isPrefix (by decide)).trans h.reliable
  have hsublist := (hunreliable.packets.sublist hunreliable.sorted).trans h.unreliable.sublist
  refine ⟨taggedPackets q.calls, packetsIn_eventsOf, ?_, ?_⟩
  · rw [received_eq] at hprefix
    simpa using hprefix
  · rw [received_eq] at hsublist
    simpa using hsublist

/-- What has been received of packets has been received of them and of more. -/
lemma Delivered.mono {packets : List Bytes} {given given' : List (Bytes × SendMode)}
    (h : Delivered packets given) (hle : given <+: given') : Delivered packets given' := by
  obtain ⟨tagged, hpackets, hreliable, hunreliable⟩ := h
  obtain ⟨more, rfl⟩ := hle
  refine ⟨tagged, hpackets, ?_, ?_⟩
  · rw [reliablePackets_append]
    exact hreliable.trans (List.prefix_append _ _)
  · rw [unreliablePackets_append]
    exact hunreliable.trans (List.sublist_append_left _ _)

end Delivered

section Linked
variable {bd : Build} {p q : Party} {o : Outbox} {nowMs : ℕ} {inputs : List Input}
  {e e' : Endpoint} {prior calls : List HostCall} {enqueued : List (Bytes × SendMode)}

/-- The timers of the hosts play no part. -/
lemma Linked.withTimers (h : Linked bd p q o) (timer timer' : Option ℕ) :
    Linked bd { p with timer := timer } { q with timer := timer' } o :=
  ⟨h.outgoing, h.vouches, h.count, h.reliable, h.unreliable, h.current, h.incoming⟩

/-- Another party receives from the same outbox. -/
lemma Linked.withReceiver {q' : Party} (h : Linked bd p q o)
    (hin : ∃ b taken, Incoming q'.endpoint o b taken q'.calls) : Linked bd p q' o :=
  { h with incoming := hin }

/-- The party that sends is called. -/
lemma Linked.sendsAll (h : Linked bd ⟨e, none, prior, enqueued⟩ q o)
    (hinputs : Inputs bd nowMs e inputs calls e') (hinit : .init ∉ inputs) :
    ∃ o', Linked bd ⟨e', none, prior ++ calls, enqueued ++ inputs.flatMap enqueuedBy⟩ q o' ∧
      o.Extends o' := by
  induction hinputs generalizing prior enqueued o with
  | nil e =>
    rw [List.append_nil, List.flatMap_nil, List.append_nil]
    exact ⟨o, h, List.prefix_rfl, List.prefix_rfl, List.prefix_rfl, List.prefix_rfl⟩
  | @cons e e₁ e' input inputs calls more heffect rest ih =>
    have hne : input ≠ .init := fun heq => hinit (heq ▸ List.mem_cons_self)
    obtain ⟨o₁, hfirst, hle₁⟩ : ∃ o₁, Linked bd (Party.after ⟨e, none, prior, enqueued⟩ none input
        e₁ calls) q o₁ ∧ o.Extends o₁ := h.grows hne heffect
    obtain ⟨o', hrest, hle⟩ := ih (hfirst.withTimers none q.timer)
      fun hmem => hinit (List.mem_cons_of_mem _ hmem)
    rw [List.flatMap_cons, ← List.append_assoc, ← List.append_assoc]
    exact ⟨o', hrest, hle₁.trans hle⟩

/-- The party that receives is called. -/
lemma Linked.receivesAll (h : Linked bd p ⟨e, none, prior, enqueued⟩ o) (hsmall : o.Small)
    (hinputs : Inputs bd nowMs e inputs calls e')
    (hframe : ∀ frameType payloadBytes, .frame frameType payloadBytes ∈ inputs →
      ∃ frameBytes, .sendFrame frameBytes ∈ p.calls ∧
        readType bd frameBytes = .ok (some frameType) ∧
        payload bd frameBytes = .ok payloadBytes) :
    Linked bd p ⟨e', none, prior ++ calls, enqueued ++ inputs.flatMap enqueuedBy⟩ o := by
  induction hinputs generalizing prior enqueued with
  | nil e =>
    rw [List.append_nil, List.flatMap_nil, List.append_nil]
    exact h
  | @cons e e₁ e' input inputs calls more heffect rest ih =>
    have hfirst : Linked bd p (Party.after ⟨e, none, prior, enqueued⟩ none input e₁ calls) o :=
      h.receives hsmall heffect fun frameType payloadBytes heq =>
        hframe frameType payloadBytes (heq ▸ List.mem_cons_self)
    have hrest := ih (hfirst.withTimers p.timer none)
      fun frameType payloadBytes hmem => hframe frameType payloadBytes (List.mem_cons_of_mem _ hmem)
    rw [List.flatMap_cons, ← List.append_assoc, ← List.append_assoc]
    exact hrest

lemma newParty_initial {config : Endpoint.Config} {e : Endpoint} (haccepted : config.Accepted bd)
    (hnew : Endpoint.new config = .ok e) : ∃ (config : Endpoint.Config) (e₀ e₁ : Endpoint)
      (calls : List HostCall), config.Accepted bd ∧ Endpoint.new config = .ok e₀ ∧
        e₀.init bd = .ok (e₁, calls) ∧ newParty e = ⟨e₁, none, calls, []⟩ := by
  have hpre : e.stateId = .preInit := (new_fresh hnew).stateId_eq
  refine ⟨config, e, { e with stateId := .active }, [.onConnect], haccepted, hnew, ?_, rfl⟩
  unfold Endpoint.init
  rw [debugAssert_true hpre]
  rfl

/-- Two parties that have just been initialized. -/
lemma newParty_linked {config config' : Endpoint.Config} {e e' : Endpoint}
    (haccepted : config.Accepted bd) (hnew : Endpoint.new config = .ok e)
    (haccepted' : config'.Accepted bd) (hnew' : Endpoint.new config' = .ok e') :
    Linked bd (newParty e) (newParty e') .empty := by
  have hinit : EndpointPair.Initial bd fun side =>
      if side = .a then newParty e else newParty e' := by
    intro side
    cases side with
    | a => exact newParty_initial haccepted hnew
    | b => exact newParty_initial haccepted' hnew'
  exact linked_initial hinit .a

/-- Packets that are handed over once the endpoint has ended are lost. -/
lemma Linked.ignores {e : Endpoint} {calls : List HostCall} {given more : List (Bytes × SendMode)}
    (h : Linked bd ⟨e, none, calls, given⟩ q o) (hzombie : more ≠ [] → e.stateId = .zombie) :
    Linked bd ⟨e, none, calls, given ++ more⟩ q o := by
  by_cases hmore : more = []
  · subst hmore
    rw [List.append_nil]
    exact h
  · refine ⟨h.outgoing, h.vouches, h.count, ?_, ?_, fun hactive => ?_, h.incoming⟩
    · rw [reliablePackets_append]
      exact h.reliable.trans (List.prefix_append _ _)
    · rw [unreliablePackets_append]
      exact h.unreliable.trans (List.prefix_append _ _)
    · cases hactive.symm.trans (hzombie hmore)

lemma extends_empty (o : Outbox) : Outbox.empty.Extends o :=
  ⟨List.nil_prefix, List.nil_prefix, List.nil_prefix, List.nil_prefix⟩

lemma small_empty : Outbox.empty.Small := by
  refine ⟨?_, ?_, ?_⟩ <;> simp [Outbox.empty, Outbox.fragments]

/-- Whoever has received nothing has received it from anyone. -/
lemma Linked.withNew {config : Endpoint.Config} {e : Endpoint}
    (h : Linked bd p q o) (haccepted : config.Accepted bd) (hnew : Endpoint.new config = .ok e) :
    Linked bd p (newParty e) o := by
  obtain ⟨b, taken, hin⟩ := (newParty_linked haccepted hnew haccepted hnew).incoming
  exact h.withReceiver ⟨b, taken, hin.mono (extends_empty o)⟩

end Linked

end EndpointPair

end Redpine

import Redpine.EndpointInbox
import Redpine.EndpointPair

/-! End-to-end delivery. Whatever the network does to the frames between two endpoints, each of
them passes on reliable packets of the other without a gap, and unreliable ones in order. -/
namespace Redpine.EndpointPair
open Machine Buffer Wire Endpoint Transition

/-- The number of segments that a party has sent. -/
def segmentsSent (bd : Build) (p : Party) : ℕ := p.calls.countP (carriesSegment bd)

/-- The number of fragments of the packets that a party was given. -/
def fragmentsEnqueued (p : Party) : ℕ :=
  ((p.enqueued.map Prod.fst).flatMap (fragmentsOf fragmentSize)).length

/-- One direction of the connection: the outbox of a party, and what the other has of it. -/
structure Linked (bd : Build) (p q : Party) (o : Outbox) : Prop where
  outgoing : ∃ v, Outgoing bd p.endpoint o v
  vouches : o.Vouches p.calls
  count : o.segments.length = segmentsSent bd p
  reliable : o.reliable <+: reliablePackets p.enqueued
  unreliable : o.unreliable.map Prod.fst <+: unreliablePackets p.enqueued
  current : p.endpoint.stateId = .active → o.reliable = reliablePackets p.enqueued ∧
    o.unreliable.map Prod.fst = unreliablePackets p.enqueued
  incoming : ∃ b taken, Incoming q.endpoint o b taken q.calls

section Small
variable {bd : Build} {p q : Party} {o : Outbox} {enqueued : List (Bytes × SendMode)}

lemma reliablePackets_sublist : (reliablePackets enqueued).Sublist (enqueued.map Prod.fst) := by
  induction enqueued with
  | nil => exact .slnil
  | cons item enqueued ih =>
    obtain ⟨packetBytes, mode⟩ := item
    cases mode with
    | reliable => exact ih.cons_cons packetBytes
    | unreliable timeoutMs => exact ih.cons packetBytes

lemma unreliablePackets_sublist :
    (unreliablePackets enqueued).Sublist (enqueued.map Prod.fst) := by
  induction enqueued with
  | nil => exact .slnil
  | cons item enqueued ih =>
    obtain ⟨packetBytes, mode⟩ := item
    cases mode with
    | reliable => exact ih.cons packetBytes
    | unreliable timeoutMs => exact ih.cons_cons packetBytes

lemma Linked.small (h : Linked bd p q o) (hsegments : segmentsSent bd p < 2 ^ 31)
    (hfragments : fragmentsEnqueued p < 2 ^ 31) : o.Small := by
  obtain ⟨v, hout⟩ := h.outgoing
  have hle : ∀ packets : List Bytes, packets.Sublist (p.enqueued.map Prod.fst) →
      (packets.flatMap (fragmentsOf fragmentSize)).length ≤ fragmentsEnqueued p := by
    intro packets hsub
    exact (hsub.flatMap _).length_le
  refine ⟨h.count ▸ hsegments, ?_, ?_⟩
  · exact (hle _ (h.reliable.sublist.trans reliablePackets_sublist)).trans_lt hfragments
  · have hroom := hout.room
    have hmap : o.unreliable.flatMap (fun push => fragmentsOf fragmentSize push.1) =
        (o.unreliable.map Prod.fst).flatMap (fragmentsOf fragmentSize) := by
      rw [List.flatMap_map]
    have := hle _ (h.unreliable.sublist.trans unreliablePackets_sublist)
    rw [hmap] at hroom
    omega

end Small

section Steps
variable {bd : Build} {p q : Party} {o : Outbox} {nowMs : ℕ} {timer : Option ℕ} {input : Input}
  {e : Endpoint} {calls : List HostCall}

lemma accepted_of_active (h : p.endpoint.stateId = .active) :
    accepted p.endpoint input = enqueuedBy input := by
  cases input with
  | enqueue packetBytes mode => exact if_pos h
  | _ => rfl

lemma accepted_of_ne_active (h : p.endpoint.stateId ≠ .active) :
    accepted p.endpoint input = [] := by
  cases input with
  | enqueue packetBytes mode => exact if_neg h
  | _ => rfl

/-- The party that sends makes a call: its outbox grows. -/
lemma Linked.grows (h : Linked bd p q o) (hinit : input ≠ .init)
    (heffect : Effect bd nowMs p.endpoint input calls e) :
    ∃ o', Linked bd (p.after timer input e calls) q o' ∧ o.Extends o' := by
  obtain ⟨v, hout⟩ := h.outgoing
  obtain ⟨o', v', hout', hgrows⟩ := heffect.outgoing hout
  obtain ⟨b, taken, hin⟩ := h.incoming
  have hpackets : reliablePackets (p.enqueued ++ enqueuedBy input) =
      reliablePackets p.enqueued ++ reliablePackets (enqueuedBy input) := reliablePackets_append
  have hpackets' : unreliablePackets (p.enqueued ++ enqueuedBy input) =
      unreliablePackets p.enqueued ++ unreliablePackets (enqueuedBy input) :=
    unreliablePackets_append
  have hreliable := hgrows.reliable
  have hunreliable := hgrows.unreliable
  have hall : p.endpoint.stateId = .active →
      o'.reliable = reliablePackets (p.enqueued ++ enqueuedBy input) ∧
      o'.unreliable.map Prod.fst = unreliablePackets (p.enqueued ++ enqueuedBy input) := by
    intro hactive
    obtain ⟨hcurrent, hcurrent'⟩ := h.current hactive
    rw [accepted_of_active hactive] at hreliable hunreliable
    rw [hreliable, hunreliable, hcurrent, hcurrent', hpackets, hpackets']
    exact ⟨rfl, rfl⟩
  have hbefore : o'.reliable <+: reliablePackets (p.enqueued ++ enqueuedBy input) ∧
      o'.unreliable.map Prod.fst <+: unreliablePackets (p.enqueued ++ enqueuedBy input) := by
    by_cases hactive : p.endpoint.stateId = .active
    · rw [(hall hactive).1, (hall hactive).2]
      exact ⟨List.prefix_rfl, List.prefix_rfl⟩
    · rw [accepted_of_ne_active hactive] at hreliable hunreliable
      rw [hreliable, hunreliable, hpackets, hpackets']
      refine ⟨?_, ?_⟩
      · simpa [reliablePackets] using h.reliable.trans (List.prefix_append _ _)
      · simpa [unreliablePackets] using h.unreliable.trans (List.prefix_append _ _)
  refine ⟨o', ⟨⟨v', hout'⟩, (h.vouches.mono hgrows.mono).append hgrows.vouches, ?_, hbefore.1,
    hbefore.2, fun hactive => hall (heffect.outline.active_of hactive hinit),
    ⟨b, taken, hin.mono hgrows.mono⟩⟩, hgrows.mono⟩
  rw [hgrows.count, h.count]
  exact List.countP_append.symm

lemma Linked.sends (h : Linked bd p q o) (hinit : input ≠ .init)
    (heffect : Effect bd nowMs p.endpoint input calls e) :
    ∃ o', Linked bd (p.after timer input e calls) q o' := by
  obtain ⟨o', hlinked, -⟩ := h.grows hinit heffect
  exact ⟨o', hlinked⟩

/-- The party that receives makes a call. -/
lemma Linked.receives (h : Linked bd p q o) (hsmall : o.Small)
    (heffect : Effect bd nowMs q.endpoint input calls e)
    (hframe : ∀ frameType payloadBytes, input = .frame frameType payloadBytes →
      ∃ frameBytes, .sendFrame frameBytes ∈ p.calls ∧
        readType bd frameBytes = .ok (some frameType) ∧
        payload bd frameBytes = .ok payloadBytes) :
    Linked bd p (q.after timer input e calls) o := by
  obtain ⟨v, hout⟩ := h.outgoing
  obtain ⟨b, taken, hin⟩ := h.incoming
  have hhonest : ∀ frameType payloadBytes, input = .frame frameType payloadBytes →
      o.Honest frameType payloadBytes := by
    intro frameType payloadBytes hinput
    obtain ⟨frameBytes, hmem, htype, hpayload⟩ := hframe frameType payloadBytes hinput
    obtain ⟨frameType', payloadBytes', rfl, hhonest⟩ := h.vouches frameBytes hmem
    rw [readType_frameOf] at htype
    rw [payload_frameOf] at hpayload
    cases htype
    cases hpayload
    exact hhonest
  exact { h with incoming := heffect.incoming hin hout.sound hsmall hhonest }

end Steps

section Runs
variable {bd : Build} {s s' : State} {a : Action}

lemma linked_initial (h : Initial bd s) (side : Side) :
    Linked bd (s side) (s side.other) .empty := by
  have hparty : ∀ x, (∃ v, Outgoing bd (s x).endpoint .empty v) ∧
      (∃ b taken, Incoming (s x).endpoint .empty b taken []) ∧
      (s x).calls = [.onConnect] ∧ (s x).enqueued = [] := by
    intro x
    obtain ⟨config, e₀, e, calls, hconfig, hnew, hinit, hs⟩ := h x
    obtain ⟨_, -, hinit⟩ := bind_eq_ok.mp hinit
    cases hinit
    have hsender := new_sender bd False 0 hconfig hnew
    have hfresh := new_fresh hnew
    obtain ⟨b, hin⟩ := Incoming.new hfresh
    have hout := Outgoing.new hsender hfresh
    rw [hs]
    exact ⟨⟨_, hout.of_sender ⟨hsender.1, hsender.2, hsender.3, hsender.4, hsender.5, hsender.6⟩
      rfl rfl rfl⟩, ⟨b, 0, hin.models, hin.pending, hin.base_le, hin.carries, hin.tracked⟩, rfl,
      rfl⟩
  obtain ⟨hout, -, hcalls, henqueued⟩ := hparty side
  obtain ⟨-, ⟨b, taken, hin⟩, hcalls', -⟩ := hparty side.other
  refine ⟨hout, ?_, ?_, ?_, ?_, ?_, b, taken, ?_⟩
  · rw [hcalls]
    exact .of_not_mem (by simp)
  · unfold segmentsSent
    rw [hcalls]
    rfl
  · rw [henqueued]
    exact List.prefix_rfl
  · rw [henqueued]
    exact List.prefix_rfl
  · rw [henqueued]
    exact fun _ => ⟨rfl, rfl⟩
  · have hquiet : Incoming (s side.other).endpoint .empty b taken ([] ++ [.onConnect]) :=
      hin.quiet rfl rfl rfl fun _ => rfl
    rw [hcalls']
    exact hquiet

/-- Within which the IDs of a direction are distinct. -/
def Bounded (bd : Build) (p : Party) : Prop :=
  segmentsSent bd p < 2 ^ 31 ∧ fragmentsEnqueued p < 2 ^ 31

lemma Bounded.of_after {p : Party} {timer : Option ℕ} {input : Input} {e : Endpoint}
    {calls : List HostCall} (h : Bounded bd (p.after timer input e calls)) : Bounded bd p := by
  obtain ⟨hsegments, hfragments⟩ := h
  unfold segmentsSent Party.after at hsegments
  unfold fragmentsEnqueued Party.after at hfragments
  rw [List.countP_append] at hsegments
  simp only [List.map_append, List.flatMap_append, List.length_append] at hfragments
  exact ⟨(Nat.le_add_right _ _).trans_lt hsegments, (Nat.le_add_right _ _).trans_lt hfragments⟩

/-- Whatever the step, one party makes a call. -/
lemma Step.after (h : Step bd s a s') : ∃ side timer input e calls,
    s' = Function.update s side ((s side).after timer input e calls) := by
  cases h with
  | call hinput hok => exact ⟨_, _, _, _, _, rfl⟩
  | deliver hsent htype hpayload hok => exact ⟨_, _, _, _, _, rfl⟩
  | fire htimer hok => exact ⟨_, _, _, _, _, rfl⟩

lemma bounded_before (side : Side) (h : Step bd s a s') (hbound : Bounded bd (s' side)) :
    Bounded bd (s side) := by
  obtain ⟨x, timer, input, e, calls, rfl⟩ := h.after
  by_cases hx : side = x
  · subst hx
    rw [Function.update_self] at hbound
    exact hbound.of_after
  · rwa [Function.update_of_ne hx] at hbound

lemma linked_step (side : Side) (h : ∃ o, Linked bd (s side) (s side.other) o)
    (hbound : Bounded bd (s side)) (hchange : Change bd s a s') :
    ∃ o, Linked bd (s' side) (s' side.other) o := by
  obtain ⟨o, h⟩ := h
  have hsmall := h.small hbound.1 hbound.2
  cases hchange with
  | @mk x input nowMs timer e calls hinit heffect hframe hparty =>
    rcases eq_or_other side x with rfl | rfl
    · rw [Function.update_self, Function.update_of_ne (other_ne x)]
      exact h.sends hinit heffect
    · rw [Function.update_self, Function.update_of_ne (other_ne side).symm]
      rw [other_other] at hframe
      exact ⟨o, h.receives hsmall heffect hframe⟩

theorem linked_reachable (hs : Reachable (system bd) s) (side : Side)
    (hbound : Bounded bd (s side)) : ∃ o, Linked bd (s side) (s side.other) o := by
  induction hs using Reachable.induct with
  | init h => exact ⟨.empty, linked_initial h side⟩
  | step hs hstep ih =>
    have hbefore := bounded_before side hstep hbound
    exact linked_step side (ih hbefore) hbefore (change_of_reachable hs hstep)

lemma mem_received {unrel : Bool} {packetBytes : Bytes} {calls : List HostCall}
    (h : .onReceive unrel packetBytes ∈ calls) : packetBytes ∈ received unrel calls :=
  List.mem_filterMap.mpr ⟨_, h, if_pos rfl⟩

lemma mem_reliablePackets {packetBytes : Bytes} {enqueued : List (Bytes × SendMode)}
    (h : packetBytes ∈ reliablePackets enqueued) : (packetBytes, .reliable) ∈ enqueued := by
  obtain ⟨⟨item, mode⟩, hmem, hitem⟩ := List.mem_filterMap.mp h
  cases mode with
  | reliable =>
    cases hitem
    exact hmem
  | unreliable timeoutMs => cases hitem

lemma mem_unreliablePackets {packetBytes : Bytes} {enqueued : List (Bytes × SendMode)}
    (h : packetBytes ∈ unreliablePackets enqueued) :
    ∃ timeoutMs, (packetBytes, .unreliable timeoutMs) ∈ enqueued := by
  obtain ⟨⟨item, mode⟩, hmem, hitem⟩ := List.mem_filterMap.mp h
  cases mode with
  | reliable => cases hitem
  | unreliable timeoutMs =>
    cases hitem
    exact ⟨timeoutMs, hmem⟩

/-- The packets that an endpoint has passed on from reliable datagrams are a prefix of those that
the other was given as reliable, those from unreliable datagrams are a subsequence of those that
it was given as unreliable, and nothing else is passed on. -/
theorem end_to_end_delivery (hs : Reachable (system bd) s) (side : Side)
    (hsegments : segmentsSent bd (s side) < 2 ^ 31)
    (hfragments : fragmentsEnqueued (s side) < 2 ^ 31) :
    received false (s side.other).calls <+: reliablePackets (s side).enqueued ∧
      (received true (s side.other).calls).Sublist (unreliablePackets (s side).enqueued) ∧
      ∀ unrel packetBytes, .onReceive unrel packetBytes ∈ (s side.other).calls →
        ∃ mode, (packetBytes, mode) ∈ (s side).enqueued ∧ (unrel = false ↔ mode = .reliable) := by
  obtain ⟨o, h⟩ := linked_reachable hs side ⟨hsegments, hfragments⟩
  obtain ⟨b, taken, hin⟩ := h.incoming
  obtain ⟨accepted, hreliable⟩ := hin.tracked.reliable
  obtain ⟨done, hunreliable⟩ := hin.tracked.unreliable
  have hreceived : received false (s side.other).calls <+: reliablePackets (s side).enqueued :=
    (hreliable.isPrefix (by decide)).trans h.reliable
  have hsublist : (received true (s side.other).calls).Sublist
      (unreliablePackets (s side).enqueued) :=
    (hunreliable.packets.sublist hunreliable.sorted).trans h.unreliable.sublist
  refine ⟨hreceived, hsublist, fun unrel packetBytes hmem => ?_⟩
  cases unrel with
  | false =>
    have henqueued := mem_reliablePackets (hreceived.subset (mem_received hmem))
    exact ⟨.reliable, henqueued, by simp⟩
  | true =>
    obtain ⟨timeoutMs, henqueued⟩ := mem_unreliablePackets (hsublist.mem (mem_received hmem))
    exact ⟨.unreliable timeoutMs, henqueued, by simp⟩

end Runs

section Sample

/-- A packet of each kind in one segment. -/
def sampleMoves : List (State → Option Action) :=
  [fun _ => some (.call .a (.enqueue [1] .reliable) 1 fun _ => false),
    fun _ => some (.call .a (.enqueue [2] (.unreliable 50)) 1 fun _ => false),
    fun _ => some (.call .a .flush 1 fun _ => false),
    fun s => (s.sent .a)[0]?.map fun frameBytes => .deliver .b frameBytes 2 fun _ => false]

theorem end_to_end_delivery_sample : ∃ s, Reachable (system .debug) s ∧
    received false (s .b).calls = [[1]] ∧ received true (s .b).calls = [[2]] ∧
    received false (s .b).calls <+: reliablePackets (s .a).enqueued ∧
      (received true (s .b).calls).Sublist (unreliablePackets (s .a).enqueued) := by
  have hrun : ((sampleStart.bind fun s => play .debug s sampleMoves).map fun s =>
      decide (received false (s .b).calls = [[1]] ∧ received true (s .b).calls = [[2]] ∧
        segmentsSent .debug (s .a) < 2 ^ 31 ∧ fragmentsEnqueued (s .a) < 2 ^ 31)) = some true := by
    decide +kernel
  obtain ⟨s, hplay, hdecide⟩ := Option.map_eq_some_iff.mp hrun
  obtain ⟨hreliable, hunreliable, hsegments, hfragments⟩ := of_decide_eq_true hdecide
  have hs := sampleStart_play hplay
  obtain ⟨hreceived, hsublist, -⟩ := end_to_end_delivery hs .a hsegments hfragments
  exact ⟨s, hs, hreliable, hunreliable, hreceived, hsublist⟩

end Sample

end Redpine.EndpointPair

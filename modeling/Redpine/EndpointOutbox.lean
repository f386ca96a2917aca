import Redpine.EndpointFrames
import Redpine.UnreliableOrder

/-! What an endpoint puts on its stream. Every segment carries datagrams of known fragments, and
every frame tells the truth about the segments sent. -/
namespace Redpine
open Machine Buffer Wire SerialId Unreliable FragmentTxBuffers

namespace Endpoint

/-- The packets accepted for each mode, the origins of the unreliable fragments that were sent,
and the datagrams of each segment. -/
structure Outbox where
  reliable : List Bytes
  unreliable : List Push
  origins : List Origin
  segments : List (List Datagram)

namespace Outbox

def empty : Outbox := ⟨[], [], [], []⟩

def fragments (o : Outbox) : List FragmentRc := o.reliable.flatMap (fragmentsOf fragmentSize)

/-- Datagrams that carry fragments. The unreliable ones are those of the positions from one up
to another. -/
inductive Carries (o : Outbox) : ℕ → List Datagram → ℕ → Prop
  | nil (n : ℕ) : Carries o n [] n
  | rel {n n' k : ℕ} {rc : FragmentRc} {datagrams : List Datagram}
      (hget : o.fragments[k]? = some rc) (rest : Carries o n datagrams n') :
      Carries o n (toDatagram false (idAt 0 k) rc :: datagrams) n'
  | unrel {n n' : ℕ} {origin : Origin} {rc : FragmentRc} {datagrams : List Datagram}
      (hget : o.origins[n]? = some origin)
      (hrc : IsFragment fragmentSize o.unreliable origin rc)
      (rest : Carries o (n + 1) datagrams n') :
      Carries o n (toDatagram true (idAt 0 n) rc :: datagrams) n'

structure Sound (o : Outbox) : Prop where
  carries : o.Carries 0 o.segments.flatten o.origins.length
  fits : ∀ datagrams ∈ o.segments, (datagrams.flatMap encodeDatagram).length ≤ frameSizeMax
  chain : o.origins.IsChain Follows

/-- Whatever was accepted or sent before stays. -/
structure Extends (o o' : Outbox) : Prop where
  reliable : o.reliable <+: o'.reliable
  unreliable : o.unreliable <+: o'.unreliable
  origins : o.origins <+: o'.origins
  segments : o.segments <+: o'.segments

section Extends
variable {o o' o'' : Outbox}

lemma Extends.refl (o : Outbox) : o.Extends o :=
  ⟨List.prefix_rfl, List.prefix_rfl, List.prefix_rfl, List.prefix_rfl⟩

lemma Extends.trans (h : o.Extends o') (h' : o'.Extends o'') : o.Extends o'' :=
  ⟨h.1.trans h'.1, h.2.trans h'.2, h.3.trans h'.3, h.4.trans h'.4⟩

lemma get_of_isPrefix {α : Type} {xs ys : List α} (h : xs <+: ys) {n : ℕ} {x : α}
    (hget : xs[n]? = some x) : ys[n]? = some x := by
  obtain ⟨more, rfl⟩ := h
  exact getElem?_append_some hget

lemma Extends.fragments (h : o.Extends o') : o.fragments <+: o'.fragments := by
  obtain ⟨more, hmore⟩ := h.reliable
  exact ⟨more.flatMap (fragmentsOf fragmentSize), by
    unfold Outbox.fragments
    rw [← hmore, List.flatMap_append]⟩

end Extends

section Carries
variable {o o' : Outbox} {m n n' : ℕ} {datagrams more : List Datagram}

lemma Carries.mono (h : o.Carries n datagrams n') (hle : o.Extends o') :
    o'.Carries n datagrams n' := by
  induction h with
  | nil n => exact .nil n
  | rel hget rest ih => exact .rel (get_of_isPrefix hle.fragments hget) ih
  | unrel hget hrc rest ih =>
    obtain ⟨pushed, hpushed⟩ := hle.unreliable
    refine .unrel (get_of_isPrefix hle.origins hget) ?_ ih
    rw [← hpushed]
    exact hrc.append pushed

lemma Carries.append (h : o.Carries m datagrams n) (h' : o.Carries n more n') :
    o.Carries m (datagrams ++ more) n' := by
  induction h with
  | nil n => exact h'
  | rel hget rest ih => exact .rel hget (ih h')
  | unrel hget hrc rest ih => exact .unrel hget hrc (ih h')

lemma Carries.split (h : o.Carries m (datagrams ++ more) n') :
    ∃ n, o.Carries m datagrams n ∧ o.Carries n more n' := by
  induction datagrams generalizing m with
  | nil => exact ⟨m, .nil m, h⟩
  | cons d datagrams ih =>
    cases h with
    | rel hget rest =>
      obtain ⟨n, hfirst, hmore⟩ := ih rest
      exact ⟨n, .rel hget hfirst, hmore⟩
    | unrel hget hrc rest =>
      obtain ⟨n, hfirst, hmore⟩ := ih rest
      exact ⟨n, .unrel hget hrc hfirst, hmore⟩

lemma Carries.le (h : o.Carries m datagrams n) : m ≤ n := by
  induction h with
  | nil n => exact le_rfl
  | rel hget rest ih => exact ih
  | unrel hget hrc rest ih => omega

lemma Carries.unique (h : o.Carries m datagrams n) (h' : o.Carries m datagrams n') : n = n' := by
  have hcount : ∀ {m n : ℕ} {datagrams : List Datagram}, o.Carries m datagrams n →
      n = m + datagrams.countP (·.unrel) := by
    intro m n datagrams h
    induction h with
    | nil n => rfl
    | rel hget rest ih => simpa [toDatagram] using ih
    | unrel hget hrc rest ih =>
      rw [ih, List.countP_cons_of_pos rfl]
      omega
  rw [hcount h, hcount h']

/-- No datagram carries more than a frame has room for. -/
lemma Carries.data_length_le (h : o.Carries m datagrams n) :
    ∀ d ∈ datagrams, d.data.length ≤ datagramDataSizeMax := by
  have hsize : ∀ {packet : Bytes} {rc : FragmentRc}, IsFragmentOf fragmentSize packet rc →
      rc.view.data.length ≤ datagramDataSizeMax := by
    intro packet rc hrc
    exact (fragmentIsValid_iff.mp hrc.valid).1.trans (by decide)
  induction h with
  | nil n => simp
  | rel hget rest ih =>
    intro d hd
    rcases List.mem_cons.mp hd with rfl | hd
    · obtain ⟨packet, -, hrc⟩ := List.mem_flatMap.mp (List.mem_of_getElem? hget)
      exact hsize (fragmentsOf_isFragmentOf (by decide) hrc)
    · exact ih d hd
  | unrel hget hrc rest ih =>
    intro d hd
    rcases List.mem_cons.mp hd with rfl | hd
    · obtain ⟨packet, hfrag⟩ := hrc.isFragmentOf (by decide)
      exact hsize hfrag
    · exact ih d hd

end Carries

section Segments
variable {o : Outbox} {base next p m : ℕ} {datagrams : List Datagram}

lemma Sound.take (ho : o.Sound) (next : ℕ) :
    ∃ n, o.Carries 0 (o.segments.take next).flatten n := by
  have h := ho.carries
  rw [← List.take_append_drop next o.segments, List.flatten_append] at h
  obtain ⟨n, hn, -⟩ := h.split
  exact ⟨n, hn⟩

/-- Later segments carry later fragments. -/
lemma Sound.take_mono (ho : o.Sound) (h : o.Carries 0 (o.segments.take base).flatten m)
    (hle : base ≤ next) : ∃ n, m ≤ n ∧ o.Carries 0 (o.segments.take next).flatten n := by
  obtain ⟨n, hn⟩ := ho.take next
  refine ⟨n, ?_, hn⟩
  have hsplit : o.segments.take next =
      o.segments.take base ++ (o.segments.take next).drop base := by
    have h := List.take_append_drop base (o.segments.take next)
    rw [List.take_take, min_eq_left hle] at h
    exact h.symm
  rw [hsplit, List.flatten_append] at hn
  obtain ⟨m', hm, hrest⟩ := hn.split
  rw [h.unique hm]
  exact hrest.le

/-- The fragments of one segment follow those of the segments before it. -/
lemma Sound.segment (ho : o.Sound) (h : o.Carries 0 (o.segments.take p).flatten m)
    (hget : o.segments[p]? = some datagrams) :
    ∃ n, o.Carries m datagrams n ∧ o.Carries 0 (o.segments.take (p + 1)).flatten n := by
  obtain ⟨n, hn⟩ := ho.take (p + 1)
  refine ⟨n, ?_, hn⟩
  rw [List.take_add_one, hget, List.flatten_append] at hn
  obtain ⟨m', hm, hrest⟩ := hn.split
  rw [h.unique hm]
  simpa using hrest

end Segments

/-- The payloads of frames that tell the truth about an outbox. -/
inductive Honest (o : Outbox) : FrameType → Bytes → Prop
  | segment {p : ℕ} {nonce : Bool} {datagrams : List Datagram}
      (hget : o.segments[p]? = some datagrams) :
      Honest o .streamSegment
        (LawfulBlock.encode (⟨idAt 0 p, nonce⟩ : StreamSegmentHeader) ++
          datagrams.flatMap encodeDatagram)
  | segmentAck {ack : StreamAck} {p : ℕ} {nonce : Bool} {datagrams : List Datagram}
      (hvalid : LawfulBlock.Valid ack) (hget : o.segments[p]? = some datagrams) :
      Honest o .streamSegmentAck
        (LawfulBlock.encode ack ++
          (LawfulBlock.encode (⟨idAt 0 p, nonce⟩ : StreamSegmentHeader) ++
            datagrams.flatMap encodeDatagram))
  | ack {ack : StreamAck} (hvalid : LawfulBlock.Valid ack) :
      Honest o .streamAck (LawfulBlock.encode ack)
  | sync {q : ℕ} (hle : q ≤ o.segments.length) :
      Honest o .streamSync (LawfulBlock.encode (StreamSync.mk (idAt 0 q)))
  | close (payloadBytes : Bytes) : Honest o .close payloadBytes
  | closeAck (payloadBytes : Bytes) : Honest o .closeAck payloadBytes

/-- All frames among the calls are such frames. -/
def Vouches (o : Outbox) (calls : List HostCall) : Prop :=
  ∀ frameBytes, .sendFrame frameBytes ∈ calls →
    ∃ frameType payloadBytes, frameBytes = frameOf frameType payloadBytes ∧
      o.Honest frameType payloadBytes

section Honest
variable {o o' : Outbox} {frameType : FrameType} {payloadBytes : Bytes}
  {calls calls' : List HostCall}

lemma Honest.mono (h : o.Honest frameType payloadBytes) (hle : o.Extends o') :
    o'.Honest frameType payloadBytes := by
  cases h with
  | segment hget => exact .segment (get_of_isPrefix hle.segments hget)
  | segmentAck hvalid hget => exact .segmentAck hvalid (get_of_isPrefix hle.segments hget)
  | ack hvalid => exact .ack hvalid
  | sync hq => exact .sync (hq.trans hle.segments.length_le)
  | close => exact .close _
  | closeAck => exact .closeAck _

lemma Vouches.mono (h : o.Vouches calls) (hle : o.Extends o') : o'.Vouches calls := by
  intro frameBytes hmem
  obtain ⟨frameType, payloadBytes, heq, hhonest⟩ := h frameBytes hmem
  exact ⟨frameType, payloadBytes, heq, hhonest.mono hle⟩

lemma Vouches.append (h : o.Vouches calls) (h' : o.Vouches calls') :
    o.Vouches (calls ++ calls') := by
  intro frameBytes hmem
  rcases List.mem_append.mp hmem with hmem | hmem
  · exact h frameBytes hmem
  · exact h' frameBytes hmem

lemma Vouches.of_not_mem (h : ∀ frameBytes, .sendFrame frameBytes ∉ calls) : o.Vouches calls :=
  fun frameBytes hmem => absurd hmem (h frameBytes)

lemma Vouches.cons {p : Bytes} (h : o.Honest frameType p) (h' : o.Vouches calls) :
    o.Vouches (.sendFrame (frameOf frameType p) :: calls) := by
  intro frameBytes hmem
  rcases List.mem_cons.mp hmem with hmem | hmem
  · cases hmem
    exact ⟨frameType, p, rfl, h⟩
  · exact h' frameBytes hmem

end Honest

end Outbox

/-- What the sending half knows of its outbox. -/
structure Outgoing (bd : Build) (e : Endpoint) (o : Outbox) (v : SenderView) : Prop where
  sender : e.Sender bd False 0 v
  fragments : v.all = o.fragments
  segments : v.sizes.length = o.segments.length
  unrel : ∃ queue, e.fragmentTx.unrel.Tracks 0 o.unreliable o.origins queue
  room : o.origins.length + e.fragmentTx.unrel.fragments.length ≤
    (o.unreliable.flatMap fun push => fragmentsOf fragmentSize push.1).length
  sound : o.Sound

/-- A frame that carries a segment. -/
def carriesSegment (bd : Build) : HostCall → Bool
  | .sendFrame frameBytes =>
      match readType bd frameBytes with
      | .ok (some .streamSegment) | .ok (some .streamSegmentAck) => true
      | _ => false
  | _ => false

section Sends
variable {bd : Build} {o : Outbox} {b b' : FragmentTxBuffers} {nowMs discarded cursor sent : ℕ}
  {queue : List Origin} {datagrams : List Datagram}

/-- The outbox once a segment has been sent. -/
def Outbox.send (o : Outbox) (origins : List Origin) (datagrams : List Datagram) : Outbox :=
  { o with origins := o.origins ++ origins, segments := o.segments ++ [datagrams] }

lemma Outbox.extends_send (o : Outbox) (origins : List Origin) (datagrams : List Datagram) :
    o.Extends (o.send origins datagrams) :=
  ⟨List.prefix_rfl, List.prefix_rfl, List.prefix_append _ _, List.prefix_append _ _⟩

/-- The outbox once fragments have left the unreliable queue. -/
def Outbox.pop (o : Outbox) (origins : List Origin) : Outbox :=
  { o with origins := o.origins ++ origins }

lemma Outbox.extends_pop (o : Outbox) (origins : List Origin) : o.Extends (o.pop origins) :=
  ⟨List.prefix_rfl, List.prefix_rfl, List.prefix_append _ _, List.prefix_rfl⟩

/-- The unreliable queue, and how much it can still send. -/
structure Queued (o : Outbox) (b : FragmentTxBuffers) (queue : List Origin) : Prop where
  tracks : b.unrel.Tracks 0 o.unreliable o.origins queue
  room : o.origins.length + b.unrel.fragments.length ≤
    (o.unreliable.flatMap fun push => fragmentsOf fragmentSize push.1).length

lemma Queued.popExpired (h : Queued o b queue) (nowMs : ℕ) :
    ∃ queue', Queued o (b.popExpired nowMs) queue' := by
  obtain ⟨n, htracks, -⟩ := h.tracks.popExpired nowMs
  have hroom := h.room
  have hle := b.popExpired_length_le nowMs
  exact ⟨_, htracks, by omega⟩

/-- One pop yields a datagram that carries a fragment. -/
lemma Queued.pops (h : Queued o b queue)
    (hsound : b.Sound False fragmentSize 0 o.fragments discarded cursor sent)
    {datagram : Datagram} (hp : Pops nowMs b datagram b') :
    ∃ origins queue', Queued (o.pop origins) b' queue' ∧
      (o.pop origins).Carries o.origins.length [datagram] (o.pop origins).origins.length := by
  obtain ⟨queue₁, h₁⟩ := h.popExpired nowMs
  cases hp with
  | @unrel entry rest prio hfront hprio =>
    have hpop : (b.popExpired nowMs).unrel.popSendable =
        (some (b.unrel.nextFragmentId, entry.fragment), { b.unrel with
          fragments := rest, nextFragmentId := b.unrel.nextFragmentId + 1 }) := by
      unfold Unreliable.TxBuffer.popSendable
      rw [hfront]
      rfl
    obtain ⟨origin, queue', rfl, hid, hrc, htracks, -⟩ := h₁.tracks.popSendable hpop
    have hroom := h₁.room
    rw [hfront, List.length_cons] at hroom
    refine ⟨[origin], queue', ⟨htracks, ?_⟩, ?_⟩
    · simp only [Outbox.pop, List.length_append, List.length_singleton]
      omega
    · have hsize : (b.popExpired nowMs).unrel.fragmentSize = fragmentSize := hsound.unrelSize
      rw [hsize] at hrc
      rw [hid]
      have hget : (o.pop [origin]).origins[o.origins.length]? = some origin := by
        simp [Outbox.pop]
      have hnil := Outbox.Carries.nil (o := o.pop [origin]) (o.origins.length + 1)
      simpa [Outbox.pop] using Outbox.Carries.unrel hget hrc hnil
  | @rel id rc rel prio hpop hprio =>
    obtain ⟨hid, hget, -, -⟩ := hsound.rel.popSendable hpop
    refine ⟨[], queue₁, ⟨?_, ?_⟩, ?_⟩
    · simpa [Outbox.pop] using h₁.tracks
    · simpa [Outbox.pop] using h₁.room
    · rw [hid]
      have hnil := Outbox.Carries.nil (o := o.pop []) o.origins.length
      simpa [Outbox.pop] using Outbox.Carries.rel (o := o.pop []) hget hnil

/-- The datagrams that leave the queues carry fragments. -/
lemma Queued.sends (h : Queued o b queue)
    (hsound : b.Sound False fragmentSize 0 o.fragments discarded cursor sent)
    (hs : Sends nowMs b datagrams b') :
    ∃ origins queue', Queued (o.pop origins) b' queue' ∧
      (o.pop origins).Carries o.origins.length datagrams (o.pop origins).origins.length := by
  induction hs generalizing o queue cursor sent with
  | done b =>
    obtain ⟨queue', h'⟩ := h.popExpired nowMs
    refine ⟨[], queue', ?_, ?_⟩
    · simpa [Outbox.pop] using h'
    · simpa [Outbox.pop] using Outbox.Carries.nil (o := o.pop []) o.origins.length
  | @step b b₁ b' datagram datagrams hpops rest ih =>
    obtain ⟨first, queue₁, h₁, hfirst⟩ := h.pops hsound hpops
    obtain ⟨cursor', sent', hsound', -⟩ := hsound.pops hpops
    obtain ⟨origins, queue', h', hrest⟩ := ih h₁ hsound'
    have hpop : (o.pop first).pop origins = o.pop (first ++ origins) := by
      simp [Outbox.pop]
    rw [hpop] at h' hrest
    refine ⟨first ++ origins, queue', h', ?_⟩
    have hfirst' := hfirst.mono ((o.pop first).extends_pop origins)
    rw [hpop] at hfirst'
    exact hfirst'.append hrest

end Sends

def reliablePackets (enqueued : List (Bytes × SendMode)) : List Bytes :=
  enqueued.filterMap fun
    | (packetBytes, .reliable) => some packetBytes
    | (_, .unreliable _) => none

def unreliablePackets (enqueued : List (Bytes × SendMode)) : List Bytes :=
  enqueued.filterMap fun
    | (_, .reliable) => none
    | (packetBytes, .unreliable _) => some packetBytes

/-- How calls change an outbox while packets are accepted. -/
structure Grows (bd : Build) (o : Outbox) (enqueued : List (Bytes × SendMode))
    (calls : List HostCall) (o' : Outbox) : Prop where
  mono : o.Extends o'
  vouches : o'.Vouches calls
  count : o'.segments.length = o.segments.length + calls.countP (carriesSegment bd)
  reliable : o'.reliable = o.reliable ++ reliablePackets enqueued
  unreliable : o'.unreliable.map Prod.fst =
    o.unreliable.map Prod.fst ++ unreliablePackets enqueued

section Grows
variable {bd : Build} {o o' o'' : Outbox} {enqueued enqueued' : List (Bytes × SendMode)}
  {calls calls' : List HostCall}

lemma reliablePackets_append : reliablePackets (enqueued ++ enqueued') =
    reliablePackets enqueued ++ reliablePackets enqueued' :=
  List.filterMap_append

lemma unreliablePackets_append : unreliablePackets (enqueued ++ enqueued') =
    unreliablePackets enqueued ++ unreliablePackets enqueued' :=
  List.filterMap_append

lemma Grows.trans (h : Grows bd o enqueued calls o') (h' : Grows bd o' enqueued' calls' o'') :
    Grows bd o (enqueued ++ enqueued') (calls ++ calls') o'' := by
  refine ⟨h.mono.trans h'.mono, (h.vouches.mono h'.mono).append h'.vouches, ?_, ?_, ?_⟩
  · rw [h'.count, h.count, List.countP_append, Nat.add_assoc]
  · rw [h'.reliable, h.reliable, reliablePackets_append, List.append_assoc]
  · rw [h'.unreliable, h.unreliable, unreliablePackets_append, List.append_assoc]

lemma carriesSegment_eq {call : HostCall} (h : ∀ frameBytes, call ≠ .sendFrame frameBytes) :
    carriesSegment bd call = false := by
  cases call with
  | sendFrame frameBytes => exact absurd rfl (h frameBytes)
  | _ => rfl

lemma carriesSegment_frameOf (frameType : FrameType) (p : Bytes) :
    carriesSegment bd (.sendFrame (frameOf frameType p)) =
      match frameType with
      | .streamSegment | .streamSegmentAck => true
      | _ => false := by
  dsimp only [carriesSegment]
  rw [readType_frameOf]
  cases frameType <;> rfl

/-- Calls that send no frame leave the outbox alone. -/
lemma Grows.none (o : Outbox) (h : ∀ frameBytes, .sendFrame frameBytes ∉ calls) :
    Grows bd o [] calls o := by
  refine ⟨.refl o, .of_not_mem h, ?_, (List.append_nil _).symm, (List.append_nil _).symm⟩
  have hzero : calls.countP (carriesSegment bd) = 0 := by
    rw [List.countP_eq_zero]
    intro call hcall
    rw [carriesSegment_eq fun frameBytes hframe => h frameBytes (hframe ▸ hcall)]
    exact Bool.false_ne_true
  rw [hzero, Nat.add_zero]

/-- So does a frame without a segment. -/
lemma Grows.frame {frameType : FrameType} {p : Bytes} (h : o.Honest frameType p)
    (hsegment : carriesSegment bd (.sendFrame (frameOf frameType p)) = false) :
    Grows bd o [] [.sendFrame (frameOf frameType p)] o := by
  refine ⟨.refl o, .cons h (.of_not_mem (by simp)), ?_, (List.append_nil _).symm,
    (List.append_nil _).symm⟩
  rw [List.countP_singleton, hsegment]
  rfl

end Grows

section Outgoing
variable {bd : Build} {e e' : Endpoint} {o : Outbox} {v : SenderView} {nowMs : ℕ}
  {calls : List HostCall}

lemma Outgoing.expire (h : Outgoing bd e o v) (nowMs : ℕ) : Outgoing bd (e.expire nowMs) o v := by
  obtain ⟨queue, htracks⟩ := h.unrel
  obtain ⟨queue', h'⟩ := Queued.popExpired ⟨htracks, h.room⟩ nowMs
  have hsender : e.Sender bd False nowMs v := h.sender.later False.elim
  exact ⟨hsender.expire.later False.elim, h.fragments, h.segments, ⟨queue', h'.tracks⟩, h'.room, h.sound⟩

lemma Outgoing.segmentStep {nonce : Bool} {datagrams : List Datagram} (h : Outgoing bd e o v)
    (hs : SegmentStep bd nonce nowMs e datagrams e' calls) :
    ∃ origins v', Outgoing bd e' (o.send origins datagrams) v' := by
  have hsender : e.Sender bd False nowMs v := h.sender.later False.elim
  have hqueues := hsender.queues
  rw [h.fragments] at hqueues
  obtain ⟨queue, htracks⟩ := h.unrel
  obtain ⟨origins, queue', h', hcarries⟩ := Queued.sends ⟨htracks, h.room⟩ hqueues hs.sends
  obtain ⟨cursor, sent, -, -, hsender'⟩ := hs.sender hsender
  have hle : (o.pop origins).Extends (o.send origins datagrams) :=
    ⟨List.prefix_rfl, List.prefix_rfl, List.prefix_rfl, List.prefix_append _ _⟩
  refine ⟨origins, _, hsender'.later False.elim, h.fragments, ?_, ⟨queue', h'.tracks⟩, h'.room,
    ?_, ?_, ?_⟩
  · simp only [Outbox.send, List.length_append, List.length_singleton, h.segments]
  · have hbefore := h.sound.carries.mono (o.extends_send origins datagrams)
    have hall := hbefore.append (hcarries.mono hle)
    simpa [Outbox.send, Outbox.pop] using hall
  · intro ds hds
    rcases List.mem_append.mp hds with hds | hds
    · exact h.sound.fits ds hds
    · rw [List.mem_singleton.mp hds]
      exact hs.fits
  · exact (List.isChain_append.mp h'.tracks.chain).1

/-- The frame of a segment tells its number. -/
lemma Outgoing.honest_segmentFrame (h : Outgoing bd e o v) (sendAck ackRel nonce : Bool)
    (origins : List Origin) (datagrams : List Datagram) :
    ∃ frameType p, e.segmentFrame sendAck ackRel nonce datagrams = frameOf frameType p ∧
      (o.send origins datagrams).Honest frameType p ∧
      carriesSegment bd (.sendFrame (frameOf frameType p)) = true := by
  have hid : e.segmentTx.nextId = idAt 0 o.segments.length := by
    rw [h.sender.window.nextId_eq, h.segments]
  have hget : (o.send origins datagrams).segments[o.segments.length]? = some datagrams := by
    simp [Outbox.send]
  unfold segmentFrame ackBytes
  rw [hid]
  cases sendAck with
  | false =>
    refine ⟨_, _, rfl, ?_, carriesSegment_frameOf _ _⟩
    rw [if_neg Bool.false_ne_true, if_neg Bool.false_ne_true, List.nil_append]
    exact .segment hget
  | true =>
    refine ⟨_, _, rfl, ?_, carriesSegment_frameOf _ _⟩
    rw [if_pos rfl, if_pos rfl]
    exact .segmentAck (e.streamAckOf_valid ackRel) hget

lemma honest_ackFrame (o : Outbox) (e : Endpoint) (ackRel : Bool) :
    Grows bd o [] [.sendFrame (e.ackFrame ackRel)] o :=
  .frame (.ack (e.streamAckOf_valid ackRel)) (carriesSegment_frameOf _ _)

/-- What one flush adds to the outbox. -/
theorem Outgoing.flushRun {ackRel sendAck : Bool} (h : Outgoing bd e o v)
    (hs : FlushRun bd ackRel nowMs sendAck e calls e') :
    ∃ o' v', Outgoing bd e' o' v' ∧ Grows bd o [] calls o' := by
  induction hs generalizing o v with
  | stop hdata => exact ⟨o, v, h.expire nowMs, .none o (by simp)⟩
  | @ack e e' calls hdata rest ih =>
    obtain ⟨o', v', h', hgrows⟩ := ih (h.expire nowMs)
    exact ⟨o', v', h', (honest_ackFrame o e ackRel).trans hgrows⟩
  | @segment sendAck nonce e e₁ e' datagrams timerCalls calls hdata hstep rest ih =>
    obtain ⟨origins, v₁, h₁⟩ := (h.expire nowMs).segmentStep hstep
    obtain ⟨frameType, p, hframe, hhonest, hcarries⟩ :=
      h.honest_segmentFrame sendAck ackRel nonce origins datagrams
    obtain ⟨o', v', h', hgrows⟩ := ih h₁
    have htimer : Grows bd o [] timerCalls o := .none o fun _ => hstep.timer.not_frame
    have hsent : Grows bd o [] [.sendFrame (frameOf frameType p)] (o.send origins datagrams) := by
      refine ⟨o.extends_send origins datagrams, .cons hhonest (.of_not_mem (by simp)), ?_,
        (List.append_nil _).symm, (List.append_nil _).symm⟩
      rw [List.countP_singleton, if_pos hcarries]
      simp [Outbox.send]
    rw [hframe]
    exact ⟨o', v', h', htimer.trans (hsent.trans hgrows)⟩

/-- Nothing is sent, and the unreliable queue is left alone. -/
lemma Outgoing.of_sender (h : Outgoing bd e o v) {v' : SenderView}
    (hsender : e'.Sender bd False 0 v') (hall : v'.all = v.all) (hsizes : v'.sizes = v.sizes)
    (hunrel : e'.fragmentTx.unrel = e.fragmentTx.unrel) : Outgoing bd e' o v' := by
  refine ⟨hsender, hall.trans h.fragments, ?_, ?_, ?_, h.sound⟩
  · rw [hsizes]
    exact h.segments
  · rw [hunrel]
    exact h.unrel
  · rw [hunrel]
    exact h.room

lemma acknowledge_unrel {b b' : FragmentTxBuffers} {relFragmentId : Option U32}
    (h : b.acknowledge bd relFragmentId = .ok b') : b'.unrel = b.unrel := by
  unfold FragmentTxBuffers.acknowledge at h
  cases relFragmentId with
  | none =>
    cases h
    rfl
  | some id =>
    obtain ⟨res, -, h⟩ := bind_eq_ok.mp h
    cases h
    rfl

lemma Outgoing.ackPart {r r' : PayloadReader} {readAck : Bool} (h : Outgoing bd e o v)
    (hs : AckPart bd nowMs e r readAck (some (e', r', calls))) : ∃ v', Outgoing bd e' o v' := by
  cases hs with
  | absent => exact ⟨v, h⟩
  | ack hread hstep =>
    have hsender : e.Sender bd False nowMs v := h.sender.later False.elim
    obtain ⟨acked, discarded, cursor, -, -, -, hsender'⟩ := hstep.sender hsender
    exact ⟨_, h.of_sender (hsender'.later False.elim) rfl rfl (acknowledge_unrel hstep.fragmentTx)⟩

lemma Outgoing.dataPart {r : PayloadReader} {d : Delivery} (h : Outgoing bd e o v)
    (hs : DataPart bd e r (e', d)) : Outgoing bd e' o v := by
  cases hs with
  | absent => exact h
  | segment hread hbytes hreceive hdelivery =>
    exact h.of_sender (h.sender.withDelivery _ _) rfl rfl rfl

/-- The packets that a call adds to the queues. -/
def accepted (e : Endpoint) : Input → List (Bytes × SendMode)
  | .enqueue packetBytes mode => if e.stateId = .active then [(packetBytes, mode)] else []
  | _ => []

lemma Outgoing.enqueue {packetBytes : Bytes} {mode : SendMode} {fragmentTx : FragmentTxBuffers}
    (h : Outgoing bd e o v)
    (hqueue : e.fragmentTx.enqueue bd packetBytes mode nowMs = .ok fragmentTx) :
    ∃ o' v', Outgoing bd { e with fragmentTx := fragmentTx } o' v' ∧
      Grows bd o [(packetBytes, mode)] [] o' := by
  have hqueues := h.sender.queues
  obtain ⟨queue, htracks⟩ := h.unrel
  cases mode with
  | reliable =>
    cases hqueue
    have hle : o.Extends { o with reliable := o.reliable ++ [packetBytes] } :=
      ⟨List.prefix_append _ _, List.prefix_rfl, List.prefix_rfl, List.prefix_rfl⟩
    refine ⟨{ o with reliable := o.reliable ++ [packetBytes] },
      { v with all := v.all ++ fragmentsOf fragmentSize packetBytes },
      ⟨⟨h.sender.1, h.sender.2, hqueues.push_rel False.elim, h.sender.4, h.sender.5, h.sender.6⟩,
        ?_, h.segments, ⟨queue, htracks⟩, h.room, h.sound.carries.mono hle, h.sound.fits,
        h.sound.chain⟩, hle, .of_not_mem (by simp), rfl, rfl, (List.append_nil _).symm⟩
    unfold Outbox.fragments
    rw [h.fragments, List.flatMap_append, List.flatMap_singleton]
    rfl
  | unreliable timeoutMs =>
    obtain ⟨first, -, hqueue⟩ := bind_eq_ok.mp hqueue
    obtain ⟨expireTimeMs, -, hqueue⟩ := bind_eq_ok.mp hqueue
    cases hqueue
    have hsize : e.fragmentTx.unrel.fragmentSize = fragmentSize := hqueues.unrelSize
    have hle : o.Extends { o with unreliable := o.unreliable ++ [(packetBytes, expireTimeMs)] } :=
      ⟨List.prefix_rfl, List.prefix_append _ _, List.prefix_rfl, List.prefix_rfl⟩
    refine ⟨{ o with unreliable := o.unreliable ++ [(packetBytes, expireTimeMs)] }, v,
      ⟨⟨h.sender.1, h.sender.2, hqueues.push_unrel False.elim expireTimeMs, h.sender.4, h.sender.5,
        h.sender.6⟩, h.fragments, h.segments, ⟨_, htracks.push packetBytes expireTimeMs⟩, ?_,
        h.sound.carries.mono hle, h.sound.fits, h.sound.chain⟩, hle, .of_not_mem (by simp), rfl,
        (List.append_nil _).symm, ?_⟩
    · have hroom := h.room
      simp only [Unreliable.TxBuffer.push, List.length_append, List.length_map,
        List.flatMap_append, List.flatMap_singleton, hsize]
      omega
    · rw [List.map_append]
      rfl

/-- What every call adds to the outbox. -/
theorem Effect.outgoing {input : Input} (hs : Effect bd nowMs e input calls e')
    (h : Outgoing bd e o v) :
    ∃ o' v', Outgoing bd e' o' v' ∧ Grows bd o (accepted e input) calls o' := by
  have hkeep : ∀ {e' : Endpoint}, e'.segmentTx = e.segmentTx → e'.fragmentTx = e.fragmentTx →
      e'.ccState = e.ccState → e'.rtoMs ≤ rtoMaxMs → e'.rttTimerState = e.rttTimerState →
      Outgoing bd e' o v := by
    intro e' hsegment hfragment hcc hrto hrtt
    refine h.of_sender ⟨?_, h.sender.sizes_le, ?_, ?_, hrto, fun _ _ hf => hf.elim⟩ rfl rfl
      (congrArg _ hfragment)
    · rw [hsegment]
      exact h.sender.window
    · rw [hfragment]
      exact h.sender.queues
    · rw [hcc]
      exact h.sender.cc
  have hrto := h.sender.rto_le
  cases hs with
  | init hs => exact ⟨o, v, hkeep rfl rfl rfl hrto rfl, .none o (by simp)⟩
  | enqueue hs hqueue =>
    simp only [accepted, if_pos hs]
    exact h.enqueue hqueue
  | enqueueIgnored hs =>
    simp only [accepted, if_neg hs]
    exact ⟨o, v, h, .none o (by simp)⟩
  | flush hs hflush => exact h.flushRun hflush
  | flushIgnored hs => exact ⟨o, v, h, .none o (by simp)⟩
  | @disconnect timeMs hs htime =>
    have htimer : Grows bd o [] [.setRtoTimer timeMs] o := .none o (by simp)
    have hframe : Grows bd o [] [.sendFrame e.closeFrame] o :=
      .frame (.close _) (carriesSegment_frameOf _ _)
    exact ⟨o, v, hkeep rfl rfl rfl hrto rfl, htimer.trans hframe⟩
  | disconnectIgnored hs => exact ⟨o, v, h, .none o (by simp)⟩
  | stream hs hrun =>
    cases hrun with
    | truncated hparts hack => exact ⟨o, v, h, .none o (by simp)⟩
    | run hparts hack hdata hflush =>
      obtain ⟨v₁, h₁⟩ := h.ackPart hack
      obtain ⟨o', v', h', hgrows⟩ := (h₁.dataPart hdata).flushRun hflush
      have hackCalls : Grows bd o [] _ o := .none o fun _ => hack.not_frame
      have hdataCalls : Grows bd o [] _ o := .none o fun _ => receive_not_frame hdata.isReceive
      exact ⟨o', v', h', (hackCalls.trans hdataCalls).trans hgrows⟩
  | sync hs hrun =>
    cases hrun with
    | truncated => exact ⟨o, v, h, .none o (by simp)⟩
    | @run sync r segmentRx delivered d flushCalls e₁ hread hsync hdelivery hflush =>
      have h₁ : Outgoing bd (e.withDelivery segmentRx
          { d with unreliableRx := d.unreliableRx.reset }) o v :=
        h.of_sender (h.sender.withDelivery _ _) rfl rfl rfl
      obtain ⟨o', v', h', hgrows⟩ := h₁.flushRun hflush
      have hcalls : Grows bd o [] _ o :=
        .none o fun _ => receive_not_frame (segments_calls hdelivery)
      exact ⟨o', v', h', hcalls.trans hgrows⟩
  | @close payloadBytes timeMs hs hvalid htime =>
    have hframe : Grows bd o [] [.sendFrame e.closeAckFrame] o :=
      .frame (.closeAck _) (carriesSegment_frameOf _ _)
    have hrest : Grows bd o [] [.onDisconnect, .setRtoTimer timeMs] o := .none o (by simp)
    exact ⟨o, v, hkeep rfl rfl rfl hrto rfl, hframe.trans hrest⟩
  | closeAck hs hvalid htime => exact ⟨o, v, hkeep rfl rfl rfl hrto rfl, .none o (by simp)⟩
  | closeAgain hs hvalid => exact ⟨o, v, h, .frame (.closeAck _) (carriesSegment_frameOf _ _)⟩
  | frameIgnored hs => exact ⟨o, v, h, .none o (by simp)⟩
  | timeout hs htimer hsum htimeout =>
    exact ⟨o, v, hkeep rfl rfl rfl hrto rfl, .none o (by simp)⟩
  | @resend timer rtoMs rtoSumMs timeMs ccState rest _ hs htimer hback hcc hflush =>
    have h₁ := h.of_sender (h.sender.resending rtoSumMs hback.rto_le hcc) rfl rfl rfl
    obtain ⟨o', v', h', hgrows⟩ := h₁.flushRun hflush
    have hid : e.segmentTx.nextId = idAt 0 o.segments.length := by
      rw [h.sender.window.nextId_eq, h.segments]
    have htimer : Grows bd o [] [.setRtoTimer timeMs] o := .none o (by simp)
    have hframe : Grows bd o [] [.sendFrame (syncFrame e.segmentTx.nextId)] o := by
      rw [hid]
      exact .frame (.sync le_rfl) (carriesSegment_frameOf _ _)
    exact ⟨o', v', h', htimer.trans (hframe.trans hgrows)⟩
  | @resendClose timer rtoMs rtoSumMs timeMs hs htimer hback =>
    have htimer : Grows bd o [] [.setRtoTimer timeMs] o := .none o (by simp)
    have hframe : Grows bd o [] [.sendFrame e.closeFrame] o :=
      .frame (.close _) (carriesSegment_frameOf _ _)
    exact ⟨o, v, hkeep rfl rfl rfl hback.rto_le rfl, htimer.trans hframe⟩
  | destroyed hs => exact ⟨o, v, hkeep rfl rfl rfl hrto rfl, .none o (by simp)⟩
  | timerIgnored hs => exact ⟨o, v, h, .none o (by simp)⟩

/-- A new endpoint has sent nothing. -/
lemma Outgoing.new {config : Config} (hsender : e.Sender bd False 0 ⟨[], 0, [], 0, 0, 0⟩)
    (hfresh : e.Fresh config) : Outgoing bd e .empty ⟨[], 0, [], 0, 0, 0⟩ := by
  obtain ⟨hfragments, hnext⟩ := hfresh.unrel_eq
  refine ⟨hsender, rfl, rfl, ⟨[], ?_, .nil, by simp [Outbox.empty], ?_⟩, ?_, .nil 0,
    by simp [Outbox.empty], .nil⟩
  · exact hnext.trans (idAt_zero 0).symm
  · rw [hfragments]
    exact .nil
  · rw [hfragments]
    exact le_rfl

end Outgoing

end Endpoint

end Redpine

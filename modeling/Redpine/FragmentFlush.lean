import Redpine.FragmentTx
import Redpine.PrioBounds
import Redpine.WireCodec

/-! The two send queues: what they hold under every operation, which fragments leave them in
`flush`, and that exactly these are written. -/
namespace Redpine
open Machine Buffer Wire

namespace Prio

lemma next_cases {p : Prio} {unrelReady relReady : Bool} {i : Channel}
    (h : p.next unrelReady relReady false false = some i) :
    i = 0 ∧ unrelReady = true ∨ i = 1 ∧ relReady = true := by
  cases unrelReady <;> cases relReady
  · simp [next, consider] at h
  · exact .inr ⟨(Option.some.inj h).symm, rfl⟩
  · exact .inl ⟨(Option.some.inj h).symm, rfl⟩
  · by_cases hlt : p.counters 1 < p.counters 0
    · have hnext : p.next true true false false = some 1 := by simp [next, consider, hlt]
      exact .inr ⟨Option.some.inj (h.symm.trans hnext), rfl⟩
    · have hnext : p.next true true false false = some 0 := by simp [next, consider, hlt]
      exact .inl ⟨Option.some.inj (h.symm.trans hnext), rfl⟩

lemma next_none {p : Prio} {unrelReady relReady : Bool}
    (h : p.next unrelReady relReady false false = none) :
    unrelReady = false ∧ relReady = false := by
  cases unrelReady <;> cases relReady
  · exact ⟨rfl, rfl⟩
  · cases h
  · cases h
  · by_cases hlt : p.counters 1 < p.counters 0
    · simp [next, consider, hlt] at h
    · simp [next, consider, hlt] at h

/-- Weights under which no product overflows. -/
def Valid (weights : Channel → ℕ) : Prop := ∀ i, weights i ≤ 2 ^ 16

lemma markSent_spec (bd : Build) {p : Prio} (h : Valid p.weights) (i : Channel) {dataSize : ℕ}
    (hsize : dataSize ≤ dataSizeMax) :
    ∃ p', p.markSent bd i dataSize = .ok p' ∧ p'.weights = p.weights := by
  simp only [dataSizeMax] at hsize
  have hmod : dataSize % 2 ^ 32 = dataSize := Nat.mod_eq_of_lt (by omega)
  have hmul : dataSize * p.weights i < 2 ^ 32 := by
    have := Nat.mul_le_mul hsize (h i)
    omega
  unfold markSent
  rw [debugAssert_true (show dataSize ≤ dataSizeMax from hsize), ok_bind, hmod,
    checkedMul_of_lt hmul, ok_bind]
  dsimp only
  split_ifs
  · exact ⟨_, rfl, rfl⟩
  · exact ⟨_, rfl, rfl⟩

/-- Every configuration that the constructor accepts is valid. -/
theorem Config.new_valid {bd : Build} {weights : Channel → ℕ} {burstSize : ℕ} {c : Config}
    (h : Config.new bd weights burstSize = .ok c) : Valid c.weights := by
  obtain ⟨hadmissible, rfl⟩ := Config.new_eq_ok.mp h
  exact fun i => (hadmissible.transformed_le i).trans (by norm_num [weightMax])

end Prio

namespace FragmentTxBuffers

/-- A fragment that can be sent; where `safe` holds it is not empty. -/
structure GoodFragment (safe : Prop) (fragmentSize : ℕ) (rc : FragmentRc) : Prop where
  wellFormed : rc.WellFormed
  length_le : rc.view.data.length ≤ fragmentSize
  pos : safe → 0 < rc.view.data.length

/-- The reliable queue is at some position in the fragments `all`, and both queues hold
good fragments. -/
structure Sound (b : FragmentTxBuffers) (safe : Prop) (fragmentSize : ℕ) (base0 : U32)
    (all : List FragmentRc) (discarded cursor sent : ℕ) : Prop where
  rel : b.rel.At base0 all discarded cursor sent
  relGood : ∀ rc ∈ all, GoodFragment safe fragmentSize rc
  unrelGood : ∀ entry ∈ b.unrel.fragments, GoodFragment safe fragmentSize entry.fragment
  relSize : b.rel.fragmentSize = fragmentSize
  unrelSize : b.unrel.fragmentSize = fragmentSize
  weights : Prio.Valid b.prio.weights

section Queues
variable {bd : Build} {b : FragmentTxBuffers} {safe : Prop} {fragmentSize : ℕ} {base0 : U32}
  {all : List FragmentRc} {discarded cursor sent : ℕ}

lemma GoodFragment.of_mem {packet : Bytes} {rc : FragmentRc} (hpos : 0 < fragmentSize)
    (hne : safe → packet ≠ []) (h : rc ∈ fragmentsOf fragmentSize packet) :
    GoodFragment safe fragmentSize rc := by
  have hrc := fragmentsOf_isFragmentOf hpos h
  exact ⟨hrc.wellFormed, (fragmentIsValid_iff.mp hrc.valid).1, fun hs => hrc.pos (hne hs)⟩

variable (safe) in
lemma new_sound {windowSize : U32} {config : Prio.Config} (hvalid : Prio.Valid config.weights)
    (h : new base0 windowSize fragmentSize config = .ok b) :
    b.Sound safe fragmentSize base0 [] 0 0 0 ∧ b.rel.sendWindow.size = windowSize := by
  unfold new at h
  obtain ⟨unrel, hunrel, h⟩ := bind_eq_ok.mp h
  obtain ⟨rel, hrel, h⟩ := bind_eq_ok.mp h
  simp only [pure_eq_ok, Except.ok.injEq] at h
  subst h
  unfold Unreliable.TxBuffer.new at hunrel
  split_ifs at hunrel
  cases hunrel
  refine ⟨⟨Reliable.TxBuffer.new_at hrel, by simp, by simp,
    Reliable.TxBuffer.new_fragmentSize hrel, rfl, hvalid⟩, ?_⟩
  unfold Reliable.TxBuffer.new at hrel
  split_ifs at hrel
  cases hrel
  rfl

lemma Sound.push_rel (h : b.Sound safe fragmentSize base0 all discarded cursor sent)
    {packet : Bytes} (hne : safe → packet ≠ []) :
    Sound { b with rel := b.rel.push packet } safe fragmentSize base0
      (all ++ fragmentsOf fragmentSize packet) discarded cursor sent := by
  have hat := h.rel.push packet
  rw [h.relSize] at hat
  have hpos := h.relSize ▸ b.rel.fragmentSize_pos
  refine ⟨hat, fun rc hrc => ?_, h.unrelGood, h.relSize, h.unrelSize, h.weights⟩
  rcases List.mem_append.mp hrc with hrc | hrc
  · exact h.relGood rc hrc
  · exact GoodFragment.of_mem hpos hne hrc

lemma Sound.push_unrel (h : b.Sound safe fragmentSize base0 all discarded cursor sent)
    {packet : Bytes} (hne : safe → packet ≠ []) (expireTimeMs : ℕ) :
    Sound { b with unrel := b.unrel.push packet expireTimeMs } safe fragmentSize base0 all
      discarded cursor sent := by
  have hpos := h.relSize ▸ b.rel.fragmentSize_pos
  refine ⟨h.rel, h.relGood, fun entry hentry => ?_, h.relSize, h.unrelSize, h.weights⟩
  rcases List.mem_append.mp hentry with hentry | hentry
  · exact h.unrelGood entry hentry
  · obtain ⟨rc, hrc, rfl⟩ := List.mem_map.mp hentry
    rw [h.unrelSize] at hrc
    exact GoodFragment.of_mem hpos hne hrc

/-- `enqueue` fails only if the expiration time overflows. -/
theorem Sound.enqueue (bd : Build)
    (h : b.Sound safe fragmentSize base0 all discarded cursor sent) {packet : Bytes}
    (hne : safe → packet ≠ []) (mode : SendMode) {nowMs : ℕ} (hnow : safe → nowMs < 2 ^ 62) :
    Outcome safe (b.enqueue bd packet mode nowMs) fun b' =>
      ∃ all', b'.Sound safe fragmentSize base0 all' discarded cursor sent := by
  cases mode with
  | reliable => exact .of_eq rfl ⟨_, h.push_rel hne⟩
  | unreliable timeoutMs =>
    have htimeout := timeoutMs.isLt
    refine (checkedAdd_outcome fun hs => ?_).bind fun first hfirst => ?_
    · have := hnow hs
      omega
    refine (checkedAdd_outcome fun hs => ?_).bind fun expireTimeMs _ =>
      .of_eq rfl ⟨_, h.push_unrel hne expireTimeMs⟩
    have := hnow hs
    have := hfirst hs
    omega

/-- Soundness where no packet is known not to be empty. -/
lemma Sound.forget (h : b.Sound safe fragmentSize base0 all discarded cursor sent) :
    b.Sound False fragmentSize base0 all discarded cursor sent :=
  ⟨h.rel, fun rc hrc => ⟨(h.relGood rc hrc).1, (h.relGood rc hrc).2, False.elim⟩,
    fun entry he => ⟨(h.unrelGood entry he).1, (h.unrelGood entry he).2, False.elim⟩,
    h.relSize, h.unrelSize, h.weights⟩

lemma Sound.of_rel (h : b.Sound safe fragmentSize base0 all discarded cursor sent)
    {rel : Reliable.TxBuffer} {discarded' cursor' sent' : ℕ}
    (hrel : rel.At base0 all discarded' cursor' sent')
    (hsize : rel.fragmentSize = b.rel.fragmentSize) :
    Sound { b with rel := rel } safe fragmentSize base0 all discarded' cursor' sent' :=
  ⟨hrel, h.relGood, h.unrelGood, hsize.trans h.relSize, h.unrelSize, h.weights⟩

lemma Sound.handleTimeout (h : b.Sound safe fragmentSize base0 all discarded cursor sent) :
    b.handleTimeout.Sound safe fragmentSize base0 all discarded discarded sent :=
  h.of_rel h.rel.resendAll rfl

/-- An arbitrary ack never fails. -/
theorem Sound.acknowledge (bd : Build)
    (h : b.Sound safe fragmentSize base0 all discarded cursor sent) (id : Option U32) :
    ∃ b' discarded' cursor', b.acknowledge bd id = .ok b' ∧
      b'.Sound safe fragmentSize base0 all discarded' cursor' sent := by
  cases id with
  | none => exact ⟨b, _, _, rfl, h⟩
  | some id =>
    have hok : ∀ rel ok, b.rel.acknowledge bd id = .ok (rel, ok) →
        b.acknowledge bd (some id) = .ok { b with rel := rel } := by
      intro rel ok hrel
      unfold FragmentTxBuffers.acknowledge
      dsimp only
      rw [hrel]
      rfl
    rcases h.rel.ack_cases id with rfl | ⟨n, hpos, hn, rfl⟩ | hgt
    · obtain ⟨rel, hack, -, hat⟩ := h.rel.acknowledge_duplicate bd
      exact ⟨_, _, _, hok _ _ hack,
        h.of_rel hat (Reliable.TxBuffer.acknowledge_frame hack).1⟩
    · obtain ⟨rel, hack, -, hat⟩ := h.rel.acknowledge_advance bd hpos hn
      exact ⟨_, _, _, hok _ _ hack,
        h.of_rel hat (Reliable.TxBuffer.acknowledge_frame hack).1⟩
    · exact ⟨_, _, _, hok _ _ (h.rel.acknowledge_invalid hgt), h⟩

end Queues

/-- The datagram that carries a fragment. -/
def toDatagram (unrel : Bool) (id : U32) (rc : FragmentRc) : Datagram :=
  ⟨id, unrel, rc.first, rc.last, rc.view.data⟩

/-- One fragment leaves a queue as a datagram. -/
inductive Pops (nowMs : ℕ) : FragmentTxBuffers → Datagram → FragmentTxBuffers → Prop
  | unrel {b : FragmentTxBuffers} {entry : Unreliable.TxEntry} {rest : List Unreliable.TxEntry}
      {prio : Prio} (h : (b.popExpired nowMs).unrel.fragments = entry :: rest)
      (hprio : prio.weights = b.prio.weights) :
      Pops nowMs b (toDatagram true b.unrel.nextFragmentId entry.fragment)
        ⟨{ b.unrel with fragments := rest, nextFragmentId := b.unrel.nextFragmentId + 1 },
          b.rel, prio⟩
  | rel {b : FragmentTxBuffers} {id : U32} {rc : FragmentRc} {rel : Reliable.TxBuffer}
      {prio : Prio} (h : b.rel.popSendable = (some (id, rc), rel))
      (hprio : prio.weights = b.prio.weights) :
      Pops nowMs b (toDatagram false id rc) ⟨(b.popExpired nowMs).unrel, rel, prio⟩

/-- The datagrams leave the queues one after the other; in the end expired fragments are
discarded once more. -/
inductive Sends (nowMs : ℕ) : FragmentTxBuffers → List Datagram → FragmentTxBuffers → Prop
  | done (b : FragmentTxBuffers) : Sends nowMs b [] (b.popExpired nowMs)
  | step {b b' b'' : FragmentTxBuffers} {datagram : Datagram} {datagrams : List Datagram}
      (h : Pops nowMs b datagram b') (rest : Sends nowMs b' datagrams b'') :
      Sends nowMs b (datagram :: datagrams) b''

section Sound
variable {b b' : FragmentTxBuffers} {safe : Prop} {fragmentSize nowMs : ℕ} {base0 : U32}
  {all : List FragmentRc} {discarded cursor sent : ℕ}

lemma mem_popExpired {entry : Unreliable.TxEntry}
    (h : entry ∈ (b.popExpired nowMs).unrel.fragments) : entry ∈ b.unrel.fragments :=
  (List.dropWhile_sublist _).mem h

lemma popExpired_length_le (b : FragmentTxBuffers) (nowMs : ℕ) :
    (b.popExpired nowMs).unrel.fragments.length ≤ b.unrel.fragments.length :=
  (List.dropWhile_sublist _).length_le

lemma Sound.popExpired (h : b.Sound safe fragmentSize base0 all discarded cursor sent)
    (nowMs : ℕ) :
    (b.popExpired nowMs).Sound safe fragmentSize base0 all discarded cursor sent :=
  ⟨h.rel, h.relGood, fun entry hentry => h.unrelGood entry (mem_popExpired hentry), h.relSize,
    h.unrelSize, h.weights⟩

/-- What one pop preserves. It shortens the unreliable queue or advances the cursor. -/
theorem Sound.pops (h : b.Sound safe fragmentSize base0 all discarded cursor sent)
    {datagram : Datagram} (hp : Pops nowMs b datagram b') :
    ∃ cursor' sent', b'.Sound safe fragmentSize base0 all discarded cursor' sent' ∧
      cursor ≤ cursor' ∧ sent ≤ sent' ∧
      b'.unrel.fragments.length + (all.length - cursor') <
        b.unrel.fragments.length + (all.length - cursor) := by
  cases hp with
  | @unrel entry rest prio hfront hprio =>
    have hlen := b.popExpired_length_le nowMs
    rw [hfront, List.length_cons] at hlen
    refine ⟨cursor, sent, ⟨h.rel, h.relGood, fun e he => ?_, h.relSize, h.unrelSize,
      hprio ▸ h.weights⟩, le_rfl, le_rfl, by simp only; omega⟩
    exact h.unrelGood e (mem_popExpired (hfront ▸ List.mem_cons_of_mem _ he))
  | @rel id rc rel prio hpop hprio =>
    obtain ⟨-, hget, -, hat⟩ := h.rel.popSendable hpop
    have hlt := (List.getElem?_eq_some_iff.mp hget).1
    have hlen := b.popExpired_length_le nowMs
    have hsize := (Reliable.TxBuffer.popSendable_frame hpop).1
    exact ⟨cursor + 1, max sent (cursor + 1), ⟨hat, h.relGood,
      fun e he => h.unrelGood e (mem_popExpired he), hsize.trans h.relSize, h.unrelSize,
      hprio ▸ h.weights⟩, by omega, le_max_left _ _, by simp only; omega⟩

/-- A datagram carries at most a fragment, and no empty one where `safe` holds. -/
theorem Sound.datagram_size (h : b.Sound safe fragmentSize base0 all discarded cursor sent)
    {datagram : Datagram} (hp : Pops nowMs b datagram b') :
    datagram.data.length ≤ fragmentSize ∧ (safe → 0 < datagram.data.length) := by
  cases hp with
  | @unrel entry rest prio hfront hprio =>
    have hgood := h.unrelGood entry (mem_popExpired (hfront ▸ List.mem_cons_self))
    exact ⟨hgood.length_le, hgood.pos⟩
  | @rel id rc rel prio hpop hprio =>
    obtain ⟨-, hget, -, -⟩ := h.rel.popSendable hpop
    have hgood := h.relGood rc (List.mem_of_getElem? hget)
    exact ⟨hgood.length_le, hgood.pos⟩

end Sound

section Flush
variable {bd : Build} {b : FragmentTxBuffers} {safe : Prop} {fragmentSize nowMs : ℕ}
  {base0 : U32} {all : List FragmentRc} {discarded cursor sent : ℕ} {w : FrameWriter}

lemma datagramOf_eq {rc : FragmentRc} (hrc : rc.WellFormed) (i : Prio.Channel) (id : U32) :
    datagramOf i id rc = .ok (toDatagram (decide (i = 0)) id rc) := by
  unfold datagramOf
  rw [FragmentRc.bytes_eq hrc]
  rfl

/-- The front of one of the two queues, or neither has one. -/
lemma nextFragment_cases (b : FragmentTxBuffers) :
    (b.nextFragment = .ok none ∧ b.sendable = false) ∨
    (∃ entry rest, b.unrel.fragments = entry :: rest ∧
      b.nextFragment = .ok (some (0, b.unrel.nextFragmentId, entry.fragment))) ∨
    ∃ id rc rel, b.rel.popSendable = (some (id, rc), rel) ∧
      b.nextFragment = .ok (some (1, id, rc)) := by
  unfold nextFragment sendable
  dsimp only
  cases hnext : b.prio.next b.unrel.peekSendable.isSome b.rel.peekSendable.isSome false false with
  | none =>
    obtain ⟨hu, hr⟩ := Prio.next_none hnext
    exact .inl ⟨rfl, by rw [hu, hr]; rfl⟩
  | some i =>
    rcases Prio.next_cases hnext with ⟨rfl, hready⟩ | ⟨rfl, hready⟩
    · refine .inr (.inl ?_)
      unfold Unreliable.TxBuffer.peekSendable at hready ⊢
      cases hf : b.unrel.fragments with
      | nil => simp [hf] at hready
      | cons entry rest => exact ⟨entry, rest, rfl, rfl⟩
    · refine .inr (.inr ?_)
      obtain ⟨⟨id, rc⟩, hpeek⟩ := Option.isSome_iff_exists.mp hready
      refine ⟨id, rc, b.rel.popSendable.2, ?_, ?_⟩
      · rw [← hpeek, ← Reliable.TxBuffer.At.popSendable_fst]
      · rw [hpeek]
        rfl

lemma popChannel_unrel {entry : Unreliable.TxEntry} {rest : List Unreliable.TxEntry}
    (h : b.unrel.fragments = entry :: rest) :
    b.popChannel 0 = .ok { b with
      unrel := { b.unrel with
        fragments := rest, nextFragmentId := b.unrel.nextFragmentId + 1 } } := by
  unfold popChannel Unreliable.TxBuffer.popSendable
  rw [if_pos rfl, h]

lemma popChannel_rel {id : U32} {rc : FragmentRc} {rel : Reliable.TxBuffer}
    (h : b.rel.popSendable = (some (id, rc), rel)) :
    b.popChannel 1 = .ok { b with rel := rel } := by
  unfold popChannel
  rw [if_neg (by decide), if_pos rfl, h]

/-- The chosen fragment can be sent, and it can be popped once it is accounted for. -/
lemma nextFragment_spec (nowMs : ℕ)
    (h : b.Sound safe fragmentSize base0 all discarded cursor sent) :
    ((b.popExpired nowMs).nextFragment = .ok none ∧ (b.popExpired nowMs).sendable = false) ∨
    ∃ i id rc, (b.popExpired nowMs).nextFragment = .ok (some (i, id, rc)) ∧
      GoodFragment safe fragmentSize rc ∧
      ∀ prio, prio.weights = b.prio.weights →
        ∃ b', popChannel { b.popExpired nowMs with prio := prio } i = .ok b' ∧
          Pops nowMs b (toDatagram (decide (i = 0)) id rc) b' := by
  have hpopped := h.popExpired nowMs
  rcases (b.popExpired nowMs).nextFragment_cases with
    hnone | ⟨entry, rest, hfront, hnext⟩ | ⟨id, rc, rel, hpop, hnext⟩
  · exact .inl hnone
  · refine .inr ⟨_, _, _, hnext, hpopped.unrelGood entry (hfront ▸ List.mem_cons_self),
      fun prio hprio => ⟨_, popChannel_unrel hfront, .unrel hfront hprio⟩⟩
  · obtain ⟨-, hget, -, -⟩ := hpopped.rel.popSendable hpop
    refine .inr ⟨_, _, _, hnext, hpopped.relGood rc (List.mem_of_getElem? hget),
      fun prio hprio => ⟨_, popChannel_rel hpop, .rel hpop hprio⟩⟩

/-- Nothing is left to send, or the frame has no room for what would be sent next. -/
def Full (b : FragmentTxBuffers) (w : FrameWriter) : Prop :=
  b.nextFragment = .ok none ∨ ∃ i id rc, b.nextFragment = .ok (some (i, id, rc)) ∧
    w.bufferLen <
      w.written.length + (encodeDatagram (toDatagram (decide (i = 0)) id rc)).length + 4

/-- One iteration: a datagram is popped and written, or nothing is left to send, or the
frame has no room for another fragment. -/
lemma flushStep_spec (bd : Build) (nowMs : ℕ)
    (h : b.Sound safe fragmentSize base0 all discarded cursor sent)
    (hfragment : fragmentSize ≤ Prio.dataSizeMax) (hroom : w.written.length + 4 ≤ w.bufferLen) :
    (b.flushStep bd w nowMs = .ok (b.popExpired nowMs, none) ∧
      ((b.popExpired nowMs).sendable = true →
        w.bufferLen < w.written.length + 11 + fragmentSize) ∧ (b.popExpired nowMs).Full w) ∨
    ∃ datagram b', b.flushStep bd w nowMs =
        .ok (b', some ({ w with written := w.written ++ encodeDatagram datagram },
          datagram.data.length)) ∧
      Pops nowMs b datagram b' ∧
      w.written.length + (encodeDatagram datagram).length + 4 ≤ w.bufferLen := by
  unfold flushStep
  dsimp only
  rcases nextFragment_spec nowMs h with ⟨hnext, hnone⟩ | ⟨i, id, rc, hnext, hgood, hpop⟩
  · left
    refine ⟨?_, by simp [hnone], .inl hnext⟩
    rw [hnext]
    rfl
  · have hfull' : _ → (b.popExpired nowMs).Full w := fun hlt => .inr ⟨i, id, rc, hnext, hlt⟩
    have hlen := encodeDatagram_length (toDatagram (decide (i = 0)) id rc)
    have hdata : (toDatagram (decide (i = 0)) id rc).data.length ≤ fragmentSize :=
      hgood.length_le
    have hwrite : w.write bd (toDatagram (decide (i = 0)) id rc) = _ :=
      FrameWriter.write_eq hroom (hdata.trans hfragment)
    rw [hnext, ok_bind]
    dsimp only
    rw [datagramOf_eq hgood.wellFormed, ok_bind, hwrite]
    by_cases hfull : w.bufferLen < w.written.length +
        (LawfulSerial.encode (toDatagram (decide (i = 0)) id rc)).length + 4
    · left
      rw [if_pos hfull]
      refine ⟨rfl, fun _ => ?_, hfull' hfull⟩
      simp only [datagramHeaderSize, LawfulSerial.encode] at hlen hfull
      omega
    · right
      obtain ⟨prio, hmark, hweights⟩ := Prio.markSent_spec bd (h.popExpired nowMs).weights i
        (hdata.trans hfragment)
      obtain ⟨b', hb', hpops⟩ := hpop prio hweights
      rw [if_neg hfull, ok_bind]
      dsimp only
      rw [hmark, ok_bind, hb', ok_bind]
      exact ⟨_, b', rfl, hpops, not_lt.mp hfull⟩

/-- The datagrams that leave the queues are written in order, and their sizes added up. -/
structure Written (w w' : FrameWriter) (datagrams : List Datagram) (total total' : ℕ) : Prop where
  bufferLen_eq : w'.bufferLen = w.bufferLen
  written_eq : w'.written = w.written ++ datagrams.flatMap encodeDatagram
  room : w'.written.length + 4 ≤ w'.bufferLen
  total_eq : total' = total + (datagrams.map (·.data.length)).sum

lemma flushLoop_spec (bd : Build) (nowMs : ℕ) {fuel : ℕ} (total : ℕ)
    (h : b.Sound safe fragmentSize base0 all discarded cursor sent)
    (hfragment : fragmentSize ≤ Prio.dataSizeMax) (hroom : w.written.length + 4 ≤ w.bufferLen)
    (hbuffer : w.bufferLen < 2 ^ 64) (htotal : total ≤ w.written.length)
    (hfuel : b.unrel.fragments.length + (all.length - cursor) < fuel) :
    ∃ datagrams b' w' total',
      flushLoop bd nowMs fuel b w total = .ok (b', w', total') ∧
      Sends nowMs b datagrams b' ∧ Written w w' datagrams total total' ∧ b'.Full w' ∧
      ((b.popExpired nowMs).sendable = true →
        w.written.length + 11 + fragmentSize ≤ w.bufferLen → datagrams ≠ []) := by
  induction fuel generalizing b w total cursor sent with
  | zero => omega
  | succ fuel ih =>
    unfold flushLoop
    rcases flushStep_spec bd nowMs h hfragment hroom with
      ⟨hstep, hshort, hfull⟩ | ⟨datagram, b', hstep, hpops, hfit⟩
    · rw [hstep, ok_bind]
      refine ⟨[], _, w, total, rfl, .done b, ⟨rfl, by simp, hroom, by simp⟩, hfull, fun hs hle => ?_⟩
      have := hshort hs
      omega
    · obtain ⟨cursor', sent', hsound, -, -, hlt⟩ := h.pops hpops
      have hlen := encodeDatagram_length datagram
      have hadd : checkedAdd bd 64 total datagram.data.length =
          .ok (total + datagram.data.length) := checkedAdd_of_lt (by omega)
      rw [hstep, ok_bind]
      simp only [hadd, ok_bind]
      obtain ⟨datagrams, b'', w', total', hloop, hsends, hw, hfull, -⟩ :=
        ih (w := { w with written := w.written ++ encodeDatagram datagram })
          (total + datagram.data.length) hsound (by simpa using by omega) hbuffer
          (by simp only [List.length_append]; omega) (by omega)
      refine ⟨datagram :: datagrams, b'', w', total', hloop, .step hpops hsends,
        ⟨hw.bufferLen_eq, ?_, hw.room, ?_⟩, hfull, fun _ _ => by simp⟩
      · rw [hw.written_eq, List.append_assoc, List.flatMap_cons]
      · rw [hw.total_eq, List.map_cons, List.sum_cons, Nat.add_assoc]

/-- `flush` never fails. It sends something if it can and the frame has room for a
fragment. -/
theorem flush_spec (bd : Build) (nowMs : ℕ)
    (h : b.Sound safe fragmentSize base0 all discarded cursor sent)
    (hfragment : fragmentSize ≤ Prio.dataSizeMax) (hroom : w.written.length + 4 ≤ w.bufferLen)
    (hbuffer : w.bufferLen < 2 ^ 64) :
    ∃ datagrams b' w' total,
      b.flush bd w nowMs = .ok (b', w', total) ∧
      Sends nowMs b datagrams b' ∧ Written w w' datagrams 0 total ∧ b'.Full w' ∧
      ((b.popExpired nowMs).sendable = true →
        w.written.length + 11 + fragmentSize ≤ w.bufferLen → datagrams ≠ []) := by
  have hdiscarded := h.rel.discarded_le
  have hlen : b.rel.fragments.length = all.length - discarded := by
    rw [h.rel.fragments_eq, List.length_drop]
  exact flushLoop_spec bd nowMs 0 h hfragment hroom hbuffer (Nat.zero_le _) (by omega)

end Flush

section Sends
variable {b b' : FragmentTxBuffers} {safe : Prop} {fragmentSize nowMs : ℕ} {base0 : U32}
  {all : List FragmentRc} {discarded cursor sent : ℕ} {datagrams : List Datagram}

/-- What a whole flush preserves. -/
theorem Sound.sends (h : b.Sound safe fragmentSize base0 all discarded cursor sent)
    (hs : Sends nowMs b datagrams b') :
    ∃ cursor' sent', b'.Sound safe fragmentSize base0 all discarded cursor' sent' ∧
      cursor ≤ cursor' ∧ sent ≤ sent' ∧
      ∀ d ∈ datagrams, d.data.length ≤ fragmentSize ∧ (safe → 0 < d.data.length) := by
  induction hs generalizing cursor sent with
  | done b => exact ⟨cursor, sent, h.popExpired nowMs, le_rfl, le_rfl, by simp⟩
  | step hpops _ ih =>
    obtain ⟨cursor', sent', h', hc, hst, -⟩ := h.pops hpops
    obtain ⟨cursor'', sent'', h'', hc', hst', hd⟩ := ih h'
    refine ⟨cursor'', sent'', h'', by omega, by omega, fun d hmem => ?_⟩
    rcases List.mem_cons.mp hmem with rfl | hmem
    · exact h.datagram_size hpops
    · exact hd d hmem

end Sends

end FragmentTxBuffers

end Redpine

import Redpine.FragmentFlush
import Redpine.WireRoundTrip

/-! What one `flush` moves from the two queues into a frame. -/
namespace Redpine
open Machine Buffer Wire SerialId

namespace FragmentTxBuffers

/-- The datagrams read from a payload until none is left. -/
inductive Decodes (bd : Build) : PayloadReader → List Datagram → Prop
  | done {r r' : PayloadReader} (h : r.read Datagram bd = .ok (none, r')) : Decodes bd r []
  | next {r r' : PayloadReader} {datagram : Datagram} {datagrams : List Datagram}
      (h : r.read Datagram bd = .ok (some datagram, r')) (rest : Decodes bd r' datagrams) :
      Decodes bd r (datagram :: datagrams)

section Decode
variable {bd : Build} {r : PayloadReader} {datagrams datagrams' : List Datagram}

lemma Decodes.unique (h : Decodes bd r datagrams) (h' : Decodes bd r datagrams') :
    datagrams = datagrams' := by
  induction h generalizing datagrams' with
  | done hread =>
    cases h' with
    | done _ => rfl
    | next hread' _ => cases hread.symm.trans hread'
  | next hread _ ih =>
    cases h' with
    | done hread' => cases hread.symm.trans hread'
    | next hread' rest' =>
      cases hread.symm.trans hread'
      rw [ih rest']

lemma decodes_encode (hr : r.readIdx ≤ r.buffer.length)
    (hdrop : r.buffer.drop r.readIdx = datagrams.flatMap encodeDatagram)
    (hsize : ∀ d ∈ datagrams, d.data.length ≤ datagramDataSizeMax) : Decodes bd r datagrams := by
  induction datagrams generalizing r with
  | nil =>
    have hlen := congrArg List.length hdrop
    rw [List.length_drop, List.flatMap_nil, List.length_nil] at hlen
    exact .done (read_exhausted (by omega))
  | cons d datagrams ih =>
    rw [List.flatMap_cons] at hdrop
    obtain ⟨r', hread, hbuffer, hle, hrest⟩ :=
      PayloadReader.read_encode (α := Datagram) bd hr hdrop (hsize d List.mem_cons_self)
    exact .next hread (ih hle hrest fun d' hd => hsize d' (List.mem_cons_of_mem _ hd))

end Decode

/-- The fragments that have not expired. -/
def live (nowMs : ℕ) (entries : List Unreliable.TxEntry) : List Unreliable.TxEntry :=
  entries.filter fun entry => decide (nowMs < entry.expireTimeMs)

/-- Fragments under consecutive IDs. -/
def datagramsFrom (unrel : Bool) (id : U32) (fragments : List FragmentRc) : List Datagram :=
  fragments.mapIdx fun i rc => toDatagram unrel (idAt id i) rc

/-- From the unreliable queue, fragments are removed at the front, of which those that have not
expired are sent; the cursor of the reliable queue moves over the fragments sent from it. -/
structure Transfers (nowMs : ℕ) (b : FragmentTxBuffers) (datagrams : List Datagram)
    (b' : FragmentTxBuffers) (removed : List Unreliable.TxEntry) (advanced : List FragmentRc) :
    Prop where
  unrelQueue : b.unrel.fragments = removed ++ b'.unrel.fragments
  unrelSent : datagrams.filter (·.unrel) =
    datagramsFrom true b.unrel.nextFragmentId ((live nowMs removed).map (·.fragment))
  unrelId : b'.unrel.nextFragmentId = idAt b.unrel.nextFragmentId (live nowMs removed).length
  relQueue : b'.rel.fragments = b.rel.fragments ∧ b'.rel.sendWindow = b.rel.sendWindow
  relCursor : advanced <+:
    b.rel.fragments.drop (b.rel.nextSendId - b.rel.sendWindow.baseId).toNat
  relSent : datagrams.filter (!·.unrel) = datagramsFrom false b.rel.nextSendId advanced
  relId : b'.rel.nextSendId = idAt b.rel.nextSendId advanced.length

section Transfers
variable {nowMs : ℕ} {b b' b'' : FragmentTxBuffers} {datagram : Datagram}
  {datagrams : List Datagram} {removed : List Unreliable.TxEntry} {advanced : List FragmentRc}

lemma datagramsFrom_cons (unrel : Bool) (id : U32) (rc : FragmentRc) (rest : List FragmentRc) :
    datagramsFrom unrel id (rc :: rest) =
      toDatagram unrel id rc :: datagramsFrom unrel (id + 1) rest := by
  unfold datagramsFrom
  rw [List.mapIdx_cons, idAt_zero]
  congr 2
  funext i rc'
  rw [show id + 1 = idAt id 1 from rfl, idAt_idAt, Nat.add_comm]

lemma live_append (entries entries' : List Unreliable.TxEntry) :
    live nowMs (entries ++ entries') = live nowMs entries ++ live nowMs entries' :=
  List.filter_append ..

lemma live_cons {entry : Unreliable.TxEntry} (h : nowMs < entry.expireTimeMs)
    (entries : List Unreliable.TxEntry) :
    live nowMs (entry :: entries) = entry :: live nowMs entries :=
  List.filter_cons_of_pos (by simpa using h)

/-- What has expired at the front of the queue. -/
def expired (b : FragmentTxBuffers) (nowMs : ℕ) : List Unreliable.TxEntry :=
  b.unrel.fragments.takeWhile fun entry => decide (entry.expireTimeMs ≤ nowMs)

lemma expired_append (b : FragmentTxBuffers) (nowMs : ℕ) :
    b.unrel.fragments = b.expired nowMs ++ (b.popExpired nowMs).unrel.fragments :=
  List.takeWhile_append_dropWhile.symm

lemma live_expired (b : FragmentTxBuffers) (nowMs : ℕ) : live nowMs (b.expired nowMs) = [] := by
  refine List.filter_eq_nil_iff.mpr fun entry hentry => ?_
  have hle := List.mem_takeWhile_imp hentry
  simpa using hle

/-- The front of the queue has not expired once expired fragments are gone. -/
lemma front_live {entry : Unreliable.TxEntry} {rest : List Unreliable.TxEntry}
    (h : (b.popExpired nowMs).unrel.fragments = entry :: rest) : nowMs < entry.expireTimeMs := by
  have hhead := List.head?_dropWhile_not (fun entry : Unreliable.TxEntry =>
    decide (entry.expireTimeMs ≤ nowMs)) b.unrel.fragments
  rw [show b.unrel.fragments.dropWhile _ = entry :: rest from h] at hhead
  simpa using hhead

/-- A fragment popped from the reliable queue is the one at the cursor, which moves on. -/
lemma popSendable_moves {rel rel' : Reliable.TxBuffer} {id : U32} {rc : FragmentRc}
    (h : rel.popSendable = (some (id, rc), rel')) :
    id = rel.nextSendId ∧
      rel.fragments[(rel.nextSendId - rel.sendWindow.baseId).toNat]? = some rc ∧
      rel'.fragments = rel.fragments ∧ rel'.sendWindow = rel.sendWindow ∧
      rel'.nextSendId = rel.nextSendId + 1 ∧
      (rel.nextSendId + 1 - rel.sendWindow.baseId).toNat =
        (rel.nextSendId - rel.sendWindow.baseId).toNat + 1 := by
  unfold Reliable.TxBuffer.popSendable at h
  by_cases hcontains : rel.sendWindow.contains rel.nextSendId = true
  · rw [if_pos hcontains] at h
    cases hget : rel.fragments[(rel.nextSendId - rel.sendWindow.baseId).toNat]? with
    | none =>
      rw [hget] at h
      cases h
    | some rc' =>
      rw [hget] at h
      cases h
      refine ⟨rfl, rfl, rfl, rfl, rfl, ?_⟩
      rw [Window.contains, decide_eq_true_eq, BitVec.lt_def] at hcontains
      bv_omega
  · rw [if_neg hcontains] at h
    simp at h

lemma Transfers.done (b : FragmentTxBuffers) (nowMs : ℕ) :
    Transfers nowMs b [] (b.popExpired nowMs) (b.expired nowMs) [] := by
  refine ⟨b.expired_append nowMs, ?_, ?_, ⟨rfl, rfl⟩, List.nil_prefix, rfl, (idAt_zero _).symm⟩
  · rw [live_expired]
    rfl
  · rw [live_expired]
    exact (idAt_zero _).symm

/-- A fragment is taken from the unreliable queue first. -/
lemma Transfers.unrel {entry : Unreliable.TxEntry} {rest : List Unreliable.TxEntry} {prio : Prio}
    (hfront : (b.popExpired nowMs).unrel.fragments = entry :: rest)
    (h : Transfers nowMs ⟨{ b.unrel with
        fragments := rest, nextFragmentId := b.unrel.nextFragmentId + 1 }, b.rel, prio⟩
      datagrams b' removed advanced) :
    Transfers nowMs b (toDatagram true b.unrel.nextFragmentId entry.fragment :: datagrams) b'
      (b.expired nowMs ++ entry :: removed) advanced := by
  have hlive : live nowMs (b.expired nowMs ++ entry :: removed) = entry :: live nowMs removed := by
    rw [live_append, live_expired, List.nil_append, live_cons (front_live hfront)]
  refine ⟨?_, ?_, ?_, h.relQueue, h.relCursor, ?_, h.relId⟩
  · rw [b.expired_append nowMs, hfront, List.append_assoc, List.cons_append, ← h.unrelQueue]
  · rw [hlive, List.filter_cons_of_pos rfl, h.unrelSent, List.map_cons, datagramsFrom_cons]
  · rw [hlive, h.unrelId, List.length_cons, Nat.add_comm, ← idAt_idAt]
    rfl
  · rw [List.filter_cons_of_neg (by simp [toDatagram]), h.relSent]

/-- A fragment is taken from the reliable queue first. -/
lemma Transfers.rel {id : U32} {rc : FragmentRc} {rel : Reliable.TxBuffer} {prio : Prio}
    (hpop : b.rel.popSendable = (some (id, rc), rel))
    (h : Transfers nowMs ⟨(b.popExpired nowMs).unrel, rel, prio⟩ datagrams b' removed advanced) :
    Transfers nowMs b (toDatagram false id rc :: datagrams) b' (b.expired nowMs ++ removed)
      (rc :: advanced) := by
  have hlive : live nowMs (b.expired nowMs ++ removed) = live nowMs removed := by
    rw [live_append, live_expired, List.nil_append]
  obtain ⟨hid, hget, hfragments, hwindow, hnext, hoffset⟩ := popSendable_moves hpop
  refine ⟨?_, ?_, ?_, ?_, ?_, ?_, ?_⟩
  · rw [List.append_assoc, ← h.unrelQueue, ← b.expired_append nowMs]
  · rw [hlive, List.filter_cons_of_neg (by simp [toDatagram]), h.unrelSent]
    rfl
  · rw [hlive, h.unrelId]
    rfl
  · exact ⟨h.relQueue.1.trans hfragments, h.relQueue.2.trans hwindow⟩
  · have hcursor := h.relCursor
    rw [hfragments, hwindow, hnext, hoffset] at hcursor
    obtain ⟨hlt, hrc⟩ := List.getElem?_eq_some_iff.mp hget
    rw [List.drop_eq_getElem_cons hlt, hrc]
    exact (List.prefix_cons_inj rc).mpr hcursor
  · rw [List.filter_cons_of_pos (by simp [toDatagram]), h.relSent, datagramsFrom_cons, hid, hnext]
  · rw [h.relId, hnext, List.length_cons, Nat.add_comm, ← idAt_idAt]
    rfl

theorem Sends.transfers (h : Sends nowMs b datagrams b') :
    ∃ removed advanced, Transfers nowMs b datagrams b' removed advanced := by
  induction h with
  | done b => exact ⟨_, _, .done b nowMs⟩
  | step hpops _ ih =>
    obtain ⟨removed, advanced, h⟩ := ih
    cases hpops with
    | unrel hfront hprio => exact ⟨_, _, .unrel hfront h⟩
    | rel hpop hprio => exact ⟨_, _, .rel hpop h⟩

end Transfers

/-- The datagrams that decode from what a frame holds behind what its writer held before. -/
def WrittenBehind (bd : Build) (w w' : FrameWriter) (datagrams : List Datagram) : Prop :=
  ∃ frame payloadBytes, w'.finalize = .ok frame ∧ payload bd frame = .ok payloadBytes ∧
    Decodes bd ⟨payloadBytes, w.written.length - frameHeaderSize⟩ datagrams

lemma WrittenBehind.unique {bd : Build} {w w' : FrameWriter} {datagrams datagrams' : List Datagram}
    (h : WrittenBehind bd w w' datagrams) (h' : WrittenBehind bd w w' datagrams') :
    datagrams = datagrams' := by
  obtain ⟨frame, payloadBytes, hframe, hpayload, hdecodes⟩ := h
  obtain ⟨frame', payloadBytes', hframe', hpayload', hdecodes'⟩ := h'
  cases hframe.symm.trans hframe'
  cases hpayload.symm.trans hpayload'
  exact hdecodes.unique hdecodes'

/-- What `flush` does to the queues and to the frame, and what it returns. -/
structure Flushes (bd : Build) (nowMs : ℕ) (b : FragmentTxBuffers) (w : FrameWriter)
    (b' : FragmentTxBuffers) (w' : FrameWriter) (total : ℕ) (datagrams : List Datagram) : Prop where
  written : WrittenBehind bd w w' datagrams
  transfers : ∃ removed advanced, Transfers nowMs b datagrams b' removed advanced
  full : b'.Full w'
  total_eq : total = (datagrams.map (·.data.length)).sum

section Flush
variable {bd : Build} {b : FragmentTxBuffers} {safe : Prop} {fragmentSize nowMs : ℕ} {base0 : U32}
  {all : List FragmentRc} {discarded cursor sent : ℕ} {datagrams : List Datagram} {p : Bytes} {n : ℕ}

/-- What is written behind a payload is read back from the frame. -/
lemma writtenBehind {w' : FrameWriter} (frameType : FrameType)
    (hw : Written ⟨n, typeBits frameType :: p⟩ w' datagrams 0 total)
    (hsize : ∀ d ∈ datagrams, d.data.length ≤ datagramDataSizeMax) :
    WrittenBehind bd ⟨n, typeBits frameType :: p⟩ w' datagrams := by
  obtain ⟨bufferLen, written⟩ := w'
  obtain ⟨hlen, hwritten, hroom, -⟩ := hw
  dsimp only at hlen hwritten hroom
  subst hlen
  subst hwritten
  rw [List.cons_append, List.length_cons] at hroom
  refine ⟨_, _, FrameWriter.finalize_eq (by omega), payload_frameOf .., ?_⟩
  refine decodes_encode ?_ ?_ hsize
  · simp [frameHeaderSize]
  · simp [frameHeaderSize]

theorem Sound.flushes (h : b.Sound safe fragmentSize base0 all discarded cursor sent)
    (hfragment : fragmentSize ≤ Prio.dataSizeMax) (frameType : FrameType)
    (hroom : p.length + 5 ≤ n) (hn : n < 2 ^ 64) (bd : Build) (nowMs : ℕ) :
    ∃ b' w' total datagrams,
      b.flush bd ⟨n, typeBits frameType :: p⟩ nowMs = .ok (b', w', total) ∧
      Sends nowMs b datagrams b' ∧
      Flushes bd nowMs b ⟨n, typeBits frameType :: p⟩ b' w' total datagrams := by
  obtain ⟨datagrams, b', w', total, hflush, hsends, hw, hfull, -⟩ :=
    flush_spec (w := ⟨n, typeBits frameType :: p⟩) bd nowMs h hfragment (by simpa using hroom) hn
  obtain ⟨-, -, -, -, -, hgood⟩ := h.sends hsends
  have htotal := hw.total_eq
  rw [Nat.zero_add] at htotal
  refine ⟨b', w', total, datagrams, hflush, hsends, ?_, hsends.transfers, hfull, htotal⟩
  exact writtenBehind frameType hw fun d hd => (hgood d hd).1.trans hfragment

end Flush

end FragmentTxBuffers

end Redpine

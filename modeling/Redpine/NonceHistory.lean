import Redpine.SegmentTxAck
import Redpine.Transition

/-! The nonces in the history of a sender are those of the segments just before its base, over
every order of nonces drawn, segments sent and acks. -/
namespace Redpine.NonceHistory
open Machine SerialId Transition

structure State where
  tx : SegmentTx
  /-- The nonce generated for the next segment, since the last one was sent. -/
  pending : Option Bool
  /-- The ID and the nonce of every segment sent. -/
  sent : List (U32 × Bool)

inductive Action
  | computeNextNonce (nonce : Bool)
  | markSent (size : ℕ)
  | acknowledge (id history : U32) (checksum : Bool)

/-- A nonce is generated while a segment can be sent, and every segment has one. -/
inductive Step (bd : Build) (s : State) : Action → State → Prop
  | computeNextNonce {nonce : Bool} {tx : SegmentTx} (hcan : s.tx.canSend = true)
      (h : s.tx.computeNextNonce bd nonce = .ok tx) :
      Step bd s (.computeNextNonce nonce) { s with tx := tx, pending := some nonce }
  | markSent {nonce : Bool} {size : ℕ} {tx : SegmentTx} (hpending : s.pending = some nonce)
      (hsize : size < 2 ^ 64) (h : s.tx.markSent bd size = .ok tx) :
      Step bd s (.markSent size)
        { tx := tx, pending := none, sent := s.sent ++ [(s.tx.nextId, nonce)] }
  | acknowledge {id history : U32} {checksum drop : Bool} {tx : SegmentTx}
      (h : s.tx.acknowledge bd id history checksum = .ok (tx, drop)) :
      Step bd s (.acknowledge id history checksum) { s with tx := tx }

def Initial (baseId windowSize : U32) (s : State) : Prop :=
  ∃ tx, SegmentTx.new baseId windowSize = .ok tx ∧ s = ⟨tx, none, []⟩

def system (bd : Build) (baseId windowSize : U32) : System State Action :=
  ⟨Initial baseId windowSize, Step bd⟩

/-- The nonce of the latest segment sent under an ID. -/
def nonceSent (sent : List (U32 × Bool)) (id : U32) : Option Bool :=
  (sent.reverse.find? (·.1 == id)).map Prod.snd

structure Inv (bd : Build) (baseId : U32) (s : State) (k : ℕ) (sizes : List ℕ) (acked : ℕ) :
    Prop where
  tx : s.tx.InFlight bd k baseId sizes acked
  nonces : s.tx.Nonces baseId (s.sent.map Prod.snd) acked
  ids : s.sent.map Prod.fst = (List.range s.sent.length).map (idAt baseId)
  sizes_length : s.sent.length = sizes.length
  pending : ∀ nonce, s.pending = some nonce →
    s.tx.canSend = true ∧ s.tx.nonceBit s.tx.nextId = nonce

section Invariant
variable {bd : Build} {baseId windowSize : U32} {s s' : State} {k acked : ℕ} {sizes : List ℕ}
  {action : Action}

lemma Inv.nonces_length (h : Inv bd baseId s k sizes acked) :
    (s.sent.map Prod.snd).length = sizes.length := by
  rw [List.length_map, h.sizes_length]

lemma Inv.computeNextNonce (h : Inv bd baseId s k sizes acked) {nonce : Bool} {tx : SegmentTx}
    (hcan : s.tx.canSend = true) (hok : s.tx.computeNextNonce bd nonce = .ok tx) :
    Inv bd baseId { s with tx := tx, pending := some nonce } k sizes acked := by
  obtain ⟨htx, hnonces, hcan', hbit⟩ :=
    h.nonces.computeNextNonce h.tx h.nonces_length hcan hok
  refine ⟨htx, hnonces, h.ids, h.sizes_length, fun nonce' hnonce => ?_⟩
  cases hnonce
  exact ⟨hcan', hbit⟩

lemma Inv.markSent (h : Inv bd baseId s k sizes acked) {nonce : Bool} {size : ℕ} {tx : SegmentTx}
    (hpending : s.pending = some nonce) (hsize : size < 2 ^ 64)
    (hok : s.tx.markSent bd size = .ok tx) :
    Inv bd baseId ⟨tx, none, s.sent ++ [(s.tx.nextId, nonce)]⟩ k (sizes ++ [size]) acked := by
  obtain ⟨hcan, hbit⟩ := h.pending nonce hpending
  obtain ⟨htx, hnonces⟩ := h.nonces.markSent h.tx h.nonces_length hcan hsize hbit hok
  refine ⟨htx, ?_, ?_, ?_, fun nonce' hnone => by cases hnone⟩
  · rw [List.map_append]
    exact hnonces
  · simp only [List.map_append, List.map_singleton, List.length_append, List.length_singleton,
      List.range_succ, h.ids, h.tx.nextId_eq, h.sizes_length]
  · simp only [List.length_append, List.length_singleton, h.sizes_length]

/-- The base moves up to a position that has been sent, or nothing changes. -/
lemma Inv.acknowledge (h : Inv bd baseId s k sizes acked) {id history : U32}
    {checksum drop : Bool} {tx : SegmentTx}
    (hok : s.tx.acknowledge bd id history checksum = .ok (tx, drop)) :
    ∃ acked', Inv bd baseId { s with tx := tx } k sizes acked' := by
  by_cases hvalid : sizes.length - acked < (id - s.tx.baseId).toNat
  · cases hok.symm.trans (h.tx.acknowledge_ignored hvalid history checksum)
    exact ⟨acked, h⟩
  · have hle := h.tx.acked_le
    have hid : idAt baseId (acked + (id - s.tx.baseId).toNat) = id := by
      rw [← idAt_idAt, ← h.tx.baseId_eq, idAt_toNat_sub]
    obtain ⟨tx', drop', hok', htx, -, hnonces⟩ := h.tx.acknowledge (s.sent.map Prod.snd)
      (Nat.le_add_right acked _) (show acked + (id - s.tx.baseId).toNat ≤ _ by omega) history
      checksum
    rw [hid] at hok'
    cases hok'.symm.trans hok
    refine ⟨_, htx, hnonces h.nonces h.nonces_length, h.ids, h.sizes_length, ?_⟩
    intro nonce hpending
    obtain ⟨hcan, hbit⟩ := h.pending nonce hpending
    rw [h.tx.canSend_iff] at hcan
    rw [h.tx.nextId_eq] at hbit
    refine ⟨htx.canSend_iff.mpr (by omega), ?_⟩
    dsimp only
    rw [SegmentTx.acknowledge_nonceBit hok, htx.nextId_eq, hbit]

lemma inv_of_step (h : Inv bd baseId s k sizes acked) (hstep : Step bd s action s') :
    ∃ sizes' acked', Inv bd baseId s' k sizes' acked' := by
  cases hstep with
  | computeNextNonce hcan hok => exact ⟨sizes, acked, h.computeNextNonce hcan hok⟩
  | markSent hpending hsize hok => exact ⟨_, acked, h.markSent hpending hsize hok⟩
  | acknowledge hok =>
    obtain ⟨acked', h'⟩ := h.acknowledge hok
    exact ⟨sizes, acked', h'⟩

theorem inv_of_reachable (hs : Reachable (system bd baseId windowSize) s) :
    ∃ k sizes acked, Inv bd baseId s k sizes acked := by
  have hrule := @Reachable.invariant _ _ (system bd baseId windowSize) fun s =>
    ∃ k sizes acked, Inv bd baseId s k sizes acked
  refine hrule ?_ ?_ hs
  · rintro s ⟨tx, hnew, rfl⟩
    obtain ⟨k, htx, -⟩ := SegmentTx.new_inFlight bd hnew
    exact ⟨k, [], 0, htx, SegmentTx.new_nonces hnew, rfl, rfl, fun nonce hnone => by cases hnone⟩
  · rintro s action s' ⟨k, sizes, acked, h⟩ hstep
    obtain ⟨sizes', acked', h'⟩ := inv_of_step h hstep
    exact ⟨k, sizes', acked', h'⟩

end Invariant

section Exact
variable {bd : Build} {baseId windowSize : U32} {s : State} {k acked : ℕ} {sizes : List ℕ}

lemma nonceSent_append {before later : List (U32 × Bool)} {id : U32} (nonce : Bool)
    (h : ∀ entry ∈ later, entry.1 ≠ id) :
    nonceSent (before ++ (id, nonce) :: later) id = some nonce := by
  have hlater : later.reverse.find? (·.1 == id) = none := by
    rw [List.find?_eq_none]
    intro entry hentry
    rw [beq_iff_eq]
    exact h entry (List.mem_reverse.mp hentry)
  unfold nonceSent
  rw [List.reverse_append, List.reverse_cons, List.append_assoc, List.find?_append, hlater,
    Option.none_or, List.singleton_append, List.find?_cons_of_pos (by simp)]
  rfl

lemma nonceSent_getElem {sent : List (U32 × Bool)} {p : ℕ} (hp : p < sent.length)
    (h : ∀ q (hq : q < sent.length), p < q → (sent[q]).1 ≠ (sent[p]).1) :
    nonceSent sent (sent[p]).1 = some (sent[p]).2 := by
  have hlater : ∀ entry ∈ sent.drop (p + 1), entry.1 ≠ (sent[p]).1 := by
    intro entry hentry
    obtain ⟨j, hj, rfl⟩ := List.mem_iff_getElem.mp hentry
    rw [List.length_drop] at hj
    rw [List.getElem_drop]
    exact h _ _ (by omega)
  have hsplit : sent.take p ++ ((sent[p]).1, (sent[p]).2) :: sent.drop (p + 1) = sent :=
    (congrArg (sent.take p ++ ·) (List.drop_eq_getElem_cons hp).symm).trans
      (List.take_append_drop p sent)
  have hlast := @nonceSent_append (sent.take p) _ _ (sent[p]).2 hlater
  rwa [hsplit] at hlast

lemma nonceSent_eq_none {sent : List (U32 × Bool)} {id : U32} (h : ∀ entry ∈ sent, entry.1 ≠ id) :
    nonceSent sent id = none := by
  unfold nonceSent
  rw [Option.map_eq_none_iff, List.find?_eq_none]
  intro entry hentry
  rw [beq_iff_eq]
  exact h entry (List.mem_reverse.mp hentry)

lemma Inv.sent_getElem (h : Inv bd baseId s k sizes acked) {q : ℕ} (hq : q < s.sent.length) :
    (s.sent[q]).1 = idAt baseId q := by
  have hget : (s.sent.map Prod.fst)[q]? = some (idAt baseId q) := by
    rw [h.ids, List.getElem?_map, List.getElem?_range hq]
    rfl
  rw [List.getElem?_map, List.getElem?_eq_getElem hq] at hget
  exact Option.some.inj hget

/-- The segments from 32 before the base on have different IDs. -/
lemma Inv.id_iff (h : Inv bd baseId s k sizes acked) {q i : ℕ} (hq : q < s.sent.length)
    (hrecent : acked ≤ q + 32) (hi : i < 32) :
    idAt baseId q = s.tx.baseId - 1 - BitVec.ofNat 32 i ↔ q + i + 1 = acked := by
  have hwindow := h.tx.window_le
  have hpow : 2 ^ k ≤ 2 ^ 31 :=
    Nat.pow_le_pow_right (by decide) (Nat.le_of_lt_succ h.tx.shape.lt_width)
  have hlen := h.sizes_length
  rw [h.tx.baseId_eq, eq_before_iff, Nat.add_right_comm]
  exact idAt_inj baseId (by omega) (by omega)

/-- Each bit of the nonce history is the nonce of the segment that many IDs before the base. -/
theorem nonceHistory_exact (hs : Reachable (system bd baseId windowSize) s) (i : ℕ) (hi : i < 32) :
    s.tx.nonceHistory.getLsbD i =
      (nonceSent s.sent (s.tx.baseId - 1 - BitVec.ofNat 32 i)).getD false := by
  obtain ⟨k, sizes, acked, h⟩ := inv_of_reachable hs
  have hle := h.tx.acked_le
  have hlen := h.sizes_length
  rw [h.nonces.history i hi]
  by_cases hia : i < acked
  · have hp : acked - 1 - i < s.sent.length := by omega
    have hid : (s.sent[acked - 1 - i]).1 = s.tx.baseId - 1 - BitVec.ofNat 32 i := by
      rw [h.sent_getElem hp, h.id_iff hp (by omega) hi]
      omega
    have hsent := nonceSent_getElem hp fun q hq hlater => by
      rw [hid, h.sent_getElem hq, ne_eq, h.id_iff hq (by omega) hi]
      omega
    rw [hid] at hsent
    rw [hsent, decide_eq_true hia, Bool.true_and, List.getD_eq_getElem?_getD, List.getElem?_map,
      List.getElem?_eq_getElem hp]
    rfl
  · have hnone : ∀ entry ∈ s.sent, entry.1 ≠ s.tx.baseId - 1 - BitVec.ofNat 32 i := by
      intro entry hentry
      obtain ⟨q, hq, rfl⟩ := List.mem_iff_getElem.mp hentry
      rw [h.sent_getElem hq, ne_eq, h.id_iff hq (by omega) hi]
      omega
    rw [nonceSent_eq_none hnone, decide_eq_false hia, Bool.false_and]
    rfl

end Exact

section Sample

/-- The step that an action leads to, if it can be taken and returns. -/
def next (bd : Build) (s : State) : Action → Option State
  | .computeNextNonce nonce =>
      if s.tx.canSend = true then
        (s.tx.computeNextNonce bd nonce).toOption.map fun tx =>
          { s with tx := tx, pending := some nonce }
      else none
  | .markSent size =>
      s.pending.bind fun nonce =>
        if size < 2 ^ 64 then
          (s.tx.markSent bd size).toOption.map fun tx =>
            ⟨tx, none, s.sent ++ [(s.tx.nextId, nonce)]⟩
        else none
  | .acknowledge id history checksum =>
      (s.tx.acknowledge bd id history checksum).toOption.map fun r => { s with tx := r.1 }

lemma next_step {bd : Build} (s : State) (action : Action) (s' : State)
    (h : next bd s action = some s') : Step bd s action s' := by
  cases action with
  | computeNextNonce nonce =>
    simp only [next, Option.ite_none_right_eq_some, toOption_map_eq_some] at h
    obtain ⟨hcan, tx, hok, rfl⟩ := h
    exact .computeNextNonce hcan hok
  | markSent size =>
    simp only [next, Option.bind_eq_some_iff, Option.ite_none_right_eq_some,
      toOption_map_eq_some] at h
    obtain ⟨nonce, hpending, hsize, tx, hok, rfl⟩ := h
    exact .markSent hpending hsize hok
  | acknowledge id history checksum =>
    obtain ⟨r, hok, rfl⟩ := toOption_map_eq_some.mp h
    exact .acknowledge hok

def interpreter (bd : Build) (baseId windowSize : U32) :
    Executable (system bd baseId windowSize) where
  start := (SegmentTx.new baseId windowSize).toOption.map fun tx => ⟨tx, none, []⟩
  next := next bd
  start_init s h := by
    obtain ⟨tx, hnew, rfl⟩ := toOption_map_eq_some.mp h
    exact ⟨tx, hnew, rfl⟩
  next_step := next_step

/-- Segments of one byte, of which each one in `period` has the nonce set. -/
def sampleBatch (count period : ℕ) : List Action :=
  (List.range count).flatMap fun i => [.computeNextNonce (decide (i % period = 0)), .markSent 1]

/-- A full window is acknowledged at once, across the end of the ID space, and part of the next
one after that has overwritten the ring. -/
def sampleRun : List Action :=
  sampleBatch 64 3 ++ [.acknowledge 16 0 false] ++ sampleBatch 40 4 ++
    [.computeNextNonce true, .acknowledge 26 0 false, .computeNextNonce false, .markSent 1]

end Sample

theorem nonceHistory_exact_lapped : ∃ s, Reachable (system .debug 0xFFFFFFD0 64) s ∧
    s.tx.baseId = 26 ∧ s.tx.nonceHistory = 0x92492622 ∧
    ∀ i < 32, s.tx.nonceHistory.getLsbD i =
      (nonceSent s.sent (s.tx.baseId - 1 - BitVec.ofNat 32 i)).getD false := by
  have hrun : ((interpreter .debug 0xFFFFFFD0 64).exec sampleRun).map
      (fun s => (s.tx.baseId, s.tx.nonceHistory)) = some (26, 0x92492622) := by
    decide +kernel
  obtain ⟨s, hexec, hs⟩ := Option.map_eq_some_iff.mp hrun
  obtain ⟨hbase, hhistory⟩ := Prod.mk.inj hs
  have hreachable := (interpreter .debug _ _).exec_reachable hexec
  exact ⟨s, hreachable, hbase, hhistory, nonceHistory_exact hreachable⟩

end Redpine.NonceHistory

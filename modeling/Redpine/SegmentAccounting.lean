import Redpine.SegmentTxAck
import Redpine.Transition

/-! The sender's count of bytes in transit, over every order of sends and acks. -/
namespace Redpine.SegmentAccounting
open Machine SerialId Transition

structure State where
  tx : SegmentTx
  /-- The ID and the size of every segment sent. -/
  sent : List (U32 × ℕ)

inductive Action
  | computeNextNonce (nonce : Bool)
  | markSent (size : ℕ)
  | acknowledge (id history : U32) (checksum : Bool)

inductive Step (bd : Build) (s : State) : Action → State → Prop
  | computeNextNonce {nonce : Bool} {tx : SegmentTx}
      (h : s.tx.computeNextNonce bd nonce = .ok tx) :
      Step bd s (.computeNextNonce nonce) { s with tx := tx }
  | markSent {size : ℕ} {tx : SegmentTx} (hcan : s.tx.canSend = true) (hsize : size < 2 ^ 64)
      (h : s.tx.markSent bd size = .ok tx) :
      Step bd s (.markSent size) { tx := tx, sent := s.sent ++ [(s.tx.nextId, size)] }
  | acknowledge {id history : U32} {checksum drop : Bool} {tx : SegmentTx}
      (h : s.tx.acknowledge bd id history checksum = .ok (tx, drop)) :
      Step bd s (.acknowledge id history checksum) { s with tx := tx }

def Initial (baseId windowSize : U32) (s : State) : Prop :=
  ∃ tx, SegmentTx.new baseId windowSize = .ok tx ∧ s = ⟨tx, []⟩

def system (bd : Build) (baseId windowSize : U32) : System State Action :=
  ⟨Initial baseId windowSize, Step bd⟩

/-- The latest segments, as many as there are IDs from the base to the next one. -/
def inFlight (s : State) : List (U32 × ℕ) :=
  s.sent.drop (s.sent.length - (s.tx.nextId - s.tx.baseId).toNat)

def bytesInFlight (s : State) : ℕ := ((inFlight s).map Prod.snd).sum

structure Inv (bd : Build) (baseId windowSize : U32) (s : State) (k acked : ℕ) : Prop where
  tx : s.tx.InFlight bd k baseId (s.sent.map Prod.snd) acked
  ids : s.sent.map Prod.fst = (List.range s.sent.length).map (idAt baseId)
  windowSize_eq : windowSize.toNat = 2 ^ k

section Invariant
variable {bd : Build} {baseId windowSize : U32} {s s' : State} {k acked : ℕ} {action : Action}

lemma inv_markSent (h : Inv bd baseId windowSize s k acked) {size : ℕ} {tx : SegmentTx}
    (hcan : s.tx.canSend = true) (hsize : size < 2 ^ 64)
    (hok : s.tx.markSent bd size = .ok tx) :
    Inv bd baseId windowSize ⟨tx, s.sent ++ [(s.tx.nextId, size)]⟩ k acked := by
  obtain ⟨htx, -⟩ := h.tx.markSent hcan hsize hok
  refine ⟨by simpa using htx, ?_, h.windowSize_eq⟩
  simp only [List.map_append, List.map_singleton, List.length_append, List.length_singleton,
    List.range_succ, h.ids, h.tx.nextId_eq, List.length_map]

/-- An ack of an ID from the base to the next one moves the base there. -/
lemma Inv.acknowledge (h : Inv bd baseId windowSize s k acked) {id : U32}
    (hvalid : id - s.tx.baseId ≤ s.tx.nextId - s.tx.baseId) (history : U32) (checksum : Bool) :
    ∃ tx drop, s.tx.acknowledge bd id history checksum = .ok (tx, drop) ∧
      Inv bd baseId windowSize { s with tx := tx } k (acked + (id - s.tx.baseId).toNat) := by
  have hid : idAt baseId (acked + (id - s.tx.baseId).toNat) = id := by
    rw [← idAt_idAt, ← h.tx.baseId_eq, idAt_toNat_sub]
  have hacked := h.tx.acked_le
  rw [BitVec.le_def, h.tx.next_sub] at hvalid
  obtain ⟨tx, drop, hok, htx, -⟩ := h.tx.acknowledge [] (Nat.le_add_right acked _)
    (show acked + (id - s.tx.baseId).toNat ≤ _ by omega) history checksum
  rw [hid] at hok
  exact ⟨tx, drop, hok, htx, h.ids, h.windowSize_eq⟩

/-- Any other ack changes nothing. -/
lemma Inv.acknowledge_invalid (h : Inv bd baseId windowSize s k acked) {id : U32}
    (hinvalid : ¬ id - s.tx.baseId ≤ s.tx.nextId - s.tx.baseId) (history : U32)
    (checksum : Bool) : s.tx.acknowledge bd id history checksum = .ok (s.tx, false) := by
  rw [BitVec.le_def, h.tx.next_sub, not_le] at hinvalid
  exact h.tx.acknowledge_ignored hinvalid history checksum

lemma inv_step (h : Inv bd baseId windowSize s k acked) (hstep : Step bd s action s') :
    ∃ acked', Inv bd baseId windowSize s' k acked' := by
  cases hstep with
  | @computeNextNonce nonce tx hok =>
    obtain ⟨tx', hok', htx, -⟩ := h.tx.computeNextNonce nonce
    cases hok.symm.trans hok'
    exact ⟨acked, htx, h.ids, h.windowSize_eq⟩
  | markSent hcan hsize hok => exact ⟨acked, inv_markSent h hcan hsize hok⟩
  | @acknowledge id history checksum drop tx hok =>
    by_cases hvalid : id - s.tx.baseId ≤ s.tx.nextId - s.tx.baseId
    · obtain ⟨tx', drop', hok', h'⟩ := h.acknowledge hvalid history checksum
      cases hok.symm.trans hok'
      exact ⟨_, h'⟩
    · cases hok.symm.trans (h.acknowledge_invalid hvalid history checksum)
      exact ⟨acked, h⟩

theorem inv_reachable (hs : Reachable (system bd baseId windowSize) s) :
    ∃ k acked, Inv bd baseId windowSize s k acked := by
  have hrule := @Reachable.invariant _ _ (system bd baseId windowSize) fun s =>
    ∃ k acked, Inv bd baseId windowSize s k acked
  refine hrule ?_ ?_ hs
  · rintro s ⟨tx, hnew, rfl⟩
    obtain ⟨k, htx, hsize⟩ := SegmentTx.new_inFlight bd hnew
    exact ⟨k, 0, htx, rfl, hsize⟩
  · rintro s action s' ⟨k, acked, h⟩ hstep
    obtain ⟨acked', h'⟩ := inv_step h hstep
    exact ⟨k, acked', h'⟩

end Invariant

section Accounted
variable {bd : Build} {baseId windowSize : U32} {s : State} {k acked : ℕ}

lemma Inv.inFlight_eq (h : Inv bd baseId windowSize s k acked) :
    inFlight s = s.sent.drop acked := by
  have hacked := h.tx.acked_le
  have hnext := h.tx.next_sub
  rw [List.length_map] at hacked hnext
  rw [inFlight, hnext, Nat.sub_sub_self hacked]

lemma Inv.accounts (h : Inv bd baseId windowSize s k acked) :
    Accounts bd 64 s.tx.transitTotal (bytesInFlight s) := by
  rw [bytesInFlight, h.inFlight_eq, List.map_drop]
  exact h.tx.total

/-- The total is exact, unless more is in flight than a counter without overflow checks holds. -/
lemma Inv.accounts_debug (h : Inv bd baseId windowSize s k acked)
    (hbytes : bd = .release → bytesInFlight s < 2 ^ 64) :
    Accounts .debug 64 s.tx.transitTotal (bytesInFlight s) := by
  have haccounts := h.accounts
  cases bd with
  | debug => exact haccounts
  | release => exact ⟨haccounts.1, fun _ => hbytes rfl⟩

lemma Inv.transitTotal_eq (h : Inv bd baseId windowSize s k acked)
    (hbytes : bd = .release → bytesInFlight s < 2 ^ 64) :
    s.tx.transitTotal = bytesInFlight s := by
  obtain ⟨htotal, hlt⟩ := h.accounts_debug hbytes
  rw [htotal, Nat.mod_eq_of_lt (hlt rfl)]

/-- The loop of `acknowledge` does not underflow then. -/
lemma Inv.subtractTransit (h : Inv bd baseId windowSize s k acked)
    (hbytes : bd = .release → bytesInFlight s < 2 ^ 64) {count : ℕ}
    (hcount : count ≤ (s.tx.nextId - s.tx.baseId).toNat) :
    ∃ total, SegmentTx.subtractTransit .debug s.tx count 0 s.tx.transitTotal = .ok total := by
  have htotal := h.accounts_debug hbytes
  rw [bytesInFlight, h.inFlight_eq, List.map_drop] at htotal
  have hflight : s.tx.InFlight .debug k baseId (s.sent.map Prod.snd) acked :=
    ⟨h.tx.1, h.tx.2, h.tx.3, h.tx.4, h.tx.5, h.tx.6, htotal, h.tx.8⟩
  have hacked := h.tx.acked_le
  rw [h.tx.next_sub] at hcount
  obtain ⟨total, hok, -⟩ :=
    hflight.subtractTransit count 0 s.tx.transitTotal (by omega) htotal
  exact ⟨total, hok⟩

lemma Inv.ids_inFlight (h : Inv bd baseId windowSize s k acked) :
    (inFlight s).map Prod.fst =
      (List.range (s.tx.nextId - s.tx.baseId).toNat).map
        fun i => s.tx.baseId + BitVec.ofNat 32 i := by
  have hacked := h.tx.acked_le
  have hnext := h.tx.next_sub
  rw [List.length_map] at hacked hnext
  rw [h.inFlight_eq, List.map_drop, h.ids, hnext]
  apply List.ext_getElem
  · simp
  · intro i h₁ h₂
    simp [h.tx.baseId_eq, idAt_add]

/-- What holds of the window and its total, whatever has been sent and acknowledged. -/
structure Accounted (bd : Build) (windowSize : U32) (s : State) : Prop where
  window_le : s.tx.nextId - s.tx.baseId ≤ windowSize
  ids : (inFlight s).map Prod.fst =
    (List.range (s.tx.nextId - s.tx.baseId).toNat).map fun i => s.tx.baseId + BitVec.ofNat 32 i
  bytes_mod : s.tx.bytesInTransit = bytesInFlight s % 2 ^ 64
  bytes_eq : (bd = .release → bytesInFlight s < 2 ^ 64) → s.tx.bytesInTransit = bytesInFlight s
  subtracts : (bd = .release → bytesInFlight s < 2 ^ 64) →
    ∀ id, id - s.tx.baseId ≤ s.tx.nextId - s.tx.baseId → ∃ total,
      SegmentTx.subtractTransit .debug s.tx (id - s.tx.baseId).toNat 0 s.tx.transitTotal =
        .ok total
  acknowledges : ∀ id history checksum, id - s.tx.baseId ≤ s.tx.nextId - s.tx.baseId →
    ∃ tx drop, s.tx.acknowledge bd id history checksum = .ok (tx, drop)
  ignores : ∀ id history checksum, ¬ id - s.tx.baseId ≤ s.tx.nextId - s.tx.baseId →
    s.tx.acknowledge bd id history checksum = .ok (s.tx, false)

theorem accounted (hs : Reachable (system bd baseId windowSize) s) :
    Accounted bd windowSize s := by
  obtain ⟨k, acked, h⟩ := inv_reachable hs
  refine ⟨?_, h.ids_inFlight, h.accounts.1, h.transitTotal_eq, ?_, ?_, ?_⟩
  · rw [BitVec.le_def, h.tx.next_sub, h.windowSize_eq]
    exact Nat.sub_le_iff_le_add'.mpr h.tx.window_le
  · intro hbytes id hvalid
    exact h.subtractTransit hbytes (BitVec.le_def.mp hvalid)
  · intro id history checksum hvalid
    obtain ⟨tx, drop, hok, -⟩ := h.acknowledge hvalid history checksum
    exact ⟨tx, drop, hok⟩
  · intro id history checksum hinvalid
    exact h.acknowledge_invalid hinvalid history checksum

end Accounted

section Sample

/-- The step that an action leads to, if it can be taken and returns. -/
def next (bd : Build) (s : State) : Action → Option State
  | .computeNextNonce nonce =>
      (s.tx.computeNextNonce bd nonce).toOption.map fun tx => { s with tx := tx }
  | .markSent size =>
      if s.tx.canSend = true ∧ size < 2 ^ 64 then
        (s.tx.markSent bd size).toOption.map fun tx => ⟨tx, s.sent ++ [(s.tx.nextId, size)]⟩
      else none
  | .acknowledge id history checksum =>
      (s.tx.acknowledge bd id history checksum).toOption.map fun r => { s with tx := r.1 }

lemma next_step {bd : Build} (s : State) (action : Action) (s' : State)
    (h : next bd s action = some s') : Step bd s action s' := by
  cases action with
  | computeNextNonce nonce =>
    obtain ⟨tx, hok, rfl⟩ := toOption_map_eq_some.mp h
    exact .computeNextNonce hok
  | markSent size =>
    simp only [next, Option.ite_none_right_eq_some, toOption_map_eq_some] at h
    obtain ⟨⟨hcan, hsize⟩, tx, hok, rfl⟩ := h
    exact .markSent hcan hsize hok
  | acknowledge id history checksum =>
    obtain ⟨r, hok, rfl⟩ := toOption_map_eq_some.mp h
    exact .acknowledge hok

def interpreter (bd : Build) (baseId windowSize : U32) :
    Executable (system bd baseId windowSize) where
  start := (SegmentTx.new baseId windowSize).toOption.map fun tx => ⟨tx, []⟩
  next := next bd
  start_init s h := by
    obtain ⟨tx, hnew, rfl⟩ := toOption_map_eq_some.mp h
    exact ⟨tx, hnew, rfl⟩
  next_step := next_step

end Sample

/-- Three segments across the end of the ID space, of which one is acknowledged. -/
theorem accounted_sample : ∃ s, s.tx.nextId = 1 ∧ bytesInFlight s = 5 ∧
    Accounted .release 64 s := by
  have hrun : ((interpreter .release 0xFFFFFFFE 64).exec
      [.markSent 7, .markSent 3, .markSent 2, .acknowledge 0xFFFFFFFF 1 false]).map
        (fun s => (s.tx.nextId, bytesInFlight s)) = some (1, 5) := by
    rfl
  obtain ⟨s, hexec, hs⟩ := Option.map_eq_some_iff.mp hrun
  simp only [Prod.mk.injEq] at hs
  exact ⟨s, hs.1, hs.2, accounted (Executable.exec_reachable _ hexec)⟩

/-- The total wraps around, and the next ack then takes more from it than it holds. -/
theorem bytes_wrap_around : ¬ ∀ (bd : Build) (baseId windowSize : U32) (s : State),
    Reachable (system bd baseId windowSize) s →
      s.tx.bytesInTransit = bytesInFlight s ∧ ∀ id,
        id - s.tx.baseId ≤ s.tx.nextId - s.tx.baseId → ∃ total,
          SegmentTx.subtractTransit .debug s.tx (id - s.tx.baseId).toNat 0 s.tx.transitTotal =
            .ok total := by
  intro hclaim
  have hrun : ((interpreter .release 0 64).exec [.markSent (2 ^ 63), .markSent (2 ^ 63)]).map
        (fun s => decide (s.tx.bytesInTransit = bytesInFlight s)) = some false := by
    rfl
  obtain ⟨s, hexec, hs⟩ := Option.map_eq_some_iff.mp hrun
  exact of_decide_eq_false hs (hclaim _ _ _ s (Executable.exec_reachable _ hexec)).1

end Redpine.SegmentAccounting

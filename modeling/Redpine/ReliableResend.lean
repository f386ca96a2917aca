import Redpine.Reliable
import Redpine.Transition

/-! The reliable send buffer by itself: any order of pushes, pops, resends and acks, where an ack
may carry any ID. -/
namespace Redpine.ReliableResend
open Machine Buffer SerialId Transition Reliable

structure State where
  tx : TxBuffer
  pushed : List FragmentRc
  popped : List (U32 × FragmentRc)

inductive Action
  | push (packet : Bytes)
  | peekSendable
  | popSendable
  | resendAll
  | acknowledge (id : U32)

inductive Step (bd : Build) (s : State) : Action → State → Prop
  | push (packet : Bytes) :
      Step bd s (.push packet)
        { s with
          tx := s.tx.push packet
          pushed := s.pushed ++ fragmentsOf s.tx.fragmentSize packet }
  | peekSendable : Step bd s .peekSendable s
  | popSendable :
      Step bd s .popSendable
        { s with
          tx := s.tx.popSendable.2
          popped := s.popped ++ s.tx.popSendable.1.toList }
  | resendAll : Step bd s .resendAll { s with tx := s.tx.resendAll }
  | acknowledge {id : U32} {tx : TxBuffer} {accepted : Bool}
      (h : s.tx.acknowledge bd id = .ok (tx, accepted)) :
      Step bd s (.acknowledge id) { s with tx := tx }

def Initial (baseId : U32) (fragmentSize : ℕ) (windowSize : U32) (s : State) : Prop :=
  ∃ tx, TxBuffer.new baseId fragmentSize windowSize = .ok tx ∧ s = ⟨tx, [], []⟩

def system (bd : Build) (baseId : U32) (fragmentSize : ℕ) (windowSize : U32) :
    System State Action :=
  ⟨Initial baseId fragmentSize windowSize, Step bd⟩

structure Inv (baseId windowSize : U32) (s : State) (discarded cursor sent : ℕ) : Prop where
  tx : s.tx.At baseId s.pushed discarded cursor sent
  size_eq : s.tx.sendWindow.size = windowSize
  popped : ∀ item ∈ s.popped, ∃ i, item.1 = idAt baseId i ∧ s.pushed[i]? = some item.2

section Invariant
variable {bd : Build} {baseId windowSize : U32} {fragmentSize : ℕ} {s s' : State}
  {discarded cursor sent : ℕ} {action : Action}

lemma inv_initial (h : Initial baseId fragmentSize windowSize s) :
    Inv baseId windowSize s 0 0 0 := by
  obtain ⟨tx, hnew, rfl⟩ := h
  refine ⟨TxBuffer.new_at hnew, ?_, by simp⟩
  unfold TxBuffer.new at hnew
  split_ifs at hnew
  cases hnew
  rfl

lemma inv_push (h : Inv baseId windowSize s discarded cursor sent) (packet : Bytes) :
    Inv baseId windowSize
      { s with
        tx := s.tx.push packet
        pushed := s.pushed ++ fragmentsOf s.tx.fragmentSize packet } discarded cursor sent := by
  refine ⟨h.tx.push packet, h.size_eq, fun item hmem => ?_⟩
  obtain ⟨i, hid, hget⟩ := h.popped item hmem
  refine ⟨i, hid, ?_⟩
  rw [List.getElem?_append_left (List.getElem?_eq_some_iff.mp hget).1, hget]

/-- What is popped has the cursor's ID, and the cursor moves on. -/
lemma inv_pop (h : Inv baseId windowSize s discarded cursor sent) :
    ∃ cursor' sent', Inv baseId windowSize
      { s with
        tx := s.tx.popSendable.2
        popped := s.popped ++ s.tx.popSendable.1.toList } discarded cursor' sent' := by
  cases hpop : s.tx.popSendable with
  | mk item tx =>
    obtain ⟨hsize, hwindow⟩ := TxBuffer.popSendable_frame hpop
    cases item with
    | none =>
      have hsame : tx = s.tx := by
        unfold TxBuffer.popSendable at hpop
        split at hpop
        · split at hpop
          · simp at hpop
          · exact (congrArg Prod.snd hpop).symm
        · exact (congrArg Prod.snd hpop).symm
      subst hsame
      exact ⟨cursor, sent, h.tx, h.size_eq, by simpa using h.popped⟩
    | some item =>
      obtain ⟨hid, hget, -, htx⟩ := h.tx.popSendable hpop
      refine ⟨_, _, htx, by rw [← h.size_eq, hwindow], fun x hmem => ?_⟩
      rcases List.mem_append.mp hmem with hold | hnew
      · exact h.popped x hold
      · rw [Option.toList_some, List.mem_singleton] at hnew
        subst hnew
        exact ⟨cursor, hid, hget⟩

lemma inv_acknowledge (h : Inv baseId windowSize s discarded cursor sent) {id : U32}
    {tx : TxBuffer} {accepted : Bool} (hok : s.tx.acknowledge bd id = .ok (tx, accepted)) :
    ∃ discarded' cursor', Inv baseId windowSize { s with tx := tx } discarded' cursor' sent := by
  have hsize : tx.sendWindow.size = windowSize := by
    rw [← h.size_eq, (TxBuffer.acknowledge_frame hok).2]
  rcases h.tx.ack_cases id with rfl | ⟨n, hpos, hn, rfl⟩ | hgt
  · obtain ⟨tx', hok', -, htx⟩ := h.tx.acknowledge_duplicate bd
    cases hok.symm.trans hok'
    exact ⟨_, _, htx, hsize, h.popped⟩
  · obtain ⟨tx', hok', -, htx⟩ := h.tx.acknowledge_advance bd hpos hn
    cases hok.symm.trans hok'
    exact ⟨_, _, htx, hsize, h.popped⟩
  · cases hok.symm.trans (h.tx.acknowledge_invalid hgt)
    exact ⟨_, _, h⟩

lemma inv_step (h : Inv baseId windowSize s discarded cursor sent) (hstep : Step bd s action s') :
    ∃ discarded' cursor' sent', Inv baseId windowSize s' discarded' cursor' sent' := by
  cases hstep with
  | push packet => exact ⟨_, _, _, inv_push h packet⟩
  | peekSendable => exact ⟨_, _, _, h⟩
  | popSendable => exact ⟨_, inv_pop h⟩
  | resendAll => exact ⟨_, _, _, h.tx.resendAll, h.size_eq, h.popped⟩
  | acknowledge hok =>
    obtain ⟨discarded', cursor', h'⟩ := inv_acknowledge h hok
    exact ⟨_, _, _, h'⟩

theorem inv_reachable (hs : Reachable (system bd baseId fragmentSize windowSize) s) :
    ∃ discarded cursor sent, Inv baseId windowSize s discarded cursor sent := by
  have hrule := @Reachable.invariant _ _ (system bd baseId fragmentSize windowSize) fun s =>
    ∃ discarded cursor sent, Inv baseId windowSize s discarded cursor sent
  refine hrule (fun s hinit => ⟨0, 0, 0, inv_initial hinit⟩) ?_ hs
  rintro s action s' ⟨discarded, cursor, sent, h⟩ hstep
  exact inv_step h hstep

end Invariant

section Safe
variable {bd : Build} {baseId windowSize : U32} {fragmentSize : ℕ} {s : State}
  {discarded cursor sent : ℕ}

/-- An ack is taken from the base up to what has been sent, and is otherwise ignored. -/
lemma Inv.acknowledge (h : Inv baseId windowSize s discarded cursor sent) (bd : Build) (id : U32) :
    ∃ tx, s.tx.acknowledge bd id =
        .ok (tx, decide (id - s.tx.sendWindow.baseId ≤ s.tx.maxAckId - s.tx.sendWindow.baseId)) ∧
      (¬ id - s.tx.sendWindow.baseId ≤ s.tx.maxAckId - s.tx.sendWindow.baseId → tx = s.tx) := by
  by_cases hle : id - s.tx.sendWindow.baseId ≤ s.tx.maxAckId - s.tx.sendWindow.baseId
  · rw [decide_eq_true hle]
    rw [BitVec.le_def, h.tx.maxAck_sub] at hle
    rcases h.tx.ack_cases id with rfl | ⟨n, hpos, hn, rfl⟩ | hgt
    · obtain ⟨tx, hok, -⟩ := h.tx.acknowledge_duplicate bd
      exact ⟨tx, hok, fun hnot => absurd (by simp [BitVec.le_def]) hnot⟩
    · obtain ⟨tx, hok, -⟩ := h.tx.acknowledge_advance bd hpos hn
      refine ⟨tx, hok, fun hnot => absurd ?_ hnot⟩
      rwa [BitVec.le_def, h.tx.maxAck_sub]
    · omega
  · rw [decide_eq_false hle]
    refine ⟨s.tx, h.tx.acknowledge_invalid ?_, fun _ => rfl⟩
    rw [BitVec.le_def, h.tx.maxAck_sub] at hle
    omega

/-- What an ack discards is there to be discarded. -/
lemma Inv.drain (h : Inv baseId windowSize s discarded cursor sent) {id : U32}
    (hle : id - s.tx.sendWindow.baseId ≤ s.tx.maxAckId - s.tx.sendWindow.baseId) :
    ∃ fragments, s.tx.drain (id - s.tx.sendWindow.baseId).toNat = .ok fragments := by
  rw [BitVec.le_def, h.tx.maxAck_sub] at hle
  have hsent := h.tx.sent_le
  refine ⟨_, if_pos ?_⟩
  rw [h.tx.fragments_eq, List.length_drop]
  omega

/-- While the IDs are not used up, an ID tells the position of a fragment. -/
lemma Inv.position (h : Inv baseId windowSize s discarded cursor sent)
    (hbound : s.pushed.length < 2 ^ 32) {id : U32} {rc : FragmentRc} (hmem : (id, rc) ∈ s.popped) :
    s.pushed[(id - baseId).toNat]? = some rc := by
  obtain ⟨i, hid, hget⟩ := h.popped _ hmem
  have hlt := (List.getElem?_eq_some_iff.mp hget).1
  have hi := toNat_sub_of_le baseId (Nat.zero_le i) (by omega)
  rw [idAt_zero] at hi
  dsimp only at hid
  rwa [hid, hi]

/-- What holds of the buffer, whatever has been pushed, popped and acknowledged. -/
structure Safe (bd : Build) (baseId windowSize : U32) (s : State) : Prop where
  nextSendId_le :
    s.tx.nextSendId - s.tx.sendWindow.baseId ≤ s.tx.maxAckId - s.tx.sendWindow.baseId
  maxAckId_le : (s.tx.maxAckId - s.tx.sendWindow.baseId).toNat ≤
    min windowSize.toNat s.tx.fragments.length
  acknowledges : ∀ id, ∃ tx, s.tx.acknowledge bd id =
      .ok (tx, decide (id - s.tx.sendWindow.baseId ≤ s.tx.maxAckId - s.tx.sendWindow.baseId)) ∧
    (¬ id - s.tx.sendWindow.baseId ≤ s.tx.maxAckId - s.tx.sendWindow.baseId → tx = s.tx)
  drains : ∀ id, id - s.tx.sendWindow.baseId ≤ s.tx.maxAckId - s.tx.sendWindow.baseId →
    ∃ fragments, s.tx.drain (id - s.tx.sendWindow.baseId).toNat = .ok fragments
  positions : ∀ id rc, (id, rc) ∈ s.popped → s.pushed[(id - baseId).toNat]? = some rc
  resends : ∀ id rc rc', (id, rc) ∈ s.popped → (id, rc') ∈ s.popped → rc = rc'
  peek_eq : s.tx.peekSendable = s.tx.popSendable.1

theorem safe (hs : Reachable (system bd baseId fragmentSize windowSize) s)
    (hbound : s.pushed.length < 2 ^ 32 - windowSize.toNat) : Safe bd baseId windowSize s := by
  obtain ⟨discarded, cursor, sent, h⟩ := inv_reachable hs
  have hbound' : s.pushed.length < 2 ^ 32 := by omega
  have hcursor := h.tx.cursor_le
  have hsent := h.tx.sent_le
  have hwindow := h.tx.sent_window
  refine ⟨?_, ?_, h.acknowledge bd, fun id => h.drain, fun id rc => h.position hbound', ?_,
    (TxBuffer.At.popSendable_fst s.tx).symm⟩
  · rw [BitVec.le_def, h.tx.nextSend_sub, h.tx.maxAck_sub]
    omega
  · rw [h.size_eq] at hwindow
    rw [h.tx.maxAck_sub, h.tx.fragments_eq, List.length_drop]
    omega
  · intro id rc rc' hmem hmem'
    have hsame := (h.position hbound' hmem).symm.trans (h.position hbound' hmem')
    exact Option.some.inj hsame

end Safe

section Sample

/-- The step that an action leads to, if it returns. -/
def next (bd : Build) (s : State) : Action → Option State
  | .push packet => some { s with
      tx := s.tx.push packet
      pushed := s.pushed ++ fragmentsOf s.tx.fragmentSize packet }
  | .peekSendable => some s
  | .popSendable => some { s with
      tx := s.tx.popSendable.2
      popped := s.popped ++ s.tx.popSendable.1.toList }
  | .resendAll => some { s with tx := s.tx.resendAll }
  | .acknowledge id =>
      (s.tx.acknowledge bd id).toOption.map fun r => { s with tx := r.1 }

lemma next_step {bd : Build} (s : State) (action : Action) (s' : State)
    (h : next bd s action = some s') : Step bd s action s' := by
  cases action with
  | push packet => cases h; exact .push packet
  | peekSendable => cases h; exact .peekSendable
  | popSendable => cases h; exact .popSendable
  | resendAll => cases h; exact .resendAll
  | acknowledge id =>
    obtain ⟨r, hok, rfl⟩ := toOption_map_eq_some.mp h
    exact .acknowledge hok

def interpreter (bd : Build) (baseId : U32) (fragmentSize : ℕ) (windowSize : U32) :
    Executable (system bd baseId fragmentSize windowSize) where
  start := (TxBuffer.new baseId fragmentSize windowSize).toOption.map fun tx => ⟨tx, [], []⟩
  next := next bd
  start_init s h := by
    obtain ⟨tx, hnew, rfl⟩ := toOption_map_eq_some.mp h
    exact ⟨tx, hnew, rfl⟩
  next_step := next_step

end Sample

/-- After three duplicate acks, the fragments are popped again. -/
theorem safe_sample : ∃ s, s.popped.map Prod.fst = [0xFFFFFFFF, 0, 0xFFFFFFFF] ∧
    Safe .debug 0xFFFFFFFF 2 s := by
  have hrun : ((interpreter .debug 0xFFFFFFFF 2 2).exec
      [.push [1, 2, 3, 4, 5], .popSendable, .popSendable, .popSendable, .acknowledge 0xFFFFFFFF,
        .acknowledge 7, .acknowledge 0xFFFFFFFF, .acknowledge 0xFFFFFFFF, .popSendable]).map
        (fun s => (s.popped.map Prod.fst, s.pushed.length)) =
      some ([0xFFFFFFFF, 0, 0xFFFFFFFF], 3) := by
    rfl
  obtain ⟨s, hexec, hs⟩ := Option.map_eq_some_iff.mp hrun
  simp only [Prod.mk.injEq] at hs
  refine ⟨s, hs.1, safe (Executable.exec_reachable _ hexec) ?_⟩
  rw [hs.2]
  decide

end Redpine.ReliableResend

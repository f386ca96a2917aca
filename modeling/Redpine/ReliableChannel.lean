import Redpine.Reliable
import Redpine.Transition

/-! The reliable channel: a send buffer and a receive buffer joined by a network that may
lose, duplicate, delay and reorder both fragments and acks. The network is the list of
all that has ever been handed to it. -/
namespace Redpine.ReliableChannel
open Machine Buffer SerialId Transition Reliable

structure State where
  tx : TxBuffer
  rx : RxBuffer
  popped : List (U32 × FragmentRc)
  reported : List U32
  pushed : List Bytes
  received : List Bytes

inductive Action
  | push (packet : Bytes)
  | pop
  | resendAll
  | receive (id : U32) (rc : FragmentRc)
  | report
  | acknowledge (id : U32)

inductive Step (bd : Build) : State → Action → State → Prop
  | push (s : State) (packet : Bytes) :
      Step bd s (.push packet)
        { s with tx := s.tx.push packet, pushed := s.pushed ++ [packet] }
  | pop {s : State} {item : U32 × FragmentRc} {tx : TxBuffer}
      (h : s.tx.popSendable = (some item, tx)) :
      Step bd s .pop { s with tx := tx, popped := s.popped ++ [item] }
  | resendAll (s : State) : Step bd s .resendAll { s with tx := s.tx.resendAll }
  | receive {s : State} {id : U32} {rc : FragmentRc} {f : FragmentRef}
      (hmem : (id, rc) ∈ s.popped) (hf : FragmentRef.ofRc rc = .ok f) :
      Step bd s (.receive id rc)
        { s with
          rx := (s.rx.receive id f).1
          received := s.received ++ (s.rx.receive id f).2.toList }
  | report (s : State) :
      Step bd s .report { s with reported := s.reported ++ [s.rx.nextExpectedId] }
  | acknowledge {s : State} {id : U32} {tx : TxBuffer} {accepted : Bool}
      (hmem : id ∈ s.reported) (h : s.tx.acknowledge bd id = .ok (tx, accepted)) :
      Step bd s (.acknowledge id) { s with tx := tx }

def Initial (baseId : U32) (fragmentSize : ℕ) (windowSize : U32) (s : State) : Prop :=
  ∃ tx rx, TxBuffer.new baseId fragmentSize windowSize = .ok tx ∧
    RxBuffer.new baseId fragmentSize = .ok rx ∧ s = ⟨tx, rx, [], [], [], []⟩

def system (bd : Build) (baseId : U32) (fragmentSize : ℕ) (windowSize : U32) :
    System State Action :=
  ⟨Initial baseId fragmentSize windowSize, Step bd⟩

/-- All fragments ever pushed. -/
def State.fragments (fragmentSize : ℕ) (s : State) : List FragmentRc :=
  s.pushed.flatMap (fragmentsOf fragmentSize)

/-- The joint invariant. The receiver's position lies between what the sender has
discarded and what it has sent, and everything in flight lies on its side of it. -/
structure Inv (baseId : U32) (fragmentSize : ℕ) (s : State) (discarded cursor sent accepted : ℕ) :
    Prop where
  size_pos : 0 < fragmentSize
  txSize : s.tx.fragmentSize = fragmentSize
  rxSize : s.rx.fragmentSize = fragmentSize
  tx : s.tx.At baseId (s.fragments fragmentSize) discarded cursor sent
  rx : s.rx.nextFragmentId = idAt baseId accepted
  discarded_le : discarded ≤ accepted
  accepted_le : accepted ≤ sent
  assembled : assembleAll (none, []) ((s.fragments fragmentSize).take accepted) =
    (s.rx.currentBuild, s.received)
  popped : ∀ item ∈ s.popped, ∃ i, i < sent ∧ item.1 = idAt baseId i ∧
    (s.fragments fragmentSize)[i]? = some item.2
  reported : ∀ id ∈ s.reported, ∃ i, i ≤ accepted ∧ id = idAt baseId i

section Invariant
variable {bd : Build} {baseId windowSize : U32} {fragmentSize : ℕ} {s s' : State}
  {discarded cursor sent accepted : ℕ}

theorem inv_initial (h : Initial baseId fragmentSize windowSize s) :
    Inv baseId fragmentSize s 0 0 0 0 := by
  obtain ⟨tx, rx, htx, hrx, rfl⟩ := h
  have hat := TxBuffer.new_at htx
  unfold RxBuffer.new at hrx
  split_ifs at hrx with hpos
  cases hrx
  exact ⟨hpos, TxBuffer.new_fragmentSize htx, rfl, hat, by simp, le_rfl, le_rfl, by simp,
    by simp, by simp⟩

theorem fragments_mono (h : Step bd s a s') (fragmentSize : ℕ) :
    ∃ more, s'.fragments fragmentSize = s.fragments fragmentSize ++ more := by
  cases h with
  | push packet => exact ⟨fragmentsOf fragmentSize packet, by simp [State.fragments]⟩
  | pop h => exact ⟨[], by simp [State.fragments]⟩
  | resendAll => exact ⟨[], by simp [State.fragments]⟩
  | receive hmem hf => exact ⟨[], by simp [State.fragments]⟩
  | report => exact ⟨[], by simp [State.fragments]⟩
  | acknowledge hmem h => exact ⟨[], by simp [State.fragments]⟩

theorem Inv.push (h : Inv baseId fragmentSize s discarded cursor sent accepted)
    (packet : Bytes) :
    Inv baseId fragmentSize { s with tx := s.tx.push packet, pushed := s.pushed ++ [packet] }
      discarded cursor sent accepted := by
  have hfr : State.fragments fragmentSize
      { s with tx := s.tx.push packet, pushed := s.pushed ++ [packet] } =
      s.fragments fragmentSize ++ fragmentsOf fragmentSize packet := by
    simp [State.fragments]
  have hlen : accepted ≤ (s.fragments fragmentSize).length := h.accepted_le.trans h.tx.sent_le
  refine ⟨h.size_pos, h.txSize, h.rxSize, ?_, h.rx, h.discarded_le, h.accepted_le, ?_, ?_,
    h.reported⟩
  · have hp := h.tx.push packet
    rw [h.txSize] at hp
    rwa [hfr]
  · rw [hfr, List.take_append_of_le_length hlen]
    exact h.assembled
  · intro item hitem
    obtain ⟨i, hi, hid, hget⟩ := h.popped item hitem
    have hlt : i < (s.fragments fragmentSize).length := lt_of_lt_of_le hi h.tx.sent_le
    exact ⟨i, hi, hid, by rw [hfr, List.getElem?_append_left hlt]; exact hget⟩

theorem Inv.pop (h : Inv baseId fragmentSize s discarded cursor sent accepted)
    {item : U32 × FragmentRc} {tx : TxBuffer} (hp : s.tx.popSendable = (some item, tx)) :
    Inv baseId fragmentSize { s with tx := tx, popped := s.popped ++ [item] }
      discarded (cursor + 1) (max sent (cursor + 1)) accepted := by
  obtain ⟨id, rc⟩ := item
  obtain ⟨hid, hget, -, hat⟩ := h.tx.popSendable hp
  have hsize : tx.fragmentSize = s.tx.fragmentSize := (TxBuffer.popSendable_frame hp).1
  refine ⟨h.size_pos, hsize.trans h.txSize, h.rxSize, hat, h.rx, h.discarded_le,
    h.accepted_le.trans (le_max_left _ _), h.assembled, ?_, h.reported⟩
  intro item hitem
  rcases List.mem_append.mp hitem with hold | hnew
  · obtain ⟨i, hi, hrest⟩ := h.popped item hold
    exact ⟨i, lt_of_lt_of_le hi (le_max_left _ _), hrest⟩
  · rw [List.mem_singleton] at hnew
    subst hnew
    exact ⟨cursor, by omega, hid, hget⟩

theorem Inv.receive (h : Inv baseId fragmentSize s discarded cursor sent accepted)
    (hbound : (s.fragments fragmentSize).length < 2 ^ 31)
    {id : U32} {rc : FragmentRc} {f : FragmentRef} (hmem : (id, rc) ∈ s.popped)
    (hf : FragmentRef.ofRc rc = .ok f) :
    ∃ accepted', Inv baseId fragmentSize
      { s with
        rx := (s.rx.receive id f).1
        received := s.received ++ (s.rx.receive id f).2.toList }
      discarded cursor sent accepted' := by
  obtain ⟨i, hi, hid, hget⟩ := h.popped _ hmem
  simp only at hid hget
  have hsent := h.tx.sent_le
  have hacc := h.accepted_le
  obtain ⟨packet, -, hrc⟩ := List.mem_flatMap.mp (List.mem_of_getElem? hget)
  have hfrag := fragmentsOf_isFragmentOf h.size_pos hrc
  rw [FragmentRc.ofRc_eq hfrag.wellFormed] at hf
  cases hf
  have hvalid : fragmentIsValid rc.view s.rx.fragmentSize = true := by
    rw [h.rxSize]
    exact hfrag.valid
  have hrx : s.rx.Assembles baseId (s.fragments fragmentSize) accepted s.received :=
    ⟨h.rx, hacc.trans hsent, h.assembled⟩
  obtain ⟨accepted', hrx', hcases⟩ := hrx.receive (by omega) hget hvalid
  rw [← hid] at hrx'
  have hd := h.discarded_le
  refine ⟨accepted', h.size_pos, h.txSize, ?_, h.tx, hrx'.nextId_eq, by omega, by omega,
    hrx'.assembled, h.popped, fun id hid => ?_⟩
  · rw [RxBuffer.receive_fragmentSize]
    exact h.rxSize
  · obtain ⟨j, hj, hrest⟩ := h.reported id hid
    exact ⟨j, by omega, hrest⟩

theorem Inv.report (h : Inv baseId fragmentSize s discarded cursor sent accepted) :
    Inv baseId fragmentSize { s with reported := s.reported ++ [s.rx.nextExpectedId] }
      discarded cursor sent accepted := by
  refine ⟨h.size_pos, h.txSize, h.rxSize, h.tx, h.rx, h.discarded_le, h.accepted_le, h.assembled,
    h.popped, ?_⟩
  intro id hid
  rcases List.mem_append.mp hid with hold | hnew
  · exact h.reported id hold
  · rw [List.mem_singleton] at hnew
    exact ⟨accepted, le_rfl, hnew.trans h.rx⟩

/-- An ack in flight never reaches beyond the receiver's position, and a stale one is
seen far ahead of everything sent. -/
theorem Inv.acknowledge (h : Inv baseId fragmentSize s discarded cursor sent accepted)
    (hbound : (s.fragments fragmentSize).length < 2 ^ 31)
    {id : U32} {tx : TxBuffer} {ok : Bool} (hmem : id ∈ s.reported)
    (hack : s.tx.acknowledge bd id = .ok (tx, ok)) :
    ∃ discarded' cursor', Inv baseId fragmentSize { s with tx := tx }
      discarded' cursor' sent accepted := by
  have hsize : tx.fragmentSize = fragmentSize :=
    (TxBuffer.acknowledge_frame hack).1.trans h.txSize
  have hd := h.discarded_le
  have ha := h.accepted_le
  have hs := h.tx.sent_le
  obtain ⟨i, hi, rfl⟩ := h.reported id hmem
  have rebuild : ∀ discarded' cursor', discarded' ≤ accepted →
      tx.At baseId (s.fragments fragmentSize) discarded' cursor' sent →
      Inv baseId fragmentSize { s with tx := tx } discarded' cursor' sent accepted :=
    fun discarded' cursor' hle hat =>
      ⟨h.size_pos, hsize, h.rxSize, hat, h.rx, hle, ha, h.assembled, h.popped, h.reported⟩
  rcases Nat.lt_trichotomy i discarded with hlt | heq | hgt
  · have hstale : sent - discarded < (idAt baseId i - s.tx.sendWindow.baseId).toNat := by
      rw [h.tx.baseId_eq, toNat_sub_of_lt baseId hlt (by omega)]
      omega
    rw [h.tx.acknowledge_invalid hstale] at hack
    cases hack
    exact ⟨discarded, cursor, rebuild _ _ hd h.tx⟩
  · subst heq
    obtain ⟨tx', hok, -, hat⟩ := h.tx.acknowledge_duplicate bd
    rw [← h.tx.baseId_eq, hok] at hack
    cases hack
    exact ⟨_, _, rebuild _ _ hd hat⟩
  · obtain ⟨n, rfl⟩ := Nat.exists_eq_add_of_le hgt.le
    obtain ⟨tx', hok, -, hat⟩ := h.tx.acknowledge_advance bd (n := n) (by omega) (by omega)
    rw [hok] at hack
    cases hack
    exact ⟨_, _, rebuild _ _ (by omega) hat⟩

/-- What one step preserves. -/
theorem inv_step {a : Action} (hinv : ∃ d c m r, Inv baseId fragmentSize s d c m r)
    (hbound : (s'.fragments fragmentSize).length < 2 ^ 31) (h : Step bd s a s') :
    ∃ d c m r, Inv baseId fragmentSize s' d c m r := by
  obtain ⟨d, c, m, r, hinv⟩ := hinv
  cases h with
  | push packet => exact ⟨d, c, m, r, hinv.push packet⟩
  | pop h => exact ⟨_, _, _, _, hinv.pop h⟩
  | resendAll => exact ⟨d, d, m, r, { hinv with tx := hinv.tx.resendAll }⟩
  | receive hmem hf =>
    obtain ⟨r', hr'⟩ := hinv.receive hbound hmem hf
    exact ⟨d, c, m, r', hr'⟩
  | report => exact ⟨d, c, m, r, hinv.report⟩
  | acknowledge hmem h =>
    obtain ⟨d', c', h'⟩ := hinv.acknowledge hbound hmem h
    exact ⟨d', c', m, r, h'⟩

/-- What a whole run preserves. -/
theorem inv_reachable (hs : Reachable (system bd baseId fragmentSize windowSize) s)
    (hbound : (s.fragments fragmentSize).length < 2 ^ 31) :
    ∃ d c m r, Inv baseId fragmentSize s d c m r := by
  refine hs.invariant_within (fun s => (s.fragments fragmentSize).length < 2 ^ 31)
    (fun s => ∃ d c m r, Inv baseId fragmentSize s d c m r) ?_ ?_ ?_ hbound
  · exact fun s h => ⟨0, 0, 0, 0, inv_initial h⟩
  · intro s a s' h hb
    obtain ⟨more, hmore⟩ := fragments_mono h fragmentSize
    rw [hmore, List.length_append] at hb
    omega
  · exact fun s a s' hinv hb h => inv_step hinv hb h

end Invariant

section Sample

/-- The step that an action leads to, if it can be taken and returns. -/
def next (bd : Build) (s : State) : Action → Option State
  | .push packet => some { s with tx := s.tx.push packet, pushed := s.pushed ++ [packet] }
  | .pop =>
      s.tx.popSendable.1.map fun item =>
        { s with tx := s.tx.popSendable.2, popped := s.popped ++ [item] }
  | .resendAll => some { s with tx := s.tx.resendAll }
  | .receive id rc =>
      if (id, rc) ∈ s.popped then
        (FragmentRef.ofRc rc).toOption.map fun f =>
          { s with
            rx := (s.rx.receive id f).1
            received := s.received ++ (s.rx.receive id f).2.toList }
      else none
  | .report => some { s with reported := s.reported ++ [s.rx.nextExpectedId] }
  | .acknowledge id =>
      if id ∈ s.reported then
        (s.tx.acknowledge bd id).toOption.map fun r => { s with tx := r.1 }
      else none

lemma next_step {bd : Build} (s : State) (action : Action) (s' : State)
    (h : next bd s action = some s') : Step bd s action s' := by
  cases action with
  | push packet => cases h; exact .push s packet
  | pop =>
    obtain ⟨item, hitem, rfl⟩ := Option.map_eq_some_iff.mp h
    apply Step.pop
    rw [← hitem]
  | resendAll => cases h; exact .resendAll s
  | receive id rc =>
    simp only [next, Option.ite_none_right_eq_some, toOption_map_eq_some] at h
    obtain ⟨hmem, f, hf, rfl⟩ := h
    exact .receive hmem hf
  | report => cases h; exact .report s
  | acknowledge id =>
    simp only [next, Option.ite_none_right_eq_some, toOption_map_eq_some] at h
    obtain ⟨hmem, r, hok, rfl⟩ := h
    exact .acknowledge hmem hok

def interpreter (bd : Build) (baseId : U32) (fragmentSize : ℕ) (windowSize : U32) :
    Executable (system bd baseId fragmentSize windowSize) where
  start := (TxBuffer.new baseId fragmentSize windowSize).toOption.bind fun tx =>
    (RxBuffer.new baseId fragmentSize).toOption.map fun rx => ⟨tx, rx, [], [], [], []⟩
  next := next bd
  start_init s h := by
    simp only [Option.bind_eq_some_iff, toOption_eq_some, toOption_map_eq_some] at h
    obtain ⟨tx, htx, rx, hrx, rfl⟩ := h
    exact ⟨tx, rx, htx, hrx, rfl⟩
  next_step := next_step

/-- Of two packets, the first of the first one's two fragments is lost, so that the second one is
rejected. After a resend the first arrives twice and is acknowledged; the second follows. -/
def sampleActions : List Action :=
  let first := .receive 0xFFFFFFFF ⟨true, false, [1, 2, 3], (0, 2)⟩
  let second := .receive 0 ⟨false, true, [1, 2, 3], (2, 3)⟩
  [.push [1, 2, 3], .push [4], .pop, .pop, second, .pop, .resendAll, .pop, first, first, .report,
    .acknowledge 0, .pop, second]

end Sample

/-- The packets received are a prefix of the packets pushed, and the sender discards only
what the receiver has accepted. -/
theorem prefix_and_window_order {bd : Build} {baseId windowSize : U32} {fragmentSize : ℕ}
    {s : State} (hs : Reachable (system bd baseId fragmentSize windowSize) s)
    (hbound : (s.fragments fragmentSize).length < 2 ^ 31) :
    s.received <+: s.pushed ∧
      s.rx.nextFragmentId - s.tx.sendWindow.baseId ≤ s.tx.maxAckId - s.tx.sendWindow.baseId ∧
      ∃ discarded accepted sent, discarded ≤ accepted ∧ accepted ≤ sent ∧
        sent ≤ (s.fragments fragmentSize).length ∧
        s.tx.fragments = (s.fragments fragmentSize).drop discarded ∧
        s.tx.sendWindow.baseId = idAt baseId discarded ∧
        s.rx.nextFragmentId = idAt baseId accepted ∧ s.tx.maxAckId = idAt baseId sent := by
  obtain ⟨d, c, m, r, h⟩ := inv_reachable hs hbound
  have hd := h.discarded_le
  have ha := h.accepted_le
  have hm := h.tx.sent_le
  refine ⟨?_, ?_, d, r, m, hd, ha, hm, h.tx.fragments_eq, h.tx.baseId_eq, h.rx, h.tx.maxAckId_eq⟩
  · have hp := assembleAll_take_isPrefix h.size_pos s.pushed r
    have hasm := h.assembled
    unfold State.fragments at hasm
    rw [hasm] at hp
    exact hp
  · rw [BitVec.le_def, h.tx.maxAck_sub, h.rx, h.tx.baseId_eq,
      toNat_sub_of_le baseId hd (by omega)]
    omega

theorem prefix_and_window_order_resent : ∃ s, Reachable (system .debug 0xFFFFFFFF 2 4) s ∧
    s.popped.map Prod.fst = [0xFFFFFFFF, 0, 1, 0xFFFFFFFF, 0] ∧ s.tx.sendWindow.baseId = 0 ∧
    s.received = [[1, 2, 3]] ∧ s.received <+: s.pushed ∧
    s.rx.nextFragmentId - s.tx.sendWindow.baseId ≤ s.tx.maxAckId - s.tx.sendWindow.baseId := by
  have hrun : ((interpreter .debug 0xFFFFFFFF 2 4).exec sampleActions).map
      (fun s => decide (s.popped.map Prod.fst = [0xFFFFFFFF, 0, 1, 0xFFFFFFFF, 0] ∧
        s.tx.sendWindow.baseId = 0 ∧ s.received = [[1, 2, 3]] ∧ (s.fragments 2).length = 3)) =
      some true := by
    rfl
  obtain ⟨s, hexec, hdecide⟩ := Option.map_eq_some_iff.mp hrun
  obtain ⟨hpopped, hbase, hall, hcount⟩ := of_decide_eq_true hdecide
  have hs := (interpreter .debug 0xFFFFFFFF 2 4).exec_reachable hexec
  obtain ⟨hreceived, hwindow, -⟩ := prefix_and_window_order hs (by rw [hcount]; decide)
  exact ⟨s, hs, hpopped, hbase, hall, hreceived, hwindow⟩

end Redpine.ReliableChannel

import Redpine.Buffer

/-! The reliable fragment buffers: `buffer/reliable.rs`. -/
namespace Redpine.Reliable
open Machine Buffer SerialId

structure TxBuffer where
  fragments : List FragmentRc
  nextSendId : U32
  maxAckId : U32
  fragmentSize : ℕ
  sendWindow : Window
  duplicateAckCount : ℕ
  fragmentSize_pos : 0 < fragmentSize

namespace TxBuffer

def new (baseId : U32) (fragmentSize : ℕ) (windowSize : U32) : Exec TxBuffer :=
  if windowSize = 0 then .error .assertion
  else if h : 0 < fragmentSize then
    .ok {
      fragments := []
      nextSendId := baseId
      maxAckId := baseId
      fragmentSize := fragmentSize
      sendWindow := ⟨baseId, windowSize⟩
      duplicateAckCount := 0
      fragmentSize_pos := h }
  else .error .assertion

def push (b : TxBuffer) (packet : Bytes) : TxBuffer :=
  { b with fragments := b.fragments ++ fragmentsOf b.fragmentSize packet }

def peekSendable (b : TxBuffer) : Option (U32 × FragmentRc) :=
  if b.sendWindow.contains b.nextSendId then
    match b.fragments[(b.nextSendId - b.sendWindow.baseId).toNat]? with
    | some fragment => some (b.nextSendId, fragment)
    | none => none
  else none

/-- The next ack ID advances with the next send ID if the latter is caught up. -/
def popSendable (b : TxBuffer) : Option (U32 × FragmentRc) × TxBuffer :=
  if b.sendWindow.contains b.nextSendId then
    match b.fragments[(b.nextSendId - b.sendWindow.baseId).toNat]? with
    | some fragment =>
        (some (b.nextSendId, fragment),
          { b with
            nextSendId := b.nextSendId + 1
            maxAckId := if b.nextSendId = b.maxAckId then b.nextSendId + 1 else b.maxAckId })
    | none => (none, b)
  else (none, b)

def resendAll (b : TxBuffer) : TxBuffer :=
  { b with duplicateAckCount := 0, nextSendId := b.sendWindow.baseId }

/-- `self.fragments.drain(0..n)`. -/
def drain (b : TxBuffer) (n : ℕ) : Exec (List FragmentRc) :=
  if n ≤ b.fragments.length then .ok (b.fragments.drop n) else .error .outOfRange

def acknowledge (bd : Build) (b : TxBuffer) (newBaseId : U32) : Exec (TxBuffer × Bool) :=
  if newBaseId = b.sendWindow.baseId then do
    -- Nothing new was acknowledged, this is a duplicate
    let count ← checkedAdd bd 32 b.duplicateAckCount 1
    let b := { b with duplicateAckCount := count }
    return (if count = 3 then b.resendAll else b, true)
  else
    let newBaseDelta := newBaseId - b.sendWindow.baseId
    let maxAckDelta := b.maxAckId - b.sendWindow.baseId
    if newBaseDelta ≤ maxAckDelta then do
      let nextSendDelta := b.nextSendId - b.sendWindow.baseId
      let fragments ← b.drain newBaseDelta.toNat
      return ({ b with
        fragments := fragments
        sendWindow := { b.sendWindow with baseId := newBaseId }
        nextSendId := if nextSendDelta < newBaseDelta then newBaseId else b.nextSendId
        duplicateAckCount := 0 }, true)
    else .ok (b, false)

end TxBuffer

structure RxBuffer where
  fragmentSize : ℕ
  nextFragmentId : U32
  currentBuild : Option PacketBuild
  fragmentSize_pos : 0 < fragmentSize

namespace RxBuffer

def new (baseId : U32) (fragmentSize : ℕ) : Exec RxBuffer :=
  if h : 0 < fragmentSize then .ok ⟨fragmentSize, baseId, none, h⟩ else .error .assertion

def receive (b : RxBuffer) (fragmentId : U32) (fragment : FragmentRef) :
    RxBuffer × Option Bytes :=
  if fragmentId = b.nextFragmentId ∧ fragmentIsValid fragment b.fragmentSize then
    let buffer := (b.currentBuild.getD ⟨[]⟩).buffer ++ fragment.data
    let b := { b with nextFragmentId := b.nextFragmentId + 1 }
    if fragment.last then ({ b with currentBuild := none }, some buffer)
    else ({ b with currentBuild := some ⟨buffer⟩ }, none)
  else (b, none)

def nextExpectedId (b : RxBuffer) : U32 := b.nextFragmentId

end RxBuffer

/-! ### Positions

IDs are read as positions in the sequence of all fragments ever pushed. -/
namespace TxBuffer

/-- Of the fragments `all` pushed so far, those before `discarded` are gone, those before
`sent` have been popped, and `cursor` is the next one to be popped. -/
structure At (b : TxBuffer) (base0 : U32) (all : List FragmentRc)
    (discarded cursor sent : ℕ) : Prop where
  fragments_eq : b.fragments = all.drop discarded
  baseId_eq : b.sendWindow.baseId = idAt base0 discarded
  nextSendId_eq : b.nextSendId = idAt base0 cursor
  maxAckId_eq : b.maxAckId = idAt base0 sent
  discarded_le : discarded ≤ cursor
  cursor_le : cursor ≤ sent
  sent_le : sent ≤ all.length
  sent_window : sent ≤ discarded + b.sendWindow.size.toNat
  count_le : b.duplicateAckCount ≤ 2

variable {bd : Build} {b b' : TxBuffer} {base0 : U32} {all : List FragmentRc}
  {discarded cursor sent : ℕ}

theorem new_at {fragmentSize : ℕ} {windowSize : U32}
    (h : new base0 fragmentSize windowSize = .ok b) : b.At base0 [] 0 0 0 := by
  unfold new at h
  split_ifs at h
  cases h
  exact ⟨rfl, by simp, by simp, by simp, le_rfl, le_rfl, le_rfl, by simp, by simp⟩

theorem new_fragmentSize {fragmentSize : ℕ} {windowSize : U32}
    (h : new base0 fragmentSize windowSize = .ok b) : b.fragmentSize = fragmentSize := by
  unfold new at h
  split_ifs at h
  cases h
  rfl

/-- What no operation changes. -/
theorem popSendable_frame {item : Option (U32 × FragmentRc)}
    (h : b.popSendable = (item, b')) :
    b'.fragmentSize = b.fragmentSize ∧ b'.sendWindow = b.sendWindow := by
  unfold popSendable at h
  by_cases hc : b.sendWindow.contains b.nextSendId = true
  · rw [if_pos hc] at h
    cases hf : b.fragments[(b.nextSendId - b.sendWindow.baseId).toNat]? <;>
      simp only [hf, Prod.mk.injEq] at h <;> rw [← h.2] <;> exact ⟨rfl, rfl⟩
  · rw [if_neg hc] at h
    simp only [Prod.mk.injEq] at h
    rw [← h.2]
    exact ⟨rfl, rfl⟩

theorem acknowledge_frame {id : U32} {ok : Bool} (h : b.acknowledge bd id = .ok (b', ok)) :
    b'.fragmentSize = b.fragmentSize ∧ b'.sendWindow.size = b.sendWindow.size := by
  unfold acknowledge at h
  by_cases hid : id = b.sendWindow.baseId
  · rw [if_pos hid] at h
    obtain ⟨count, -, h⟩ := bind_eq_ok.mp h
    simp only [pure_eq_ok, Except.ok.injEq, Prod.mk.injEq] at h
    rw [← h.1]
    split_ifs <;> exact ⟨rfl, rfl⟩
  · rw [if_neg hid] at h
    by_cases hle : id - b.sendWindow.baseId ≤ b.maxAckId - b.sendWindow.baseId
    · simp only [if_pos hle] at h
      obtain ⟨fragments, -, h⟩ := bind_eq_ok.mp h
      simp only [pure_eq_ok, Except.ok.injEq, Prod.mk.injEq] at h
      rw [← h.1]
      exact ⟨rfl, rfl⟩
    · simp only [if_neg hle] at h
      cases h
      exact ⟨rfl, rfl⟩

namespace At

theorem window_lt (h : b.At base0 all discarded cursor sent) :
    sent < discarded + 2 ^ 32 := by
  have := b.sendWindow.size.isLt
  have := h.sent_window
  omega

theorem push (h : b.At base0 all discarded cursor sent) (packet : Bytes) :
    (b.push packet).At base0 (all ++ fragmentsOf b.fragmentSize packet) discarded cursor sent := by
  have hle : discarded ≤ all.length := by
    have := h.discarded_le
    have := h.cursor_le
    have := h.sent_le
    omega
  refine ⟨?_, h.baseId_eq, h.nextSendId_eq, h.maxAckId_eq, h.discarded_le, h.cursor_le, ?_,
    h.sent_window, h.count_le⟩
  · simp only [TxBuffer.push, h.fragments_eq, List.drop_append_of_le_length hle]
  · have := h.sent_le
    simp only [List.length_append]
    omega

theorem resendAll (h : b.At base0 all discarded cursor sent) :
    b.resendAll.At base0 all discarded discarded sent :=
  ⟨h.fragments_eq, h.baseId_eq, h.baseId_eq, h.maxAckId_eq, le_rfl,
    h.discarded_le.trans h.cursor_le, h.sent_le, h.sent_window, by simp [TxBuffer.resendAll]⟩

theorem nextSend_sub (h : b.At base0 all discarded cursor sent) :
    (b.nextSendId - b.sendWindow.baseId).toNat = cursor - discarded := by
  have := h.window_lt
  have := h.cursor_le
  rw [h.nextSendId_eq, h.baseId_eq]
  exact toNat_sub_of_le _ h.discarded_le (by omega)

theorem maxAck_sub (h : b.At base0 all discarded cursor sent) :
    (b.maxAckId - b.sendWindow.baseId).toNat = sent - discarded := by
  have := h.window_lt
  rw [h.maxAckId_eq, h.baseId_eq]
  exact toNat_sub_of_le _ (h.discarded_le.trans h.cursor_le) (by omega)

theorem contains_iff (h : b.At base0 all discarded cursor sent) :
    b.sendWindow.contains b.nextSendId = true ↔
      cursor < discarded + b.sendWindow.size.toNat := by
  have := h.discarded_le
  simp only [Window.contains, decide_eq_true_eq, BitVec.lt_def, h.nextSend_sub]
  omega

theorem getElem_fragments (h : b.At base0 all discarded cursor sent) :
    b.fragments[(b.nextSendId - b.sendWindow.baseId).toNat]? = all[cursor]? := by
  rw [h.nextSend_sub, h.fragments_eq, List.getElem?_drop, Nat.add_sub_cancel' h.discarded_le]

theorem nextSendId_eq_maxAckId_iff (h : b.At base0 all discarded cursor sent) :
    b.nextSendId = b.maxAckId ↔ cursor = sent := by
  have := h.window_lt
  have := h.discarded_le
  have := h.cursor_le
  rw [h.nextSendId_eq, h.maxAckId_eq]
  exact idAt_inj _ (by omega) (by omega)

/-- `peek_sendable` sees the fragment at the cursor if the window permits. -/
theorem peekSendable_eq (h : b.At base0 all discarded cursor sent) :
    b.peekSendable =
      if cursor < discarded + b.sendWindow.size.toNat then
        all[cursor]?.map (fun rc => (idAt base0 cursor, rc))
      else none := by
  unfold peekSendable
  rw [h.getElem_fragments]
  by_cases hw : cursor < discarded + b.sendWindow.size.toNat
  · rw [if_pos (h.contains_iff.mpr hw), if_pos hw, h.nextSendId_eq]
    cases all[cursor]? <;> rfl
  · rw [if_neg (fun hc => hw (h.contains_iff.mp hc)), if_neg hw]

theorem popSendable_fst (b : TxBuffer) : b.popSendable.1 = b.peekSendable := by
  unfold TxBuffer.popSendable TxBuffer.peekSendable
  by_cases hc : b.sendWindow.contains b.nextSendId = true
  · rw [if_pos hc, if_pos hc]
    cases b.fragments[(b.nextSendId - b.sendWindow.baseId).toNat]? <;> rfl
  · rw [if_neg hc, if_neg hc]

/-- A successful pop returns the fragment at the cursor under the cursor's ID. -/
theorem popSendable (h : b.At base0 all discarded cursor sent) {id : U32} {rc : FragmentRc}
    (hp : b.popSendable = (some (id, rc), b')) :
    id = idAt base0 cursor ∧ all[cursor]? = some rc ∧
      cursor < discarded + b.sendWindow.size.toNat ∧
      b'.At base0 all discarded (cursor + 1) (max sent (cursor + 1)) := by
  unfold TxBuffer.popSendable at hp
  rw [h.getElem_fragments] at hp
  by_cases hw : b.sendWindow.contains b.nextSendId = true
  · rw [if_pos hw] at hp
    have hlt := h.contains_iff.mp hw
    cases hrc : all[cursor]? with
    | none => simp [hrc] at hp
    | some rc' =>
      simp only [hrc, Prod.mk.injEq, Option.some.injEq] at hp
      obtain ⟨⟨rfl, rfl⟩, rfl⟩ := hp
      have hlen : cursor < all.length := (List.getElem?_eq_some_iff.mp hrc).1
      have hd := h.discarded_le
      have hc := h.cursor_le
      have hs := h.sent_le
      have hwin := h.sent_window
      refine ⟨h.nextSendId_eq, rfl, hlt, h.fragments_eq, h.baseId_eq, ?_, ?_, by omega, by omega,
        by omega, by simp only; omega, h.count_le⟩
      · simp only [h.nextSendId_eq]
        exact (idAt_succ _ _).symm
      · simp only [h.nextSendId_eq_maxAckId_iff]
        split_ifs with heq
        · subst heq
          rw [h.nextSendId_eq, max_eq_right (by omega)]
          exact (idAt_succ _ _).symm
        · rw [h.maxAckId_eq, max_eq_left (by omega)]
  · simp [hw] at hp

/-- Every ID is the base, lies ahead of it within what was sent, or is out of range. -/
theorem ack_cases (h : b.At base0 all discarded cursor sent) (id : U32) :
    id = b.sendWindow.baseId ∨
      (∃ n, 0 < n ∧ n ≤ sent - discarded ∧ id = idAt base0 (discarded + n)) ∨
      sent - discarded < (id - b.sendWindow.baseId).toNat := by
  have hidAt : id = idAt base0 (discarded + (id - b.sendWindow.baseId).toNat) := by
    rw [← idAt_idAt, ← h.baseId_eq, idAt_toNat_sub]
  rcases Nat.eq_zero_or_pos (id - b.sendWindow.baseId).toNat with h0 | hpos
  · left
    exact sub_eq_zero.mp (BitVec.eq_of_toNat_eq (by simpa using h0))
  · rcases Nat.lt_or_ge (sent - discarded) (id - b.sendWindow.baseId).toNat with hgt | hle
    · exact .inr (.inr hgt)
    · exact .inr (.inl ⟨_, hpos, hle, hidAt⟩)

variable (bd) in
/-- A duplicate ack restarts the cursor the third time. -/
theorem acknowledge_duplicate (h : b.At base0 all discarded cursor sent) :
    ∃ b', b.acknowledge bd b.sendWindow.baseId = .ok (b', true) ∧
      b'.sendWindow = b.sendWindow ∧
      b'.At base0 all discarded (if b.duplicateAckCount = 2 then discarded else cursor) sent := by
  have hcount := h.count_le
  have hadd : checkedAdd bd 32 b.duplicateAckCount 1 = .ok (b.duplicateAckCount + 1) :=
    checkedAdd_of_lt (by omega)
  unfold TxBuffer.acknowledge
  rw [if_pos rfl]
  simp only [hadd, ok_bind, pure_eq_ok]
  by_cases hc : b.duplicateAckCount = 2
  · rw [if_pos (show b.duplicateAckCount + 1 = 3 by omega), if_pos hc]
    refine ⟨_, rfl, rfl, ?_⟩
    exact ⟨h.fragments_eq, h.baseId_eq, h.baseId_eq, h.maxAckId_eq, le_rfl,
      h.discarded_le.trans h.cursor_le, h.sent_le, h.sent_window, by simp [TxBuffer.resendAll]⟩
  · rw [if_neg (show ¬ b.duplicateAckCount + 1 = 3 by omega), if_neg hc]
    refine ⟨_, rfl, rfl, ?_⟩
    exact ⟨h.fragments_eq, h.baseId_eq, h.nextSendId_eq, h.maxAckId_eq, h.discarded_le,
      h.cursor_le, h.sent_le, h.sent_window, by simp only; omega⟩

theorem sub_base_toNat (h : b.At base0 all discarded cursor sent) {n : ℕ}
    (hn : n ≤ sent - discarded) :
    (idAt base0 (discarded + n) - b.sendWindow.baseId).toNat = n := by
  have := h.window_lt
  rw [h.baseId_eq, toNat_sub_of_le _ (by omega) (by omega)]
  omega

variable (bd) in
/-- An ack of sent fragments discards them, and the cursor is not left behind. -/
theorem acknowledge_advance (h : b.At base0 all discarded cursor sent) {n : ℕ} (hpos : 0 < n)
    (hn : n ≤ sent - discarded) :
    ∃ b', b.acknowledge bd (idAt base0 (discarded + n)) = .ok (b', true) ∧
      b'.sendWindow.size = b.sendWindow.size ∧
      b'.At base0 all (discarded + n) (max cursor (discarded + n)) sent := by
  have hd := h.discarded_le
  have hc := h.cursor_le
  have hs := h.sent_le
  have hsub := h.sub_base_toNat hn
  have hne : idAt base0 (discarded + n) ≠ b.sendWindow.baseId := by
    intro he
    rw [he, BitVec.sub_self] at hsub
    simp at hsub
    omega
  have hle : idAt base0 (discarded + n) - b.sendWindow.baseId ≤
      b.maxAckId - b.sendWindow.baseId := by
    rw [BitVec.le_def, hsub, h.maxAck_sub]
    exact hn
  have hdrain : b.drain n = .ok (b.fragments.drop n) := by
    rw [drain, if_pos (by rw [h.fragments_eq, List.length_drop]; omega)]
  have hcursor : (b.nextSendId - b.sendWindow.baseId <
      idAt base0 (discarded + n) - b.sendWindow.baseId) ↔ cursor < discarded + n := by
    rw [BitVec.lt_def, h.nextSend_sub, hsub]
    omega
  unfold TxBuffer.acknowledge
  simp only [if_neg hne, if_pos hle, hsub, hdrain, ok_bind, pure_eq_ok]
  refine ⟨_, rfl, rfl, ?_, rfl, ?_, h.maxAckId_eq, by omega, by omega, hs, ?_, by simp⟩
  · simp only [h.fragments_eq, List.drop_drop]
  · simp only [hcursor]
    split_ifs with hlt
    · rw [max_eq_right (by omega)]
    · rw [max_eq_left (by omega)]
      exact h.nextSendId_eq
  · have := h.sent_window
    simp only
    omega

/-- Any other ack changes nothing. -/
theorem acknowledge_invalid (h : b.At base0 all discarded cursor sent) {id : U32}
    (hgt : sent - discarded < (id - b.sendWindow.baseId).toNat) :
    b.acknowledge bd id = .ok (b, false) := by
  have hne : id ≠ b.sendWindow.baseId := by
    rintro rfl
    simp at hgt
  have hle : ¬ id - b.sendWindow.baseId ≤ b.maxAckId - b.sendWindow.baseId := by
    rw [BitVec.le_def, h.maxAck_sub]
    omega
  unfold TxBuffer.acknowledge
  rw [if_neg hne]
  exact if_neg hle

end At

end TxBuffer

namespace RxBuffer
variable {b : RxBuffer}

/-- An accepted fragment is assembled and the next ID is expected. -/
theorem receive_accept {id : U32} {f : FragmentRef} (hid : id = b.nextFragmentId)
    (hv : fragmentIsValid f b.fragmentSize = true) (out : List Bytes) :
    ((b.receive id f).1.currentBuild, out ++ (b.receive id f).2.toList) =
        assemble (b.currentBuild, out) f ∧
      (b.receive id f).1.nextFragmentId = b.nextFragmentId + 1 := by
  unfold receive assemble
  rw [if_pos ⟨hid, hv⟩]
  cases f.last <;> simp

theorem receive_ignore {id : U32} {f : FragmentRef} (hid : id ≠ b.nextFragmentId) :
    b.receive id f = (b, none) := by
  simp [receive, hid]

theorem receive_fragmentSize (id : U32) (f : FragmentRef) :
    (b.receive id f).1.fragmentSize = b.fragmentSize := by
  unfold receive
  split_ifs <;> rfl

/-- Of the fragments `all`, those before `accepted` have been assembled, which completed the
packets `received`. -/
structure Assembles (b : RxBuffer) (base0 : U32) (all : List FragmentRc) (accepted : ℕ)
    (received : List Bytes) : Prop where
  nextId_eq : b.nextFragmentId = idAt base0 accepted
  accepted_le : accepted ≤ all.length
  assembled : assembleAll (none, []) (all.take accepted) = (b.currentBuild, received)

section Assembles
variable {base0 : U32} {all : List FragmentRc} {accepted : ℕ} {received : List Bytes}

theorem Assembles.append (h : b.Assembles base0 all accepted received) (more : List FragmentRc) :
    b.Assembles base0 (all ++ more) accepted received := by
  refine ⟨h.nextId_eq, ?_, ?_⟩
  · have := h.accepted_le
    rw [List.length_append]
    omega
  · rw [List.take_append_of_le_length h.accepted_le]
    exact h.assembled

/-- A fragment in use is assembled if it is the next one, and ignored otherwise. -/
theorem Assembles.receive (h : b.Assembles base0 all accepted received)
    (hbound : all.length < 2 ^ 32) {i : ℕ} {rc : FragmentRc} (hget : all[i]? = some rc)
    (hvalid : fragmentIsValid rc.view b.fragmentSize = true) :
    ∃ accepted', (b.receive (idAt base0 i) rc.view).1.Assembles base0 all accepted'
        (received ++ (b.receive (idAt base0 i) rc.view).2.toList) ∧
      (accepted' = accepted ∨ i = accepted ∧ accepted' = accepted + 1) := by
  have hlt := (List.getElem?_eq_some_iff.mp hget).1
  have hle := h.accepted_le
  by_cases hnext : idAt base0 i = b.nextFragmentId
  · -- the IDs in use are distinct, so this is the fragment at the receiver's position
    have hi : i = accepted := by
      rw [h.nextId_eq] at hnext
      exact idAt_injOn base0 (by omega) (by omega) hnext
    subst hi
    obtain ⟨hassembled, hid⟩ := receive_accept hnext hvalid received
    refine ⟨i + 1, ⟨?_, hlt, ?_⟩, .inr ⟨rfl, rfl⟩⟩
    · rw [hid, h.nextId_eq]
      exact (idAt_succ _ _).symm
    · rw [List.take_add_one, hget, assembleAll_append, h.assembled, hassembled]
      rfl
  · rw [receive_ignore hnext]
    exact ⟨accepted, by simpa using h, .inl rfl⟩

theorem Assembles.isPrefix {fragmentSize : ℕ} {packets : List Bytes} (hpos : 0 < fragmentSize)
    (h : b.Assembles base0 (packets.flatMap (fragmentsOf fragmentSize)) accepted received) :
    received <+: packets := by
  have hp := assembleAll_take_isPrefix hpos packets accepted
  rwa [h.assembled] at hp

end Assembles

end RxBuffer

end Redpine.Reliable

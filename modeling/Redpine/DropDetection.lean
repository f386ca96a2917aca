import Redpine.RecentRegister
import Redpine.SegmentChannel

/-! The sender's register of acknowledged segments tells the same drops as the set of all segments
that are not acknowledged. -/
namespace Redpine.DropDetection
open Machine SerialId Transition Parity

/-- The position up to which acks have been taken, and the positions before it that have not been
acknowledged since the last drop. -/
structure Reference where
  base : ℕ
  unacked : Finset ℕ

/-- The nonces of the segments that a history selects, its newest bit being just before the base. -/
def selectedNonces (nonces : List Bool) (history : U32) (base : ℕ) : List Bool :=
  ((List.range 32).filter history.getLsbD).map fun i =>
    decide (i < base) && nonces.getD (base - 1 - i) false

/-- The oldest segment is far behind, or at least three after it have been acknowledged. -/
def Dropped (unacked : Finset ℕ) (base : ℕ) : Prop :=
  ∃ u ∈ unacked, (∀ v ∈ unacked, u ≤ v) ∧
    (32 ≤ base - u ∨ 3 ≤ (Finset.Ioo u base \ unacked).card)

instance (unacked : Finset ℕ) (base : ℕ) : Decidable (Dropped unacked base) :=
  inferInstanceAs (Decidable (∃ u ∈ unacked, _ ∧ _))

namespace Reference

/-- What remains once the base has moved and the segments that the ack reports are taken out. -/
def remaining (r : Reference) (nonces : List Bool) (base : ℕ) (history : U32) (checksum : Bool) :
    Finset ℕ :=
  if xorAll (selectedNonces nonces history base) = checksum then
    (r.unacked ∪ Finset.Ico r.base base).filter fun u => history.getLsbD (base - 1 - u) = false
  else r.unacked ∪ Finset.Ico r.base base

/-- The position of the ID is the first one from the base on. -/
def acknowledge (r : Reference) (baseId : U32) (nonces : List Bool) (id history : U32)
    (checksum : Bool) : Reference × Bool :=
  let base := r.base + (id - idAt baseId r.base).toNat
  if base ≤ nonces.length then
    let unacked := r.remaining nonces base history checksum
    if Dropped unacked base then (⟨base, ∅⟩, true) else (⟨base, unacked⟩, false)
  else (r, false)

end Reference

structure State where
  tx : SegmentTx
  nonces : List Bool
  reference : Reference

inductive Action
  | send (nonce : Bool) (size : ℕ)
  | acknowledge (id history : U32) (checksum : Bool)

inductive Step (bd : Build) (baseId : U32) (s : State) : Action → State → Prop
  | send {nonce : Bool} {size : ℕ} {tx tx' : SegmentTx} (hcan : s.tx.canSend = true)
      (hsize : size < 2 ^ 64) (hnonce : s.tx.computeNextNonce bd nonce = .ok tx)
      (hsent : tx.markSent bd size = .ok tx') :
      Step bd baseId s (.send nonce size) { s with tx := tx', nonces := s.nonces ++ [nonce] }
  | acknowledge {id history : U32} {checksum : Bool} {tx : SegmentTx} {drop : Bool}
      (h : s.tx.acknowledge bd id history checksum = .ok (tx, drop)) :
      Step bd baseId s (.acknowledge id history checksum)
        { s with
          tx := tx
          reference := (s.reference.acknowledge baseId s.nonces id history checksum).1 }

def Initial (baseId size : U32) (s : State) : Prop :=
  ∃ tx, SegmentTx.new baseId size = .ok tx ∧ s = ⟨tx, [], ⟨0, ∅⟩⟩

def system (bd : Build) (baseId size : U32) : System State Action :=
  ⟨Initial baseId size, Step bd baseId⟩

structure Inv (bd : Build) (baseId : U32) (s : State) (k : ℕ) (sizes : List ℕ) : Prop where
  tx : s.tx.InFlight bd k baseId sizes s.reference.base
  nonces : s.tx.Nonces baseId s.nonces s.reference.base
  sizes_length : s.nonces.length = sizes.length
  register : Recent.Holds s.tx.ackHistory s.reference.base s.reference.unacked

section Register
variable {bd : Build} {s : SegmentTx} {base : ℕ} {unacked : Finset ℕ}

/-- Whether a drop is reported once the register has been brought up to date. -/
lemma dropped_iff {x : U32} (h : Recent.Holds x base unacked) (hne : unacked ≠ ∅) :
    Dropped unacked base ↔ Recent.leadingOnes x = 0 ∨
      3 ≤ ((x <<< Recent.leadingOnes x) >>> Recent.leadingOnes x).cpop.toNat := by
  obtain ⟨hmem, hle, hmin⟩ := h.oldest hne
  rw [h.count hne]
  constructor
  · rintro ⟨u, hu, hleast, hdrop⟩
    have hsame : u = base + Recent.leadingOnes x - 32 :=
      le_antisymm (hleast _ hmem) (hmin u hu)
    rw [hsame] at hdrop
    refine hdrop.imp_left fun hfar => ?_
    omega
  · intro hdrop
    refine ⟨_, hmem, hmin, hdrop.imp_left fun hzero => ?_⟩
    omega

lemma dropped_of_far {u : ℕ} (hu : u ∈ unacked) (hfar : 32 ≤ base - u) :
    Dropped unacked base := by
  have hne : unacked.Nonempty := ⟨u, hu⟩
  refine ⟨unacked.min' hne, unacked.min'_mem hne, fun v hv => unacked.min'_le v hv, .inl ?_⟩
  have hle := unacked.min'_le u hu
  omega

lemma not_dropped_empty : ¬ Dropped ∅ base := by
  rintro ⟨u, hu, -⟩
  simp at hu

/-- No history reaches back to a segment that is far behind. -/
lemma mem_remaining_of_far {r : Reference} {nonces : List Bool} {history : U32} {checksum : Bool}
    {u : ℕ} (hu : u ∈ r.unacked ∪ Finset.Ico r.base base) (hfar : 32 ≤ base - 1 - u) :
    u ∈ r.remaining nonces base history checksum := by
  unfold Reference.remaining
  split_ifs
  · exact Finset.mem_filter.mpr ⟨hu, BitVec.getLsbD_of_ge _ _ hfar⟩
  · exact hu

lemma shifted_eq (x delta : U32) (hle : delta.toNat ≤ 32) :
    (if delta = 32 then 0 else SegmentTx.wrappingShl x delta.toNat) = x <<< delta.toNat := by
  by_cases h32 : delta = 32
  · rw [if_pos h32, h32]
    exact (BitVec.shiftLeft_eq_zero le_rfl).symm
  · have hne : delta.toNat ≠ 32 := fun he => h32 (BitVec.eq_of_toNat_eq he)
    rw [if_neg h32, SegmentTx.wrappingShl, Nat.mod_eq_of_lt (by omega)]

/-- The word after an ack, before drops are looked for. -/
lemma remaining_register {x : U32} (h : Recent.Holds x base unacked) {delta : ℕ}
    (hle : delta ≤ Recent.leadingOnes x) (nonces : List Bool) (history : U32) (checksum : Bool) :
    Recent.Holds (if xorAll (selectedNonces nonces history (base + delta)) = checksum then
        (x <<< delta) ||| history else x <<< delta) (base + delta)
      (Reference.remaining ⟨base, unacked⟩ nonces (base + delta) history checksum) := by
  have hshift := h.shift hle
  unfold Reference.remaining
  by_cases hchecks : xorAll (selectedNonces nonces history (base + delta)) = checksum
  · rw [if_pos hchecks, if_pos hchecks]
    exact hshift.or history
  · rw [if_neg hchecks, if_neg hchecks]
    exact hshift

lemma oldestBit_iff {x : U32} (hne : x ≠ BitVec.allOnes 32) :
    SegmentTx.wrappingShr x 31 = 0 ↔ Recent.leadingOnes x = 0 := by
  have hbit : SegmentTx.wrappingShr x 31 = 0 ↔ x.getLsbD 31 = false := by
    unfold SegmentTx.wrappingShr
    constructor
    · intro h
      have hlow := congrArg (fun y => y.getLsbD 0) h
      simpa using hlow
    · intro h
      refine BitVec.eq_of_getLsbD_eq fun i hi => ?_
      rw [BitVec.getLsbD_ushiftRight]
      rcases Nat.eq_zero_or_pos i with rfl | hpos
      · simpa using h
      · rw [BitVec.getLsbD_of_ge _ _ (by omega)]
        simp
  rw [hbit]
  constructor
  · intro h
    by_contra hpos
    rw [Recent.getLsbD_of_leadingOnes (by decide) (by omega)] at h
    cases h
  · intro h
    have hfirst := Recent.getLsbD_leadingOnes hne
    rwa [h] at hfirst

variable (bd) in
/-- The register reports a drop exactly if the reference does. -/
lemma updateAckHistory_refines (h : Recent.Holds s.ackHistory base unacked) {delta : U32}
    {nonces : List Bool} {history : U32} (checksum : Bool)
    (hchecksum : SegmentTx.expectedChecksum s.nonceHistory history =
      xorAll (selectedNonces nonces history (base + delta.toNat))) :
    ∃ ackHistory drop, s.updateAckHistory bd delta history checksum =
        .ok ({ s with ackHistory := ackHistory }, drop) ∧
      (drop = true ↔ Dropped (Reference.remaining ⟨base, unacked⟩ nonces (base + delta.toNat)
        history checksum) (base + delta.toNat)) ∧
      Recent.Holds ackHistory (base + delta.toNat) (if drop = true then ∅ else
        Reference.remaining ⟨base, unacked⟩ nonces (base + delta.toNat) history checksum) := by
  unfold SegmentTx.updateAckHistory
  by_cases hgap : SegmentTx.leadingOnes s.ackHistory < delta.toNat
  · rw [if_pos hgap]
    refine ⟨_, true, rfl, iff_of_true rfl ?_, Recent.Holds.allOnes _⟩
    by_cases hempty : unacked = ∅
    · have hones := h.eq_allOnes_iff.mpr hempty
      have hlead : SegmentTx.leadingOnes s.ackHistory = 32 := by
        rw [hones]
        exact Recent.leadingOnes_allOnes
      refine dropped_of_far (u := base) (mem_remaining_of_far ?_ (by omega)) (by omega)
      rw [Finset.mem_union, Finset.mem_Ico]
      exact .inr ⟨le_rfl, by omega⟩
    · obtain ⟨hmem, hle, -⟩ := h.oldest hempty
      have hlead : SegmentTx.leadingOnes s.ackHistory = Recent.leadingOnes s.ackHistory := rfl
      refine dropped_of_far (mem_remaining_of_far (Finset.mem_union_left _ hmem) ?_) ?_
      · omega
      · omega
  · have hle : delta.toNat ≤ Recent.leadingOnes s.ackHistory := not_lt.mp hgap
    have hword := remaining_register h hle nonces history checksum
    rw [if_neg hgap, shifted_eq _ _ (hle.trans (Recent.leadingOnes_le_width _)), hchecksum]
    dsimp only
    generalize (if xorAll (selectedNonces nonces history (base + delta.toNat)) = checksum then
      (s.ackHistory <<< delta.toNat) ||| history else s.ackHistory <<< delta.toNat) = x at hword
    generalize Reference.remaining ⟨base, unacked⟩ nonces (base + delta.toNat) history checksum =
      missing at hword
    by_cases hones : x = BitVec.allOnes 32
    · rw [if_pos hones]
      have hempty := hword.eq_allOnes_iff.mp hones
      subst hempty
      exact ⟨x, false, rfl, iff_of_false (by simp) not_dropped_empty, hword⟩
    · have hne : missing ≠ ∅ := fun he => hones (hword.eq_allOnes_iff.mpr he)
      rw [if_neg hones, dropped_iff hword hne, ← oldestBit_iff hones]
      by_cases hold : SegmentTx.wrappingShr x 31 = 0
      · rw [if_pos hold]
        exact ⟨_, true, rfl, iff_of_true rfl (.inl hold), Recent.Holds.allOnes _⟩
      · have hlt : SegmentTx.leadingOnes x < 32 := SegmentTx.leadingOnes_lt hones
        have hcount : SegmentTx.countOnes (SegmentTx.wrappingShr (SegmentTx.wrappingShl x
            (SegmentTx.leadingOnes x)) (SegmentTx.leadingOnes x)) =
            ((x <<< Recent.leadingOnes x) >>> Recent.leadingOnes x).cpop.toNat := by
          unfold SegmentTx.wrappingShr SegmentTx.wrappingShl
          rw [Nat.mod_eq_of_lt hlt]
          rfl
        rw [if_neg hold, debugAssert_true hlt, ok_bind, hcount]
        by_cases hthree : 3 ≤ ((x <<< Recent.leadingOnes x) >>> Recent.leadingOnes x).cpop.toNat
        · rw [if_pos hthree]
          exact ⟨_, true, rfl, iff_of_true rfl (.inr hthree), Recent.Holds.allOnes _⟩
        · rw [if_neg hthree]
          exact ⟨x, false, rfl, iff_of_false (by simp) (by tauto), hword⟩

end Register

section Refinement
variable {bd : Build} {baseId size : U32} {s s' : State} {k : ℕ} {sizes : List ℕ} {action : Action}

/-- The checksum that the sender expects is about the segments that the history selects. -/
lemma expectedChecksum_selected {tx : SegmentTx} {nonces : List Bool} {base : ℕ}
    (h : tx.Nonces baseId nonces base) (history : U32) :
    SegmentTx.expectedChecksum tx.nonceHistory history =
      xorAll (selectedNonces nonces history base) := by
  rw [SegmentChannel.expectedChecksum_eq, parity, selectedNonces, ← xorAll_map_and]
  congr 1
  refine List.map_congr_left fun i hi => ?_
  rw [BitVec.getLsbD_and, h.history i (List.mem_range.mp hi), Bool.and_comm]

lemma advance_ackHistory {tx tx' : SegmentTx} {ackDelta id : U32}
    (h : tx.advance bd ackDelta id = .ok tx') : tx'.ackHistory = tx.ackHistory := by
  unfold SegmentTx.advance at h
  by_cases hpos : 0#32 < ackDelta
  · rw [if_pos hpos] at h
    obtain ⟨total, -, h⟩ := bind_eq_ok.mp h
    obtain ⟨tx₁, hupdate, h⟩ := bind_eq_ok.mp h
    obtain ⟨x, -, hupdate⟩ := bind_eq_ok.mp hupdate
    obtain ⟨bits, -, hupdate⟩ := bind_eq_ok.mp hupdate
    cases hupdate
    cases h
    rfl
  · rw [if_neg hpos] at h
    cases h
    rfl

/-- Sending leaves the register alone. -/
lemma send_ackHistory {tx tx₁ tx₂ : SegmentTx} {nonce : Bool} {size : ℕ}
    (hnonce : tx.computeNextNonce bd nonce = .ok tx₁) (hsent : tx₁.markSent bd size = .ok tx₂) :
    tx₂.ackHistory = tx.ackHistory := by
  obtain ⟨bitIdx, -, hnonce⟩ := bind_eq_ok.mp hnonce
  obtain ⟨bitMask, -, hnonce⟩ := bind_eq_ok.mp hnonce
  obtain ⟨bitfield, -, hnonce⟩ := bind_eq_ok.mp hnonce
  obtain ⟨nonceBuf, -, hnonce⟩ := bind_eq_ok.mp hnonce
  cases hnonce
  obtain ⟨u, -, hsent⟩ := bind_eq_ok.mp hsent
  obtain ⟨transitBuf, -, hsent⟩ := bind_eq_ok.mp hsent
  obtain ⟨total, -, hsent⟩ := bind_eq_ok.mp hsent
  cases hsent
  rfl

/-- At first nothing is missing. -/
lemma new_ackHistory {tx : SegmentTx} (h : SegmentTx.new baseId size = .ok tx) :
    tx.ackHistory = BitVec.allOnes 32 := by
  obtain ⟨u, -, h⟩ := bind_eq_ok.mp h
  obtain ⟨u', -, h⟩ := bind_eq_ok.mp h
  cases h
  rfl

/-- An ack is answered as the reference answers it. -/
theorem Inv.acknowledge (h : Inv bd baseId s k sizes) (id history : U32) (checksum : Bool) :
    ∃ tx, s.tx.acknowledge bd id history checksum =
        .ok (tx, (s.reference.acknowledge baseId s.nonces id history checksum).2) ∧
      Inv bd baseId { s with
        tx := tx
        reference := (s.reference.acknowledge baseId s.nonces id history checksum).1 } k sizes := by
  have hbase : s.tx.baseId = idAt baseId s.reference.base := h.tx.baseId_eq
  have hid : idAt baseId (s.reference.base + (id - idAt baseId s.reference.base).toNat) = id := by
    rw [← idAt_idAt, idAt_toNat_sub]
  unfold Reference.acknowledge
  generalize hdelta : (id - idAt baseId s.reference.base).toNat = delta at hid
  dsimp only
  by_cases hvalid : s.reference.base + delta ≤ s.nonces.length
  · rw [if_pos hvalid]
    have hle : s.reference.base + delta ≤ sizes.length := by rwa [← h.sizes_length]
    have haccept : id - s.tx.baseId ≤ s.tx.nextId - s.tx.baseId := by
      rw [BitVec.le_def, h.tx.next_sub, hbase, hdelta]
      omega
    obtain ⟨tx₁, hadvance, hflight, -, hnonces⟩ := h.tx.advance s.nonces (Nat.le_add_right _ _) hle
    rw [hid] at hadvance
    have hnonces := hnonces h.nonces h.sizes_length
    have hregister := h.register
    rw [← advance_ackHistory hadvance] at hregister
    have hdelta' : (id - s.tx.baseId).toNat = delta := by rw [hbase, hdelta]
    have hchecksum := expectedChecksum_selected hnonces history
    rw [← hdelta'] at hchecksum
    obtain ⟨ackHistory, drop, hupdate, hdrop, hholds⟩ :=
      updateAckHistory_refines bd hregister checksum hchecksum
    rw [hdelta'] at hdrop hholds
    have hok : s.tx.acknowledge bd id history checksum =
        .ok ({ tx₁ with ackHistory := ackHistory }, drop) := by
      unfold SegmentTx.acknowledge
      rw [if_pos haccept, hadvance, ok_bind, hupdate]
    have hflight' : SegmentTx.InFlight { tx₁ with ackHistory := ackHistory } bd k baseId sizes
        (s.reference.base + delta) :=
      ⟨⟨hflight.1.1, hflight.1.2, hflight.1.3, hflight.1.4, hflight.1.5, hflight.1.6,
        hflight.1.7⟩, hflight.2, hflight.3, hflight.4, hflight.5, hflight.6, hflight.7, hflight.8⟩
    have hnonces' : SegmentTx.Nonces { tx₁ with ackHistory := ackHistory } baseId s.nonces
        (s.reference.base + delta) := ⟨hnonces.ring, hnonces.history⟩
    by_cases hdropped : Dropped (s.reference.remaining s.nonces (s.reference.base + delta) history
        checksum) (s.reference.base + delta)
    · have htrue : drop = true := hdrop.mpr hdropped
      subst htrue
      rw [if_pos hdropped]
      exact ⟨_, hok, hflight', hnonces', h.sizes_length, hholds⟩
    · have hfalse : drop = false := by simpa using hdrop.not.mpr hdropped
      subst hfalse
      rw [if_neg hdropped]
      exact ⟨_, hok, hflight', hnonces', h.sizes_length, hholds⟩
  · rw [if_neg hvalid]
    have hacked := h.tx.acked_le
    have hgt : sizes.length - s.reference.base < (id - s.tx.baseId).toNat := by
      have hlen := h.sizes_length
      rw [hbase, hdelta]
      omega
    exact ⟨s.tx, h.tx.acknowledge_ignored hgt history checksum, h⟩

lemma inv_step (h : Inv bd baseId s k sizes) (hstep : Step bd baseId s action s') :
    ∃ sizes', Inv bd baseId s' k sizes' := by
  cases hstep with
  | @send nonce size tx tx' hcan hsize hnonce hsent =>
    obtain ⟨hflight, hnonces⟩ :=
      h.nonces.send h.tx h.sizes_length hcan hsize hnonce hsent
    refine ⟨sizes ++ [size], hflight, hnonces, by simp [h.sizes_length], ?_⟩
    rw [send_ackHistory hnonce hsent]
    exact h.register
  | @acknowledge id history checksum tx drop hok =>
    obtain ⟨tx', hok', h'⟩ := h.acknowledge id history checksum
    rw [hok] at hok'
    cases hok'
    exact ⟨sizes, h'⟩

theorem inv_reachable (hs : Reachable (system bd baseId size) s) :
    ∃ k sizes, Inv bd baseId s k sizes := by
  have hrule := @Reachable.invariant _ _ (system bd baseId size) fun s =>
    ∃ k sizes, Inv bd baseId s k sizes
  refine hrule ?_ ?_ hs
  · rintro s ⟨tx, hnew, rfl⟩
    obtain ⟨k, hflight, -⟩ := SegmentTx.new_inFlight bd hnew
    refine ⟨k, [], hflight, SegmentTx.new_nonces hnew, rfl, ?_⟩
    rw [new_ackHistory hnew]
    exact Recent.Holds.allOnes 0
  · rintro s action s' ⟨k, sizes, h⟩ hstep
    obtain ⟨sizes', h'⟩ := inv_step h hstep
    exact ⟨k, sizes', h'⟩

/-- Whatever has been sent and acknowledged, an ack reports a drop exactly if the reference does. -/
theorem acknowledge_refines (hs : Reachable (system bd baseId size) s) (id history : U32)
    (checksum : Bool) :
    ∃ tx, s.tx.acknowledge bd id history checksum =
      .ok (tx, (s.reference.acknowledge baseId s.nonces id history checksum).2) := by
  obtain ⟨k, sizes, h⟩ := inv_reachable hs
  obtain ⟨tx, hok, -⟩ := h.acknowledge id history checksum
  exact ⟨tx, hok⟩

end Refinement

section Sample

/-- The step that an action leads to, if it can be taken and returns. -/
def next (bd : Build) (baseId : U32) (s : State) : Action → Option State
  | .send nonce size =>
      if s.tx.canSend = true ∧ size < 2 ^ 64 then
        (s.tx.computeNextNonce bd nonce).toOption.bind fun tx =>
          (tx.markSent bd size).toOption.map fun tx' =>
            { s with tx := tx', nonces := s.nonces ++ [nonce] }
      else none
  | .acknowledge id history checksum =>
      (s.tx.acknowledge bd id history checksum).toOption.map fun r =>
        { s with
          tx := r.1
          reference := (s.reference.acknowledge baseId s.nonces id history checksum).1 }

lemma next_step {bd : Build} {baseId : U32} (s : State) (action : Action) (s' : State)
    (h : next bd baseId s action = some s') : Step bd baseId s action s' := by
  cases action with
  | send nonce size =>
    simp only [next, Option.ite_none_right_eq_some, Option.bind_eq_some_iff, toOption_eq_some,
      toOption_map_eq_some] at h
    obtain ⟨⟨hcan, hsize⟩, tx, hnonce, tx', hsent, rfl⟩ := h
    exact .send hcan hsize hnonce hsent
  | acknowledge id history checksum =>
    obtain ⟨r, hok, rfl⟩ := toOption_map_eq_some.mp h
    exact .acknowledge hok

def interpreter (bd : Build) (baseId windowSize : U32) :
    Executable (system bd baseId windowSize) where
  start := (SegmentTx.new baseId windowSize).toOption.map fun tx => ⟨tx, [], ⟨0, ∅⟩⟩
  next := next bd baseId
  start_init s h := by
    obtain ⟨tx, hnew, rfl⟩ := toOption_map_eq_some.mp h
    exact ⟨tx, hnew, rfl⟩
  next_step := next_step

/-- Five segments are sent, of which the second one is lost. -/
def sampleActions : List Action :=
  [.send true 1, .send false 1, .send true 1, .send true 1, .send false 1, .acknowledge 0 1 true]

end Sample

/-- Three segments after the lost one have been acknowledged. -/
theorem acknowledge_refines_sample : ∃ s tx, Reachable (system .debug 0xFFFFFFFE 64) s ∧
    s.tx.acknowledge .debug 3 7 false = .ok (tx, true) := by
  have hrun : (((interpreter .debug 0xFFFFFFFE 64).exec sampleActions).map fun s =>
        (s.reference.acknowledge 0xFFFFFFFE s.nonces 3 7 false).2) = some true := by
    rfl
  obtain ⟨s, hexec, hdrop⟩ := Option.map_eq_some_iff.mp hrun
  have hs := (interpreter .debug _ _).exec_reachable hexec
  obtain ⟨tx, hok⟩ := acknowledge_refines hs 3 7 false
  rw [hdrop] at hok
  exact ⟨s, tx, hs, hok⟩

end Redpine.DropDetection

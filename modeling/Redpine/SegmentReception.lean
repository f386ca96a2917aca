import Redpine.SegmentChannel

/-! What a receiver's segment window delivers in any sequence of calls, whatever IDs, nonces and
data it is given. -/
namespace Redpine.SegmentReception
open Machine Buffer SerialId Transition Reorder Parity
open SegmentChannel (SegmentFrame)

inductive Call
  | receive (frame : SegmentFrame)
  | sync (nextSegmentId : U32)

def perform (bd : Build) (rx : SegmentRx) : Call → Exec (SegmentRx × List Bytes)
  | .receive frame => rx.receive bd frame.id frame.nonce frame.data
  | .sync nextSegmentId => rx.sync nextSegmentId

/-- A segment with the ID would be delivered or put into the buffer. -/
def Accepts (rx : SegmentRx) (id : U32) : Prop :=
  rx.window.contains id = true ∧ ¬ (1 ≤ rx.len ∧ rx.slot0.id = id) ∧
    ¬ (rx.len = 2 ∧ rx.slot1.id = id)

instance (rx : SegmentRx) (id : U32) : Decidable (Accepts rx id) :=
  inferInstanceAs (Decidable (_ ∧ _))

/-- The segment that is accepted in a call. -/
def acceptedIn (rx : SegmentRx) : Call → List SegmentFrame
  | .receive frame => if Accepts rx frame.id then [frame] else []
  | .sync _ => []

/-- The data of a segment fits into a slot. -/
def Fits (slotSize : ℕ) : Call → Prop
  | .receive frame => frame.data.length ≤ slotSize
  | .sync _ => True

/-- A receiver, the arguments of all callbacks, the segments accepted in order, and the distance
that the base has moved. -/
structure State where
  rx : SegmentRx
  callbacks : List Bytes
  accepted : List SegmentFrame
  advanced : ℕ

def Initial (baseId size : U32) (slotSize : ℕ) (s : State) : Prop :=
  s = ⟨SegmentRx.new baseId size slotSize, [], [], 0⟩

inductive Step (bd : Build) (slotSize : ℕ) (s : State) (call : Call) : State → Prop
  | mk {rx : SegmentRx} {out : List Bytes} (hfits : Fits slotSize call)
      (h : perform bd s.rx call = .ok (rx, out)) :
      Step bd slotSize s call ⟨rx, s.callbacks ++ out, s.accepted ++ acceptedIn s.rx call,
        s.advanced + (rx.window.baseId - s.rx.window.baseId).toNat⟩

def system (bd : Build) (baseId size : U32) (slotSize : ℕ) : System State Call :=
  ⟨Initial baseId size slotSize, Step bd slotSize⟩

def frameAt (baseId : U32) (x : ℕ × Segment) : SegmentFrame :=
  ⟨idAt baseId x.1, x.2.nonce, x.2.data⟩

/-- The receiver is a reorder buffer, and what this has released or holds are the segments
accepted. -/
structure Inv (baseId : U32) (slotSize : ℕ) {size : ℕ} (s : State)
    (b : Reorder.Buffer Segment 2 size) : Prop where
  mirrors : s.rx.Mirrors baseId slotSize b
  callbacks : s.callbacks = SegmentRx.dataOf b.released
  accepted : ∃ log : List (ℕ × Segment), s.accepted = log.map (frameAt baseId) ∧
    log.Perm (b.released ++ b.pending)
  advanced : s.advanced = b.base

section Accepts
variable {rx : SegmentRx} {baseId : U32} {slotSize size : ℕ} {b : Reorder.Buffer Segment 2 size}

/-- The IDs in the buffer. -/
lemma taken_iff (h : rx.Mirrors baseId slotSize b) {p : ℕ} (hle : b.base ≤ p)
    (hlt : p < b.base + size) :
    ((1 ≤ rx.len ∧ rx.slot0.id = idAt baseId p) ∨ (rx.len = 2 ∧ rx.slot1.id = idAt baseId p)) ↔
      ∃ y ∈ b.pending, y.1 = p := by
  have hsize := h.tracks.size_lt
  have hid : ∀ y ∈ b.pending, (idAt baseId y.1 = idAt baseId p ↔ y.1 = p) := by
    intro y hy
    have hwindow := h.pending_window y hy
    exact idAt_inj baseId (by omega) (by omega)
  have hh := h.holds
  generalize b.pending = pending at hid hh
  rcases pending with _ | ⟨y, _ | ⟨z, _ | ⟨w, ws⟩⟩⟩
  · have hlen : rx.len = 0 := hh
    simp [hlen]
  · obtain ⟨hlen, hslot⟩ := hh
    rw [hlen, hslot.id_eq, hid y (by simp)]
    simp
  · obtain ⟨hlen, hslot0, hslot1⟩ := hh
    rw [hlen, hslot0.id_eq, hslot1.id_eq, hid y (by simp), hid z (by simp)]
    simp
  · exact hh.elim

lemma accepts_iff (h : rx.Mirrors baseId slotSize b) {p : ℕ} (hle : b.base ≤ p)
    (hlt : p < b.base + 2 ^ 32) :
    Accepts rx (idAt baseId p) ↔
      (b.base ≤ p ∧ p < b.base + size) ∧ ∀ y ∈ b.pending, y.1 ≠ p := by
  have hcontains := h.tracks.contains_iff (p := p) (by omega) hlt
  unfold Accepts
  rw [hcontains, ← not_or]
  constructor
  · rintro ⟨hwindow, hfree⟩
    rw [taken_iff h hle hwindow.2] at hfree
    exact ⟨hwindow, fun y hy he => hfree ⟨y, hy, he⟩⟩
  · rintro ⟨hwindow, hfree⟩
    rw [taken_iff h hle hwindow.2]
    exact ⟨hwindow, fun ⟨y, hy, he⟩ => hfree y hy he⟩

end Accepts

section Invariant
variable {bd : Build} {baseId : U32} {slotSize size : ℕ} {s s' : State} {call : Call}
  {b : Reorder.Buffer Segment 2 size}

lemma dataOf_append (xs ys : List (ℕ × Segment)) :
    SegmentRx.dataOf (xs ++ ys) = SegmentRx.dataOf xs ++ SegmentRx.dataOf ys := List.map_append

/-- The distance between two positions of the base. -/
lemma advance_eq {rx rx' : SegmentRx} {b' : Reorder.Buffer Segment 2 size}
    (h : rx.Mirrors baseId slotSize b) (h' : rx'.Mirrors baseId slotSize b')
    (hle : b.base ≤ b'.base) (hadvance : b'.base ≤ b.base + size) :
    b.base + (rx'.window.baseId - rx.window.baseId).toNat = b'.base := by
  have hsize := h.tracks.size_lt
  rw [h'.tracks.baseId_eq, h.tracks.baseId_eq, toNat_sub_of_le baseId hle (by omega)]
  omega

variable (bd) in
/-- What a segment leads to, at the position of its ID that is next to come. -/
lemma Inv.receive (h : Inv baseId slotSize s b) (frame : SegmentFrame)
    (hfits : frame.data.length ≤ slotSize) :
    ∃ rx rel, s.rx.receive bd frame.id frame.nonce frame.data =
        .ok (rx, SegmentRx.dataOf rel) ∧
      Inv baseId slotSize ⟨rx, s.callbacks ++ SegmentRx.dataOf rel,
        s.accepted ++ acceptedIn s.rx (.receive frame),
        s.advanced + (rx.window.baseId - s.rx.window.baseId).toNat⟩
        (b.offer (b.base + (frame.id - s.rx.window.baseId).toNat, ⟨frame.nonce, frame.data⟩)) := by
  have hlt := (frame.id - s.rx.window.baseId).isLt
  have hid : idAt baseId (b.base + (frame.id - s.rx.window.baseId).toNat) = frame.id := by
    rw [← idAt_idAt, ← h.mirrors.tracks.baseId_eq, idAt_toNat_sub]
  generalize (frame.id - s.rx.window.baseId).toNat = d at hid hlt
  generalize hx : (b.base + d, (⟨frame.nonce, frame.data⟩ : Segment)) = x
  have hpos : x.1 = b.base + d := by rw [← hx]
  have hseg : x.2 = ⟨frame.nonce, frame.data⟩ := by rw [← hx]
  have hframe : frameAt baseId x = frame := by
    unfold frameAt
    rw [hpos, hid, hseg]
  obtain ⟨rx, rel, hok, hreleased, hmirrors⟩ := h.mirrors.receive bd (x := x) (by omega)
    (by omega) (by rw [hseg]; exact hfits)
  rw [hpos, hid, hseg] at hok
  refine ⟨rx, rel, hok, hmirrors, ?_, ?_, ?_⟩
  · rw [h.callbacks, hreleased, dataOf_append]
  · obtain ⟨log, hlog, hperm⟩ := h.accepted
    have hiff := accepts_iff h.mirrors (p := x.1) (by omega) (by omega)
    rw [hpos, hid, ← hpos] at hiff
    dsimp only [acceptedIn]
    by_cases haccepts : Accepts s.rx frame.id
    · obtain ⟨hwindow, hfree⟩ := hiff.mp haccepts
      refine ⟨log ++ [x], ?_, ?_⟩
      · rw [if_pos haccepts, hlog, List.map_append, List.map_singleton, hframe]
      · exact (hperm.append_right [x]).trans (Reorder.Buffer.offer_perm hwindow hfree).symm
    · refine ⟨log, ?_, ?_⟩
      · rw [if_neg haccepts, hlog, List.append_nil]
      · rwa [Reorder.Buffer.offer_ignored (hiff.not.mp haccepts)]
  · rw [h.advanced]
    exact advance_eq h.mirrors hmirrors (b.base_le_offer x) (b.base_offer_le x)

lemma Inv.sync (h : Inv baseId slotSize s b) (nextSegmentId : U32) :
    ∃ rx out, ∃ b' : Reorder.Buffer Segment 2 size, s.rx.sync nextSegmentId = .ok (rx, out) ∧
      b.base ≤ b'.base ∧ b'.base ≤ b.base + size ∧
      Inv baseId slotSize ⟨rx, s.callbacks ++ out, s.accepted ++ acceptedIn s.rx (.sync nextSegmentId),
        s.advanced + (rx.window.baseId - s.rx.window.baseId).toNat⟩ b' := by
  by_cases hacc : s.rx.SyncAccepts nextSegmentId
  · have hlt := (nextSegmentId - s.rx.window.baseId).isLt
    have hid : idAt baseId (b.base + (nextSegmentId - s.rx.window.baseId).toNat) =
        nextSegmentId := by
      rw [← idAt_idAt, ← h.mirrors.tracks.baseId_eq, idAt_toNat_sub]
    generalize (nextSegmentId - s.rx.window.baseId).toNat = d at hid hlt
    rw [← hid] at hacc ⊢
    obtain ⟨rx, hok, hmirrors⟩ := h.mirrors.sync (q := b.base + d) (by omega) (by omega) hacc
    obtain ⟨hle, hall, -⟩ :=
      (h.mirrors.syncAccepts_iff (q := b.base + d) (by omega) (by omega)).mp hacc
    obtain ⟨hbase, hpending, hreleased⟩ :=
      Reorder.Buffer.skipTo_of_le (Nat.le_add_right b.base d) hall
    have hadvance := advance_eq h.mirrors hmirrors (by omega) (by omega)
    refine ⟨rx, _, _, hok, by omega, by omega, hmirrors, ?_, ?_, ?_⟩
    · rw [h.callbacks, hreleased, dataOf_append]
    · obtain ⟨log, hlog, hperm⟩ := h.accepted
      refine ⟨log, by rw [hlog, acceptedIn, List.append_nil], ?_⟩
      rwa [hpending, hreleased, List.append_nil]
    · rw [h.advanced]
      exact hadvance
  · refine ⟨s.rx, [], b, SegmentRx.sync_reject hacc, le_rfl, Nat.le_add_right _ _, h.mirrors,
      ?_, ?_, ?_⟩
    · rw [h.callbacks, List.append_nil]
    · obtain ⟨log, hlog, hperm⟩ := h.accepted
      exact ⟨log, (List.append_nil _).trans hlog, hperm⟩
    · rw [h.advanced, BitVec.sub_self]
      rfl

variable (bd) in
/-- A call returns, and moves the base forward by at most the size of the window. -/
lemma Inv.perform (h : Inv baseId slotSize s b) (hfits : Fits slotSize call) :
    ∃ rx out, ∃ b' : Reorder.Buffer Segment 2 size, perform bd s.rx call = .ok (rx, out) ∧
      b.base ≤ b'.base ∧ b'.base ≤ b.base + size ∧
      Inv baseId slotSize ⟨rx, s.callbacks ++ out, s.accepted ++ acceptedIn s.rx call,
        s.advanced + (rx.window.baseId - s.rx.window.baseId).toNat⟩ b' := by
  cases call with
  | receive frame =>
    obtain ⟨rx, rel, hok, h'⟩ := h.receive bd frame hfits
    exact ⟨rx, _, _, hok, b.base_le_offer _, b.base_offer_le _, h'⟩
  | sync nextSegmentId => exact h.sync nextSegmentId

lemma inv_step (h : Inv baseId slotSize s b) (hstep : Step bd slotSize s call s') :
    ∃ b' : Reorder.Buffer Segment 2 size,
      b.base ≤ b'.base ∧ b'.base ≤ b.base + size ∧ Inv baseId slotSize s' b' := by
  cases hstep with
  | mk hfits hok =>
    obtain ⟨rx, out, b', hok', hle, hadvance, h'⟩ := h.perform bd hfits
    rw [hok] at hok'
    cases hok'
    exact ⟨b', hle, hadvance, h'⟩

theorem inv_reachable {windowSize : U32} (hs : Reachable (system bd baseId windowSize slotSize) s) :
    ∃ b : Reorder.Buffer Segment 2 windowSize.toNat, Inv baseId slotSize s b := by
  have hrule := @Reachable.invariant _ _ (system bd baseId windowSize slotSize) fun s =>
    ∃ b : Reorder.Buffer Segment 2 windowSize.toNat, Inv baseId slotSize s b
  refine hrule ?_ ?_ hs
  · rintro s rfl
    exact ⟨_, SegmentRx.new_mirrors baseId slotSize windowSize, rfl, ⟨[], rfl, .refl _⟩, rfl⟩
  · rintro s call s' ⟨b, h⟩ hstep
    obtain ⟨b', -, -, h'⟩ := inv_step h hstep
    exact ⟨b', h'⟩

end Invariant

/-- The segments that the callbacks were about. Each is the first that was accepted under its ID,
and their IDs increase. -/
structure Delivered (baseId : U32) (s : State) (delivered : List SegmentFrame) : Prop where
  callbacks : s.callbacks = delivered.map (·.data)
  first : ∀ frame ∈ delivered, s.accepted.find? (fun x => x.id = frame.id) = some frame
  increasing : delivered.Pairwise fun x y => x.id - baseId < y.id - baseId

/-- The histories tell which of the last 32 segments were delivered, and with which nonces. -/
structure Reports (rx : SegmentRx) (delivered : List SegmentFrame) : Prop where
  rxBit : ∀ i < 32, rx.rxHistory.getLsbD i = true ↔
    ∃ frame ∈ delivered, frame.id = rx.nextExpectedId - 1 - BitVec.ofNat 32 i
  nonceBit : ∀ i < 32, rx.nonceHistory.getLsbD i = true ↔
    ∃ frame ∈ delivered, frame.id = rx.nextExpectedId - 1 - BitVec.ofNat 32 i ∧
      frame.nonce = true

/-- The IDs in the buffer are distinct, in order and inside the window. -/
def Buffered (rx : SegmentRx) : Prop :=
  rx.len = 0 ∨
    (rx.len = 1 ∧ 0 < rx.slot0.id - rx.window.baseId ∧
      rx.slot0.id - rx.window.baseId < rx.window.size) ∨
    (rx.len = 2 ∧ 0 < rx.slot0.id - rx.window.baseId ∧
      rx.slot0.id - rx.window.baseId < rx.slot1.id - rx.window.baseId ∧
      rx.slot1.id - rx.window.baseId < rx.window.size)

section Sample

instance (slotSize : ℕ) (call : Call) : Decidable (Fits slotSize call) :=
  match call with
  | .receive frame => inferInstanceAs (Decidable (frame.data.length ≤ slotSize))
  | .sync _ => .isTrue trivial

/-- The state after a call, if its data fits. -/
def next (bd : Build) (slotSize : ℕ) (s : State) (call : Call) : Option State :=
  if Fits slotSize call then
    (perform bd s.rx call).toOption.map fun r =>
      ⟨r.1, s.callbacks ++ r.2, s.accepted ++ acceptedIn s.rx call,
        s.advanced + (r.1.window.baseId - s.rx.window.baseId).toNat⟩
  else none

lemma next_step {bd : Build} {slotSize : ℕ} (s : State) (call : Call) (s' : State)
    (h : next bd slotSize s call = some s') : Step bd slotSize s call s' := by
  simp only [next, Option.ite_none_right_eq_some, toOption_map_eq_some] at h
  obtain ⟨hfits, r, hok, rfl⟩ := h
  exact .mk hfits hok

def interpreter (bd : Build) (baseId size : U32) (slotSize : ℕ) :
    Executable (system bd baseId size slotSize) where
  start := some ⟨SegmentRx.new baseId size slotSize, [], [], 0⟩
  next := next bd slotSize
  start_init _ h := (Option.some.inj h).symm
  next_step := next_step

/-- Two segments out of order, a duplicate, one ahead and a sync. -/
def sampleCalls : List Call :=
  [.receive ⟨0, true, [2]⟩, .receive ⟨0xFFFFFFFF, false, [1]⟩, .receive ⟨0, false, [9]⟩,
    .receive ⟨2, true, [4]⟩, .sync 3]

lemma sampleCalls_reachable : ∃ s, Reachable (system .debug 0xFFFFFFFF 64 16) s ∧
    s.callbacks = [[1], [2], [4]] ∧ s.advanced = 4 := by
  have hrun : (((interpreter .debug 0xFFFFFFFF 64 16).exec sampleCalls).map fun s =>
        decide (s.callbacks = [[1], [2], [4]] ∧ s.advanced = 4)) = some true := by
    rfl
  obtain ⟨s, hexec, hdecide⟩ := Option.map_eq_some_iff.mp hrun
  exact ⟨s, Executable.exec_reachable _ hexec, of_decide_eq_true hdecide⟩

end Sample

section Results
variable {bd : Build} {baseId : U32} {slotSize size : ℕ} {s s' : State} {call : Call}
  {b : Reorder.Buffer Segment 2 size}

lemma find_of_mem {α β : Type} [DecidableEq β] (f : α → β) {xs : List α} {x : α} (hx : x ∈ xs)
    (hinj : ∀ y ∈ xs, f y = f x → y = x) : xs.find? (fun y => f y = f x) = some x := by
  cases hfind : xs.find? (fun y => f y = f x) with
  | none =>
    have hnone := List.find?_eq_none.mp hfind x hx
    simp at hnone
  | some y =>
    have hfx : f y = f x := by simpa using List.find?_some hfind
    rw [hinj y (List.mem_of_find?_eq_some hfind) hfx]

/-- Everything accepted has a position of its own. -/
lemma contents_ordered (b : Reorder.Buffer Segment 2 size) :
    Ordered 0 (b.released ++ b.pending) :=
  b.increasing.append b.before (Nat.zero_le _) (b.ordered.weaken (Nat.le_succ _))

lemma contents_lt {x : ℕ × Segment} (hx : x ∈ b.released ++ b.pending) :
    x.1 < b.base + size ∨ x.1 < b.base := by
  rcases List.mem_append.mp hx with hx | hx
  · exact .inr (b.before x hx)
  · exact .inl (b.within x hx)

lemma frameAt_sub {x : ℕ × Segment} (hlt : x.1 < 2 ^ 32) :
    ((frameAt baseId x).id - baseId).toNat = x.1 := by
  have hsub := toNat_sub_of_le baseId (Nat.zero_le x.1) (by omega)
  rwa [idAt_zero, Nat.sub_zero] at hsub

lemma Inv.delivered (h : Inv baseId slotSize s b) (hbound : b.base + size < 2 ^ 32) :
    Delivered baseId s (b.released.map (frameAt baseId)) := by
  have hlt : ∀ x ∈ b.released ++ b.pending, x.1 < 2 ^ 32 := by
    intro x hx
    have := contents_lt hx
    omega
  refine ⟨?_, ?_, ?_⟩
  · rw [h.callbacks, SegmentRx.dataOf, List.map_map]
    rfl
  · intro frame hframe
    obtain ⟨x, hx, rfl⟩ := List.mem_map.mp hframe
    have hx' : x ∈ b.released ++ b.pending := List.mem_append_left _ hx
    obtain ⟨log, hlog, hperm⟩ := h.accepted
    rw [hlog]
    refine find_of_mem SegmentFrame.id (List.mem_map_of_mem (hperm.mem_iff.mpr hx')) ?_
    intro frame' hframe' hid
    obtain ⟨y, hy, rfl⟩ := List.mem_map.mp hframe'
    have hy' := hperm.mem_iff.mp hy
    have hxlt := hlt x hx'
    have hylt := hlt y hy'
    have hpos : y.1 = x.1 := idAt_injOn baseId (by omega) (by omega) hid
    rw [(contents_ordered b).eq_of_fst_eq hy' hx' hpos]
  · rw [List.pairwise_map]
    refine b.increasing.pairwise.imp_of_mem ?_
    intro x y hx hy hxy
    rw [BitVec.lt_def, frameAt_sub (hlt x (List.mem_append_left _ hx)),
      frameAt_sub (hlt y (List.mem_append_left _ hy))]
    exact hxy

/-- The ID that lies some way before the base. -/
lemma id_before_iff {x : ℕ × Segment} {base i : ℕ} (hx : x.1 < base) (hbase : base < 2 ^ 32)
    (hi : i < 32) :
    (frameAt baseId x).id = idAt baseId base - 1 - BitVec.ofNat 32 i ↔ x.1 + 1 + i = base := by
  have hshift : (frameAt baseId x).id = idAt baseId base - 1 - BitVec.ofNat 32 i ↔
      idAt baseId (x.1 + 1 + i) = idAt baseId base :=
    eq_before_iff baseId x.1 base i
  rw [hshift]
  exact idAt_inj baseId (by omega) (by omega)

lemma Inv.reports (h : Inv baseId slotSize s b) (hbound : b.base + size < 2 ^ 32) :
    Reports s.rx (b.released.map (frameAt baseId)) := by
  have hhistory := h.mirrors.tracks.history
  have hnext : s.rx.nextExpectedId = idAt baseId b.base := h.mirrors.tracks.baseId_eq
  constructor
  · intro i hi
    rw [hhistory.rxBit i hi, hnext]
    simp only [List.mem_map, exists_exists_and_eq_and]
    refine exists_congr fun x => and_congr_right fun hx => ?_
    exact (id_before_iff (b.before x hx) (by omega) hi).symm
  · intro i hi
    rw [hhistory.nonceBit i hi, hnext]
    simp only [List.mem_map, exists_exists_and_eq_and]
    refine exists_congr fun x => and_congr_right fun hx => ?_
    exact and_congr (id_before_iff (b.before x hx) (by omega) hi).symm Iff.rfl

lemma Inv.buffered (h : Inv baseId slotSize s b) : Buffered s.rx := by
  have hpending := h.mirrors.pending_window
  have hwithin := b.within
  have hordered := b.ordered
  have hsize := h.mirrors.tracks.size_eq
  have hh := h.mirrors.holds
  have hsub : ∀ p, b.base ≤ p → p < b.base + 2 ^ 32 →
      (idAt baseId p - s.rx.window.baseId).toNat = p - b.base :=
    fun p hle hlt => h.mirrors.tracks.sub_base hle hlt
  unfold Buffered
  simp only [BitVec.lt_def, BitVec.toNat_zero, BitVec.ofNat_eq_ofNat, hsize]
  generalize b.pending = pending at hpending hwithin hordered hh
  rcases pending with _ | ⟨y, _ | ⟨z, _ | ⟨w, ws⟩⟩⟩
  · exact .inl hh
  · obtain ⟨hlen, hslot⟩ := hh
    have hy := hpending y (by simp)
    have hys := hwithin y (by simp)
    rw [hslot.id_eq, hsub y.1 hy.1.le hy.2]
    exact .inr (.inl ⟨hlen, by omega, by omega⟩)
  · obtain ⟨hlen, hslot0, hslot1⟩ := hh
    have hy := hpending y (by simp)
    have hz := hpending z (by simp)
    have hzs := hwithin z (by simp)
    have hyz := hordered.2.1
    rw [hslot0.id_eq, hslot1.id_eq, hsub y.1 hy.1.le hy.2, hsub z.1 hz.1.le hz.2]
    exact .inr (.inr ⟨hlen, by omega, by omega, by omega⟩)
  · exact hh.elim

/-- Whatever a receiver is given, it delivers each segment at most once, as it was first accepted,
in the order of the IDs, and holds at most two that are ahead. -/
theorem delivers_in_order {windowSize : U32}
    (hs : Reachable (system bd baseId windowSize slotSize) s)
    (hbound : s.advanced < 2 ^ 32 - windowSize.toNat) :
    (∃ delivered, Delivered baseId s delivered ∧ Reports s.rx delivered) ∧ Buffered s.rx ∧
      (∀ call, Fits slotSize call → ∃ s', Step bd slotSize s call s') ∧
      ∀ call s', Step bd slotSize s call s' →
        s.rx.window.baseId - baseId ≤ s'.rx.window.baseId - baseId := by
  obtain ⟨b, h⟩ := inv_reachable hs
  rw [h.advanced] at hbound
  refine ⟨⟨_, h.delivered (by omega), h.reports (by omega)⟩, h.buffered, ?_, ?_⟩
  · intro call hfits
    obtain ⟨rx, out, b', hok, -⟩ := h.perform bd hfits
    exact ⟨_, .mk hfits hok⟩
  · intro call s' hstep
    obtain ⟨b', hle, hadvance, h'⟩ := inv_step h hstep
    have hbase := toNat_sub_of_le baseId (Nat.zero_le b.base) (by omega)
    have hbase' := toNat_sub_of_le baseId (Nat.zero_le b'.base) (by omega)
    rw [idAt_zero, Nat.sub_zero] at hbase hbase'
    rw [BitVec.le_def, h.mirrors.tracks.baseId_eq, h'.mirrors.tracks.baseId_eq, hbase, hbase']
    exact hle

theorem delivers_in_order_sample : ∃ s, Reachable (system .debug 0xFFFFFFFF 64 16) s ∧
    s.callbacks = [[1], [2], [4]] ∧ Buffered s.rx := by
  obtain ⟨s, hs, hcallbacks, hadvanced⟩ := sampleCalls_reachable
  obtain ⟨-, hbuffered, -⟩ := delivers_in_order hs (by rw [hadvanced]; decide)
  exact ⟨s, hs, hcallbacks, hbuffered⟩

/-- The nonces of the segments at the last positions. -/
lemma xorAll_last {base first n : ℕ} {released : List (ℕ × Segment)} (ho : Ordered first released)
    (hb : ∀ x ∈ released, x.1 < base) :
    xorAll ((List.range n).map fun i =>
        decide (∃ x ∈ released, x.1 + 1 + i = base ∧ x.2.nonce = true)) =
      xorAll ((released.filter fun x => base - 1 - x.1 < n).map (·.2.nonce)) := by
  induction released generalizing first with
  | nil =>
    induction n with
    | zero => rfl
    | succ n ih => simpa [List.range_succ, xorAll_append] using ih
  | cons x xs ih =>
    have hx := hb x List.mem_cons_self
    have hsplit : ∀ i, decide (∃ y ∈ x :: xs, y.1 + 1 + i = base ∧ y.2.nonce = true) =
        xor (decide (i = base - 1 - x.1) && x.2.nonce)
          (decide (∃ y ∈ xs, y.1 + 1 + i = base ∧ y.2.nonce = true)) := by
      intro i
      have hat : x.1 + 1 + i = base ↔ i = base - 1 - x.1 := by omega
      by_cases hi : i = base - 1 - x.1
      · have hnone : ¬ ∃ y ∈ xs, y.1 + 1 + i = base ∧ y.2.nonce = true := by
          rintro ⟨y, hy, he, -⟩
          have hle := ho.2.le_of_mem hy
          omega
        rw [decide_eq_false hnone, Bool.xor_false, Bool.eq_iff_iff, decide_eq_true_eq,
          Bool.and_eq_true, decide_eq_true_eq, ← hat]
        constructor
        · rintro ⟨y, hy, he, hn⟩
          rcases List.mem_cons.mp hy with rfl | hy
          · exact ⟨he, hn⟩
          · exact absurd ⟨y, hy, he, hn⟩ hnone
        · exact fun h => ⟨x, List.mem_cons_self, h⟩
      · simp [hat, hi]
    simp only [hsplit, xorAll_map_xor, xorAll_range_single,
      ih ho.2 fun y hy => hb y (List.mem_cons_of_mem _ hy)]
    by_cases hlast : base - 1 - x.1 < n
    · simp [hlast]
    · simp [hlast]

/-- The checksum of an ack. -/
lemma Inv.checksum_eq (h : Inv baseId slotSize s b) :
    s.rx.nextAckInfo.2 =
      xorAll ((b.released.filter fun x => b.base - 1 - x.1 < 5).map (·.2.nonce)) := by
  have hhistory := h.mirrors.tracks.history
  have hzero : ∀ i, 5 ≤ i → ((s.rx.rxHistory &&& 0x1F).setWidth 8 &&&
      s.rx.nonceHistory.setWidth 8).getLsbD i = false := by
    intro i hi
    rw [BitVec.getLsbD_and, SegmentChannel.getLsbD_ackMask]
    simp [show ¬ i < 5 by omega]
  change SegmentRx.computeChecksum _ _ = _
  rw [SegmentChannel.computeChecksum_eq, parity_of_high_zero (by decide : 5 ≤ 8) hzero]
  refine Eq.trans ?_ (xorAll_last b.increasing b.before)
  unfold parity
  congr 1
  refine List.map_congr_left fun i hi => ?_
  have hi5 := List.mem_range.mp hi
  rw [BitVec.getLsbD_and, SegmentChannel.getLsbD_ackMask, BitVec.getLsbD_setWidth,
    Bool.eq_iff_iff, decide_eq_true_eq]
  have hrx := hhistory.rxBit i (by omega)
  have hnonce := hhistory.nonceBit i (by omega)
  simp only [hi5, show i < 8 by omega, decide_true, Bool.true_and, Bool.and_eq_true, hrx, hnonce]
  refine and_iff_right_of_imp ?_
  rintro ⟨x, hx, he, -⟩
  exact ⟨x, hx, he⟩

/-- The last five segments by their IDs and by their positions. -/
lemma Inv.last_iff (h : Inv baseId slotSize s b) (hbound : b.base < 2 ^ 32) {x : ℕ × Segment}
    (hx : x ∈ b.released) :
    s.rx.nextExpectedId - 1 - (frameAt baseId x).id < 5 ↔ b.base - 1 - x.1 < 5 := by
  have hnext : s.rx.nextExpectedId = idAt baseId b.base := h.mirrors.tracks.baseId_eq
  have hlt := b.before x hx
  have hpred : s.rx.nextExpectedId - 1 = idAt baseId (b.base - 1) := by
    rw [hnext, sub_eq_iff_eq_add, ← Nat.sub_add_cancel (show 1 ≤ b.base by omega), idAt_succ]
    rfl
  rw [hpred, BitVec.lt_def, frameAt, toNat_sub_of_le baseId (by omega) (by omega)]
  rfl

/-- The ack tells exactly which of the last five segments were delivered, with the XOR of their
nonces. The data of each segment received is assumed to fit a slot, as `receive` expects of its
caller: a longer one that has to wait in a slot stops the program. -/
theorem ack_report_exact {windowSize : U32}
    (hs : Reachable (system bd baseId windowSize slotSize) s)
    (hbound : s.advanced < 2 ^ 32 - windowSize.toNat) :
    ∃ delivered, Delivered baseId s delivered ∧ Reports s.rx delivered ∧
      (∀ i, s.rx.nextAckInfo.1.getLsbD i = true ↔
        i < 5 ∧ ∃ frame ∈ delivered, frame.id = s.rx.nextExpectedId - 1 - BitVec.ofNat 32 i) ∧
      s.rx.nextAckInfo.2 =
        xorAll ((delivered.filter fun frame => s.rx.nextExpectedId - 1 - frame.id < 5).map
          (·.nonce)) := by
  obtain ⟨b, h⟩ := inv_reachable hs
  rw [h.advanced] at hbound
  have hreports := h.reports (by omega)
  refine ⟨_, h.delivered (by omega), hreports, ?_, ?_⟩
  · intro i
    simp only [SegmentRx.nextAckInfo, SegmentChannel.getLsbD_ackMask, Bool.and_eq_true,
      decide_eq_true_eq]
    refine and_congr_right fun hi => ?_
    exact hreports.rxBit i (by omega)
  · have hfilter : (b.released.filter ((fun frame : SegmentFrame =>
        decide (s.rx.nextExpectedId - 1 - frame.id < 5)) ∘ frameAt baseId)) =
        b.released.filter fun x => b.base - 1 - x.1 < 5 :=
      List.filter_congr fun x hx => decide_eq_decide.mpr (h.last_iff (by omega) hx)
    rw [h.checksum_eq, List.filter_map, List.map_map, hfilter]
    rfl

theorem ack_report_exact_sample : ∃ s delivered, Reachable (system .debug 0xFFFFFFFF 64 16) s ∧
    s.callbacks = [[1], [2], [4]] ∧ Delivered 0xFFFFFFFF s delivered ∧
    Reports s.rx delivered := by
  obtain ⟨s, hs, hcallbacks, hadvanced⟩ := sampleCalls_reachable
  obtain ⟨delivered, hdelivered, hreports, -⟩ :=
    ack_report_exact hs (by rw [hadvanced]; decide)
  exact ⟨s, delivered, hs, hcallbacks, hdelivered, hreports⟩

end Results

end Redpine.SegmentReception

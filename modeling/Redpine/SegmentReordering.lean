import Redpine.ReorderTolerance
import Redpine.SegmentReception

/-! Segments that are reordered a little reach the receiver's user in order: the two slots suffice
as long as no segment is overtaken by more than two others. -/
namespace Redpine.SegmentReordering
open Machine Buffer SerialId Reorder
open SegmentChannel (SegmentFrame)

/-- Segments received one after the other, and the arguments of all callbacks. -/
def receiveAll (bd : Build) (rx : SegmentRx) :
    List SegmentFrame → Exec (SegmentRx × List Bytes)
  | [] => .ok (rx, [])
  | frame :: rest => do
      let (rx, out) ← rx.receive bd frame.id frame.nonce frame.data
      let (rx, more) ← receiveAll bd rx rest
      return (rx, out ++ more)

/-- The segments are those of the first IDs, each lies inside the window when it first arrives, and
at most two others with larger IDs arrive before. -/
structure Arrivals (bd : Build) (baseId windowSize : U32) (slotSize n : ℕ)
    (frames : List SegmentFrame) : Prop where
  fits : ∀ frame ∈ frames, frame.data.length ≤ slotSize
  only : ∀ frame ∈ frames, ∃ i < n, frame.id = idAt baseId i
  complete : ∀ i < n, ∃ frame ∈ frames, frame.id = idAt baseId i
  inWindow : ∀ pre frame post, frames = pre ++ frame :: post → frame.id ∉ pre.map (·.id) →
    ∀ rx out, receiveAll bd (SegmentRx.new baseId windowSize slotSize) pre = .ok (rx, out) →
      rx.window.contains frame.id = true
  late : ∀ pre frame post, frames = pre ++ frame :: post → frame.id ∉ pre.map (·.id) →
    ((pre.map (·.id)).dedup.filter fun id => frame.id - baseId < id - baseId).length ≤ 2

/-- The callback is given the data of each segment once, in the order of the IDs and as it first
arrived, and the receiver ends with an empty buffer and acknowledges them all. -/
def DeliversAll (bd : Build) (baseId windowSize : U32) (slotSize n : ℕ)
    (frames : List SegmentFrame) : Prop :=
  ∃ rx out, receiveAll bd (SegmentRx.new baseId windowSize slotSize) frames = .ok (rx, out) ∧
    out.map some = (List.range n).map (fun i =>
      (frames.find? fun frame => frame.id = idAt baseId i).map (·.data)) ∧
    rx.nextExpectedId = idAt baseId n ∧ rx.len = 0 ∧
    ∀ i < 32, rx.rxHistory.getLsbD i = decide (i < n)

def itemOf (baseId : U32) (frame : SegmentFrame) : ℕ × Segment :=
  ((frame.id - baseId).toNat, ⟨frame.nonce, frame.data⟩)

section Items
variable {bd : Build} {baseId : U32} {slotSize size n : ℕ} {frames : List SegmentFrame}
  {frame : SegmentFrame}

lemma itemOf_id : idAt baseId (itemOf baseId frame).1 = frame.id := idAt_toNat_sub _ _

lemma itemOf_fst_iff {i : ℕ} (hi : i < 2 ^ 32) :
    (itemOf baseId frame).1 = i ↔ frame.id = idAt baseId i := by
  have hlt := (frame.id - baseId).isLt
  rw [← @itemOf_id baseId, idAt_inj baseId]
  · exact lt_of_lt_of_le hlt (Nat.le_add_left _ _)
  · omega

lemma mem_positions_iff : (itemOf baseId frame).1 ∈ positions (frames.map (itemOf baseId)) ↔
    frame.id ∈ frames.map (·.id) := by
  rw [positions, List.map_map, List.mem_map, List.mem_map]
  refine exists_congr fun y => and_congr_right fun _ => ?_
  constructor
  · intro h
    rw [← @itemOf_id baseId, ← @itemOf_id baseId frame]
    exact congrArg (idAt baseId) h
  · intro h
    simp [itemOf, h]

variable (bd) in
/-- Receiving segments offers them to the reorder buffer. -/
lemma receiveAll_mirrors {rx : SegmentRx} {b : Reorder.Buffer Segment 2 size}
    (h : rx.Mirrors baseId slotSize b) (hroom : n + size ≤ 2 ^ 32) (hbase : b.base ≤ n)
    (hpending : ∀ y ∈ b.pending, y.1 < n)
    (honly : ∀ frame ∈ frames, (itemOf baseId frame).1 < n)
    (hfits : ∀ frame ∈ frames, frame.data.length ≤ slotSize) :
    ∃ rx' rel, receiveAll bd rx frames = .ok (rx', SegmentRx.dataOf rel) ∧
      (b.offerAll (frames.map (itemOf baseId))).released = b.released ++ rel ∧
      (b.offerAll (frames.map (itemOf baseId))).base ≤ n ∧
      rx'.Mirrors baseId slotSize (b.offerAll (frames.map (itemOf baseId))) := by
  induction frames generalizing rx b with
  | nil => exact ⟨rx, [], rfl, (List.append_nil _).symm, hbase, h⟩
  | cons frame frames ih =>
    have hlt := honly frame List.mem_cons_self
    obtain ⟨rx₁, rel, hok, hreleased, h₁⟩ := h.receive bd (x := itemOf baseId frame)
      (by omega) (by omega) (hfits frame List.mem_cons_self)
    rw [itemOf_id] at hok
    have hpending₁ : ∀ y ∈ (b.offer (itemOf baseId frame)).pending, y.1 < n := by
      intro y hy
      rcases Reorder.Buffer.mem_offer_new hreleased (List.mem_append_right _ hy) with rfl | hy
      · exact hlt
      · exact hpending y hy
    obtain ⟨rx', rel', hok', hreleased', hbase', h'⟩ := ih h₁
      (Reorder.Buffer.offer_base_le hbase hlt hpending) hpending₁
      (fun f hf => honly f (List.mem_cons_of_mem _ hf))
      (fun f hf => hfits f (List.mem_cons_of_mem _ hf))
    refine ⟨rx', rel ++ rel', ?_, ?_, hbase', h'⟩
    · have hok : rx.receive bd frame.id frame.nonce frame.data = .ok (rx₁, SegmentRx.dataOf rel) :=
        hok
      unfold receiveAll
      simp only [hok, ok_bind, hok', pure_eq_ok, SegmentReception.dataOf_append]
    · rw [List.map_cons]
      exact hreleased'.trans (by rw [hreleased, List.append_assoc])

end Items

section Results
variable {bd : Build} {baseId windowSize : U32} {slotSize n : ℕ} {frames : List SegmentFrame}

lemma Arrivals.fst_lt (h : Arrivals bd baseId windowSize slotSize n frames) (hn : n ≤ 2 ^ 32) :
    ∀ frame ∈ frames, (itemOf baseId frame).1 < n := by
  intro frame hframe
  obtain ⟨i, hi, hid⟩ := h.only frame hframe
  rw [(itemOf_fst_iff (by omega)).mpr hid]
  exact hi

lemma Arrivals.mirrors (h : Arrivals bd baseId windowSize slotSize n frames)
    (hroom : n + windowSize.toNat ≤ 2 ^ 32) {pre post : List SegmentFrame}
    (hframes : frames = pre ++ post) :
    ∃ rx, receiveAll bd (SegmentRx.new baseId windowSize slotSize) pre =
        .ok (rx, SegmentRx.dataOf ((Reorder.Buffer.empty Segment 2 windowSize.toNat).offerAll
          (pre.map (itemOf baseId))).released) ∧
      ((Reorder.Buffer.empty Segment 2 windowSize.toNat).offerAll
        (pre.map (itemOf baseId))).base ≤ n ∧
      rx.Mirrors baseId slotSize ((Reorder.Buffer.empty Segment 2 windowSize.toNat).offerAll
        (pre.map (itemOf baseId))) := by
  have hmem : ∀ frame ∈ pre, frame ∈ frames := by
    intro frame hframe
    rw [hframes]
    exact List.mem_append_left _ hframe
  obtain ⟨rx, rel, hok, hreleased, hbase, hmirrors⟩ := receiveAll_mirrors bd
    (SegmentRx.new_mirrors baseId slotSize windowSize) hroom (Nat.zero_le n) (fun y hy => nomatch hy)
    (fun frame hframe => h.fst_lt (by omega) frame (hmem frame hframe))
    (fun frame hframe => h.fits frame (hmem frame hframe))
  rw [Reorder.Buffer.empty, List.nil_append] at hreleased
  rw [← hreleased] at hok
  exact ⟨rx, hok, hbase, hmirrors⟩

/-- The positions of the segments arrive as the reorder buffer tolerates it. -/
lemma Arrivals.tolerable (h : Arrivals bd baseId windowSize slotSize n frames)
    (hroom : n + windowSize.toNat ≤ 2 ^ 32) :
    Reorder.Buffer.Tolerable 2 windowSize.toNat n (frames.map (itemOf baseId)) := by
  have hsplit {pre : List (ℕ × Segment)} {x : ℕ × Segment} {post : List (ℕ × Segment)}
      (hxs : frames.map (itemOf baseId) = pre ++ x :: post) :
      ∃ pre' frame post', frames = pre' ++ frame :: post' ∧ pre'.map (itemOf baseId) = pre ∧
        itemOf baseId frame = x := by
    obtain ⟨pre', rest, rfl, hpre, hrest⟩ := List.map_eq_append_iff.mp hxs
    obtain ⟨frame, post', rfl, hframe, -⟩ := List.map_eq_cons_iff.mp hrest
    exact ⟨pre', frame, post', rfl, hpre, hframe⟩
  refine ⟨?_, ?_, ?_, ?_⟩
  · intro x hx
    obtain ⟨frame, hframe, rfl⟩ := List.mem_map.mp hx
    exact h.fst_lt (by omega) frame hframe
  · intro p hp
    obtain ⟨frame, hframe, hid⟩ := h.complete p hp
    rw [← (itemOf_fst_iff (by omega)).mpr hid]
    exact mem_positions (List.mem_map_of_mem hframe)
  · intro pre x post hxs hnew
    obtain ⟨pre', frame, post', hframes, rfl, rfl⟩ := hsplit hxs
    rw [mem_positions_iff] at hnew
    obtain ⟨rx, hok, hbase, hmirrors⟩ := h.mirrors hroom hframes
    have hcontains := h.inWindow pre' frame post' hframes hnew rx _ hok
    have hlt := (frame.id - baseId).isLt
    have hiff := hmirrors.tracks.contains_iff (p := (itemOf baseId frame).1) (by omega)
      (lt_of_lt_of_le hlt (Nat.le_add_left _ _))
    rw [itemOf_id] at hiff
    exact (hiff.mp hcontains).2
  · intro pre x post hxs hnew
    obtain ⟨pre', frame, post', hframes, rfl, rfl⟩ := hsplit hxs
    rw [mem_positions_iff] at hnew
    have hlate := h.late pre' frame post' hframes hnew
    have hinj : Function.Injective fun id : U32 => (id - baseId).toNat := by
      intro x y hxy
      have hsub : x - baseId = y - baseId := BitVec.eq_of_toNat_eq hxy
      rwa [sub_left_inj] at hsub
    have hpos : positions (pre'.map (itemOf baseId)) =
        (pre'.map (·.id)).map fun id => (id - baseId).toNat := by
      rw [positions, List.map_map, List.map_map]
      rfl
    rw [hpos, List.dedup_map_of_injective hinj, List.filter_map, List.length_map]
    exact hlate

/-- The conditions in a form that can be evaluated. -/
lemma Arrivals.of_check (hfits : ∀ frame ∈ frames, frame.data.length ≤ slotSize)
    (honly : ∀ frame ∈ frames, ∃ i < n, frame.id = idAt baseId i)
    (hcomplete : ∀ i < n, ∃ frame ∈ frames, frame.id = idAt baseId i)
    (hsplit : ∀ k : Fin frames.length, frames[k].id ∉ (frames.take k).map (·.id) →
      ((receiveAll bd (SegmentRx.new baseId windowSize slotSize) (frames.take k)).toOption.all
        fun r => r.1.window.contains frames[k].id) = true ∧
      (((frames.take k).map (·.id)).dedup.filter fun id =>
        frames[k].id - baseId < id - baseId).length ≤ 2) :
    Arrivals bd baseId windowSize slotSize n frames := by
  have hcheck : ∀ pre frame post, frames = pre ++ frame :: post → frame.id ∉ pre.map (·.id) →
      ((receiveAll bd (SegmentRx.new baseId windowSize slotSize) pre).toOption.all
        fun r => r.1.window.contains frame.id) = true ∧
      ((pre.map (·.id)).dedup.filter fun id => frame.id - baseId < id - baseId).length ≤ 2 := by
    rintro pre frame post rfl hnew
    have hk := hsplit ⟨pre.length, by simp⟩
    simp only [Fin.getElem_fin, List.getElem_append_right (le_refl pre.length), Nat.sub_self,
      List.getElem_cons_zero, List.take_left] at hk
    exact hk hnew
  refine ⟨hfits, honly, hcomplete, ?_, fun pre frame post hframes hnew =>
    (hcheck pre frame post hframes hnew).2⟩
  intro pre frame post hframes hnew rx out hok
  have hall := (hcheck pre frame post hframes hnew).1
  rw [hok] at hall
  exact hall

/-- Segments that are overtaken by at most two others are delivered in order. -/
theorem reordering_tolerated (hroom : n + windowSize.toNat ≤ 2 ^ 32)
    (h : Arrivals bd baseId windowSize slotSize n frames) :
    DeliversAll bd baseId windowSize slotSize n frames := by
  obtain ⟨rx, hok, -, hmirrors⟩ := h.mirrors hroom (List.append_nil frames).symm
  obtain ⟨hbase, hpending, hpositions, hreleased⟩ := (h.tolerable hroom).released
  generalize (Reorder.Buffer.empty Segment 2 windowSize.toNat).offerAll
    (frames.map (itemOf baseId)) = b at hok hmirrors hbase hpending hpositions hreleased
  refine ⟨rx, _, hok, ?_, ?_, ?_, ?_⟩
  · have hdata := congrArg (List.map (Option.map (·.2.data))) hreleased
    rw [List.map_map, List.map_map] at hdata
    rw [SegmentRx.dataOf, List.map_map]
    refine Eq.trans ?_ (hdata.trans ?_)
    · rfl
    · refine List.map_congr_left fun i hi => ?_
      have hlt := List.mem_range.mp hi
      have hsame : (fun frame : SegmentFrame => decide ((itemOf baseId frame).1 = i)) =
          fun frame => decide (frame.id = idAt baseId i) := by
        funext frame
        exact decide_eq_decide.mpr (itemOf_fst_iff (by omega))
      rw [Function.comp_apply, firstAt, List.find?_map, Option.map_map]
      exact congrArg (fun p => (frames.find? p).map (·.data)) hsame
  · rw [← hbase]
    exact hmirrors.tracks.baseId_eq
  · have hholds := hmirrors.holds
    rw [hpending] at hholds
    exact hholds
  · intro i hi
    have hbit := hmirrors.tracks.history.rxBit i hi
    rw [Bool.eq_iff_iff, hbit, hbase, decide_eq_true_eq]
    constructor
    · rintro ⟨x, -, he⟩
      omega
    · intro hlt
      have hmem : n - 1 - i ∈ positions b.released := by
        rw [hpositions]
        exact List.mem_range.mpr (by omega)
      obtain ⟨x, hx, he⟩ := List.mem_map.mp hmem
      exact ⟨x, hx, by omega⟩

/-- The segment expected first arrives last, after two others and a duplicate. -/
theorem reordering_tolerated_sample : DeliversAll .debug 0xFFFFFFFF 64 16 3
    [⟨0, false, [2]⟩, ⟨1, true, [3]⟩, ⟨0, true, [9]⟩, ⟨0xFFFFFFFF, false, [1]⟩] :=
  reordering_tolerated (by decide)
    (.of_check (by decide) (by decide) (by decide) (by decide))

/-- In a window of almost all IDs a duplicate of an old segment lies ahead again. -/
theorem far_duplicate_kept : ¬ ∀ (bd : Build) (baseId windowSize : U32) (slotSize n : ℕ)
    (frames : List SegmentFrame), n < 2 ^ 31 → Arrivals bd baseId windowSize slotSize n frames →
      DeliversAll bd baseId windowSize slotSize n frames := by
  intro h
  have harrivals : Arrivals .debug 0 0xFFFFFFFF 16 2
      [⟨0, false, [1]⟩, ⟨1, false, [2]⟩, ⟨0, false, [1]⟩] :=
    .of_check (by decide) (by decide) (by decide) (by decide)
  obtain ⟨rx, out, hok, -, -, hlen, -⟩ := h _ _ _ _ _ _ (by decide) harrivals
  have hrun : ((receiveAll .debug (SegmentRx.new 0 0xFFFFFFFF 16)
      [⟨0, false, [1]⟩, ⟨1, false, [2]⟩, ⟨0, false, [1]⟩]).toOption.all
        fun r => r.1.len = 1) = true := by
    rfl
  rw [hok] at hrun
  simp [Except.toOption, hlen] at hrun

end Results

end Redpine.SegmentReordering

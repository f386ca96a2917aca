import Redpine.SerialId
import Redpine.Machine

/-! Windows and fragments: `buffer/mod.rs`, and the fragmentation loop that `push` of
both send buffers repeats. -/
namespace Redpine.Buffer
open Machine SerialId

structure Window where
  baseId : U32
  size : U32
  deriving DecidableEq, Repr

def Window.contains (w : Window) (id : U32) : Bool := decide (id - w.baseId < w.size)

structure FragmentRc where
  first : Bool
  last : Bool
  data : Bytes
  dataRange : ℕ × ℕ
  deriving DecidableEq, Repr

structure FragmentRef where
  first : Bool
  last : Bool
  data : Bytes
  deriving DecidableEq, Repr

/-- `data[data_range]`. -/
def FragmentRc.bytes (rc : FragmentRc) : Exec Bytes := slice rc.data rc.dataRange.1 rc.dataRange.2

def FragmentRef.ofRc (rc : FragmentRc) : Exec FragmentRef := do
  return ⟨rc.first, rc.last, ← rc.bytes⟩

/-- The fragments `push` appends from `index` on. The fuel bounds the loop from above:
`bytesRemaining` has reached zero when it runs out. -/
def fragmentLoop (fragmentSize : ℕ) (packet : Bytes) :
    (fuel bytesRemaining index : ℕ) → (first : Bool) → List FragmentRc
  | 0, _, index, first => [⟨first, true, packet, (index, packet.length)⟩]
  | fuel + 1, bytesRemaining, index, first =>
      if fragmentSize < bytesRemaining then
        ⟨first, false, packet, (index, index + fragmentSize)⟩ ::
          fragmentLoop fragmentSize packet fuel (bytesRemaining - fragmentSize)
            (index + fragmentSize) false
      else [⟨first, true, packet, (index, packet.length)⟩]

def fragmentsOf (fragmentSize : ℕ) (packet : Bytes) : List FragmentRc :=
  fragmentLoop fragmentSize packet packet.length packet.length 0 true

/-- `RxBuffer::fragment_is_valid`, the same in both receive buffers. -/
def fragmentIsValid (fragment : FragmentRef) (fragmentSize : ℕ) : Bool :=
  if fragment.last && decide (fragmentSize < fragment.data.length) then false
  else if !fragment.last && fragment.data.length != fragmentSize then false
  else true

structure PacketBuild where
  buffer : Bytes
  deriving DecidableEq, Repr

namespace FragmentRc

/-- The range of a fragment lies within its packet. -/
def WellFormed (rc : FragmentRc) : Prop :=
  rc.dataRange.1 ≤ rc.dataRange.2 ∧ rc.dataRange.2 ≤ rc.data.length

/-- What a receiver sees of a well-formed fragment. -/
def view (rc : FragmentRc) : FragmentRef :=
  ⟨rc.first, rc.last, (rc.data.drop rc.dataRange.1).take (rc.dataRange.2 - rc.dataRange.1)⟩

theorem bytes_eq {rc : FragmentRc} (h : rc.WellFormed) : rc.bytes = .ok rc.view.data :=
  slice_of_le h.1 h.2

theorem ofRc_eq {rc : FragmentRc} (h : rc.WellFormed) : FragmentRef.ofRc rc = .ok rc.view := by
  simp [FragmentRef.ofRc, bytes_eq h, view]

theorem view_length {rc : FragmentRc} (h : rc.WellFormed) :
    rc.view.data.length = rc.dataRange.2 - rc.dataRange.1 := by
  obtain ⟨h1, h2⟩ := h
  simp only [view, List.length_take, List.length_drop]
  omega

end FragmentRc

section Fragments
variable {fragmentSize : ℕ} {packet : Bytes}

/-- What holds of every fragment of a packet. -/
structure IsFragmentOf (fragmentSize : ℕ) (packet : Bytes) (rc : FragmentRc) : Prop where
  wellFormed : rc.WellFormed
  valid : fragmentIsValid rc.view fragmentSize = true
  pos : packet ≠ [] → 0 < rc.view.data.length

theorem fragmentIsValid_iff {f : FragmentRef} :
    fragmentIsValid f fragmentSize = true ↔
      f.data.length ≤ fragmentSize ∧ (f.last = false → f.data.length = fragmentSize) := by
  unfold fragmentIsValid
  cases hl : f.last <;> simp
  omega

theorem fragmentLoop_isFragmentOf (hs : 0 < fragmentSize) :
    ∀ (fuel bytesRemaining index : ℕ) (first : Bool),
      index + bytesRemaining = packet.length → bytesRemaining ≤ fuel →
      (packet ≠ [] → 0 < bytesRemaining) →
      ∀ rc ∈ fragmentLoop fragmentSize packet fuel bytesRemaining index first,
        IsFragmentOf fragmentSize packet rc := by
  have hlast : ∀ (bytesRemaining index : ℕ) (first : Bool),
      index + bytesRemaining = packet.length → bytesRemaining ≤ fragmentSize →
      (packet ≠ [] → 0 < bytesRemaining) →
      IsFragmentOf fragmentSize packet ⟨first, true, packet, (index, packet.length)⟩ := by
    intro bytesRemaining index first hlen hle hpos
    have hw : FragmentRc.WellFormed ⟨first, true, packet, (index, packet.length)⟩ :=
      ⟨by simp only; omega, le_rfl⟩
    have hl := FragmentRc.view_length hw
    simp only at hl
    refine ⟨hw, fragmentIsValid_iff.mpr ⟨by omega, by simp [FragmentRc.view]⟩, fun hne => ?_⟩
    have := hpos hne
    omega
  intro fuel
  induction fuel with
  | zero =>
    intro bytesRemaining index first hlen hfuel hpos rc hrc
    simp only [fragmentLoop, List.mem_singleton] at hrc
    subst hrc
    exact hlast bytesRemaining index first hlen (by omega) hpos
  | succ fuel ih =>
    intro bytesRemaining index first hlen hfuel hpos rc hrc
    unfold fragmentLoop at hrc
    split_ifs at hrc with hlt
    · rcases List.mem_cons.mp hrc with rfl | hrc
      · have hw : FragmentRc.WellFormed
            ⟨first, false, packet, (index, index + fragmentSize)⟩ :=
          ⟨by simp, by simp only; omega⟩
        have hl := FragmentRc.view_length hw
        simp only [Nat.add_sub_cancel_left] at hl
        exact ⟨hw, fragmentIsValid_iff.mpr ⟨by omega, fun _ => hl⟩, fun _ => by omega⟩
      · exact ih _ _ _ (by omega) (by omega) (fun _ => by omega) rc hrc
    · simp only [List.mem_singleton] at hrc
      subst hrc
      exact hlast bytesRemaining index first hlen (by omega) hpos

theorem fragmentsOf_isFragmentOf (hs : 0 < fragmentSize) {rc : FragmentRc}
    (h : rc ∈ fragmentsOf fragmentSize packet) : IsFragmentOf fragmentSize packet rc :=
  fragmentLoop_isFragmentOf hs _ _ _ _ (by simp) le_rfl
    (fun hne => List.length_pos_iff.mpr hne) rc h

end Fragments

section Assembly
variable {fragmentSize : ℕ} {packet : Bytes}

/-- The packet in progress and the packets completed, after one more fragment. -/
def assemble (st : Option PacketBuild × List Bytes) (f : FragmentRef) :
    Option PacketBuild × List Bytes :=
  let buffer := (st.1.getD ⟨[]⟩).buffer ++ f.data
  if f.last then (none, st.2 ++ [buffer]) else (some ⟨buffer⟩, st.2)

def assembleAll (st : Option PacketBuild × List Bytes) (fragments : List FragmentRc) :
    Option PacketBuild × List Bytes :=
  fragments.foldl (fun st rc => assemble st rc.view) st

@[simp] theorem assembleAll_nil (st : Option PacketBuild × List Bytes) :
    assembleAll st [] = st := rfl

theorem assembleAll_append (st : Option PacketBuild × List Bytes) (xs ys : List FragmentRc) :
    assembleAll st (xs ++ ys) = assembleAll (assembleAll st xs) ys :=
  List.foldl_append

theorem assemble_isPrefix (st : Option PacketBuild × List Bytes) (f : FragmentRef) :
    st.2 <+: (assemble st f).2 := by
  unfold assemble
  cases f.last
  · exact List.prefix_rfl
  · exact List.prefix_append _ _

/-- Completed packets stay completed. -/
theorem assembleAll_isPrefix (st : Option PacketBuild × List Bytes) (fragments : List FragmentRc) :
    st.2 <+: (assembleAll st fragments).2 := by
  induction fragments generalizing st with
  | nil => exact List.prefix_rfl
  | cons rc fragments ih => exact (assemble_isPrefix st rc.view).trans (ih _)

theorem assembleAll_fragmentLoop (hs : 0 < fragmentSize) :
    ∀ (fuel bytesRemaining index : ℕ) (first : Bool) (st : Option PacketBuild × List Bytes),
      index + bytesRemaining = packet.length → bytesRemaining ≤ fuel →
      assembleAll st (fragmentLoop fragmentSize packet fuel bytesRemaining index first) =
        (none, st.2 ++ [(st.1.getD ⟨[]⟩).buffer ++ packet.drop index]) := by
  have hlast : ∀ (index : ℕ) (first : Bool) (st : Option PacketBuild × List Bytes),
      assembleAll st [⟨first, true, packet, (index, packet.length)⟩] =
        (none, st.2 ++ [(st.1.getD ⟨[]⟩).buffer ++ packet.drop index]) := by
    intro index first st
    simp [assembleAll, assemble, FragmentRc.view, List.take_of_length_le]
  intro fuel
  induction fuel with
  | zero =>
    intro bytesRemaining index first st _ _
    exact hlast index first st
  | succ fuel ih =>
    intro bytesRemaining index first st hlen hfuel
    unfold fragmentLoop
    split_ifs with hlt
    · have hstep : assemble st (FragmentRc.view ⟨first, false, packet,
          (index, index + fragmentSize)⟩) =
          (some ⟨(st.1.getD ⟨[]⟩).buffer ++ (packet.drop index).take fragmentSize⟩, st.2) := by
        simp [assemble, FragmentRc.view]
      change assembleAll (assemble st _) _ = _
      rw [hstep, ih _ _ _ _ (by omega) (by omega)]
      simp [← List.drop_drop, List.append_assoc]
    · exact hlast index first st

/-- Assembling the fragments of whole packets yields these packets. -/
theorem assembleAll_fragmentsOf (hs : 0 < fragmentSize) (packets : List Bytes) (out : List Bytes) :
    assembleAll (none, out) (packets.flatMap (fragmentsOf fragmentSize)) =
      (none, out ++ packets) := by
  induction packets generalizing out with
  | nil => simp
  | cons packet packets ih =>
    rw [List.flatMap_cons, assembleAll_append, fragmentsOf,
      assembleAll_fragmentLoop hs _ _ _ _ _ (by simp) le_rfl]
    simp [ih]

/-- What has been completed after a prefix of the fragments is a prefix of the packets. -/
theorem assembleAll_take_isPrefix (hs : 0 < fragmentSize) (packets : List Bytes) (n : ℕ) :
    (assembleAll (none, []) ((packets.flatMap (fragmentsOf fragmentSize)).take n)).2 <+:
      packets := by
  have h := assembleAll_fragmentsOf hs packets []
  rw [← List.take_append_drop n (packets.flatMap (fragmentsOf fragmentSize)),
    assembleAll_append] at h
  have hp := assembleAll_isPrefix
    (assembleAll (none, []) ((packets.flatMap (fragmentsOf fragmentSize)).take n))
    ((packets.flatMap (fragmentsOf fragmentSize)).drop n)
  rw [h] at hp
  simpa using hp

end Assembly

end Redpine.Buffer

import Redpine.UnreliableOrder
import Redpine.Transition

/-! The unreliable channel: a send buffer and a receive buffer joined by a network that may
lose fragments, but neither duplicates nor reorders them. The receiver may give up the
packet it is building at any time. -/
namespace Redpine.UnreliableChannel
open Machine Buffer SerialId Transition Unreliable

/-- The fragments at positions from `taken` on can still arrive. -/
structure State where
  tx : TxBuffer
  rx : RxBuffer
  pushed : List Push
  popped : List (U32 × FragmentRc)
  taken : ℕ
  received : List Bytes

inductive Action
  | push (packet : Bytes) (expireTimeMs : ℕ)
  | popExpired (nowMs : ℕ)
  | popSendable
  | receive (position : ℕ)
  | reset

inductive Step : State → Action → State → Prop
  | push (s : State) (packet : Bytes) (expireTimeMs : ℕ) :
      Step s (.push packet expireTimeMs)
        { s with
          tx := s.tx.push packet expireTimeMs
          pushed := s.pushed ++ [(packet, expireTimeMs)] }
  | popExpired (s : State) (nowMs : ℕ) :
      Step s (.popExpired nowMs) { s with tx := s.tx.popExpired nowMs }
  | popSendable {s : State} {item : U32 × FragmentRc} {tx : TxBuffer}
      (h : s.tx.popSendable = (some item, tx)) :
      Step s .popSendable { s with tx := tx, popped := s.popped ++ [item] }
  | receive {s : State} {position : ℕ} {id : U32} {rc : FragmentRc} {f : FragmentRef}
      (htaken : s.taken ≤ position) (hget : s.popped[position]? = some (id, rc))
      (hf : FragmentRef.ofRc rc = .ok f) :
      Step s (.receive position)
        { s with
          rx := (s.rx.receive id f).1
          taken := position + 1
          received := s.received ++ (s.rx.receive id f).2.toList }
  | reset (s : State) : Step s .reset { s with rx := s.rx.reset }

def Initial (txBaseId rxBaseId : U32) (fragmentSize : ℕ) (s : State) : Prop :=
  ∃ tx rx, TxBuffer.new txBaseId fragmentSize = .ok tx ∧
    RxBuffer.new rxBaseId fragmentSize = .ok rx ∧ s = ⟨tx, rx, [], [], 0, []⟩

def system (txBaseId rxBaseId : U32) (fragmentSize : ℕ) : System State Action :=
  ⟨Initial txBaseId rxBaseId fragmentSize, Step⟩

/-- The joint invariant: both buffers agree on where the fragments sent come from. -/
structure Inv (baseId : U32) (fragmentSize : ℕ) (s : State) (sent queue : List Origin)
    (done : List ℕ) : Prop where
  txSize : s.tx.fragmentSize = fragmentSize
  rxSize : s.rx.fragmentSize = fragmentSize
  tx : s.tx.Tracks baseId s.pushed sent queue
  rx : s.rx.Tracks baseId s.pushed sent s.taken s.received done
  length_eq : s.popped.length = sent.length
  popped : ∀ n id rc, s.popped[n]? = some (id, rc) → id = idAt baseId n ∧
    ∃ o, sent[n]? = some o ∧ IsFragment fragmentSize s.pushed o rc

section Invariant
variable {baseId txBaseId rxBaseId : U32} {fragmentSize : ℕ} {s s' : State} {a : Action}
  {sent queue : List Origin} {done : List ℕ}

lemma inv_initial (h : Initial txBaseId rxBaseId fragmentSize s) :
    Inv txBaseId fragmentSize s [] [] [] := by
  obtain ⟨tx, rx, htx, hrx, rfl⟩ := h
  obtain ⟨htracks, htxSize⟩ := TxBuffer.new_tracks htx
  obtain ⟨hrxTracks, hrxSize⟩ := RxBuffer.new_tracks hrx
  exact ⟨htxSize, hrxSize, htracks, hrxTracks, rfl, by simp⟩

lemma Inv.push (h : Inv baseId fragmentSize s sent queue done) (packet : Bytes)
    (expireTimeMs : ℕ) :
    ∃ queue', Inv baseId fragmentSize
      { s with
        tx := s.tx.push packet expireTimeMs
        pushed := s.pushed ++ [(packet, expireTimeMs)] } sent queue' done := by
  have hrx := h.rx.mono [(packet, expireTimeMs)] [] le_rfl
  rw [List.append_nil] at hrx
  refine ⟨_, h.txSize, h.rxSize, h.tx.push packet expireTimeMs, hrx, h.length_eq, ?_⟩
  intro n id rc hget
  obtain ⟨hid, o, ho, hrc⟩ := h.popped n id rc hget
  exact ⟨hid, o, ho, hrc.append _⟩

lemma Inv.popExpired (h : Inv baseId fragmentSize s sent queue done) (nowMs : ℕ) :
    ∃ queue', Inv baseId fragmentSize { s with tx := s.tx.popExpired nowMs } sent queue' done := by
  obtain ⟨n, htx, -⟩ := h.tx.popExpired nowMs
  exact ⟨queue.drop n, h.txSize, h.rxSize, htx, h.rx, h.length_eq, h.popped⟩

lemma Inv.popSendable (h : Inv baseId fragmentSize s sent queue done)
    {item : U32 × FragmentRc} {tx : TxBuffer} (hpop : s.tx.popSendable = (some item, tx)) :
    ∃ sent' queue', Inv baseId fragmentSize
      { s with tx := tx, popped := s.popped ++ [item] } sent' queue' done := by
  obtain ⟨id, rc⟩ := item
  obtain ⟨o, queue', rfl, hid, hrc, htx, hsize⟩ := h.tx.popSendable hpop
  have hrx := h.rx.mono [] [o] le_rfl
  rw [List.append_nil] at hrx
  rw [h.txSize] at hrc
  refine ⟨sent ++ [o], queue', hsize.trans h.txSize, h.rxSize, htx, hrx, ?_, ?_⟩
  · rw [List.length_append, List.length_append, h.length_eq]
    rfl
  · intro n id' rc' hget
    rcases Nat.lt_or_ge n s.popped.length with hlt | hge
    · rw [List.getElem?_append_left hlt] at hget
      obtain ⟨hid', o', ho', hrc'⟩ := h.popped n id' rc' hget
      exact ⟨hid', o', getElem?_append_some ho', hrc'⟩
    · rw [List.getElem?_append_right hge, List.getElem?_singleton] at hget
      by_cases hn : n - s.popped.length = 0
      · rw [if_pos hn] at hget
        cases hget
        have hn' : n = sent.length := by have hlen := h.length_eq; omega
        subst hn'
        refine ⟨hid, o, ?_, hrc⟩
        simp
      · rw [if_neg hn] at hget
        cases hget

lemma Inv.receive (h : Inv baseId fragmentSize s sent queue done)
    (hbound : s.popped.length < 2 ^ 32) {position : ℕ} {id : U32} {rc : FragmentRc}
    {f : FragmentRef} (htaken : s.taken ≤ position)
    (hget : s.popped[position]? = some (id, rc)) (hf : FragmentRef.ofRc rc = .ok f) :
    ∃ done', Inv baseId fragmentSize
      { s with
        rx := (s.rx.receive id f).1
        taken := position + 1
        received := s.received ++ (s.rx.receive id f).2.toList } sent queue done' := by
  obtain ⟨rfl, o, ho, hrc⟩ := h.popped position id rc hget
  have hlen := h.length_eq
  have hview : f = rc.view := by
    have hpos := s.tx.fragmentSize_pos
    rw [h.txSize] at hpos
    obtain ⟨packet, hfrag⟩ := hrc.isFragmentOf hpos
    rw [FragmentRc.ofRc_eq hfrag.wellFormed] at hf
    cases hf
    rfl
  subst hview
  rw [← h.rxSize] at hrc
  obtain ⟨done', hrx⟩ := h.rx.receive (List.isChain_append.mp h.tx.chain).1 (by omega) htaken ho hrc
  refine ⟨done', h.txSize, ?_, h.tx, hrx, h.length_eq, h.popped⟩
  rw [RxBuffer.receive_fragmentSize]
  exact h.rxSize

lemma inv_step (h : Inv baseId fragmentSize s sent queue done) (hbound : s'.popped.length < 2 ^ 32)
    (hstep : Step s a s') : ∃ sent' queue' done', Inv baseId fragmentSize s' sent' queue' done' := by
  cases hstep with
  | push packet expireTimeMs =>
    obtain ⟨queue', h'⟩ := h.push packet expireTimeMs
    exact ⟨sent, queue', done, h'⟩
  | popExpired nowMs =>
    obtain ⟨queue', h'⟩ := h.popExpired nowMs
    exact ⟨sent, queue', done, h'⟩
  | popSendable hpop =>
    obtain ⟨sent', queue', h'⟩ := h.popSendable hpop
    exact ⟨sent', queue', done, h'⟩
  | receive htaken hget hf =>
    obtain ⟨done', h'⟩ := h.receive hbound htaken hget hf
    exact ⟨sent, queue, done', h'⟩
  | reset =>
    exact ⟨sent, queue, done, h.txSize, h.rxSize, h.tx, h.rx.reset, h.length_eq, h.popped⟩

lemma popped_length_le (hstep : Step s a s') : s.popped.length ≤ s'.popped.length := by
  cases hstep <;> simp

lemma inv_reachable (hs : Reachable (system txBaseId rxBaseId fragmentSize) s)
    (hbound : s.popped.length < 2 ^ 32) :
    ∃ sent queue done, Inv txBaseId fragmentSize s sent queue done := by
  refine Reachable.invariant_within (fun s => s.popped.length < 2 ^ 32)
    (fun s => ∃ sent queue done, Inv txBaseId fragmentSize s sent queue done)
    (fun s h => ⟨[], [], [], inv_initial h⟩)
    (fun s a s' h hb => (popped_length_le h).trans_lt hb) ?_ hs hbound
  intro s a s' ⟨sent, queue, done, h⟩ hb hstep
  exact inv_step h hb hstep

end Invariant

/-- The packets received are a subsequence of the packets pushed. -/
theorem received_sublist {txBaseId rxBaseId : U32} {fragmentSize : ℕ} {s : State}
    (hs : Reachable (system txBaseId rxBaseId fragmentSize) s)
    (hbound : s.popped.length < 2 ^ 32) : s.received.Sublist (s.pushed.map Prod.fst) := by
  obtain ⟨sent, queue, done, h⟩ := inv_reachable hs hbound
  exact h.rx.packets.sublist h.rx.sorted

/-- The second half of the first packet expires, and the next packet takes the ID that the
receiver expects for it. -/
theorem received_sublist_expired :
    ∃ s, Reachable (system 7 9 2) s ∧ s.received = [[4]] ∧
      s.received.Sublist (s.pushed.map Prod.fst) := by
  let s0 : State := ⟨⟨[], 7, 2, by decide⟩, ⟨2, 9, none, by decide⟩, [], [], 0, []⟩
  let s1 : State := { s0 with tx := s0.tx.push [1, 2, 3] 10, pushed := [([1, 2, 3], 10)] }
  let s2 : State :=
    { s1 with tx := s1.tx.push [4] 20, pushed := [([1, 2, 3], 10), ([4], 20)] }
  let rc : FragmentRc := ⟨true, false, [1, 2, 3], (0, 2)⟩
  let s3 : State := { s2 with tx := s2.tx.popSendable.2, popped := [(7, rc)] }
  let s4 : State := { s3 with tx := s3.tx.popExpired 10 }
  let rc' : FragmentRc := ⟨true, true, [4], (0, 1)⟩
  let s5 : State := { s4 with tx := s4.tx.popSendable.2, popped := [(7, rc), (8, rc')] }
  let s6 : State := { s5 with rx := (s5.rx.receive 7 ⟨true, false, [1, 2]⟩).1, taken := 1 }
  let s7 : State :=
    { s6 with rx := (s6.rx.receive 8 ⟨true, true, [4]⟩).1, taken := 2, received := [[4]] }
  have h0 : Initial 7 9 2 s0 := ⟨_, _, rfl, rfl, rfl⟩
  have h1 : Step s0 (.push [1, 2, 3] 10) s1 := .push s0 _ _
  have h2 : Step s1 (.push [4] 20) s2 := .push s1 _ _
  have h3 : Step s2 .popSendable s3 := .popSendable (show s2.tx.popSendable = (some (7, rc), _) from rfl)
  have h4 : Step s3 (.popExpired 10) s4 := .popExpired s3 _
  have h5 : Step s4 .popSendable s5 := .popSendable (show s4.tx.popSendable = (some (8, rc'), _) from rfl)
  have h6 : Step s5 (.receive 0) s6 :=
    .receive (f := ⟨true, false, [1, 2]⟩) (Nat.le_refl 0) rfl rfl
  have h7 : Step s6 (.receive 1) s7 := .receive (f := ⟨true, true, [4]⟩) (Nat.le_refl 1) rfl rfl
  have hs : Reachable (system 7 9 2) s7 :=
    (((((((Reachable.init (M := system 7 9 2) h0).step h1).step h2).step h3).step h4).step
      h5).step h6).step h7
  exact ⟨s7, hs, rfl, received_sublist hs (by decide)⟩

end Redpine.UnreliableChannel

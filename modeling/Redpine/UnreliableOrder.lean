import Redpine.Unreliable

/-! Where the fragments of the unreliable buffers come from. A fragment has an origin: the
number of its packet among all packets pushed, and its index in that packet. Fragments that
expire leave gaps in the origins sent, but never within a packet that goes on. -/
namespace Redpine.Unreliable
open Machine Buffer SerialId

/-- The number of a packet and the index of a fragment of it. -/
abbrev Origin := ℕ × ℕ

section Fragments
variable {fragmentSize : ℕ} {packet : Bytes}

/-- The flags of a fragment tell where in its packet it lies. -/
lemma fragmentLoop_flags (fuel bytesRemaining index : ℕ) (isFirst : Bool) :
    (∀ rc, (fragmentLoop fragmentSize packet fuel bytesRemaining index isFirst)[0]? = some rc →
      rc.first = isFirst) ∧
    ∀ j rc, (fragmentLoop fragmentSize packet fuel bytesRemaining index isFirst)[j]? = some rc →
      (0 < j → rc.first = false) ∧ (rc.last = true ↔
        j + 1 = (fragmentLoop fragmentSize packet fuel bytesRemaining index isFirst).length) := by
  induction fuel generalizing bytesRemaining index isFirst with
  | zero =>
    simp only [fragmentLoop]
    refine ⟨fun rc h => ?_, fun j rc h => ?_⟩
    · cases h
      rfl
    · cases j with
      | zero =>
        cases h
        simp
      | succ j => simp at h
  | succ fuel ih =>
    obtain ⟨hzero, hsucc⟩ := ih (bytesRemaining - fragmentSize) (index + fragmentSize) false
    unfold fragmentLoop
    by_cases hlt : fragmentSize < bytesRemaining
    · rw [if_pos hlt]
      refine ⟨fun rc h => ?_, fun j rc h => ?_⟩
      · cases h
        rfl
      · cases j with
        | zero =>
          cases h
          have hne : (fragmentLoop fragmentSize packet fuel (bytesRemaining - fragmentSize)
              (index + fragmentSize) false).length ≠ 0 := by
            cases fuel with
            | zero => simp [fragmentLoop]
            | succ fuel =>
              unfold fragmentLoop
              split_ifs <;> simp
          simp only [List.length_cons]
          simp [hne]
        | succ j =>
          rw [List.getElem?_cons_succ] at h
          obtain ⟨hfirst, hlast⟩ := hsucc j rc h
          refine ⟨fun _ => ?_, by rw [hlast, List.length_cons]; omega⟩
          cases j with
          | zero => exact hzero rc h
          | succ j => exact hfirst (Nat.succ_pos j)
    · rw [if_neg hlt]
      refine ⟨fun rc h => ?_, fun j rc h => ?_⟩
      · cases h
        rfl
      · cases j with
        | zero =>
          cases h
          simp
        | succ j => simp at h

lemma fragmentsOf_first {j : ℕ} {rc : FragmentRc}
    (h : (fragmentsOf fragmentSize packet)[j]? = some rc) : rc.first = true ↔ j = 0 := by
  have hflags := @fragmentLoop_flags fragmentSize packet packet.length packet.length 0 true
  cases j with
  | zero => simp [hflags.1 rc h]
  | succ j => simp [(hflags.2 (j + 1) rc h).1 (Nat.succ_pos j)]

lemma fragmentsOf_last {j : ℕ} {rc : FragmentRc}
    (h : (fragmentsOf fragmentSize packet)[j]? = some rc) :
    rc.last = true ↔ j + 1 = (fragmentsOf fragmentSize packet).length :=
  ((fragmentLoop_flags packet.length packet.length 0 true).2 j rc h).2

/-- The bytes of all fragments of a packet are the packet. -/
lemma fragmentLoop_bytes (fuel bytesRemaining index : ℕ) (isFirst : Bool)
    (hlen : index + bytesRemaining = packet.length) :
    (fragmentLoop fragmentSize packet fuel bytesRemaining index isFirst).flatMap (·.view.data) =
      packet.drop index := by
  induction fuel generalizing bytesRemaining index isFirst with
  | zero => simp [fragmentLoop, FragmentRc.view, List.take_of_length_le]
  | succ fuel ih =>
    unfold fragmentLoop
    by_cases hlt : fragmentSize < bytesRemaining
    · rw [if_pos hlt, List.flatMap_cons, ih _ _ _ (by omega)]
      simp [FragmentRc.view, ← List.drop_drop]
    · rw [if_neg hlt]
      simp [FragmentRc.view, List.take_of_length_le]

lemma fragmentsOf_bytes :
    (fragmentsOf fragmentSize packet).flatMap (·.view.data) = packet := by
  have h := @fragmentLoop_bytes fragmentSize packet packet.length packet.length 0 true
    (Nat.zero_add _)
  rwa [List.drop_zero] at h

end Fragments

/-- The next origin: the next fragment of the same packet, or the first one of a later packet. -/
def Follows (o o' : Origin) : Prop := (o'.1 = o.1 ∧ o'.2 = o.2 + 1) ∨ (o.1 < o'.1 ∧ o'.2 = 0)

/-- The order of origins. -/
def Before (o o' : Origin) : Prop := o.1 < o'.1 ∨ (o.1 = o'.1 ∧ o.2 < o'.2)

lemma Follows.before {o o' : Origin} (h : Follows o o') : Before o o' := by
  rcases h with ⟨hp, hj⟩ | ⟨hp, -⟩
  · exact .inr ⟨hp.symm, by omega⟩
  · exact .inl hp

lemma Before.trans {o o' o'' : Origin} (h : Before o o') (h' : Before o' o'') : Before o o'' := by
  unfold Before at *
  omega

/-- A packet and the time at which its fragments expire. -/
abbrev Push := Bytes × ℕ

/-- The fragment of an origin. -/
def IsFragment (fragmentSize : ℕ) (pushed : List Push) (o : Origin) (rc : FragmentRc) : Prop :=
  ∃ push, pushed[o.1]? = some push ∧ (fragmentsOf fragmentSize push.1)[o.2]? = some rc

lemma IsFragment.isFragmentOf {fragmentSize : ℕ} {pushed : List Push} {o : Origin}
    {rc : FragmentRc} (h : IsFragment fragmentSize pushed o rc) (hpos : 0 < fragmentSize) :
    ∃ packet, IsFragmentOf fragmentSize packet rc := by
  obtain ⟨push, -, hget⟩ := h
  exact ⟨push.1, fragmentsOf_isFragmentOf hpos (List.mem_of_getElem? hget)⟩

def IsEntry (fragmentSize : ℕ) (pushed : List Push) (o : Origin) (entry : TxEntry) : Prop :=
  ∃ push, pushed[o.1]? = some push ∧
    (fragmentsOf fragmentSize push.1)[o.2]? = some entry.fragment ∧ entry.expireTimeMs = push.2

lemma IsEntry.isFragment {fragmentSize : ℕ} {pushed : List Push} {o : Origin} {entry : TxEntry}
    (h : IsEntry fragmentSize pushed o entry) : IsFragment fragmentSize pushed o entry.fragment := by
  obtain ⟨push, hpush, hget, -⟩ := h
  exact ⟨push, hpush, hget⟩

lemma IsFragment.append {fragmentSize : ℕ} {pushed : List Push} {o : Origin} {rc : FragmentRc}
    (h : IsFragment fragmentSize pushed o rc) (more : List Push) :
    IsFragment fragmentSize (pushed ++ more) o rc := by
  obtain ⟨push, hpush, hget⟩ := h
  refine ⟨push, ?_, hget⟩
  rw [List.getElem?_append_left (List.getElem?_eq_some_iff.mp hpush).1]
  exact hpush

section Sender
variable {baseId : U32} {pushed : List Push} {sent queue : List Origin} {b b' : TxBuffer}

/-- The origins of the fragments sent so far and of those still in the queue. -/
structure TxBuffer.Tracks (b : TxBuffer) (baseId : U32) (pushed : List Push)
    (sent queue : List Origin) : Prop where
  nextId_eq : b.nextFragmentId = idAt baseId sent.length
  chain : (sent ++ queue).IsChain Follows
  bound : ∀ o ∈ sent ++ queue, o.1 < pushed.length
  entries : List.Forall₂ (IsEntry b.fragmentSize pushed) queue b.fragments

instance : Trans Before Before Before := ⟨Before.trans⟩

/-- Later positions have later origins. -/
lemma before_of_isChain {origins : List Origin} (h : origins.IsChain Follows) :
    origins.Pairwise Before :=
  List.isChain_iff_pairwise.mp (h.imp fun _ _ => Follows.before)

/-- A first fragment continues whatever came earlier. -/
lemma Before.follows {o o' : Origin} (h : Before o o') (hfirst : o'.2 = 0) : Follows o o' := by
  unfold Before at h
  unfold Follows
  omega

lemma TxBuffer.new_tracks {fragmentSize : ℕ} (h : TxBuffer.new baseId fragmentSize = .ok b) :
    b.Tracks baseId [] [] [] ∧ b.fragmentSize = fragmentSize := by
  unfold TxBuffer.new at h
  split_ifs at h
  cases h
  exact ⟨⟨by simp, .nil, by simp, .nil⟩, rfl⟩

/-- The origins of the fragments of one packet. -/
def originsOf (packet n : ℕ) : List Origin := (List.range n).map fun j => (packet, j)

lemma originsOf_isChain (packet n : ℕ) : (originsOf packet n).IsChain Follows := by
  rw [List.isChain_iff_getElem]
  intro i hi
  simp [originsOf, Follows]

lemma IsEntry.append {fragmentSize : ℕ} {o : Origin} {entry : TxEntry}
    (h : IsEntry fragmentSize pushed o entry) (more : List Push) :
    IsEntry fragmentSize (pushed ++ more) o entry := by
  obtain ⟨push, hpush, hget, hexpire⟩ := h
  refine ⟨push, ?_, hget, hexpire⟩
  rw [List.getElem?_append_left (List.getElem?_eq_some_iff.mp hpush).1]
  exact hpush

lemma TxBuffer.Tracks.push (h : b.Tracks baseId pushed sent queue) (packet : Bytes)
    (expireTimeMs : ℕ) :
    (b.push packet expireTimeMs).Tracks baseId (pushed ++ [(packet, expireTimeMs)]) sent
      (queue ++ originsOf pushed.length (fragmentsOf b.fragmentSize packet).length) := by
  refine ⟨h.nextId_eq, ?_, ?_, ?_⟩
  · rw [← List.append_assoc, List.isChain_append]
    refine ⟨h.chain, originsOf_isChain _ _, fun o ho o' ho' => ?_⟩
    have hlt := h.bound o (List.mem_of_getLast? ho)
    have hhead : o' = (pushed.length, 0) := by
      unfold originsOf at ho'
      cases hn : (fragmentsOf b.fragmentSize packet).length with
      | zero =>
        rw [hn] at ho'
        cases ho'
      | succ n =>
        rw [hn, List.range_succ_eq_map] at ho'
        cases ho'
        rfl
    rw [hhead]
    exact .inr ⟨hlt, rfl⟩
  · intro o ho
    rw [List.length_append, List.length_singleton]
    rw [← List.append_assoc] at ho
    rcases List.mem_append.mp ho with ho | ho
    · exact Nat.lt_succ_of_lt (h.bound o ho)
    · obtain ⟨j, -, rfl⟩ := List.mem_map.mp ho
      exact Nat.lt_succ_self _
  · refine List.rel_append (h.entries.imp fun _ _ he => he.append _) ?_
    rw [List.forall₂_iff_get]
    refine ⟨by simp [originsOf], fun j hj hj' => ?_⟩
    refine ⟨(packet, expireTimeMs), ?_, ?_, ?_⟩
    · simp [originsOf]
    · simp only [originsOf, List.get_eq_getElem, List.getElem_map, List.getElem_range]
      exact List.getElem?_eq_getElem _
    · simp

/-- An expired fragment and one of the same packet that is not cannot be neighbours. -/
lemma Follows.first_of_expires {fragmentSize nowMs : ℕ} {o o' : Origin} {entry entry' : TxEntry}
    (h : Follows o o') (he : IsEntry fragmentSize pushed o entry)
    (he' : IsEntry fragmentSize pushed o' entry') (hexpired : entry.expireTimeMs ≤ nowMs)
    (hlive : ¬ entry'.expireTimeMs ≤ nowMs) : o'.2 = 0 := by
  rcases h with ⟨hsame, -⟩ | ⟨-, hfirst⟩
  · obtain ⟨push, hpush, -, htime⟩ := he
    obtain ⟨push', hpush', -, htime'⟩ := he'
    rw [hsame, hpush] at hpush'
    cases hpush'
    omega
  · exact hfirst

/-- What expires is a number of fragments at the front, up to the end of a packet. -/
lemma dropWhile_expired {fragmentSize : ℕ} (nowMs : ℕ) {entries : List TxEntry}
    (h : List.Forall₂ (IsEntry fragmentSize pushed) queue entries) (hchain : queue.IsChain Follows) :
    ∃ n, List.Forall₂ (IsEntry fragmentSize pushed) (queue.drop n)
        (entries.dropWhile fun entry => decide (entry.expireTimeMs ≤ nowMs)) ∧
      (∀ o ∈ (queue.drop n).head?, n = 0 ∨ o.2 = 0) ∧
      (∀ o ∈ queue.take n, ∃ push, pushed[o.1]? = some push ∧ push.2 ≤ nowMs) ∧
      (n = 0 → ∀ entry ∈ entries.head?, ¬ entry.expireTimeMs ≤ nowMs) := by
  induction h with
  | nil => exact ⟨0, .nil, by simp, by simp, by simp⟩
  | @cons o entry queue entries he hrest ih =>
    by_cases hexpired : entry.expireTimeMs ≤ nowMs
    · obtain ⟨n, hentries, hhead, hpassed, hzero⟩ := ih hchain.of_cons
      refine ⟨n + 1, ?_, fun o' ho' => .inr ?_, fun o' ho' => ?_, by simp⟩
      · rw [List.dropWhile_cons_of_pos (by simpa using hexpired)]
        exact hentries
      · rcases hhead o' ho' with hn | hfirst
        · rw [hn] at ho'
          cases hrest with
          | nil => cases ho'
          | cons he' _ =>
            cases ho'
            exact Follows.first_of_expires hchain.rel he he' hexpired (hzero hn _ rfl)
        · exact hfirst
      · rcases List.mem_cons.mp ho' with rfl | ho'
        · obtain ⟨push, hpush, -, htime⟩ := he
          exact ⟨push, hpush, htime ▸ hexpired⟩
        · exact hpassed o' ho'
    · refine ⟨0, ?_, fun _ _ => .inl rfl, by simp, fun _ entry hentry => ?_⟩
      · rw [List.dropWhile_cons_of_neg (by simpa using hexpired)]
        exact .cons he hrest
      · cases hentry
        exact hexpired

lemma isChain_append_drop {n : ℕ} (h : (sent ++ queue).IsChain Follows)
    (hhead : ∀ o ∈ (queue.drop n).head?, n = 0 ∨ o.2 = 0) :
    (sent ++ queue.drop n).IsChain Follows := by
  have hbefore := List.pairwise_append.mp (before_of_isChain h)
  obtain ⟨hsent, hqueue, hlink⟩ := List.isChain_append.mp h
  refine List.isChain_append.mpr ⟨hsent, hqueue.drop n, fun o ho o' ho' => ?_⟩
  rcases hhead o' ho' with hn | hfirst
  · rw [hn] at ho'
    exact hlink o ho o' ho'
  · have hmem := List.mem_of_mem_drop (List.mem_of_mem_head? ho')
    exact (hbefore.2.2 o (List.mem_of_getLast? ho) o' hmem).follows hfirst

lemma TxBuffer.Tracks.popExpired (h : b.Tracks baseId pushed sent queue) (nowMs : ℕ) :
    ∃ n, (b.popExpired nowMs).Tracks baseId pushed sent (queue.drop n) ∧
      (∀ o ∈ (queue.drop n).head?, n = 0 ∨ o.2 = 0) ∧
      ∀ o ∈ queue.take n, ∃ push, pushed[o.1]? = some push ∧ push.2 ≤ nowMs := by
  obtain ⟨n, hentries, hhead, hpassed, -⟩ :=
    dropWhile_expired nowMs h.entries (List.isChain_append.mp h.chain).2.1
  refine ⟨n, ⟨h.nextId_eq, isChain_append_drop h.chain hhead, fun o ho => h.bound o ?_, hentries⟩,
    hhead, hpassed⟩
  rcases List.mem_append.mp ho with ho | ho
  · exact List.mem_append_left _ ho
  · exact List.mem_append_right _ (List.mem_of_mem_drop ho)

lemma TxBuffer.Tracks.popSendable (h : b.Tracks baseId pushed sent queue) {id : U32}
    {rc : FragmentRc} (hpop : b.popSendable = (some (id, rc), b')) :
    ∃ o queue', queue = o :: queue' ∧ id = idAt baseId sent.length ∧
      IsFragment b.fragmentSize pushed o rc ∧
      b'.Tracks baseId pushed (sent ++ [o]) queue' ∧ b'.fragmentSize = b.fragmentSize := by
  have hentries := h.entries
  unfold TxBuffer.popSendable at hpop
  cases hfragments : b.fragments with
  | nil =>
    rw [hfragments] at hpop
    cases hpop
  | cons entry rest =>
    rw [hfragments] at hpop hentries
    cases hentries with
    | @cons o _ queue' _ hentry hrest =>
      cases hpop
      refine ⟨o, queue', rfl, h.nextId_eq, hentry.isFragment, ⟨?_, ?_, ?_, hrest⟩, rfl⟩
      · rw [List.length_append, List.length_singleton, idAt_succ, ← h.nextId_eq]
        rfl
      · rw [List.append_assoc]
        exact h.chain
      · rw [List.append_assoc]
        exact h.bound

end Sender

section Receiver
variable {baseId : U32} {pushed : List Push} {sent : List Origin} {taken : ℕ}
  {received : List Bytes} {done : List ℕ} {b : RxBuffer}

/-- The packets with the given numbers. -/
def ArePackets (pushed : List Push) (done : List ℕ) (received : List Bytes) : Prop :=
  List.Forall₂ (fun q bytes => (pushed.map Prod.fst)[q]? = some bytes) done received

/-- The receiver has looked at fragments before the position `taken` only. Every packet it
has delivered ended before it, and so did the last fragment of the packet being built. -/
structure RxBuffer.Tracks (b : RxBuffer) (baseId : U32) (pushed : List Push) (sent : List Origin)
    (taken : ℕ) (received : List Bytes) (done : List ℕ) : Prop where
  packets : ArePackets pushed done received
  sorted : done.Pairwise (· < ·)
  ended : ∀ q ∈ done, ∃ n < taken, ∃ j push, sent[n]? = some (q, j) ∧ pushed[q]? = some push ∧
    j + 1 = (fragmentsOf b.fragmentSize push.1).length
  build : ∀ build, b.currentBuild = some build → ∃ n < taken, ∃ p j push,
    sent[n]? = some (p, j) ∧ pushed[p]? = some push ∧ b.baseId = idAt baseId (n + 1) ∧
      j + 1 < (fragmentsOf b.fragmentSize push.1).length ∧
      build.buffer = ((fragmentsOf b.fragmentSize push.1).take (j + 1)).flatMap (·.view.data)

lemma sublist_of_positions {α : Type} {xs out : List α} {k : ℕ}
    (h : List.Forall₂ (fun q x => xs[q]? = some x) done out) (hsorted : done.Pairwise (· < ·))
    (hk : ∀ q ∈ done, k ≤ q) : out.Sublist (xs.drop k) := by
  induction h generalizing k with
  | nil => exact List.nil_sublist _
  | @cons q x done out hget _ ih =>
    obtain ⟨hlater, hsorted⟩ := List.pairwise_cons.mp hsorted
    have hrest := ih hsorted (k := q + 1) hlater
    obtain ⟨hlt, rfl⟩ := List.getElem?_eq_some_iff.mp hget
    have hcons : (xs[q] :: out).Sublist (xs.drop q) := by
      rw [List.drop_eq_getElem_cons hlt]
      exact hrest.cons_cons _
    exact hcons.trans (List.drop_sublist_drop_left _ (hk q (List.mem_cons_self ..)))

lemma ArePackets.sublist (h : ArePackets pushed done received) (hsorted : done.Pairwise (· < ·)) :
    received.Sublist (pushed.map Prod.fst) := by
  have hsub := sublist_of_positions h hsorted (fun q _ => Nat.zero_le q)
  rwa [List.drop_zero] at hsub

lemma RxBuffer.new_tracks {rxBaseId : U32} {fragmentSize : ℕ}
    (h : RxBuffer.new rxBaseId fragmentSize = .ok b) :
    b.Tracks baseId [] [] 0 [] [] ∧ b.fragmentSize = fragmentSize := by
  unfold RxBuffer.new at h
  split_ifs at h
  cases h
  exact ⟨⟨.nil, .nil, by simp, by simp⟩, rfl⟩

lemma RxBuffer.Tracks.reset (h : b.Tracks baseId pushed sent taken received done) :
    b.reset.Tracks baseId pushed sent taken received done :=
  ⟨h.packets, h.sorted, h.ended, fun _ hbuild => by cases hbuild⟩

lemma getElem?_append_some {α : Type} {xs more : List α} {n : ℕ} {x : α} (h : xs[n]? = some x) :
    (xs ++ more)[n]? = some x := by
  rw [List.getElem?_append_left (List.getElem?_eq_some_iff.mp h).1]
  exact h

/-- More packets pushed, more fragments sent and more fragments passed over. -/
lemma RxBuffer.Tracks.mono (h : b.Tracks baseId pushed sent taken received done)
    (morePushed : List Push) (moreSent : List Origin) {taken' : ℕ} (htaken : taken ≤ taken') :
    b.Tracks baseId (pushed ++ morePushed) (sent ++ moreSent) taken' received done := by
  refine ⟨h.packets.imp fun q bytes hget => ?_, h.sorted, fun q hq => ?_, fun build hbuild => ?_⟩
  · rw [List.map_append]
    exact getElem?_append_some hget
  · obtain ⟨n, hn, j, push, hsent, hpush, hj⟩ := h.ended q hq
    exact ⟨n, by omega, j, push, getElem?_append_some hsent, getElem?_append_some hpush, hj⟩
  · obtain ⟨n, hn, p, j, push, hsent, hpush, hrest⟩ := h.build build hbuild
    exact ⟨n, by omega, p, j, push, getElem?_append_some hsent, getElem?_append_some hpush, hrest⟩

section Receive
variable {n p j : ℕ} {push : Push} {rc : FragmentRc} {buffer : Bytes}

/-- The last fragment of a packet comes after everything delivered so far. -/
lemma RxBuffer.Tracks.lt_of_last (h : b.Tracks baseId pushed sent taken received done)
    (hchain : sent.IsChain Follows) (htaken : taken ≤ n) (hsent : sent[n]? = some (p, j))
    (hpush : pushed[p]? = some push)
    (hlast : j + 1 = (fragmentsOf b.fragmentSize push.1).length) : ∀ q ∈ done, q < p := by
  intro q hq
  obtain ⟨m, hm, i, push', hsent', hpush', hi⟩ := h.ended q hq
  obtain ⟨hmlt, hmget⟩ := List.getElem?_eq_some_iff.mp hsent'
  obtain ⟨hnlt, hnget⟩ := List.getElem?_eq_some_iff.mp hsent
  have hbefore := List.pairwise_iff_getElem.mp (before_of_isChain hchain) m n hmlt hnlt (by omega)
  rw [hmget, hnget] at hbefore
  rcases hbefore with hlt | ⟨heq, hlt⟩
  · exact hlt
  · dsimp only at heq hlt
    rw [heq, hpush] at hpush'
    cases hpush'
    omega

lemma RxBuffer.Tracks.deliver (h : b.Tracks baseId pushed sent taken received done)
    (hchain : sent.IsChain Follows) (htaken : taken ≤ n) (hsent : sent[n]? = some (p, j))
    (hpush : pushed[p]? = some push)
    (hlast : j + 1 = (fragmentsOf b.fragmentSize push.1).length) (id : U32) :
    RxBuffer.Tracks { b with currentBuild := none, baseId := id } baseId pushed sent (n + 1)
      (received ++ [push.1]) (done ++ [p]) := by
  refine ⟨List.rel_append h.packets (.cons ?_ .nil), ?_, fun q hq => ?_, by simp⟩
  · rw [List.getElem?_map, hpush]
    rfl
  · refine List.pairwise_append.mpr ⟨h.sorted, List.pairwise_singleton _ _, fun q hq p' hp => ?_⟩
    rw [List.mem_singleton.mp hp]
    exact h.lt_of_last hchain htaken hsent hpush hlast q hq
  · rcases List.mem_append.mp hq with hq | hq
    · obtain ⟨m, hm, hrest⟩ := h.ended q hq
      exact ⟨m, by omega, hrest⟩
    · rw [List.mem_singleton.mp hq]
      exact ⟨n, Nat.lt_succ_self n, j, push, hsent, hpush, hlast⟩

lemma RxBuffer.Tracks.extend (h : b.Tracks baseId pushed sent taken received done)
    (htaken : taken ≤ n) (hsent : sent[n]? = some (p, j)) (hpush : pushed[p]? = some push)
    (hmore : j + 1 < (fragmentsOf b.fragmentSize push.1).length)
    (hbuffer : buffer =
      ((fragmentsOf b.fragmentSize push.1).take (j + 1)).flatMap (·.view.data)) :
    RxBuffer.Tracks { b with currentBuild := some ⟨buffer⟩, baseId := idAt baseId n + 1 }
      baseId pushed sent (n + 1) received done := by
  refine ⟨h.packets, h.sorted, fun q hq => ?_, fun build hbuild => ?_⟩
  · obtain ⟨m, hm, hrest⟩ := h.ended q hq
    exact ⟨m, by omega, hrest⟩
  · cases hbuild
    exact ⟨n, Nat.lt_succ_self n, p, j, push, hsent, hpush, (idAt_succ _ _).symm, hmore, hbuffer⟩

lemma take_succ_bytes {fragments : List FragmentRc} (h : fragments[j]? = some rc) :
    (fragments.take (j + 1)).flatMap (·.view.data) =
      (fragments.take j).flatMap (·.view.data) ++ rc.view.data := by
  rw [List.take_add_one, h, List.flatMap_append]
  simp

/-- The fragment a packet under construction waits for is the one sent next, and it belongs
to the same packet unless it is the first of another. -/
lemma RxBuffer.Tracks.expected (h : b.Tracks baseId pushed sent taken received done)
    (hchain : sent.IsChain Follows) (hlen : sent.length ≤ 2 ^ 32) (htaken : taken ≤ n)
    (hsent : sent[n]? = some (p, j)) (hpush : pushed[p]? = some push) (hfirst : j ≠ 0)
    (hid : idAt baseId n = b.baseId) {build : PacketBuild} (hbuild : b.currentBuild = some build) :
    build.buffer = ((fragmentsOf b.fragmentSize push.1).take j).flatMap (·.view.data) := by
  obtain ⟨m, hm, q, i, push', hsent', hpush', hbase, -, hbuffer⟩ := h.build build hbuild
  obtain ⟨hmlt, hmget⟩ := List.getElem?_eq_some_iff.mp hsent'
  obtain ⟨hnlt, hnget⟩ := List.getElem?_eq_some_iff.mp hsent
  rw [hbase] at hid
  have hn : n = m + 1 := idAt_injOn baseId (by omega) (by omega) hid
  subst hn
  have hfollows := List.isChain_iff_getElem.mp hchain m hnlt
  rw [hmget, hnget] at hfollows
  rcases hfollows with ⟨hp, hj⟩ | ⟨-, hzero⟩
  · dsimp only at hp hj
    rw [← hp, hpush] at hpush'
    cases hpush'
    rw [hbuffer, hj]
  · exact absurd hzero hfirst

lemma RxBuffer.receive_fragmentSize (b : RxBuffer) (id : U32) (f : FragmentRef) :
    (b.receive id f).1.fragmentSize = b.fragmentSize := by
  unfold RxBuffer.receive
  split_ifs <;> first | rfl | (split <;> rfl)

/-- The receiver step. -/
lemma RxBuffer.Tracks.receive (h : b.Tracks baseId pushed sent taken received done)
    (hchain : sent.IsChain Follows) (hlen : sent.length ≤ 2 ^ 32) (htaken : taken ≤ n)
    {o : Origin} (hsent : sent[n]? = some o) (hrc : IsFragment b.fragmentSize pushed o rc) :
    ∃ done', (b.receive (idAt baseId n) rc.view).1.Tracks baseId pushed sent (n + 1)
      (received ++ (b.receive (idAt baseId n) rc.view).2.toList) done' := by
  obtain ⟨p, j⟩ := o
  obtain ⟨push, hpush, hget⟩ := hrc
  dsimp only at hpush hget
  have hfirst := fragmentsOf_first hget
  have hlast := fragmentsOf_last hget
  have hbytes := take_succ_bytes hget
  have hvalid := (fragmentsOf_isFragmentOf b.fragmentSize_pos (List.mem_of_getElem? hget)).valid
  have hall : j + 1 = (fragmentsOf b.fragmentSize push.1).length →
      push.1 = ((fragmentsOf b.fragmentSize push.1).take j).flatMap (·.view.data) ++ rc.view.data := by
    intro hj
    rw [← hbytes, hj, List.take_length, fragmentsOf_bytes]
  have hlt := (List.getElem?_eq_some_iff.mp hget).1
  have hskip := h.mono [] [] (show taken ≤ n + 1 by omega)
  rw [List.append_nil, List.append_nil] at hskip
  have hf : rc.view.first = rc.first := rfl
  have hl : rc.view.last = rc.last := rfl
  unfold RxBuffer.receive
  rw [if_pos hvalid, hf, hl]
  by_cases hj : rc.first = true
  · rw [if_pos hj]
    have hzero := hfirst.mp hj
    by_cases hend : rc.last = true
    · rw [if_pos hend]
      have hpacket := hall (hlast.mp hend)
      rw [hzero] at hpacket
      refine ⟨done ++ [p], ?_⟩
      have hdone := h.deliver hchain htaken hsent hpush (hlast.mp hend) (idAt baseId n + 1)
      rw [hpacket] at hdone
      exact hdone
    · rw [if_neg hend]
      refine ⟨done, ?_⟩
      have hmore : j + 1 < (fragmentsOf b.fragmentSize push.1).length := by
        have hne := mt hlast.mpr hend
        omega
      rw [Option.toList_none, List.append_nil]
      refine h.extend htaken hsent hpush hmore ?_
      rw [hbytes, hzero]
      simp
  · rw [if_neg hj]
    by_cases hid : idAt baseId n = b.baseId
    · rw [if_pos hid]
      cases hbuild : b.currentBuild with
      | none =>
        refine ⟨done, ?_⟩
        rw [Option.toList_none, List.append_nil]
        exact hskip
      | some build =>
        have hbuffer := h.expected hchain hlen htaken hsent hpush (mt hfirst.mpr hj) hid hbuild
        dsimp only
        rw [hbuffer]
        by_cases hend : rc.last = true
        · rw [if_pos hend]
          refine ⟨done ++ [p], ?_⟩
          rw [← hall (hlast.mp hend)]
          exact h.deliver hchain htaken hsent hpush (hlast.mp hend) (idAt baseId n + 1)
        · rw [if_neg hend]
          refine ⟨done, ?_⟩
          have hmore : j + 1 < (fragmentsOf b.fragmentSize push.1).length := by
            have hne := mt hlast.mpr hend
            omega
          rw [Option.toList_none, List.append_nil]
          exact h.extend htaken hsent hpush hmore hbytes.symm
    · rw [if_neg hid]
      refine ⟨done, ?_⟩
      rw [Option.toList_none, List.append_nil]
      exact hskip

end Receive

end Receiver

end Redpine.Unreliable

import Redpine.FragmentTransfer
import Redpine.Transition
import Redpine.UnreliableOrder

/-! The two queues over whole runs in which time does not go back: what is sent of the unreliable
packets, and what of them is discarded. -/
namespace Redpine.FragmentExpiry
open Machine Buffer Wire SerialId Transition Unreliable FragmentTxBuffers

structure State where
  buffers : FragmentTxBuffers
  nowMs : ℕ
  /-- The unreliable packets, and when they expire. -/
  pushed : List Push
  /-- The datagrams written, and when. -/
  written : List (ℕ × Datagram)

inductive Action
  | enqueue (packetBytes : Bytes) (mode : SendMode) (nowMs : ℕ)
  | acknowledge (relFragmentId : Option U32)
  | handleTimeout
  | dataReady (nowMs : ℕ)
  | flush (bufferLen : ℕ) (frameType : FrameType) (payload : Bytes) (nowMs : ℕ)

/-- The time at which a packet expires is a 64-bit sum. -/
def pushOf (packetBytes : Bytes) (mode : SendMode) (nowMs : ℕ) : List Push :=
  match mode with
  | .reliable => []
  | .unreliable timeoutMs => [(packetBytes, (nowMs + timeoutMs.toNat + 1) % 2 ^ 64)]

inductive Step (bd : Build) (s : State) : Action → State → Prop
  | enqueue {packetBytes : Bytes} {mode : SendMode} {nowMs : ℕ} {buffers : FragmentTxBuffers}
      (hnow : s.nowMs ≤ nowMs) (h : s.buffers.enqueue bd packetBytes mode nowMs = .ok buffers) :
      Step bd s (.enqueue packetBytes mode nowMs)
        { s with
          buffers := buffers
          nowMs := nowMs
          pushed := s.pushed ++ pushOf packetBytes mode nowMs }
  | acknowledge {relFragmentId : Option U32} {buffers : FragmentTxBuffers}
      (h : s.buffers.acknowledge bd relFragmentId = .ok buffers) :
      Step bd s (.acknowledge relFragmentId) { s with buffers := buffers }
  | handleTimeout : Step bd s .handleTimeout { s with buffers := s.buffers.handleTimeout }
  | dataReady {nowMs : ℕ} (hnow : s.nowMs ≤ nowMs) :
      Step bd s (.dataReady nowMs)
        { s with buffers := (s.buffers.dataReady nowMs).1, nowMs := nowMs }
  | flush {n : ℕ} {frameType : FrameType} {p : Bytes} {nowMs total : ℕ}
      {buffers : FragmentTxBuffers} {w : FrameWriter} {datagrams : List Datagram}
      (hnow : s.nowMs ≤ nowMs) (hroom : p.length + 5 ≤ n) (hn : n < 2 ^ 64)
      (h : s.buffers.flush bd ⟨n, typeBits frameType :: p⟩ nowMs = .ok (buffers, w, total))
      (hwritten : WrittenBehind bd ⟨n, typeBits frameType :: p⟩ w datagrams) :
      Step bd s (.flush n frameType p nowMs)
        { s with
          buffers := buffers
          nowMs := nowMs
          written := s.written ++ datagrams.map fun d => (nowMs, d) }

def Initial (bd : Build) (baseId windowSize : U32) (fragmentSize : ℕ) (s : State) : Prop :=
  ∃ weights burstSize config buffers, Prio.Config.new bd weights burstSize = .ok config ∧
    FragmentTxBuffers.new baseId windowSize fragmentSize config = .ok buffers ∧
    s = ⟨buffers, 0, [], []⟩

def system (bd : Build) (baseId windowSize : U32) (fragmentSize : ℕ) : System State Action :=
  ⟨Initial bd baseId windowSize fragmentSize, Step bd⟩

/-- The unreliable datagrams among those written. -/
def unrelOf (written : List (ℕ × Datagram)) : List (ℕ × Datagram) :=
  written.filter fun x => x.2.unrel

/-- A fragment of a packet was written before it expired. -/
def IsSent (fragmentSize : ℕ) (pushed : List Push) (o : Origin) (x : ℕ × Datagram) : Prop :=
  ∃ push rc, pushed[o.1]? = some push ∧ (fragmentsOf fragmentSize push.1)[o.2]? = some rc ∧
    x.1 < push.2 ∧ x.2 = toDatagram true x.2.id rc

/-- The unreliable queue at some time: where the fragments written and those still queued come
from. -/
structure Inv (baseId : U32) (fragmentSize : ℕ) (b : FragmentTxBuffers) (nowMs : ℕ)
    (pushed : List Push) (written : List (ℕ × Datagram)) (origins queue : List Origin) : Prop where
  size_eq : b.unrel.fragmentSize = fragmentSize
  tracks : b.unrel.Tracks baseId pushed origins queue
  head : ∀ o ∈ (origins ++ queue).head?, o.2 = 0
  sent : List.Forall₂ (IsSent fragmentSize pushed) origins (unrelOf written)
  ids : (unrelOf written).map (fun x => x.2.id) =
    (List.range origins.length).map (idAt baseId)
  kept : ∀ p push j, pushed[p]? = some push → j < (fragmentsOf fragmentSize push.1).length →
    (p, j) ∈ origins ∨ (p, j) ∈ queue ∨ push.2 ≤ nowMs

section Operations
variable {baseId : U32} {fragmentSize nowMs nowMs' : ℕ} {b b' : FragmentTxBuffers}
  {pushed : List Push} {written : List (ℕ × Datagram)} {origins queue : List Origin}

lemma unrelOf_append (written more : List (ℕ × Datagram)) :
    unrelOf (written ++ more) = unrelOf written ++ unrelOf more :=
  List.filter_append ..

lemma IsSent.append {o : Origin} {x : ℕ × Datagram} (h : IsSent fragmentSize pushed o x)
    (more : List Push) : IsSent fragmentSize (pushed ++ more) o x := by
  obtain ⟨push, rc, hpush, hrest⟩ := h
  exact ⟨push, rc, getElem?_append_some hpush, hrest⟩

/-- The unreliable queue is all that the invariant is about. -/
lemma Inv.of_unrel (h : Inv baseId fragmentSize b nowMs pushed written origins queue)
    (hsame : b'.unrel = b.unrel) :
    Inv baseId fragmentSize b' nowMs pushed written origins queue := by
  refine ⟨?_, ?_, h.head, h.sent, h.ids, h.kept⟩
  · rw [hsame]
    exact h.size_eq
  · rw [hsame]
    exact h.tracks

lemma Inv.later (h : Inv baseId fragmentSize b nowMs pushed written origins queue)
    (hle : nowMs ≤ nowMs') : Inv baseId fragmentSize b nowMs' pushed written origins queue := by
  refine ⟨h.size_eq, h.tracks, h.head, h.sent, h.ids, fun p push j hpush hj => ?_⟩
  rcases h.kept p push j hpush hj with hsent | hqueued | hexpired
  · exact .inl hsent
  · exact .inr (.inl hqueued)
  · exact .inr (.inr (hexpired.trans hle))

lemma Inv.push (h : Inv baseId fragmentSize b nowMs pushed written origins queue)
    (packet : Bytes) (expireTimeMs : ℕ) :
    ∃ queue', Inv baseId fragmentSize { b with unrel := b.unrel.push packet expireTimeMs } nowMs
      (pushed ++ [(packet, expireTimeMs)]) written origins queue' := by
  have htracks := h.tracks.push packet expireTimeMs
  rw [h.size_eq] at htracks
  refine ⟨_, h.size_eq, htracks, ?_, h.sent.imp fun _ _ hx => hx.append _, h.ids, ?_⟩
  · intro o ho
    rw [← List.append_assoc, List.head?_append] at ho
    cases hhead : (origins ++ queue).head? with
    | some o' =>
      rw [hhead] at ho
      cases ho
      exact h.head _ hhead
    | none =>
      rw [hhead, Option.none_or] at ho
      unfold originsOf at ho
      cases hn : (fragmentsOf fragmentSize packet).length with
      | zero =>
        rw [hn] at ho
        cases ho
      | succ n =>
        rw [hn, List.range_succ_eq_map] at ho
        cases ho
        rfl
  · intro p push j hpush hj
    rcases Nat.lt_or_ge p pushed.length with hlt | hge
    · rw [List.getElem?_append_left hlt] at hpush
      rcases h.kept p push j hpush hj with hsent | hqueued | hexpired
      · exact .inl hsent
      · exact .inr (.inl (List.mem_append_left _ hqueued))
      · exact .inr (.inr hexpired)
    · rw [List.getElem?_append_right hge] at hpush
      obtain ⟨hp, rfl⟩ := List.getElem?_eq_some_iff.mp hpush
      rw [List.length_singleton] at hp
      have hp' : p = pushed.length := by omega
      subst hp'
      simp only [Nat.sub_self, List.getElem_cons_zero] at hj ⊢
      refine .inr (.inl (List.mem_append_right _ ?_))
      exact List.mem_map.mpr ⟨j, List.mem_range.mpr hj, rfl⟩

/-- What is discarded has expired. -/
lemma Inv.popExpired (h : Inv baseId fragmentSize b nowMs pushed written origins queue) :
    ∃ queue', Inv baseId fragmentSize (b.popExpired nowMs) nowMs pushed written origins queue' := by
  obtain ⟨n, htracks, hhead, hpassed⟩ := h.tracks.popExpired nowMs
  refine ⟨_, h.size_eq, htracks, ?_, h.sent, h.ids, fun p push j hpush hj => ?_⟩
  · intro o ho
    cases horigins : origins with
    | cons o' origins' =>
      rw [horigins] at ho
      have hhead := h.head
      rw [horigins] at hhead
      exact hhead o ho
    | nil =>
      rw [horigins, List.nil_append] at ho
      rcases hhead o ho with hn | hfirst
      · have hhead := h.head
        rw [horigins, List.nil_append] at hhead
        rw [hn] at ho
        exact hhead o ho
      · exact hfirst
  · rcases h.kept p push j hpush hj with hsent | hqueued | hexpired
    · exact .inl hsent
    · rw [← List.take_append_drop n queue] at hqueued
      rcases List.mem_append.mp hqueued with htaken | hleft
      · obtain ⟨push', hpush', hle⟩ := hpassed _ htaken
        rw [hpush] at hpush'
        cases hpush'
        exact .inr (.inr hle)
      · exact .inr (.inl hleft)
    · exact .inr (.inr hexpired)

/-- The front of the unreliable queue is written before it expires. -/
lemma Inv.popUnrel (h : Inv baseId fragmentSize b nowMs pushed written origins queue)
    {entry : TxEntry} {rest : List TxEntry} (hfront : b.unrel.fragments = entry :: rest)
    (hlive : nowMs < entry.expireTimeMs)
    (hsame : b'.unrel = { b.unrel with
      fragments := rest, nextFragmentId := b.unrel.nextFragmentId + 1 }) :
    ∃ origins' queue', Inv baseId fragmentSize b' nowMs pushed
      (written ++ [(nowMs, toDatagram true b.unrel.nextFragmentId entry.fragment)])
      origins' queue' := by
  have hpop : b.unrel.popSendable =
      (some (b.unrel.nextFragmentId, entry.fragment), b'.unrel) := by
    unfold TxBuffer.popSendable
    rw [hfront, hsame]
  have hentries := h.tracks.entries
  rw [hfront] at hentries
  obtain ⟨o, queue', rfl, hid, -, htracks, hsize⟩ := h.tracks.popSendable hpop
  obtain ⟨push, hpush, hget, htime⟩ := (List.forall₂_cons.mp hentries).1
  rw [h.size_eq] at hget
  refine ⟨origins ++ [o], queue', hsize.trans h.size_eq, htracks, ?_, ?_, ?_, ?_⟩
  · rw [List.append_assoc]
    exact h.head
  · rw [unrelOf_append]
    refine List.rel_append h.sent (.cons ?_ .nil)
    exact ⟨push, entry.fragment, hpush, hget, htime ▸ hlive, rfl⟩
  · rw [unrelOf_append, List.map_append, h.ids, List.length_append, List.length_singleton,
      List.range_succ, List.map_append, List.map_singleton, ← hid]
    rfl
  · intro p push j hpush hj
    rcases h.kept p push j hpush hj with hsent | hqueued | hexpired
    · exact .inl (List.mem_append_left _ hsent)
    · rcases List.mem_cons.mp hqueued with rfl | hqueued
      · exact .inl (List.mem_append_right _ (List.mem_singleton_self _))
      · exact .inr (.inl hqueued)
    · exact .inr (.inr hexpired)

lemma Inv.pops (h : Inv baseId fragmentSize b nowMs pushed written origins queue)
    {datagram : Datagram} (hp : Pops nowMs b datagram b') :
    ∃ origins' queue', Inv baseId fragmentSize b' nowMs pushed (written ++ [(nowMs, datagram)])
      origins' queue' := by
  obtain ⟨queue₁, h₁⟩ := h.popExpired
  cases hp with
  | unrel hfront hprio => exact h₁.popUnrel hfront (front_live hfront) rfl
  | rel hpop hprio =>
    refine ⟨origins, queue₁, h₁.size_eq, h₁.tracks, h₁.head, ?_, ?_, h₁.kept⟩
    · rw [unrelOf_append]
      simpa [unrelOf, toDatagram] using h₁.sent
    · rw [unrelOf_append]
      simpa [unrelOf, toDatagram] using h₁.ids

lemma Inv.sends (h : Inv baseId fragmentSize b nowMs pushed written origins queue)
    {datagrams : List Datagram} (hs : Sends nowMs b datagrams b') :
    ∃ origins' queue', Inv baseId fragmentSize b' nowMs pushed
      (written ++ datagrams.map fun d => (nowMs, d)) origins' queue' := by
  induction hs generalizing written origins queue with
  | done b =>
    obtain ⟨queue', h'⟩ := h.popExpired
    exact ⟨origins, queue', by simpa using h'⟩
  | step hpops _ ih =>
    obtain ⟨origins₁, queue₁, h₁⟩ := h.pops hpops
    obtain ⟨origins', queue', h'⟩ := ih h₁
    exact ⟨origins', queue', by simpa using h'⟩

end Operations

/-- Both queues of a state. -/
def Holds (baseId : U32) (fragmentSize : ℕ) (s : State) : Prop :=
  (∃ all discarded cursor sent,
    s.buffers.Sound False fragmentSize baseId all discarded cursor sent) ∧
  ∃ origins queue,
    Inv baseId fragmentSize s.buffers s.nowMs s.pushed s.written origins queue

section Run
variable {bd : Build} {baseId windowSize : U32} {fragmentSize : ℕ} {s s' : State} {action : Action}

lemma holds_initial (h : Initial bd baseId windowSize fragmentSize s) :
    Holds baseId fragmentSize s := by
  obtain ⟨weights, burstSize, config, buffers, hconfig, hnew, rfl⟩ := h
  obtain ⟨hsound, -⟩ := new_sound False (Prio.Config.new_valid hconfig) hnew
  refine ⟨⟨_, _, _, _, hsound⟩, [], [], hsound.unrelSize, ?_, by simp, .nil, rfl, by simp⟩
  unfold FragmentTxBuffers.new at hnew
  obtain ⟨unrel, hunrel, hnew⟩ := bind_eq_ok.mp hnew
  obtain ⟨rel, hrel, hnew⟩ := bind_eq_ok.mp hnew
  cases hnew
  exact (TxBuffer.new_tracks hunrel).1

/-- In a build that returns, the time of expiry is the 64-bit sum. -/
lemma enqueue_eq {b b' : FragmentTxBuffers} {packetBytes : Bytes} {timeoutMs : U16} {nowMs : ℕ}
    (h : b.enqueue bd packetBytes (.unreliable timeoutMs) nowMs = .ok b') :
    b' = { b with
      unrel := b.unrel.push packetBytes ((nowMs + timeoutMs.toNat + 1) % 2 ^ 64) } := by
  obtain ⟨first, hfirst, h⟩ := bind_eq_ok.mp h
  obtain ⟨expireTimeMs, hexpire, h⟩ := bind_eq_ok.mp h
  cases h
  have hmod : ∀ {a b c : ℕ}, checkedAdd bd 64 a b = .ok c → c = (a + b) % 2 ^ 64 := by
    intro a b c hadd
    unfold checkedAdd checked at hadd
    split_ifs at hadd with hlt
    · cases hadd
      exact (Nat.mod_eq_of_lt hlt).symm
    · cases hadd
      rfl
  rw [hmod hexpire, hmod hfirst, Nat.mod_add_mod]

lemma holds_enqueue (h : Holds baseId fragmentSize s) {packetBytes : Bytes} {mode : SendMode}
    {nowMs : ℕ} {buffers : FragmentTxBuffers} (hnow : s.nowMs ≤ nowMs)
    (hok : s.buffers.enqueue bd packetBytes mode nowMs = .ok buffers) :
    Holds baseId fragmentSize
      { s with
        buffers := buffers
        nowMs := nowMs
        pushed := s.pushed ++ pushOf packetBytes mode nowMs } := by
  obtain ⟨⟨all, discarded, cursor, sent, hsound⟩, origins, queue, hinv⟩ := h
  cases mode with
  | reliable =>
    cases hok
    refine ⟨⟨_, _, _, _, hsound.push_rel False.elim⟩, origins, queue, ?_⟩
    rw [pushOf, List.append_nil]
    exact (hinv.later hnow).of_unrel rfl
  | unreliable timeoutMs =>
    rw [enqueue_eq hok]
    obtain ⟨queue', hinv'⟩ := (hinv.later hnow).push packetBytes
      ((nowMs + timeoutMs.toNat + 1) % 2 ^ 64)
    exact ⟨⟨_, _, _, _, hsound.push_unrel False.elim _⟩, origins, queue', hinv'⟩

lemma holds_step (hfragment : fragmentSize ≤ Prio.dataSizeMax) (h : Holds baseId fragmentSize s)
    (hstep : Step bd s action s') : Holds baseId fragmentSize s' := by
  cases hstep with
  | enqueue hnow hok => exact holds_enqueue h hnow hok
  | @acknowledge relFragmentId buffers hok =>
    obtain ⟨⟨all, discarded, cursor, sent, hsound⟩, origins, queue, hinv⟩ := h
    obtain ⟨buffers', discarded', cursor', hok', hsound'⟩ := hsound.acknowledge bd relFragmentId
    cases hok.symm.trans hok'
    refine ⟨⟨_, _, _, _, hsound'⟩, origins, queue, hinv.of_unrel ?_⟩
    unfold FragmentTxBuffers.acknowledge at hok
    cases relFragmentId with
    | none =>
      cases hok
      rfl
    | some id =>
      obtain ⟨rel, -, hok⟩ := bind_eq_ok.mp hok
      cases hok
      rfl
  | handleTimeout =>
    obtain ⟨⟨all, discarded, cursor, sent, hsound⟩, origins, queue, hinv⟩ := h
    exact ⟨⟨_, _, _, _, hsound.handleTimeout⟩, origins, queue, hinv.of_unrel rfl⟩
  | @dataReady nowMs hnow =>
    obtain ⟨⟨all, discarded, cursor, sent, hsound⟩, origins, queue, hinv⟩ := h
    obtain ⟨queue', hinv'⟩ := (hinv.later hnow).popExpired
    exact ⟨⟨_, _, _, _, hsound.popExpired nowMs⟩, origins, queue', hinv'⟩
  | @flush n frameType p nowMs total buffers w datagrams hnow hroom hn hok hwritten =>
    obtain ⟨⟨all, discarded, cursor, sent, hsound⟩, origins, queue, hinv⟩ := h
    obtain ⟨buffers', w', total', datagrams', hok', hsends, hflushes⟩ :=
      hsound.flushes hfragment frameType hroom hn bd nowMs
    cases hok.symm.trans hok'
    have hsame := hwritten.unique hflushes.written
    subst hsame
    obtain ⟨cursor', sent', hsound', -⟩ := hsound.sends hsends
    obtain ⟨origins', queue', hinv'⟩ := (hinv.later hnow).sends hsends
    exact ⟨⟨_, _, _, _, hsound'⟩, origins', queue', hinv'⟩

theorem holds_reachable (hfragment : fragmentSize ≤ Prio.dataSizeMax)
    (hs : Reachable (system bd baseId windowSize fragmentSize) s) : Holds baseId fragmentSize s := by
  have hrule := @Reachable.invariant _ _ (system bd baseId windowSize fragmentSize)
    (Holds baseId fragmentSize)
  exact hrule (fun s => holds_initial) (fun s action s' => holds_step hfragment) hs

end Run

section Origins
variable {origins queue : List Origin}

/-- The fragments of a packet are sent in order from its first one on, without a gap. -/
lemma runs_of_isChain (hchain : origins.IsChain Follows) (hhead : ∀ o ∈ origins.head?, o.2 = 0)
    (k p j : ℕ) (hget : origins[k]? = some (p, j)) :
    j ≤ k ∧ ∀ i ≤ j, origins[k - j + i]? = some (p, i) := by
  induction k generalizing j with
  | zero =>
    rw [← List.head?_eq_getElem?] at hget
    have hzero : j = 0 := hhead _ hget
    subst hzero
    refine ⟨le_rfl, fun i hi => ?_⟩
    obtain rfl := Nat.le_zero.mp hi
    rwa [← List.head?_eq_getElem?]
  | succ k ih =>
    obtain ⟨hlt, hlast⟩ := List.getElem?_eq_some_iff.mp hget
    have hfollows := List.isChain_iff_getElem.mp hchain k hlt
    rw [hlast] at hfollows
    rcases hfollows with ⟨hp, hj⟩ | ⟨-, hzero⟩
    · dsimp only at hp hj
      have hprev : origins[k]? = some (p, j - 1) := by
        rw [List.getElem?_eq_getElem (by omega)]
        congr 1
        ext <;> simp only <;> omega
      obtain ⟨hle, hrest⟩ := ih (j - 1) hprev
      refine ⟨by omega, fun i hi => ?_⟩
      by_cases hij : i = j
      · subst hij
        rwa [Nat.sub_add_cancel (by omega)]
      · rw [show k + 1 - j + i = k - (j - 1) + i by omega]
        exact hrest i (by omega)
    · dsimp only at hzero
      subst hzero
      refine ⟨Nat.zero_le _, fun i hi => ?_⟩
      obtain rfl := Nat.le_zero.mp hi
      exact hget

lemma nodup_of_isChain (hchain : origins.IsChain Follows) : origins.Nodup := by
  refine (before_of_isChain hchain).imp fun hbefore => ?_
  rintro rfl
  unfold Before at hbefore
  omega

end Origins

/-- Which fragments of the unreliable packets have been written and which are still queued. Any
other fragment has expired. -/
structure Accounted (baseId : U32) (fragmentSize : ℕ) (s : State) (origins queue : List Origin) :
    Prop where
  sent : List.Forall₂ (IsSent fragmentSize s.pushed) origins (unrelOf s.written)
  ids : (unrelOf s.written).map (fun x => x.2.id) =
    (List.range origins.length).map (idAt baseId)
  queued : List.Forall₂ (IsEntry fragmentSize s.pushed) queue s.buffers.unrel.fragments
  once : (origins ++ queue).Nodup
  runs : ∀ k p j : ℕ, origins[k]? = some (p, j) →
    j ≤ k ∧ ∀ i ≤ j, origins[k - j + i]? = some (p, i)
  kept : ∀ p push j, s.pushed[p]? = some push → j < (fragmentsOf fragmentSize push.1).length →
    (p, j) ∈ origins ∨ (p, j) ∈ queue ∨ push.2 ≤ s.nowMs

lemma Inv.queue_exact {baseId : U32} {fragmentSize : ℕ} {s : State} {origins queue : List Origin}
    (h : Inv baseId fragmentSize s.buffers s.nowMs s.pushed s.written origins queue) :
    Accounted baseId fragmentSize s origins queue := by
  have hentries := h.tracks.entries
  rw [h.size_eq] at hentries
  have hchain := (List.isChain_append.mp h.tracks.chain).1
  refine ⟨h.sent, h.ids, hentries, nodup_of_isChain h.tracks.chain, ?_, h.kept⟩
  refine runs_of_isChain hchain fun o ho => h.head o ?_
  rw [List.head?_append, Option.mem_def.mp ho]
  rfl

/-- What leaves the queues is what is written, and nothing is sent or kept back wrongly. -/
theorem flush_exact {bd : Build} {baseId windowSize : U32} {fragmentSize : ℕ} {s : State}
    (hfragment : fragmentSize ≤ Prio.dataSizeMax)
    (hs : Reachable (system bd baseId windowSize fragmentSize) s) :
    (∃ origins queue, Accounted baseId fragmentSize s origins queue) ∧
      ∀ (prio : Prio) (n : ℕ) (frameType : FrameType) (p : Bytes) (nowMs : ℕ),
        Prio.Valid prio.weights → p.length + 5 ≤ n → n < 2 ^ 64 →
          ∃ b w total datagrams,
            flush bd { s.buffers with prio := prio } ⟨n, typeBits frameType :: p⟩ nowMs =
              .ok (b, w, total) ∧
            Flushes bd nowMs { s.buffers with prio := prio } ⟨n, typeBits frameType :: p⟩ b w total
              datagrams := by
  obtain ⟨⟨all, discarded, cursor, sent, hsound⟩, origins, queue, hinv⟩ :=
    holds_reachable hfragment hs
  refine ⟨⟨origins, queue, hinv.queue_exact⟩, ?_⟩
  intro prio n frameType p nowMs hprio hroom hn
  have hsound' : Sound { s.buffers with prio := prio } False fragmentSize baseId all discarded
      cursor sent :=
    ⟨hsound.rel, hsound.relGood, hsound.unrelGood, hsound.relSize, hsound.unrelSize, hprio⟩
  obtain ⟨b, w, total, datagrams, hflush, -, hflushes⟩ :=
    hsound'.flushes hfragment frameType hroom hn bd nowMs
  exact ⟨b, w, total, datagrams, hflush, hflushes⟩

section Sample

/-- The queues of a new connection whose channels have equal weights. -/
lemma exists_initial (bd : Build) (baseId windowSize : U32) (hwindow : windowSize ≠ 0)
    {fragmentSize : ℕ} (hpos : 0 < fragmentSize) :
    ∃ s, Initial bd baseId windowSize fragmentSize s ∧ s.buffers.unrel.fragments = [] ∧
      s.buffers.unrel.fragmentSize = fragmentSize ∧ s.nowMs = 0 ∧ s.pushed = [] := by
  obtain ⟨config, hconfig⟩ : ∃ config, Prio.Config.new bd (fun _ => 1) 10000 = .ok config := by
    cases bd
    · exact ⟨_, rfl⟩
    · exact ⟨_, rfl⟩
  have hnew : FragmentTxBuffers.new baseId windowSize fragmentSize config =
      .ok ⟨⟨[], baseId, fragmentSize, hpos⟩,
        ⟨[], baseId, baseId, fragmentSize, ⟨baseId, windowSize⟩, 0, hpos⟩, Prio.new config⟩ := by
    unfold FragmentTxBuffers.new Unreliable.TxBuffer.new Reliable.TxBuffer.new
    rw [dif_pos hpos, if_neg hwindow, dif_pos hpos]
    rfl
  exact ⟨_, ⟨_, _, config, _, hconfig, hnew, rfl⟩, rfl, rfl, rfl, rfl⟩

end Sample

/-- A frame with room for one fragment of a packet that has two. -/
theorem flush_exact_sample : ∃ s, s.pushed = [([1, 2, 3], 8)] ∧
    (∃ origins queue, Accounted 0xFFFFFFFF 2 s origins queue) ∧
      ∃ b w total datagrams,
        flush .debug s.buffers ⟨14, [typeBits .streamSegment]⟩ 6 = .ok (b, w, total) ∧
        Flushes .debug 6 s.buffers ⟨14, [typeBits .streamSegment]⟩ b w total datagrams := by
  obtain ⟨s, hinit, -, -, hnow, hpushed⟩ :=
    exists_initial .debug 0xFFFFFFFF 4 (by decide) (show 0 < 2 by decide)
  have hstep : Step .debug s (.enqueue [1, 2, 3] (.unreliable 2) 5) _ := .enqueue (by omega) rfl
  have hs := (Reachable.init (M := system .debug 0xFFFFFFFF 4 2) hinit).step hstep
  obtain ⟨haccounted, hflush⟩ := flush_exact (by decide) hs
  obtain ⟨⟨all, discarded, cursor, sent, hsound⟩, -⟩ := holds_reachable (by decide) hs
  refine ⟨_, ?_, haccounted, ?_⟩
  · simp [hpushed, pushOf]
  · exact hflush _ 14 .streamSegment [] 6 hsound.weights (by decide) (by decide)

/-- At the end of the clock, the time of expiry wraps around and the packet is discarded at once. -/
theorem expiry_wraps_around : ¬ ∀ (bd : Build) (baseId windowSize : U32) (fragmentSize : ℕ)
    (s s₁ s₂ : State) (packetBytes : Bytes) (timeoutMs : U16) (nowMs nowMs' : ℕ),
    Reachable (system bd baseId windowSize fragmentSize) s → s.buffers.unrel.fragments = [] →
      Step bd s (.enqueue packetBytes (.unreliable timeoutMs) nowMs) s₁ →
      Step bd s₁ (.dataReady nowMs') s₂ → nowMs' < 2 ^ 64 → nowMs' < nowMs + timeoutMs.toNat + 1 →
        s₂.buffers.unrel.fragments = s₁.buffers.unrel.fragments := by
  intro hclaim
  obtain ⟨s, hinit, hempty, hsize, hnow, -⟩ :=
    exists_initial .release 0 4096 (by decide) (show 0 < 1024 by decide)
  have henqueue : s.buffers.enqueue .release [7] (.unreliable 0) (2 ^ 64 - 1) =
      .ok { s.buffers with unrel := s.buffers.unrel.push [7] 0 } := rfl
  have hstep : Step .release s _ _ := .enqueue (by omega) henqueue
  have hready : Step .release { s with
      buffers := { s.buffers with unrel := s.buffers.unrel.push [7] 0 }
      nowMs := 2 ^ 64 - 1
      pushed := s.pushed ++ pushOf [7] (.unreliable 0) (2 ^ 64 - 1) }
    (.dataReady (2 ^ 64 - 1)) _ := .dataReady le_rfl
  have hsame := hclaim _ _ _ _ _ _ _ _ _ _ _ (Reachable.init hinit) hempty hstep hready
    (by decide) (by decide)
  simp only [dataReady, FragmentTxBuffers.popExpired, TxBuffer.popExpired, TxBuffer.push, hempty,
    hsize] at hsame
  exact absurd hsame (by decide)

end Redpine.FragmentExpiry

import Redpine.TimerQueue
import Redpine.Transition

/-! The rotation of the timer queue, over any order of additions, drops and tests: no timer is
lost or doubled, and each one has its turn. -/
namespace Redpine.TimerQueue
open Machine Transition

section Loop
variable {α : Type}

def visit (moment : Moment α) (nowMs : ℕ) (timer : α) : Visit α :=
  ⟨timer, if moment.alive timer then outcome moment nowMs (some timer) else .gone⟩

/-- The visits to some timers, one in each iteration. -/
def visited (nowMs : ℕ) : (ℕ → Moment α) → List α → List (Visit α)
  | _, [] => []
  | moments, timer :: timers =>
      visit (moments 0) nowMs timer :: visited nowMs (fun k => moments (k + 1)) timers

/-- The timers that go to the back of the queue. -/
def kept (visits : List (Visit α)) : List α :=
  (visits.filter fun v => v.outcome ≠ .gone).map Visit.timer

lemma next_cons (timer : α) (rest : List α) (alive : α → Bool) :
    (⟨timer :: rest⟩ : TimerQueue α).next alive =
      if alive timer then some (some timer, ⟨rest ++ [timer]⟩) else some (none, ⟨rest⟩) := rfl

lemma outcome_some_ne_gone (moment : Moment α) (nowMs : ℕ) (timer : α) :
    outcome moment nowMs (some timer) ≠ .gone := by
  simp only [outcome]
  split_ifs <;> simp

lemma visit_outcome_gone (moment : Moment α) (nowMs : ℕ) (timer : α) :
    (visit moment nowMs timer).outcome = .gone ↔ moment.alive timer = false := by
  unfold visit
  cases moment.alive timer with
  | true => simpa using outcome_some_ne_gone moment nowMs timer
  | false => simp

lemma visit_outcome_signalled (moment : Moment α) (nowMs : ℕ) (timer : α) :
    (visit moment nowMs timer).outcome = .signalled ↔
      moment.alive timer = true ∧ moment.test timer nowMs = true := by
  unfold visit
  cases moment.alive timer with
  | true => simp [outcome]
  | false => simp

lemma visited_getElem? (nowMs : ℕ) (moments : ℕ → Moment α) (timers : List α) (k : ℕ) :
    (visited nowMs moments timers)[k]? = timers[k]?.map (visit (moments k) nowMs) := by
  induction timers generalizing moments k with
  | nil => rfl
  | cons timer timers ih =>
    cases k with
    | zero => rfl
    | succ k => simpa [visited] using ih (fun k => moments (k + 1)) k

lemma visited_map_timer (nowMs : ℕ) (moments : ℕ → Moment α) (timers : List α) :
    (visited nowMs moments timers).map Visit.timer = timers := by
  induction timers generalizing moments with
  | nil => rfl
  | cons timer timers ih => rw [visited, List.map_cons, ih]; rfl

lemma kept_sublist (nowMs : ℕ) (moments : ℕ → Moment α) (timers : List α) :
    (kept (visited nowMs moments timers)).Sublist timers := by
  have hsub := (List.filter_sublist (l := visited nowMs moments timers)
    (p := fun v => v.outcome ≠ .gone)).map Visit.timer
  rwa [visited_map_timer] at hsub

/-- What is alive in every iteration is kept. -/
lemma mem_kept {nowMs : ℕ} {moments : ℕ → Moment α} {timers : List α} {timer : α}
    (h : timer ∈ timers) (halive : ∀ k, (moments k).alive timer = true) :
    timer ∈ kept (visited nowMs moments timers) := by
  obtain ⟨k, hk⟩ := List.mem_iff_getElem?.mp h
  have hvisit := visited_getElem? nowMs moments timers k
  rw [hk, Option.map_some] at hvisit
  refine List.mem_map.mpr ⟨_, List.mem_filter.mpr ⟨List.mem_of_getElem? hvisit, ?_⟩, rfl⟩
  rw [decide_eq_true_iff, Ne, visit_outcome_gone, halive k]
  exact Bool.noConfusion

/-- The loop takes the timers off the front and puts back those that are alive. -/
lemma testLoop_eq (nowMs : ℕ) {n : ℕ} (moments : ℕ → Moment α) {timers : List α}
    (h : n ≤ timers.length) :
    testLoop nowMs n moments ⟨timers⟩ =
      .ok (visited nowMs moments (timers.take n),
        ⟨timers.drop n ++ kept (visited nowMs moments (timers.take n))⟩) := by
  induction n generalizing moments timers with
  | zero => simp [testLoop, visited, kept]
  | succ n ih =>
    cases timers with
    | nil => cases h
    | cons timer rest =>
      have hn : n ≤ rest.length := Nat.le_of_succ_le_succ h
      unfold testLoop
      rw [next_cons]
      cases halive : (moments 0).alive timer with
      | true =>
        have hvisit : visit (moments 0) nowMs timer =
            ⟨timer, outcome (moments 0) nowMs (some timer)⟩ := by
          rw [visit, halive, if_pos rfl]
        have hgone := outcome_some_ne_gone (moments 0) nowMs timer
        dsimp only
        rw [if_pos rfl]
        dsimp only
        rw [ih _ (hn.trans (by simp)), ok_bind, List.take_append_of_le_length hn,
          List.drop_append_of_le_length hn, List.take_succ_cons, List.drop_succ_cons, visited,
          hvisit]
        simp [kept, hgone]
      | false =>
        have hvisit : visit (moments 0) nowMs timer = ⟨timer, .gone⟩ := by
          rw [visit, halive, if_neg Bool.false_ne_true]
        dsimp only
        rw [if_neg Bool.false_ne_true]
        dsimp only
        rw [ih _ hn, ok_bind, List.take_succ_cons, List.drop_succ_cons, visited, hvisit]
        simp [kept, outcome]

/-- A test never fails. It visits the first timers of the queue, and no others. -/
lemma test_eq (q : TimerQueue α) (limit nowMs : ℕ) (moments : ℕ → Moment α) :
    q.test limit nowMs moments =
      .ok (visited nowMs moments (q.queue.take limit),
        ⟨q.queue.drop limit ++ kept (visited nowMs moments (q.queue.take limit))⟩) := by
  have hloop := testLoop_eq nowMs moments (min_le_right limit q.queue.length)
  have htake : q.queue.take (min limit q.queue.length) = q.queue.take limit := by simp
  have hdrop : q.queue.drop (min limit q.queue.length) = q.queue.drop limit := by
    rcases Nat.le_total limit q.queue.length with hle | hle
    · rw [Nat.min_eq_left hle]
    · rw [Nat.min_eq_right hle, List.drop_length, List.drop_eq_nil_of_le hle]
  rwa [htake, hdrop] at hloop

end Loop

/-- An entry of the queue. Two entries of the same timer are told apart by the number of additions
before them. -/
structure Entry (α : Type) where
  timer : α
  serial : ℕ
  deriving DecidableEq, Repr

/-- The serial numbers are not looked at. -/
def Moment.entries {α : Type} (moment : Moment α) : Moment (Entry α) :=
  ⟨fun e => moment.alive e.timer, fun e => moment.test e.timer⟩

def Visit.forget {α : Type} (v : Visit (Entry α)) : Visit α := ⟨v.timer.timer, v.outcome⟩

section Entries
variable {α : Type} (nowMs : ℕ)

lemma visited_entries (moments : ℕ → Moment α) (entries : List (Entry α)) :
    (visited nowMs (fun k => (moments k).entries) entries).map Visit.forget =
      visited nowMs moments (entries.map Entry.timer) := by
  induction entries generalizing moments with
  | nil => rfl
  | cons e entries ih =>
    rw [visited, List.map_cons, List.map_cons, visited, ← ih]
    rfl

lemma kept_forget (visits : List (Visit (Entry α))) :
    (kept visits).map Entry.timer = kept (visits.map Visit.forget) := by
  unfold kept
  rw [List.filter_map, List.map_map, List.map_map]
  rfl

/-- A test of the entries is a test of their timers. -/
theorem test_entries {q q' : TimerQueue (Entry α)} {limit : ℕ} {moments : ℕ → Moment α}
    {visits : List (Visit (Entry α))}
    (h : q.test limit nowMs (fun k => (moments k).entries) = .ok (visits, q')) :
    (⟨q.queue.map Entry.timer⟩ : TimerQueue α).test limit nowMs moments =
      .ok (visits.map Visit.forget, ⟨q'.queue.map Entry.timer⟩) := by
  rw [test_eq] at h
  cases h
  rw [test_eq, List.map_append, kept_forget, visited_entries, List.map_take, List.map_drop]

end Entries

structure Rotation (α : Type) where
  queue : TimerQueue (Entry α)
  added : List α
  alive : α → Bool

inductive Action (α : Type)
  | add (timer : α)
  | drop (timer : α)
  | test (limit nowMs : ℕ) (moments : ℕ → Moment α) (visits : List (Visit (Entry α)))

namespace Action
variable {α : Type}

def isTest : Action α → Bool
  | .test .. => true
  | _ => false

def limit : Action α → ℕ
  | .test limit .. => limit
  | _ => 0

/-- The entries that a test takes off the front. -/
def examined : Action α → List (Entry α)
  | .test _ _ _ visits => visits.map Visit.timer
  | _ => []

end Action

/-- Timers are added to the queue, lose their owners, also while they are tested, and are tested. -/
inductive Step {α : Type} [DecidableEq α] : Rotation α → Action α → Rotation α → Prop
  | add {s : Rotation α} (timer : α) :
      Step s (.add timer)
        ⟨s.queue.addTimer ⟨timer, s.added.length⟩, s.added ++ [timer], s.alive⟩
  | drop {s : Rotation α} (timer : α) :
      Step s (.drop timer) { s with alive := Function.update s.alive timer false }
  | test {s : Rotation α} {limit nowMs : ℕ} {moments : ℕ → Moment α}
      {visits : List (Visit (Entry α))} {queue : TimerQueue (Entry α)} {alive : α → Bool}
      (hbefore : ∀ k timer, (moments k).alive timer = true → s.alive timer = true)
      (hafter : ∀ k timer, alive timer = true → (moments k).alive timer = true)
      (htest : s.queue.test limit nowMs (fun k => (moments k).entries) = .ok (visits, queue)) :
      Step s (.test limit nowMs moments visits) ⟨queue, s.added, alive⟩

def rotation (α : Type) [DecidableEq α] : System (Rotation α) (Action α) where
  init s := s.queue = new ∧ s.added = []
  step := Step

section Rotation
variable {α : Type}

/-- What the queue holds at all times. -/
structure Inv (s : Rotation α) : Prop where
  nodup : s.queue.queue.Nodup
  added : ∀ e ∈ s.queue.queue, s.added[e.serial]? = some e.timer
  present : ∀ i timer, s.added[i]? = some timer → s.alive timer = true →
    ⟨timer, i⟩ ∈ s.queue.queue

variable {s s' : Rotation α}

lemma Inv.add (h : Inv s) (timer : α) :
    Inv ⟨s.queue.addTimer ⟨timer, s.added.length⟩, s.added ++ [timer], s.alive⟩ := by
  have hserial : ∀ e ∈ s.queue.queue, e.serial < s.added.length := fun e he =>
    (List.getElem?_eq_some_iff.mp (h.added e he)).1
  refine ⟨?_, fun e he => ?_, fun i t hi halive => ?_⟩
  · refine List.nodup_append.mpr ⟨h.nodup, List.nodup_singleton _, fun a ha b hb hab => ?_⟩
    have hlt := hserial a ha
    rw [hab, List.mem_singleton.mp hb] at hlt
    exact lt_irrefl _ hlt
  · rcases List.mem_append.mp he with he | he
    · dsimp only
      rw [List.getElem?_append_left (hserial e he)]
      exact h.added e he
    · rw [List.mem_singleton.mp he]
      simp
  · refine List.mem_append.mpr ?_
    dsimp only at hi
    rcases Nat.lt_or_ge i s.added.length with hlt | hge
    · rw [List.getElem?_append_left hlt] at hi
      exact .inl (h.present i t hi halive)
    · rw [List.getElem?_append_right hge, List.getElem?_singleton] at hi
      split_ifs at hi with hzero
      · cases hi
        have hlast : i = s.added.length := by omega
        exact .inr (List.mem_singleton.mpr (by rw [hlast]))

lemma Inv.drop [DecidableEq α] (h : Inv s) (timer : α) :
    Inv { s with alive := Function.update s.alive timer false } := by
  refine ⟨h.nodup, h.added, fun i t hi halive => h.present i t hi ?_⟩
  by_cases ht : t = timer
  · rw [ht] at halive
    simp at halive
  · simpa [Function.update_of_ne ht] using halive

/-- The entries that were not reached and those that were put back come from the queue. -/
lemma rotated_subperm (entries : List (Entry α)) (limit nowMs : ℕ)
    (moments : ℕ → Moment (Entry α)) :
    (entries.drop limit ++ kept (visited nowMs moments (entries.take limit))).Subperm entries := by
  have hsub := (kept_sublist nowMs moments (entries.take limit)).append_left (entries.drop limit)
  refine hsub.subperm.trans (List.Perm.subperm ?_)
  have hcomm : (entries.drop limit ++ entries.take limit).Perm
      (entries.take limit ++ entries.drop limit) := List.perm_append_comm
  rwa [List.take_append_drop] at hcomm

lemma Inv.test (h : Inv s) {limit nowMs : ℕ} {moments : ℕ → Moment α}
    {visits : List (Visit (Entry α))} {queue : TimerQueue (Entry α)} {alive : α → Bool}
    (hbefore : ∀ k timer, (moments k).alive timer = true → s.alive timer = true)
    (hafter : ∀ k timer, alive timer = true → (moments k).alive timer = true)
    (htest : s.queue.test limit nowMs (fun k => (moments k).entries) = .ok (visits, queue)) :
    Inv ⟨queue, s.added, alive⟩ := by
  rw [test_eq] at htest
  cases htest
  obtain ⟨entries, hperm, hentries⟩ :=
    rotated_subperm s.queue.queue limit nowMs fun k => (moments k).entries
  refine ⟨hperm.nodup (h.nodup.sublist hentries),
    fun e he => h.added e (hentries.subset (hperm.mem_iff.mpr he)), fun i t hi halive => ?_⟩
  have hmem := h.present i t hi (hbefore 0 t (hafter 0 t halive))
  rw [← List.take_append_drop limit s.queue.queue, List.mem_append] at hmem
  rcases hmem with hmem | hmem
  · exact List.mem_append.mpr (.inr (mem_kept hmem fun k => hafter k t halive))
  · exact List.mem_append.mpr (.inl hmem)

lemma inv_of_rotation [DecidableEq α] (hs : Reachable (rotation α) s) : Inv s := by
  induction hs using Reachable.induct with
  | init hinit =>
    obtain ⟨hqueue, hadded⟩ := hinit
    refine ⟨?_, fun e he => ?_, fun i t hi => ?_⟩
    · rw [hqueue]
      exact List.nodup_nil
    · rw [hqueue] at he
      cases he
    · rw [hadded] at hi
      cases hi
  | step hs hstep ih =>
    cases hstep with
    | add timer => exact ih.add timer
    | drop timer => exact ih.drop timer
    | test hbefore hafter htest => exact ih.test hbefore hafter htest

/-- What one test does to the entries it reaches. -/
lemma Inv.visits (h : Inv s) {limit nowMs : ℕ} {moments : ℕ → Moment α}
    {visits : List (Visit (Entry α))} {queue : TimerQueue (Entry α)}
    (htest : s.queue.test limit nowMs (fun k => (moments k).entries) = .ok (visits, queue)) :
    (visits.map Visit.timer).Nodup ∧
      ∀ k v, visits[k]? = some v →
        (v.outcome = .gone ↔ (moments k).alive v.timer.timer = false) ∧
          (v.outcome = .signalled ↔ (moments k).alive v.timer.timer = true ∧
            (moments k).test v.timer.timer nowMs = true) ∧
          (v.outcome = .gone → v.timer ∉ queue.queue) := by
  rw [test_eq] at htest
  cases htest
  have hnodup : (s.queue.queue.take limit ++ s.queue.queue.drop limit).Nodup := by
    rw [List.take_append_drop]
    exact h.nodup
  obtain ⟨htake, -, hdisjoint⟩ := List.nodup_append.mp hnodup
  refine ⟨by rwa [visited_map_timer], fun k v hv => ?_⟩
  have hvisit := hv
  rw [visited_getElem?, Option.map_eq_some_iff] at hvisit
  obtain ⟨e, he, rfl⟩ := hvisit
  refine ⟨visit_outcome_gone _ _ _, visit_outcome_signalled _ _ _, fun hgone hmem => ?_⟩
  have hreached : e ∈ s.queue.queue.take limit := List.mem_of_getElem? he
  rcases List.mem_append.mp hmem with hmem | hmem
  · exact hdisjoint e hreached e hmem rfl
  · obtain ⟨v', hv', hsame⟩ := List.mem_map.mp hmem
    obtain ⟨hv'mem, hkept⟩ := List.mem_filter.mp hv'
    have hinj := List.inj_on_of_nodup_map (f := Visit.timer)
      (by rwa [visited_map_timer]) hv'mem (List.mem_of_getElem? hv) hsame
    rw [hinj] at hkept
    exact of_decide_eq_true hkept hgone

section Path
variable [DecidableEq α]

/-- A test reaches an entry or moves it towards the front. -/
lemma Step.position {a : Action α} (hstep : Step s a s') {e : Entry α} {p : ℕ}
    (hp : s.queue.queue[p]? = some e) :
    e ∈ a.examined ∨ ∃ p', s'.queue.queue[p']? = some e ∧ p = p' + a.limit := by
  have hlt := (List.getElem?_eq_some_iff.mp hp).1
  cases hstep with
  | add timer =>
    refine .inr ⟨p, ?_, rfl⟩
    unfold addTimer
    rwa [List.getElem?_append_left hlt]
  | drop timer => exact .inr ⟨p, hp, rfl⟩
  | @test limit nowMs moments visits queue alive hbefore hafter htest =>
    rw [test_eq] at htest
    cases htest
    rcases Nat.lt_or_ge p limit with hreached | hbehind
    · left
      change e ∈ (visited nowMs (fun k => (moments k).entries) _).map Visit.timer
      rw [visited_map_timer]
      refine List.mem_of_getElem? (i := p) ?_
      rwa [List.getElem?_take_of_lt hreached]
    · right
      refine ⟨p - limit, ?_, (Nat.sub_add_cancel hbehind).symm⟩
      dsimp only
      rw [List.getElem?_append_left (by rw [List.length_drop]; omega), List.getElem?_drop,
        Nat.add_sub_of_le hbehind]
      exact hp

/-- Enough tests reach every entry. -/
lemma examined_of_path {actions : List (Action α)} (path : Path (rotation α) s actions s')
    {e : Entry α} {p : ℕ} (hp : s.queue.queue[p]? = some e)
    (henough : p < (actions.map Action.limit).sum) : ∃ a ∈ actions, e ∈ a.examined := by
  induction path generalizing p with
  | refl s => exact absurd henough (Nat.not_lt_zero _)
  | @head s s₁ s' a actions hstep rest ih =>
    rcases hstep.position hp with hreached | ⟨p', hp', hmoved⟩
    · exact ⟨a, List.mem_cons_self, hreached⟩
    · rw [List.map_cons, List.sum_cons] at henough
      obtain ⟨b, hb, hreached⟩ := ih hp' (by omega)
      exact ⟨b, List.mem_cons_of_mem a hb, hreached⟩

end Path

lemma limits_sum {actions : List (Action α)} {limit : ℕ}
    (hlimit : ∀ a ∈ actions, a.isTest = true → limit ≤ a.limit) :
    limit * actions.countP Action.isTest ≤ (actions.map Action.limit).sum := by
  induction actions with
  | nil => simp
  | cons a actions ih =>
    have hrest := ih fun b hb => hlimit b (List.mem_cons_of_mem a hb)
    rw [List.countP_cons, List.map_cons, List.sum_cons, mul_add]
    cases htest : a.isTest with
    | false =>
      simp
      omega
    | true =>
      have hfirst := hlimit a List.mem_cons_self htest
      simp
      omega

/-- No timer is lost, doubled or signalled after it is gone, every entry has its turn, and then a
timer is signalled if and only if its test says so. -/
theorem rotation_fair [DecidableEq α] (s : Rotation α) (hs : Reachable (rotation α) s) :
    (∀ i timer, s.added[i]? = some timer → s.alive timer = true →
      s.queue.queue.count ⟨timer, i⟩ = 1) ∧
    (∀ e ∈ s.queue.queue, s.added[e.serial]? = some e.timer ∧ s.queue.queue.count e = 1) ∧
    (∀ limit nowMs moments, ∃ visits queue,
      s.queue.test limit nowMs moments = .ok (visits, queue)) ∧
    (∀ limit nowMs moments visits s', Step s (.test limit nowMs moments visits) s' →
      (visits.map Visit.timer).Nodup ∧
        ∀ k v, visits[k]? = some v →
          (v.outcome = .gone ↔ (moments k).alive v.timer.timer = false) ∧
            (v.outcome = .signalled ↔ (moments k).alive v.timer.timer = true ∧
              (moments k).test v.timer.timer nowMs = true) ∧
            (v.outcome = .gone → v.timer ∉ s'.queue.queue) ∧
            (s.alive v.timer.timer = false → v.outcome = .gone)) ∧
    ∀ position e limit actions s', 1 ≤ position → s.queue.queue[position - 1]? = some e →
      1 ≤ limit → Path (rotation α) s actions s' →
      (∀ a ∈ actions, a.isTest = true → limit ≤ a.limit) →
      position ⌈/⌉ limit ≤ actions.countP Action.isTest → ∃ a ∈ actions, e ∈ a.examined := by
  have h := inv_of_rotation hs
  refine ⟨fun i timer hi halive => List.count_eq_one_of_mem h.nodup (h.present i timer hi halive),
    fun e he => ⟨h.added e he, List.count_eq_one_of_mem h.nodup he⟩,
    fun limit nowMs moments => ⟨_, _, test_eq s.queue limit nowMs moments⟩, ?_, ?_⟩
  · intro limit nowMs moments visits s' hstep
    cases hstep with
    | test hbefore hafter htest =>
      obtain ⟨hnodup, hvisits⟩ := h.visits htest
      refine ⟨hnodup, fun k v hv => ?_⟩
      obtain ⟨hgone, hsignalled, hremoved⟩ := hvisits k v hv
      refine ⟨hgone, hsignalled, hremoved, fun hdead => hgone.mpr ?_⟩
      rw [← Bool.not_eq_true]
      exact fun halive => Bool.false_ne_true (hdead.symm.trans (hbefore k _ halive))
  · intro position e limit actions s' hpos hp hlimit path hlimits hcount
    rw [ceilDiv_le_iff_le_mul hlimit] at hcount
    refine examined_of_path path hp ?_
    have hsum := limits_sum hlimits
    omega

end Rotation

section Sample

/-- One timer is gone, and the others are set to the times that stand for them. -/
def sampleMoment : Moment ℕ :=
  ⟨Function.update (fun _ => true) 7 false, fun timer nowMs => decide (timer ≤ nowMs)⟩

def sampleTest (visits : List (Visit (Entry ℕ))) : Action ℕ :=
  .test 2 8 (fun _ => sampleMoment) visits

lemma sampleTest_step {queue queue' : TimerQueue (Entry ℕ)} {added : List ℕ}
    {visits : List (Visit (Entry ℕ))}
    (htest : queue.test 2 8 (fun _ => sampleMoment.entries) = .ok (visits, queue')) :
    Step ⟨queue, added, sampleMoment.alive⟩ (sampleTest visits)
      ⟨queue', added, sampleMoment.alive⟩ :=
  .test (fun _ _ halive => halive) (fun _ _ halive => halive) htest

end Sample

/-- Of three timers the first one is gone before two tests: the first test removes it and signals
the second timer, and the other one examines the third timer, which is not due. -/
theorem rotation_fair_three : ∃ s s₁ s₂ : Rotation ℕ, ∃ visits₁ visits₂,
    Reachable (rotation ℕ) s ∧ s.added = [7, 8, 9] ∧ s.alive 7 = false ∧
    Step s (sampleTest visits₁) s₁ ∧ Step s₁ (sampleTest visits₂) s₂ ∧
    visits₁ = [⟨⟨7, 0⟩, .gone⟩, ⟨⟨8, 1⟩, .signalled⟩] ∧
    visits₂ = [⟨⟨9, 2⟩, .waiting⟩, ⟨⟨8, 1⟩, .signalled⟩] ∧
    s.queue.queue.count ⟨8, 1⟩ = 1 ∧ ⟨7, 0⟩ ∉ s₁.queue.queue ∧ sampleMoment.test 8 8 = true ∧
    ∃ a ∈ [sampleTest visits₁, sampleTest visits₂], ⟨9, 2⟩ ∈ a.examined := by
  have hstart : Reachable (rotation ℕ) ⟨new, [], fun _ => true⟩ := .init ⟨rfl, rfl⟩
  have hs := (((hstart.step (.add 7)).step (.add 8)).step (.add 9)).step (.drop 7)
  have hstep₁ : Step ⟨⟨[⟨7, 0⟩, ⟨8, 1⟩, ⟨9, 2⟩]⟩, [7, 8, 9], sampleMoment.alive⟩ (sampleTest _) _ :=
    sampleTest_step rfl
  have hstep₂ : Step ⟨⟨[⟨9, 2⟩, ⟨8, 1⟩]⟩, [7, 8, 9], sampleMoment.alive⟩ (sampleTest _) _ :=
    sampleTest_step rfl
  obtain ⟨hcount, -, -, hvisits, hturn⟩ := rotation_fair _ hs
  obtain ⟨-, hvisit⟩ := hvisits _ _ _ _ _ hstep₁
  obtain ⟨-, -, hremoved, -⟩ := hvisit 0 _ rfl
  obtain ⟨-, hsignalled, -⟩ := hvisit 1 _ rfl
  have hexamined := hturn 3 ⟨9, 2⟩ 2 _ _ (by decide) rfl (by decide)
    (.head hstep₁ (.head hstep₂ (.refl _))) (by simp [sampleTest, Action.limit]) (by decide)
  exact ⟨_, _, _, _, _, hs, rfl, rfl, hstep₁, hstep₂, rfl, rfl, hcount 1 8 rfl rfl, hremoved rfl,
    (hsignalled.mp rfl).2, hexamined⟩

end Redpine.TimerQueue

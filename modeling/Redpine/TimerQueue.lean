import Redpine.Machine

/-! The queue of timers that are tested in turn: `timer_queue.rs`. A weak reference is a value
that may have lost the object it stands for; `alive` tells whether it can be upgraded. -/
namespace Redpine
open Machine

structure TimerQueue (α : Type) where
  queue : List α

namespace TimerQueue
variable {α : Type}

def new : TimerQueue α := ⟨[]⟩

def addTimer (q : TimerQueue α) (timer : α) : TimerQueue α := ⟨q.queue ++ [timer]⟩

/-- One iteration of `test`: the timer at the front is to be tested and goes to the back, or it
is gone and falls off the queue. An empty queue is an impossible iteration condition. -/
def next (q : TimerQueue α) (alive : α → Bool) : Option (Option α × TimerQueue α) :=
  match q.queue with
  | [] => none
  | timer :: rest =>
      if alive timer then some (some timer, ⟨rest ++ [timer]⟩) else some (none, ⟨rest⟩)

def len (q : TimerQueue α) : ℕ := q.queue.length

/-- What one iteration of `test` meets. A timer can lose its owner between two iterations. -/
structure Moment (α : Type) where
  alive : α → Bool
  test : α → ℕ → Bool

inductive Outcome
  | gone
  | waiting
  | signalled
  deriving DecidableEq, Repr

/-- An iteration of `test`: the timer taken off the front and what became of it. -/
structure Visit (α : Type) where
  timer : α
  outcome : Outcome
  deriving DecidableEq, Repr

def outcome (moment : Moment α) (nowMs : ℕ) : Option α → Outcome
  | none => .gone
  | some timer => if moment.test timer nowMs then .signalled else .waiting

def testLoop (nowMs : ℕ) :
    ℕ → (ℕ → Moment α) → TimerQueue α → Exec (List (Visit α) × TimerQueue α)
  | 0, _, q => .ok ([], q)
  | n + 1, moments, q =>
    match q.queue, q.next (moments 0).alive with
    | front :: _, some (upgraded, q') => do
        let (visits, q'') ← testLoop nowMs n (fun k => moments (k + 1)) q'
        return (⟨front, outcome (moments 0) nowMs upgraded⟩ :: visits, q'')
    | _, _ => .error (.expect "impossible iteration condition")

/-- The callback is called for the visits that are signalled, in this order. -/
def test (q : TimerQueue α) (limit nowMs : ℕ) (moments : ℕ → Moment α) :
    Exec (List (Visit α) × TimerQueue α) :=
  testLoop nowMs (min limit q.len) moments q

section Spec
variable {q q' : TimerQueue α} {alive : α → Bool} {timer : Option α}

/-- An iteration takes the timer off the front, and puts it back if it is alive. -/
lemma next_cases (h : q.next alive = some (timer, q')) :
    ∃ front rest, q.queue = front :: rest ∧
      (alive front = true ∧ timer = some front ∧ q'.queue = rest ++ [front] ∨
        alive front = false ∧ timer = none ∧ q'.queue = rest) := by
  unfold next at h
  cases hqueue : q.queue with
  | nil =>
    rw [hqueue] at h
    cases h
  | cons front rest =>
    rw [hqueue] at h
    dsimp only at h
    cases hfront : alive front with
    | true =>
      rw [if_pos hfront] at h
      cases h
      exact ⟨front, rest, rfl, .inl ⟨hfront, rfl, rfl⟩⟩
    | false =>
      rw [if_neg (by rw [hfront]; exact Bool.false_ne_true)] at h
      cases h
      exact ⟨front, rest, rfl, .inr ⟨hfront, rfl, rfl⟩⟩

/-- Nothing is added, and only what is gone is lost. -/
lemma next_count [DecidableEq α] (h : q.next alive = some (timer, q')) (a : α) :
    q'.queue.count a ≤ q.queue.count a ∧
      (alive a = true → q'.queue.count a = q.queue.count a) := by
  obtain ⟨front, rest, hqueue, ⟨hfront, -, hqueue'⟩ | ⟨hfront, -, hqueue'⟩⟩ := next_cases h
  · have hperm : (rest ++ [front]).Perm (front :: rest) := List.perm_append_singleton _ _
    rw [hqueue, hqueue', hperm.count_eq]
    exact ⟨le_rfl, fun _ => rfl⟩
  · rw [hqueue, hqueue']
    refine ⟨List.count_le_count_cons, fun ha => ?_⟩
    rw [List.count_cons_of_ne]
    rintro rfl
    cases ha.symm.trans hfront

/-- The timer tested is the one at the front, and it is alive. -/
lemma next_some {a : α} (h : q.next alive = some (some a, q')) :
    alive a = true ∧ ∃ rest, q.queue = a :: rest ∧ q'.queue = rest ++ [a] := by
  obtain ⟨front, rest, hqueue, ⟨hfront, hsome, hqueue'⟩ | ⟨-, hnone, -⟩⟩ := next_cases h
  · cases hsome
    exact ⟨hfront, rest, hqueue, hqueue'⟩
  · cases hnone

/-- A timer that is gone falls off the front. -/
lemma next_none (h : q.next alive = some (none, q')) :
    ∃ front rest, q.queue = front :: rest ∧ q'.queue = rest := by
  obtain ⟨front, rest, hqueue, ⟨-, hsome, -⟩ | ⟨-, -, hqueue'⟩⟩ := next_cases h
  · cases hsome
  · exact ⟨front, rest, hqueue, hqueue'⟩

end Spec

end TimerQueue

end Redpine

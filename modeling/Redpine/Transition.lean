import Mathlib

/-! Labelled transition systems: runs, reachable states and the rules by which an
invariant of single steps becomes an invariant of whole runs. -/
namespace Redpine.Transition

structure System (σ α : Type*) where
  init : σ → Prop
  step : σ → α → σ → Prop

variable {σ α : Type*} {M : System σ α}

/-- A run that has taken the recorded steps, oldest first, and is now in a state. -/
inductive Run (M : System σ α) : List (σ × α) → σ → Prop
  | init {s : σ} (h : M.init s) : Run M [] s
  | step {past : List (σ × α)} {s s' : σ} {a : α}
      (run : Run M past s) (h : M.step s a s') : Run M (past ++ [(s, a)]) s'

def Reachable (M : System σ α) (s : σ) : Prop := ∃ past, Run M past s

theorem Reachable.init {s : σ} (h : M.init s) : Reachable M s := ⟨[], .init h⟩

theorem Reachable.step {s s' : σ} {a : α} (hs : Reachable M s) (h : M.step s a s') :
    Reachable M s' := by
  obtain ⟨past, run⟩ := hs
  exact ⟨past ++ [(s, a)], run.step h⟩

/-- Any number of steps from one state to another. -/
def Continues (M : System σ α) : σ → σ → Prop :=
  Relation.ReflTransGen fun s s' => ∃ a, M.step s a s'

theorem Reachable.continues {s s' : σ} (hs : Reachable M s) (h : Continues M s s') :
    Reachable M s' := by
  induction h with
  | refl => exact hs
  | tail _ hstep ih =>
    obtain ⟨a, hstep⟩ := hstep
    exact ih.step hstep

/-- The steps from one state to another, oldest first. -/
inductive Path (M : System σ α) : σ → List α → σ → Prop
  | refl (s : σ) : Path M s [] s
  | head {s s₁ s' : σ} {a : α} {as : List α} (h : M.step s a s₁) (rest : Path M s₁ as s') :
      Path M s (a :: as) s'

/-- A system whose steps are computed can be replayed. -/
def replay {σ α : Type} (next : σ → α → Option σ) (s : σ) (actions : List α) : Option σ :=
  actions.foldlM next s

/-- The invariant rule for a replay. -/
theorem replay_invariant {σ α : Type} {next : σ → α → Option σ} {motive : σ → Prop}
    {actions : List α} {s s' : σ} (h : replay next s actions = some s') (hs : motive s)
    (hstep : ∀ s, ∀ a ∈ actions, ∀ s', motive s → next s a = some s' → motive s') : motive s' := by
  unfold replay at h
  induction actions generalizing s with
  | nil =>
    cases h
    exact hs
  | cons a actions ih =>
    rw [List.foldlM_cons, Option.bind_eq_bind, Option.bind_eq_some_iff] at h
    obtain ⟨s₁, hfirst, hrest⟩ := h
    refine ih hrest (hstep s a List.mem_cons_self s₁ hs hfirst) fun s a hmem => ?_
    exact hstep s a (List.mem_cons_of_mem _ hmem)

theorem replay_continues {σ α : Type} {M : System σ α} {next : σ → α → Option σ}
    (hnext : ∀ s a s', next s a = some s' → M.step s a s') {s s' : σ} {actions : List α}
    (h : replay next s actions = some s') : Continues M s s' := by
  refine replay_invariant h .refl fun s₁ a _ s₂ hcontinues hfirst => ?_
  exact hcontinues.tail ⟨a, hnext _ _ _ hfirst⟩

theorem replay_run {σ α : Type} {M : System σ α} {next : σ → α → Option σ}
    (hnext : ∀ s a s', next s a = some s' → M.step s a s') {past : List (σ × α)} {s s' : σ}
    {actions : List α} (run : Run M past s) (h : replay next s actions = some s') :
    ∃ more, Run M (past ++ more) s' ∧ more.map Prod.snd = actions := by
  unfold replay at h
  induction actions generalizing past s with
  | nil =>
    cases h
    exact ⟨[], by rwa [List.append_nil], rfl⟩
  | cons a actions ih =>
    rw [List.foldlM_cons, Option.bind_eq_bind, Option.bind_eq_some_iff] at h
    obtain ⟨s₁, hfirst, hrest⟩ := h
    obtain ⟨more, run', hactions⟩ := ih (run.step (hnext _ _ _ hfirst)) hrest
    refine ⟨(s, a) :: more, ?_, by rw [List.map_cons, hactions]⟩
    rwa [List.append_assoc, List.singleton_append] at run'

/-- A replay from a computed initial state is a run. -/
theorem start_replay_run {σ α : Type} {M : System σ α} {next : σ → α → Option σ}
    (hnext : ∀ s a s', next s a = some s' → M.step s a s') {start : Option σ}
    (hstart : ∀ s, start = some s → M.init s) {actions : List α} {s : σ}
    (h : (start.bind fun s => replay next s actions) = some s) :
    ∃ past, Run M past s ∧ past.map Prod.snd = actions := by
  obtain ⟨s₀, hs₀, hreplay⟩ := Option.bind_eq_some_iff.mp h
  exact replay_run hnext (.init (hstart s₀ hs₀)) hreplay

theorem start_replay_reachable {σ α : Type} {M : System σ α} {next : σ → α → Option σ}
    (hnext : ∀ s a s', next s a = some s' → M.step s a s') {start : Option σ}
    (hstart : ∀ s, start = some s → M.init s) {actions : List α} {s : σ}
    (h : (start.bind fun s => replay next s actions) = some s) : Reachable M s := by
  obtain ⟨past, run, -⟩ := start_replay_run hnext hstart h
  exact ⟨past, run⟩

/-- An interpreter of a system: the state it starts in is an initial one, and the steps it
computes are steps of the system. -/
structure Executable {σ α : Type} (M : System σ α) where
  start : Option σ
  next : σ → α → Option σ
  start_init : ∀ s, start = some s → M.init s
  next_step : ∀ s a s', next s a = some s' → M.step s a s'

section Executable
variable {σ α : Type} {M : System σ α} (X : Executable M) {actions : List α} {s : σ}

/-- The state after the actions, if each of them can be taken. -/
def Executable.exec (actions : List α) : Option σ :=
  X.start.bind fun s => replay X.next s actions

theorem Executable.exec_run (h : X.exec actions = some s) :
    ∃ past, Run M past s ∧ past.map Prod.snd = actions :=
  start_replay_run X.next_step X.start_init h

theorem Executable.exec_reachable (h : X.exec actions = some s) : Reachable M s :=
  start_replay_reachable X.next_step X.start_init h

end Executable

/-- The invariant rule for what happens after a state. -/
theorem Continues.invariant {inv : σ → Prop} {s s' : σ} (h : Continues M s s') (hs : inv s)
    (hstep : ∀ s a s', inv s → M.step s a s' → inv s') : inv s' := by
  induction h with
  | refl => exact hs
  | tail _ hlast ih =>
    obtain ⟨a, hlast⟩ := hlast
    exact hstep _ _ _ ih hlast

/-- Induction on the last step, which is taken in a reachable state. -/
@[elab_as_elim]
theorem Reachable.induct {motive : ∀ s, Reachable M s → Prop}
    (init : ∀ {s} (h : M.init s), motive s (.init h))
    (step : ∀ {s s' a} (hs : Reachable M s) (h : M.step s a s'), motive s hs →
      motive s' (hs.step h)) {s : σ} (hs : Reachable M s) : motive s hs := by
  obtain ⟨past, run⟩ := hs
  induction run with
  | init h => exact init h
  | step run h ih => exact step ⟨_, run⟩ h ih

/-- The invariant rule. -/
theorem Reachable.invariant {inv : σ → Prop} (hinit : ∀ s, M.init s → inv s)
    (hstep : ∀ s a s', inv s → M.step s a s' → inv s') {s : σ} (hs : Reachable M s) :
    inv s := by
  induction hs using Reachable.induct with
  | init h => exact hinit _ h
  | step _ h ih => exact hstep _ _ _ ih h

/-- The invariant rule for runs whose steps all meet a condition. -/
theorem Run.invariant {inv : σ → Prop} {goodStep : σ → α → Prop}
    (hinit : ∀ s, M.init s → inv s)
    (hstep : ∀ s a s', inv s → goodStep s a → M.step s a s' → inv s')
    {past : List (σ × α)} {s : σ} (run : Run M past s) (h : ∀ p ∈ past, goodStep p.1 p.2) :
    inv s := by
  induction run with
  | init hs => exact hinit _ hs
  | step run hlast ih =>
    simp only [List.mem_append, List.mem_singleton, or_imp, forall_and, forall_eq] at h
    exact hstep _ _ _ (ih h.1) h.2 hlast

/-- The rule of amortized accounting: where each step pays for its cost and for the rise of a
potential, a run costs at most what its steps pay and the potential that it starts with. -/
theorem Run.amortized {potential : σ → ℕ} {cost credit : σ → α → ℕ} {c : ℕ}
    (hinit : ∀ s, M.init s → potential s ≤ c)
    (hstep : ∀ s a s', Reachable M s → M.step s a s' →
      cost s a + potential s' ≤ potential s + credit s a)
    {past : List (σ × α)} {s : σ} (run : Run M past s) :
    (past.map fun p => cost p.1 p.2).sum + potential s ≤
      c + (past.map fun p => credit p.1 p.2).sum := by
  induction run with
  | init h => simpa using hinit _ h
  | step run hlast ih =>
    have hpays := hstep _ _ _ ⟨_, run⟩ hlast
    simp only [List.map_append, List.map_singleton, List.sum_append, List.sum_singleton]
    omega

/-- The invariant rule for runs that stay within a bound which, once exceeded, stays
exceeded; the bound then has to be checked in the last state only. -/
theorem Reachable.invariant_within (bound inv : σ → Prop) (hinit : ∀ s, M.init s → inv s)
    (hmono : ∀ s a s', M.step s a s' → bound s' → bound s)
    (hstep : ∀ s a s', inv s → bound s' → M.step s a s' → inv s')
    {s : σ} (hs : Reachable M s) (hb : bound s) : inv s := by
  induction hs using Reachable.induct with
  | init h => exact hinit _ h
  | step _ h ih => exact hstep _ _ _ (ih (hmono _ _ _ h hb)) hb h

/-- If every step from a good state ends in a good state exactly when the step itself is
good, then a run visits good states only exactly when it takes good steps only. -/
theorem Run.forall_iff {good : σ → Prop} {goodStep : σ → α → Prop}
    (hinit : ∀ s, M.init s → good s)
    (hstep : ∀ s a s', Reachable M s → good s → M.step s a s' → (good s' ↔ goodStep s a))
    {past : List (σ × α)} {s : σ} (run : Run M past s) :
    ((∀ p ∈ past, good p.1) ∧ good s) ↔ ∀ p ∈ past, goodStep p.1 p.2 := by
  induction run with
  | init h => simpa using hinit _ h
  | @step past s s' a run h ih =>
    simp only [List.mem_append, List.mem_singleton, or_imp, forall_and, forall_eq]
    rw [← ih]
    constructor
    · rintro ⟨⟨hp, hs⟩, hs'⟩
      exact ⟨⟨hp, hs⟩, (hstep s a s' ⟨past, run⟩ hs h).mp hs'⟩
    · rintro ⟨⟨hp, hs⟩, ha⟩
      exact ⟨⟨hp, hs⟩, (hstep s a s' ⟨past, run⟩ hs h).mpr ha⟩

end Redpine.Transition

import Mathlib

/-! Fallible machine code. An operation of the program returns `Exec`, whose error
is the reason why the run stops. Overflow and debug assertions stop a run of a debug
build only; a release build wraps around and skips the assertion. -/
namespace Redpine.Machine

inductive Build
  | debug
  | release
  deriving DecidableEq, Repr

/-- Why a run stops; `fuel` would mean that a loop outruns the bound it is given. -/
inductive Panic
  | assertion
  | overflow
  | outOfRange
  | expect (message : String)
  | unreachable (message : String)
  | fuel
  deriving DecidableEq, Repr

abbrev Exec := Except Panic

abbrev U8 := BitVec 8
abbrev U16 := BitVec 16
abbrev U32 := BitVec 32
abbrev U64 := BitVec 64

/-- Byte strings; a boxed slice, a vector and a borrowed slice are all of this type. -/
abbrev Bytes := List U8

section Bind
variable {α β : Type}

@[simp] theorem ok_bind (a : α) (f : α → Exec β) : (Except.ok a >>= f) = f a := rfl

@[simp] theorem error_bind (e : Panic) (f : α → Exec β) :
    ((Except.error e : Exec α) >>= f) = .error e := rfl

@[simp] theorem pure_eq_ok (a : α) : (pure a : Exec α) = .ok a := rfl

theorem bind_eq_ok {x : Exec α} {f : α → Exec β} {b : β} :
    (x >>= f) = .ok b ↔ ∃ a, x = .ok a ∧ f a = .ok b := by
  cases x with
  | error e => simp
  | ok a => simp

theorem toOption_eq_some {x : Exec α} {a : α} : x.toOption = some a ↔ x = .ok a := by
  cases x with
  | error e => simp [Except.toOption]
  | ok b => simp [Except.toOption]

theorem toOption_map_eq_some {x : Exec α} {f : α → β} {b : β} :
    x.toOption.map f = some b ↔ ∃ a, x = .ok a ∧ f a = b := by
  simp only [Option.map_eq_some_iff, toOption_eq_some]

end Bind

def assert (p : Prop) [Decidable p] : Exec Unit :=
  if p then .ok () else .error .assertion

def debugAssert (bd : Build) (p : Prop) [Decidable p] : Exec Unit :=
  if bd = .debug ∧ ¬ p then .error .assertion else .ok ()

/-- The outcome of an operation whose exact result is `n` on a type of `2 ^ w` values. -/
def checked (bd : Build) (w n : ℕ) : Exec ℕ :=
  if n < 2 ^ w then .ok n
  else if bd = .debug then .error .overflow else .ok (n % 2 ^ w)

def checkedAdd (bd : Build) (w a b : ℕ) : Exec ℕ := checked bd w (a + b)

def checkedMul (bd : Build) (w a b : ℕ) : Exec ℕ := checked bd w (a * b)

def checkedSub (bd : Build) (w a b : ℕ) : Exec ℕ :=
  if b ≤ a then .ok (a - b)
  else if bd = .debug then .error .overflow else .ok ((a + 2 ^ w - b) % 2 ^ w)

def saturatingAdd (w a b : ℕ) : ℕ := min (a + b) (2 ^ w - 1)

/-- A shift by the width or more overflows; a release build masks the shift amount. -/
def checkedShl (bd : Build) {w : ℕ} (x : BitVec w) (n : ℕ) : Exec (BitVec w) :=
  if n < w then .ok (x <<< n)
  else if bd = .debug then .error .overflow else .ok (x <<< (n % w))

def checkedShr (bd : Build) {w : ℕ} (x : BitVec w) (n : ℕ) : Exec (BitVec w) :=
  if n < w then .ok (x >>> n)
  else if bd = .debug then .error .overflow else .ok (x >>> (n % w))

/-- The subslice `xs[a..b]`. -/
def slice {α : Type} (xs : List α) (a b : ℕ) : Exec (List α) :=
  if a ≤ b ∧ b ≤ xs.length then .ok ((xs.drop a).take (b - a)) else .error .outOfRange

/-- The element `xs[i]`. -/
def index {α : Type} (xs : List α) (i : ℕ) : Exec α :=
  match xs[i]? with
  | some x => .ok x
  | none => .error .outOfRange

/-- The assignment `xs[i] = x`. -/
def update {α : Type} (xs : List α) (i : ℕ) (x : α) : Exec (List α) :=
  if i < xs.length then .ok (xs.set i x) else .error .outOfRange

section Spec
variable {bd : Build} {w a b n : ℕ}

theorem assert_eq_ok {p : Prop} [Decidable p] {u : Unit} : assert p = .ok u ↔ p := by
  unfold assert
  split_ifs with h <;> simp [h]

@[simp] theorem assert_true {p : Prop} [Decidable p] (h : p) : assert p = .ok () := by
  simp [assert, h]

theorem debugAssert_eq_ok {p : Prop} [Decidable p] {u : Unit} :
    debugAssert bd p = .ok u ↔ (bd = .debug → p) := by
  unfold debugAssert
  split_ifs with h
  · simpa using h
  · simpa using h

@[simp] theorem debugAssert_true {p : Prop} [Decidable p] (h : p) :
    debugAssert bd p = .ok () := by
  simp [debugAssert, h]

@[simp] theorem checked_of_lt (h : n < 2 ^ w) : checked bd w n = .ok n := by
  simp [checked, h]

theorem checkedAdd_of_lt (h : a + b < 2 ^ w) : checkedAdd bd w a b = .ok (a + b) :=
  checked_of_lt h

/-- A machine sum is at most the exact sum. -/
theorem checkedAdd_le (h : checkedAdd bd w a b = .ok n) : n ≤ a + b := by
  unfold checkedAdd checked at h
  split_ifs at h
  · cases h
    exact le_rfl
  · cases h
    exact Nat.mod_le _ _

/-- In a release build, a sum wraps around. -/
theorem checkedAdd_release (w a b : ℕ) :
    checkedAdd .release w a b = .ok ((a + b) % 2 ^ w) := by
  unfold checkedAdd checked
  by_cases h : a + b < 2 ^ w
  · rw [if_pos h, Nat.mod_eq_of_lt h]
  · rw [if_neg h, if_neg (by decide)]

theorem checkedMul_of_lt (h : a * b < 2 ^ w) : checkedMul bd w a b = .ok (a * b) :=
  checked_of_lt h

theorem checkedSub_of_le (h : b ≤ a) : checkedSub bd w a b = .ok (a - b) := by
  simp [checkedSub, h]

theorem checkedShl_of_lt {x : BitVec w} (h : n < w) :
    checkedShl bd x n = .ok (x <<< n) := by
  simp [checkedShl, h]

theorem checkedShr_of_lt {x : BitVec w} (h : n < w) :
    checkedShr bd x n = .ok (x >>> n) := by
  simp [checkedShr, h]

theorem index_eq_ok {α : Type} {xs : List α} {i : ℕ} {x : α} :
    index xs i = .ok x ↔ xs[i]? = some x := by
  unfold index
  split <;> simp_all

theorem update_of_lt {α : Type} {xs : List α} {i : ℕ} {x : α} (h : i < xs.length) :
    update xs i x = .ok (xs.set i x) := by
  simp [update, h]

theorem slice_of_le {α : Type} {xs : List α} {i j : ℕ} (h : i ≤ j) (hj : j ≤ xs.length) :
    slice xs i j = .ok ((xs.drop i).take (j - i)) := by
  simp [slice, h, hj]

end Spec

/-- A computation either ends in a result that satisfies `post`, or fails, which it does
only where `safe` does not hold. With `safe` false this is partial correctness; with
`safe` true the computation does not fail. -/
def Outcome {α : Type} (safe : Prop) (x : Exec α) (post : α → Prop) : Prop :=
  match x with
  | .ok a => post a
  | .error _ => ¬ safe

section Outcome
variable {α β : Type} {safe : Prop} {x : Exec α} {a : α} {mid post post' : α → Prop}

theorem Outcome.of_eq (hx : x = .ok a) (h : post a) : Outcome safe x post := by
  rw [hx]
  exact h

/-- A computation that does not fail where `safe` holds ends in its own result. -/
theorem Outcome.self (h : safe → ∃ a, x = .ok a) : Outcome safe x (fun a => x = .ok a) := by
  cases x with
  | error e =>
    intro hs
    obtain ⟨a, ha⟩ := h hs
    cases ha
  | ok a => exact rfl

theorem Outcome.weaken (h : Outcome safe x post) (hp : ∀ a, post a → post' a) :
    Outcome safe x post' := by
  cases x with
  | error e => exact h
  | ok a => exact hp a h

theorem Outcome.bind {f : α → Exec β} {last : β → Prop} (hx : Outcome safe x mid)
    (hf : ∀ a, mid a → Outcome safe (f a) last) : Outcome safe (x >>= f) last := by
  cases x with
  | error e => exact hx
  | ok a => exact hf a hx

theorem Outcome.elim (h : Outcome safe x post) (hx : x = .ok a) : post a := by
  rw [hx] at h
  exact h

theorem Outcome.exists_ok (h : Outcome safe x post) (hs : safe) : ∃ a, x = .ok a ∧ post a := by
  cases x with
  | error e => exact absurd hs h
  | ok a => exact ⟨a, rfl, h⟩

theorem debugAssert_outcome {bd : Build} {p : Prop} [Decidable p] (h : safe → bd = .debug → p) :
    Outcome safe (debugAssert bd p) (fun _ => True) := by
  unfold debugAssert
  split_ifs with hp
  · exact fun hs => hp.2 (h hs hp.1)
  · trivial

theorem checked_outcome {bd : Build} {w n : ℕ} (h : safe → n < 2 ^ w) :
    Outcome safe (checked bd w n) (fun t => safe → t = n) := by
  unfold checked
  split_ifs with hlt hd
  · exact fun _ => rfl
  · exact fun hs => hlt (h hs)
  · exact fun hs => absurd (h hs) hlt

theorem checkedAdd_outcome {bd : Build} {w m n : ℕ} (h : safe → m + n < 2 ^ w) :
    Outcome safe (checkedAdd bd w m n) (fun t => safe → t = m + n) :=
  checked_outcome h

theorem checkedSub_outcome {bd : Build} {w m n : ℕ} (h : safe → n ≤ m) :
    Outcome safe (checkedSub bd w m n) (fun t => safe → t = m - n) := by
  unfold checkedSub
  split_ifs with hlt hd
  · exact fun _ => rfl
  · exact fun hs => hlt (h hs)
  · exact fun hs => absurd (h hs) hlt

-- Elaboration must not run a computation to see its outcome.
attribute [irreducible] Outcome

end Outcome

/-- `total` is the machine sum of quantities whose exact sum is `exact`: the sum itself
in a debug build, and the sum modulo the word size in a release build. -/
def Accounts (bd : Build) (w total exact : ℕ) : Prop :=
  total = exact % 2 ^ w ∧ (bd = .debug → exact < 2 ^ w)

section Accounts
variable {bd : Build} {w total exact x t : ℕ}

theorem accounts_zero : Accounts bd w 0 0 := by
  simp [Accounts]

theorem Accounts.add (h : Accounts bd w total exact) (ht : checkedAdd bd w total x = .ok t) :
    Accounts bd w t (exact + x) := by
  obtain ⟨rfl, hlt⟩ := h
  unfold checkedAdd checked at ht
  split_ifs at ht with hn hd
  · cases ht
    refine ⟨by rw [← Nat.mod_eq_of_lt hn, Nat.mod_add_mod], fun hd => ?_⟩
    rwa [Nat.mod_eq_of_lt (hlt hd)] at hn
  · cases ht
    exact ⟨Nat.mod_add_mod _ _ _, fun h => absurd h hd⟩

/-- Taking back one summand never overflows. -/
theorem Accounts.sub (h : Accounts bd w total (x + exact)) (hx : x < 2 ^ w) :
    ∃ t, checkedSub bd w total x = .ok t ∧ Accounts bd w t exact := by
  obtain ⟨rfl, hlt⟩ := h
  have hpos : 0 < 2 ^ w := Nat.two_pow_pos w
  have hcancel : ∀ y, (y + x) % 2 ^ w = (exact + x) % 2 ^ w → y % 2 ^ w = exact % 2 ^ w :=
    fun y hy => Nat.ModEq.add_right_cancel' x hy
  unfold checkedSub
  split_ifs with hle hd
  · refine ⟨_, rfl, ?_, fun hd => by have := hlt hd; omega⟩
    have hmod := Nat.mod_lt (x + exact) hpos
    rw [← Nat.mod_eq_of_lt (show (x + exact) % 2 ^ w - x < 2 ^ w by omega)]
    apply hcancel
    rw [Nat.sub_add_cancel hle, Nat.mod_mod, Nat.add_comm]
  · have := Nat.mod_eq_of_lt (hlt hd)
    omega
  · refine ⟨_, rfl, ?_, fun h => absurd h hd⟩
    apply hcancel
    rw [Nat.sub_add_cancel (by omega), Nat.add_mod_right, Nat.mod_mod, Nat.add_comm]

end Accounts

end Redpine.Machine

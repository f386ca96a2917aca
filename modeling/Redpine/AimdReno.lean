import Redpine.Machine

/-! Congestion control: `endpoint/cc.rs`. Quantities in Q16 are natural numbers; the
operations the source leaves unchecked are checked for overflow. -/
namespace Redpine
open Machine

inductive AimdReno.Mode
  | unboundedSlowStart
  | thresholdSlowStart (ssthresh : ℕ)
  | congestionAvoidance
  deriving DecidableEq, Repr

structure AimdReno where
  mode : AimdReno.Mode
  mssQ16 : ℕ
  cwndQ16 : ℕ
  dropcntQ16 : ℕ
  deriving DecidableEq, Repr

namespace AimdReno

def initialCwndMss : ℕ := 10

def new (mss : ℕ) : Exec AimdReno := do
  assert (mss ≤ 65535)
  return ⟨.unboundedSlowStart, mss * 2 ^ 16, initialCwndMss * mss * 2 ^ 16, 0⟩

def checkedDiv (a b : ℕ) : Exec ℕ :=
  if b = 0 then .error (.unreachable "attempt to divide by zero") else .ok (a / b)

def handleAck (bd : Build) (c : AimdReno) : Exec AimdReno :=
  let dropcnt := if c.mssQ16 < c.dropcntQ16 then c.dropcntQ16 - c.mssQ16 else 0
  let c := { c with dropcntQ16 := dropcnt }
  match c.mode with
  | .unboundedSlowStart => .ok { c with cwndQ16 := saturatingAdd 64 c.cwndQ16 c.mssQ16 }
  | .thresholdSlowStart ssthresh =>
      let newCwndQ16 := saturatingAdd 64 c.cwndQ16 c.mssQ16
      if ssthresh ≤ newCwndQ16 then
        .ok { c with cwndQ16 := ssthresh, mode := .congestionAvoidance }
      else .ok { c with cwndQ16 := newCwndQ16 }
  | .congestionAvoidance => do
      let square ← checkedMul bd 64 c.mssQ16 c.mssQ16
      let sum ← checkedAdd bd 64 square (c.cwndQ16 / 2)
      let cwndInvQ16 ← checkedDiv sum c.cwndQ16
      return { c with cwndQ16 := saturatingAdd 64 c.cwndQ16 cwndInvQ16 }

def handleTimeout (bd : Build) (c : AimdReno) : Exec AimdReno := do
  let cwndMinQ16 ← checkedMul bd 64 initialCwndMss c.mssQ16
  return {
    c with
    cwndQ16 := cwndMinQ16
    dropcntQ16 := 0
    mode := .thresholdSlowStart (max (c.cwndQ16 / 2) cwndMinQ16) }

def handleDrop (bd : Build) (c : AimdReno) : Exec AimdReno := do
  let cwndMinQ16 ← checkedMul bd 64 initialCwndMss c.mssQ16
  if c.dropcntQ16 = 0 then
    let newCwndQ16 := max (c.cwndQ16 / 2) cwndMinQ16
    return {
      c with
      cwndQ16 := newCwndQ16
      dropcntQ16 := newCwndQ16
      mode := .congestionAvoidance }
  else return c

/-- The value always fits into `usize`. -/
def cwnd (c : AimdReno) : ℕ := c.cwndQ16 / 2 ^ 16

/-- The smallest window for a segment size of 1024 bytes. -/
def cwndMin : ℕ := initialCwndMss * 2 ^ 26

/-- The window never falls below the initial one, so that no operation divides by zero or
overflows. -/
structure Bounded (c : AimdReno) : Prop where
  mss_eq : c.mssQ16 = 2 ^ 26
  cwnd_ge : cwndMin ≤ c.cwndQ16
  cwnd_lt : c.cwndQ16 < 2 ^ 64
  threshold : ∀ t, c.mode = .thresholdSlowStart t → cwndMin ≤ t ∧ t < 2 ^ 64

section Bounded
variable {bd : Build} {c : AimdReno}

lemma cwndMin_eq : cwndMin = 671088640 := rfl

lemma new_bounded (h : new 1024 = .ok c) : c.Bounded := by
  unfold new at h
  obtain ⟨u, -, h⟩ := bind_eq_ok.mp h
  simp only [pure_eq_ok, Except.ok.injEq] at h
  subst h
  refine ⟨by norm_num, ?_, ?_, fun t ht => by cases ht⟩
  · rw [cwndMin_eq]
    norm_num [initialCwndMss]
  · norm_num [initialCwndMss]

lemma saturatingAdd_bounds {a b : ℕ} (ha : cwndMin ≤ a) :
    cwndMin ≤ saturatingAdd 64 a b ∧ saturatingAdd 64 a b < 2 ^ 64 := by
  rw [cwndMin_eq] at *
  have hmax : (2 : ℕ) ^ 64 = 18446744073709551616 := by norm_num
  unfold saturatingAdd
  omega

lemma max_half_bounds {a : ℕ} (ha : a < 2 ^ 64) :
    cwndMin ≤ max (a / 2) cwndMin ∧ max (a / 2) cwndMin < 2 ^ 64 := by
  have hmin : cwndMin < 2 ^ 64 := by norm_num [cwndMin_eq]
  exact ⟨le_max_right _ _, max_lt (by omega) hmin⟩

theorem Bounded.handleAck (bd : Build) (h : c.Bounded) :
    ∃ c', c.handleAck bd = .ok c' ∧ c'.Bounded := by
  have hge := h.cwnd_ge
  have hlt := h.cwnd_lt
  have hmss := h.mss_eq
  unfold AimdReno.handleAck
  cases hmode : c.mode with
  | unboundedSlowStart =>
    obtain ⟨hlo, hhi⟩ := saturatingAdd_bounds (b := c.mssQ16) hge
    exact ⟨_, rfl, hmss, hlo, hhi, fun t ht => by simp at ht⟩
  | thresholdSlowStart t =>
    obtain ⟨hlo, hhi⟩ := saturatingAdd_bounds (b := c.mssQ16) hge
    obtain ⟨htlo, hthi⟩ := h.threshold t hmode
    dsimp only
    by_cases hreached : t ≤ saturatingAdd 64 c.cwndQ16 c.mssQ16
    · rw [if_pos hreached]
      exact ⟨_, rfl, hmss, htlo, hthi, fun t' ht => by simp at ht⟩
    · rw [if_neg hreached]
      refine ⟨_, rfl, hmss, hlo, hhi, fun t' ht => ?_⟩
      simp only [Mode.thresholdSlowStart.injEq] at ht
      exact ht ▸ ⟨htlo, hthi⟩
  | congestionAvoidance =>
    have hsquare : c.mssQ16 * c.mssQ16 = 2 ^ 52 := by rw [hmss, ← pow_add]
    have hsum : c.mssQ16 * c.mssQ16 + c.cwndQ16 / 2 < 2 ^ 64 := by
      rw [hsquare]
      omega
    have hpos : c.cwndQ16 ≠ 0 := by
      rw [cwndMin_eq] at hge
      omega
    dsimp only
    rw [checkedMul_of_lt (by rw [hsquare]; norm_num), ok_bind, checkedAdd_of_lt hsum, ok_bind,
      checkedDiv, if_neg hpos, ok_bind]
    obtain ⟨hlo, hhi⟩ := saturatingAdd_bounds
      (b := (c.mssQ16 * c.mssQ16 + c.cwndQ16 / 2) / c.cwndQ16) hge
    exact ⟨_, rfl, hmss, hlo, hhi, fun t ht => by simp at ht⟩

lemma Bounded.checkedMul_mss (bd : Build) (h : c.Bounded) :
    checkedMul bd 64 initialCwndMss c.mssQ16 = .ok cwndMin := by
  rw [h.mss_eq]
  exact checkedMul_of_lt (by norm_num [initialCwndMss])

theorem Bounded.handleTimeout (bd : Build) (h : c.Bounded) :
    ∃ c', c.handleTimeout bd = .ok c' ∧ c'.Bounded := by
  unfold AimdReno.handleTimeout
  rw [h.checkedMul_mss bd, ok_bind]
  refine ⟨_, rfl, h.mss_eq, le_rfl, by norm_num [cwndMin_eq], fun t ht => ?_⟩
  simp only [Mode.thresholdSlowStart.injEq] at ht
  exact ht ▸ max_half_bounds h.cwnd_lt

theorem Bounded.handleDrop (bd : Build) (h : c.Bounded) :
    ∃ c', c.handleDrop bd = .ok c' ∧ c'.Bounded := by
  unfold AimdReno.handleDrop
  rw [h.checkedMul_mss bd, ok_bind]
  by_cases hdrop : c.dropcntQ16 = 0
  · rw [if_pos hdrop]
    obtain ⟨hlo, hhi⟩ := max_half_bounds h.cwnd_lt
    exact ⟨_, rfl, h.mss_eq, hlo, hhi, fun t ht => by simp at ht⟩
  · rw [if_neg hdrop]
    exact ⟨_, rfl, h⟩

lemma Bounded.cwnd_pos (h : c.Bounded) : 0 < c.cwnd := by
  have := h.cwnd_ge
  rw [cwndMin_eq] at this
  unfold cwnd
  omega

end Bounded

end AimdReno

end Redpine

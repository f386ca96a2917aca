import Redpine.AimdReno
import Redpine.Transition

/-! The congestion window over any order of acknowledgements, drops and timeouts: its bounds, which
segment sizes keep the arithmetic within 64 bits, and that it is halved once per window. -/
namespace Redpine.AimdReno
open Machine Transition

inductive Event
  | ack
  | drop
  | timeout
  deriving DecidableEq, Repr

def handle (bd : Build) (c : AimdReno) : Event → Exec AimdReno
  | .ack => c.handleAck bd
  | .drop => c.handleDrop bd
  | .timeout => c.handleTimeout bd

def congestion (bd : Build) (mss : ℕ) : System AimdReno Event where
  init c := new mss = .ok c
  step c e c' := c.handle bd e = .ok c'

def cwndMinQ16 (c : AimdReno) : ℕ := initialCwndMss * c.mssQ16

/-- Half of the window, but not less than the initial one. -/
def halved (c : AimdReno) : ℕ := max (c.cwndQ16 / 2) c.cwndMinQ16

/-- What holds of the window at all times. -/
structure Window (mss : ℕ) (c : AimdReno) : Prop where
  mss_pos : 1 ≤ mss
  mss_le : mss ≤ 65535
  mss_eq : c.mssQ16 = mss * 2 ^ 16
  cwnd_ge : c.cwndMinQ16 ≤ c.cwndQ16
  cwnd_lt : c.cwndQ16 < 2 ^ 64
  threshold : ∀ t, c.mode = .thresholdSlowStart t → c.cwndQ16 ≤ t ∧ t < 2 ^ 64

/-- What an acknowledgement does. -/
structure Acked (c c' : AimdReno) : Prop where
  mss_eq : c'.mssQ16 = c.mssQ16
  dropcnt_eq : c'.dropcntQ16 = c.dropcntQ16 - c.mssQ16
  cwnd_ge : c.cwndQ16 ≤ c'.cwndQ16
  cwnd_le : c'.cwndQ16 ≤ c.cwndQ16 + c.mssQ16
  cwnd_lt : c'.cwndQ16 < 2 ^ 64
  threshold : ∀ t, c'.mode = .thresholdSlowStart t →
    c.mode = .thresholdSlowStart t ∧ c'.cwndQ16 ≤ t

section Saturation
variable {w a b : ℕ}

lemma le_saturatingAdd (ha : a < 2 ^ w) : a ≤ saturatingAdd w a b :=
  le_min (Nat.le_add_right a b) (Nat.le_sub_one_of_lt ha)

lemma saturatingAdd_le (w a b : ℕ) : saturatingAdd w a b ≤ a + b := min_le_left _ _

lemma saturatingAdd_lt (w a b : ℕ) : saturatingAdd w a b < 2 ^ w :=
  lt_of_le_of_lt (min_le_right _ _) (Nat.sub_lt (Nat.two_pow_pos w) Nat.one_pos)

lemma checkedAdd_ok_iff {bd : Build} :
    (∃ n, checkedAdd bd w a b = .ok n) ↔ (bd = .debug → a + b < 2 ^ w) := by
  unfold checkedAdd checked
  by_cases hlt : a + b < 2 ^ w
  · rw [if_pos hlt]
    exact ⟨fun _ _ => hlt, fun _ => ⟨_, rfl⟩⟩
  · rw [if_neg hlt]
    cases bd with
    | debug => exact ⟨fun ⟨n, hn⟩ => (by cases hn), fun hdebug => absurd (hdebug rfl) hlt⟩
    | release => exact ⟨fun _ hdebug => (by cases hdebug), fun _ => ⟨_, rfl⟩⟩

end Saturation

namespace Window
variable {mss : ℕ} {c c' : AimdReno} {bd : Build}

lemma new (hpos : 1 ≤ mss) (h : AimdReno.new mss = .ok c) : Window mss c := by
  unfold AimdReno.new at h
  obtain ⟨u, hle, h⟩ := bind_eq_ok.mp h
  rw [assert_eq_ok] at hle
  cases h
  refine ⟨hpos, hle, rfl, ?_, ?_, fun t ht => by cases ht⟩
  · simp only [cwndMinQ16, initialCwndMss]
    omega
  · simp only [initialCwndMss]
    omega

variable (h : Window mss c)
include h

lemma mssQ16_pos : 0 < c.mssQ16 := by
  have hpos := h.mss_pos
  rw [h.mss_eq]
  omega

lemma mssQ16_lt : c.mssQ16 < 2 ^ 32 := by
  have hle := h.mss_le
  rw [h.mss_eq]
  omega

lemma square_lt : c.mssQ16 * c.mssQ16 < 2 ^ 64 := by
  have hsquare := Nat.mul_lt_mul'' h.mssQ16_lt h.mssQ16_lt
  rwa [← pow_add] at hsquare

lemma checkedMul_square (bd : Build) :
    checkedMul bd 64 c.mssQ16 c.mssQ16 = .ok (c.mssQ16 * c.mssQ16) :=
  checkedMul_of_lt h.square_lt

lemma cwndMin_lt : c.cwndMinQ16 < 2 ^ 64 := h.cwnd_ge.trans_lt h.cwnd_lt

lemma checkedMul_cwndMin (bd : Build) :
    checkedMul bd 64 initialCwndMss c.mssQ16 = .ok c.cwndMinQ16 :=
  checkedMul_of_lt h.cwndMin_lt

lemma mss_le_cwnd : c.mssQ16 ≤ c.cwndQ16 := by
  have hge := h.cwnd_ge
  simp only [cwndMinQ16, initialCwndMss] at hge
  omega

lemma cwnd_pos : 0 < c.cwndQ16 := h.mssQ16_pos.trans_le h.mss_le_cwnd

lemma halved_lt : c.halved < 2 ^ 64 :=
  max_lt ((Nat.div_le_self _ _).trans_lt h.cwnd_lt) h.cwndMin_lt

/-- Congestion avoidance is never faster than slow start. -/
lemma increment_le {n : ℕ} (hn : n ≤ c.mssQ16 * c.mssQ16 + c.cwndQ16 / 2) :
    n / c.cwndQ16 ≤ c.mssQ16 := by
  have hsquare := Nat.mul_le_mul_left c.mssQ16 h.mss_le_cwnd
  have hhalf := Nat.div_lt_self h.cwnd_pos Nat.one_lt_two
  refine Nat.le_of_lt_succ ((Nat.div_lt_iff_lt_mul h.cwnd_pos).mpr ?_)
  rw [Nat.succ_mul]
  omega

lemma handleAck (hack : c.handleAck bd = .ok c') : Acked c c' := by
  have hlt := h.cwnd_lt
  have hdropcnt : (if c.mssQ16 < c.dropcntQ16 then c.dropcntQ16 - c.mssQ16 else 0) =
      c.dropcntQ16 - c.mssQ16 := by
    split_ifs <;> omega
  unfold AimdReno.handleAck at hack
  rw [hdropcnt] at hack
  cases hmode : c.mode with
  | unboundedSlowStart =>
    simp only [hmode] at hack
    cases hack
    exact ⟨rfl, rfl, le_saturatingAdd hlt, saturatingAdd_le _ _ _, saturatingAdd_lt _ _ _,
      fun t ht => by cases ht⟩
  | thresholdSlowStart t =>
    obtain ⟨hle, htlt⟩ := h.threshold t hmode
    simp only [hmode] at hack
    by_cases hreached : t ≤ saturatingAdd 64 c.cwndQ16 c.mssQ16
    · rw [if_pos hreached] at hack
      cases hack
      exact ⟨rfl, rfl, hle, hreached.trans (saturatingAdd_le _ _ _), htlt, fun t ht => by cases ht⟩
    · rw [if_neg hreached] at hack
      cases hack
      refine ⟨rfl, rfl, le_saturatingAdd hlt, saturatingAdd_le _ _ _, saturatingAdd_lt _ _ _,
        fun t' ht => ?_⟩
      cases ht
      exact ⟨hmode, (Nat.lt_of_not_le hreached).le⟩
  | congestionAvoidance =>
    simp only [hmode] at hack
    rw [h.checkedMul_square, ok_bind] at hack
    obtain ⟨n, hsum, hack⟩ := bind_eq_ok.mp hack
    rw [checkedDiv, if_neg h.cwnd_pos.ne', ok_bind] at hack
    cases hack
    have hincrement := h.increment_le (checkedAdd_le hsum)
    exact ⟨rfl, rfl, le_saturatingAdd hlt,
      (saturatingAdd_le _ _ _).trans (Nat.add_le_add_left hincrement _), saturatingAdd_lt _ _ _,
      fun t ht => by cases ht⟩

lemma acked (hacked : Acked c c') : Window mss c' := by
  refine ⟨h.mss_pos, h.mss_le, hacked.mss_eq.trans h.mss_eq, ?_, hacked.cwnd_lt, fun t ht => ?_⟩
  · rw [cwndMinQ16, hacked.mss_eq]
    exact h.cwnd_ge.trans hacked.cwnd_ge
  · obtain ⟨hmode, hle⟩ := hacked.threshold t ht
    exact ⟨hle, (h.threshold t hmode).2⟩

lemma handleDrop_eq (bd : Build) :
    c.handleDrop bd = .ok (if c.dropcntQ16 = 0 then
      { c with cwndQ16 := c.halved, dropcntQ16 := c.halved, mode := .congestionAvoidance }
      else c) := by
  unfold AimdReno.handleDrop
  rw [h.checkedMul_cwndMin, ok_bind]
  split_ifs <;> rfl

lemma handleTimeout_eq (bd : Build) :
    c.handleTimeout bd = .ok { c with
      cwndQ16 := c.cwndMinQ16, dropcntQ16 := 0, mode := .thresholdSlowStart c.halved } := by
  unfold AimdReno.handleTimeout
  rw [h.checkedMul_cwndMin, ok_bind]
  rfl

/-- The invariant is kept by every event that is handled. -/
lemma handle {e : Event} (hstep : c.handle bd e = .ok c') : Window mss c' := by
  cases e with
  | ack => exact h.acked (h.handleAck hstep)
  | drop =>
    have hdrop := (h.handleDrop_eq bd).symm.trans hstep
    cases hdrop
    split_ifs
    · exact ⟨h.mss_pos, h.mss_le, h.mss_eq, le_max_right _ _, h.halved_lt, fun t ht => by cases ht⟩
    · exact h
  | timeout =>
    have htimeout := (h.handleTimeout_eq bd).symm.trans hstep
    cases htimeout
    refine ⟨h.mss_pos, h.mss_le, h.mss_eq, le_rfl, h.cwndMin_lt, fun t ht => ?_⟩
    cases ht
    exact ⟨le_max_right _ _, h.halved_lt⟩

/-- Only the sum of congestion avoidance can overflow. -/
lemma handleAck_ok_iff : (∃ c', c.handleAck bd = .ok c') ↔
    (c.mode = .congestionAvoidance → bd = .debug →
      c.mssQ16 * c.mssQ16 + c.cwndQ16 / 2 < 2 ^ 64) := by
  unfold AimdReno.handleAck
  cases hmode : c.mode with
  | unboundedSlowStart => exact ⟨fun _ hno => (by cases hno), fun _ => ⟨_, rfl⟩⟩
  | thresholdSlowStart t =>
    refine ⟨fun _ hno => (by cases hno), fun _ => ?_⟩
    dsimp only
    split_ifs <;> exact ⟨_, rfl⟩
  | congestionAvoidance =>
    dsimp only
    rw [h.checkedMul_square, ok_bind]
    constructor
    · rintro ⟨c', hack⟩ -
      obtain ⟨n, hsum, -⟩ := bind_eq_ok.mp hack
      exact checkedAdd_ok_iff.mp ⟨n, hsum⟩
    · intro hfits
      obtain ⟨n, hsum⟩ := checkedAdd_ok_iff.mpr (hfits rfl)
      rw [hsum, ok_bind, checkedDiv, if_neg h.cwnd_pos.ne', ok_bind]
      exact ⟨_, rfl⟩

/-- Drops and timeouts are always handled. -/
lemma handle_ok_iff (e : Event) : (∃ c', c.handle bd e = .ok c') ↔
    (e = .ack → c.mode = .congestionAvoidance → bd = .debug →
      c.mssQ16 * c.mssQ16 + c.cwndQ16 / 2 < 2 ^ 64) := by
  cases e with
  | ack => exact h.handleAck_ok_iff.trans ⟨fun hfits _ => hfits, fun hfits => hfits rfl⟩
  | drop => exact ⟨fun _ hno => (by cases hno), fun _ => ⟨_, h.handleDrop_eq bd⟩⟩
  | timeout => exact ⟨fun _ hno => (by cases hno), fun _ => ⟨_, h.handleTimeout_eq bd⟩⟩

end Window

lemma window_of_reachable {bd : Build} {mss : ℕ} (hpos : 1 ≤ mss) {c : AimdReno}
    (hc : Reachable (congestion bd mss) c) : Window mss c := by
  induction hc using Reachable.induct with
  | init hinit => exact Window.new hpos hinit
  | step hc hstep ih => exact ih.handle hstep

/-- The window stays within its bounds, and without overflow checks every event is handled. -/
theorem window_invariants (bd : Build) (mss : ℕ) (hpos : 1 ≤ mss) {c : AimdReno}
    (hc : Reachable (congestion bd mss) c) :
    initialCwndMss * c.mssQ16 ≤ c.cwndQ16 ∧ c.cwndQ16 ≠ 0 ∧
      (∀ t, c.mode = .thresholdSlowStart t → c.cwndQ16 ≤ t) ∧
      (∀ c', c.handleAck bd = .ok c' →
        c.cwndQ16 ≤ c'.cwndQ16 ∧ c'.cwndQ16 ≤ c.cwndQ16 + c.mssQ16) ∧
      ∀ e, bd = .release → ∃ c', c.handle bd e = .ok c' := by
  have h := window_of_reachable hpos hc
  refine ⟨h.cwnd_ge, h.cwnd_pos.ne', fun t ht => (h.threshold t ht).1, fun c' hack => ?_,
    fun e hrelease => ?_⟩
  · have hacked := h.handleAck hack
    exact ⟨hacked.cwnd_ge, hacked.cwnd_le⟩
  · refine (h.handle_ok_iff e).mpr fun _ _ hdebug => ?_
    cases hrelease.symm.trans hdebug

/-- A timeout before anything was sent. -/
theorem window_invariants_timeout :
    ∃ c, Reachable (congestion .release 1024) c ∧
      c.mode = .thresholdSlowStart c.cwndQ16 ∧ initialCwndMss * c.mssQ16 ≤ c.cwndQ16 := by
  have hstart : Reachable (congestion .release 1024)
      ⟨.unboundedSlowStart, 67108864, 671088640, 0⟩ := .init rfl
  have hc : Reachable (congestion .release 1024)
      ⟨.thresholdSlowStart 671088640, 67108864, 671088640, 0⟩ :=
    hstart.step (a := .timeout) rfl
  exact ⟨_, hc, rfl, (window_invariants .release 1024 (by decide) hc).1⟩

section Overflow
variable {bd : Build} {mss : ℕ} {c : AimdReno}

/-- The largest segment size of which the square leaves room for half of any window. -/
def mssFit : ℕ := 46340

lemma Window.square_eq (h : Window mss c) : c.mssQ16 * c.mssQ16 = mss * mss * 2 ^ 32 := by
  rw [h.mss_eq]
  ring

lemma Window.sum_lt (h : Window mss c) (hfit : mss ≤ mssFit) :
    c.mssQ16 * c.mssQ16 + c.cwndQ16 / 2 < 2 ^ 64 := by
  have hlt := h.cwnd_lt
  have hsquare := Nat.mul_le_mul hfit hfit
  simp only [mssFit] at hsquare
  rw [h.square_eq]
  omega

/-- Beyond that the square alone takes up more than half of the range. -/
lemma Window.square_gt (h : Window mss c) (hfit : mssFit < mss) :
    2 ^ 63 < c.mssQ16 * c.mssQ16 := by
  have hsquare := Nat.mul_le_mul (Nat.succ_le_of_lt hfit) (Nat.succ_le_of_lt hfit)
  simp only [mssFit] at hsquare
  rw [h.square_eq]
  omega

lemma Window.handleAck_avoidance (h : Window mss c) (hmode : c.mode = .congestionAvoidance)
    (hsum : c.mssQ16 * c.mssQ16 + c.cwndQ16 / 2 < 2 ^ 64) :
    ∃ c', c.handleAck bd = .ok c' ∧ c'.mode = .congestionAvoidance ∧
      c'.cwndQ16 = saturatingAdd 64 c.cwndQ16
        ((c.mssQ16 * c.mssQ16 + c.cwndQ16 / 2) / c.cwndQ16) := by
  unfold AimdReno.handleAck
  simp only [hmode]
  rw [h.checkedMul_square, ok_bind, checkedAdd_of_lt hsum, ok_bind, checkedDiv,
    if_neg h.cwnd_pos.ne', ok_bind]
  exact ⟨_, rfl, rfl, rfl⟩

/-- A window in congestion avoidance grows until the sum overflows. -/
lemma overflow_of_avoidance (hfit : mssFit < mss) (hpos : 1 ≤ mss)
    (hc : Reachable (congestion .debug mss) c) (hmode : c.mode = .congestionAvoidance) :
    ∃ c', Reachable (congestion .debug mss) c' ∧ ¬ ∃ c'', c'.handle .debug .ack = .ok c'' := by
  induction hroom : 2 ^ 64 - c.cwndQ16 using Nat.strong_induction_on generalizing c with
  | _ room ih =>
    have h := window_of_reachable hpos hc
    by_cases hsum : c.mssQ16 * c.mssQ16 + c.cwndQ16 / 2 < 2 ^ 64
    swap
    · refine ⟨c, hc, fun hack => hsum ?_⟩
      exact (h.handle_ok_iff .ack).mp hack rfl hmode rfl
    obtain ⟨c', hack, hmode', hcwnd⟩ := h.handleAck_avoidance hmode hsum
    have hlarge := h.square_gt hfit
    have hincrement : 1 ≤ (c.mssQ16 * c.mssQ16 + c.cwndQ16 / 2) / c.cwndQ16 := by
      have hlt := h.cwnd_lt
      rw [Nat.one_le_div_iff h.cwnd_pos]
      omega
    have hgrow : c.cwndQ16 + 1 ≤ c'.cwndQ16 := by
      rw [hcwnd]
      exact le_min (Nat.add_le_add_left hincrement _) (by omega)
    exact ih _ (by omega) (hc.step (a := .ack) hack) hmode' rfl

lemma overflow_reachable (hfit : mssFit < mss) (hmax : mss ≤ 65535) :
    ∃ c, Reachable (congestion .debug mss) c ∧ ¬ ∃ c', c.handle .debug .ack = .ok c' := by
  have hpos : 1 ≤ mss := Nat.one_le_of_lt hfit
  obtain ⟨c, hnew, hdropcnt⟩ : ∃ c, AimdReno.new mss = .ok c ∧ c.dropcntQ16 = 0 := by
    unfold AimdReno.new
    rw [assert_true hmax, ok_bind]
    exact ⟨_, rfl, rfl⟩
  have hdrop := (Window.new hpos hnew).handleDrop_eq .debug
  rw [if_pos hdropcnt] at hdrop
  have hc : Reachable (congestion .debug mss) c := .init hnew
  exact overflow_of_avoidance hfit hpos (hc.step (a := .drop) hdrop) rfl

/-- The arithmetic never overflows if and only if the segment size is at most 46340. -/
theorem never_overflows_iff (mss : ℕ) (hpos : 1 ≤ mss) (hmax : mss ≤ 65535) :
    (∀ c, Reachable (congestion .debug mss) c → ∀ e, ∃ c', c.handle .debug e = .ok c') ↔
      mss ≤ mssFit := by
  constructor
  · intro hall
    by_contra hfit
    obtain ⟨c, hc, hack⟩ := overflow_reachable (Nat.lt_of_not_le hfit) hmax
    exact hack (hall c hc .ack)
  · intro hfit c hc e
    have h := window_of_reachable hpos hc
    exact (h.handle_ok_iff e).mpr fun _ _ _ => h.sum_lt hfit

/-- The largest segment size that fits. -/
theorem never_overflows_iff_fit :
    46340 ≤ mssFit ∧
      ∀ c, Reachable (congestion .debug 46340) c → ∀ e, ∃ c', c.handle .debug e = .ok c' :=
  ⟨le_rfl, (never_overflows_iff 46340 (by decide) (by decide)).mpr le_rfl⟩

/-- The largest segment size that is accepted. -/
theorem largest_segment_overflows :
    ¬ ∀ c, Reachable (congestion .debug 65535) c → ∀ e, ∃ c', c.handle .debug e = .ok c' := by
  intro hall
  obtain ⟨c, hc, hack⟩ := overflow_reachable (show mssFit < 65535 by decide) le_rfl
  exact hack (hall c hc .ack)

end Overflow

section Halving
variable {bd : Build} {mss : ℕ} {c c₁ c₂ : AimdReno}

/-- The events are handled in turn. -/
def handleAll (bd : Build) (c : AimdReno) (events : List Event) : Exec AimdReno :=
  events.foldlM (fun c e => c.handle bd e) c

/-- The number of acknowledgements that make up the window. -/
def acksPerWindow (c : AimdReno) : ℕ := c.cwndQ16 ⌈/⌉ c.mssQ16

lemma handleAll_append_singleton {events : List Event} {e : Event} :
    handleAll bd c (events ++ [e]) = .ok c₂ ↔
      ∃ c₁, handleAll bd c events = .ok c₁ ∧ c₁.handle bd e = .ok c₂ := by
  unfold handleAll
  rw [List.foldlM_append, bind_eq_ok]
  simp only [List.foldlM_cons, List.foldlM_nil, bind_pure]

/-- A drop takes effect if it changes the state. -/
lemma Window.drop_effect (h : Window mss c) (hdrop : c.handleDrop bd = .ok c₁) (hne : c₁ ≠ c) :
    c₁.dropcntQ16 = c₁.cwndQ16 := by
  rw [h.handleDrop_eq] at hdrop
  by_cases hzero : c.dropcntQ16 = 0
  · rw [if_pos hzero] at hdrop
    cases hdrop
    rfl
  · rw [if_neg hzero] at hdrop
    exact absurd (Except.ok.inj hdrop).symm hne

lemma Window.lt_acksPerWindow (h : Window mss c) {n : ℕ} :
    n < c.acksPerWindow ↔ c.cwndQ16 - n * c.mssQ16 ≠ 0 := by
  rw [acksPerWindow, ← not_le, ceilDiv_le_iff_le_mul h.mssQ16_pos, mul_comm, Ne,
    Nat.sub_eq_zero_iff_le]

/-- What is left of the guard after some acknowledgements, unless it ran out before a drop. -/
lemma Window.guard (h : Window mss c) (hguard : c.dropcntQ16 = c.cwndQ16) {events : List Event}
    (hquiet : .timeout ∉ events)
    (hearly : ∀ k, events[k]? = some .drop → (events.take k).count .ack < c.acksPerWindow)
    (hrun : handleAll bd c events = .ok c₂) :
    Window mss c₂ ∧ c₂.mssQ16 = c.mssQ16 ∧
      c₂.dropcntQ16 = c.cwndQ16 - events.count .ack * c.mssQ16 := by
  induction events using List.reverseRecOn generalizing c₂ with
  | nil =>
    cases hrun
    exact ⟨h, rfl, by simpa using hguard⟩
  | append_singleton events e ih =>
    obtain ⟨c', hrun, hlast⟩ := handleAll_append_singleton.mp hrun
    rw [List.mem_append, List.mem_singleton, not_or] at hquiet
    have hbefore : ∀ k, events[k]? = some .drop →
        (events.take k).count .ack < c.acksPerWindow := by
      intro k hk
      have hlt : k < events.length := (List.getElem?_eq_some_iff.mp hk).1
      have hcount := hearly k (by rwa [List.getElem?_append_left hlt])
      rwa [List.take_append_of_le_length hlt.le] at hcount
    obtain ⟨h', hmss, hdropcnt⟩ := ih hquiet.1 hbefore hrun
    cases e with
    | ack =>
      have hacked := h'.handleAck hlast
      refine ⟨h'.acked hacked, hacked.mss_eq.trans hmss, ?_⟩
      rw [hacked.dropcnt_eq, hdropcnt, hmss, List.count_append, Nat.sub_sub,
        List.count_singleton_self, add_mul, one_mul]
    | drop =>
      have hcount := hearly events.length (by simp)
      rw [List.take_left, h.lt_acksPerWindow, ← hdropcnt] at hcount
      have hsame := (h'.handleDrop_eq bd).symm.trans hlast
      rw [if_neg hcount] at hsame
      cases hsame
      exact ⟨h', hmss, by simpa [List.count_append] using hdropcnt⟩
    | timeout => exact absurd rfl hquiet.2

/-- Drops are ignored until the window they left behind is acknowledged, and no longer. -/
theorem halves_once_per_window (bd : Build) (mss : ℕ) (hpos : 1 ≤ mss)
    (hc : Reachable (congestion bd mss) c) (hdrop : c.handleDrop bd = .ok c₁) (heffect : c₁ ≠ c)
    {events : List Event} (hquiet : .timeout ∉ events)
    (hrun : handleAll bd c₁ events = .ok c₂) :
    (events.count .ack < c₁.acksPerWindow → c₂.handleDrop bd = .ok c₂) ∧
      (c₁.acksPerWindow ≤ events.count .ack →
        (∀ k, events[k]? = some .drop → (events.take k).count .ack < c₁.acksPerWindow) →
        ∃ c₃, c₂.handleDrop bd = .ok c₃ ∧ c₃ ≠ c₂ ∧
          c₃ = { c₂ with
            cwndQ16 := c₂.halved, dropcntQ16 := c₂.halved, mode := .congestionAvoidance }) := by
  have h := window_of_reachable hpos hc
  have hguard := h.drop_effect hdrop heffect
  have h₁ : Window mss c₁ := h.handle (e := .drop) hdrop
  constructor
  · intro hfew
    obtain ⟨h₂, -, hdropcnt⟩ := h₁.guard hguard hquiet (fun k _ =>
      ((List.take_sublist k events).count_le _).trans_lt hfew) hrun
    rw [h₁.lt_acksPerWindow, ← hdropcnt] at hfew
    rw [h₂.handleDrop_eq, if_neg hfew]
  · intro hmany hearly
    obtain ⟨h₂, -, hdropcnt⟩ := h₁.guard hguard hquiet hearly hrun
    have hzero : c₂.dropcntQ16 = 0 := by
      rw [hdropcnt]
      exact not_not.mp (h₁.lt_acksPerWindow.not.mp hmany.not_gt)
    rw [h₂.handleDrop_eq, if_pos hzero]
    refine ⟨_, rfl, fun hsame => ?_, rfl⟩
    have hhalved : c₂.halved = 0 := (congrArg AimdReno.dropcntQ16 hsame).trans hzero
    have hmin : c₂.mssQ16 ≤ c₂.halved :=
      (Nat.le_mul_of_pos_left _ (by decide)).trans (le_max_right _ _)
    have hmssPos := h₂.mssQ16_pos
    omega

/-- After the first drop the window takes ten acknowledgements: a drop after one of them is
ignored, and one after all of them is not. -/
theorem halves_once_per_window_ten : ∃ c c₁ c₂ c₃, Reachable (congestion .release 1024) c ∧
    c.handleDrop .release = .ok c₁ ∧ c₁ ≠ c ∧ c₁.acksPerWindow = 10 ∧
    handleAll .release c₁ [.ack] = .ok c₂ ∧ c₂.handleDrop .release = .ok c₂ ∧
    handleAll .release c₁ (List.replicate 10 .ack) = .ok c₃ ∧
    ∃ c₄, c₃.handleDrop .release = .ok c₄ ∧ c₄ ≠ c₃ := by
  let c : AimdReno := ⟨.unboundedSlowStart, 67108864, 671088640, 0⟩
  let c₁ : AimdReno := ⟨.congestionAvoidance, 67108864, 671088640, 671088640⟩
  have hc : Reachable (congestion .release 1024) c := .init rfl
  have hdrop : c.handleDrop .release = .ok c₁ := by decide
  have heffect : c₁ ≠ c := by decide
  have hfew : handleAll .release c₁ [.ack] =
      .ok ⟨.congestionAvoidance, 67108864, 677799526, 603979776⟩ := by decide
  have hsome : (handleAll .release c₁ (List.replicate 10 .ack)).toOption.isSome = true := by
    decide
  obtain ⟨c₃, hmany⟩ := Option.isSome_iff_exists.mp hsome
  rw [toOption_eq_some] at hmany
  have hacks : c₁.acksPerWindow = 10 := by decide
  obtain ⟨hignored, -⟩ :=
    halves_once_per_window .release 1024 (by decide) hc hdrop heffect (by decide) hfew
  obtain ⟨-, hagain⟩ :=
    halves_once_per_window .release 1024 (by decide) hc hdrop heffect (by decide) hmany
  have hnoDrop : ∀ k : ℕ, (List.replicate 10 Event.ack)[k]? = some .drop →
      ((List.replicate 10 Event.ack).take k).count .ack < c₁.acksPerWindow := by
    intro k hk
    cases List.eq_of_mem_replicate (List.mem_of_getElem? hk)
  obtain ⟨c₄, hdrop', heffect', -⟩ := hagain (by rw [hacks]; decide) hnoDrop
  exact ⟨c, c₁, _, c₃, hc, hdrop, heffect, hacks, hfew, hignored (by rw [hacks]; decide), hmany,
    c₄, hdrop', heffect'⟩

end Halving

end Redpine.AimdReno

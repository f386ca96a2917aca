import Redpine.PrioBounds

/-! How the channels share the link: the bytes sent on any two channels keep to their weights, and
no channel takes more than one burst ahead of a channel that waits. -/
namespace Redpine.Prio
open Machine Transition

section Choice
variable {p : Prio} {ready : Channel → Bool} {i : Channel}

/-- The best channel found among those that have been looked at. -/
structure Best (p : Prio) (ready : Channel → Bool) (n : ℕ) (best : Option (Channel × ℕ)) :
    Prop where
  none_ready : best = none → ∀ j : Channel, j.val < n → ready j = false
  least : ∀ i c, best = some (i, c) → ready i = true ∧ c = p.counters i ∧
    ∀ j : Channel, j.val < n → ready j = true → c ≤ p.counters j

lemma Best.consider {n : ℕ} {best : Option (Channel × ℕ)} (h : Best p ready n best)
    (hi : i.val = n) : Best p ready (n + 1) (p.consider (ready i) i best) := by
  have hlast : ∀ j : Channel, j.val < n + 1 → j = i ∨ j.val < n := fun j hj =>
    (Nat.lt_succ_iff_lt_or_eq.mp hj).symm.imp_left fun heq => Fin.ext (heq.trans hi.symm)
  cases best with
  | none =>
    have hnone := h.none_ready rfl
    cases hready : ready i with
    | false =>
      refine ⟨fun _ j hj => ?_, fun k c hk => by simp [Prio.consider] at hk⟩
      rcases hlast j hj with rfl | hlt
      · exact hready
      · exact hnone j hlt
    | true =>
      refine ⟨fun hk => by simp [Prio.consider] at hk, fun k c hk => ?_⟩
      cases hk
      refine ⟨hready, rfl, fun j hj hjready => ?_⟩
      rcases hlast j hj with rfl | hlt
      · exact le_rfl
      · cases (hnone j hlt).symm.trans hjready
  | some found =>
    obtain ⟨k, m⟩ := found
    obtain ⟨hk, rfl, hleast⟩ := h.least k m rfl
    by_cases hbetter : ready i = true ∧ p.counters i < p.counters k
    · have hconsider : p.consider (ready i) i (some (k, p.counters k)) =
          some (i, p.counters i) := by
        simp [Prio.consider, hbetter.1, hbetter.2]
      rw [hconsider]
      refine ⟨fun hnone => (by cases hnone), fun k' c' hk' => ?_⟩
      cases hk'
      refine ⟨hbetter.1, rfl, fun j hj hjready => ?_⟩
      rcases hlast j hj with rfl | hlt
      · exact le_rfl
      · exact hbetter.2.le.trans (hleast j hlt hjready)
    · have hconsider : p.consider (ready i) i (some (k, p.counters k)) =
          some (k, p.counters k) := by
        unfold Prio.consider
        dsimp only
        rw [if_neg (by simpa using hbetter)]
      rw [hconsider]
      refine ⟨fun hnone => (by cases hnone), fun k' c' hk' => ?_⟩
      cases hk'
      refine ⟨hk, rfl, fun j hj hjready => ?_⟩
      rcases hlast j hj with rfl | hlt
      · exact Nat.le_of_not_lt fun hless => hbetter ⟨hjready, hless⟩
      · exact hleast j hlt hjready

/-- The channel chosen is ready, and no ready channel has a smaller counter. -/
lemma next_least (h : p.next (ready 0) (ready 1) (ready 2) (ready 3) = some i) :
    ready i = true ∧ ∀ j, ready j = true → p.counters i ≤ p.counters j := by
  have hstart : Best p ready 0 none :=
    ⟨fun _ j hj => absurd hj (Nat.not_lt_zero _), fun i c hic => by cases hic⟩
  have hbest := (((hstart.consider (i := 0) rfl).consider (i := 1) rfl).consider
    (i := 2) rfl).consider (i := 3) rfl
  unfold next at h
  obtain ⟨⟨i', c⟩, hsome, rfl⟩ := Option.map_eq_some_iff.mp h
  obtain ⟨hready, rfl, hleast⟩ := hbest.least i' c hsome
  exact ⟨hready, fun j => hleast j j.isLt⟩

end Choice

/-- The bytes sent on each channel beside the counters. -/
structure Served where
  prio : Prio
  sent : Channel → ℕ

/-- The same channels are ready at every step, and each transmission is of at most `sizeMax`. -/
def serving (bd : Build) (weights : Channel → ℕ) (burstSize : ℕ) (ready : Channel → Bool)
    (sizeMax : ℕ) : System Served (Channel × ℕ) where
  init s := ∃ config, Config.new bd weights burstSize = .ok config ∧
    s = ⟨Prio.new config, fun _ => 0⟩
  step s charged s' :=
    s.prio.next (ready 0) (ready 1) (ready 2) (ready 3) = some charged.1 ∧ charged.2 ≤ sizeMax ∧
      s.prio.markSent bd charged.1 charged.2 = .ok s'.prio ∧
      s'.sent = Function.update s.sent charged.1 (s.sent charged.1 + charged.2)

/-- Among the ready channels, the counters are the weighted bytes less one common amount, and no
counter is ahead by more than one transmission of its own. -/
structure Level (weights : Channel → ℕ) (burstSize : ℕ) (ready : Channel → Bool) (sizeMax : ℕ)
    (s : Served) : Prop where
  inv : Inv weights burstSize s.prio
  forgotten : ∃ amount, ∀ i, ready i = true →
    s.prio.counters i + amount = s.sent i * transformed weights i
  ahead : ∀ i j, ready i = true → ready j = true →
    s.prio.counters i ≤ s.prio.counters j + sizeMax * transformed weights i

section Fairness
variable {bd : Build} {weights : Channel → ℕ} {burstSize : ℕ} {ready : Channel → Bool} {sizeMax : ℕ}

lemma level_step {s s' : Served} {charged : Channel × ℕ} (hmax : sizeMax ≤ dataSizeMax)
    (hburst : ∀ i, ready i = true → sizeMax ≤ burstSize * weights i)
    (h : Level weights burstSize ready sizeMax s)
    (hstep : (serving bd weights burstSize ready sizeMax).step s charged s') :
    Level weights burstSize ready sizeMax s' := by
  obtain ⟨hnext, hsize, hsent, htally⟩ := hstep
  obtain ⟨i, size⟩ := charged
  dsimp only at hnext hsize hsent htally
  obtain ⟨hready, hleast⟩ := next_least hnext
  have hinv := h.inv
  have hinv' := hinv.markSent (hsize.trans hmax) hsent
  rw [hinv.markSent_eq bd i (hsize.trans hmax)] at hsent
  have hprio := Except.ok.inj hsent
  have hweights : s.prio.weights = transformed weights := hinv.weights_eq
  have hfits : size * transformed weights i ≤ s.prio.counterMax := by
    rw [hinv.counterMax_eq, ← transformed_mul weights i, mul_left_comm, mul_comm size]
    exact Nat.mul_le_mul_left _ (hsize.trans (hburst i hready))
  have hcharge : size * transformed weights i ≤ sizeMax * transformed weights i :=
    Nat.mul_le_mul_right _ hsize
  -- The charged counter is the least one, so that no ready channel falls short of the excess.
  obtain ⟨excess, hexcess⟩ : ∃ excess, excess =
      s.prio.counters i + size * transformed weights i - s.prio.counterMax := ⟨_, rfl⟩
  have hcover : excess ≤ s.prio.counters i := by omega
  have hself : s'.prio.counters i = s.prio.counters i + size * transformed weights i - excess := by
    rw [← hprio, hexcess, hweights]
    simp
  have hother : ∀ j, j ≠ i → s'.prio.counters j = s.prio.counters j - excess := by
    intro j hj
    rw [← hprio, hexcess, hweights]
    simp [hj]
  refine ⟨hinv', ?_, fun j k hj hk => ?_⟩
  · obtain ⟨amount, hamount⟩ := h.forgotten
    refine ⟨amount + excess, fun j hj => ?_⟩
    have hsum := hamount j hj
    have hge := hleast j hj
    rw [htally]
    by_cases hji : j = i
    · rw [hji, hself, Function.update_self, add_mul]
      rw [hji] at hsum
      omega
    · rw [hother j hji, Function.update_of_ne hji]
      omega
  · have hahead := h.ahead j k hj hk
    have hgej := hleast j hj
    have hgek := hleast k hk
    by_cases hji : j = i <;> by_cases hki : k = i
    · rw [hji, hki]
      exact Nat.le_add_right _ _
    · rw [hji, hself, hother k hki]
      omega
    · rw [hki] at hahead
      rw [hki, hself, hother j hji]
      omega
    · rw [hother j hji, hother k hki]
      omega

lemma level_of_serving (hmax : sizeMax ≤ dataSizeMax)
    (hburst : ∀ i, ready i = true → sizeMax ≤ burstSize * weights i) {s : Served}
    (hs : Reachable (serving bd weights burstSize ready sizeMax) s) :
    Level weights burstSize ready sizeMax s := by
  induction hs using Reachable.induct with
  | init hinit =>
    obtain ⟨config, hnew, rfl⟩ := hinit
    exact ⟨Inv.new hnew, ⟨0, fun i _ => (Nat.zero_mul _).symm⟩, fun i j _ _ => Nat.zero_le _⟩
  | step hs hstep ih => exact level_step hmax hburst ih hstep

/-- One channel's share of the link is at most one transmission ahead of another's. -/
lemma Level.share_le {s : Served} (h : Level weights burstSize ready sizeMax s) {i j : Channel}
    (hi : ready i = true) (hj : ready j = true) :
    (s.sent i : ℚ) / weights i ≤ s.sent j / weights j + sizeMax / weights i := by
  obtain ⟨amount, hamount⟩ := h.forgotten
  have hbytes : s.sent i * transformed weights i ≤
      s.sent j * transformed weights j + sizeMax * transformed weights i := by
    have hsi := hamount i hi
    have hsj := hamount j hj
    have hahead := h.ahead i j hi hj
    omega
  have hadmissible := h.inv.admissible
  have hwi : (0 : ℚ) < weights i := by exact_mod_cast hadmissible.weights_pos i
  have hwj : (0 : ℚ) < weights j := by exact_mod_cast hadmissible.weights_pos j
  have hti : (0 : ℚ) < transformed weights i := by exact_mod_cast hadmissible.transformed_pos i
  have htj : (0 : ℚ) < transformed weights j := by exact_mod_cast hadmissible.transformed_pos j
  have hproduct : (transformed weights i : ℚ) * weights i = transformed weights j * weights j := by
    exact_mod_cast (transformed_mul weights i).trans (transformed_mul weights j).symm
  have hbytesQ : (s.sent i : ℚ) * transformed weights i ≤
      s.sent j * transformed weights j + sizeMax * transformed weights i := by
    exact_mod_cast hbytes
  have hshare : (s.sent j : ℚ) / weights j =
      s.sent j * transformed weights j / (transformed weights i * weights i) := by
    rw [hproduct, mul_comm (transformed weights j : ℚ) (weights j : ℚ),
      mul_div_mul_right _ _ htj.ne']
  rw [hshare, ← mul_div_mul_left (s.sent i : ℚ) (weights i) hti.ne',
    ← mul_div_mul_left (sizeMax : ℚ) (weights i) hti.ne', ← add_div]
  refine div_le_div_of_nonneg_right ?_ (mul_pos hti hwi).le
  linarith

/-- Bytes are shared in proportion to the weights, up to one transmission. -/
theorem serving_fair (hmax : sizeMax ≤ dataSizeMax)
    (hburst : ∀ i, ready i = true → sizeMax ≤ burstSize * weights i) {s : Served}
    (hs : Reachable (serving bd weights burstSize ready sizeMax) s) {i j : Channel}
    (hi : ready i = true) (hj : ready j = true) :
    |(s.sent i : ℚ) / weights i - s.sent j / weights j| ≤
      sizeMax / min (weights i) (weights j) := by
  have hlevel := level_of_serving hmax hburst hs
  have hwi : (0 : ℚ) < weights i := by exact_mod_cast hlevel.inv.admissible.weights_pos i
  have hwj : (0 : ℚ) < weights j := by exact_mod_cast hlevel.inv.admissible.weights_pos j
  have hmin : (0 : ℚ) < min (weights i : ℚ) (weights j) := lt_min hwi hwj
  have hsize : (0 : ℚ) ≤ sizeMax := Nat.cast_nonneg _
  have hboundi := div_le_div_of_nonneg_left hsize hmin (min_le_left (weights i : ℚ) (weights j))
  have hboundj := div_le_div_of_nonneg_left hsize hmin (min_le_right (weights i : ℚ) (weights j))
  have hij := hlevel.share_le hi hj
  have hji := hlevel.share_le hj hi
  rw [Nat.cast_min, abs_sub_le_iff]
  constructor <;> linarith

end Fairness

section Sample

/-- The interpreter of `serving`. -/
def servingInterpreter (bd : Build) (weights : Channel → ℕ) (burstSize : ℕ)
    (ready : Channel → Bool) (sizeMax : ℕ) :
    Executable (serving bd weights burstSize ready sizeMax) where
  start := (Config.new bd weights burstSize).toOption.map fun config =>
    ⟨Prio.new config, fun _ => 0⟩
  next s charged :=
    if s.prio.next (ready 0) (ready 1) (ready 2) (ready 3) = some charged.1 ∧
        charged.2 ≤ sizeMax then
      (s.prio.markSent bd charged.1 charged.2).toOption.map fun prio =>
        ⟨prio, Function.update s.sent charged.1 (s.sent charged.1 + charged.2)⟩
    else none
  start_init s h := by
    obtain ⟨config, hnew, rfl⟩ := toOption_map_eq_some.mp h
    exact ⟨config, hnew, rfl⟩
  next_step s charged s' h := by
    simp only [Option.ite_none_right_eq_some, toOption_map_eq_some] at h
    obtain ⟨⟨hnext, hsize⟩, prio, hsent, rfl⟩ := h
    exact ⟨hnext, hsize, hsent, rfl⟩

end Sample

/-- Two channels share the link; the first one's last datagram takes it to the limit, and as far
ahead of its share as any datagram can. -/
theorem serving_fair_at_limit :
    ∃ s, Reachable (serving .debug ![1, 2, 1, 1] 100 ![true, true, false, false] 100) s ∧
      s.prio.counters 0 = s.prio.counterMax ∧ s.sent 0 = 200 ∧ s.sent 1 = 200 ∧
      |(s.sent 0 : ℚ) / (![1, 2, 1, 1] : Channel → ℕ) 0 -
          s.sent 1 / (![1, 2, 1, 1] : Channel → ℕ) 1| ≤
        (100 : ℕ) / min ((![1, 2, 1, 1] : Channel → ℕ) 0) ((![1, 2, 1, 1] : Channel → ℕ) 1) := by
  have hrun : ((servingInterpreter .debug ![1, 2, 1, 1] 100 ![true, true, false, false] 100).exec
      [(0, 100), (1, 100), (1, 100), (0, 100)]).map (fun s => decide (
        s.prio.counters 0 = s.prio.counterMax ∧ s.sent 0 = 200 ∧ s.sent 1 = 200)) =
      some true := by
    rfl
  obtain ⟨s, hexec, hdecide⟩ := Option.map_eq_some_iff.mp hrun
  obtain ⟨hlimit, hsent₀, hsent₁⟩ := of_decide_eq_true hdecide
  have hs := Executable.exec_reachable _ hexec
  exact ⟨s, hs, hlimit, hsent₀, hsent₁, serving_fair (by decide)
    (fun i => by fin_cases i <;> decide) hs rfl rfl⟩

/-- Steps in which one channel is picked while another one is ready as well. -/
inductive Overtakes (bd : Build) (sizeMax : ℕ) (i j : Channel) : Prio → List ℕ → Prio → Prop
  | nil (p : Prio) : Overtakes bd sizeMax i j p [] p
  | cons {p p₁ p' : Prio} {ready : Channel → Bool} {size : ℕ} {sizes : List ℕ}
      (hready : ready j = true)
      (hnext : p.next (ready 0) (ready 1) (ready 2) (ready 3) = some i) (hsize : size ≤ sizeMax)
      (hsent : p.markSent bd i size = .ok p₁) (rest : Overtakes bd sizeMax i j p₁ sizes p') :
      Overtakes bd sizeMax i j p (size :: sizes) p'

section Burst
variable {bd : Build} {weights : Channel → ℕ} {burstSize sizeMax : ℕ} {i j : Channel}
  {p p₁ p' : Prio} {size : ℕ} {sizes : List ℕ}

/-- A channel at the limit is not picked again before the one that waits. -/
lemma Inv.picked_below (h : Inv weights burstSize p) (hne : j ≠ i) (hsize : size ≤ dataSizeMax)
    (hsent : p.markSent bd i size = .ok p₁) (hnext : p₁.counters i ≤ p₁.counters j) :
    p₁.counters i = p.counters i + size * transformed weights i ∧
      p₁.counters j = p.counters j := by
  have hpos := h.counterMax_pos
  have hj := h.counters_le j
  rw [h.markSent_eq bd i hsize, h.weights_eq] at hsent
  cases hsent
  simp only [Function.update_self, Function.update_of_ne hne] at hnext ⊢
  omega

lemma Overtakes.weighted_le (run : Overtakes bd sizeMax i j p sizes p') (hne : j ≠ i)
    (hmax : sizeMax ≤ dataSizeMax) (h : Inv weights burstSize p) :
    sizes.sum * transformed weights i ≤
      (p.counters j - p.counters i) + sizeMax * transformed weights i := by
  induction run with
  | nil p => simp
  | @cons p p₁ p' ready size sizes hready hnext hsize hsent rest ih =>
    have hcharge := Nat.mul_le_mul_right (transformed weights i) hsize
    have hrest := ih (h.markSent (hsize.trans hmax) hsent)
    rw [List.sum_cons, add_mul]
    cases rest with
    | nil =>
      rw [List.sum_nil, Nat.zero_mul]
      omega
    | cons hready' hnext' =>
      have hle := (next_least hnext').2 j hready'
      obtain ⟨hi, hj⟩ := h.picked_below hne (hsize.trans hmax) hsent hle
      rw [hi, hj] at hrest
      rw [hi, hj] at hle
      omega

/-- While a channel is ready, no other one takes more than its burst and one transmission. -/
theorem burst_bound (hmax : sizeMax ≤ dataSizeMax)
    (hp : Reachable (marking bd weights burstSize) p) (hne : j ≠ i)
    (run : Overtakes bd sizeMax i j p sizes p') :
    sizes.sum ≤ burstSize * weights i + sizeMax := by
  have h := inv_of_marking hp
  have hweighted := run.weighted_le hne hmax h
  have hcounter := h.counters_le j
  rw [h.counterMax_eq, ← transformed_mul weights i] at hcounter
  refine Nat.le_of_mul_le_mul_right ?_ (h.admissible.transformed_pos i)
  calc sizes.sum * transformed weights i
      ≤ burstSize * (transformed weights i * weights i) + sizeMax * transformed weights i := by
        omega
    _ = (burstSize * weights i + sizeMax) * transformed weights i := by ring

end Burst

section Sample

/-- The interpreter of `marking`. -/
def markingInterpreter (bd : Build) (weights : Channel → ℕ) (burstSize : ℕ) :
    Executable (marking bd weights burstSize) where
  start := (Config.new bd weights burstSize).toOption.map Prio.new
  next p sent :=
    if sent.2 ≤ dataSizeMax then (p.markSent bd sent.1 sent.2).toOption else none
  start_init p h := by
    obtain ⟨config, hnew, rfl⟩ := toOption_map_eq_some.mp h
    exact ⟨config, hnew, rfl⟩
  next_step p sent p' h := by
    simp only [Option.ite_none_right_eq_some, toOption_eq_some] at h
    exact h

/-- The first channel sends as long as it is picked, while the second one is ready as well. -/
def overtake (bd : Build) (sizeMax : ℕ) (p : Prio) : List ℕ → Option Prio
  | [] => some p
  | size :: sizes =>
      if p.next true true false false = some 0 ∧ size ≤ sizeMax then
        (p.markSent bd 0 size).toOption.bind fun p₁ => overtake bd sizeMax p₁ sizes
      else none

lemma overtake_overtakes {bd : Build} {sizeMax : ℕ} {p p' : Prio} {sizes : List ℕ}
    (h : overtake bd sizeMax p sizes = some p') : Overtakes bd sizeMax 0 1 p sizes p' := by
  induction sizes generalizing p with
  | nil =>
    cases h
    exact .nil _
  | cons size sizes ih =>
    simp only [overtake, Option.ite_none_right_eq_some, Option.bind_eq_some_iff,
      toOption_eq_some] at h
    obtain ⟨⟨hnext, hsize⟩, p₁, hsent, hrest⟩ := h
    exact @Overtakes.cons _ _ _ _ _ _ _ ![true, true, false, false] _ _ rfl hnext hsize hsent
      (ih hrest)

end Sample

/-- While the first channel was idle the second one has come to the limit; then the first one
sends as much in a row as the bound allows. -/
theorem burst_bound_attained : ∃ p p', Reachable (marking .debug ![1, 2, 1, 1] 100) p ∧
    p.counters 0 = 0 ∧ p.counters 1 = p.counterMax ∧
    Overtakes .debug 100 0 1 p [60, 40, 100] p' ∧
    [60, 40, 100].sum = 100 * (![1, 2, 1, 1] : Channel → ℕ) 0 + 100 := by
  have hrun : ((markingInterpreter .debug ![1, 2, 1, 1] 100).exec
      [(0, 30), (1, 100), (1, 100), (1, 100)]).map (fun p => decide (
        p.counters 0 = 0 ∧ p.counters 1 = p.counterMax ∧
          (overtake .debug 100 p [60, 40, 100]).isSome)) = some true := by
    rfl
  obtain ⟨p, hexec, hdecide⟩ := Option.map_eq_some_iff.mp hrun
  obtain ⟨hidle, hlimit, hsome⟩ := of_decide_eq_true hdecide
  have hp := Executable.exec_reachable _ hexec
  obtain ⟨p', hovertake⟩ := Option.isSome_iff_exists.mp hsome
  have run := overtake_overtakes hovertake
  have hbound := burst_bound (by decide) hp (by decide) run
  exact ⟨p, p', hp, hidle, hlimit, run, le_antisymm hbound (by decide)⟩

end Redpine.Prio

import AtmMonitor.Library.Runs
import AtmMonitor.ParserModels
import Mathlib.Data.List.DropRight
import Mathlib.Data.Rat.Defs

namespace AtmMonitor.BreakerRuns

open Library.Runs ParserModels

inductive CircuitBreakerState where
  | CLOSED | OPEN | HALF_OPEN
  deriving DecidableEq, Repr

structure CircuitBreaker where
  failureThreshold : Nat
  cooldownSeconds : Rat
  state : CircuitBreakerState := .CLOSED
  failureCount : Nat := 0
  lastStateChange : Timestamp

/-- What `MetricsTracker` keeps of the breaker. -/
structure MetricsTracker where
  circuitBreakerState : CircuitBreakerState := .CLOSED
  cbTripsCount : Nat := 0

/-- The breaker, whose lock serialises its callers, and the tracker that they report to. -/
structure Guard where
  breaker : CircuitBreaker
  metrics : MetricsTracker := {}

/-- `(now - last).total_seconds()`, as an exact number. -/
def totalSeconds (last now : Timestamp) : Rat := ((now : Int) - (last : Int) : Int) / 1000000

def canExecute (now : Timestamp) (g : Guard) : Bool × Guard :=
  let b := g.breaker
  if b.state = .OPEN then
    if b.cooldownSeconds ≤ totalSeconds b.lastStateChange now then
      (true,
        { breaker := { b with state := .HALF_OPEN, lastStateChange := now }
          metrics := { g.metrics with circuitBreakerState := .HALF_OPEN } })
    else (false, g)
  else (true, g)

def recordSuccess (now : Timestamp) (g : Guard) : Guard where
  breaker := { g.breaker with state := .CLOSED, failureCount := 0, lastStateChange := now }
  metrics := { g.metrics with circuitBreakerState := .CLOSED }

def recordFailure (now : Timestamp) (g : Guard) : Guard :=
  let b := { g.breaker with failureCount := g.breaker.failureCount + 1 }
  if b.failureThreshold ≤ b.failureCount ∧ b.state ≠ .OPEN then
    { breaker := { b with state := .OPEN, lastStateChange := now }
      metrics := ⟨.OPEN, g.metrics.cbTripsCount + 1⟩ }
  else { g with breaker := b }

inductive Operation where
  | canExecute | recordSuccess | recordFailure
  deriving DecidableEq

structure Call where
  operation : Operation
  now : Timestamp
  deriving DecidableEq

def step (g : Guard) (c : Call) : Guard :=
  match c.operation with
  | .canExecute => (canExecute c.now g).2
  | .recordSuccess => recordSuccess c.now g
  | .recordFailure => recordFailure c.now g

def fresh (threshold : Nat) (cooldown : Rat) (created : Timestamp) : Guard where
  breaker := { failureThreshold := threshold, cooldownSeconds := cooldown, lastStateChange := created }

def failuresSinceSuccess (calls : List Call) : Nat :=
  (calls.rtakeWhile fun c => c.operation ≠ .recordSuccess).countP
    fun c => c.operation = .recordFailure

def transitionsToOpen : Guard → List Call → Nat
  | _, [] => 0
  | g, c :: rest =>
    (if g.breaker.state ≠ .OPEN ∧ (step g c).breaker.state = .OPEN then 1 else 0) +
      transitionsToOpen (step g c) rest

/-- The call that opened the breaker, which has been open since, is a failure at this time. -/
def OpenedAt (start : Guard) (calls : List Call) (time : Timestamp) : Prop :=
  ∃ pre post, calls = pre ++ ⟨.recordFailure, time⟩ :: post ∧
    (pre.foldl step start).breaker.state ≠ .OPEN ∧
      ∀ mid, mid <+: post →
        ((pre ++ ⟨.recordFailure, time⟩ :: mid).foldl step start).breaker.state = .OPEN

theorem failuresSinceSuccess_concat (calls : List Call) (c : Call) :
    failuresSinceSuccess (calls ++ [c]) =
      match c.operation with
      | .canExecute => failuresSinceSuccess calls
      | .recordSuccess => 0
      | .recordFailure => failuresSinceSuccess calls + 1 := by
  unfold failuresSinceSuccess
  cases h : c.operation with
  | recordSuccess => rw [List.rtakeWhile_concat_neg _ _ _ (by simp [h])]; rfl
  | canExecute => rw [List.rtakeWhile_concat_pos _ _ _ (by simp [h])]; simp [h]
  | recordFailure => rw [List.rtakeWhile_concat_pos _ _ _ (by simp [h])]; simp [h]

theorem transitionsToOpen_concat (g : Guard) (calls : List Call) (c : Call) :
    transitionsToOpen g (calls ++ [c]) = transitionsToOpen g calls +
      if (calls.foldl step g).breaker.state ≠ .OPEN ∧
        (step (calls.foldl step g) c).breaker.state = .OPEN then 1 else 0 := by
  induction calls generalizing g with
  | nil => exact Nat.add_comm _ _
  | cons d rest ih =>
    rw [List.cons_append, transitionsToOpen, ih, transitionsToOpen, List.foldl_cons]
    omega

theorem openedAt_concat (start : Guard) (calls : List Call) (c : Call) (time : Timestamp) :
    OpenedAt start (calls ++ [c]) time ↔
      (step (calls.foldl step start) c).breaker.state = .OPEN ∧
        (OpenedAt start calls time ∨
          c = ⟨.recordFailure, time⟩ ∧ (calls.foldl step start).breaker.state ≠ .OPEN) := by
  constructor
  · rintro ⟨pre, post, hsplit, hpre, hopen⟩
    have hlast := hopen post List.prefix_rfl
    rw [← hsplit, List.foldl_append] at hlast
    refine ⟨hlast, ?_⟩
    cases post using List.reverseRecOn with
    | nil =>
      obtain ⟨hcalls, hc⟩ := List.append_inj' hsplit rfl
      rw [hcalls]
      exact Or.inr ⟨List.singleton_inj.mp hc, hpre⟩
    | append_singleton post d =>
      rw [← List.cons_append, ← List.append_assoc] at hsplit
      obtain ⟨hcalls, -⟩ := List.append_inj' hsplit rfl
      exact Or.inl ⟨pre, post, hcalls, hpre, fun mid hmid => hopen mid (hmid.trans (List.prefix_append ..))⟩
  · rintro ⟨hlast, ⟨pre, post, rfl, hpre, hopen⟩ | ⟨rfl, hnot⟩⟩
    · refine ⟨pre, post ++ [c], by simp, hpre, fun mid hmid => ?_⟩
      obtain rfl | hmid := List.prefix_concat_iff.mp hmid
      · rw [← List.cons_append, ← List.append_assoc, List.foldl_append]
        exact hlast
      · exact hopen mid hmid
    · refine ⟨calls, [], rfl, hnot, fun mid hmid => ?_⟩
      rw [List.prefix_nil.mp hmid, List.foldl_append]
      exact hlast

/-- Nothing but the end of the cooldown or a success changes an open breaker. -/
theorem step_open {g : Guard} {c : Call} (h : g.breaker.state = .OPEN)
    (hs : (step g c).breaker.state = .OPEN) :
    (step g c).breaker.lastStateChange = g.breaker.lastStateChange := by
  unfold step at hs ⊢
  cases hc : c.operation with
  | canExecute =>
    simp only [hc, canExecute, h, if_true] at hs ⊢
    split_ifs at hs ⊢
    rfl
  | recordSuccess =>
    rw [hc] at hs
    cases hs
  | recordFailure => simp only [recordFailure, h, ne_eq, not_true_eq_false, and_false, if_false]

theorem step_opens {g : Guard} {c : Call} (h : g.breaker.state ≠ .OPEN)
    (hs : (step g c).breaker.state = .OPEN) :
    c.operation = .recordFailure ∧ (step g c).breaker.lastStateChange = c.now := by
  unfold step at hs ⊢
  cases hc : c.operation with
  | canExecute =>
    simp only [hc, canExecute, h, if_false] at hs
  | recordSuccess =>
    rw [hc] at hs
    cases hs
  | recordFailure =>
    simp only [hc, recordFailure] at hs ⊢
    split_ifs at hs ⊢ with hcount
    · exact ⟨trivial, rfl⟩
    · exact absurd hs h

theorem step_settings (g : Guard) (c : Call) :
    (step g c).breaker.failureThreshold = g.breaker.failureThreshold ∧
      (step g c).breaker.cooldownSeconds = g.breaker.cooldownSeconds := by
  rw [step]
  cases c.operation with
  | canExecute => simp only [canExecute]; split_ifs <;> exact ⟨rfl, rfl⟩
  | recordSuccess => exact ⟨rfl, rfl⟩
  | recordFailure => simp only [recordFailure]; split_ifs <;> exact ⟨rfl, rfl⟩

theorem step_count (g : Guard) (c : Call) :
    (step g c).breaker.failureCount =
      match c.operation with
      | .canExecute => g.breaker.failureCount
      | .recordSuccess => 0
      | .recordFailure => g.breaker.failureCount + 1 := by
  rw [step]
  cases c.operation with
  | canExecute => simp only [canExecute]; split_ifs <;> rfl
  | recordSuccess => rfl
  | recordFailure => simp only [recordFailure]; split_ifs <;> rfl

theorem step_closed_iff {g : Guard} (c : Call) (hpos : 1 ≤ g.breaker.failureThreshold)
    (h : g.breaker.state = .CLOSED ↔ g.breaker.failureCount < g.breaker.failureThreshold) :
    (step g c).breaker.state = .CLOSED ↔
      (step g c).breaker.failureCount < (step g c).breaker.failureThreshold := by
  rw [(step_settings g c).1, step_count, step]
  cases c.operation with
  | canExecute =>
    simp only [canExecute]
    split_ifs with hopen hcool
    · simpa [hopen] using h
    · exact h
    · exact h
  | recordSuccess => exact ⟨fun _ => hpos, fun _ => rfl⟩
  | recordFailure =>
    simp only [recordFailure]
    split_ifs with hcount
    · simpa using hcount.1
    · rw [h]
      by_cases hopen : g.breaker.state = .OPEN
      · have : ¬ g.breaker.failureCount < g.breaker.failureThreshold := by
          rw [← h, hopen]
          simp
        omega
      · have : ¬ g.breaker.failureThreshold ≤ g.breaker.failureCount + 1 :=
          fun hle => hcount ⟨hle, hopen⟩
        omega

theorem step_metrics {g : Guard} (c : Call) (h : g.metrics.circuitBreakerState = g.breaker.state) :
    (step g c).metrics.circuitBreakerState = (step g c).breaker.state ∧
      (step g c).metrics.cbTripsCount = g.metrics.cbTripsCount +
        if g.breaker.state ≠ .OPEN ∧ (step g c).breaker.state = .OPEN then 1 else 0 := by
  rw [step]
  cases c.operation with
  | canExecute =>
    simp only [canExecute]
    split_ifs <;> simp_all
  | recordSuccess => exact ⟨rfl, by simp [recordSuccess]⟩
  | recordFailure =>
    simp only [recordFailure]
    split_ifs <;> simp_all

/-- What holds of the breaker and the tracker after a run. -/
structure Lawful (start : Guard) (calls : List Call) (g : Guard) : Prop where
  threshold : g.breaker.failureThreshold = start.breaker.failureThreshold
  cooldown : g.breaker.cooldownSeconds = start.breaker.cooldownSeconds
  count : g.breaker.failureCount = failuresSinceSuccess calls
  closed_iff : g.breaker.state = .CLOSED ↔ g.breaker.failureCount < g.breaker.failureThreshold
  open_iff : g.breaker.state = .OPEN ↔ ∃ time, OpenedAt start calls time
  changed : ∀ time, OpenedAt start calls time → g.breaker.lastStateChange = time
  mirror : g.metrics.circuitBreakerState = g.breaker.state
  trips : g.metrics.cbTripsCount = transitionsToOpen start calls

section Law

variable {threshold : Nat} (cooldown : Rat) (created : Timestamp)

theorem lawful_fresh (h : 1 ≤ threshold) :
    Lawful (fresh threshold cooldown created) [] (fresh threshold cooldown created) where
  threshold := rfl
  cooldown := rfl
  count := rfl
  closed_iff := ⟨fun _ => h, fun _ => rfl⟩
  open_iff := by
    refine ⟨fun h => (by cases h), ?_⟩
    rintro ⟨time, pre, post, hsplit, -⟩
    simp at hsplit
  changed := by
    rintro time ⟨pre, post, hsplit, -⟩
    simp at hsplit
  mirror := rfl
  trips := rfl

end Law

theorem lawful_step {start g : Guard} {calls : List Call} (hpos : 1 ≤ start.breaker.failureThreshold)
    (hg : g = calls.foldl step start) (h : Lawful start calls g) (c : Call) :
    Lawful start (calls ++ [c]) (step g c) where
  threshold := (step_settings g c).1.trans h.threshold
  cooldown := (step_settings g c).2.trans h.cooldown
  count := by rw [step_count, failuresSinceSuccess_concat, h.count]
  closed_iff := step_closed_iff c (hpos.trans_eq h.threshold.symm) h.closed_iff
  open_iff := by
    simp only [openedAt_concat, ← hg, exists_and_left, exists_or, ← h.open_iff]
    refine ⟨fun hs => ⟨hs, ?_⟩, And.left⟩
    by_cases hopen : g.breaker.state = .OPEN
    · exact Or.inl hopen
    · exact Or.inr ⟨c.now, by rw [← (step_opens hopen hs).1], hopen⟩
  changed := by
    intro time ht
    rw [openedAt_concat, ← hg] at ht
    obtain ⟨hs, ht | ⟨rfl, hopen⟩⟩ := ht
    · rw [step_open (h.open_iff.mpr ⟨time, ht⟩) hs, h.changed time ht]
    · exact (step_opens hopen hs).2
  mirror := (step_metrics c h.mirror).1
  trips := by rw [(step_metrics c h.mirror).2, transitionsToOpen_concat, h.trips, hg]

theorem lawful_run {start : Guard} (hpos : 1 ≤ start.breaker.failureThreshold)
    (h : Lawful start [] start) (calls : List Call) :
    Lawful start calls (calls.foldl step start) := by
  induction calls using List.reverseRecOn with
  | nil => exact h
  | append_singleton calls c ih =>
    rw [List.foldl_append]
    exact lawful_step hpos rfl ih c

/-- After any run: the count is that of the failures since the last success, the breaker is closed
while it is below the threshold, `can_execute` refuses exactly while the breaker is open and its
cooldown has not passed since the failure that opened it, and the tracker agrees. -/
theorem breaker_law {threshold : Nat} (hpos : 1 ≤ threshold) (cooldown : Rat) (created : Timestamp)
    (calls : List Call) :
    let start := fresh threshold cooldown created
    let g := calls.foldl step start
    g.breaker.failureCount = failuresSinceSuccess calls ∧
      (g.breaker.state = .CLOSED ↔ g.breaker.failureCount < threshold) ∧
      (∀ now, (canExecute now g).1 = false ↔ g.breaker.state = .OPEN ∧
        ∃ time, OpenedAt start calls time ∧ totalSeconds time now < cooldown) ∧
      (∀ time time', OpenedAt start calls time → OpenedAt start calls time' → time = time') ∧
      g.metrics.circuitBreakerState = g.breaker.state ∧
      g.metrics.cbTripsCount = transitionsToOpen start calls := by
  intro start g
  have h : Lawful start calls g := lawful_run hpos (lawful_fresh cooldown created hpos) calls
  refine ⟨h.count, ?_, fun now => ?_, fun t t' ht ht' => ?_, h.mirror, h.trips⟩
  · rw [h.closed_iff, h.threshold]
    rfl
  · have hcool : g.breaker.cooldownSeconds = cooldown := h.cooldown
    rw [canExecute]
    by_cases hopen : g.breaker.state = .OPEN
    · obtain ⟨time, ht⟩ := h.open_iff.mp hopen
      have hlast := h.changed time ht
      have hexists : (∃ t, OpenedAt start calls t ∧ totalSeconds t now < cooldown) ↔
          totalSeconds time now < cooldown := by
        refine ⟨fun ⟨t, ht', hlt⟩ => ?_, fun hlt => ⟨time, ht, hlt⟩⟩
        rwa [← hlast, h.changed t ht']
      rw [hexists]
      simp only [hopen, if_true, hcool, hlast, true_and]
      split_ifs with hle
      · simpa using Rat.not_lt.mpr hle
      · simpa using Rat.not_le.mp hle
    · simp [hopen]
  · rw [← h.changed t ht, ← h.changed t' ht']

/-- Two failures open a breaker whose threshold is two. -/
theorem breaker_law_tripped :
    let g := [⟨.recordFailure, 10⟩, ⟨.recordFailure, 20⟩].foldl step (fresh 2 30 0)
    g.metrics.circuitBreakerState = .OPEN ∧ g.metrics.cbTripsCount = 1 := by
  obtain ⟨-, -, -, -, hmirror, htrips⟩ :=
    breaker_law (by decide : 1 ≤ 2) 30 0 [⟨.recordFailure, 10⟩, ⟨.recordFailure, 20⟩]
  exact ⟨hmirror.trans (by decide), htrips.trans (by decide)⟩

end AtmMonitor.BreakerRuns

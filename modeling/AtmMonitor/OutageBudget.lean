import AtmMonitor.RetryLoop

namespace AtmMonitor.OutageBudget

open PyText ParserModels DatabaseModels ParserService BreakerRuns RetryLoop

structure Visit where
  target : Target
  found : Bool
  enteredAt : Timestamp
  attempts : Nat → Attempt
  fuel : Nat
  db : Database

section Calls

variable [Alnum] (delays : List ℚ≥0)

def loopCalls (target : Target) (attempts : Nat → Attempt) : Nat → Nat → Guard → Database → List Call
  | 0, _, _, _ => []
  | fuel + 1, failed, g, db =>
    let attempt := attempts failed
    let r := scan target attempt.env db
    match r.1 with
    | .parsed _ | .idle => [⟨.recordSuccess, attempt.recordedAt⟩]
    | .failed => []
    | .databaseError =>
      let checked := canExecute attempt.checkedAt (recordFailure attempt.recordedAt g)
      let later := if checked.1 && (backoff delays failed).isSome then
        loopCalls target attempts fuel (failed + 1) checked.2 r.2 else []
      ⟨.recordFailure, attempt.recordedAt⟩ :: ⟨.canExecute, attempt.checkedAt⟩ :: later

def visitCalls (v : Visit) (g : Guard) : List Call :=
  let entered := canExecute v.enteredAt g
  ⟨.canExecute, v.enteredAt⟩ ::
    if entered.1 && v.found then loopCalls delays v.target v.attempts v.fuel 0 entered.2 v.db else []

/-- The calls of the breaker in a run of `process_file`, one call after the other. -/
def journal : List Visit → Guard → List Call
  | [], _ => []
  | v :: visits, g => visitCalls delays v g ++
      match RetryLoop.processFile v.target delays v.attempts v.enteredAt v.found v.fuel g v.db with
      | some r => journal visits r.guard
      | none => []

variable {delays}

theorem loopCalls_guard {target : Target} {attempts : Nat → Attempt} {fuel failed : Nat} {g : Guard}
    {db : Database} {r : Outcome}
    (h : retryLoop target delays attempts fuel failed g db = some r) :
    r.guard = (loopCalls delays target attempts fuel failed g db).foldl step g := by
  induction fuel generalizing failed g db r with
  | zero => cases h
  | succ fuel ih =>
    rw [retryLoop] at h
    rw [loopCalls]
    generalize scan target (attempts failed).env db = found at h ⊢
    obtain ⟨answer, db'⟩ := found
    cases answer with
    | parsed offset => obtain rfl := Option.some.inj h; rfl
    | idle => obtain rfl := Option.some.inj h; rfl
    | failed => obtain rfl := Option.some.inj h; rfl
    | databaseError =>
      simp only at h ⊢
      rw [List.foldl_cons, List.foldl_cons]
      set checked := canExecute (attempts failed).checkedAt
        (recordFailure (attempts failed).recordedAt g) with hchecked
      have hstep : step (step g ⟨.recordFailure, (attempts failed).recordedAt⟩)
          ⟨.canExecute, (attempts failed).checkedAt⟩ = checked.2 := rfl
      rw [hstep]
      cases hadmits : checked.1 with
      | false =>
        simp only [hadmits, Bool.false_eq_true, if_false] at h
        obtain rfl := Option.some.inj h
        rfl
      | true =>
        simp only [hadmits, if_true] at h
        cases hdelay : backoff delays failed with
        | none =>
          rw [hdelay] at h
          obtain rfl := Option.some.inj h
          rfl
        | some delay =>
          rw [hdelay] at h
          obtain ⟨r', hr', rfl⟩ := Option.map_eq_some_iff.mp h
          have hguard := ih hr'
          exact hguard

theorem visitCalls_guard {v : Visit} {g : Guard} {r : Outcome}
    (h : RetryLoop.processFile v.target delays v.attempts v.enteredAt v.found v.fuel g v.db = some r) :
    r.guard = (visitCalls delays v g).foldl step g := by
  rw [RetryLoop.processFile] at h
  rw [visitCalls, List.foldl_cons]
  have hstep : step g ⟨.canExecute, v.enteredAt⟩ = (canExecute v.enteredAt g).2 := rfl
  rw [hstep]
  cases hadmits : ((canExecute v.enteredAt g).1 && v.found) with
  | false =>
    rw [hadmits] at h
    obtain rfl := Option.some.inj h
    rfl
  | true =>
    rw [hadmits] at h
    exact loopCalls_guard h

end Calls

/-- No failure is recorded but by a caller that has been admitted since the last report; `admitted`
says so at the beginning. -/
def Disciplined : Guard → Bool → List Call → Prop
  | _, _, [] => True
  | g, admitted, c :: rest =>
    match c.operation with
    | .canExecute => Disciplined (step g c) (canExecute c.now g).1 rest
    | .recordSuccess => Disciplined (step g c) false rest
    | .recordFailure => admitted = true ∧ Disciplined (step g c) false rest

theorem Disciplined.append {g : Guard} {admitted : Bool} {calls rest : List Call}
    (h : Disciplined g admitted calls)
    (hrest : ∀ admitted', Disciplined (calls.foldl step g) admitted' rest) :
    Disciplined g admitted (calls ++ rest) := by
  induction calls generalizing g admitted with
  | nil => exact hrest admitted
  | cons c calls ih =>
    rw [List.cons_append, Disciplined]
    rw [Disciplined] at h
    rw [List.foldl_cons] at hrest
    cases hc : c.operation with
    | canExecute =>
      rw [hc] at h
      exact ih h hrest
    | recordSuccess =>
      rw [hc] at h
      exact ih h hrest
    | recordFailure =>
      rw [hc] at h
      exact ⟨h.1, ih h.2 hrest⟩

section Calls

variable [Alnum] {delays : List ℚ≥0}

theorem loopCalls_disciplined (target : Target) (attempts : Nat → Attempt) (fuel failed : Nat)
    (g : Guard) (db : Database) :
    Disciplined g true (loopCalls delays target attempts fuel failed g db) := by
  induction fuel generalizing failed g db with
  | zero => trivial
  | succ fuel ih =>
    rw [loopCalls]
    generalize scan target (attempts failed).env db = found
    obtain ⟨answer, db'⟩ := found
    cases answer with
    | parsed offset => trivial
    | idle => trivial
    | failed => trivial
    | databaseError =>
      simp only
      refine ⟨rfl, ?_⟩
      simp only [Disciplined]
      have hstep : step g ⟨.recordFailure, (attempts failed).recordedAt⟩ =
          recordFailure (attempts failed).recordedAt g := rfl
      rw [hstep]
      cases hadmits : (canExecute (attempts failed).checkedAt
          (recordFailure (attempts failed).recordedAt g)).1 with
      | false => trivial
      | true =>
        cases backoff delays failed with
        | none => trivial
        | some delay => exact ih (failed + 1) _ db'

theorem visitCalls_disciplined (v : Visit) (g : Guard) (admitted : Bool) :
    Disciplined g admitted (visitCalls delays v g) := by
  rw [visitCalls]
  simp only [Disciplined]
  cases hadmits : (canExecute v.enteredAt g).1 with
  | false => trivial
  | true =>
    cases v.found with
    | false => trivial
    | true => exact loopCalls_disciplined v.target v.attempts v.fuel 0 _ v.db

theorem journal_disciplined (visits : List Visit) (g : Guard) (admitted : Bool) :
    Disciplined g admitted (journal delays visits g) := by
  induction visits generalizing g admitted with
  | nil => trivial
  | cons v visits ih =>
    rw [journal]
    apply (visitCalls_disciplined v g admitted).append
    intro admitted'
    cases hr : RetryLoop.processFile v.target delays v.attempts v.enteredAt v.found v.fuel g v.db with
    | none => trivial
    | some r =>
      rw [← visitCalls_guard hr]
      exact ih r.guard admitted'

end Calls

def failureTimes (calls : List Call) : List Timestamp :=
  ((calls.rtakeWhile fun c => c.operation ≠ .recordSuccess).filter
    fun c => c.operation = .recordFailure).map (·.now)

theorem failureTimes_concat (calls : List Call) (c : Call) :
    failureTimes (calls ++ [c]) =
      match c.operation with
      | .canExecute => failureTimes calls
      | .recordSuccess => []
      | .recordFailure => failureTimes calls ++ [c.now] := by
  unfold failureTimes
  cases h : c.operation with
  | recordSuccess => rw [List.rtakeWhile_concat_neg _ _ _ (by simp [h])]; rfl
  | canExecute => rw [List.rtakeWhile_concat_pos _ _ _ (by simp [h])]; simp [h]
  | recordFailure => rw [List.rtakeWhile_concat_pos _ _ _ (by simp [h])]; simp [h]

theorem length_failureTimes (calls : List Call) :
    (failureTimes calls).length = failuresSinceSuccess calls := by
  rw [failureTimes, failuresSinceSuccess, List.length_map, List.countP_eq_length_filter]

theorem totalSeconds_add (a b c : Timestamp) :
    totalSeconds a b + totalSeconds b c = totalSeconds a c := by
  simp only [totalSeconds]
  push_cast
  ring

theorem totalSeconds_nonneg {a b : Timestamp} (h : a ≤ b) : 0 ≤ totalSeconds a b := by
  have hdiff : (0 : ℚ) ≤ (((b : Int) - (a : Int) : Int) : ℚ) :=
    Int.cast_nonneg (Int.sub_nonneg_of_le (Int.ofNat_le.mpr h))
  exact div_nonneg hdiff (by norm_num)

def Apart (cooldown : Rat) (a b : Timestamp) : Prop := cooldown ≤ totalSeconds a b

/-- What holds after the calls. From the failure that reaches the threshold on, the failures are
apart; the breaker is open since the last of them, or has been probing for less than since then. -/
structure Budget (threshold : Nat) (cooldown : Rat) (calls : List Call) (g : Guard)
    (admitted : Bool) : Prop where
  apart : ((failureTimes calls).drop (threshold - 1)).IsChain (Apart cooldown)
  opened : g.breaker.state = .OPEN → (failureTimes calls).getLast? = some g.breaker.lastStateChange
  probing : g.breaker.state = .HALF_OPEN → (∃ c ∈ calls, c.now = g.breaker.lastStateChange) ∧
    ∀ last ∈ (failureTimes calls).getLast?, Apart cooldown last g.breaker.lastStateChange
  admitted : admitted = true → g.breaker.state ≠ .OPEN

theorem isChain_concat {α : Type} {R : α → α → Prop} {xs : List α} {y : α} (h : xs.IsChain R)
    (hlast : ∀ x ∈ xs.getLast?, R x y) : (xs ++ [y]).IsChain R := by
  rw [List.isChain_append]
  refine ⟨h, List.isChain_singleton y, fun x hx z hz => ?_⟩
  rw [List.head?_cons, Option.mem_some_iff] at hz
  rw [← hz]
  exact hlast x hx

section Steps

variable {threshold : Nat} {cooldown : Rat} {created : Timestamp} {calls : List Call} {g : Guard}
  {admitted : Bool}

theorem Budget.canExecute (h : Budget threshold cooldown calls g admitted)
    (hcool : g.breaker.cooldownSeconds = cooldown) (now : Timestamp) :
    Budget threshold cooldown (calls ++ [⟨.canExecute, now⟩]) (step g ⟨.canExecute, now⟩)
      (BreakerRuns.canExecute now g).1 := by
  have htimes : failureTimes (calls ++ [⟨.canExecute, now⟩]) = failureTimes calls :=
    failureTimes_concat calls ⟨.canExecute, now⟩
  have hstep : step g ⟨.canExecute, now⟩ = (BreakerRuns.canExecute now g).2 := rfl
  rw [hstep]
  by_cases hopen : g.breaker.state = .OPEN
  · by_cases hpassed : cooldown ≤ totalSeconds g.breaker.lastStateChange now
    · have hresult : BreakerRuns.canExecute now g = (true,
          { breaker := { g.breaker with state := .HALF_OPEN, lastStateChange := now }
            metrics := { g.metrics with circuitBreakerState := .HALF_OPEN } }) := by
        have hpassed' : g.breaker.cooldownSeconds ≤ totalSeconds g.breaker.lastStateChange now :=
          hcool.trans_le hpassed
        rw [BreakerRuns.canExecute, if_pos hopen, if_pos hpassed']
      rw [hresult]
      refine ⟨by rw [htimes]; exact h.apart, fun hs => (by cases hs),
        fun _ => ⟨⟨_, List.mem_concat_self, rfl⟩, ?_⟩, fun _ hs => (by cases hs)⟩
      intro last hlast
      rw [htimes, h.opened hopen, Option.mem_some_iff] at hlast
      rw [← hlast]
      exact hpassed
    · have hresult : BreakerRuns.canExecute now g = (false, g) := by
        rw [BreakerRuns.canExecute, if_pos hopen, hcool, if_neg hpassed]
      rw [hresult]
      refine ⟨by rw [htimes]; exact h.apart, fun hs => by rw [htimes]; exact h.opened hs, ?_,
        fun hs => (by cases hs)⟩
      intro hs
      rw [hopen] at hs
      cases hs
  · have hresult : BreakerRuns.canExecute now g = (true, g) := by
      rw [BreakerRuns.canExecute, if_neg hopen]
    rw [hresult]
    refine ⟨by rw [htimes]; exact h.apart, fun hs => absurd hs hopen, ?_, fun _ => hopen⟩
    intro hs
    obtain ⟨⟨c, hc, hnow⟩, hlast⟩ := h.probing hs
    exact ⟨⟨c, List.mem_append_left _ hc, hnow⟩, by rwa [htimes]⟩

theorem budget_success (now : Timestamp) :
    Budget threshold cooldown (calls ++ [⟨.recordSuccess, now⟩]) (step g ⟨.recordSuccess, now⟩)
      false := by
  have htimes : failureTimes (calls ++ [⟨.recordSuccess, now⟩]) = [] :=
    failureTimes_concat calls ⟨.recordSuccess, now⟩
  refine ⟨by rw [htimes]; simp, fun hs => (by cases hs), fun hs => (by cases hs),
    fun hs => (by cases hs)⟩

theorem Budget.recordFailure (hpos : 1 ≤ threshold) (h : Budget threshold cooldown calls g true)
    (hlaw : Lawful (fresh threshold cooldown created) calls g) {now : Timestamp}
    (hclock : ∀ c ∈ calls, c.now ≤ now) :
    Budget threshold cooldown (calls ++ [⟨.recordFailure, now⟩]) (step g ⟨.recordFailure, now⟩)
      false := by
  have htimes : failureTimes (calls ++ [⟨.recordFailure, now⟩]) = failureTimes calls ++ [now] :=
    failureTimes_concat calls ⟨.recordFailure, now⟩
  have hthreshold : g.breaker.failureThreshold = threshold := hlaw.threshold
  have hcount : g.breaker.failureCount = (failureTimes calls).length := by
    rw [hlaw.count, length_failureTimes]
  have hnotOpen := h.admitted rfl
  have hapart : ((failureTimes calls ++ [now]).drop (threshold - 1)).IsChain (Apart cooldown) := by
    by_cases hreached : threshold ≤ (failureTimes calls).length
    · have hhalf : g.breaker.state = .HALF_OPEN := by
        have hclosed : g.breaker.state ≠ .CLOSED := by
          rw [ne_eq, hlaw.closed_iff, hcount, hthreshold]
          omega
        cases hs : g.breaker.state with
        | CLOSED => exact absurd hs hclosed
        | OPEN => exact absurd hs hnotOpen
        | HALF_OPEN => rfl
      obtain ⟨⟨c, hc, hchange⟩, hlast⟩ := h.probing hhalf
      have hlater : 0 ≤ totalSeconds g.breaker.lastStateChange now := by
        rw [← hchange]
        exact totalSeconds_nonneg (hclock c hc)
      rw [List.drop_append_of_le_length (by omega)]
      apply isChain_concat h.apart
      intro last hmem
      rw [List.getLast?_drop, if_neg (by omega)] at hmem
      have hsince := hlast last hmem
      rw [Apart] at hsince ⊢
      rw [← totalSeconds_add last g.breaker.lastStateChange now]
      linarith
    · have hshort : ((failureTimes calls ++ [now]).drop (threshold - 1)).length ≤ 1 := by
        rw [List.length_drop, List.length_append, List.length_singleton]
        omega
      match (failureTimes calls ++ [now]).drop (threshold - 1), hshort with
      | [], _ => exact List.isChain_nil
      | [t], _ => exact List.isChain_singleton t
      | _ :: _ :: _, hshort => simp at hshort
  have hstep : step g ⟨.recordFailure, now⟩ = BreakerRuns.recordFailure now g := rfl
  rw [hstep]
  by_cases hopens : g.breaker.failureThreshold ≤ g.breaker.failureCount + 1
  · have hresult : (BreakerRuns.recordFailure now g).breaker.state = .OPEN ∧
        (BreakerRuns.recordFailure now g).breaker.lastStateChange = now := by
      simp only [BreakerRuns.recordFailure, hopens, hnotOpen, ne_eq, not_false_eq_true, and_self,
        if_true]
    refine ⟨by rwa [htimes], fun _ => ?_, fun hs => ?_, fun hs => (by cases hs)⟩
    · rw [htimes, List.getLast?_concat, hresult.2]
    · rw [hresult.1] at hs
      cases hs
  · have hresult : (BreakerRuns.recordFailure now g).breaker.state = g.breaker.state := by
      simp only [BreakerRuns.recordFailure, hopens, false_and, if_false]
    have hclosed : g.breaker.state = .CLOSED := by
      rw [hlaw.closed_iff]
      omega
    refine ⟨by rwa [htimes], fun hs => ?_, fun hs => ?_, fun hs => (by cases hs)⟩
    · rw [hresult, hclosed] at hs
      cases hs
    · rw [hresult, hclosed] at hs
      cases hs

theorem budget_run (hpos : 1 ≤ threshold) {rest : List Call} (h : Budget threshold cooldown calls g admitted)
    (hg : g = calls.foldl step (fresh threshold cooldown created))
    (hdisciplined : Disciplined g admitted rest)
    (hclock : (calls ++ rest).Pairwise fun c c' => c.now ≤ c'.now) :
    ∃ admitted', Budget threshold cooldown (calls ++ rest) (rest.foldl step g) admitted' := by
  induction rest generalizing calls g admitted with
  | nil => exact ⟨admitted, by rwa [List.append_nil]⟩
  | cons c rest ih =>
    have hlaw : Lawful (fresh threshold cooldown created) calls g := by
      rw [hg]
      exact lawful_run hpos (lawful_fresh cooldown created hpos) calls
    have hnext : step g c = (calls ++ [c]).foldl step (fresh threshold cooldown created) := by
      rw [List.foldl_append, ← hg]
      rfl
    have hsplit : calls ++ c :: rest = calls ++ [c] ++ rest := by simp
    have hearlier : ∀ c' ∈ calls, c'.now ≤ c.now := by
      intro c' hc'
      exact (List.pairwise_append.mp hclock).2.2 c' hc' c (by simp)
    rw [hsplit] at hclock ⊢
    rw [List.foldl_cons]
    obtain ⟨operation, now⟩ := c
    cases operation with
    | canExecute => exact ih (h.canExecute hlaw.cooldown now) hnext hdisciplined hclock
    | recordSuccess => exact ih (budget_success now) hnext hdisciplined hclock
    | recordFailure =>
      obtain ⟨hadmitted, hdisciplined⟩ := hdisciplined
      rw [hadmitted] at h
      exact ih (h.recordFailure hpos hlaw hearlier) hnext hdisciplined hclock

end Steps

theorem apart_sum {cooldown : Rat} {first : Timestamp} {rest : List Timestamp}
    (h : (first :: rest).IsChain (Apart cooldown)) {last : Timestamp}
    (hlast : (first :: rest).getLast? = some last) :
    (rest.length : Rat) * cooldown ≤ totalSeconds first last := by
  induction rest generalizing first with
  | nil =>
    obtain rfl := Option.some.inj hlast
    simp [totalSeconds]
  | cons next rest ih =>
    obtain ⟨hapart, hrest⟩ := List.isChain_cons_cons.mp h
    have hlater := ih hrest (by rwa [List.getLast?_cons_cons] at hlast)
    rw [Apart] at hapart
    rw [← totalSeconds_add first next last, List.length_cons]
    push_cast
    linarith

section Runs

variable [Alnum] {threshold : Nat} (delays : List ℚ≥0)

/-- In an outage, whatever process_file is called for and whenever, the attempts that fail after the
breaker's threshold has been reached are at least the cooldown apart, so that their number is
bounded by the time that they take. -/
theorem outage_budget (hpos : 1 ≤ threshold) (cooldown : Rat) (created : Timestamp)
    (visits : List Visit)
    (hclock : (journal delays visits (fresh threshold cooldown created)).Pairwise
      fun c c' => c.now ≤ c'.now) :
    let failures := failureTimes (journal delays visits (fresh threshold cooldown created))
    (failures.drop (threshold - 1)).IsChain (Apart cooldown) ∧
      ∀ reached ∈ failures[threshold - 1]?, ∀ last ∈ failures.getLast?,
        ((failures.length - threshold : Nat) : Rat) * cooldown ≤ totalSeconds reached last := by
  intro failures
  have hstart : Budget threshold cooldown [] (fresh threshold cooldown created) false :=
    ⟨by simp [failureTimes], fun hs => (by cases hs), fun hs => (by cases hs), fun hs => (by cases hs)⟩
  obtain ⟨_, hbudget⟩ := budget_run hpos hstart rfl
    (journal_disciplined visits (fresh threshold cooldown created) false) hclock
  have hapart : (failures.drop (threshold - 1)).IsChain (Apart cooldown) := hbudget.apart
  refine ⟨hapart, fun reached hreached last hlast => ?_⟩
  obtain ⟨hlt, hget⟩ := List.getElem?_eq_some_iff.mp hreached
  have hdrop : failures.drop (threshold - 1) = reached :: failures.drop threshold := by
    rw [List.drop_eq_getElem_cons hlt, hget, Nat.sub_add_cancel hpos]
  rw [hdrop] at hapart
  have hend : (reached :: failures.drop threshold).getLast? = some last := by
    rw [← hdrop, List.getLast?_drop, if_neg (by omega)]
    exact hlast
  have hsum := apart_sum hapart hend
  rwa [List.length_drop] at hsum

end Runs

def failingVisit (now : Timestamp) : Visit where
  target := idleTarget
  found := true
  enteredAt := now
  attempts := fun _ => { unreachableDatabase with recordedAt := now, checkedAt := now }
  fuel := 5
  db := {}

theorem outage_budget_two_visits :
    (failureTimes (@journal asciiAlnum [5] [failingVisit 0, failingVisit 40000000]
      (fresh 1 30 0))).IsChain (Apart 30) :=
  (@outage_budget asciiAlnum 1 [5] le_rfl 30 0 [failingVisit 0, failingVisit 40000000]
    (by decide +kernel)).1

end AtmMonitor.OutageBudget

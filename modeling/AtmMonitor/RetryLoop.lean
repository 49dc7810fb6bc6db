import AtmMonitor.BreakerRuns
import AtmMonitor.ParserService
import Mathlib

namespace AtmMonitor.RetryLoop

open PyText ParserModels DatabaseModels ParserService BreakerRuns

inductive Action where
  | attempt
  | sleep (delay : ℚ≥0)
  deriving DecidableEq

/-- What one attempt meets: the pass itself, and the readings of the clock by the breaker. -/
structure Attempt where
  env : ScanEnv
  recordedAt : Timestamp
  checkedAt : Timestamp

inductive Answer where
  | returned (changed : Bool)
  | raised
  deriving DecidableEq

structure Outcome where
  answer : Answer
  trace : List Action
  guard : Guard
  db : Database

def Outcome.after (actions : List Action) (r : Outcome) : Outcome :=
  { r with trace := actions ++ r.trace }

/-- `self.backoff_delays[min(attempt - 1, len(self.backoff_delays) - 1)]` for the retry that follows
`failed` earlier ones. -/
def backoff (delays : List ℚ≥0) (failed : Nat) : Option ℚ≥0 :=
  delays[min failed (delays.length - 1)]?

section Loop

variable [Alnum] (target : Target) (delays : List ℚ≥0) (attempts : Nat → Attempt)

/-- `while True`, for as many attempts as there is fuel. -/
def retryLoop : Nat → Nat → Guard → Database → Option Outcome
  | 0, _, _, _ => none
  | fuel + 1, failed, g, db =>
    let attempt := attempts failed
    let r := scan target attempt.env db
    match r.1 with
    | .parsed _ => some ⟨.returned true, [.attempt], recordSuccess attempt.recordedAt g, r.2⟩
    | .idle => some ⟨.returned false, [.attempt], recordSuccess attempt.recordedAt g, r.2⟩
    | .failed => some ⟨.raised, [.attempt], g, r.2⟩
    | .databaseError =>
      let checked := canExecute attempt.checkedAt (recordFailure attempt.recordedAt g)
      if checked.1 then
        match backoff delays failed with
        | some delay =>
          (retryLoop fuel (failed + 1) checked.2 r.2).map (·.after [.attempt, .sleep delay])
        | none => some ⟨.raised, [.attempt], checked.2, r.2⟩
      else some ⟨.returned false, [.attempt], checked.2, r.2⟩

def processFile (enteredAt : Timestamp) (found : Bool) (fuel : Nat) (g : Guard) (db : Database) :
    Option Outcome :=
  let entered := canExecute enteredAt g
  if entered.1 && found then retryLoop target delays attempts fuel 0 entered.2 db
  else some ⟨.returned false, [], entered.2, db⟩

/-- The database that each attempt finds, when those before it were retried. -/
def databases (db : Database) : Nat → Database
  | 0 => db
  | i + 1 => (scan target (attempts i).env (databases db i)).2

def spaced (failed n : Nat) : List Action :=
  ((List.range' failed (n - 1)).flatMap fun i =>
    [.attempt, .sleep (delays.getD (min i (delays.length - 1)) 0)]) ++ [.attempt]

/-- The loop gave up after `n` attempts. -/
structure GivesUp (failed n : Nat) (r : Outcome) : Prop where
  answer : r.answer = .returned false
  opened : r.guard.breaker.state = .OPEN
  trace : r.trace = spaced delays failed n

end Loop

def remaining (g : Guard) : Nat := max 1 (g.breaker.failureThreshold - g.breaker.failureCount)

theorem settings_run (start : Guard) (calls : List Call) :
    (calls.foldl step start).breaker.failureThreshold = start.breaker.failureThreshold ∧
      (calls.foldl step start).breaker.cooldownSeconds = start.breaker.cooldownSeconds :=
  Library.Runs.foldl_invariant (P := fun g =>
      g.breaker.failureThreshold = start.breaker.failureThreshold ∧
        g.breaker.cooldownSeconds = start.breaker.cooldownSeconds)
    ⟨rfl, rfl⟩
    (fun g c _ h => ⟨(step_settings g c).1.trans h.1, (step_settings g c).2.trans h.2⟩)

theorem canExecute_admits {g : Guard} {now : Timestamp} (h : (canExecute now g).1 = true) :
    (canExecute now g).2.breaker.state ≠ .OPEN ∧ remaining (canExecute now g).2 = remaining g := by
  simp only [canExecute] at h ⊢
  split_ifs at h ⊢ with hopen hcool
  · exact ⟨by simp, rfl⟩
  · exact ⟨hopen, rfl⟩

/-- A failure either leaves the breaker closed and admits the next attempt, or it was the last. -/
theorem recordFailure_check {g : Guard} (hopen : g.breaker.state ≠ .OPEN)
    {recordedAt checkedAt : Timestamp}
    (hsoon : totalSeconds recordedAt checkedAt < g.breaker.cooldownSeconds) :
    let g' := recordFailure recordedAt g
    canExecute checkedAt g' = (decide (1 < remaining g), g') ∧
      (remaining g = 1 → g'.breaker.state = .OPEN) ∧
      (1 < remaining g → g'.breaker.state ≠ .OPEN ∧ remaining g' + 1 = remaining g) := by
  intro g'
  by_cases hlast : g.breaker.failureThreshold ≤ g.breaker.failureCount + 1
  · have hrem : remaining g = 1 := max_eq_left (by omega)
    have hg' : g'.breaker.state = .OPEN ∧ g'.breaker.lastStateChange = recordedAt ∧
        g'.breaker.cooldownSeconds = g.breaker.cooldownSeconds := by
      simp only [g', recordFailure, hlast, hopen, ne_eq, not_false_eq_true, and_self, if_true]
    have hcool : ¬ g'.breaker.cooldownSeconds ≤ totalSeconds g'.breaker.lastStateChange checkedAt := by
      rw [hg'.2.1, hg'.2.2]
      exact not_le.mpr hsoon
    refine ⟨?_, fun _ => hg'.1, fun h1 => absurd hrem h1.ne'⟩
    simp only [canExecute, hg'.1, if_true, hcool, if_false, hrem, lt_irrefl, decide_false]
  · have hrem : remaining g = g.breaker.failureThreshold - g.breaker.failureCount :=
      max_eq_right (by omega)
    have hg' : g' = { g with breaker := { g.breaker with
        failureCount := g.breaker.failureCount + 1 } } := by
      simp only [g', recordFailure, hlast, false_and, if_false]
    have hstate : g'.breaker.state ≠ .OPEN := by rwa [hg']
    refine ⟨?_, fun h1 => by omega, fun _ => ⟨hstate, ?_⟩⟩
    · rw [canExecute, if_neg hstate, decide_eq_true (by omega)]
    · rw [hrem, remaining, hg']
      simp only
      omega

section GivesUp

variable [Alnum] (target : Target) (delays : List ℚ≥0) (attempts : Nat → Attempt)

omit [Alnum] in
theorem backoff_eq (hdelays : delays ≠ []) (failed : Nat) :
    backoff delays failed = some (delays.getD (min failed (delays.length - 1)) 0) := by
  have hlt : min failed (delays.length - 1) < delays.length := by
    have := List.length_pos_iff.mpr hdelays
    omega
  rw [backoff, List.getElem?_eq_getElem hlt, List.getD_eq_getElem?_getD,
    List.getElem?_eq_getElem hlt, Option.getD_some]

omit [Alnum] in
theorem spaced_succ {n : Nat} (hn : 1 ≤ n) (failed : Nat) :
    spaced delays failed (n + 1) =
      [.attempt, .sleep (delays.getD (min failed (delays.length - 1)) 0)] ++
        spaced delays (failed + 1) n := by
  obtain ⟨n, rfl⟩ := Nat.exists_eq_add_of_le' hn
  rw [spaced, spaced, Nat.add_sub_cancel, Nat.add_sub_cancel, List.range'_succ, List.flatMap_cons,
    List.append_assoc]

omit [Alnum] in
theorem spaced_count {n : Nat} (hn : 1 ≤ n) (failed : Nat) :
    (spaced delays failed n).count .attempt = n := by
  induction n, hn using Nat.le_induction generalizing failed with
  | base => rfl
  | succ n hn ih =>
    rw [spaced_succ delays hn, List.count_append, ih]
    simp [Nat.add_comm]

/-- Every further attempt is one failure nearer to the threshold. -/
theorem retryLoop_gives_up (hdelays : delays ≠ []) (db : Database) {n : Nat} (failed : Nat) {g : Guard}
    (hopen : g.breaker.state ≠ .OPEN) (hn : remaining g = n)
    (herror : ∀ i, failed ≤ i → i < failed + n →
      (scan target (attempts i).env (databases target attempts db i)).1 = .databaseError)
    (hsoon : ∀ i, failed ≤ i → i < failed + n →
      totalSeconds (attempts i).recordedAt (attempts i).checkedAt < g.breaker.cooldownSeconds) :
    ∃ r, GivesUp delays failed n r ∧ ∀ fuel, n ≤ fuel →
      retryLoop target delays attempts fuel failed g (databases target attempts db failed) = some r := by
  induction n generalizing failed g with
  | zero =>
    have hpos : 1 ≤ remaining g := le_max_left _ _
    omega
  | succ n ih =>
    have hfirst := herror failed le_rfl (by omega)
    obtain ⟨hcheck, hlast, hnext⟩ := recordFailure_check hopen (hsoon failed le_rfl (by omega))
    obtain rfl | hmore := Nat.eq_zero_or_pos n
    · refine ⟨⟨.returned false, [.attempt], recordFailure (attempts failed).recordedAt g,
        databases target attempts db (failed + 1)⟩, ⟨rfl, hlast hn, rfl⟩, fun fuel hfuel => ?_⟩
      obtain ⟨fuel, rfl⟩ := Nat.exists_eq_add_of_le' hfuel
      simp only [retryLoop, hfirst, hcheck, hn, Nat.zero_add, lt_irrefl, decide_false,
        Bool.false_eq_true, if_false]
      rfl
    · obtain ⟨hopen', hrem⟩ := hnext (by omega)
      have hsettings := step_settings g ⟨.recordFailure, (attempts failed).recordedAt⟩
      obtain ⟨r, hgives, hr⟩ := ih (failed + 1)
        hopen' (by omega)
        (fun i hi hlt => herror i (by omega) (by omega))
        (fun i hi hlt => (hsoon i (by omega) (by omega)).trans_eq hsettings.2.symm)
      set pause := delays.getD (min failed (delays.length - 1)) 0 with hpause
      refine ⟨r.after [.attempt, .sleep pause], ⟨hgives.answer, hgives.opened, ?_⟩, fun fuel hfuel => ?_⟩
      · rw [spaced_succ delays hmore, ← hgives.trace]
        rfl
      · obtain ⟨fuel, rfl⟩ := Nat.exists_eq_add_of_le' (m := 1) (n := fuel) (by omega)
        have hadmitted : decide (1 < remaining g) = true := decide_eq_true (by omega)
        simp only [retryLoop, hfirst, hcheck, hadmitted, if_true, backoff_eq delays hdelays]
        exact congrArg (Option.map _) (hr fuel (by omega))

/-- While the database fails and the breaker does not cool down in between, as many attempts are made
as failures are left until the breaker opens, but at least one. -/
theorem retry_stops (threshold : Nat) (cooldown : ℚ) (created : Timestamp) (calls : List Call)
    (enteredAt : Timestamp) (db : Database) (hdelays : delays ≠ [])
    (hadmits : (canExecute enteredAt (calls.foldl step (fresh threshold cooldown created))).1 = true) :
    let g := calls.foldl step (fresh threshold cooldown created)
    let n := max 1 (threshold - g.breaker.failureCount)
    (∀ i < n, (scan target (attempts i).env (databases target attempts db i)).1 = .databaseError) →
    (∀ i < n, totalSeconds (attempts i).recordedAt (attempts i).checkedAt < cooldown) →
    ∃ r, (∀ fuel, n ≤ fuel →
        processFile target delays attempts enteredAt true fuel g db = some r) ∧
      r.answer = .returned false ∧ r.guard.breaker.state = .OPEN ∧ r.trace.count .attempt = n ∧
      r.trace = spaced delays 0 n := by
  intro g n herror hsoon
  obtain ⟨hthreshold, hcooldown⟩ := settings_run (fresh threshold cooldown created) calls
  obtain ⟨hopen, hrem⟩ := canExecute_admits hadmits
  have hn : remaining (canExecute enteredAt g).2 = n := by
    rw [hrem, remaining, hthreshold]
    rfl
  have hcool : (canExecute enteredAt g).2.breaker.cooldownSeconds = cooldown :=
    (step_settings g ⟨.canExecute, enteredAt⟩).2.trans hcooldown
  obtain ⟨r, hgives, hr⟩ := retryLoop_gives_up target delays attempts hdelays db 0
    hopen hn (fun i _ hi => herror i (by omega)) (fun i _ hi => (hsoon i (by omega)).trans_eq hcool.symm)
  refine ⟨r, fun fuel hfuel => ?_, hgives.answer, hgives.opened, ?_, hgives.trace⟩
  · rw [processFile, hadmits]
    exact hr fuel hfuel
  · rw [hgives.trace, spaced_count delays (le_max_left _ _)]

end GivesUp

def idleTarget : Target where
  sha256 := fun _ => []
  atmId := 1
  filePath := []
  fileName := []

def unreachableDatabase : Attempt where
  env := { size := 0, modified := 0, header := none, reads := [], finalHeader := none,
           raises := fun s => if s = .getFileState then some .database else none }
  recordedAt := 0
  checkedAt := 0

/-- Nothing is left of an allowance of two after the two failures of these passes. -/
theorem retry_stops_twice :
    ∃ r, (∀ fuel, 2 ≤ fuel → @processFile asciiAlnum idleTarget [5, 10] (fun _ => unreachableDatabase)
        0 true fuel (fresh 2 30 0) {} = some r) ∧
      r.answer = .returned false ∧ r.guard.breaker.state = .OPEN ∧ r.trace.count .attempt = 2 ∧
      r.trace = [.attempt, .sleep 5, .attempt] :=
  @retry_stops asciiAlnum idleTarget [5, 10] (fun _ => unreachableDatabase) 2 30 0 [] 0 {}
    (by decide) (by decide) (fun _ _ => rfl) (fun _ _ => by decide +kernel)

section Passes

variable [Alnum] {target : Target} {delays : List ℚ≥0} {attempts : Nat → Attempt}

theorem retryLoop_passes {fuel failed : Nat} {g : Guard} {db : Database} {r : Outcome}
    (h : retryLoop target delays attempts fuel failed g db = some r) :
    ∃ verdicts : List Bool, verdicts.length = r.trace.count .attempt ∧
      let envs := verdicts.mapIdx fun i opens =>
        { (attempts (failed + i)).env with breakerOpens := opens }
      (scanLoop target envs db).2 = r.db ∧
        (r.answer = .returned true ↔ ∃ offset, (scanLoop target envs db).1 = .parsed offset) := by
  induction fuel generalizing failed g db r with
  | zero => simp [retryLoop] at h
  | succ fuel ih =>
    have hscan : ∀ opens, scan target { (attempts failed).env with breakerOpens := opens } db =
        scan target (attempts failed).env db := fun _ => rfl
    obtain ⟨found, db', hfound⟩ : ∃ found db', scan target (attempts failed).env db = (found, db') :=
      ⟨_, _, rfl⟩
    simp only [retryLoop, hfound] at h
    cases found with
    | idle | parsed offset | failed =>
      obtain rfl := Option.some.inj h
      refine ⟨[false], rfl, ?_⟩
      simp [scanLoop, hscan, hfound]
    | databaseError =>
      split_ifs at h with hadmitted
      · cases hdelay : backoff delays failed with
        | none =>
          simp only [hdelay] at h
          obtain rfl := Option.some.inj h
          refine ⟨[false], rfl, ?_⟩
          simp [scanLoop, hscan, hfound]
        | some delay =>
          simp only [hdelay] at h
          obtain ⟨rest, hrest, rfl⟩ := Option.map_eq_some_iff.mp h
          obtain ⟨verdicts, hlength, hdb, hanswer⟩ := ih hrest
          refine ⟨false :: verdicts, ?_, ?_⟩
          · rw [List.length_cons, hlength]
            simp [Outcome.after]
          · simp only [Nat.add_assoc, Nat.add_comm 1] at hdb hanswer
            simp only [List.mapIdx_cons, Nat.add_zero, scanLoop, hscan, hfound]
            exact ⟨hdb, hanswer⟩
      · obtain rfl := Option.some.inj h
        refine ⟨[true], rfl, ?_⟩
        simp [scanLoop, hscan, hfound]

end Passes

end AtmMonitor.RetryLoop

import AtmMonitor.Library.Runs
import Mathlib.Data.List.Infix
import Mathlib.Logic.Function.Basic

namespace AtmMonitor.HealthMonitor

inductive Worker where
  | pollingThread | observer | heartbeatThread
  deriving DecidableEq

/-- The service, and of the services that it supervises, which are running, the threads. -/
structure HealthMonitorService where
  maxRestarts : Nat := 5
  monitorRestarts : Nat := 0
  heartbeatRestarts : Nat := 0
  isAlive : Worker → Bool := fun _ => true
  workerRestartCount : Nat := 0
  restarted : List Worker := []

/-- The counter that decides whether a worker is restarted. -/
def attempts (s : HealthMonitorService) : Worker → Nat
  | .pollingThread | .observer => s.monitorRestarts
  | .heartbeatThread => s.heartbeatRestarts

def countAttempt (s : HealthMonitorService) : Worker → HealthMonitorService
  | .pollingThread | .observer => { s with monitorRestarts := s.monitorRestarts + 1 }
  | .heartbeatThread => { s with heartbeatRestarts := s.heartbeatRestarts + 1 }

def startThread (w : Worker) (s : HealthMonitorService) : HealthMonitorService :=
  { s with
    isAlive := Function.update s.isAlive w true
    workerRestartCount := s.workerRestartCount + 1
    restarted := s.restarted ++ [w] }

def checkWorker (w : Worker) (s : HealthMonitorService) : HealthMonitorService :=
  if s.isAlive w then s
  else if attempts s w < s.maxRestarts then startThread w (countAttempt s w)
  else s

def checkServices (s : HealthMonitorService) : HealthMonitorService :=
  let s := checkWorker .pollingThread s
  let s := checkWorker .observer s
  checkWorker .heartbeatThread s

/-- The workers that crash between two of their checks; one that is down already stays so. -/
abbrev Crashes := Worker → Bool

def crash (crashed : Crashes) (s : HealthMonitorService) : HealthMonitorService :=
  { s with isAlive := fun w => s.isAlive w && !crashed w }

def round (s : HealthMonitorService) (crashed : Crashes) : HealthMonitorService :=
  checkServices (crash crashed s)

def run (maxRestarts : Nat) (rounds : List Crashes) : HealthMonitorService :=
  rounds.foldl round { maxRestarts := maxRestarts }

def restarts (s : HealthMonitorService) (w : Worker) : Nat := s.restarted.count w

/-- A worker found dead that has been restarted less often than the limit is restarted. -/
def Entitled (s : HealthMonitorService) (crashed : Crashes) : Prop :=
  ∀ w, (crash crashed s).isAlive w = false → restarts s w < s.maxRestarts →
    restarts (round s crashed) w = restarts s w + 1

structure OwnAllowance (maxRestarts : Nat) (rounds : List Crashes) : Prop where
  entitled : ∀ pre crashed, pre ++ [crashed] <+: rounds → Entitled (run maxRestarts pre) crashed
  bounded : ∀ pre, pre <+: rounds → ∀ w, restarts (run maxRestarts pre) w ≤ maxRestarts

def Restarts (s : HealthMonitorService) (w : Worker) : Prop :=
  s.isAlive w = false ∧ attempts s w < s.maxRestarts

instance (s : HealthMonitorService) (w : Worker) : Decidable (Restarts s w) :=
  inferInstanceAs (Decidable (_ ∧ _))

theorem checkWorker_eq (w : Worker) (s : HealthMonitorService) :
    checkWorker w s = if Restarts s w then startThread w (countAttempt s w) else s := by
  unfold checkWorker Restarts
  by_cases h : s.isAlive w = true
  · simp [h]
  · simp [h]

theorem countAttempt_frame (s : HealthMonitorService) (w : Worker) :
    (countAttempt s w).isAlive = s.isAlive ∧ (countAttempt s w).restarted = s.restarted ∧
      (countAttempt s w).maxRestarts = s.maxRestarts := by
  cases w <;> exact ⟨rfl, rfl, rfl⟩

theorem checkWorker_maxRestarts (w : Worker) (s : HealthMonitorService) :
    (checkWorker w s).maxRestarts = s.maxRestarts := by
  rw [checkWorker_eq]
  split_ifs
  · exact (countAttempt_frame s w).2.2
  · rfl

theorem checkWorker_restarts (w v : Worker) (s : HealthMonitorService) :
    restarts (checkWorker w s) v = restarts s v + if v = w ∧ Restarts s w then 1 else 0 := by
  rw [checkWorker_eq]
  by_cases h : Restarts s w
  · simp only [h, if_true, and_true, restarts, startThread, (countAttempt_frame s w).2.1,
      List.count_append, List.count_singleton, beq_iff_eq, eq_comm (a := w)]
  · simp only [h, if_false, and_false, Nat.add_zero]

theorem checkWorker_isAlive (w v : Worker) (s : HealthMonitorService) :
    (checkWorker w s).isAlive v = (s.isAlive v || decide (v = w ∧ Restarts s w)) := by
  rw [checkWorker_eq]
  by_cases h : Restarts s w
  · by_cases hv : v = w
    · subst hv
      simp [h, startThread]
    · simp [h, hv, startThread, (countAttempt_frame s w).1]
  · simp [h]

theorem checkWorker_monitorRestarts (w : Worker) (s : HealthMonitorService) :
    (checkWorker w s).monitorRestarts =
      s.monitorRestarts + if w ≠ .heartbeatThread ∧ Restarts s w then 1 else 0 := by
  rw [checkWorker_eq]
  by_cases h : Restarts s w
  · cases w <;> simp [h, startThread, countAttempt]
  · simp [h]

theorem checkWorker_heartbeatRestarts (w : Worker) (s : HealthMonitorService) :
    (checkWorker w s).heartbeatRestarts =
      s.heartbeatRestarts + if w = .heartbeatThread ∧ Restarts s w then 1 else 0 := by
  rw [checkWorker_eq]
  by_cases h : Restarts s w
  · cases w <;> simp [h, startThread, countAttempt]
  · simp [h]

def down (s : HealthMonitorService) (crashed : Crashes) (w : Worker) : Prop :=
  s.isAlive w = false ∨ crashed w = true

instance (s : HealthMonitorService) (crashed : Crashes) (w : Worker) :
    Decidable (down s crashed w) :=
  inferInstanceAs (Decidable (_ ∨ _))

theorem crash_isAlive (s : HealthMonitorService) (crashed : Crashes) (w : Worker) :
    (crash crashed s).isAlive w = false ↔ down s crashed w := by
  rw [crash, down, Bool.and_eq_false_iff, Bool.not_eq_false']

/-- The restarts of a round, of which the second depends on the first. -/
def restartsPolling (s : HealthMonitorService) (crashed : Crashes) : Nat :=
  if down s crashed .pollingThread ∧ s.monitorRestarts < s.maxRestarts then 1 else 0

def restartsObserver (s : HealthMonitorService) (crashed : Crashes) : Nat :=
  if down s crashed .observer ∧
    s.monitorRestarts + restartsPolling s crashed < s.maxRestarts then 1 else 0

def restartsHeartbeat (s : HealthMonitorService) (crashed : Crashes) : Nat :=
  if down s crashed .heartbeatThread ∧ s.heartbeatRestarts < s.maxRestarts then 1 else 0

def restartsIn (s : HealthMonitorService) (crashed : Crashes) : Worker → Nat
  | .pollingThread => restartsPolling s crashed
  | .observer => restartsObserver s crashed
  | .heartbeatThread => restartsHeartbeat s crashed

structure RoundSpec (s : HealthMonitorService) (crashed : Crashes) (s' : HealthMonitorService) :
    Prop where
  maxRestarts : s'.maxRestarts = s.maxRestarts
  monitorRestarts : s'.monitorRestarts =
    s.monitorRestarts + restartsPolling s crashed + restartsObserver s crashed
  heartbeatRestarts : s'.heartbeatRestarts = s.heartbeatRestarts + restartsHeartbeat s crashed
  restarts : ∀ w, restarts s' w = restarts s w + restartsIn s crashed w
  isAlive : ∀ w, s'.isAlive w = false ↔ down s crashed w ∧ restartsIn s crashed w = 0

theorem round_spec (s : HealthMonitorService) (crashed : Crashes) :
    RoundSpec s crashed (round s crashed) := by
  set s₁ := crash crashed s with h₁
  set s₂ := checkWorker .pollingThread s₁ with h₂
  set s₃ := checkWorker .observer s₂ with h₃
  have hround : round s crashed = checkWorker .heartbeatThread s₃ := rfl
  have hdown : ∀ w, s₁.isAlive w = false ↔ down s crashed w := crash_isAlive s crashed
  have halive₂ : ∀ v, s₂.isAlive v = _ := fun v => checkWorker_isAlive .pollingThread v s₁
  have halive₃ : ∀ v, s₃.isAlive v = _ := fun v => checkWorker_isAlive .observer v s₂
  have hcount₂ : ∀ v, restarts s₂ v = _ := fun v => checkWorker_restarts .pollingThread v s₁
  have hcount₃ : ∀ v, restarts s₃ v = _ := fun v => checkWorker_restarts .observer v s₂
  have hmax₂ : s₂.maxRestarts = s.maxRestarts := checkWorker_maxRestarts _ _
  have hmax₃ : s₃.maxRestarts = s.maxRestarts := (checkWorker_maxRestarts _ _).trans hmax₂
  have hpolling : (if Restarts s₁ .pollingThread then 1 else 0) = restartsPolling s crashed :=
    if_congr (and_congr (hdown .pollingThread) Iff.rfl) rfl rfl
  have hmonitor₂ : s₂.monitorRestarts = s.monitorRestarts + restartsPolling s crashed := by
    rw [h₂, checkWorker_monitorRestarts, ← hpolling]
    simp [h₁, crash]
  have hobserver : (if Restarts s₂ .observer then 1 else 0) = restartsObserver s crashed := by
    apply if_congr _ rfl rfl
    rw [Restarts, attempts, hmonitor₂, hmax₂, halive₂]
    simpa using fun _ => hdown .observer
  have hheartbeat₃ : s₃.heartbeatRestarts = s.heartbeatRestarts := by
    rw [h₃, checkWorker_heartbeatRestarts, h₂, checkWorker_heartbeatRestarts]
    simp [h₁, crash]
  have hheartbeat : (if Restarts s₃ .heartbeatThread then 1 else 0) = restartsHeartbeat s crashed := by
    apply if_congr _ rfl rfl
    rw [Restarts, attempts, hheartbeat₃, hmax₃, halive₃, halive₂]
    simpa using fun _ => hdown .heartbeatThread
  refine ⟨?_, ?_, ?_, fun w => ?_, fun w => ?_⟩
  · rw [hround, checkWorker_maxRestarts, hmax₃]
  · rw [hround, checkWorker_monitorRestarts, h₃, checkWorker_monitorRestarts, hmonitor₂,
      ← hobserver]
    simp
  · rw [hround, checkWorker_heartbeatRestarts, hheartbeat₃, ← hheartbeat]
    simp
  · have hstart : restarts s₁ w = restarts s w := rfl
    rw [hround, checkWorker_restarts, hcount₃, hcount₂, hstart]
    cases w <;> simp [restartsIn, ← hpolling, ← hobserver, ← hheartbeat]
  · rw [hround, checkWorker_isAlive, halive₃, halive₂, ← hdown w]
    cases w <;> simp [restartsIn, ← hpolling, ← hobserver, ← hheartbeat]

structure Booked (s : HealthMonitorService) : Prop where
  monitor : s.monitorRestarts = restarts s .pollingThread + restarts s .observer
  heartbeat : s.heartbeatRestarts = restarts s .heartbeatThread
  monitor_le : s.monitorRestarts ≤ s.maxRestarts
  heartbeat_le : s.heartbeatRestarts ≤ s.maxRestarts

theorem booked_round {s : HealthMonitorService} (h : Booked s) (crashed : Crashes) :
    Booked (round s crashed) := by
  obtain ⟨hmax, hmonitor, hheartbeat, hrestarts, -⟩ := round_spec s crashed
  have hp : restartsPolling s crashed = 0 ∨ s.monitorRestarts < s.maxRestarts ∧
      restartsPolling s crashed = 1 := by
    unfold restartsPolling
    split_ifs with hif
    · exact .inr ⟨hif.2, rfl⟩
    · exact .inl rfl
  have ho : restartsObserver s crashed = 0 ∨
      s.monitorRestarts + restartsPolling s crashed < s.maxRestarts ∧
        restartsObserver s crashed = 1 := by
    unfold restartsObserver
    split_ifs with hif
    · exact .inr ⟨hif.2, rfl⟩
    · exact .inl rfl
  have hh : restartsHeartbeat s crashed = 0 ∨ s.heartbeatRestarts < s.maxRestarts ∧
      restartsHeartbeat s crashed = 1 := by
    unfold restartsHeartbeat
    split_ifs with hif
    · exact .inr ⟨hif.2, rfl⟩
    · exact .inl rfl
  obtain ⟨h1, h2, h3, h4⟩ := h
  constructor
  · rw [hmonitor, hrestarts, hrestarts]
    simp only [restartsIn]
    omega
  · rw [hheartbeat, hrestarts]
    simp only [restartsIn]
    omega
  · omega
  · omega

/-- The heartbeat thread has a counter of its own, the other two share one. -/
theorem entitled_iff {s : HealthMonitorService} (h : Booked s) (crashed : Crashes) :
    Entitled s crashed ↔
      (down s crashed .pollingThread → restarts s .pollingThread < s.maxRestarts →
        s.monitorRestarts < s.maxRestarts) ∧
      (down s crashed .observer → restarts s .observer < s.maxRestarts →
        s.monitorRestarts + restartsPolling s crashed < s.maxRestarts) := by
  have hrestarts := (round_spec s crashed).restarts
  have hone : ∀ w, restarts (round s crashed) w = restarts s w + 1 ↔ restartsIn s crashed w = 1 := by
    intro w
    rw [hrestarts]
    omega
  simp only [Entitled, crash_isAlive, hone]
  constructor
  · refine fun hall => ⟨fun hdown hlt => ?_, fun hdown hlt => ?_⟩
    · have hin := hall .pollingThread hdown hlt
      simp only [restartsIn, restartsPolling, hdown, true_and] at hin
      split_ifs at hin with hif
      exact hif
    · have hin := hall .observer hdown hlt
      simp only [restartsIn, restartsObserver, hdown, true_and] at hin
      split_ifs at hin with hif
      exact hif
  · rintro ⟨hpolling, hobserver⟩ w hdown hlt
    cases w with
    | pollingThread => exact if_pos ⟨hdown, hpolling hdown hlt⟩
    | observer => exact if_pos ⟨hdown, hobserver hdown hlt⟩
    | heartbeatThread => exact if_pos ⟨hdown, by rwa [h.heartbeat]⟩

def crashCount (rounds : List Crashes) (w : Worker) : Nat := rounds.countP fun crashed => crashed w

/-- The two workers of the file monitor get along with one allowance. -/
def Suffices (maxRestarts polling observer : Nat) : Prop :=
  maxRestarts = 0 ∨ polling + observer ≤ maxRestarts ∨ polling = 0 ∨ observer = 0

/-- While nothing has been refused that is due: all crashes were answered, or the one worker that
crashes has used up the allowance. -/
def Phase (s : HealthMonitorService) (polling observer : Nat) : Prop :=
  (polling + observer ≤ s.maxRestarts ∧ restarts s .pollingThread = polling ∧
      restarts s .observer = observer ∧ s.isAlive .pollingThread = true ∧
      s.isAlive .observer = true) ∨
    (observer = 0 ∧ s.maxRestarts < polling ∧ restarts s .pollingThread = s.maxRestarts ∧
      restarts s .observer = 0 ∧ s.isAlive .pollingThread = false ∧ s.isAlive .observer = true) ∨
    (polling = 0 ∧ s.maxRestarts < observer ∧ restarts s .observer = s.maxRestarts ∧
      restarts s .pollingThread = 0 ∧ s.isAlive .observer = false ∧ s.isAlive .pollingThread = true)

theorem phase_round {s : HealthMonitorService} (hs : Booked s) (hpos : 0 < s.maxRestarts)
    {polling observer : Nat} (h : Phase s polling observer) (crashed : Crashes) :
    let polling' := polling + (crashed .pollingThread).toNat
    let observer' := observer + (crashed .observer).toNat
    (Entitled s crashed ↔ Suffices s.maxRestarts polling' observer') ∧
      (Entitled s crashed → Phase (round s crashed) polling' observer') := by
  obtain ⟨hmax, -, -, hrestarts, halive⟩ := round_spec s crashed
  have hbooked := hs.monitor
  have hdead : ∀ w, (round s crashed).isAlive w = true ↔
      ¬ (down s crashed w ∧ restartsIn s crashed w = 0) := fun w => by
    rw [← halive w, Bool.not_eq_false]
  simp only [entitled_iff hs, Phase, Suffices, hmax, hrestarts, halive, hdead, restartsIn,
    restartsPolling, restartsObserver, down]
  obtain ⟨h1, h2, h3, hp, ho⟩ | ⟨h1, h2, h3, h4, hp, ho⟩ | ⟨h1, h2, h3, h4, ho, hp⟩ := h <;>
    obtain hcp | hcp := Bool.eq_false_or_eq_true (crashed .pollingThread) <;>
    obtain hco | hco := Bool.eq_false_or_eq_true (crashed .observer) <;>
    simp only [hp, ho, hcp, hco, Bool.toNat_false, Bool.toNat_true, Bool.true_eq_false,
      Bool.false_eq_true, or_false, or_true, true_and, false_and, if_false, false_implies,
      true_implies, not_false_eq_true, and_true, and_false, Nat.add_zero] <;>
    clear hrestarts halive hdead hmax hs
  all_goals
    try split_ifs
    all_goals
      try simp only [false_or, or_false, true_iff, not_false_eq_true, not_true_eq_false, and_true,
        and_false]
      omega

theorem crashCount_snoc (rounds : List Crashes) (crashed : Crashes) (w : Worker) :
    crashCount (rounds ++ [crashed]) w = crashCount rounds w + (crashed w).toNat := by
  rw [crashCount, List.countP_append, List.countP_singleton, crashCount]
  cases crashed w <;> rfl

theorem run_snoc (maxRestarts : Nat) (rounds : List Crashes) (crashed : Crashes) :
    run maxRestarts (rounds ++ [crashed]) = round (run maxRestarts rounds) crashed := by
  rw [run, List.foldl_append]
  rfl

theorem run_maxRestarts (maxRestarts : Nat) (rounds : List Crashes) :
    (run maxRestarts rounds).maxRestarts = maxRestarts := by
  induction rounds using List.reverseRecOn with
  | nil => rfl
  | append_singleton rounds crashed ih => rw [run_snoc, (round_spec _ crashed).maxRestarts, ih]

theorem booked_run (maxRestarts : Nat) (rounds : List Crashes) : Booked (run maxRestarts rounds) := by
  induction rounds using List.reverseRecOn with
  | nil => exact ⟨rfl, rfl, Nat.zero_le _, Nat.zero_le _⟩
  | append_singleton rounds crashed ih =>
    rw [run_snoc]
    exact booked_round ih crashed

theorem restarts_le (maxRestarts : Nat) (rounds : List Crashes) (w : Worker) :
    restarts (run maxRestarts rounds) w ≤ maxRestarts := by
  have hbooked := booked_run maxRestarts rounds
  have hmonitor := hbooked.monitor
  have hmonitor_le := hbooked.monitor_le
  have hheartbeat_le := hbooked.heartbeat_le
  rw [run_maxRestarts] at hmonitor_le hheartbeat_le
  cases w with
  | pollingThread => omega
  | observer => omega
  | heartbeatThread => rwa [← hbooked.heartbeat]

/-- Each worker got what it was due, in every round. -/
def AllEntitled (maxRestarts : Nat) (rounds : List Crashes) : Prop :=
  ∀ pre crashed, pre ++ [crashed] <+: rounds → Entitled (run maxRestarts pre) crashed

theorem allEntitled_snoc (maxRestarts : Nat) (rounds : List Crashes) (crashed : Crashes) :
    AllEntitled maxRestarts (rounds ++ [crashed]) ↔
      AllEntitled maxRestarts rounds ∧ Entitled (run maxRestarts rounds) crashed := by
  constructor
  · refine fun h => ⟨fun pre last hpre => ?_, h rounds crashed (List.prefix_refl _)⟩
    exact h pre last (hpre.trans (List.prefix_append _ _))
  · rintro ⟨h, hlast⟩ pre last hpre
    obtain heq | hpre := List.prefix_concat_iff.mp hpre
    · obtain ⟨rfl, hsing⟩ := List.append_inj' heq rfl
      obtain rfl := List.singleton_inj.mp hsing
      exact hlast
    · exact h pre last hpre

theorem suffices_of_snoc {maxRestarts : Nat} {rounds : List Crashes} {crashed : Crashes}
    (h : Suffices maxRestarts (crashCount (rounds ++ [crashed]) .pollingThread)
      (crashCount (rounds ++ [crashed]) .observer)) :
    Suffices maxRestarts (crashCount rounds .pollingThread) (crashCount rounds .observer) := by
  simp only [crashCount_snoc, Suffices] at h ⊢
  omega

/-- With a positive limit the run stays in one of the phases just as long as the allowance
suffices. -/
theorem allEntitled_iff {maxRestarts : Nat} (hpos : 0 < maxRestarts) (rounds : List Crashes) :
    (AllEntitled maxRestarts rounds ↔ Suffices maxRestarts (crashCount rounds .pollingThread)
        (crashCount rounds .observer)) ∧
      (AllEntitled maxRestarts rounds → Phase (run maxRestarts rounds)
        (crashCount rounds .pollingThread) (crashCount rounds .observer)) := by
  induction rounds using List.reverseRecOn with
  | nil =>
    have hall : AllEntitled maxRestarts [] := fun pre last hpre =>
      absurd (List.prefix_nil.mp hpre) (List.append_ne_nil_of_right_ne_nil _ (List.cons_ne_nil _ _))
    exact ⟨iff_of_true hall (.inr (.inr (.inl rfl))),
      fun _ => .inl ⟨Nat.zero_le _, rfl, rfl, rfl, rfl⟩⟩
  | append_singleton rounds crashed ih =>
    obtain ⟨ihiff, ihphase⟩ := ih
    rw [allEntitled_snoc]
    by_cases hall : AllEntitled maxRestarts rounds
    · have hmax := run_maxRestarts maxRestarts rounds
      have hround := phase_round (booked_run maxRestarts rounds) (by omega) (ihphase hall) crashed
      simpa only [hall, true_and, crashCount_snoc, run_snoc, hmax] using hround
    · refine ⟨iff_of_false (fun h => hall h.1) fun h => ?_, fun h => absurd h.1 hall⟩
      exact hall (ihiff.mpr (suffices_of_snoc h))

/-- The polling thread and the observer draw on one counter: each has an allowance of its own just
when one of them never crashes, or the two together crash no more often than one of them may. -/
theorem own_allowance_iff (maxRestarts : Nat) (rounds : List Crashes) :
    OwnAllowance maxRestarts rounds ↔ Suffices maxRestarts (crashCount rounds .pollingThread)
      (crashCount rounds .observer) := by
  have hiff : OwnAllowance maxRestarts rounds ↔ AllEntitled maxRestarts rounds :=
    ⟨fun h => h.entitled, fun h => ⟨h, fun pre _ => restarts_le maxRestarts pre⟩⟩
  obtain rfl | hpos := Nat.eq_zero_or_pos maxRestarts
  · refine iff_of_true (hiff.mpr fun pre crashed _ w _ hlt => ?_) (.inl rfl)
    rw [run_maxRestarts] at hlt
    exact absurd hlt (Nat.not_lt_zero _)
  · rw [hiff]
    exact (allEntitled_iff hpos rounds).1

def observerLast : List Crashes :=
  List.replicate 5 (fun w => w == .pollingThread) ++ [fun w => w == .observer]

theorem observer_not_restarted : ¬ OwnAllowance 5 observerLast := by
  intro h
  have hentitled := h.entitled (List.replicate 5 fun w => w == .pollingThread) _
    (List.prefix_refl _) .observer
  exact absurd (hentitled (by decide) (by decide)) (by decide)

end AtmMonitor.HealthMonitor

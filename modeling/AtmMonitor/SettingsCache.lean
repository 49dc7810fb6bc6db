import AtmMonitor.BreakerRuns
import AtmMonitor.PyText

namespace AtmMonitor.SettingsCache

open PyText ParserModels BreakerRuns

/-- A row of the table, or the object made of the defaults. The columns that are checked may lack a
value. -/
structure AgentSettings where
  id : Int
  pollingIntervalSeconds : Option Int
  heartbeatIntervalSeconds : Option Int
  pingIntervalSeconds : Int
  logScanIntervalSeconds : Option Int
  offlineThresholdMinutes : Option Int
  criticalOfflineThresholdMinutes : Int
  lowCashThresholdAmount : Option Rat
  ejLogPath : Str
  retentionDays : Int
  maxLogFileSizeMB : Int
  enableHeartbeat : Bool
  enablePing : Bool
  enableLogParser : Bool
  enableAutoRecovery : Bool
  agentVersion : Option Str
  createdOn : Option Timestamp := none
  updatedOn : Option Timestamp := none
  rowVersion : Option Nat := none
  deriving DecidableEq

/-- Fallback defaults in case seed settings are missing. -/
def defaults : AgentSettings where
  id := 0
  pollingIntervalSeconds := some 5
  heartbeatIntervalSeconds := some 30
  pingIntervalSeconds := 300
  logScanIntervalSeconds := some 2
  offlineThresholdMinutes := some 60
  criticalOfflineThresholdMinutes := 120
  lowCashThresholdAmount := some 500000
  ejLogPath := "C:\\EJ\\ncr_ej.log".toList
  retentionDays := 90
  maxLogFileSizeMB := 100
  enableHeartbeat := true
  enablePing := true
  enableLogParser := true
  enableAutoRecovery := false
  agentVersion := some "1.0.0".toList

def check {α : Type} (message : String) (outOfRange : α → Bool) (value : Option α) : List String :=
  if value.any outOfRange then [message] else []

def errors (s : AgentSettings) : List String :=
  check "PollingIntervalSeconds must be > 0" (fun v => decide (v ≤ 0)) s.pollingIntervalSeconds ++
  check "LogScanIntervalSeconds must be > 0" (fun v => decide (v ≤ 0)) s.logScanIntervalSeconds ++
  check "OfflineThresholdMinutes must be > 0" (fun v => decide (v ≤ 0)) s.offlineThresholdMinutes ++
  check "HeartbeatIntervalSeconds must be > 0" (fun v => decide (v ≤ 0)) s.heartbeatIntervalSeconds ++
  check "LowCashThresholdAmount must be >= 0" (fun v => decide (v < 0)) s.lowCashThresholdAmount

/-- An object of the class, which the session knows or does not. -/
structure Instance where
  settings : AgentSettings
  attached : Bool

/-- `session.expunge` raises for an object that is not attached to the session. -/
def expunge (object : Instance) : Option AgentSettings :=
  if object.attached then some object.settings else none

/-- `order_by(AgentSettings.Id.asc()).first()`. -/
def first (table : List AgentSettings) : Option AgentSettings := table.minOn? AgentSettings.id

structure AgentSettingsCache where
  cachedSettings : Option AgentSettings := none
  lastLoaded : Option Timestamp := none

/-- A call, with the reading of the clock and the table that it meets. -/
structure Call where
  force : Bool := false
  now : Timestamp
  table : List AgentSettings

inductive Outcome where
  | returned (settings : Option AgentSettings)
  | raised
  deriving DecidableEq

def recent (lastLoaded : Option Timestamp) (now : Timestamp) : Bool :=
  lastLoaded.any fun last => totalSeconds last now < 300

def servesCache (cache : AgentSettingsCache) (call : Call) : Bool :=
  !call.force && cache.cachedSettings.isSome && recent cache.lastLoaded call.now

def loadSettings (cache : AgentSettingsCache) (call : Call) : Outcome × AgentSettingsCache :=
  if servesCache cache call then (.returned cache.cachedSettings, cache)
  else
    let object := (first call.table).elim ⟨defaults, false⟩ fun row => ⟨row, true⟩
    if errors object.settings ≠ [] then
      if cache.cachedSettings.isSome then (.returned cache.cachedSettings, cache)
      else (.returned cache.cachedSettings, { cache with lastLoaded := some call.now })
    else
      match expunge object with
      | some settings => (.returned (some settings), ⟨some settings, some call.now⟩)
      | none => (.raised, cache)

def outcomes : AgentSettingsCache → List Call → List Outcome
  | _, [] => []
  | cache, call :: rest => (loadSettings cache call).1 :: outcomes (loadSettings cache call).2 rest

structure Valid (s : AgentSettings) : Prop where
  polling : ∀ v ∈ s.pollingIntervalSeconds, 0 < v
  logScan : ∀ v ∈ s.logScanIntervalSeconds, 0 < v
  offline : ∀ v ∈ s.offlineThresholdMinutes, 0 < v
  heartbeat : ∀ v ∈ s.heartbeatIntervalSeconds, 0 < v
  lowCash : ∀ v ∈ s.lowCashThresholdAmount, 0 ≤ v

theorem check_eq_nil {α : Type} {message : String} {outOfRange : α → Bool} {value : Option α} :
    check message outOfRange value = [] ↔ ∀ v ∈ value, outOfRange v = false := by
  cases value with
  | none => simp [check]
  | some v => cases h : outOfRange v <;> simp [check, h]

theorem errors_eq_nil {s : AgentSettings} : errors s = [] ↔ Valid s := by
  simp only [errors, List.append_eq_nil_iff, check_eq_nil, decide_eq_false_iff_not, Int.not_le, Rat.not_lt]
  constructor
  · rintro ⟨⟨⟨⟨h1, h2⟩, h3⟩, h4⟩, h5⟩
    exact ⟨h1, h2, h3, h4, h5⟩
  · rintro ⟨h1, h2, h3, h4, h5⟩
    exact ⟨⟨⟨⟨h1, h2⟩, h3⟩, h4⟩, h5⟩

instance (s : AgentSettings) : Decidable (Valid s) := decidable_of_iff _ errors_eq_nil

theorem defaults_valid : Valid defaults := by decide

/-- The valid settings loaded so far, newest first, and the time of the last load on record. -/
structure Loads where
  valid : List AgentSettings := []
  recorded : Option Timestamp := none

def Loads.newest (past : Loads) : Option AgentSettings := past.valid.head?

/-- Settings have been cached, and less than 300 seconds have passed since the last load. -/
def Cached (past : Loads) (call : Call) : Prop :=
  call.force = false ∧ past.valid ≠ [] ∧ ∃ last ∈ past.recorded, totalSeconds last call.now < 300

open Classical in
noncomputable def answer (past : Loads) (call : Call) : Option AgentSettings :=
  if Cached past call then past.newest
  else
    match first call.table with
    | none => some defaults
    | some row => if Valid row then some row else past.newest

open Classical in
noncomputable def record (past : Loads) (call : Call) : Loads :=
  if Cached past call then past
  else
    match first call.table with
    | none => ⟨defaults :: past.valid, some call.now⟩
    | some row =>
      if Valid row then ⟨row :: past.valid, some call.now⟩
      else if past.valid = [] then { past with recorded := some call.now }
      else past

noncomputable def answers : Loads → List Call → List (Option AgentSettings)
  | _, [] => []
  | past, call :: rest => answer past call :: answers (record past call) rest

/-- Every call of a run returns what it is to return, and nothing invalid. -/
structure MeetsSpec (calls : List Call) : Prop where
  returns : outcomes {} calls = (answers {} calls).map Outcome.returned
  valid : ∀ s, .returned (some s) ∈ outcomes {} calls → Valid s

/-- No call that queries the table finds it empty. -/
def NeverEmpty : AgentSettingsCache → List Call → Prop
  | _, [] => True
  | cache, call :: rest =>
    (servesCache cache call = false → call.table ≠ []) ∧ NeverEmpty (loadSettings cache call).2 rest

structure Mirrors (cache : AgentSettingsCache) (past : Loads) : Prop where
  cached : cache.cachedSettings = past.newest
  recorded : cache.lastLoaded = past.recorded

theorem servesCache_iff {cache : AgentSettingsCache} {past : Loads} (h : Mirrors cache past)
    (call : Call) : servesCache cache call = true ↔ Cached past call := by
  rw [servesCache, h.cached, h.recorded, Loads.newest, recent, Cached]
  cases past.valid <;> cases past.recorded <;> simp

theorem first_eq_none {table : List AgentSettings} : first table = none ↔ table = [] := by
  rw [← Option.not_isSome_iff_eq_none, first, List.isSome_minOn?_iff, not_not]

theorem loadSettings_empty {cache : AgentSettingsCache} {call : Call}
    (hquery : servesCache cache call = false) (hempty : call.table = []) :
    loadSettings cache call = (.raised, cache) := by
  have hdefaults : errors defaults = [] := errors_eq_nil.mpr defaults_valid
  simp [loadSettings, hquery, first_eq_none.mpr hempty, hdefaults, expunge]

theorem loadSettings_mirrors {cache : AgentSettingsCache} {past : Loads} (h : Mirrors cache past)
    {call : Call} (hquery : servesCache cache call = false → call.table ≠ []) :
    (loadSettings cache call).1 = .returned (answer past call) ∧
      Mirrors (loadSettings cache call).2 (record past call) := by
  unfold loadSettings answer record
  have hserves := servesCache_iff h call
  by_cases hcached : Cached past call
  · simp only [hserves.mpr hcached, hcached, if_true, h.cached]
    exact ⟨trivial, h⟩
  · have hnot : servesCache cache call = false := by
      rw [← Bool.not_eq_true, hserves]
      exact hcached
    cases hfirst : first call.table with
    | none => exact absurd (first_eq_none.mp hfirst) (hquery hnot)
    | some row =>
      simp only [hnot, hcached, if_false, Bool.false_eq_true, Option.elim_some, ne_eq, errors_eq_nil,
        expunge, if_true]
      by_cases hvalid : Valid row
      · simp only [hvalid, not_true_eq_false, if_false, if_true]
        exact ⟨trivial, rfl, rfl⟩
      · have hsome : cache.cachedSettings.isSome = true ↔ past.valid ≠ [] := by
          rw [h.cached, Loads.newest, List.isSome_head?]
        simp only [hvalid, not_false_eq_true, if_true, if_false, hsome]
        by_cases hpast : past.valid = []
        · simp only [hpast, ne_eq, not_true_eq_false, if_false, if_true]
          exact ⟨congrArg _ h.cached, h.cached.trans (congrArg List.head? hpast), rfl⟩
        · simp only [hpast, ne_eq, not_false_eq_true, if_true, if_false]
          exact ⟨congrArg _ h.cached, h⟩

theorem loadSettings_valid {cache : AgentSettingsCache}
    (h : ∀ s ∈ cache.cachedSettings, Valid s) (call : Call) :
    (∀ s, (loadSettings cache call).1 = .returned (some s) → Valid s) ∧
      ∀ s ∈ (loadSettings cache call).2.cachedSettings, Valid s := by
  have hreturned : ∀ s, Outcome.returned cache.cachedSettings = .returned (some s) → Valid s :=
    fun s hs => h s (Outcome.returned.inj hs)
  simp only [loadSettings, ne_eq, errors_eq_nil]
  generalize (first call.table).elim (⟨defaults, false⟩ : Instance) (fun row => ⟨row, true⟩) = object
  split_ifs with _ hvalid
  · exact ⟨hreturned, h⟩
  · obtain ⟨settings, attached⟩ := object
    cases attached with
    | true =>
      refine ⟨fun s hs => ?_, fun s hs => ?_⟩
      · cases hs
        exact hvalid
      · cases hs
        exact hvalid
    | false => exact ⟨fun s hs => (by cases hs), h⟩
  · exact ⟨hreturned, h⟩
  · exact ⟨hreturned, h⟩

theorem outcomes_valid {cache : AgentSettingsCache} (h : ∀ s ∈ cache.cachedSettings, Valid s)
    (calls : List Call) : ∀ s, .returned (some s) ∈ outcomes cache calls → Valid s := by
  induction calls generalizing cache with
  | nil => exact fun s hs => absurd hs List.not_mem_nil
  | cons call rest ih =>
    obtain ⟨hreturned, hcached⟩ := loadSettings_valid h call
    intro s hs
    obtain hs | hs := List.mem_cons.mp hs
    · exact hreturned s hs.symm
    · exact ih hcached s hs

theorem outcomes_eq_answers_iff {cache : AgentSettingsCache} {past : Loads}
    (h : Mirrors cache past) (calls : List Call) :
    outcomes cache calls = (answers past calls).map Outcome.returned ↔ NeverEmpty cache calls := by
  induction calls generalizing cache past with
  | nil => simp [outcomes, answers, NeverEmpty]
  | cons call rest ih =>
    rw [outcomes, answers, NeverEmpty, List.map_cons, List.cons.injEq]
    by_cases hquery : servesCache cache call = false → call.table ≠ []
    · obtain ⟨hreturned, hnext⟩ := loadSettings_mirrors h hquery
      rw [ih hnext]
      exact and_congr (iff_of_true hreturned hquery) Iff.rfl
    · obtain ⟨hnot, hempty⟩ := Classical.not_imp.mp hquery
      have hraised : (loadSettings cache call).1 = .raised := by
        rw [loadSettings_empty hnot (not_not.mp hempty)]
      refine iff_of_false (fun hall => ?_) fun hall => hquery hall.1
      cases hraised.symm.trans hall.1

/-- The one thing that goes wrong: a query that finds no row raises, instead of the defaults. -/
theorem settings_refine_iff (calls : List Call) : MeetsSpec calls ↔ NeverEmpty {} calls := by
  have hmirrors : Mirrors {} {} := ⟨rfl, rfl⟩
  rw [← outcomes_eq_answers_iff hmirrors]
  exact ⟨fun h => h.returns, fun h => ⟨h, outcomes_valid (fun s hs => by cases hs) calls⟩⟩

/-- The first call, before the table was seeded. -/
theorem unseeded_table_raises : ¬ MeetsSpec [{ now := 0, table := [] }] := by
  intro h
  have hlength := congrArg List.head? h.returns
  rw [answers, List.map_cons, List.head?_cons] at hlength
  exact absurd hlength (by decide)

end AtmMonitor.SettingsCache

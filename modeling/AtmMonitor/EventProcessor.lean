import AtmMonitor.LiveStatus
import AtmMonitor.Repositories
import Mathlib.Data.List.Sort

namespace AtmMonitor.EventProcessor

open ParserModels DatabaseModels Repositories LiveStatus

/-- The counters of one call; its duration is left out. -/
structure ProcessingStatistics where
  eventsProcessed : Nat := 0
  eventsInserted : Nat := 0
  eventsSkipped : Nat := 0
  duplicateEvents : Nat := 0
  cassetteSnapshotsInserted : Nat := 0
  liveStatusUpdates : Nat := 0
  healthLogsWritten : Nat := 0
  databaseRetries : Nat := 0
  deriving DecidableEq

/-- The database statements of one event transaction. The loop over snapshots numbers its
statements by position, the loop of the optimistic update by attempt. -/
inductive Statement where
  | duplicateCheck
  | insertEvent
  | duplicateSnapshotCheck (position : Nat)
  | insertHistory (position : Nat)
  | getByAtmId (attempt : Nat)
  | save (attempt : Nat)
  | updateLiveStatus (attempt : Nat)
  | commit
  | rollback
  deriving DecidableEq

inductive DbError where
  | integrityError | other
  deriving DecidableEq

/-- What one event transaction meets: the clock, the statements that raise, the attempts during
which another connection writes the live row, and whether the health log can be written. -/
structure TxEnv where
  now : Timestamp := 0
  raises : Statement → Option DbError := fun _ => none
  rowMoved : Nat → Bool := fun _ => false
  healthLogFails : Bool := false

/-- A session at work: the database as its transaction sees it, the counters of the call, and
whether the transaction is still usable. -/
structure Work where
  db : Database
  stats : ProcessingStatistics
  active : Bool := true

/-- The error that a statement raises. After a failed flush the session refuses every statement
until it is rolled back. -/
def Work.issue (w : Work) (env : TxEnv) (s : Statement) : Option DbError :=
  if w.active then env.raises s else some .other

def matchingSnaps (snapshots : List CassetteSnapshot) (ev : ATMParsedEvent) :
    List CassetteSnapshot :=
  snapshots.filter fun s =>
    s.startLineNumber == ev.startLineNumber && s.endLineNumber == ev.endLineNumber

/-- Step 3: the loop over the matching snapshots. -/
def insertSnapshots (env : TxEnv) (atmId eventId : Nat) (ev : ATMParsedEvent) :
    Nat → List CassetteSnapshot → Work → Except Work Work
  | _, [], w => .ok w
  | k, snap :: rest, w =>
    match w.issue env (.duplicateSnapshotCheck k) with
    | some _ => .error w
    | none =>
      if duplicateSnapshotCheck w.db atmId ev.eventSequenceNumber snap.cassetteNo then
        insertSnapshots env atmId eventId ev (k + 1) rest w
      else
        match w.issue env (.insertHistory k) with
        | some .integrityError =>
          insertSnapshots env atmId eventId ev (k + 1) rest { w with active := false }
        | some .other => .error w
        | none =>
          insertSnapshots env atmId eventId ev (k + 1) rest
            { w with
              db := insertHistory w.db atmId eventId ev snap
              stats.cassetteSnapshotsInserted := w.stats.cassetteSnapshotsInserted + 1 }

def loadStatus (env : TxEnv) (atmId attempt : Nat) (w : Work) : Except Work (ATMLiveStatus × Work) :=
  match w.issue env (.getByAtmId attempt) with
  | some _ => .error w
  | none =>
    match getByAtmId w.db atmId with
    | some status => .ok (status, w)
    | none =>
      match w.issue env (.save attempt) with
      | some _ => .error w
      | none =>
        .ok ({ initialStatus with rowVersion := w.db.nextRowVersion },
          { w with db := save w.db atmId initialStatus })

/-- The timestamp protection: the row already shows a newer event. -/
def isStale (status : ATMLiveStatus) (ev : ATMParsedEvent) : Bool :=
  match status.lastEventTime with
  | some t => decide (ev.eventTime < t)
  | none => false

/-- Step 4: the attempts of the optimistic update. Running out of them raises. -/
def updateStatus (env : TxEnv) (atmId : Nat) (ev : ATMParsedEvent)
    (snaps : List CassetteSnapshot) : List Nat → Work → Except Work Work
  | [], w => .error w
  | attempt :: rest, w =>
    match loadStatus env atmId attempt w with
    | .error w => .error w
    | .ok (status, w) =>
      if isStale status ev then .ok w
      else
        match w.issue env (.updateLiveStatus attempt) with
        | some _ => .error w
        | none =>
          match updateLiveStatus w.db env.now atmId (applyStatusUpdates env.now status ev snaps)
              (some status.rowVersion) (env.rowMoved attempt) with
          | some db =>
            .ok { w with db := db, stats.liveStatusUpdates := w.stats.liveStatusUpdates + 1 }
          | none =>
            updateStatus env atmId ev snaps rest
              { w with stats.databaseRetries := w.stats.databaseRetries + 1 }

inductive TxEnd where
  | committed | duplicate | failed
  deriving DecidableEq

def Work.skip (w : Work) : Work :=
  { w with
    stats.duplicateEvents := w.stats.duplicateEvents + 1
    stats.eventsSkipped := w.stats.eventsSkipped + 1 }

/-- The statement that looks for a duplicate is issued only for a numbered event. -/
def checkError (env : TxEnv) (ev : ATMParsedEvent) (w : Work) : Option DbError :=
  if ev.eventSequenceNumber.isSome then w.issue env .duplicateCheck else none

/-- Steps 3 and 4 and the commit, after the event row is in. -/
def finishTransaction (env : TxEnv) (atmId eventId : Nat) (ev : ATMParsedEvent)
    (snaps : List CassetteSnapshot) (w : Work) : TxEnd × Work :=
  match insertSnapshots env atmId eventId ev 0 snaps w with
  | .error w => (.failed, w)
  | .ok w =>
    match updateStatus env atmId ev snaps [0, 1] w with
    | .error w => (.failed, w)
    | .ok w =>
      match w.issue env .commit with
      | some _ => (.failed, w)
      | none => (.committed, w)

def transaction (env : TxEnv) (atmId : Nat) (snapshots : List CassetteSnapshot)
    (ev : ATMParsedEvent) (w : Work) : TxEnd × Work :=
  match checkError env ev w with
  | some _ => (.failed, w)
  | none =>
    if duplicateCheck w.db atmId ev.eventSequenceNumber then
      match env.raises .rollback with
      | some _ => (.failed, w.skip)
      | none => (.duplicate, w.skip)
    else
      match w.issue env .insertEvent with
      | some .integrityError =>
        match env.raises .rollback with
        | some _ => (.failed, w)
        | none => (.duplicate, w.skip)
      | some .other => (.failed, w)
      | none =>
        finishTransaction env atmId w.db.nextEventId ev (matchingSnaps snapshots ev)
          { w with
            db := insertEvent w.db atmId ev
            stats.eventsInserted := w.stats.eventsInserted + 1 }

/-- `_log_health_error`, in a session of its own whose errors are swallowed. -/
def logHealthError (env : TxEnv) (atmId : Nat) (ev : ATMParsedEvent) (db : Database) : Database :=
  if env.healthLogFails then db else insertLog db ⟨atmId, env.now, ev.eventSequenceNumber⟩

def processEvent (atmId : Nat) (snapshots : List CassetteSnapshot)
    (acc : Database × ProcessingStatistics) (p : TxEnv × ATMParsedEvent) :
    Database × ProcessingStatistics :=
  match transaction p.1 atmId snapshots p.2
      ⟨acc.1, { acc.2 with eventsProcessed := acc.2.eventsProcessed + 1 }, true⟩ with
  | (.committed, w) => (w.db, w.stats)
  | (.duplicate, w) => (acc.1.rollback w.db, w.stats)
  | (.failed, w) =>
    (logHealthError p.1 atmId p.2 (acc.1.rollback w.db),
      { w.stats with healthLogsWritten := w.stats.healthLogsWritten + 1 })

def processEvents (atmId : Nat) (snapshots : List CassetteSnapshot)
    (ps : List (TxEnv × ATMParsedEvent)) (acc : Database × ProcessingStatistics) :
    Database × ProcessingStatistics :=
  ps.foldl (processEvent atmId snapshots) acc

def sortKey (ev : ATMParsedEvent) : Nat × Timestamp :=
  (ev.eventSequenceNumber.getD 0, ev.eventTime)

def keyLE (a b : ATMParsedEvent) : Prop :=
  (sortKey a).1 < (sortKey b).1 ∨ (sortKey a).1 = (sortKey b).1 ∧ (sortKey a).2 ≤ (sortKey b).2

instance : DecidableRel keyLE := fun a b => by unfold keyLE; infer_instance

instance : Std.Total keyLE where
  total a b := by
    obtain h | h | h := lt_trichotomy (sortKey a).1 (sortKey b).1
    · exact Or.inl (Or.inl h)
    · exact (le_total (sortKey a).2 (sortKey b).2).imp (fun ht => Or.inr ⟨h, ht⟩)
        (fun ht => Or.inr ⟨h.symm, ht⟩)
    · exact Or.inr (Or.inl h)

instance : IsTrans ATMParsedEvent keyLE where
  trans a b c hab hbc := by
    obtain hab | ⟨hab, ht⟩ := hab
    · obtain hbc | ⟨hbc, -⟩ := hbc
      · exact Or.inl (hab.trans hbc)
      · exact Or.inl (hab.trans_eq hbc)
    · obtain hbc | ⟨hbc, ht'⟩ := hbc
      · exact Or.inl (hab.trans_lt hbc)
      · exact Or.inr ⟨hab.trans hbc, ht.trans ht'⟩

/-- `sorted(result.events, key=...)`, which is stable. -/
def sortedEvents (events : List ATMParsedEvent) : List ATMParsedEvent :=
  events.insertionSort keyLE

theorem sortedEvents_perm (events : List ATMParsedEvent) : (sortedEvents events).Perm events :=
  List.perm_insertionSort keyLE events

theorem mem_sortedEvents {events : List ATMParsedEvent} {ev : ATMParsedEvent} :
    ev ∈ sortedEvents events ↔ ev ∈ events :=
  List.mem_insertionSort keyLE

theorem sortedEvents_pairwise (events : List ATMParsedEvent) :
    (sortedEvents events).Pairwise keyLE :=
  List.pairwise_insertionSort keyLE events

def withEnvs (envs : Nat → TxEnv) (events : List ATMParsedEvent) : List (TxEnv × ATMParsedEvent) :=
  events.zipIdx.map fun p => (envs p.2, p.1)

def processResult (envs : Nat → TxEnv) (atmId : Nat) (result : ParserResult) (db : Database) :
    Database × ProcessingStatistics :=
  processEvents atmId result.cassetteSnapshots (withEnvs envs (sortedEvents result.events)) (db, {})

end AtmMonitor.EventProcessor

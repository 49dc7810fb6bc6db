import AtmMonitor.Ledger
import AtmMonitor.Library.Runs

namespace AtmMonitor.CallRuns

open Library.Runs ParserModels DatabaseModels Repositories LiveStatus EventProcessor
  EventTransaction Ledger

/-- A call of `process_result` and what its transactions meet. -/
structure Call where
  envs : Nat → TxEnv
  atmId : Nat
  result : ParserResult

def calm (atmId : Nat) (result : ParserResult) : Call := ⟨fun _ => {}, atmId, result⟩

theorem calm_undisturbed (atmId : Nat) (result : ParserResult) (i : Nat) :
    Undisturbed ((calm atmId result).envs i) := ⟨fun _ => rfl, fun _ => rfl⟩

def Call.rounds (c : Call) : List (TxEnv × ATMParsedEvent) :=
  withEnvs c.envs (sortedEvents c.result.events)

def Call.run (c : Call) (db : Database) : Database := (processResult c.envs c.atmId c.result db).1

/-- The database that the transaction of the event at position `i` finds. -/
def stateBefore (c : Call) (db : Database) (i : Nat) : Database :=
  (processEvents c.atmId c.result.cassetteSnapshots (c.rounds.take i) (db, {})).1

section Round

variable (c : Call) (db : Database) {i : Nat} {p : TxEnv × ATMParsedEvent}

theorem rounds_split (hp : c.rounds[i]? = some p) :
    c.rounds.take i ++ p :: c.rounds.drop (i + 1) = c.rounds := by
  obtain ⟨hi, hget⟩ := List.getElem?_eq_some_iff.mp hp
  rw [← hget, ← List.drop_eq_getElem_cons hi, List.take_append_drop]

theorem run_from (hp : c.rounds[i]? = some p) :
    c.run db = (processEvents c.atmId c.result.cassetteSnapshots (c.rounds.drop (i + 1))
      (processEvent c.atmId c.result.cassetteSnapshots
        (processEvents c.atmId c.result.cassetteSnapshots (c.rounds.take i) (db, {})) p)).1 := by
  have hall : c.run db =
      (processEvents c.atmId c.result.cassetteSnapshots c.rounds (db, {})).1 := rfl
  rw [hall]
  nth_rewrite 1 [← rounds_split c hp]
  rw [processEvents, List.foldl_append, List.foldl_cons]
  rfl

end Round

def Call.visited (c : Call) (db : Database) : List Database :=
  (states (processEvent c.atmId c.result.cassetteSnapshots) (db, {}) c.rounds).map Prod.fst

/-- The databases that a run of calls passes through, from one commit to the next. -/
def trace : List Call → Database → List Database
  | [], db => [db]
  | c :: rest, db => c.visited db ++ trace rest (c.run db)

theorem Call.mem_events {c : Call} {p : TxEnv × ATMParsedEvent} (hp : p ∈ c.rounds) :
    p.2 ∈ c.result.events := by
  have hm : p.2 ∈ c.rounds.map Prod.snd := List.mem_map_of_mem hp
  rw [Call.rounds, withEnvs_events] at hm
  exact mem_sortedEvents.mp hm

theorem Call.getLast?_visited (c : Call) (db : Database) :
    (c.visited db).getLast? = some (c.run db) := by
  rw [Call.visited, List.getLast?_map, getLast?_states]
  rfl

theorem Call.run_mem_visited (c : Call) (db : Database) : c.run db ∈ c.visited db :=
  List.mem_of_getLast? (c.getLast?_visited db)

theorem processEvent_events_grow (atmId : Nat) (snapshots : List CassetteSnapshot)
    (acc : Database × ProcessingStatistics) (p : TxEnv × ATMParsedEvent) :
    acc.1.events <+: (processEvent atmId snapshots acc p).1.events := by
  obtain ⟨-, -, h⟩ | ⟨-, h⟩ := processEvent_db atmId snapshots acc p
  · rw [h, storeEvent_events]
    exact List.prefix_append ..
  · exact ⟨[], by rw [List.append_nil, h.events]⟩

theorem processEvents_events_grow (atmId : Nat) (snapshots : List CassetteSnapshot)
    (ps : List (TxEnv × ATMParsedEvent)) (acc : Database × ProcessingStatistics) :
    acc.1.events <+: (processEvents atmId snapshots ps acc).1.events :=
  foldl_invariant (P := fun a => acc.1.events <+: a.1.events) List.prefix_rfl
    fun a p _ h => h.trans (processEvent_events_grow atmId snapshots a p)

theorem Call.events_grow (c : Call) (db : Database) : db.events <+: (c.run db).events :=
  processEvents_events_grow c.atmId c.result.cassetteSnapshots c.rounds (db, {})

theorem head?_trace (calls : List Call) (db : Database) : (trace calls db).head? = some db := by
  cases calls with
  | nil => rfl
  | cons c rest => simp [trace, Call.visited, head?_states]

theorem run_mem_trace (calls : List Call) (db : Database) :
    calls.foldl (fun d c => c.run d) db ∈ trace calls db := by
  induction calls generalizing db with
  | nil => exact List.mem_singleton_self db
  | cons c rest ih => exact List.mem_append_right _ (ih (c.run db))

/-- A property that neither a stored event nor a transaction without effect breaks holds in every
database of a run. -/
theorem trace_invariant {P : Database → Prop} {calls : List Call}
    (hsame : ∀ d d', SameRows d d' → P d → P d')
    (hstore : ∀ c ∈ calls, ∀ ev ∈ c.result.events, ∀ now d,
      duplicateCheck d c.atmId ev.eventSequenceNumber = false → P d →
        P (storeEvent now c.atmId c.result.cassetteSnapshots ev d))
    {db : Database} (h : P db) : ∀ d ∈ trace calls db, P d := by
  induction calls generalizing db with
  | nil => simpa [trace] using h
  | cons c rest ih =>
    have hvisited : ∀ d ∈ c.visited db, P d := by
      intro d hd
      obtain ⟨acc, hacc, rfl⟩ := List.mem_map.mp hd
      refine states_invariant (P := fun a => P a.1) h ?_ acc hacc
      intro a p hp ha
      obtain ⟨hdup, -, hdb⟩ | ⟨-, hs⟩ := processEvent_db c.atmId c.result.cassetteSnapshots a p
      · rw [hdb]
        exact hstore c (by simp) p.2 (Call.mem_events hp) p.1.now a.1 hdup ha
      · exact hsame a.1 _ hs ha
    have hrest := ih (fun c' hc' => hstore c' (List.mem_cons_of_mem _ hc'))
      (hvisited _ (c.run_mem_visited db))
    intro d hd
    obtain hd | hd := List.mem_append.mp hd
    · exact hvisited d hd
    · exact hrest d hd

/-- A reflexive relation that a stored event and a transaction without effect satisfy links the
databases of a run. -/
theorem trace_chain {R : Database → Database → Prop} (hrefl : ∀ d, R d d)
    (hsame : ∀ d d', SameRows d d' → R d d')
    (hstore : ∀ now atmId snapshots ev d, R d (storeEvent now atmId snapshots ev d))
    (calls : List Call) (db : Database) : (trace calls db).IsChain R := by
  induction calls generalizing db with
  | nil => exact List.isChain_singleton db
  | cons c rest ih =>
    have hvisited : (c.visited db).IsChain R := by
      rw [Call.visited, List.isChain_map]
      apply states_chain (P := fun _ => True) trivial (fun _ _ _ _ => trivial)
      intro a p _ _
      obtain ⟨-, -, hdb⟩ | ⟨-, hs⟩ := processEvent_db c.atmId c.result.cassetteSnapshots a p
      · rw [hdb]
        exact hstore p.1.now c.atmId c.result.cassetteSnapshots p.2 a.1
      · exact hsame a.1 _ hs
    refine List.isChain_append.mpr ⟨hvisited, ih (c.run db), ?_⟩
    intro x hx y hy
    rw [c.getLast?_visited, Option.mem_some_iff] at hx
    rw [head?_trace, Option.mem_some_iff] at hy
    rw [← hx, ← hy]
    exact hrefl _

end AtmMonitor.CallRuns

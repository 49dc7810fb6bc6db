import AtmMonitor.CallRuns
import AtmMonitor.Library.StableSort

namespace AtmMonitor.FailureIsolation

open Library.StableSort ParserModels DatabaseModels Repositories LiveStatus EventProcessor
  EventTransaction Ledger CallRuns

/-- No statement of the transaction fails, and the conditional update does not lose both of its
attempts. -/
structure Unfailing (env : TxEnv) : Prop where
  raises : ∀ s, env.raises s = none
  rowMoved : env.rowMoved 0 = false ∨ env.rowMoved 1 = false

theorem Unfailing.completes {env : TxEnv} (h : Unfailing env) (atmId : Nat)
    (snapshots : List CassetteSnapshot) (ev : ATMParsedEvent) (db : Database) :
    Completes env atmId snapshots ev db where
  check := fun _ => h.raises _
  insert := h.raises _
  inserts := snapshotsComplete_of_raises h.raises ..
  status := by
    refine ⟨h.raises _, fun _ => h.raises _, Or.inr ⟨h.raises _, h.rowMoved.imp id fun h1 => ?_⟩⟩
    exact ⟨h.raises _, fun _ => h.raises _, Or.inr ⟨h.raises _, Or.inl h1⟩⟩
  commit := h.raises _

def order (events : List ATMParsedEvent) : List (ATMParsedEvent × Nat) :=
  events.zipIdx.insertionSort fun a b => keyLE a.1 b.1

theorem order_events (events : List ATMParsedEvent) :
    (order events).map Prod.fst = sortedEvents events := by
  rw [order, List.map_insertionSort (fun a b => keyLE a.1 b.1) keyLE Prod.fst _ fun _ _ _ _ => Iff.rfl]
  simp [sortedEvents]

/-- The result without the events at the positions of `F`. -/
def without (F : Nat → Bool) (result : ParserResult) : ParserResult :=
  { result with events := (result.events.zipIdx.filter fun p => !F p.2).map Prod.fst }

theorem sortedEvents_without (F : Nat → Bool) (result : ParserResult) :
    sortedEvents (without F result).events =
      ((order result.events).filter fun p => !F p.2).map Prod.fst := by
  have hsort := List.map_insertionSort (fun a b : ATMParsedEvent × Nat => keyLE a.1 b.1) keyLE
    Prod.fst (result.events.zipIdx.filter fun p => !F p.2) fun _ _ _ _ => Iff.rfl
  have hfilter := filter_insertionSort (r := fun a b : ATMParsedEvent × Nat => keyLE a.1 b.1)
    (fun p => !F p.2) result.events.zipIdx
  rw [order, hfilter, hsort]
  rfl

/-- The transaction of the event at position `i` comes to the end of its commit. -/
def Commits (c : Call) (db : Database) (i : Nat) (p : TxEnv × ATMParsedEvent) : Prop :=
  (transaction p.1 c.atmId c.result.cassetteSnapshots p.2 ⟨stateBefore c db i, {}, true⟩).1 =
    .committed

theorem commits_iff (c : Call) (db : Database) (i : Nat) (p : TxEnv × ATMParsedEvent) :
    Commits c db i p ↔
      duplicateCheck (stateBefore c db i) c.atmId p.2.eventSequenceNumber = false ∧
        Completes p.1 c.atmId c.result.cassetteSnapshots p.2 (stateBefore c db i) :=
  transaction_committed_iff _ _ _ _ _ rfl

/-- A round whose transaction does not commit leaves no trace in the ledger. -/
theorem processEvent_failed {atmId : Nat} {snapshots : List CassetteSnapshot}
    {acc : Database × ProcessingStatistics} {p : TxEnv × ATMParsedEvent}
    (h : ¬ (duplicateCheck acc.1 atmId p.2.eventSequenceNumber = false ∧
      Completes p.1 atmId snapshots p.2 acc.1)) :
    contents (processEvent atmId snapshots acc p).1 = contents acc.1 := by
  obtain ⟨hdup, hcomp, -⟩ | ⟨-, hsame⟩ := processEvent_db atmId snapshots acc p
  · exact absurd ⟨hdup, hcomp⟩ h
  · exact contents_sameRows hsame

section Run

variable (c : Call) (db : Database) (F : Nat → Bool)

theorem rounds_getElem? (n : Nat) :
    c.rounds[n]? = (order c.result.events)[n]?.map fun q => (c.envs n, q.1) := by
  rw [Call.rounds, withEnvs, ← order_events]
  simp [Function.comp_def]

theorem stateBefore_succ {n : Nat} {p : TxEnv × ATMParsedEvent} (hp : c.rounds[n]? = some p) :
    stateBefore c db (n + 1) = (processEvent c.atmId c.result.cassetteSnapshots
      (processEvents c.atmId c.result.cassetteSnapshots (c.rounds.take n) (db, {})) p).1 := by
  rw [stateBefore, List.take_add_one, hp, processEvents, List.foldl_append]
  rfl

/-- Each event is in `F` and its transaction does not commit, or is not in `F` and nothing goes
wrong with it. -/
def FailsExactly : Prop :=
  ∀ i p k, c.rounds[i]? = some p → (order c.result.events)[i]? = some (p.2, k) →
    if F k then ¬ Commits c db i p else Unfailing p.1

variable {c db F}

/-- Before each round the ledger has taken in the events outside `F` that came so far. -/
theorem contents_stateBefore (h : FailsExactly c db F) (n : Nat) :
    contents (stateBefore c db n) =
      ((((order c.result.events).take n).filter fun q => !F q.2).map Prod.fst).foldl
        (record c.atmId c.result.cassetteSnapshots) (contents db) := by
  induction n with
  | zero => rfl
  | succ n ih =>
    cases hq : (order c.result.events)[n]? with
    | none =>
      have hr : c.rounds[n]? = none := by rw [rounds_getElem?, hq]; rfl
      rw [List.take_add_one, hq, Option.toList_none, List.append_nil, ← ih, stateBefore,
        List.take_add_one, hr, Option.toList_none, List.append_nil]
      rfl
    | some q =>
      have hr : c.rounds[n]? = some (c.envs n, q.1) := by rw [rounds_getElem?, hq]; rfl
      have hround := h n (c.envs n, q.1) q.2 hr hq
      rw [stateBefore_succ c db hr, List.take_add_one, hq, Option.toList_some, List.filter_append,
        List.map_append, List.foldl_append, ← ih]
      cases hF : F q.2 with
      | true =>
        rw [if_pos hF, commits_iff] at hround
        rw [processEvent_failed hround, List.filter_cons_of_neg (by simp [hF])]
        rfl
      | false =>
        rw [if_neg (by simp [hF])] at hround
        rw [processEvent_completes (hround.completes ..), List.filter_cons_of_pos (by simp [hF])]
        rfl

/-- The events whose transactions fail might as well not have been in the result. -/
theorem failures_isolated (h : FailsExactly c db F) :
    contents (c.run db) = contents ((calm c.atmId (without F c.result)).run db) := by
  have hall : c.run db = stateBefore c db c.rounds.length := by
    rw [stateBefore, List.take_length]
    rfl
  have hlen : c.rounds.length = (order c.result.events).length := by
    have horder := congrArg List.length (order_events c.result.events)
    rw [List.length_map] at horder
    simp [Call.rounds, withEnvs, horder]
  have hcalm : contents ((calm c.atmId (without F c.result)).run db) = _ :=
    processResult_undisturbed (calm_undisturbed c.atmId (without F c.result)) c.atmId _ db
  rw [hall, contents_stateBefore h, hlen, List.take_length, hcalm, calm, sortedEvents_without]
  rfl

end Run

def repeated : Call where
  envs := fun i => { raises := fun s => if i = 0 ∧ s = .commit then some .other else none }
  atmId := 1
  result := { events := [.bare 7 10 .cardInserted, .bare 7 20 .cardTaken] }

theorem failures_isolated_repeated :
    contents (repeated.run {}) = contents ((calm 1 (without (· == 0) repeated.result)).run {}) := by
  apply failures_isolated
  intro i p k hp hk
  have horder : order repeated.result.events =
      [(.bare 7 10 .cardInserted, 0), (.bare 7 20 .cardTaken, 1)] := by decide
  rw [rounds_getElem?, horder] at hp
  rw [horder] at hk
  obtain rfl | rfl : i = 0 ∨ i = 1 := by
    have hlt : i < 2 := (List.getElem?_eq_some_iff.mp hk).1
    omega
  · obtain rfl : (repeated.envs 0, _) = p := Option.some.inj hp
    obtain rfl : 0 = k := (Prod.mk.inj (Option.some.inj hk)).2
    rw [if_pos (by decide), commits_iff]
    rintro ⟨-, hcompletes⟩
    cases hcompletes.commit
  · obtain rfl : (repeated.envs 1, _) = p := Option.some.inj hp
    obtain rfl : 1 = k := (Prod.mk.inj (Option.some.inj hk)).2
    rw [if_neg (by decide)]
    exact ⟨fun s => by simp [repeated], Or.inl rfl⟩

end AtmMonitor.FailureIsolation

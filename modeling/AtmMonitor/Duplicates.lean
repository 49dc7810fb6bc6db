import AtmMonitor.ParsedBlocks
import AtmMonitor.Replay
import AtmMonitor.StoreKeys

namespace AtmMonitor.Duplicates

open Library.FirstWins PyText ParserModels DatabaseModels Repositories EventProcessor
  EventTransaction Ledger CallRuns StoreKeys Replay EjParser ParsedBlocks

def machineKey (atmId : Nat) (r : ATMEvent) : Option Nat :=
  if r.atmId = atmId then r.eventSequenceNumber else none

theorem knownEvent_eq (rows : List ATMEvent) (atmId : Nat) (n : Option Nat) :
    knownEvent rows atmId n = known (machineKey atmId) rows n := by
  cases n with
  | none => rfl
  | some n =>
    apply List.any_congr rfl
    intro r
    by_cases h : r.atmId = atmId <;> simp [machineKey, h]

/-- The event rows of the ledger are a log in which the first entry of a number wins. -/
theorem foldl_record_events (atmId : Nat) (snapshots : List CassetteSnapshot)
    (events : List ATMParsedEvent) (c : Contents) :
    (events.foldl (Ledger.record atmId snapshots) c).events =
      Library.FirstWins.record (machineKey atmId) c.events
        (events.map (ATMEvent.ofParsed 0 atmId)) := by
  induction events generalizing c with
  | nil => rfl
  | cons ev rest ih =>
    rw [List.foldl_cons, ih, List.map_cons, Library.FirstWins.record, Library.FirstWins.record,
      List.foldl_cons]
    congr 1
    have hkey : machineKey atmId (ATMEvent.ofParsed 0 atmId ev) = ev.eventSequenceNumber :=
      if_pos rfl
    cases hk : knownEvent c.events atmId ev.eventSequenceNumber with
    | true =>
      rw [record_known atmId snapshots hk, insertNew_known]
      rwa [hkey, ← knownEvent_eq]
    | false =>
      rw [record_events atmId snapshots hk, insertNew_new]
      rwa [hkey, ← knownEvent_eq]

theorem duplicateCheck_iff {db : Database} {atmId : Nat} {n : Option Nat} (hn : n.isSome) :
    duplicateCheck db atmId n = true ↔
      ∃ row ∈ db.events, row.atmId = atmId ∧ row.eventSequenceNumber = n := by
  obtain ⟨n, rfl⟩ := Option.isSome_iff_exists.mp hn
  simp [duplicateCheck]

/-- A transaction that reads without errors skips its event exactly if the number is stored. -/
theorem transaction_duplicate_iff (env : TxEnv) (atmId : Nat) (snapshots : List CassetteSnapshot)
    (ev : ATMParsedEvent) (w : Work) (hw : w.active = true)
    (hcheck : env.raises .duplicateCheck = none) (hinsert : env.raises .insertEvent = none)
    (hrollback : env.raises .rollback = none) :
    (transaction env atmId snapshots ev w).1 = .duplicate ↔
      duplicateCheck w.db atmId ev.eventSequenceNumber = true := by
  have hc : checkError env ev w = none := by
    unfold checkError Work.issue
    rw [hw, hcheck]
    simp
  cases hd : duplicateCheck w.db atmId ev.eventSequenceNumber with
  | true => simp [transaction, hc, hd, hrollback]
  | false =>
    simp only [transaction, hc, hd, Bool.false_eq_true, if_false, Work.issue, hw, if_true, hinsert,
      iff_false, finishTransaction]
    split
    · simp
    · split
      · simp
      · split <;> simp

structure OnlyRow (db : Database) (atmId : Nat) (n : Option Nat) (row : ATMEvent) : Prop where
  mem : row ∈ db.events
  machine : row.atmId = atmId
  number : row.eventSequenceNumber = n
  only : ∀ row' ∈ db.events, row'.atmId = atmId → row'.eventSequenceNumber = n → row' = row

/-- The row was written for an event of the list, the earliest of its number. -/
def EarliestOf (events : List ATMParsedEvent) (atmId : Nat) (n : Option Nat) (row : ATMEvent) :
    Prop :=
  ∃ ev ∈ events, ev.eventSequenceNumber = n ∧ row = ATMEvent.ofParsed row.id atmId ev ∧
    ∀ ev' ∈ events, ev'.eventSequenceNumber = n → ev.eventTime ≤ ev'.eventTime

theorem find?_sorted {events : List ATMParsedEvent} {n : Nat} {ev : ATMParsedEvent}
    (h : (sortedEvents events).find? (·.eventSequenceNumber == some n) = some ev) :
    ev ∈ events ∧ ev.eventSequenceNumber = some n ∧
      ∀ ev' ∈ events, ev'.eventSequenceNumber = some n → ev.eventTime ≤ ev'.eventTime := by
  have hn : ev.eventSequenceNumber = some n := by simpa using List.find?_some h
  refine ⟨mem_sortedEvents.mp (List.mem_of_find?_eq_some h), hn, fun ev' hm hn' => ?_⟩
  obtain ⟨-, as, bs, hsplit, has⟩ := List.find?_eq_some_iff_append.mp h
  have hpair := sortedEvents_pairwise events
  rw [hsplit, List.pairwise_append] at hpair
  have hmem := mem_sortedEvents.mpr hm
  rw [hsplit, List.mem_append, List.mem_cons] at hmem
  obtain hmem | rfl | hmem := hmem
  · have := has ev' hmem
    simp [hn'] at this
  · exact le_rfl
  · obtain hlt | ⟨-, hle⟩ := (List.pairwise_cons.mp hpair.2.1).1 ev' hmem
    · simp [sortKey, hn, hn'] at hlt
    · exact hle

theorem lookup_fresh {db : Database} {atmId n : Nat}
    (hfresh : ∀ r ∈ db.events, r.atmId = atmId → r.eventSequenceNumber ≠ some n) :
    lookup (machineKey atmId) (contents db).events n = none := by
  apply List.find?_eq_none.mpr
  intro r hr
  obtain ⟨r0, hr0, rfl⟩ := List.mem_map.mp hr
  intro hk
  by_cases ha : r0.atmId = atmId
  · apply hfresh r0 hr0 ha
    simpa [machineKey, eventContent, ha] using hk
  · simp [machineKey, eventContent, ha] at hk

theorem lookup_ofParsed (events : List ATMParsedEvent) (atmId n : Nat) :
    lookup (machineKey atmId) (events.map (ATMEvent.ofParsed 0 atmId)) n =
      (events.find? (·.eventSequenceNumber == some n)).map (ATMEvent.ofParsed 0 atmId) := by
  rw [lookup, List.find?_map]
  simp [Function.comp_def, machineKey, ATMEvent.ofParsed]

theorem run_earliest {c : Call} {db : Database} (hcalm : ∀ i, Undisturbed (c.envs i)) {n : Nat}
    (hfresh : ∀ r ∈ db.events, r.atmId = c.atmId → r.eventSequenceNumber ≠ some n)
    {ev : ATMParsedEvent} (hev : ev ∈ c.result.events) (hn : ev.eventSequenceNumber = some n) :
    ∃ row ∈ (c.run db).events, row.atmId = c.atmId ∧ row.eventSequenceNumber = some n ∧
      EarliestOf c.result.events c.atmId (some n) row := by
  have hlookup : lookup (machineKey c.atmId) (contents (c.run db)).events n =
      ((sortedEvents c.result.events).find? (·.eventSequenceNumber == some n)).map
        (ATMEvent.ofParsed 0 c.atmId) := by
    have hrun : contents (c.run db) = _ := processResult_undisturbed hcalm c.atmId c.result db
    rw [hrun, foldl_record_events, lookup_record, lookup_fresh hfresh, lookup_ofParsed]
    rfl
  have hfound : ((sortedEvents c.result.events).find? (·.eventSequenceNumber == some n)).isSome :=
    List.find?_isSome.mpr ⟨ev, mem_sortedEvents.mpr hev, by simp [hn]⟩
  obtain ⟨first, hfirst⟩ := Option.isSome_iff_exists.mp hfound
  obtain ⟨hmem, hnum, hearliest⟩ := find?_sorted hfirst
  rw [hfirst, Option.map_some] at hlookup
  have hrow := List.mem_of_find?_eq_some hlookup
  obtain ⟨row, hrow, hcontent⟩ := List.mem_map.mp hrow
  have hsame : row = ATMEvent.ofParsed row.id c.atmId first := by
    rw [eventContent, ATMEvent.ofParsed] at hcontent
    cases row
    simp_all [ATMEvent.ofParsed]
  refine ⟨row, hrow, ?_, ?_, first, hmem, hnum, hsame, hearliest⟩
  · rw [hsame]
    rfl
  · rw [hsame, ← hnum]
    rfl

/-- After a call in which nothing fails there is one row for the number of each event: the one
that was there before, or else one written for the earliest event of that number. -/
theorem run_onlyRow {c : Call} {db : Database} (hkeyed : Keyed db)
    (hcalm : ∀ i, Undisturbed (c.envs i))
    (hseq : ∀ ev ∈ c.result.events, ev.eventSequenceNumber.isSome) {ev : ATMParsedEvent}
    (hev : ev ∈ c.result.events) :
    ∃ row, OnlyRow (c.run db) c.atmId ev.eventSequenceNumber row ∧
      (row ∈ db.events ∨
        (∀ r ∈ db.events, r.atmId = c.atmId → r.eventSequenceNumber ≠ ev.eventSequenceNumber) ∧
          EarliestOf c.result.events c.atmId ev.eventSequenceNumber row) := by
  have hfinal : Keyed (c.run db) := by
    have hc : ∀ c' ∈ [c], ∀ ev ∈ c'.result.events, ev.eventSequenceNumber.isSome := by
      intro c' hc'
      rw [List.mem_singleton.mp hc']
      exact hseq
    exact trace_keyed hkeyed hc _ (run_mem_trace [c] db)
  have honly : ∀ row ∈ (c.run db).events, row.atmId = c.atmId →
      row.eventSequenceNumber = ev.eventSequenceNumber →
        OnlyRow (c.run db) c.atmId ev.eventSequenceNumber row := by
    refine fun row hm ha hn => ⟨hm, ha, hn, fun row' hm' ha' hn' => ?_⟩
    apply List.inj_on_of_nodup_map hfinal.sequences hm' hm
    rw [eventKey, eventKey, ha, ha', hn, hn']
  by_cases hold : ∃ r ∈ db.events, r.atmId = c.atmId ∧
      r.eventSequenceNumber = ev.eventSequenceNumber
  · obtain ⟨r, hr, ha, hn⟩ := hold
    exact ⟨r, honly r ((c.events_grow db).subset hr) ha hn, Or.inl hr⟩
  · obtain ⟨n, hn⟩ := Option.isSome_iff_exists.mp (hseq ev hev)
    have hfresh : ∀ r ∈ db.events, r.atmId = c.atmId →
        r.eventSequenceNumber ≠ ev.eventSequenceNumber :=
      fun r hr ha hr' => hold ⟨r, hr, ha, hr'⟩
    rw [hn] at hfresh honly ⊢
    obtain ⟨row, hrow, ha, hnum, hearliest⟩ := run_earliest hcalm hfresh hev hn
    exact ⟨row, honly row hrow ha hnum, Or.inr ⟨hfresh, hearliest⟩⟩

/-- The store identifies an event by its sequence number alone. In a call without failures on the
result of a parse, from any reachable database, a transaction skips its event exactly if a row of
the machine has its number; and afterwards there is one row for the number of each event, the one
stored before or else the earliest of the parse. -/
theorem duplicate_by_sequence [Alnum] (calls : List Call)
    (hseq : ∀ c ∈ calls, ∀ ev ∈ c.result.events, ev.eventSequenceNumber.isSome)
    (db : Database) (hdb : db ∈ trace calls {}) (now : Nat → Timestamp) (lines : List Str)
    (fileName : Str) (envs : Nat → TxEnv) (hcalm : ∀ i, Undisturbed (envs i)) (atmId : Nat) :
    let c : Call := ⟨envs, atmId, parseLines now lines fileName⟩
    (∀ p ∈ c.rounds, ∀ d ∈ c.visited db, ∀ stats,
      (transaction p.1 atmId c.result.cassetteSnapshots p.2 ⟨d, stats, true⟩).1 = .duplicate ↔
        ∃ row ∈ d.events, row.atmId = atmId ∧
          row.eventSequenceNumber = p.2.eventSequenceNumber) ∧
      ∀ ev ∈ c.result.events, ∃ row,
        OnlyRow (c.run db) atmId ev.eventSequenceNumber row ∧
          (row ∈ db.events ∨
            (∀ r ∈ db.events, r.atmId = atmId → r.eventSequenceNumber ≠ ev.eventSequenceNumber) ∧
              EarliestOf c.result.events atmId ev.eventSequenceNumber row) := by
  intro c
  have hnum : ∀ ev ∈ c.result.events, ev.eventSequenceNumber.isSome :=
    parseLines_numbered now lines fileName
  refine ⟨fun p hp d _ stats => ?_, fun ev hev => ?_⟩
  · have hc : Undisturbed p.1 := withEnvs_undisturbed hcalm _ p hp
    rw [transaction_duplicate_iff _ _ _ _ _ rfl (hc.raises _) (hc.raises _) (hc.raises _)]
    exact duplicateCheck_iff (hnum p.2 (Call.mem_events hp))
  · exact run_onlyRow (trace_keyed keyed_empty hseq db hdb) hcalm hnum hev

def restarted : List Str :=
  ["*7*15/07/2026*08:52*".toList, "SST IN SERVICE".toList, "*7*16/07/2026*08:52*".toList,
    "SST OUT OF SERVICE".toList]

def restartedCall : Call := calm 1 (@parseLines asciiAlnum (fun _ => 0) restarted [])

theorem duplicate_by_sequence_restarted :
    ∃ row, OnlyRow (restartedCall.run {}) 1 (some 7) row ∧
      EarliestOf restartedCall.result.events 1 (some 7) row := by
  have hev : ∃ ev ∈ restartedCall.result.events, ev.eventSequenceNumber = some 7 := by
    decide +kernel
  obtain ⟨ev, hev, hn⟩ := hev
  obtain ⟨row, hrow, hold | ⟨-, hnew⟩⟩ := (@duplicate_by_sequence asciiAlnum [] (by simp) {}
    (List.mem_singleton_self _) (fun _ => 0) restarted [] (fun _ => {})
    (fun _ => ⟨fun _ => rfl, fun _ => rfl⟩) 1).2 ev hev
  · exact absurd hold List.not_mem_nil
  · rw [hn] at hrow hnew
    exact ⟨row, hrow, hnew⟩

/-- The second block is skipped although no row has its time, and is never stored. -/
theorem duplicate_other_time :
    (∃ p ∈ restartedCall.rounds, ∃ d ∈ restartedCall.visited {},
      (transaction p.1 1 restartedCall.result.cassetteSnapshots p.2 ⟨d, {}, true⟩).1 = .duplicate ∧
        ¬ ∃ row ∈ d.events, row.atmId = 1 ∧
          row.eventSequenceNumber = p.2.eventSequenceNumber ∧ row.eventTime = p.2.eventTime) ∧
      restartedCall.result.events.length = 2 ∧ (restartedCall.run {}).events.length = 1 := by
  decide +kernel

end AtmMonitor.Duplicates

import AtmMonitor.CallRuns
import AtmMonitor.ParsedBlocks
import AtmMonitor.ParserService

namespace AtmMonitor.OffsetCommit

open PyText ParserModels DatabaseModels Repositories FileUtils EventProcessor EventTransaction
  Ledger CallRuns EjParser ParsedBlocks ParserService

def HasRow (db : Database) (atmId : Nat) (ev : ATMParsedEvent) : Prop :=
  ∃ row ∈ db.events, row = ATMEvent.ofParsed row.id atmId ev

instance (db : Database) (atmId : Nat) (ev : ATMParsedEvent) : Decidable (HasRow db atmId ev) :=
  inferInstanceAs (Decidable (∃ row ∈ db.events, row = ATMEvent.ofParsed row.id atmId ev))

/-- The transaction of the event finds its number among the committed rows. -/
def Recognised (atmId : Nat) (before : Database) (p : TxEnv × ATMParsedEvent) : Prop :=
  p.1.raises .duplicateCheck = none ∧
    duplicateCheck before atmId p.2.eventSequenceNumber = true

/-- The event is in the store when the call ends, or it was skipped as a duplicate. -/
def Accounted (atmId : Nat) (before final : Database) (p : TxEnv × ATMParsedEvent) : Prop :=
  HasRow final atmId p.2 ∨ Recognised atmId before p

/-- Nothing goes wrong with the event: its row is there already, or its number is found, or it is
new and no statement of its transaction fails. -/
def Handled (atmId : Nat) (snapshots : List CassetteSnapshot) (before : Database)
    (p : TxEnv × ATMParsedEvent) : Prop :=
  HasRow before atmId p.2 ∨ Recognised atmId before p ∨
    (duplicateCheck before atmId p.2.eventSequenceNumber = false ∧
      Completes p.1 atmId snapshots p.2 before)

theorem processEvents_rows (atmId : Nat) (snapshots : List CassetteSnapshot)
    (ps : List (TxEnv × ATMParsedEvent)) (acc : Database × ProcessingStatistics) :
    ∀ row ∈ (processEvents atmId snapshots ps acc).1.events,
      row ∈ acc.1.events ∨ ∃ p ∈ ps, row = ATMEvent.ofParsed row.id atmId p.2 := by
  induction ps generalizing acc with
  | nil => exact fun row hr => Or.inl hr
  | cons p rest ih =>
    intro row hr
    obtain hr | ⟨q, hq, hrow⟩ := ih _ row hr
    · obtain ⟨-, -, h⟩ | ⟨-, h⟩ := processEvent_db atmId snapshots acc p
      · rw [h, storeEvent_events] at hr
        obtain hr | hr := List.mem_append.mp hr
        · exact Or.inl hr
        · refine Or.inr ⟨p, by simp, ?_⟩
          rw [List.mem_singleton.mp hr]
          rfl
      · rw [h.events] at hr
        exact Or.inl hr
    · exact Or.inr ⟨q, List.mem_cons_of_mem p hq, hrow⟩

theorem ofParsed_key {id id' atmId : Nat} {ev ev' : ATMParsedEvent}
    (h : ATMEvent.ofParsed id atmId ev = ATMEvent.ofParsed id' atmId ev') :
    (ev.eventSequenceNumber, ev.eventTime) = (ev'.eventSequenceNumber, ev'.eventTime) := by
  simp only [ATMEvent.ofParsed, ATMEvent.mk.injEq] at h
  rw [h.2.2.1, h.2.2.2.1]

theorem hasRow_storeEvent (now : Timestamp) (atmId : Nat) (snapshots : List CassetteSnapshot)
    (ev : ATMParsedEvent) (db : Database) : HasRow (storeEvent now atmId snapshots ev db) atmId ev := by
  refine ⟨ATMEvent.ofParsed db.nextEventId atmId ev, ?_, rfl⟩
  rw [storeEvent_events]
  exact List.mem_append_right _ (List.mem_singleton_self _)

theorem HasRow.mono {db db' : Database} {atmId : Nat} {ev : ATMParsedEvent}
    (h : HasRow db atmId ev) (hsub : db.events ⊆ db'.events) : HasRow db' atmId ev := by
  obtain ⟨row, hr, hrow⟩ := h
  exact ⟨row, hsub hr, hrow⟩

section Round

variable (c : Call) (db : Database) {i : Nat} {p : TxEnv × ATMParsedEvent}

theorem later_keys_ne
    (hkeys : (c.result.events.map fun ev => (ev.eventSequenceNumber, ev.eventTime)).Nodup)
    (hp : c.rounds[i]? = some p) : ∀ q ∈ c.rounds.drop (i + 1),
      (p.2.eventSequenceNumber, p.2.eventTime) ≠ (q.2.eventSequenceNumber, q.2.eventTime) := by
  have hnodup : (c.rounds.map fun q => (q.2.eventSequenceNumber, q.2.eventTime)).Nodup := by
    have hperm := ((sortedEvents_perm c.result.events).map
      fun ev => (ev.eventSequenceNumber, ev.eventTime)).nodup_iff.mpr hkeys
    rw [← withEnvs_events c.envs (sortedEvents c.result.events), List.map_map] at hperm
    exact hperm
  rw [← rounds_split c hp, List.map_append, List.map_cons] at hnodup
  have hcons := (List.nodup_append.mp hnodup).2.1
  intro q hq heq
  apply (List.nodup_cons.mp hcons).1
  exact List.mem_map.mpr ⟨q, hq, heq.symm⟩

/-- In a call whose events differ in number or time, an event is accounted for exactly if its
transaction is handled. -/
theorem accounted_iff_handled
    (hkeys : (c.result.events.map fun ev => (ev.eventSequenceNumber, ev.eventTime)).Nodup)
    (hp : c.rounds[i]? = some p) :
    Accounted c.atmId (stateBefore c db i) (c.run db) p ↔
      Handled c.atmId c.result.cassetteSnapshots (stateBefore c db i) p := by
  set snapshots := c.result.cassetteSnapshots
  set acc := processEvents c.atmId snapshots (c.rounds.take i) (db, {}) with hacc
  have hbefore : stateBefore c db i = acc.1 := rfl
  have hrun : c.run db = (processEvents c.atmId snapshots (c.rounds.drop (i + 1))
      (processEvent c.atmId snapshots acc p)).1 := run_from c db hp
  have hstep : acc.1.events ⊆ (processEvent c.atmId snapshots acc p).1.events :=
    (processEvent_events_grow c.atmId snapshots acc p).subset
  have hrest : (processEvent c.atmId snapshots acc p).1.events ⊆ (c.run db).events := by
    rw [hrun]
    exact (processEvents_events_grow ..).subset
  rw [hbefore]
  constructor
  · intro h
    obtain ⟨row, hr, hrow⟩ | hrec := h
    · rw [hrun] at hr
      obtain hr | ⟨q, hq, hrow'⟩ := processEvents_rows _ _ _ _ row hr
      · obtain ⟨hdup, hcomp, -⟩ | ⟨-, hsame⟩ := processEvent_db c.atmId snapshots acc p
        · exact Or.inr (Or.inr ⟨hdup, hcomp⟩)
        · rw [hsame.events] at hr
          exact Or.inl ⟨row, hr, hrow⟩
      · exact absurd (ofParsed_key (hrow.symm.trans hrow')) (later_keys_ne c hkeys hp q hq)
    · exact Or.inr (Or.inl hrec)
  · intro h
    obtain hrow | hrec | ⟨hdup, hcomp⟩ := h
    · exact Or.inl (hrow.mono fun row hr => hrest (hstep hr))
    · exact Or.inr hrec
    · obtain ⟨-, -, hdb⟩ | ⟨hn, -⟩ := processEvent_db c.atmId snapshots acc p
      · refine Or.inl (HasRow.mono ?_ hrest)
        rw [hdb]
        exact hasRow_storeEvent ..
      · exact absurd ⟨hdup, hcomp⟩ hn

end Round

section Words

variable [Alnum]

/-- The call of `process_result` that a pass makes on what it read. -/
def scanCall (target : Target) (env : ScanEnv) (db : Database) : Call where
  envs := env.txs
  atmId := target.atmId
  result := parseResult target env (readLines target env
    (currentState target env (getFileState db target.atmId target.filePath))).1

/-- A pass that commits an offset ends with the database that its call of `process_result` left,
and the file state with that offset. -/
theorem scan_parsed {target : Target} {env : ScanEnv} {db db' : Database} {n : Nat}
    (h : scan target env db = (.parsed n, db')) :
    db'.events = ((scanCall target env db).run db).events ∧
      (getFileState db' target.atmId target.filePath).map (·.lastReadOffset) = some n := by
  unfold scan at h
  simp only at h
  split at h
  · rename_i e _
    cases e <;> cases h
  · split_ifs at h
    · split at h
      · rename_i e _
        cases e <;> cases h
      · cases h
    · split at h
      · rename_i e _
        cases e <;> cases h
      · rw [Prod.mk.injEq, ScanEnd.parsed.injEq] at h
        obtain ⟨ha, hf⟩ := currentState_key target env db
        obtain ⟨hn, hdb⟩ := h
        refine ⟨by rw [← hdb]; rfl, ?_⟩
        have hget := getFileState_saveFileState
          (processResult env.txs target.atmId (scanCall target env db).result db).1
          (advancedState target env
            (currentState target env (getFileState db target.atmId target.filePath)) n
            (scanCall target env db).result)
        have hkey : (advancedState target env
            (currentState target env (getFileState db target.atmId target.filePath)) n
            (scanCall target env db).result).atmId = target.atmId := ha
        have hkey' : (advancedState target env
            (currentState target env (getFileState db target.atmId target.filePath)) n
            (scanCall target env db).result).filePath = target.filePath := hf
        rw [hkey, hkey'] at hget
        rw [← hdb, hn]
        exact congrArg (Option.map (·.lastReadOffset)) hget

theorem scanLoop_parsed {target : Target} {envs : List ScanEnv} {db db' : Database} {n : Nat}
    (h : scanLoop target envs db = (.parsed n, db')) :
    ∃ pre env post, envs = pre ++ env :: post ∧
      scan target env (scanLoop target pre db).2 = (.parsed n, db') := by
  induction envs generalizing db with
  | nil => cases h
  | cons env rest ih =>
    rw [scanLoop] at h
    split at h
    · rename_i d hd
      split_ifs at h with hopens
      · cases h
      · obtain ⟨pre, e, post, hsplit, hs⟩ := ih h
        refine ⟨env :: pre, e, post, by rw [hsplit, List.cons_append], ?_⟩
        rw [scanLoop, hd]
        simpa [hopens] using hs
    · exact ⟨[], env, rest, rfl, h⟩

/-- When `process_file` commits an offset, the events of the chunk that was read are all accounted
for, each by a row of its own or as a duplicate, exactly if all their transactions were handled. -/
theorem offset_commit_iff {target : Target} {breakerClosed found : Bool} {envs : List ScanEnv}
    {db db' : Database} {n : Nat}
    (h : processFile target breakerClosed found envs db = (.parsed n, db')) :
    ∃ pre env post d, envs = pre ++ env :: post ∧ d = (scanLoop target pre db).2 ∧
      scan target env d = (.parsed n, db') ∧
      (getFileState db' target.atmId target.filePath).map (·.lastReadOffset) = some n ∧
      ((∀ (i : Nat) p, (scanCall target env d).rounds[i]? = some p →
          Accounted target.atmId (stateBefore (scanCall target env d) d i) db' p) ↔
        ∀ (i : Nat) p, (scanCall target env d).rounds[i]? = some p →
          Handled target.atmId (scanCall target env d).result.cassetteSnapshots
            (stateBefore (scanCall target env d) d i) p) := by
  unfold processFile at h
  split_ifs at h
  · obtain ⟨pre, env, post, hsplit, hscan⟩ := scanLoop_parsed h
    set d := (scanLoop target pre db).2 with hd
    obtain ⟨hevents, hoffset⟩ := scan_parsed hscan
    refine ⟨pre, env, post, d, hsplit, hd, hscan, hoffset, ?_⟩
    have hkeys := parseLines_nodup env.parseClock (readLines target env
      (currentState target env (getFileState d target.atmId target.filePath))).1 target.fileName
    have hrow : ∀ ev, HasRow db' target.atmId ev ↔
        HasRow ((scanCall target env d).run d) target.atmId ev := by
      intro ev
      rw [HasRow, hevents]
      exact Iff.rfl
    have heach : ∀ (i : Nat) p, (scanCall target env d).rounds[i]? = some p →
        (Accounted target.atmId (stateBefore (scanCall target env d) d i) db' p ↔
          Handled target.atmId (scanCall target env d).result.cassetteSnapshots
            (stateBefore (scanCall target env d) d i) p) := by
      intro i p hp
      rw [Accounted, hrow]
      exact accounted_iff_handled (scanCall target env d) d hkeys hp
    exact ⟨fun hall i p hp => (heach i p hp).mp (hall i p hp),
      fun hall i p hp => (heach i p hp).mpr (hall i p hp)⟩
  · cases h

end Words

def serviceJournal : Bytes :=
  "*5*15/07/2026*08:52*\nSST IN SERVICE\n".toList.map fun c => UInt8.ofNat c.toNat

def serviceTarget : Target where
  sha256 := fun _ => "ad7c80bbf292acdad0477116b271463751765ea50d0b86ab4fbbe9aa89c71c87".toList
  atmId := 1
  filePath := "EJDATA.LOG".toList
  fileName := "EJDATA.LOG".toList

def serviceScan (txs : Nat → TxEnv) : ScanEnv where
  size := serviceJournal.length
  modified := 0
  header := some serviceJournal
  rotatedHeader := some serviceJournal
  reads := [⟨some serviceJournal.length, some serviceJournal, []⟩]
  finalHeader := some serviceJournal
  txs := txs

theorem offset_commit_iff_service :
    ∃ env db', @processFile asciiAlnum serviceTarget true true [env] {} = (.parsed 36, db') ∧
      ∃ d, ∀ (i : Nat) p, (@scanCall asciiAlnum serviceTarget env d).rounds[i]? = some p →
        Accounted 1 (stateBefore (@scanCall asciiAlnum serviceTarget env d) d i) db' p := by
  have h : @processFile asciiAlnum serviceTarget true true [serviceScan fun _ => {}] {} =
      (.parsed 36, (@processFile asciiAlnum serviceTarget true true [serviceScan fun _ => {}] {}).2) :=
    Prod.ext (by decide +kernel) rfl
  refine ⟨serviceScan fun _ => {}, _, h, ?_⟩
  obtain ⟨pre, env, post, d, hsplit, -, -, -, hiff⟩ := @offset_commit_iff asciiAlnum _ _ _ _ _ _ _ h
  have hlen := congrArg List.length hsplit
  simp only [List.length_append, List.length_cons, List.length_nil] at hlen
  obtain rfl : pre = [] := List.length_eq_zero_iff.mp (by omega)
  obtain rfl : post = [] := List.length_eq_zero_iff.mp (by omega)
  obtain rfl : serviceScan (fun _ => {}) = env := by simpa using hsplit
  refine ⟨d, hiff.mpr fun i p hp => ?_⟩
  have hcalm : Undisturbed p.1 := by
    have hall : ∀ _ : Nat, Undisturbed {} := fun _ => ⟨fun _ => rfl, fun _ => rfl⟩
    exact withEnvs_undisturbed hall _ p (List.mem_of_getElem? hp)
  cases hdup : duplicateCheck (stateBefore (@scanCall asciiAlnum serviceTarget
      (serviceScan fun _ => {}) d) d i) 1 p.2.eventSequenceNumber with
  | true => exact Or.inr (Or.inl ⟨hcalm.raises _, hdup⟩)
  | false => exact Or.inr (Or.inr ⟨hdup, hcalm.completes ..⟩)

def failedScan : ScanEnv :=
  serviceScan fun _ => { raises := fun s => if s = .insertEvent then some .other else none }

/-- The insert of the only event fails, and the offset is saved behind it all the same. -/
theorem offset_skips_failed_event :
    (@processFile asciiAlnum serviceTarget true true [failedScan] {}).1 = .parsed 36 ∧
      ∃ h : 0 < (@scanCall asciiAlnum serviceTarget failedScan {}).rounds.length,
        ¬ Accounted 1 (stateBefore (@scanCall asciiAlnum serviceTarget failedScan {}) {} 0)
          (@processFile asciiAlnum serviceTarget true true [failedScan] {}).2
          (@scanCall asciiAlnum serviceTarget failedScan {}).rounds[0] := by
  unfold Accounted Recognised
  decide +kernel

end AtmMonitor.OffsetCommit

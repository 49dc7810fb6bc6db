import AtmMonitor.Ledger
import AtmMonitor.LiveFrame
import AtmMonitor.PrintedJournal
import AtmMonitor.SnapshotOwners

namespace AtmMonitor.ToldJournal

open PyText ParserModels DatabaseModels LiveStatus EventProcessor Ledger LiveCash LiveFrame EjParser
  NvrCheck BrowserDate PrintedRows PrintedHeader PrintedMessages PrintedJournal

/-- The machine as the messages tell it, with the notes of the cassettes by their numbers. -/
structure Terminal where
  online : Bool := true
  status : Option TerminalStatus := none
  supervisor : Bool := false
  lastEvent : Option (EventType × Timestamp) := none
  transaction : Option (Timestamp × Rat) := none
  cardReader : Option DeviceStatus := none
  rejectBin : Option DeviceStatus := none
  level : Nat → Option CassetteStatus := fun _ => none
  notes : Nat → Option Nat := fun _ => none

def byNumber {β : Type} (values : PerType β) : Nat → Option β
  | 0 => none
  | k + 1 => values.toList[k]?

/-- A cassette that is taken out or put in is only the last event; a table of totals is nothing. -/
def Terminal.tell (t : Terminal) (time : Timestamp) : Message → Terminal
  | .phrase p =>
    { t with
      online :=
        match p.verdict.terminalStatus with
        | some .inService | some .online => true
        | some .outOfService | some .offline => false
        | _ => t.online
      status := p.verdict.terminalStatus <|> t.status
      supervisor := p.verdict.supervisorMode.getD t.supervisor
      lastEvent := some (p.verdict.eventType, time)
      transaction := ((Message.phrase p).amount.map fun a => (time, a)) <|> t.transaction
      cardReader := if p.verdict.eventType = .cardReaderActivated then some .normal else t.cardReader
      rejectBin :=
        if p.verdict.eventType = .rejectBinRemoved then some .missing
        else if p.verdict.eventType = .rejectBinInserted then some .normal
        else t.rejectBin }
  | .cassette c =>
    { t with lastEvent := some (if c.inserted then .cassetteInserted else .cassetteRemoved, time) }
  | .totals _ _ => t
  | .added counts =>
    { t with
      lastEvent := some (.cashAdded, time)
      level := fun k => ((byNumber counts k).map fun _ => .normal) <|> t.level k
      notes := fun k => byNumber counts k <|> t.notes k }
  | .cleared counts =>
    { t with
      lastEvent := some (.cashCountsCleared, time)
      level := fun k => ((byNumber counts k).map fun c => fill c.remaining) <|> t.level k
      notes := fun k => ((byNumber counts k).map Cleared.remaining) <|> t.notes k }

/-- A machine is known from its first event on. -/
def Record.heard (live : Option Terminal) (r : Record) : Option Terminal :=
  if r.message.verdict.isSome then some ((live.getD {}).tell (minuteOf r.time) r.message) else live

def Terminal.counted (t : Terminal) : Bool := cassettes.any fun k => (t.notes k).isSome

def Terminal.total (t : Terminal) : Nat := (cassettes.map fun k => (t.notes k).getD 0).sum

/-- The cash at the notes that the cassettes hold by default. -/
def Terminal.cash (t : Terminal) : Nat :=
  (t.notes 1).getD 0 * 1000 + ((t.notes 2).getD 0 * 500 + ((t.notes 3).getD 0 * 100 + (t.notes 4).getD 0 * 50))

def Terminal.row (t : Terminal) : ATMLiveStatus where
  isOnline := t.online
  currentStatus := t.status
  sstStatus := t.status
  supervisorMode := t.supervisor
  lastHeartbeat := t.lastEvent.map Prod.snd
  lastEventType := t.lastEvent.map Prod.fst
  lastEventTime := t.lastEvent.map Prod.snd
  lastTransactionTime := t.transaction.map Prod.fst
  lastTransactionAmount := t.transaction.map Prod.snd
  cardReaderStatus := t.cardReader
  rejectBinStatus := t.rejectBin
  cashAvailable := !t.counted || decide (0 < t.total)
  totalRemainingNotes := if t.counted then some (t.total : Int) else none
  cashRemainingAmount := if t.counted then some (t.cash : Int) else none
  cassette1Status := t.level 1
  cassette1RemainingNotes := (t.notes 1).map Int.ofNat
  cassette2Status := t.level 2
  cassette2RemainingNotes := (t.notes 2).map Int.ofNat
  cassette3Status := t.level 3
  cassette3RemainingNotes := (t.notes 3).map Int.ofNat
  cassette4Status := t.level 4
  cassette4RemainingNotes := (t.notes 4).map Int.ofNat

def Terminal.raw (t : Terminal) (total amount : Option Int) (available : Bool) : ATMLiveStatus :=
  { t.row with
    cashAvailable := available
    totalRemainingNotes := total
    cashRemainingAmount := amount }

theorem getD_notes (t : Terminal) (k : Nat) : ((t.notes k).map Int.ofNat).getD 0 = ((t.notes k).getD 0 : Nat) := by
  cases t.notes k <;> rfl

theorem cCounts_raw (t : Terminal) (total amount : Option Int) (available : Bool) :
    cCounts (t.raw total amount available) = cassettes.map fun k => (t.notes k).map Int.ofNat := rfl

theorem applyCash_raw (t : Terminal) {snaps : List CassetteSnapshot} (h : cDenoms snaps = defaultDenoms)
    {total amount : Option Int} {available : Bool}
    (hnone : t.counted = false → total = none ∧ amount = none ∧ available = true) :
    applyCash snaps (t.raw total amount available) = t.row := by
  have hany : (cCounts (t.raw total amount available)).any Option.isSome = t.counted := by
    rw [cCounts_raw, List.any_map, Terminal.counted]
    congr 1
    funext k
    exact Option.isSome_map
  have htotal : totalRem (cCounts (t.raw total amount available)) = (t.total : Int) := by
    rw [cCounts_raw, totalRem, Terminal.total]
    simp only [cassettes, List.map_cons, List.map_nil, List.sum_cons, List.sum_nil, getD_notes]
    push_cast
    rfl
  have hcash : calcCash (cCounts (t.raw total amount available)) (cDenoms snaps) = (t.cash : Int) := by
    rw [cCounts_raw, calcCash, h, Terminal.cash]
    simp only [cassettes, List.map_cons, List.map_nil, List.zipIdx_cons, List.zipIdx_nil, List.sum_cons,
      List.sum_nil, getD_notes, defaultDenoms, Option.getD_some]
    push_cast
    omega
  cases hcounted : t.counted with
  | true =>
    rw [hcounted] at hany
    simp only [applyCash, hany, htotal, hcash, if_true]
    simp [Terminal.raw, Terminal.row, hcounted]
  | false =>
    obtain ⟨rfl, rfl, rfl⟩ := hnone hcounted
    rw [hcounted] at hany
    simp only [applyCash, hany, Bool.false_eq_true, if_false]
    simp [Terminal.raw, Terminal.row, hcounted]

theorem applyEvent_cash (s : ATMLiveStatus) (ev : ATMParsedEvent) (snaps : List CassetteSnapshot) :
    applyEvent s ev snaps =
      applyCash snaps (content (applyHeartbeat ev (snaps.foldl applySnapshot (beforeSnapshots 0 s ev)))) := by
  have hupdate : applyStatusUpdates 0 s ev snaps =
      applyHeartbeat ev (applyCash snaps (snaps.foldl applySnapshot (beforeSnapshots 0 s ev))) := rfl
  rw [applyEvent, hupdate]
  generalize snaps.foldl applySnapshot (beforeSnapshots 0 s ev) = t
  have hcounts : cCounts (content (applyHeartbeat ev t)) = cCounts t := rfl
  simp only [applyCash, hcounts]
  split_ifs <;> rfl

theorem cDenoms_default {snaps : List CassetteSnapshot} (h : ∀ s ∈ snaps, s.denomination = none) :
    cDenoms snaps = defaultDenoms := by
  unfold cDenoms
  apply Library.Runs.foldl_invariant (P := fun d => d = defaultDenoms) rfl
  intro d s hs hd
  rw [h s hs]
  exact hd

/-- The store books the cassettes of a receipt; that one is taken out or put in is left out. -/
def Entry.booked (fileName : Str) (e : Entry) : List CassetteSnapshot :=
  match e.record.message with
  | .added _ | .cleared _ => e.snapshots fileName
  | _ => []

theorem booked_denomination {fileName : Str} {e : Entry} :
    ∀ s ∈ Entry.booked fileName e, s.denomination = none := by
  intro s hs
  unfold Entry.booked at hs
  split at hs
  · rename_i counts hm
    rw [Entry.snapshots, hm] at hs
    obtain ⟨p, -, rfl⟩ := List.mem_map.mp hs
    rfl
  · rename_i counts hm
    rw [Entry.snapshots, hm] at hs
    obtain ⟨p, -, rfl⟩ := List.mem_map.mp hs
    rfl
  · exact absurd hs List.not_mem_nil

theorem counted_tell {t : Terminal} {time : Timestamp} {m : Message} (h : (t.tell time m).counted = false) :
    t.counted = false := by
  have hnotes : ∀ k, (t.notes k).isSome → ((t.tell time m).notes k).isSome := by
    intro k hk
    cases m with
    | phrase p => exact hk
    | cassette c => exact hk
    | totals first others => exact hk
    | added counts =>
      show (byNumber counts k <|> t.notes k).isSome
      cases byNumber counts k with
      | none => exact hk
      | some n => rfl
    | cleared counts =>
      show (((byNumber counts k).map Cleared.remaining) <|> t.notes k).isSome
      cases byNumber counts k with
      | none => exact hk
      | some n => rfl
  rw [Terminal.counted, List.any_eq_false] at h ⊢
  exact fun k hk hsome => h k hk (hnotes k hsome)

theorem content_tell (t : Terminal) {fileName : Str} {e : Entry} {ev : ATMParsedEvent}
    (hev : e.event fileName = some ev) :
    content (applyHeartbeat ev ((Entry.booked fileName e).foldl applySnapshot (beforeSnapshots 0 t.row ev))) =
      (t.tell (minuteOf e.record.time) e.record.message).raw t.row.totalRemainingNotes t.row.cashRemainingAmount
        t.row.cashAvailable := by
  obtain ⟨startIdx, seqNum, time, indent, m, hdate⟩ := e
  cases m with
  | phrase p =>
    have hcard : cardReaderAfter t.row ev =
        if p.verdict.eventType = .cardReaderActivated then some .normal else t.cardReader := by
      rw [← Option.some.inj hev, cardReaderAfter]
      simp only [Bool.false_eq_true, or_false]
      rfl
    have hreject : rejectBinAfter t.row ev =
        if p.verdict.eventType = .rejectBinRemoved then some .missing
        else if p.verdict.eventType = .rejectBinInserted then some .normal else t.rejectBin := by
      rw [← Option.some.inj hev, rejectBinAfter]
      simp only [beq_iff_eq]
      rfl
    set told := (t.tell (minuteOf time) (.phrase p)).raw t.row.totalRemainingNotes t.row.cashRemainingAmount
      t.row.cashAvailable with htold
    have hother : content (applyHeartbeat ev (beforeSnapshots 0 t.row ev)) =
        { told with
          lastTransactionTime := (ev.amount.map fun _ => ev.eventTime) <|> t.row.lastTransactionTime
          lastTransactionAmount := ev.amount <|> t.row.lastTransactionAmount } := by
      rw [beforeSnapshots_eq, hcard, hreject, ← Option.some.inj hev]
      rfl
    have htransaction : ∀ (amount : Option Rat) (before : Option (Timestamp × Rat)),
        ((amount.map fun a => (minuteOf time, a)) <|> before).map Prod.fst =
            ((amount.map fun _ => minuteOf time) <|> before.map Prod.fst) ∧
          ((amount.map fun a => (minuteOf time, a)) <|> before).map Prod.snd =
            (amount <|> before.map Prod.snd) := by
      intro amount before
      cases amount <;> exact ⟨rfl, rfl⟩
    obtain ⟨hwhen, hamount⟩ := htransaction (Message.phrase p).amount t.transaction
    refine hother.trans ?_
    rw [← Option.some.inj hev]
    exact congrArg₂ (fun x y => { told with lastTransactionTime := x, lastTransactionAmount := y })
      hwhen.symm hamount.symm
  | cassette c =>
    obtain rfl := Option.some.inj hev
    rw [beforeSnapshots_eq]
    obtain ⟨position, cassetteNo, inserted, hlisted⟩ := c
    cases inserted <;> rfl
  | totals first others => cases hev
  | added counts =>
    obtain rfl := Option.some.inj hev
    cases counts with
    | two a b => rfl
    | four a b c d => rfl
  | cleared counts =>
    obtain rfl := Option.some.inj hev
    cases counts with
    | two a b => rfl
    | four a b c d => rfl

/-- The live row after an event is the one that the message tells. -/
theorem applyEvent_tell (t : Terminal) {fileName : Str} {e : Entry} {ev : ATMParsedEvent}
    (hev : e.event fileName = some ev) :
    applyEvent t.row ev (Entry.booked fileName e) = (t.tell (minuteOf e.record.time) e.record.message).row := by
  rw [applyEvent_cash, content_tell t hev]
  refine applyCash_raw _ (cDenoms_default booked_denomination) fun hcounted => ?_
  have hbefore := counted_tell hcounted
  simp [Terminal.row, hbefore]

theorem matching_entry {fileName : Str} {e : Entry} {ev : ATMParsedEvent} (hev : e.event fileName = some ev) :
    matchingSnaps (e.snapshots fileName) ev = Entry.booked fileName e := by
  obtain ⟨startIdx, seqNum, time, indent, m, hdate⟩ := e
  have hall : ∀ snaps : List CassetteSnapshot, (∀ s ∈ snaps,
      s.startLineNumber = ev.startLineNumber ∧ s.endLineNumber = ev.endLineNumber) →
        matchingSnaps snaps ev = snaps := by
    intro snaps h
    rw [matchingSnaps, List.filter_eq_self]
    intro s hs
    obtain ⟨hstart, hend⟩ := h s hs
    rw [hstart, hend, beq_self_eq_true, beq_self_eq_true]
    rfl
  cases m with
  | phrase p => rfl
  | cassette c =>
    obtain rfl := Option.some.inj hev
    simp [matchingSnaps, Entry.snapshots, Message.snapshots, Entry.booked]
  | totals first others => cases hev
  | added counts =>
    obtain rfl := Option.some.inj hev
    apply hall
    intro s hs
    obtain ⟨p, -, rfl⟩ := List.mem_map.mp hs
    exact ⟨rfl, rfl⟩
  | cleared counts =>
    obtain rfl := Option.some.inj hev
    apply hall
    intro s hs
    obtain ⟨p, -, rfl⟩ := List.mem_map.mp hs
    exact ⟨rfl, rfl⟩

structure Fresh (atmId : Nat) (c : Contents) (seqNum : Nat) : Prop where
  events : ∀ row ∈ c.events, row.atmId = atmId → row.eventSequenceNumber ≠ some seqNum
  history : ∀ row ∈ c.history, row.atmId = atmId → row.eventSequenceNumber ≠ some seqNum

theorem Fresh.unknown {atmId : Nat} {c : Contents} {seqNum : Nat} (h : Fresh atmId c seqNum) :
    knownEvent c.events atmId (some seqNum) = false := by
  rw [knownEvent, List.any_eq_false]
  intro row hrow
  simp only [Bool.and_eq_true, beq_iff_eq, not_and]
  exact h.events row hrow

theorem booked_cassettes (fileName : Str) (e : Entry) :
    ((Entry.booked fileName e).map fun s => s.cassetteNo).Nodup := by
  have hnumbered : ∀ {β : Type} (xs : List β), ((xs.zipIdx 1).map Prod.snd).Nodup := by
    intro β xs
    rw [List.zipIdx_map_snd]
    exact List.nodup_range'
  obtain ⟨startIdx, seqNum, time, indent, m, hdate⟩ := e
  cases m with
  | added counts =>
    rw [Entry.booked, Entry.snapshots, Message.snapshots, List.map_map]
    exact hnumbered counts.toList
  | cleared counts =>
    rw [Entry.booked, Entry.snapshots, Message.snapshots, List.map_map]
    exact hnumbered counts.toList
  | _ => exact List.nodup_nil

theorem recordHistory_fresh {atmId seqNum : Nat} {ev : ATMParsedEvent} (hev : ev.eventSequenceNumber = some seqNum)
    {snaps : List CassetteSnapshot} {history : List CassetteBalanceHistory}
    (hfresh : ∀ row ∈ history, row.atmId = atmId → row.eventSequenceNumber = some seqNum →
      ∀ s ∈ snaps, row.cassetteNo ≠ s.cassetteNo)
    (hnodup : (snaps.map fun s => s.cassetteNo).Nodup) :
    recordHistory atmId ev snaps history =
      history ++ snaps.map (CassetteBalanceHistory.ofSnapshot 0 atmId 0 ev) := by
  induction snaps generalizing history with
  | nil => exact (List.append_nil history).symm
  | cons s rest ih =>
    obtain ⟨hother, hnodup⟩ := List.nodup_cons.mp hnodup
    have hunknown : ¬ knownSnapshot history atmId ev.eventSequenceNumber s.cassetteNo = true := by
      rw [hev, knownSnapshot, List.any_eq_true]
      rintro ⟨row, hrow, hknown⟩
      simp only [Bool.and_eq_true, beq_iff_eq] at hknown
      exact hfresh row hrow hknown.1.1 hknown.1.2 s (by simp) hknown.2
    rw [recordHistory, List.foldl_cons, if_neg hunknown, ← recordHistory, ih ?_ hnodup, List.map_cons,
      List.append_assoc]
    · rfl
    · intro row hrow hatm hseq s' hs'
      obtain hrow | hrow := List.mem_append.mp hrow
      · exact hfresh row hrow hatm hseq s' (List.mem_cons_of_mem s hs')
      · rw [List.mem_singleton.mp hrow]
        intro heq
        exact hother (List.mem_map.mpr ⟨s', hs', heq.symm⟩)

def Entry.rows (fileName : Str) (atmId : Nat) (e : Entry) : List CassetteBalanceHistory :=
  match e.event fileName with
  | none => []
  | some ev => (Entry.booked fileName e).map (CassetteBalanceHistory.ofSnapshot 0 atmId 0 ev)

/-- The messages are numbered upwards, and the clock of the machine is not put back. -/
def Ascending (records : List Record) : Prop :=
  records.Pairwise fun r r' => r.seqNum < r'.seqNum ∧ minuteOf r.time ≤ minuteOf r'.time

instance (records : List Record) : Decidable (Ascending records) :=
  inferInstanceAs (Decidable (records.Pairwise _))

/-- The store shows the machine as it was heard of, and the records are to come. -/
structure Ready (atmId : Nat) (c : Contents) (live : Option Terminal) (records : List Record) : Prop where
  ascending : Ascending records
  fresh : ∀ r ∈ records, Fresh atmId c r.seqNum
  row : c.liveStatus atmId = live.map Terminal.row
  later : ∀ t ∈ live, ∀ p ∈ t.lastEvent, ∀ r ∈ records, p.2 ≤ minuteOf r.time

/-- The contents after a list of entries. -/
def told (fileName : Str) (atmId : Nat) (es : List Entry) (c : Contents) (live : Option Terminal) : Contents where
  events := c.events ++ (es.filterMap (Entry.event fileName)).map (ATMEvent.ofParsed 0 atmId)
  history := c.history ++ es.flatMap (Entry.rows fileName atmId)
  liveStatus := Function.update c.liveStatus atmId (((es.map Entry.record).foldl Record.heard live).map Terminal.row)

theorem initialStatus_row : initialStatus = Terminal.row {} := rfl

theorem recordLive_tell {live : Option Terminal} {fileName : Str} {e : Entry} {ev : ATMParsedEvent}
    (hev : e.event fileName = some ev)
    (hlater : ∀ t ∈ live, ∀ p ∈ t.lastEvent, p.2 ≤ minuteOf e.record.time) :
    recordLive (live.map Terminal.row) ev (Entry.booked fileName e) =
      ((live.getD {}).tell (minuteOf e.record.time) e.record.message).row := by
  have hrow : (live.map Terminal.row).getD initialStatus = (live.getD {}).row := by
    cases live with
    | none => exact initialStatus_row
    | some t => rfl
  have htime : ev.eventTime = minuteOf e.record.time := by
    obtain ⟨v, -, rfl⟩ := Option.map_eq_some_iff.mp hev
    rfl
  have hfresh : isStale (live.getD {}).row ev = false := by
    cases live with
    | none => rfl
    | some t =>
      have hshown : ((some t).getD {}).row.lastEventTime = t.lastEvent.map Prod.snd := rfl
      cases hlast : t.lastEvent with
      | none =>
        rw [hlast] at hshown
        rw [isStale, hshown]
        rfl
      | some p =>
        rw [hlast] at hshown
        rw [isStale, hshown, Option.map_some, htime]
        exact decide_eq_false (not_lt.mpr (hlater t rfl p hlast))
  rw [recordLive, hrow, hfresh, if_neg Bool.false_ne_true]
  exact applyEvent_tell _ hev

theorem number_event {fileName : Str} {e : Entry} {ev : ATMParsedEvent} (hev : e.event fileName = some ev) :
    ev.eventSequenceNumber = some e.record.seqNum := by
  obtain ⟨v, -, rfl⟩ := Option.map_eq_some_iff.mp hev
  rfl

theorem record_entry {atmId : Nat} {snapshots : List CassetteSnapshot} {fileName : Str} {c : Contents}
    {live : Option Terminal} {e : Entry} {rest : List Record} (h : Ready atmId c live (e.record :: rest))
    {ev : ATMParsedEvent} (hev : e.event fileName = some ev)
    (hsnaps : matchingSnaps snapshots ev = Entry.booked fileName e) :
    record atmId snapshots c ev = told fileName atmId [e] c live := by
  have hfresh := h.fresh e.record (by simp)
  have hseq := number_event hev
  have hverdict : e.record.message.verdict.isSome := by
    obtain ⟨v, hv, -⟩ := Option.map_eq_some_iff.mp hev
    rw [hv]
    rfl
  have hunknown : ¬ knownEvent c.events atmId ev.eventSequenceNumber = true := by
    rw [hseq, hfresh.unknown]
    exact Bool.false_ne_true
  have hhistory : recordHistory atmId ev (Entry.booked fileName e) c.history = _ := recordHistory_fresh hseq
    (fun row hrow hatm hnum => absurd hnum (hfresh.history row hrow hatm)) (booked_cassettes fileName e)
  have hlive := recordLive_tell hev fun t ht p hp => h.later t ht p hp e.record (by simp)
  rw [record, if_neg hunknown, hsnaps, h.row, hhistory, hlive, told]
  simp only [List.filterMap_cons_some hev, List.filterMap_nil, List.map_cons, List.map_nil, List.flatMap_cons,
    List.flatMap_nil, List.append_nil, List.foldl_cons, List.foldl_nil, Entry.rows, hev, Record.heard, hverdict,
    if_true, Option.map_some]

theorem told_none {atmId : Nat} {fileName : Str} {c : Contents} {live : Option Terminal} {e : Entry}
    (hrow : c.liveStatus atmId = live.map Terminal.row) (hev : e.event fileName = none) :
    told fileName atmId [e] c live = c := by
  have hverdict : e.record.message.verdict = none := Option.map_eq_none_iff.mp hev
  rw [told]
  simp only [List.filterMap_cons_none hev, List.filterMap_nil, List.map_cons, List.map_nil, List.flatMap_cons,
    List.flatMap_nil, List.append_nil, List.foldl_cons, List.foldl_nil, Entry.rows, hev, Record.heard, hverdict,
    Option.isSome_none, Bool.false_eq_true, if_false, ← hrow, Function.update_eq_self]

theorem told_nil {fileName : Str} {atmId : Nat} {c : Contents} {live : Option Terminal}
    (hrow : c.liveStatus atmId = live.map Terminal.row) : told fileName atmId [] c live = c := by
  simp only [told, List.filterMap_nil, List.map_nil, List.flatMap_nil, List.append_nil, List.foldl_nil, ← hrow,
    Function.update_eq_self]

theorem told_append (atmId : Nat) (fileName : Str) (es es' : List Entry) (c : Contents) (live : Option Terminal) :
    told fileName atmId (es ++ es') c live =
      told fileName atmId es' (told fileName atmId es c live) ((es.map Entry.record).foldl Record.heard live) := by
  simp only [told, List.filterMap_append, List.map_append, List.flatMap_append, List.foldl_append,
    List.append_assoc, Function.update_idem]

theorem Ready.entry {atmId : Nat} {c : Contents} {live : Option Terminal} {e : Entry} {rest : List Record}
    (h : Ready atmId c live (e.record :: rest)) (fileName : Str) :
    Ready atmId (told fileName atmId [e] c live) (Record.heard live e.record) rest := by
  obtain ⟨hnext, hascending⟩ := List.pairwise_cons.mp h.ascending
  refine ⟨hascending, fun r hr => ⟨?_, ?_⟩, Function.update_self .., ?_⟩
  · intro row hrow hatm
    obtain hrow | hrow := List.mem_append.mp hrow
    · exact (h.fresh r (List.mem_cons_of_mem _ hr)).events row hrow hatm
    · obtain ⟨ev, hev, rfl⟩ := List.mem_map.mp hrow
      obtain ⟨e', he', hev⟩ := List.mem_filterMap.mp hev
      rw [List.mem_singleton.mp he'] at hev
      have hlt := (hnext r hr).1
      simp only [ATMEvent.ofParsed, number_event hev, ne_eq, Option.some.injEq]
      omega
  · intro row hrow hatm
    obtain hrow | hrow := List.mem_append.mp hrow
    · exact (h.fresh r (List.mem_cons_of_mem _ hr)).history row hrow hatm
    · obtain ⟨e', he', hrow⟩ := List.mem_flatMap.mp hrow
      rw [List.mem_singleton.mp he', Entry.rows] at hrow
      cases hev : e.event fileName with
      | none =>
        rw [hev] at hrow
        exact absurd hrow List.not_mem_nil
      | some ev =>
        rw [hev] at hrow
        obtain ⟨s, -, rfl⟩ := List.mem_map.mp hrow
        have hlt := (hnext r hr).1
        simp only [CassetteBalanceHistory.ofSnapshot, number_event hev, ne_eq, Option.some.injEq]
        omega
  · intro t ht p hp r hr
    unfold Record.heard at ht
    split_ifs at ht with hverdict
    · rw [← Option.some.inj ht] at hp
      have hlast : p.2 = minuteOf e.record.time := by
        cases hm : e.record.message with
        | totals first others =>
          rw [hm] at hverdict
          cases hverdict
        | _ =>
          rw [hm] at hp
          rw [← Option.some.inj hp]
      rw [hlast]
      exact (hnext r hr).2
    · exact h.later t ht p hp r (List.mem_cons_of_mem _ hr)

/-- All entries of a pass, with what is to come after it. -/
theorem told_entries {atmId : Nat} {snapshots : List CassetteSnapshot} {fileName : Str} {es : List Entry}
    {rest : List Record} {c : Contents} {live : Option Terminal}
    (hsnaps : ∀ e ∈ es, ∀ ev, e.event fileName = some ev → matchingSnaps snapshots ev = Entry.booked fileName e)
    (h : Ready atmId c live (es.map Entry.record ++ rest)) :
    (es.filterMap (Entry.event fileName)).foldl (record atmId snapshots) c = told fileName atmId es c live ∧
      Ready atmId (told fileName atmId es c live) ((es.map Entry.record).foldl Record.heard live) rest := by
  induction es generalizing c live with
  | nil =>
    rw [told_nil h.row]
    exact ⟨rfl, h⟩
  | cons e es ih =>
    obtain ⟨hrun, hready⟩ := ih (fun e' he' => hsnaps e' (List.mem_cons_of_mem e he')) (h.entry fileName)
    rw [← List.singleton_append, told_append]
    refine ⟨?_, hready⟩
    rw [List.singleton_append]
    cases hev : e.event fileName with
    | none =>
      rw [List.filterMap_cons_none hev]
      rw [told_none h.row hev] at hrun ⊢
      exact hrun
    | some ev =>
      rw [List.filterMap_cons_some hev, List.foldl_cons, record_entry h hev (hsnaps e (by simp) ev hev)]
      exact hrun

theorem firsts_ascending {records : List Record} (h : Ascending records) : firsts records = entries 0 records := by
  rw [firsts]
  refine (Library.FirstWins.record_distinct Entry.key ?_).trans (List.nil_append _)
  have hkeys : (entries 0 records).filterMap Entry.key =
      ((entries 0 records).map Entry.record).map fun r => (r.seqNum, minuteOf r.time) := by
    rw [List.map_map]
    exact congrFun List.filterMap_eq_map (entries 0 records)
  rw [List.nil_append, hkeys, entries_record, List.Nodup, List.pairwise_map]
  refine h.imp fun {r r'} hlt heq => ?_
  exact absurd (congrArg Prod.fst heq) (Nat.ne_of_lt hlt.1)

theorem sortedEvents_ascending {records : List Record} (h : Ascending records) (fileName : Str) :
    sortedEvents ((entries 0 records).filterMap (Entry.event fileName)) =
      (entries 0 records).filterMap (Entry.event fileName) := by
  refine List.Pairwise.insertionSort_eq ?_
  have hentries : (entries 0 records).Pairwise fun e e' => e.record.seqNum < e'.record.seqNum := by
    have hnumbers : ((entries 0 records).map Entry.record).Pairwise fun r r' => r.seqNum < r'.seqNum := by
      rw [entries_record]
      exact h.imp And.left
    rwa [List.pairwise_map] at hnumbers
  refine hentries.filterMap _ fun e e' hlt ev hev ev' hev' => ?_
  obtain ⟨v, -, rfl⟩ := Option.map_eq_some_iff.mp hev
  obtain ⟨v', -, rfl⟩ := Option.map_eq_some_iff.mp hev'
  exact Or.inl hlt

/-- One parse of a part of the journal that is new, and its way into the store. -/
structure Pass where
  envs : Nat → TxEnv
  now : Nat → Timestamp
  fileName : Str
  records : List Record

section Words

variable [Alnum]

theorem matching_parse {now : Nat → Timestamp} {records : List Record} {fileName : Str} {e : Entry}
    (he : e ∈ firsts records) {ev : ATMParsedEvent} (hev : e.event fileName = some ev) :
    matchingSnaps (parseLines now (printed records) fileName).cassetteSnapshots ev = Entry.booked fileName e := by
  have hprocessed : e.block ∈ SnapshotRouting.processedBlocks now (printed records) := by
    rw [SnapshotRouting.processedBlocks, groupBlocks_printed, firsts_block, List.mem_filter, ignored_entry]
    exact ⟨List.mem_map_of_mem he, rfl⟩
  have hblock : ev = blockEvent fileName e.block := by
    obtain ⟨v, hv, -⟩ := Option.map_eq_some_iff.mp hev
    rw [blockEvent_entry fileName e hv] at hev
    exact (Option.some.inj hev).symm
  rw [hblock, SnapshotOwners.matchingSnaps_own fileName hprocessed, blockSnapshots_entry, ← hblock]
  exact matching_entry hev

def Pass.run (atmId : Nat) (db : Database) (p : Pass) : Database :=
  (processResult p.envs atmId (parseLines p.now (printed p.records) p.fileName) db).1

theorem pass_told {atmId : Nat} {p : Pass} (hcalm : ∀ i, Undisturbed (p.envs i)) {rest : List Record}
    {db : Database} {live : Option Terminal} (h : Ready atmId (contents db) live (p.records ++ rest)) :
    contents (p.run atmId db) = told p.fileName atmId (entries 0 p.records) (contents db) live ∧
      Ready atmId (contents (p.run atmId db)) (p.records.foldl Record.heard live) rest := by
  have hascending : Ascending p.records := (List.pairwise_append.mp h.ascending).1
  have hentries := h
  rw [← entries_record 0 p.records] at hentries
  obtain ⟨hrun, hready⟩ := told_entries (fun e he ev hev =>
    @matching_parse _ p.now p.records p.fileName e (firsts_ascending hascending ▸ he) ev hev) hentries
  have hcontents : contents (p.run atmId db) = told p.fileName atmId (entries 0 p.records) (contents db) live := by
    rw [Pass.run, processResult_undisturbed hcalm, events_printed, firsts_ascending hascending,
      sortedEvents_ascending hascending]
    exact hrun
  refine ⟨hcontents, ?_⟩
  rw [hcontents]
  rwa [entries_record] at hready

/-- What the messages of a journal tell is what the store shows in the end, in however many passes
the journal is taken: every message is one event row, every receipt is booked, and the live row
shows the machine that the messages describe. -/
theorem journal_told (atmId : Nat) (passes : List Pass) (hcalm : ∀ p ∈ passes, ∀ i, Undisturbed (p.envs i))
    (db : Database) (live : Option Terminal)
    (h : Ready atmId (contents db) live (passes.flatMap Pass.records)) :
    let c := contents (passes.foldl (Pass.run atmId) db)
    c.events = (contents db).events ++ passes.flatMap (fun p =>
        ((entries 0 p.records).filterMap (Entry.event p.fileName)).map (ATMEvent.ofParsed 0 atmId)) ∧
      c.history = (contents db).history ++ passes.flatMap (fun p =>
        (entries 0 p.records).flatMap (Entry.rows p.fileName atmId)) ∧
      c.liveStatus = Function.update (contents db).liveStatus atmId
        (((passes.flatMap Pass.records).foldl Record.heard live).map Terminal.row) := by
  induction passes generalizing db live with
  | nil =>
    refine ⟨(List.append_nil _).symm, (List.append_nil _).symm, ?_⟩
    rw [List.flatMap_nil, List.foldl_nil, List.foldl_nil, ← h.row, Function.update_eq_self]
  | cons p passes ih =>
    rw [List.flatMap_cons] at h
    obtain ⟨hcontents, hready⟩ := pass_told (hcalm p (by simp)) h
    obtain ⟨hevents, hhistory, hlive⟩ := ih (fun q hq => hcalm q (List.mem_cons_of_mem p hq)) _ _ hready
    rw [hcontents] at hevents hhistory hlive
    simp only [List.foldl_cons, List.flatMap_cons, List.foldl_append]
    refine ⟨?_, ?_, ?_⟩
    · rw [hevents, told, List.append_assoc]
    · rw [hhistory, told, List.append_assoc]
    · rw [hlive, told, Function.update_idem]

end Words

def morning : Datetime := ⟨2029, 5, 14, 11, 52, 44, by omega, by omega, by omega, by omega, by omega, by omega⟩

theorem isDate_morning : IsDate morning := by
  unfold IsDate
  decide

def filledPass : Pass :=
  ⟨fun _ => {}, fun _ => 0, [],
    [⟨1, morning, 0, .phrase ⟨"SST IN SERVICE", tells .sstInService .status .information (some .inService) 100 none,
        none, by decide⟩, isDate_morning⟩,
     ⟨2, morning, 0, .added (.two 5 7), isDate_morning⟩]⟩

def withdrawnPass : Pass :=
  ⟨fun _ => {}, fun _ => 0, [],
    [⟨3, morning, 0, .phrase ⟨"TRANSACTION END", tells .transactionEnd .transaction .information none 100 none,
        some 100, by decide⟩, isDate_morning⟩]⟩

theorem journal_told_filled :
    ((contents ([filledPass, withdrawnPass].foldl (@Pass.run asciiAlnum 7) {})).liveStatus 7).map (fun row =>
      (row.isOnline, row.totalRemainingNotes, row.lastEventType, row.lastTransactionAmount)) =
        some (true, some 12, some .transactionEnd, some ((100 : Nat) : Rat)) := by
  have hready : Ready 7 (contents {}) none ([filledPass, withdrawnPass].flatMap Pass.records) :=
    ⟨by decide, fun r _ => ⟨by simp [contents], by simp [contents]⟩, rfl, by simp⟩
  have hcalm : ∀ p ∈ [filledPass, withdrawnPass], ∀ i, Undisturbed (p.envs i) := by
    simp only [List.forall_mem_cons, List.not_mem_nil, false_imp_iff, implies_true, and_true]
    exact ⟨fun _ => ⟨fun _ => rfl, fun _ => rfl⟩, fun _ => ⟨fun _ => rfl, fun _ => rfl⟩⟩
  rw [(@journal_told asciiAlnum 7 [filledPass, withdrawnPass] hcalm {} none hready).2.2, Function.update_self]
  rfl

end AtmMonitor.ToldJournal

import AtmMonitor.LiveConsistency

namespace AtmMonitor.LiveFrame

open ParserModels DatabaseModels LiveStatus LiveCash LiveConsistency

variable (now : Timestamp) (s : ATMLiveStatus) (ev : ATMParsedEvent) (snaps : List CassetteSnapshot)

def onlineAfter : Bool :=
  match ev.terminalStatus with
  | some .inService | some .online => true
  | some .outOfService | some .offline => false
  | _ => s.isOnline

def cardReaderAfter : Option DeviceStatus :=
  if ev.eventType = .cardReaderActivated ∨ ev.isCardCaptured then some .normal
  else s.cardReaderStatus

def rejectBinAfter : Option DeviceStatus :=
  if ev.isRejectBinRemoved then some .missing
  else if ev.isRejectBinInserted then some .normal
  else s.rejectBinStatus

theorem applyTerminalStatus_eq : applyTerminalStatus ev s =
    { s with
      currentStatus := ev.terminalStatus <|> s.currentStatus
      sstStatus := ev.terminalStatus <|> s.sstStatus
      isOnline := onlineAfter s ev } := by
  unfold applyTerminalStatus onlineAfter
  cases ev.terminalStatus with
  | none => rfl
  | some t => cases t <;> rfl

theorem applyTransaction_eq : applyTransaction ev s =
    { s with
      lastTransactionTime := (ev.amount.map fun _ => ev.eventTime) <|> s.lastTransactionTime
      lastTransactionAmount := ev.amount <|> s.lastTransactionAmount } := by
  unfold applyTransaction
  cases ev.amount <;> rfl

theorem applySupervisorMode_eq : applySupervisorMode ev s =
    { s with supervisorMode := ev.supervisorMode.getD s.supervisorMode } := by
  unfold applySupervisorMode
  cases ev.supervisorMode <;> rfl

theorem applyCardReader_eq : applyCardReader ev s =
    { s with cardReaderStatus := cardReaderAfter s ev } := by
  unfold applyCardReader cardReaderAfter
  by_cases htype : ev.eventType = .cardReaderActivated
  · simp only [htype, if_true, true_or]
  · simp only [htype, if_false, false_or]
    split_ifs <;> rfl

theorem applyRejectBin_eq : applyRejectBin ev s =
    { s with rejectBinStatus := rejectBinAfter s ev } := by
  unfold applyRejectBin rejectBinAfter
  split_ifs <;> rfl

theorem beforeSnapshots_eq : beforeSnapshots now s ev =
    { s with
      currentStatus := ev.terminalStatus <|> s.currentStatus
      sstStatus := ev.terminalStatus <|> s.sstStatus
      isOnline := onlineAfter s ev
      supervisorMode := ev.supervisorMode.getD s.supervisorMode
      lastAgentHeartbeat := some now
      lastEventType := some ev.eventType
      lastEventTime := some ev.eventTime
      lastTransactionTime := (ev.amount.map fun _ => ev.eventTime) <|> s.lastTransactionTime
      lastTransactionAmount := ev.amount <|> s.lastTransactionAmount
      cardReaderStatus := cardReaderAfter s ev
      rejectBinStatus := rejectBinAfter s ev } := by
  rw [beforeSnapshots, applyRejectBin_eq, applyCardReader_eq, applyTransaction_eq,
    applySupervisorMode_eq, applyTerminalStatus_eq]
  rfl

structure SameDevice (s s' : ATMLiveStatus) : Prop where
  current : s'.currentStatus = s.currentStatus
  sst : s'.sstStatus = s.sstStatus
  online : s'.isOnline = s.isOnline
  supervisor : s'.supervisorMode = s.supervisorMode
  transactionTime : s'.lastTransactionTime = s.lastTransactionTime
  transactionAmount : s'.lastTransactionAmount = s.lastTransactionAmount
  cardReader : s'.cardReaderStatus = s.cardReaderStatus
  rejectBin : s'.rejectBinStatus = s.rejectBinStatus

theorem applySnapshots_sameDevice : SameDevice s (snaps.foldl applySnapshot s) := by
  apply Library.Runs.foldl_invariant (P := SameDevice s)
  · exact ⟨rfl, rfl, rfl, rfl, rfl, rfl, rfl, rfl⟩
  · intro t snap _ h
    unfold applySnapshot
    split <;> exact ⟨h.1, h.2, h.3, h.4, h.5, h.6, h.7, h.8⟩

theorem sameDevice_update : SameDevice (beforeSnapshots now s ev) (applyStatusUpdates now s ev snaps) := by
  have h := applySnapshots_sameDevice (beforeSnapshots now s ev) snaps
  have hupdate : applyStatusUpdates now s ev snaps =
      applyHeartbeat ev (applyCash snaps (beforeCash now s ev snaps)) := rfl
  rw [hupdate]
  unfold applyCash
  dsimp only
  split_ifs <;> exact ⟨h.1, h.2, h.3, h.4, h.5, h.6, h.7, h.8⟩

def statusOf (s : ATMLiveStatus) : Nat → Option CassetteStatus
  | 1 => s.cassette1Status
  | 2 => s.cassette2Status
  | 3 => s.cassette3Status
  | 4 => s.cassette4Status
  | _ => none

theorem statusOf_applySnapshot {snap : CassetteSnapshot} {k : Nat} (h : snap.cassetteNo ≠ k) :
    statusOf (applySnapshot s snap) k = statusOf s k := by
  unfold applySnapshot
  split
  all_goals
    unfold statusOf
    split <;> first | rfl | omega

theorem statusOf_update {k : Nat} (h : ∀ snap ∈ snaps, snap.cassetteNo ≠ k) :
    statusOf (applyStatusUpdates now s ev snaps) k = statusOf s k := by
  have hloop : statusOf (beforeCash now s ev snaps) k = statusOf (beforeSnapshots now s ev) k := by
    apply Library.Runs.foldl_invariant
      (P := fun t => statusOf t k = statusOf (beforeSnapshots now s ev) k) rfl
    intro t snap hsnap ht
    rw [statusOf_applySnapshot t (h snap hsnap), ht]
  have hbefore : statusOf (beforeSnapshots now s ev) = statusOf s := by
    rw [beforeSnapshots_eq]
    rfl
  have hcash : ∀ t, statusOf (applyHeartbeat ev (applyCash snaps t)) = statusOf t := by
    intro t
    unfold applyCash
    dsimp only
    split_ifs <;> rfl
  rw [← hbefore, ← hloop, ← hcash (beforeCash now s ev snaps)]
  rfl

theorem noteCount_update {k : Nat} (hk : k ∈ cassettes)
    (h : ∀ snap ∈ snaps, snap.cassetteNo = k → snap.remainingNotes = none) :
    noteCount (applyStatusUpdates now s ev snaps) k = noteCount s k := by
  have hlast : lastOf (·.remainingNotes) snaps k = none := by
    rw [lastOf, List.getLast?_eq_none_iff, List.filterMap_eq_nil_iff]
    intro snap hsnap
    obtain ⟨hmem, hno⟩ := List.mem_filter.mp hsnap
    exact h snap hmem (beq_iff_eq.mp hno)
  rw [noteCount_applyStatusUpdates now s ev snaps hk, countAfter, hlast]
  rfl

theorem totals_beforeCash :
    (beforeCash now s ev snaps).totalRemainingNotes = s.totalRemainingNotes ∧
      (beforeCash now s ev snaps).cashAvailable = s.cashAvailable := by
  apply Library.Runs.foldl_invariant (P := fun t : ATMLiveStatus =>
    t.totalRemainingNotes = s.totalRemainingNotes ∧ t.cashAvailable = s.cashAvailable)
  · rw [beforeSnapshots_eq]
    exact ⟨rfl, rfl⟩
  · intro t snap _ h
    unfold applySnapshot
    split <;> exact h

theorem totals_update {s : ATMLiveStatus} (hs : Consistent s)
    (h : ∀ k ∈ cassettes, noteCount (applyStatusUpdates now s ev snaps) k = noteCount s k) :
    (applyStatusUpdates now s ev snaps).totalRemainingNotes = s.totalRemainingNotes ∧
      (applyStatusUpdates now s ev snaps).cashAvailable = s.cashAvailable := by
  set t := beforeCash now s ev snaps with ht
  have hupdate : applyStatusUpdates now s ev snaps = applyHeartbeat ev (applyCash snaps t) := rfl
  have hcounts : cCounts t = cCounts s := by
    rw [cCounts_eq s, ← List.map_congr_left h, hupdate]
    unfold applyCash
    dsimp only
    split_ifs <;> rfl
  obtain ⟨htotal, havailable⟩ := totals_beforeCash now s ev snaps
  rw [← ht] at htotal havailable
  rw [hupdate]
  unfold applyCash
  rw [hcounts]
  dsimp only
  split_ifs with hany
  · obtain ⟨n, hn⟩ := Option.isSome_iff_exists.mp (hs.counted.mpr (List.any_eq_true.mp hany))
    obtain ⟨hsum, hpositive⟩ := hs.total n hn
    rw [← totalRem_eq] at hsum
    refine ⟨?_, ?_⟩
    · rw [hn, hsum]
      rfl
    · rw [Bool.eq_iff_iff, hpositive, hsum]
      exact decide_eq_true_iff
  · exact ⟨htotal, havailable⟩

/-- What neither the event nor the snapshots of an update speak of stays as it was. -/
theorem absent_information_kept (us : List Update) (u : Update) :
    let s := rowAfter us
    let s' := rowAfter (us ++ [u])
    (u.ev.terminalStatus = none → s'.currentStatus = s.currentStatus ∧
        s'.sstStatus = s.sstStatus ∧ s'.isOnline = s.isOnline) ∧
      (u.ev.supervisorMode = none → s'.supervisorMode = s.supervisorMode) ∧
      (u.ev.amount = none → s'.lastTransactionTime = s.lastTransactionTime ∧
        s'.lastTransactionAmount = s.lastTransactionAmount) ∧
      (u.ev.isRejectBinRemoved = false → u.ev.isRejectBinInserted = false →
        s'.rejectBinStatus = s.rejectBinStatus) ∧
      (u.ev.eventType ≠ .cardReaderActivated → u.ev.isCardCaptured = false →
        s'.cardReaderStatus = s.cardReaderStatus) ∧
      (∀ k ∈ cassettes, (∀ snap ∈ u.snaps, snap.cassetteNo ≠ k) → statusOf s' k = statusOf s k) ∧
      (∀ k ∈ cassettes, (∀ snap ∈ u.snaps, snap.cassetteNo = k → snap.remainingNotes = none) →
        noteCount s' k = noteCount s k) ∧
      ((∀ snap ∈ u.snaps, snap.cassetteNo ∈ cassettes → snap.remainingNotes = none) →
        s'.totalRemainingNotes = s.totalRemainingNotes ∧ s'.cashAvailable = s.cashAvailable) := by
  intro s s'
  have hs' : s' = applyStatusUpdates u.now s u.ev u.snaps := rowAfter_concat us u
  have hconsistent : Consistent s :=
    Library.Runs.foldl_invariant consistent_initial fun t v _ ht =>
      consistent_update ht v.now v.ev v.snaps
  have hsame := sameDevice_update u.now s u.ev u.snaps
  rw [← hs', beforeSnapshots_eq] at hsame
  have hcount : ∀ k ∈ cassettes,
      (∀ snap ∈ u.snaps, snap.cassetteNo = k → snap.remainingNotes = none) →
        noteCount s' k = noteCount s k := by
    intro k hk h
    rw [hs']
    exact noteCount_update u.now s u.ev u.snaps hk h
  refine ⟨fun h => ⟨?_, ?_, ?_⟩, fun h => ?_, fun h => ⟨?_, ?_⟩, fun h h' => ?_, fun h h' => ?_,
    fun k _ h => ?_, hcount, fun h => ?_⟩
  · rw [hsame.current, h]
    rfl
  · rw [hsame.sst, h]
    rfl
  · rw [hsame.online]
    simp only [onlineAfter, h]
  · rw [hsame.supervisor, h]
    rfl
  · rw [hsame.transactionTime, h]
    rfl
  · rw [hsame.transactionAmount, h]
    rfl
  · rw [hsame.rejectBin]
    simp only [rejectBinAfter, h, h', Bool.false_eq_true, if_false]
  · rw [hsame.cardReader]
    simp only [cardReaderAfter, h, h', Bool.false_eq_true, or_self, if_false]
  · rw [hs']
    exact statusOf_update u.now s u.ev u.snaps h
  · rw [hs']
    apply totals_update u.now u.ev u.snaps hconsistent
    intro k hk
    rw [← hs']
    exact hcount k hk fun snap hsnap hno => h snap hsnap (hno ▸ hk)

end AtmMonitor.LiveFrame

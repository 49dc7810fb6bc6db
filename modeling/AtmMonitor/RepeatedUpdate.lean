import AtmMonitor.LiveFrame

namespace AtmMonitor.RepeatedUpdate

open Library.Runs ParserModels DatabaseModels LiveStatus LiveCash LiveConsistency LiveFrame EventProcessor

variable (now now' : Timestamp) (s : ATMLiveStatus) (ev : ATMParsedEvent)
  (snaps : List CassetteSnapshot)

theorem written_again {α : Type} (o x : Option α) : o.or (o.or x) = o.or x := by
  cases o <;> rfl

theorem written_over {α : Type} (o p x : Option α) : o.or (p.or (o.or x)) = o.or (p.or x) := by
  cases o <;> rfl

theorem applySnapshot_overwriting : Overwriting applySnapshot where
  twice s snap := by
    unfold applySnapshot
    split <;> simp [*, written_again]
  again s snap snap' := by
    unfold applySnapshot
    split <;> split <;> simp [*, written_again, written_over]

theorem onlineAfter_again {t : ATMLiveStatus} (h : t.isOnline = onlineAfter s ev) :
    onlineAfter t ev = onlineAfter s ev := by
  unfold onlineAfter at h ⊢
  split <;> simp_all

theorem cardReaderAfter_again {t : ATMLiveStatus} (h : t.cardReaderStatus = cardReaderAfter s ev) :
    cardReaderAfter t ev = cardReaderAfter s ev := by
  unfold cardReaderAfter at h ⊢
  split_ifs at h ⊢
  · rfl
  · exact h

theorem rejectBinAfter_again {t : ATMLiveStatus} (h : t.rejectBinStatus = rejectBinAfter s ev) :
    rejectBinAfter t ev = rejectBinAfter s ev := by
  unfold rejectBinAfter at h ⊢
  split_ifs at h ⊢
  · rfl
  · rfl
  · exact h

theorem beforeSnapshots_again :
    beforeSnapshots now (beforeSnapshots now s ev) ev = beforeSnapshots now s ev := by
  have hbefore := beforeSnapshots_eq now s ev
  have honline := onlineAfter_again s ev (congrArg ATMLiveStatus.isOnline hbefore)
  have hreader := cardReaderAfter_again s ev (congrArg ATMLiveStatus.cardReaderStatus hbefore)
  have hbin := rejectBinAfter_again s ev (congrArg ATMLiveStatus.rejectBinStatus hbefore)
  have hmode : ∀ o : Option Bool, o.getD (o.getD s.supervisorMode) = o.getD s.supervisorMode := by
    intro o
    cases o <;> rfl
  rw [beforeSnapshots_eq now (beforeSnapshots now s ev), honline, hreader, hbin, hbefore]
  simp only [Option.orElse_eq_orElse, Option.orElse_eq_or, written_again, hmode]

theorem beforeSnapshots_applySnapshots :
    beforeSnapshots now (snaps.foldl applySnapshot s) ev =
      snaps.foldl applySnapshot (beforeSnapshots now s ev) := by
  refine (List.foldl_hom (beforeSnapshots now · ev) fun t snap => ?_).symm
  rw [beforeSnapshots_eq, beforeSnapshots_eq]
  unfold applySnapshot
  split <;> rfl

def closeRow (total amount : Option Int) (available : Bool) (heartbeat : Option Timestamp)
    (s : ATMLiveStatus) : ATMLiveStatus :=
  { s with
    totalRemainingNotes := total
    cashRemainingAmount := amount
    cashAvailable := available
    lastHeartbeat := heartbeat }

theorem applyCash_closeRow : ∃ total amount available heartbeat,
    applyHeartbeat ev (applyCash snaps s) = closeRow total amount available heartbeat s := by
  unfold applyCash
  dsimp only
  split_ifs
  · exact ⟨_, _, _, _, rfl⟩
  · exact ⟨_, _, _, _, rfl⟩

theorem applySnapshots_closeRow (total amount : Option Int) (available : Bool)
    (heartbeat : Option Timestamp) :
    snaps.foldl applySnapshot (closeRow total amount available heartbeat s) =
      closeRow total amount available heartbeat (snaps.foldl applySnapshot s) := by
  refine List.foldl_hom (closeRow total amount available heartbeat) fun t snap => ?_
  unfold applySnapshot
  split <;> rfl

theorem beforeSnapshots_closeRow (total amount : Option Int) (available : Bool)
    (heartbeat : Option Timestamp) :
    beforeSnapshots now (closeRow total amount available heartbeat s) ev =
      closeRow total amount available heartbeat (beforeSnapshots now s ev) := by
  rw [beforeSnapshots_eq, beforeSnapshots_eq]
  rfl

theorem applyCash_again :
    applyCash snaps (applyHeartbeat ev (applyCash snaps s)) = applyHeartbeat ev (applyCash snaps s) := by
  have hcounts : cCounts (applyHeartbeat ev (applyCash snaps s)) = cCounts s := by
    unfold applyCash
    dsimp only
    split_ifs <;> rfl
  unfold applyCash at hcounts ⊢
  dsimp only at hcounts ⊢
  rw [hcounts]
  split_ifs <;> rfl

theorem beforeCash_again : beforeCash now (applyStatusUpdates now s ev snaps) ev snaps =
    applyStatusUpdates now s ev snaps := by
  have hupdate : applyStatusUpdates now s ev snaps =
      applyHeartbeat ev (applyCash snaps (beforeCash now s ev snaps)) := rfl
  obtain ⟨total, amount, available, heartbeat, hclose⟩ :=
    applyCash_closeRow (beforeCash now s ev snaps) ev snaps
  rw [hupdate, hclose, beforeCash, beforeSnapshots_closeRow, applySnapshots_closeRow, beforeCash,
    beforeSnapshots_applySnapshots, beforeSnapshots_again, applySnapshot_overwriting.foldl_twice]

def readAt (now : Timestamp) (s : ATMLiveStatus) : ATMLiveStatus :=
  { s with lastAgentHeartbeat := some now }

theorem applyStatusUpdates_readAt :
    applyStatusUpdates now' s ev snaps = readAt now' (applyStatusUpdates now s ev snaps) := by
  have hbefore : beforeSnapshots now' s ev = readAt now' (beforeSnapshots now s ev) := by
    rw [beforeSnapshots_eq, beforeSnapshots_eq]
    rfl
  have hloop : beforeCash now' s ev snaps = readAt now' (beforeCash now s ev snaps) := by
    rw [beforeCash, hbefore]
    refine List.foldl_hom (readAt now') fun t snap => ?_
    unfold applySnapshot
    split <;> rfl
  have hcash : ∀ t, applyCash snaps (readAt now' t) = readAt now' (applyCash snaps t) := by
    intro t
    have hcounts : cCounts (readAt now' t) = cCounts t := rfl
    unfold applyCash
    rw [hcounts]
    dsimp only
    split_ifs <;> rfl
  have hupdate : ∀ clock, applyStatusUpdates clock s ev snaps =
      applyHeartbeat ev (applyCash snaps (beforeCash clock s ev snaps)) := fun _ => rfl
  rw [hupdate, hupdate, hloop, hcash]
  rfl

/-- An update that meets its own event in the row leaves the row as it is, whatever the snapshots
say; so a retry of the event writes what the first attempt would have written. -/
theorem update_idempotent :
    applyStatusUpdates now (applyStatusUpdates now s ev snaps) ev snaps =
        applyStatusUpdates now s ev snaps ∧
      isStale (applyStatusUpdates now s ev snaps) ev = false ∧
      applyStatusUpdates now' (applyStatusUpdates now s ev snaps) ev snaps =
        applyStatusUpdates now' s ev snaps := by
  set once := applyStatusUpdates now s ev snaps
  have htwice : applyStatusUpdates now once ev snaps = once := by
    have hupdate : applyStatusUpdates now once ev snaps =
        applyHeartbeat ev (applyCash snaps (beforeCash now once ev snaps)) := rfl
    have hcash : applyCash snaps once = once := applyCash_again (beforeCash now s ev snaps) ev snaps
    rw [hupdate, beforeCash_again, hcash]
    rfl
  refine ⟨htwice, ?_, ?_⟩
  · rw [isStale, (applyStatusUpdates_lastEvent now s ev snaps).1]
    exact decide_eq_false (lt_irrefl ev.eventTime)
  · rw [applyStatusUpdates_readAt now now' once, htwice, ← applyStatusUpdates_readAt]

end AtmMonitor.RepeatedUpdate

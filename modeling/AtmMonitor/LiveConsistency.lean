import AtmMonitor.CallRuns
import AtmMonitor.LiveCash
import Mathlib.Data.List.ReduceOption

namespace AtmMonitor.LiveConsistency

open ParserModels DatabaseModels LiveStatus EventProcessor EventTransaction Ledger LiveCash CallRuns

structure Consistent (s : ATMLiveStatus) : Prop where
  sst : s.sstStatus = s.currentStatus
  up : s.currentStatus = some .inService ∨ s.currentStatus = some .online → s.isOnline = true
  down : s.currentStatus = some .outOfService ∨ s.currentStatus = some .offline →
    s.isOnline = false
  counted : s.totalRemainingNotes.isSome ↔ ∃ n ∈ cCounts s, n.isSome
  total : ∀ n, s.totalRemainingNotes = some n →
    n = (cCounts s).reduceOption.sum ∧ (s.cashAvailable = true ↔ 0 < n)

def columns (s : ATMLiveStatus) :
    Option TerminalStatus × Option TerminalStatus × Bool × Option Int :=
  (s.currentStatus, s.sstStatus, s.isOnline, s.totalRemainingNotes)

def beforeCash (now : Timestamp) (s : ATMLiveStatus) (ev : ATMParsedEvent)
    (snaps : List CassetteSnapshot) : ATMLiveStatus :=
  snaps.foldl applySnapshot (beforeSnapshots now s ev)

theorem columns_applySnapshots (s : ATMLiveStatus) (snaps : List CassetteSnapshot) :
    columns (snaps.foldl applySnapshot s) = columns s := by
  induction snaps generalizing s with
  | nil => rfl
  | cons snap rest ih =>
    rw [List.foldl_cons, ih, applySnapshot]
    split <;> rfl

theorem columns_beforeCash (now : Timestamp) (s : ATMLiveStatus) (ev : ATMParsedEvent)
    (snaps : List CassetteSnapshot) :
    columns (beforeCash now s ev snaps) = columns (applyTerminalStatus ev s) := by
  have hbin : ∀ t, columns (applyRejectBin ev t) = columns t := by
    intro t
    rw [applyRejectBin]
    split_ifs <;> rfl
  have hreader : ∀ t, columns (applyCardReader ev t) = columns t := by
    intro t
    rw [applyCardReader]
    split_ifs <;> rfl
  have htransaction : ∀ t, columns (applyTransaction ev t) = columns t := by
    intro t
    rw [applyTransaction]
    cases ev.amount <;> rfl
  have hlast : ∀ t, columns (applyLastEvent now ev t) = columns t := fun _ => rfl
  have hsupervisor : ∀ t, columns (applySupervisorMode ev t) = columns t := by
    intro t
    rw [applySupervisorMode]
    cases ev.supervisorMode <;> rfl
  rw [beforeCash, columns_applySnapshots, beforeSnapshots, hbin, hreader, htransaction, hlast,
    hsupervisor]

theorem terminal_consistent {s : ATMLiveStatus} (h : Consistent s) (ev : ATMParsedEvent) :
    let t := applyTerminalStatus ev s
    t.sstStatus = t.currentStatus ∧
      (t.currentStatus = some .inService ∨ t.currentStatus = some .online → t.isOnline = true) ∧
      (t.currentStatus = some .outOfService ∨ t.currentStatus = some .offline →
        t.isOnline = false) ∧
      t.totalRemainingNotes = s.totalRemainingNotes := by
  rw [applyTerminalStatus]
  cases ev.terminalStatus with
  | none => exact ⟨h.sst, h.up, h.down, rfl⟩
  | some status => cases status <;> simp

theorem counted_beforeCash (now : Timestamp) (s : ATMLiveStatus) (ev : ATMParsedEvent)
    (snaps : List CassetteSnapshot) (h : ∃ n ∈ cCounts s, n.isSome) :
    ∃ n ∈ cCounts (beforeCash now s ev snaps), n.isSome := by
  obtain ⟨n, hn, hset⟩ := h
  rw [cCounts_eq] at hn ⊢
  obtain ⟨i, hi, rfl⟩ := List.mem_map.mp hn
  refine ⟨_, List.mem_map_of_mem hi, ?_⟩
  rw [beforeCash, noteCount_applySnapshots _ snaps hi, (beforeSnapshots_sameCash now s ev).counts]
  cases lastOf (·.remainingNotes) snaps i with
  | none => exact hset
  | some v => rfl

theorem totalRem_eq (counts : List (Option Int)) : totalRem counts = counts.reduceOption.sum := by
  rw [totalRem]
  induction counts with
  | nil => rfl
  | cons n rest ih =>
    cases n with
    | none => rw [List.map_cons, List.sum_cons, ih, List.reduceOption_cons_of_none]; simp
    | some v => rw [List.map_cons, List.sum_cons, ih, List.reduceOption_cons_of_some]; simp

theorem consistent_update {s : ATMLiveStatus} (h : Consistent s) (now : Timestamp)
    (ev : ATMParsedEvent) (snaps : List CassetteSnapshot) :
    Consistent (applyStatusUpdates now s ev snaps) := by
  set t := beforeCash now s ev snaps with ht
  have hcolumns : columns t = columns (applyTerminalStatus ev s) := columns_beforeCash now s ev snaps
  obtain ⟨hsst, hup, hdown, htotal⟩ := terminal_consistent h ev
  obtain ⟨hc, hs, ho, hn⟩ : t.currentStatus = _ ∧ t.sstStatus = _ ∧ t.isOnline = _ ∧
      t.totalRemainingNotes = _ := by
    simpa only [columns, Prod.mk.injEq] using hcolumns
  rw [← hs, ← hc] at hsst
  rw [← hc, ← ho] at hup hdown
  rw [htotal] at hn
  have hupdate : applyStatusUpdates now s ev snaps = applyHeartbeat ev (applyCash snaps t) := rfl
  rw [hupdate]
  simp only [applyCash]
  split_ifs with hany
  · refine ⟨hsst, hup, hdown, ⟨fun _ => List.any_eq_true.mp hany, fun _ => rfl⟩, ?_⟩
    rintro n hn'
    obtain rfl : totalRem (cCounts t) = n := Option.some.inj hn'
    exact ⟨totalRem_eq _, by simp [applyHeartbeat]⟩
  · have hnone : s.totalRemainingNotes = none := by
      rw [← Option.not_isSome_iff_eq_none, h.counted]
      exact fun hset => hany (List.any_eq_true.mpr (counted_beforeCash now s ev snaps hset))
    rw [hnone] at hn
    refine ⟨hsst, hup, hdown, ⟨fun hset => ?_, fun hset => absurd (List.any_eq_true.mpr hset) hany⟩,
      fun n hn' => ?_⟩
    · rw [applyHeartbeat, hn] at hset
      cases hset
    · rw [applyHeartbeat, hn] at hn'
      cases hn'

theorem consistent_initial : Consistent initialStatus where
  sst := rfl
  up := fun _ => rfl
  down := by simp [initialStatus]
  counted := by simp [initialStatus, cCounts]
  total := by simp [initialStatus]

/-- Every row that a run of updates makes of a new one is consistent. -/
theorem live_row_consistent (us : List Update) : Consistent (rowAfter us) := by
  induction us using List.reverseRecOn with
  | nil => exact consistent_initial
  | append_singleton us u ih =>
    rw [rowAfter_concat]
    exact consistent_update ih u.now u.ev u.snaps

theorem consistent_content {s : ATMLiveStatus} : Consistent (content s) ↔ Consistent s :=
  ⟨fun h => ⟨h.sst, h.up, h.down, h.counted, h.total⟩,
    fun h => ⟨h.sst, h.up, h.down, h.counted, h.total⟩⟩

/-- So is every row in the databases of a run of calls. -/
theorem consistent_trace (calls : List Call) {db : Database}
    (hdb : ∀ atmId, ∀ row ∈ db.liveStatus atmId, Consistent row) :
    ∀ d ∈ trace calls db, ∀ atmId, ∀ row ∈ d.liveStatus atmId, Consistent row := by
  refine trace_invariant (P := fun d => ∀ atmId, ∀ row ∈ d.liveStatus atmId, Consistent row)
    ?_ ?_ hdb
  · intro d d' hsame h atmId row hrow
    rw [hsame.liveStatus] at hrow
    exact h atmId row hrow
  · intro c _ ev _ now d _ h other row hrow
    by_cases hother : other = c.atmId
    · subst hother
      obtain ⟨row', hrow', hcontent⟩ := storeEvent_self now c.atmId c.result.cassetteSnapshots ev d
      obtain rfl : row' = row := Option.some.inj (hrow'.symm.trans hrow)
      have hbefore : Consistent (((d.liveStatus c.atmId).map content).getD initialStatus) := by
        cases hlive : d.liveStatus c.atmId with
        | none => exact consistent_initial
        | some old => exact consistent_content.mpr (h c.atmId old hlive)
      rw [← consistent_content, hcontent, recordLive]
      split_ifs
      · exact hbefore
      · exact consistent_content.mpr (consistent_update hbefore 0 ev _)
    · rw [storeEvent_other now c.atmId c.result.cassetteSnapshots ev d hother] at hrow
      exact h other row hrow

end AtmMonitor.LiveConsistency

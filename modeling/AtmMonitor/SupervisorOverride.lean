import AtmMonitor.SnapshotRouting

namespace AtmMonitor.SupervisorOverride

open PyText ParserModels EventPatterns EjParser SupervisorParser SnapshotRouting

structure Agrees (o : Operational) (e : ATMParsedEvent) : Prop where
  eventType : e.eventType = o.evType
  eventCategory : e.eventCategory = o.evCat
  severity : e.severity = o.sev
  terminalStatus : e.terminalStatus = o.termStat
  supervisorMode : e.supervisorMode = some (o.evType == .supervisorModeEntered)

theorem supervisor_entries : ∀ o ∈ OPERATIONAL_PATTERNS, o.evCat = .supervisor →
    o.sev = .information ∧ o.termStat ≠ none := by
  simp [OPERATIONAL_PATTERNS]

section Words

variable [Alnum]

/-- No snapshot of the block makes its operation the event. -/
def NoOperation (fileName : Str) (b : Block) : Prop :=
  ∀ s ∈ blockSnapshots fileName b, primaryType s.operationType = none

theorem blockVerdict_noOperation {fileName : Str} {b : Block} (h : NoOperation fileName b) :
    blockVerdict fileName b = supervisorVerdict (textVerdict b.searchText)
      (SupervisorParser.parseBlock b.lines b.seq b.dt fileName b.startLine) := by
  apply snapshotVerdict_balance
  intro s hs
  have hnone := h s hs
  cases hop : s.operationType <;> simp [primaryType, hop] at hnone ⊢

/-- Category and severity survive. The status is lost if the supervisor parser speaks, and nobody
says whether the mode was entered or left if it does not. -/
theorem supervisor_fields {fileName : Str} {b : Block} {o : Operational}
    (hmatch : operationalMatch b.searchText = some o) (hcat : o.evCat = .supervisor)
    (hnone : NoOperation fileName b) :
    let e := blockEvent fileName b
    e.eventCategory = o.evCat ∧ e.severity = o.sev ∧
      match supervisorAction b.lines with
      | some entered => e.terminalStatus = none ∧ e.supervisorMode = some entered
      | none => e.eventType = o.evType ∧ e.terminalStatus = o.termStat ∧ e.supervisorMode = none := by
  intro e
  have hentry := supervisor_entries o (List.mem_of_find?_eq_some hmatch) hcat
  have hverdict := blockVerdict_noOperation hnone
  rw [SupervisorParser.parseBlock] at hverdict
  have htext : textVerdict b.searchText =
      { eventType := o.evType, eventCategory := o.evCat, severity := o.sev,
        terminalStatus := o.termStat, confidence := o.conf, matched := true } := by
    rw [textVerdict, hmatch]
  have hfields : e.eventType = (blockVerdict fileName b).eventType ∧
      e.eventCategory = (blockVerdict fileName b).eventCategory ∧
      e.severity = (blockVerdict fileName b).severity ∧
      e.terminalStatus = (blockVerdict fileName b).terminalStatus ∧
      e.supervisorMode = (blockVerdict fileName b).supervisorMode := ⟨rfl, rfl, rfl, rfl, rfl⟩
  obtain ⟨htype, hcategory, hseverity, hstatus, hmode⟩ := hfields
  rw [hcategory, hseverity, htype, hstatus, hmode, hverdict]
  cases supervisorAction b.lines with
  | some entered => exact ⟨hcat.symm, hentry.1.symm, rfl, rfl⟩
  | none =>
    rw [Option.map_none, htext]
    exact ⟨rfl, rfl, rfl, rfl, rfl⟩

theorem supervisor_disagrees {fileName : Str} {b : Block} {o : Operational}
    (hmatch : operationalMatch b.searchText = some o) (hcat : o.evCat = .supervisor)
    (hnone : NoOperation fileName b) : ¬ Agrees o (blockEvent fileName b) := by
  intro h
  obtain ⟨-, -, hrest⟩ := supervisor_fields hmatch hcat hnone
  cases haction : supervisorAction b.lines with
  | some entered =>
    rw [haction] at hrest
    exact (supervisor_entries o (List.mem_of_find?_eq_some hmatch) hcat).2
      (h.terminalStatus.symm.trans hrest.1)
  | none =>
    rw [haction] at hrest
    have hmode := h.supervisorMode
    rw [hrest.2.2] at hmode
    cases hmode

/-- Whenever the first entry of the table that matches a block is one for the supervisor, the
block makes an event, and the event does not agree with the entry. -/
theorem supervisor_never_agrees (now : Nat → Timestamp) (lines : List Str) (fileName : Str) {b : Block}
    (hb : b ∈ processedBlocks now lines) {o : Operational}
    (hmatch : operationalMatch b.searchText = some o) (hcat : o.evCat = .supervisor)
    (hnone : NoOperation fileName b) :
    blockEvent fileName b ∈ (parseLines now lines fileName).events ∧
      ¬ Agrees o (blockEvent fileName b) := by
  refine ⟨?_, supervisor_disagrees hmatch hcat hnone⟩
  have hnamed : named b = true := by
    rw [named, hmatch]
    rfl
  rw [blockEvent_mem hb, Block.recognised, blockVerdict_noOperation hnone]
  exact (baseVerdict_recognised fileName b).trans hnamed

end Words

def entryJournal : List Str := ["*5*15/07/2026*08:52*".toList, "SUPERVISOR MODE ENTRY".toList]

theorem entryJournal_block : ∃ b ∈ processedBlocks (fun _ => 0) entryJournal, ∃ o,
    operationalMatch b.searchText = some o ∧ o.evCat = .supervisor ∧
      @NoOperation asciiAlnum [] b := by
  have hblock : ∃ b ∈ processedBlocks (fun _ => 0) entryJournal,
      (operationalMatch b.searchText).map (·.evCat) = some .supervisor ∧
        ∀ s ∈ @blockSnapshots asciiAlnum [] b, primaryType s.operationType = none := by
    decide +kernel
  obtain ⟨b, hb, hcat, hnone⟩ := hblock
  obtain ⟨o, hmatch, hcat⟩ := Option.map_eq_some_iff.mp hcat
  exact ⟨b, hb, o, hmatch, hcat, hnone⟩

theorem entryJournal_disagrees : ∃ b ∈ processedBlocks (fun _ => 0) entryJournal, ∃ o,
    operationalMatch b.searchText = some o ∧ o.evCat = .supervisor ∧ @NoOperation asciiAlnum [] b ∧
      ¬ Agrees o (@blockEvent asciiAlnum [] b) := by
  obtain ⟨b, hb, o, hmatch, hcat, hnone⟩ := entryJournal_block
  exact ⟨b, hb, o, hmatch, hcat, hnone, @supervisor_disagrees asciiAlnum _ _ _ hmatch hcat hnone⟩

theorem entryJournal_never_agrees : ∃ b ∈ processedBlocks (fun _ => 0) entryJournal, ∃ o,
    operationalMatch b.searchText = some o ∧
      @blockEvent asciiAlnum [] b ∈ (@parseLines asciiAlnum (fun _ => 0) entryJournal []).events ∧
      ¬ Agrees o (@blockEvent asciiAlnum [] b) := by
  obtain ⟨b, hb, o, hmatch, hcat, hnone⟩ := entryJournal_block
  exact ⟨b, hb, o, hmatch,
    @supervisor_never_agrees asciiAlnum (fun _ => 0) entryJournal [] b hb o hmatch hcat hnone⟩

end AtmMonitor.SupervisorOverride

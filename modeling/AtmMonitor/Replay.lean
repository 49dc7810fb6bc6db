import AtmMonitor.CallRuns

namespace AtmMonitor.Replay

open Library.Runs ParserModels DatabaseModels Repositories LiveStatus EventProcessor
  EventTransaction Ledger

theorem knownEvent_append (rows rows' : List ATMEvent) (atmId : Nat) (n : Option Nat) :
    knownEvent (rows ++ rows') atmId n = (knownEvent rows atmId n || knownEvent rows' atmId n) := by
  cases n <;> simp [knownEvent]

theorem knownEvent_ofParsed (id atmId : Nat) (ev : ATMParsedEvent) {n : Nat} :
    knownEvent [ATMEvent.ofParsed id atmId ev] atmId (some n) =
      (ev.eventSequenceNumber == some n) := by
  simp [knownEvent, ATMEvent.ofParsed]

section Record

variable (atmId : Nat) (snapshots : List CassetteSnapshot)

theorem record_known {c : Contents} {ev : ATMParsedEvent}
    (h : knownEvent c.events atmId ev.eventSequenceNumber = true) :
    record atmId snapshots c ev = c := if_pos h

theorem record_events {c : Contents} {ev : ATMParsedEvent}
    (h : knownEvent c.events atmId ev.eventSequenceNumber = false) :
    (record atmId snapshots c ev).events = c.events ++ [ATMEvent.ofParsed 0 atmId ev] := by
  rw [record, if_neg (by simp [h])]

theorem record_live {c : Contents} {ev : ATMParsedEvent}
    (h : knownEvent c.events atmId ev.eventSequenceNumber = false) :
    (record atmId snapshots c ev).liveStatus atmId =
      some (recordLive (c.liveStatus atmId) ev (matchingSnaps snapshots ev)) := by
  rw [record, if_neg (by simp [h])]
  exact Function.update_self ..

theorem record_marks (c : Contents) {ev : ATMParsedEvent} (hn : ev.eventSequenceNumber.isSome) :
    knownEvent (record atmId snapshots c ev).events atmId ev.eventSequenceNumber = true := by
  obtain ⟨n, hn⟩ := Option.isSome_iff_exists.mp hn
  cases h : knownEvent c.events atmId ev.eventSequenceNumber with
  | true => rw [record_known atmId snapshots h, h]
  | false =>
    rw [record_events atmId snapshots h, knownEvent_append, hn, knownEvent_ofParsed, hn]
    simp

theorem record_keeps (c : Contents) {ev : ATMParsedEvent} {n : Option Nat}
    (h : knownEvent c.events atmId n = true) :
    knownEvent (record atmId snapshots c ev).events atmId n = true := by
  cases hk : knownEvent c.events atmId ev.eventSequenceNumber with
  | true => rwa [record_known atmId snapshots hk]
  | false => rw [record_events atmId snapshots hk, knownEvent_append, h, Bool.true_or]

theorem record_absorbing {events : List ATMParsedEvent}
    (h : ∀ ev ∈ events, ev.eventSequenceNumber.isSome) :
    Absorbing (record atmId snapshots)
      (fun c ev => knownEvent c.events atmId ev.eventSequenceNumber = true) events where
  skip := fun _ _ _ hk => record_known atmId snapshots hk
  marks := fun c ev hev => record_marks atmId snapshots c (h ev hev)
  keeps := fun c _ _ _ hk => record_keeps atmId snapshots c hk

end Record

/-- What a crash before the file offset is committed leaves, when `k` events were processed. -/
def crashAfter (envs : Nat → TxEnv) (atmId : Nat) (result : ParserResult) (k : Nat)
    (db : Database) : Database :=
  (processEvents atmId result.cassetteSnapshots
    (withEnvs envs ((sortedEvents result.events).take k)) (db, {})).1

theorem crashAfter_all (envs : Nat → TxEnv) (atmId : Nat) (result : ParserResult) (db : Database) :
    crashAfter envs atmId result (sortedEvents result.events).length db =
      (processResult envs atmId result db).1 := by
  rw [crashAfter, List.take_length]
  rfl

/-- Processing a result again after a crash at any point, or after all of it, leaves the contents
that processing it once leaves. -/
theorem replay_contents (db : Database) (atmId : Nat) (result : ParserResult) (k : Nat)
    (envs envs' envs'' : Nat → TxEnv) (h : ∀ i, Undisturbed (envs i))
    (h' : ∀ i, Undisturbed (envs' i)) (h'' : ∀ i, Undisturbed (envs'' i))
    (hseq : ∀ ev ∈ result.events, ev.eventSequenceNumber.isSome) :
    contents (processResult envs' atmId result (crashAfter envs atmId result k db)).1 =
        contents (processResult envs'' atmId result db).1 ∧
      contents (processResult envs' atmId result (processResult envs atmId result db).1).1 =
        contents (processResult envs'' atmId result db).1 := by
  have hcrash : ∀ j, contents
      (processResult envs' atmId result (crashAfter envs atmId result j db)).1 =
        contents (processResult envs'' atmId result db).1 := by
    intro j
    set events := sortedEvents result.events with hev
    have hsorted : ∀ ev ∈ events.take j ++ events.drop j, ev.eventSequenceNumber.isSome := by
      intro ev hm
      rw [List.take_append_drop] at hm
      exact hseq ev (mem_sortedEvents.mp hm)
    have hprefix : contents (crashAfter envs atmId result j db) =
        (events.take j).foldl (record atmId result.cassetteSnapshots) (contents db) := by
      rw [crashAfter, processEvents_undisturbed atmId _ _ (withEnvs_undisturbed h _),
        withEnvs_events]
    have hreplay := (record_absorbing atmId result.cassetteSnapshots hsorted).replay (contents db)
    rw [List.take_append_drop] at hreplay
    rw [processResult_undisturbed h', processResult_undisturbed h'', hprefix, ← hev, hreplay]
  refine ⟨hcrash k, ?_⟩
  rw [← crashAfter_all envs atmId result db]
  exact hcrash _

theorem replay_contents_two_events :
    contents (processResult (fun _ => {}) 1
        { events := [.bare 4 20 .sstInService, .bare 3 10 .cardInserted] }
        (crashAfter (fun _ => { now := 7 }) 1
          { events := [.bare 4 20 .sstInService, .bare 3 10 .cardInserted] } 1 {})).1 =
      contents (processResult (fun _ => {}) 1
        { events := [.bare 4 20 .sstInService, .bare 3 10 .cardInserted] } {}).1 :=
  (replay_contents {} 1 _ 1 (fun _ => { now := 7 }) (fun _ => {}) (fun _ => {})
    (fun _ => ⟨fun _ => rfl, fun _ => rfl⟩) (fun _ => ⟨fun _ => rfl, fun _ => rfl⟩)
    (fun _ => ⟨fun _ => rfl, fun _ => rfl⟩) (by decide)).1

end AtmMonitor.Replay

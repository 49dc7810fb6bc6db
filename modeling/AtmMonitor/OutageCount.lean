import AtmMonitor.PingCheck

namespace AtmMonitor.OutageCount

open PyText PingCheck
open NvrCheck (Datetime strftime flushed flushed_self flushed_eq_assigned)

def outageStep (failing : List Datetime) (w : Write) : List Datetime :=
  if w.isOnline then [] else failing ++ [w.now]

/-- The times of the failing writes since the last successful one. -/
def outage (log : List Write) : List Datetime := log.foldl outageStep []

/-- The columns count the failing writes and have the time of the first. -/
structure Counts (d : Device) (failing : List Datetime) : Prop where
  counter : d.consecutiveFailures = some (failing.length : Int)
  offline : d.isOnline = some 0 ↔ 0 < failing.length
  since : d.downSince = failing.head?.map strftime

/-- The commit to come goes against what has been committed since the run has read. -/
def Stale (row : Device) : Phase → Prop
  | .loaded r p _ d =>
    if p.isOnline = true then d.isOnline = some 1 ∧ row.isOnline = some 0
    else
      r.consecutiveFailures ≠ row.consecutiveFailures ∨
        d.consecutiveFailures = r.consecutiveFailures.map (· + 1) ∨
          (d.isOnline = some 0 ∧ row.isOnline = some 1)
  | _ => False

theorem outage_concat (log : List Write) (w : Write) :
    outage (log ++ [w]) = outageStep (outage log) w := by
  simp [outage]

structure Reads (r : Reading) (failing : List Datetime) : Prop where
  online : r.currentOnline = some (if failing = [] then 1 else 0)
  counter : r.consecutiveFailures = some (failing.length : Int)

structure Holds (d : Device) (failing : List Datetime) : Prop where
  reads : Reads d.reading failing
  since : d.downSince = failing.head?.map strftime

section Commits

variable {row d d' : Device} {current failing old : List Datetime} {r : Reading} {p : Probe}
  {now : Datetime}

theorem Reads.online_iff (h : Reads r failing) : r.currentOnline = some 1 ↔ failing = [] := by
  rw [h.online]
  cases failing <;> simp

theorem Reads.offline_iff (h : Reads r failing) : r.currentOnline = some 0 ↔ failing ≠ [] := by
  rw [h.online]
  cases failing <;> simp

theorem Holds.counts (h : Holds d failing) : Counts d failing :=
  ⟨h.reads.counter, h.reads.offline_iff.trans List.length_pos_iff.symm, h.since⟩

theorem Holds.counter_iff (h : Holds d failing) :
    d.consecutiveFailures = some 0 ↔ failing = [] := by
  have hcounter : d.consecutiveFailures = some (failing.length : Int) := h.reads.counter
  rw [hcounter]
  cases failing <;> simp
  omega

theorem Holds.since_iff (h : Holds d failing) : d.downSince = none ↔ failing = [] := by
  rw [h.since]
  cases failing <;> simp

theorem success_holds (hrow : Holds row current) (hload : Holds d failing) (hp : p.isOnline = true)
    (hd : assign r p now d = some d') (hn : ¬ Stale row (.loaded r p now d)) :
    Holds (flush d d' row) [] := by
  rw [Stale, if_pos hp] at hn
  have hcurrent : failing = [] → current = [] := by
    intro hf
    by_contra hc
    exact hn ⟨hload.reads.online_iff.mpr hf, hrow.reads.offline_iff.mpr hc⟩
  rw [assign, if_pos hp, Option.some_inj] at hd
  subst hd
  refine ⟨⟨?_, ?_⟩, ?_⟩ <;> refine flushed_eq_assigned.mpr fun h => ?_
  · exact hrow.reads.online_iff.mpr (hcurrent (hload.reads.online_iff.mp h))
  · exact hrow.counter_iff.mpr (hcurrent (hload.counter_iff.mp h))
  · exact hrow.since_iff.mpr (hcurrent (hload.since_iff.mp h))

theorem assign_failure (hr : Reads r old) (hp : p.isOnline = false) : assign r p now d = some
    { d with
      downSince := if old = [] then some (strftime now) else d.downSince
      isOnline := some 0
      lastPacketLoss := some 100
      lastLatency := none
      consecutiveFailures := some (old.length + 1)
      lastPingTime := some (strftime now)
      updatedAt := some (strftime now) } := by
  have honline : (r.currentOnline = some 1) = (old = []) := propext hr.online_iff
  simp only [assign, hp, Bool.false_eq_true, if_false, hr.counter, Option.map_some, honline]

/-- The commit of a failure that counts from the row counts one more. -/
theorem failure_holds (hrow : Holds row current) (hload : Holds d failing) (hr : Reads r old)
    (hp : p.isOnline = false) (hd : assign r p now d = some d')
    (hn : ¬ Stale row (.loaded r p now d)) : Holds (flush d d' row) (current ++ [now]) := by
  simp only [Stale, hp, Bool.false_eq_true, if_false, not_or, not_not] at hn
  obtain ⟨hsame, hnext, hup⟩ := hn
  have hlength : old.length = current.length := by
    have hcounter : r.consecutiveFailures = some (current.length : Int) :=
      hsame.trans hrow.reads.counter
    rw [hr.counter, Option.some_inj] at hcounter
    omega
  have hnil : old = [] ↔ current = [] := by
    rw [← List.length_eq_zero_iff, ← List.length_eq_zero_iff, hlength]
  have hdown : failing ≠ [] → current ≠ [] := by
    intro hf hc
    exact hup ⟨hload.reads.offline_iff.mpr hf, hrow.reads.online_iff.mpr hc⟩
  rw [assign_failure hr hp, Option.some_inj] at hd
  subst hd
  refine ⟨⟨?_, ?_⟩, ?_⟩
  · have hne : current ++ [now] ≠ [] := by simp
    rw [if_neg hne]
    refine flushed_eq_assigned.mpr fun h => ?_
    exact hrow.reads.offline_iff.mpr (hdown (hload.reads.offline_iff.mp h))
  · rw [List.length_append, ← hlength]
    refine flushed_eq_assigned.mpr fun h => absurd h ?_
    rw [hr.counter] at hnext
    exact hnext
  · by_cases hc : current = []
    · subst hc
      rw [if_pos (hnil.mpr rfl)]
      refine flushed_eq_assigned.mpr fun h => ?_
      have hf : failing = [] := by
        by_contra hf
        exact hdown hf rfl
      rw [hload.since_iff.mpr hf] at h
      cases h
    · rw [if_neg (hnil.not.mpr hc), List.head?_append_of_ne_nil _ hc, ← hrow.since]
      exact flushed_self _ _

/-- A stale commit leaves a flag or a counter that is wrong. -/
theorem stale_not_counts (hrow : Holds row current) (hr : Reads r old)
    (hd : assign r p now d = some d') (hs : Stale row (.loaded r p now d)) :
    ¬ Counts (flush d d' row) (outageStep current ⟨p.isOnline, now⟩) := by
  intro hcounts
  have hcurrent : row.consecutiveFailures = some (current.length : Int) := hrow.reads.counter
  cases hp : p.isOnline with
  | true =>
    simp only [Stale, hp, if_true] at hs
    rw [assign, if_pos hp, Option.some_inj] at hd
    subst hd
    have hflag : flushed d.isOnline (some 1) row.isOnline = some 0 := by
      rw [hs.1, flushed_self]
      exact hs.2
    have hpositive := hcounts.offline.mp hflag
    simp [outageStep, hp] at hpositive
  | false =>
    simp only [Stale, hp, Bool.false_eq_true, if_false, hr.counter, hcurrent] at hs
    rw [assign_failure hr hp, Option.some_inj] at hd
    subst hd
    have hlength : (outageStep current ⟨p.isOnline, now⟩).length = current.length + 1 := by
      simp [outageStep, hp]
    have hcounter : flushed d.consecutiveFailures (some (old.length + 1)) row.consecutiveFailures =
        some ((current.length + 1 : Nat) : Int) := by
      rw [← hlength]
      exact hcounts.counter
    rcases hs with hne | hnext | ⟨hdown, hup⟩
    · rw [flushed, hcurrent] at hcounter
      split at hcounter
      · rw [Option.some_inj] at hcounter
        omega
      · apply hne
        rw [Option.some_inj] at hcounter ⊢
        omega
    · rw [hnext, Option.map_some, flushed_self, hcurrent, Option.some_inj] at hcounter
      omega
    · have hflag : flushed d.isOnline (some 0) row.isOnline = some 1 := by
        rw [hdown, flushed_self]
        exact hup
      have hoffline : flushed d.isOnline (some 0) row.isOnline = some 0 := by
        apply hcounts.offline.mpr
        simp [outageStep, hp]
      rw [hflag] at hoffline
      cases hoffline

end Commits

section Runs

variable {T : Type} [DecidableEq T]

def Sound : Phase → Prop
  | .probing r | .probed r _ _ => ∃ old, Reads r old
  | .loaded r _ _ d => (∃ old, Reads r old) ∧ ∃ failing, Holds d failing
  | .ready | .returned | .raised => True

structure Inv (s : State T) : Prop where
  holds : Holds s.row (outage s.log)
  sound : ∀ t, Sound (s.phase t)

variable {first : Datetime} {start : Device} {s s' : State T}

omit [DecidableEq T] in
theorem initial_inv (hstart : Holds start []) : Inv (initial first start : State T) :=
  ⟨hstart, fun _ => trivial⟩

theorem goto_inv (h : Inv s) (t : T) {p : Phase} (hp : Sound p) : Inv (s.goto t p) := by
  refine ⟨h.holds, fun t' => ?_⟩
  by_cases ht : t' = t
  · subst ht
    simpa [State.goto] using hp
  · simpa [State.goto, ht] using h.sound t'

omit [DecidableEq T] in
theorem loaded_sound (h : Inv s) {t : T} {r : Reading} {p : Probe} {now : Datetime} {d : Device}
    (hp : s.phase t = .loaded r p now d) :
    (∃ old, Reads r old) ∧ ∃ failing, Holds d failing := by
  have hsound := h.sound t
  rwa [hp] at hsound

theorem commit_inv (h : Inv s) {t : T} {r : Reading} {p : Probe} {now : Datetime} {d d' : Device}
    (hp : s.phase t = .loaded r p now d) (hd : assign r p now d = some d')
    (hn : ¬ Stale s.row (s.phase t)) : Inv (s.commit t p now d d') := by
  obtain ⟨⟨old, hr⟩, failing, hload⟩ := loaded_sound h hp
  rw [hp] at hn
  refine ⟨?_, fun t' => ?_⟩
  · rw [State.commit, outage_concat]
    cases honline : p.isOnline with
    | true => exact success_holds h.holds hload honline hd hn
    | false => exact failure_holds h.holds hload hr honline hd hn
  · by_cases ht : t' = t
    · subst ht
      simp [State.commit, Sound]
    · simpa [State.commit, ht] using h.sound t'

variable {admits : State T → T → Prop}

theorem step_inv (h : Inv s) (st : Step admits s s')
    (hn : ∀ t, admits s t → ¬ Stale s.row (s.phase t)) : Inv s' := by
  cases st with
  | tick now => exact ⟨h.holds, h.sound⟩
  | skip t | raise t => exact goto_inv h t trivial
  | read t => exact goto_inv h t ⟨_, h.holds.reads⟩
  | probe t r ping accepts hp =>
    have hsound := h.sound t
    rw [hp] at hsound
    exact goto_inv h t hsound
  | load t r p now hp =>
    have hsound := h.sound t
    rw [hp] at hsound
    exact goto_inv h t ⟨hsound, _, h.holds⟩
  | commit t r p now d d' hp hd ha => exact commit_inv h hp hd (hn t ha)

theorem reachable_inv (hstart : Holds start [])
    (hn : ∀ s : State T, Reachable admits first start s → Inv s →
      ∀ t, admits s t → ¬ Stale s.row (s.phase t))
    (h : Reachable admits first start s) : Inv s := by
  induction h with
  | init => exact initial_inv hstart
  | step hr st ih => exact step_inv ih st (hn _ hr ih)

omit [DecidableEq T] in
/-- A commit that would be stale can be made: the counter that it has read is a number. -/
theorem stale_commit (h : Inv s) {t : T} (hs : Stale s.row (s.phase t)) :
    ∃ r p now d d', s.phase t = .loaded r p now d ∧ assign r p now d = some d' := by
  cases hp : s.phase t with
  | loaded r p now d =>
    obtain ⟨⟨old, hr⟩, -⟩ := loaded_sound h hp
    cases honline : p.isOnline with
    | true => exact ⟨r, p, now, d, _, rfl, if_pos honline⟩
    | false => exact ⟨r, p, now, d, _, rfl, assign_failure hr honline⟩
  | _ =>
    rw [hp] at hs
    exact absurd hs id

/-- Whatever the runs and the probes are, the columns count the failing writes at every moment if
and only if no run commits that is stale. -/
theorem failing_writes_counted_iff (admits : State T → T → Prop) (first : Datetime)
    (start : Device) (honline : start.isOnline = some 1)
    (hcounter : start.consecutiveFailures = some 0) (hsince : start.downSince = none) :
    (∀ s, Reachable admits first start s → Counts s.row (outage s.log)) ↔
      ∀ s, Reachable admits first start s → ∀ t, admits s t → ¬ Stale s.row (s.phase t) := by
  have hstart : Holds start [] := ⟨⟨honline, hcounter⟩, hsince⟩
  constructor
  · intro hcounts
    have hn : ∀ s : State T, Reachable admits first start s → Inv s →
        ∀ t, admits s t → ¬ Stale s.row (s.phase t) := by
      intro s hr hinv t ha hs
      obtain ⟨r, p, now, d, d', hp, hd⟩ := stale_commit hinv hs
      obtain ⟨⟨old, hread⟩, -⟩ := loaded_sound hinv hp
      have hafter := hcounts _ (hr.step (.commit t r p now d d' hp hd ha))
      rw [State.commit, outage_concat] at hafter
      rw [hp] at hs
      exact stale_not_counts hinv.holds hread hd hs hafter
    exact fun s hr => hn s hr (reachable_inv hstart hn hr)
  · intro hn s hr
    exact (reachable_inv hstart (fun u hu _ => hn u hu) hr).holds.counts

end Runs

def camera : Device where
  ip := some "10.0.0.9".toList
  isOnline := some 1
  lastPingTime := none
  lastLatency := some 3
  lastPacketLoss := some 0
  consecutiveFailures := some 0
  downSince := none
  updatedAt := none

def lost : Probe := ⟨false, none, 100⟩

def halfPast (hour : Fin 24) : Datetime :=
  ⟨2027, 9, 3, hour, 30, 15, by omega, by omega, by omega, hour.2, by omega, by omega⟩

/-- Two runs that have read the same row: the first fails, then the second has reached a port. -/
theorem failing_writes_counted_iff_overlapping :
    ∃ s : State Bool, s.log.map Write.isOnline = [false, true] ∧ Counts s.row (outage s.log) := by
  let admits : State Bool → Bool → Prop := fun s t => ¬ Stale s.row (s.phase t)
  have hinit : Reachable admits (halfPast 8) camera (initial (halfPast 8) camera) := .init
  have hread := hinit.step (.read false rfl (by decide))
  have hread' := hread.step (.read true rfl (by decide))
  have hprobe := hread'.step (.probe false _ lost (fun _ => false) rfl)
  have hprobe' := hprobe.step (.probe true _ lost (fun port => port == 554) rfl)
  have hload := hprobe'.step (.load false _ _ _ rfl)
  have hcommit := hload.step (.commit false _ _ _ _ _ rfl rfl (by
    rintro (h | h | ⟨h, -⟩) <;> revert h <;> decide))
  have hload' := hcommit.step (.load true _ _ _ rfl)
  have hcommit' := hload'.step (.commit true _ _ _ _ _ rfl rfl (by
    rintro ⟨h, -⟩
    revert h
    decide))
  exact ⟨_, rfl, (failing_writes_counted_iff admits (halfPast 8) camera rfl rfl rfl).mpr
    (fun _ _ _ ha => ha) _ hcommit'⟩

/-- Two runs that overlap both count from zero. -/
theorem failing_writes_not_counted :
    ¬ ∀ s : State Bool, Reachable (fun _ _ => True) (halfPast 8) camera s →
      Counts s.row (outage s.log) := by
  intro hall
  have hinit : Reachable (fun _ _ => True) (halfPast 8) camera
      (initial (halfPast 8) camera : State Bool) := .init
  have hread := hinit.step (.read false rfl (by decide))
  have hread' := hread.step (.read true rfl (by decide))
  have hprobe := hread'.step (.probe false _ lost (fun _ => false) rfl)
  have hprobe' := hprobe.step (.probe true _ lost (fun _ => false) rfl)
  have hload := hprobe'.step (.load false _ _ _ rfl)
  have hcommit := hload.step (.commit false _ _ _ _ _ rfl rfl trivial)
  have hload' := hcommit.step (.load true _ _ _ rfl)
  have hcommit' := hload'.step (.commit true _ _ _ _ _ rfl rfl trivial)
  have hcounter := (hall _ hcommit').counter
  exact absurd hcounter (by decide)

end AtmMonitor.OutageCount

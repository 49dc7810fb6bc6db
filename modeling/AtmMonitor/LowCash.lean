import AtmMonitor.CountRows

namespace AtmMonitor.LowCash

open Library.Upsert PyText ParserModels CassetteParser EjParser BlockPlaces SnapshotRouting CountRows

def ruleStatus (n : Int) : CassetteStatus := if n = 0 then .empty else if n ≤ 50 then .low else .normal

/-- A snapshot of cash counts that names the remaining notes has the status of their number. -/
def RightStatus (s : CassetteSnapshot) : Prop :=
  (s.operationType = .balanceUpdate ∨ s.operationType = .cashCountsCleared ∨
    s.operationType = .cashAdded) →
  ∀ n, s.remainingNotes = some n → s.cassetteStatus = ruleStatus n

theorem ruleStatus_normal {n : Nat} : ruleStatus n = .normal ↔ 50 < n := by
  rw [ruleStatus]
  split_ifs with h0 h50
  · simp only [false_iff]
    omega
  · simp only [false_iff]
    omega
  · simp only [true_iff]
    omega

theorem totalSnapshot_right (t : CashTotals) (fileName : Str) (startLine endLine idx : Nat) :
    RightStatus (totalSnapshot t fileName startLine endLine idx) := by
  intro _ n hn
  have hrem : (t.remaining[idx]?).map Int.ofNat = some n := hn
  obtain ⟨m, hm, rfl⟩ := Option.map_eq_some_iff.mp hrem
  have hstatus : (totalSnapshot t fileName startLine endLine idx).cassetteStatus =
      totalStatus t.remaining[idx]? := rfl
  rw [hstatus, hm, totalStatus, ruleStatus]
  simp only [Int.ofNat_eq_natCast]
  split_ifs <;> first | rfl | omega

theorem right_of_unset {s : CassetteSnapshot} (h : s.remainingNotes = none) : RightStatus s := by
  intro _ n hn
  rw [h] at hn
  cases hn

theorem Bare.right {s : CassetteSnapshot} (h : Bare s) : RightStatus s := right_of_unset h.remaining

/-- The counts that are booked as remaining notes of cassette `k`. -/
def cashCounts (added : Bool) (bks : List Booking) (k : Nat) : List Nat :=
  ((bks.filter fun bk => bk.cassetteNo = k).filter
    fun bk => added || decide (bk.heading = some .remaining)).map (·.count)

def cassetteCounts (added : Bool) (own : List Booking) : List Nat :=
  (own.filter fun bk => added || decide (bk.heading = some .remaining)).map (·.count)

theorem foldBookings_remaining (added : Bool) (own : List Booking) {s : CassetteSnapshot}
    (hs : s.remainingNotes = none) :
    (foldBookings added own s).remainingNotes =
      (cassetteCounts added own).getLast?.map fun n : Nat => (n : Int) := by
  induction own using List.reverseRecOn with
  | nil => exact hs
  | append_singleton own bk ih =>
    have hlast : foldBookings added (own ++ [bk]) s =
        applyBooking added bk (foldBookings added own s) := by
      rw [foldBookings, List.foldl_append]
      rfl
    rw [hlast, applyBooking_remaining, ih, cassetteCounts, cassetteCounts, List.filter_append,
      List.map_append, List.filter_singleton]
    by_cases h : added = true ∨ bk.heading = some .remaining
    · have hbk : (added || decide (bk.heading = some .remaining)) = true := by simpa using h
      simp [h, hbk]
    · have hbk : (added || decide (bk.heading = some .remaining)) = false := by simpa using h
      simp [h, hbk]

theorem foldBookings_status_added {own : List Booking} {s : CassetteSnapshot}
    (hs : s.cassetteStatus = .normal) : (foldBookings true own s).cassetteStatus = .normal := by
  induction own generalizing s with
  | nil => exact hs
  | cons bk rest ih => exact ih rfl

theorem foldBookings_status_cleared (own : List Booking) {s : CassetteSnapshot}
    (hs : s.cassetteStatus = .normal) :
    (foldBookings false own s).cassetteStatus =
      (((cassetteCounts false own).filter fun n => decide (n ≤ 50)).getLast?.map
        fun n : Nat => ruleStatus n).getD .normal := by
  induction own using List.reverseRecOn with
  | nil => exact hs
  | append_singleton own bk ih =>
    have hlast : foldBookings false (own ++ [bk]) s =
        applyBooking false bk (foldBookings false own s) := by
      rw [foldBookings, List.foldl_append]
      rfl
    have hstatus : ∀ s', (applyBooking false bk s').cassetteStatus =
        if bk.heading = some .remaining ∧ bk.count ≤ 50 then ruleStatus bk.count
        else s'.cassetteStatus := by
      intro s'
      rcases bk with ⟨_ | ⟨_ | _ | _ | _⟩, cNo, count⟩
      case some.remaining =>
        simp only [applyBooking, applyCount, ruleStatus, Option.bind_some, Heading.section?,
          Bool.false_eq_true, if_false, true_and]
        split_ifs <;> first | rfl | omega
      all_goals simp [applyBooking, applyCount, Heading.section?]
    rw [hlast, hstatus, ih, cassetteCounts, cassetteCounts, List.filter_append, List.map_append,
      List.filter_append, List.filter_singleton]
    by_cases hh : bk.heading = some .remaining
    · by_cases hc : bk.count ≤ 50 <;> simp [hh, hc]
    · simp [hh]

theorem last_low_iff {counts : List Nat} {n : Nat} (h : counts.getLast? = some n) :
    ((counts.filter fun m => decide (m ≤ 50)).getLast?.map fun m : Nat => ruleStatus m).getD
        .normal = ruleStatus n ↔ (50 < n → ∀ m ∈ counts, 50 < m) := by
  obtain ⟨init, rfl⟩ := List.getLast?_eq_some_iff.mp h
  rw [List.filter_append, List.filter_singleton]
  by_cases hn : n ≤ 50
  · have hnot : ¬ 50 < n := by omega
    simp [hn, hnot]
  · have hlow : 50 < n := by omega
    simp only [hn, decide_false, cond_false, List.append_nil, ruleStatus_normal.mpr hlow]
    cases hlast : (init.filter fun m => decide (m ≤ 50)).getLast? with
    | none =>
      rw [List.getLast?_eq_none_iff, List.filter_eq_nil_iff] at hlast
      simp only [Option.map_none, Option.getD_none, true_iff]
      intro _ m hm
      obtain hm | hm := List.mem_append.mp hm
      · have := hlast m hm
        simp only [decide_eq_true_eq] at this
        omega
      · rw [List.mem_singleton.mp hm]
        exact hlow
    | some m =>
      obtain ⟨hm, hle⟩ := List.mem_filter.mp (List.mem_of_getLast? hlast)
      simp only [decide_eq_true_eq] at hle
      rw [Option.map_some, Option.getD_some, ruleStatus_normal]
      constructor
      · intro hlt
        omega
      · intro hall
        exact hall hlow m (List.mem_append_left _ hm)

theorem right_bookings_iff {added : Bool} {own : List Booking} {s : CassetteSnapshot}
    (hop : s.operationType = .cashCountsCleared ∨ s.operationType = .cashAdded)
    (hstatus : s.cassetteStatus = .normal) (hremaining : s.remainingNotes = none) :
    RightStatus (foldBookings added own s) ↔
      ∀ n ∈ (cassetteCounts added own).getLast?,
        if added = true then 50 < n else 50 < n → ∀ m ∈ cassetteCounts added own, 50 < m := by
  have hrule : RightStatus (foldBookings added own s) ↔
      ∀ n ∈ (cassetteCounts added own).getLast?,
        (foldBookings added own s).cassetteStatus = ruleStatus (n : Nat) := by
    rw [RightStatus, foldBookings_op, foldBookings_remaining added own hremaining]
    constructor
    · intro h n hn
      exact h (Or.inr hop) n (by rw [hn]; rfl)
    · intro h _ n hn
      obtain ⟨m, hm, rfl⟩ := Option.map_eq_some_iff.mp hn
      exact h m hm
  rw [hrule]
  refine forall_congr' fun n => forall_congr' fun hn => ?_
  cases added with
  | true => rw [foldBookings_status_added hstatus, if_pos rfl, ← ruleStatus_normal, eq_comm]
  | false =>
    rw [foldBookings_status_cleared own hstatus, if_neg Bool.false_ne_true]
    exact last_low_iff hn

section Words

variable [Alnum]

/-- What the rows of a block must say about each cassette that no line reports. -/
def RuleKept (lines : List Str) : Prop :=
  ReachesCounts lines → ∀ k ∉ reportedCassettes lines,
    let counts := cashCounts (isAdded lines) (bookings lines) k
    ∀ n ∈ counts.getLast?, if isAdded lines = true then 50 < n else 50 < n → ∀ m ∈ counts, 50 < m

theorem infoSnapshots_right (fileName : Str) (startLine : Nat) (lines : List Str) :
    ∀ s ∈ infoSnapshots fileName startLine lines, RightStatus s := by
  intro s hs
  obtain ⟨⟨line, n⟩, -, hs⟩ := List.mem_flatMap.mp hs
  apply right_of_unset
  obtain ⟨_, _, _, _, rfl⟩ := mem_infoLine hs
  rfl

theorem knownSnapshots_right (fileName : Str) (startLine : Nat) (lines : List Str) :
    ∀ s ∈ knownSnapshots fileName startLine lines, RightStatus s := by
  have hactions : ∀ s ∈ actionSnapshots fileName startLine lines, RightStatus s :=
    fun s hs => Bare.right (actionSnapshots_bare fileName startLine lines s hs)
  intro s hs
  rw [knownSnapshots] at hs
  split_ifs at hs
  · obtain hs | hs := List.mem_append.mp hs
    · exact hactions s hs
    · exact infoSnapshots_right fileName startLine lines s hs
  · exact hactions s hs

/-- The stages before the fourth keep the rule. -/
theorem right_of_not_reaching {lines : List Str} (h : ¬ ReachesCounts lines) (fileName : Str)
    (startLine : Nat) :
    ∀ s ∈ CassetteParser.parseBlock lines fileName startLine, RightStatus s := by
  have hknown := knownSnapshots_right fileName startLine lines
  obtain hparse | hparse := parseBlock_uncounted h fileName startLine
  · rw [hparse]
    exact hknown
  · rw [hparse]
    intro s hs
    obtain hs | hs := List.mem_append.mp hs
    · exact hknown s hs
    · obtain ⟨idx, -, rfl⟩ := List.mem_map.mp hs
      exact totalSnapshot_right _ _ _ _ idx

/-- The snapshots of a block keep the rule exactly if it does not reach the fourth stage, or, for
each cassette that no line reports, the last count of added cash is not low, and without added
cash no low count stands before a last one that is not. -/
theorem one_low_cash_rule_iff (lines : List Str) (fileName : Str) (startLine : Nat) :
    (∀ s ∈ CassetteParser.parseBlock lines fileName startLine, RightStatus s) ↔ RuleKept lines := by
  by_cases hreach : ReachesCounts lines
  · set mode := countMode fileName startLine lines with hmode
    set known := actionSnapshots fileName startLine lines with hknown
    have hsplit := parseBlock_split hreach fileName startLine
    have hreported : ∀ s ∈ bookAll mode known ((bookings lines).filter
        fun bk => decide (bk.cassetteNo ∈ reportedCassettes lines)), RightStatus s := by
      intro s hs hop
      have hmem := List.mem_map_of_mem (f := (·.operationType)) hs
      rw [reported_ops] at hmem
      obtain ⟨a, ha, haop⟩ := List.mem_map.mp hmem
      have hbare := (actionSnapshots_bare fileName startLine lines a ha).op
      rw [haop] at hbare
      rcases hbare with h | h <;> simp [h] at hop
    have hop : mode.op = .cashCountsCleared ∨ mode.op = .cashAdded := by
      rw [hmode, countMode]
      cases isCleared lines <;> simp
    have hright : ∀ k, RightStatus (foldBookings mode.added
        ((bookings lines).filter fun bk => bk.cassetteNo = k) (freshOf mode k)) ↔
          ∀ n ∈ (cashCounts (isAdded lines) (bookings lines) k).getLast?,
            if isAdded lines = true then 50 < n
            else 50 < n → ∀ m ∈ cashCounts (isAdded lines) (bookings lines) k, 50 < m :=
      fun k => right_bookings_iff hop rfl rfl
    rw [hsplit]
    constructor
    · intro h _ k hk counts n hn
      have hrow : ∃ bk ∈ bookings lines, bk.cassetteNo = k := by
        obtain ⟨bk, hbk, -⟩ := List.mem_map.mp (List.mem_of_getLast? hn)
        have hown := List.mem_of_mem_filter hbk
        exact ⟨bk, List.mem_of_mem_filter hown, by simpa using (List.mem_filter.mp hown).2⟩
      exact (hright k).mp (h _ (List.mem_append_right _ (mem_unreported.mpr ⟨k, hk, hrow, rfl⟩)))
        n hn
    · intro h s hs
      obtain hs | hs := List.mem_append.mp hs
      · exact hreported s hs
      · obtain ⟨k, hk, -, rfl⟩ := mem_unreported.mp hs
        exact (hright k).mpr (h hreach k hk)
  · exact iff_of_true (right_of_not_reaching hreach fileName startLine)
      fun h => absurd h hreach

end Words

def refilledLines : List Str :=
  ["*5*15/07/2026*08:52*".toList, "CASH COUNTS CLEARED".toList, "CASH REMAINING".toList,
    "TYPE 1 ≈ 40 TYPE 2 ≈ 0".toList, "TYPE 1 ≈ 2000 TYPE 2 ≈ 1500".toList]

/-- A full cassette of this block is still low. -/
theorem refilled_still_low : ∃ s ∈ @CassetteParser.parseBlock asciiAlnum refilledLines [] 1,
    s.operationType = .cashCountsCleared ∧ s.remainingNotes = some 2000 ∧ s.cassetteStatus = .low ∧
      ¬ RightStatus s := by
  have hsnap : ∃ s ∈ @CassetteParser.parseBlock asciiAlnum refilledLines [] 1,
      s.operationType = .cashCountsCleared ∧ s.remainingNotes = some 2000 ∧
        s.cassetteStatus = .low := by decide +kernel
  obtain ⟨s, hs, hop, hn, hlow⟩ := hsnap
  refine ⟨s, hs, hop, hn, hlow, fun h => ?_⟩
  have hstatus := h (Or.inr (Or.inl hop)) 2000 hn
  rw [hlow] at hstatus
  exact absurd hstatus (by decide)

end AtmMonitor.LowCash

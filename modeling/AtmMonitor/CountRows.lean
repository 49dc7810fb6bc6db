import AtmMonitor.BlockPlaces
import AtmMonitor.Library.Upsert
import AtmMonitor.SnapshotRouting

namespace AtmMonitor.CountRows

open Library.Regex Library.Upsert PyText ParserModels EventPatterns CassetteParser EjParser
  BlockPlaces SnapshotRouting

inductive Heading where
  | added | dispensed | remaining | rejected
  deriving DecidableEq

def headingOf (line : Str) : Option Heading :=
  if found CASH_COUNTS_CLEARED_CASH_DISPENSED (strip line) then some .dispensed
  else if found CASH_COUNTS_CLEARED_CASH_REMAINING (strip line) then some .remaining
  else if found CASH_COUNTS_CLEARED_CASH_REJECTED (strip line) then some .rejected
  else if contains line "CASH ADDED".toList then some .added
  else none

/-- One count of a row: the k-th is that of cassette k. -/
structure Booking where
  heading : Option Heading
  cassetteNo : Nat
  count : Nat
  deriving DecidableEq

def bookRow (heading : Option Heading) (vals : List Nat) : List Booking :=
  (vals.zipIdx 1).map fun p => ⟨heading, p.2, p.1⟩

/-- The counts of a line. The lines that name one of the three sections are not rows. -/
def lineCounts (line : Str) : List Nat :=
  match headingOf line with
  | some .dispensed | some .remaining | some .rejected => []
  | _ => ((search CASH_ROW_TYPE_PATTERN (strip line)).map rowCounts).getD []

def bookingsFrom : Option Heading → List Str → List Booking
  | _, [] => []
  | heading, line :: rest =>
    bookRow ((headingOf line).or heading) (lineCounts line) ++
      bookingsFrom ((headingOf line).or heading) rest

/-- The counts of the rows, each with its nearest preceding heading. -/
def bookings (lines : List Str) : List Booking := bookingsFrom none lines

/-- The heading that is in force after the lines. -/
def headingAfter (lines : List Str) : Option Heading :=
  lines.foldl (fun heading line => (headingOf line).or heading) none

theorem bookings_append (xs ys : List Str) :
    bookings (xs ++ ys) = bookings xs ++ bookingsFrom (headingAfter xs) ys := by
  have h : ∀ (heading : Option Heading), bookingsFrom heading (xs ++ ys) =
      bookingsFrom heading xs ++
        bookingsFrom (xs.foldl (fun heading line => (headingOf line).or heading) heading) ys := by
    induction xs with
    | nil => exact fun _ => rfl
    | cons line rest ih =>
      intro heading
      rw [List.cons_append, bookingsFrom, bookingsFrom, ih, List.append_assoc]
      rfl
  exact h none

def Heading.section? : Heading → Option Section
  | .added => none
  | .dispensed => some .dispensed
  | .remaining => some .remaining
  | .rejected => some .rejected

def applyBooking (added : Bool) (bk : Booking) : CassetteSnapshot → CassetteSnapshot :=
  applyCount added (bk.heading.bind Heading.section?) bk.count

def freshFor (mode : CountMode) (bk : Booking) : CassetteSnapshot :=
  freshCount mode.op mode.fileName mode.startLine mode.endLine bk.cassetteNo

def bookAll (mode : CountMode) (snaps : List CassetteSnapshot) (bks : List Booking) :
    List CassetteSnapshot :=
  upserts CassetteSnapshot.cassetteNo (freshFor mode) (applyBooking mode.added) snaps bks

theorem modifyCassette_eq (fresh : CassetteSnapshot) (f : CassetteSnapshot → CassetteSnapshot)
    (snaps : List CassetteSnapshot) :
    modifyCassette fresh f snaps = upsert CassetteSnapshot.cassetteNo fresh f snaps := by
  induction snaps with
  | nil => rfl
  | cons s rest ih => rw [modifyCassette, upsert, ih]

/-- The section of the loop says the same as the heading where it is looked at. -/
def Agree (added : Bool) (sect : Option Section) (heading : Option Heading) : Prop :=
  added = false → heading.bind Heading.section? = sect

theorem countRow_bookings {mode : CountMode} {sect : Option Section} {heading : Option Heading}
    (h : Agree mode.added sect heading) (vals : List Nat) (snaps : List CassetteSnapshot) :
    countRow mode sect vals snaps = bookAll mode snaps (bookRow heading vals) := by
  have hsect : ∀ val, applyCount mode.added sect val =
      applyCount mode.added (heading.bind Heading.section?) val := by
    intro val
    cases hadded : mode.added with
    | true => rfl
    | false => rw [h hadded]
  rw [countRow, bookAll, bookRow, upserts, List.foldl_map]
  congr 1
  funext acc p
  rw [modifyCassette_eq, hsect]
  rfl

theorem contains_of_not_added {lines : List Str} (h : isAdded lines = false) :
    ∀ line ∈ lines, contains line "CASH ADDED".toList = false := by
  intro line hline
  rw [isAdded, List.any_eq_false] at h
  simpa using h line hline

theorem countLines_bookings {mode : CountMode} {lines : List Str}
    (hnone : mode.added = false → ∀ line ∈ lines, contains line "CASH ADDED".toList = false)
    (snaps : List CassetteSnapshot) {sect : Option Section} {heading : Option Heading}
    (hagree : Agree mode.added sect heading) :
    (lines.foldl (countLine mode) (sect, snaps)).2 =
      bookAll mode snaps (bookingsFrom heading lines) := by
  induction lines generalizing sect heading snaps with
  | nil => rfl
  | cons line rest ih =>
    have hrest : mode.added = false → ∀ line ∈ rest, contains line "CASH ADDED".toList = false :=
      fun hadded l hl => hnone hadded l (List.mem_cons_of_mem line hl)
    have hsplit : bookAll mode snaps (bookingsFrom heading (line :: rest)) =
        bookAll mode (bookAll mode snaps (bookRow ((headingOf line).or heading) (lineCounts line)))
          (bookingsFrom ((headingOf line).or heading) rest) := by
      rw [bookingsFrom, bookAll, upserts, List.foldl_append]
      rfl
    rw [List.foldl_cons, hsplit, lineCounts, countLine]
    by_cases hd : found CASH_COUNTS_CLEARED_CASH_DISPENSED (strip line) = true
    · have hheading : headingOf line = some .dispensed := by rw [headingOf, if_pos hd]
      rw [if_pos hd, hheading]
      exact ih hrest snaps fun _ => rfl
    by_cases hm : found CASH_COUNTS_CLEARED_CASH_REMAINING (strip line) = true
    · have hheading : headingOf line = some .remaining := by
        rw [headingOf, if_neg hd, if_pos hm]
      rw [if_neg hd, if_pos hm, hheading]
      exact ih hrest snaps fun _ => rfl
    by_cases hj : found CASH_COUNTS_CLEARED_CASH_REJECTED (strip line) = true
    · have hheading : headingOf line = some .rejected := by
        rw [headingOf, if_neg hd, if_neg hm, if_pos hj]
      rw [if_neg hd, if_neg hm, if_pos hj, hheading]
      exact ih hrest snaps fun _ => rfl
    have hheading : headingOf line =
        if contains line "CASH ADDED".toList then some .added else none := by
      rw [headingOf, if_neg hd, if_neg hm, if_neg hj]
    have hagree' : Agree mode.added sect ((headingOf line).or heading) := by
      intro hadded
      rw [hheading, hnone hadded line (by simp)]
      exact hagree hadded
    have hcounts : (match headingOf line with
        | some .dispensed | some .remaining | some .rejected => []
        | _ => ((search CASH_ROW_TYPE_PATTERN (strip line)).map rowCounts).getD []) =
          ((search CASH_ROW_TYPE_PATTERN (strip line)).map rowCounts).getD [] := by
      rw [hheading]
      split_ifs <;> rfl
    rw [if_neg hd, if_neg hm, if_neg hj, hcounts]
    cases search CASH_ROW_TYPE_PATTERN (strip line) with
    | none => exact ih hrest snaps hagree'
    | some m =>
      simp only
      rw [countRow_bookings hagree']
      exact ih hrest _ hagree'

theorem countSnapshots_bookings {mode : CountMode} {lines : List Str}
    (h : mode.added = false → isAdded lines = false) (snaps : List CassetteSnapshot) :
    countSnapshots mode lines snaps = bookAll mode snaps (bookings lines) :=
  countLines_bookings (fun hadded => contains_of_not_added (h hadded)) snaps fun _ => rfl

theorem heading_of_not_added {lines : List Str} (h : isAdded lines = false) :
    ∀ bk ∈ bookings lines, bk.heading ≠ some .added := by
  have hnone := contains_of_not_added h
  have hloop : ∀ heading : Option Heading, heading ≠ some .added →
      ∀ bk ∈ bookingsFrom heading lines, bk.heading ≠ some .added := by
    clear h
    induction lines with
    | nil => exact fun _ _ bk hbk => absurd hbk List.not_mem_nil
    | cons line rest ih =>
      intro heading hheading
      have hnext : (headingOf line).or heading ≠ some .added := by
        have hline : headingOf line ≠ some .added := by
          rw [headingOf, hnone line (by simp), if_neg Bool.false_ne_true]
          split_ifs <;> simp
        cases hl : headingOf line with
        | none => exact hheading
        | some hd => rwa [hl] at hline
      intro bk hbk
      rw [bookingsFrom, List.mem_append] at hbk
      obtain hbk | hbk := hbk
      · obtain ⟨p, -, rfl⟩ := List.mem_map.mp hbk
        exact hnext
      · exact ih (fun l hl => hnone l (List.mem_cons_of_mem line hl)) _ hnext bk hbk
  exact hloop none (by simp)

section Fields

variable (added : Bool) (bk : Booking) (s : CassetteSnapshot)

theorem applyBooking_frame : (applyBooking added bk s).cassetteNo = s.cassetteNo ∧
    (applyBooking added bk s).operationType = s.operationType := by
  cases added with
  | true => exact ⟨rfl, rfl⟩
  | false =>
    rcases bk with ⟨_ | ⟨_ | _ | _ | _⟩, cNo, count⟩ <;> exact ⟨rfl, rfl⟩

theorem applyBooking_loaded : (applyBooking added bk s).loadedNotes =
    (if added = true then some (bk.count : Int) else none).or s.loadedNotes := by
  cases added with
  | true => rfl
  | false =>
    rcases bk with ⟨_ | ⟨_ | _ | _ | _⟩, cNo, count⟩ <;> rfl

theorem applyBooking_remaining : (applyBooking added bk s).remainingNotes =
    (if added = true ∨ bk.heading = some .remaining then some (bk.count : Int) else none).or
      s.remainingNotes := by
  cases added with
  | true => simp [applyBooking, applyCount]
  | false =>
    rcases bk with ⟨_ | ⟨_ | _ | _ | _⟩, cNo, count⟩ <;> rfl

theorem applyBooking_dispensed : (applyBooking added bk s).dispensedNotes =
    (if added = false ∧ bk.heading = some .dispensed then some (bk.count : Int) else none).or
      s.dispensedNotes := by
  cases added with
  | true => rfl
  | false =>
    rcases bk with ⟨_ | ⟨_ | _ | _ | _⟩, cNo, count⟩ <;> rfl

theorem applyBooking_rejected : (applyBooking added bk s).rejectedNotes =
    (if added = false ∧ bk.heading = some .rejected then some (bk.count : Int) else none).or
      s.rejectedNotes := by
  cases added with
  | true => rfl
  | false =>
    rcases bk with ⟨_ | ⟨_ | _ | _ | _⟩, cNo, count⟩ <;> rfl

end Fields

theorem applyBooking_key (mode : CountMode) (bk : Booking) (s : CassetteSnapshot) :
    (applyBooking mode.added bk s).cassetteNo = s.cassetteNo := (applyBooking_frame _ bk s).1

structure Bare (s : CassetteSnapshot) : Prop where
  op : s.operationType = .cassetteRemoved ∨ s.operationType = .cassetteInserted
  loaded : s.loadedNotes = none
  remaining : s.remainingNotes = none
  dispensed : s.dispensedNotes = none
  rejected : s.rejectedNotes = none

theorem actionSnapshots_bare (fileName : Str) (startLine : Nat) (lines : List Str) :
    ∀ s ∈ actionSnapshots fileName startLine lines, Bare s := by
  intro s hs
  obtain ⟨⟨line, n⟩, -, hs⟩ := List.mem_flatMap.mp hs
  obtain ⟨_, op, _, hop, rfl⟩ := mem_actionLine hs
  exact ⟨hop, rfl, rfl, rfl, rfl⟩

def reportedCassettes (lines : List Str) : List Nat :=
  lines.flatMap fun line => (actionLine [] line 0).map (·.cassetteNo)

theorem actionSnapshots_cassettes (fileName : Str) (startLine : Nat) (lines : List Str) :
    (actionSnapshots fileName startLine lines).map (·.cassetteNo) = reportedCassettes lines := by
  have hline : ∀ (line : Str) (n : Nat), (actionLine fileName line n).map (·.cassetteNo) =
      (actionLine [] line 0).map (·.cassetteNo) := by
    intro line n
    have haction : ∀ op status m, (actionSnapshot op status fileName n m).map (·.cassetteNo) =
        (actionSnapshot op status [] 0 m).map (·.cassetteNo) := by
      intro op status m
      simp only [actionSnapshot]
      split_ifs <;> rfl
    unfold actionLine
    split
    · exact haction ..
    · split
      · exact haction ..
      · rfl
  rw [actionSnapshots, List.map_flatMap, reportedCassettes]
  simp only [hline]
  rw [← List.flatMap_map Prod.fst fun line => (actionLine [] line 0).map (·.cassetteNo),
    List.zipIdx_map_fst]

theorem reported_ops {mode : CountMode} {fileName : Str} {startLine : Nat} {lines : List Str}
    {bks : List Booking} :
    (bookAll mode (actionSnapshots fileName startLine lines)
        (bks.filter fun bk => decide (bk.cassetteNo ∈ reportedCassettes lines))).map
          (·.operationType) =
      (actionSnapshots fileName startLine lines).map (·.operationType) := by
  refine upserts_map (applyBooking_key mode) (fun bk _ s => (applyBooking_frame _ bk s).2) ?_
  intro bk hbk
  have hin : bk.cassetteNo ∈ reportedCassettes lines := by simpa using (List.mem_filter.mp hbk).2
  have hnos := actionSnapshots_cassettes fileName startLine lines
  rw [hnos]
  exact hin

theorem bookAll_split (mode : CountMode) (fileName : Str) (startLine : Nat) (lines : List Str) :
    bookAll mode (actionSnapshots fileName startLine lines) (bookings lines) =
      bookAll mode (actionSnapshots fileName startLine lines)
          ((bookings lines).filter fun bk => decide (bk.cassetteNo ∈ reportedCassettes lines)) ++
        bookAll mode []
          ((bookings lines).filter fun bk => !decide (bk.cassetteNo ∈ reportedCassettes lines)) := by
  have happend := upserts_append (freshFor mode) (applyBooking_key mode)
    (actionSnapshots fileName startLine lines) [] (bookings lines)
  rw [actionSnapshots_cassettes, List.append_nil] at happend
  exact happend

def foldBookings (added : Bool) (own : List Booking) (s : CassetteSnapshot) : CassetteSnapshot :=
  own.foldl (fun s bk => applyBooking added bk s) s

theorem foldBookings_op (added : Bool) (own : List Booking) (s : CassetteSnapshot) :
    (foldBookings added own s).operationType = s.operationType := by
  induction own generalizing s with
  | nil => rfl
  | cons bk rest ih => exact (ih (applyBooking added bk s)).trans (applyBooking_frame added bk s).2

theorem foldBookings_cassette (added : Bool) (own : List Booking) (s : CassetteSnapshot) :
    (foldBookings added own s).cassetteNo = s.cassetteNo := by
  induction own generalizing s with
  | nil => rfl
  | cons bk rest ih => exact (ih (applyBooking added bk s)).trans (applyBooking_frame added bk s).1

def freshOf (mode : CountMode) : Nat → CassetteSnapshot :=
  freshCount mode.op mode.fileName mode.startLine mode.endLine

theorem mem_unreported {mode : CountMode} {nos : List Nat} {bks : List Booking}
    {s : CassetteSnapshot} :
    s ∈ bookAll mode [] (bks.filter fun bk => !decide (bk.cassetteNo ∈ nos)) ↔
      ∃ k ∉ nos, (∃ bk ∈ bks, bk.cassetteNo = k) ∧
        foldBookings mode.added (bks.filter fun bk => bk.cassetteNo = k) (freshOf mode k) = s := by
  have hnodup : ((bookAll mode [] (bks.filter fun bk => !decide (bk.cassetteNo ∈ nos))).map
      CassetteSnapshot.cassetteNo).Nodup :=
    upserts_nodup (applyBooking_key mode) _ List.nodup_nil
  have hown : ∀ k ∉ nos, ((bks.filter fun bk => !decide (bk.cassetteNo ∈ nos)).filter
      fun bk => bk.cassetteNo = k) = bks.filter fun bk => bk.cassetteNo = k := by
    intro k hk
    rw [List.filter_filter]
    apply List.filter_congr
    intro bk _
    by_cases hbk : bk.cassetteNo = k <;> simp [hbk, hk]
  rw [mem_iff_entry hnodup, bookAll,
    entry_upserts_nil (applyBooking_key mode) (freshOf mode) fun _ => rfl]
  constructor
  · rintro ⟨⟨bk, hbk, hno⟩, hs⟩
    obtain ⟨hbk, hnot⟩ := List.mem_filter.mp hbk
    have hnot' : bk.cassetteNo ∉ nos := by simpa using hnot
    have hk : s.cassetteNo ∉ nos := by
      rw [← hno]
      exact hnot'
    refine ⟨s.cassetteNo, hk, ⟨bk, hbk, hno⟩, ?_⟩
    rw [← hown _ hk]
    exact hs
  · rintro ⟨k, hk, ⟨bk, hbk, hno⟩, hs⟩
    have hsk : s.cassetteNo = k := by rw [← hs, foldBookings_cassette]; rfl
    rw [hsk]
    refine ⟨⟨bk, List.mem_filter.mpr ⟨hbk, by simpa [hno] using hk⟩, hno⟩, ?_⟩
    have hfilter := hown k hk
    rw [← hfilter] at hs
    exact hs

section Words

variable [Alnum]

/-- The first three stages let the block pass to the fourth, which has work to do. -/
structure ReachesCounts (lines : List Str) : Prop where
  table : hasCassetteInfo lines = true →
    ∀ line ∈ lines, reportsAction line = false ∧ isTableRow line = false
  totals : (cashTotals lines).present = false
  headings : isCleared lines = true ∨ isAdded lines = true

theorem parseBlock_counts {lines : List Str} (h : ReachesCounts lines) (fileName : Str)
    (startLine : Nat) :
    CassetteParser.parseBlock lines fileName startLine =
      countSnapshots (countMode fileName startLine lines) lines
        (actionSnapshots fileName startLine lines) := by
  have hheadings : (isCleared lines || isAdded lines) = true := by
    rw [Bool.or_eq_true]
    exact h.headings
  unfold CassetteParser.parseBlock
  simp only [h.totals, hheadings, if_true, Bool.false_eq_true, if_false]
  cases hinfo : hasCassetteInfo lines with
  | false => simp
  | true =>
    have hactions : actionSnapshots fileName startLine lines = [] :=
      (perLine_nil_iff (perLine_action fileName) lines startLine).mpr
        fun line hline => (h.table hinfo line hline).1
    have hrows : infoSnapshots fileName startLine lines = [] :=
      (perLine_nil_iff (perLine_info fileName) lines startLine).mpr
        fun line hline => (h.table hinfo line hline).2
    simp [hactions, hrows]

/-- The snapshots of a block that reaches the fourth stage are those of its bookings. -/
theorem parseBlock_bookings {lines : List Str} (h : ReachesCounts lines) (fileName : Str)
    (startLine : Nat) :
    CassetteParser.parseBlock lines fileName startLine =
      bookAll (countMode fileName startLine lines) (actionSnapshots fileName startLine lines)
        (bookings lines) := by
  rw [parseBlock_counts h]
  exact countSnapshots_bookings id _

theorem parseBlock_split {lines : List Str} (h : ReachesCounts lines) (fileName : Str)
    (startLine : Nat) :
    CassetteParser.parseBlock lines fileName startLine =
      bookAll (countMode fileName startLine lines) (actionSnapshots fileName startLine lines)
          ((bookings lines).filter fun bk => decide (bk.cassetteNo ∈ reportedCassettes lines)) ++
        bookAll (countMode fileName startLine lines) []
          ((bookings lines).filter fun bk => !decide (bk.cassetteNo ∈ reportedCassettes lines)) := by
  rw [parseBlock_bookings h, bookAll_split]

theorem parseBlock_uncounted {lines : List Str} (h : ¬ ReachesCounts lines) (fileName : Str)
    (startLine : Nat) :
    CassetteParser.parseBlock lines fileName startLine = knownSnapshots fileName startLine lines ∨
      CassetteParser.parseBlock lines fileName startLine = knownSnapshots fileName startLine lines ++
        totalSnapshots (cashTotals lines) fileName startLine (startLine + lines.length - 1) := by
  rw [parseBlock_stages, laterStages]
  split_ifs with htable htotals hheadings
  · exact Or.inl rfl
  · exact Or.inr rfl
  · refine absurd ⟨?_, by simpa using htotals, by simpa using hheadings⟩ h
    intro hinfo line hline
    have hempty : knownSnapshots fileName startLine lines = [] := by
      simpa [hinfo] using htable
    rw [knownSnapshots, if_pos hinfo, List.append_eq_nil_iff] at hempty
    exact ⟨(perLine_nil_iff (perLine_action fileName) lines startLine).mp hempty.1 line hline,
      (perLine_nil_iff (perLine_info fileName) lines startLine).mp hempty.2 line hline⟩
  · exact Or.inl rfl

end Words

end AtmMonitor.CountRows

import AtmMonitor.CountRows

namespace AtmMonitor.CountSections

open Library.Upsert PyText ParserModels CassetteParser EjParser CountRows

/-- A field of the snapshot of cassette `k`, unset if there is no snapshot. -/
def noteOf (snaps : List CassetteSnapshot) (field : CassetteSnapshot → Option Int) (k : Nat) :
    Option Int := (entryOf CassetteSnapshot.cassetteNo snaps k).bind field

def lastCount (bks : List Booking) (writes : Booking → Bool) (k : Nat) : Option Int :=
  ((bks.filter fun bk => bk.cassetteNo = k).filterMap fun bk =>
    if writes bk then some (bk.count : Int) else none).getLast?

/-- The k-th count of the last row under the heading. -/
def lastUnder (lines : List Str) (heading : Heading) : Nat → Option Int :=
  lastCount (bookings lines) fun bk => bk.heading = some heading

def lastAnywhere (lines : List Str) : Nat → Option Int := lastCount (bookings lines) fun _ => true

/-- The fields of each cassette are the counts of their own sections. -/
structure OwnCounts (lines : List Str) (snaps : List CassetteSnapshot) : Prop where
  dispensed : ∀ k, noteOf snaps (·.dispensedNotes) k = lastUnder lines .dispensed k
  rejected : ∀ k, noteOf snaps (·.rejectedNotes) k = lastUnder lines .rejected k
  loaded : ∀ k, noteOf snaps (·.loadedNotes) k = lastUnder lines .added k

/-- A line under one of the two headings leaves the loaded and the remaining notes alone. -/
def KeepsCash (mode : CountMode) (known : List CassetteSnapshot) (lines : List Str) : Prop :=
  ∀ before line after, lines = before ++ line :: after →
    headingAfter (before ++ [line]) = some .dispensed ∨
      headingAfter (before ++ [line]) = some .rejected →
    ∀ k, noteOf (countSnapshots mode (before ++ [line]) known) (·.loadedNotes) k =
        noteOf (countSnapshots mode before known) (·.loadedNotes) k ∧
      noteOf (countSnapshots mode (before ++ [line]) known) (·.remainingNotes) k =
        noteOf (countSnapshots mode before known) (·.remainingNotes) k

/-- With the heading for added cash in the block, nothing stands under the headings for dispensed
and rejected notes, and no other row has the last word about a cassette. -/
def Separated (lines : List Str) : Prop :=
  isAdded lines = true →
    (∀ bk ∈ bookings lines, bk.heading ≠ some .dispensed ∧ bk.heading ≠ some .rejected) ∧
      ∀ k, lastAnywhere lines k = lastUnder lines .added k

theorem lastCount_congr {bks : List Booking} {p q : Booking → Bool} (h : ∀ bk ∈ bks, p bk = q bk)
    (k : Nat) : lastCount bks p k = lastCount bks q k := by
  rw [lastCount, lastCount]
  congr 1
  apply List.filterMap_congr
  intro bk hbk
  rw [h bk (List.mem_of_mem_filter hbk)]

theorem lastCount_none (bks : List Booking) (k : Nat) : lastCount bks (fun _ => false) k = none := by
  rw [lastCount, List.getLast?_eq_none_iff, List.filterMap_eq_nil_iff]
  intro bk _
  rfl

theorem not_writes_of_lastCount {bks : List Booking} {p : Booking → Bool}
    (h : ∀ k, lastCount bks p k = none) : ∀ bk ∈ bks, p bk = false := by
  intro bk hbk
  have hk := h bk.cassetteNo
  rw [lastCount, List.getLast?_eq_none_iff, List.filterMap_eq_nil_iff] at hk
  have hbk' := hk bk (List.mem_filter.mpr ⟨hbk, by simp⟩)
  cases hp : p bk with
  | false => rfl
  | true => simp [hp] at hbk'

theorem noteOf_bookAll {mode : CountMode} {field : CassetteSnapshot → Option Int}
    (writes : Booking → Bool) (hfresh : ∀ bk, field (freshFor mode bk) = none)
    (h : ∀ bk s, field (applyBooking mode.added bk s) =
      (if writes bk then some (bk.count : Int) else none).or (field s))
    (snaps : List CassetteSnapshot) (bks : List Booking) (k : Nat) :
    noteOf (bookAll mode snaps bks) field k =
      (lastCount bks writes k).or (noteOf snaps field k) :=
  entry_upserts_last (applyBooking_key mode) hfresh h snaps bks k

theorem noteOf_bare {snaps : List CassetteSnapshot} {field : CassetteSnapshot → Option Int}
    (h : ∀ s ∈ snaps, field s = none) (k : Nat) : noteOf snaps field k = none := by
  rw [noteOf]
  cases hs : entryOf CassetteSnapshot.cassetteNo snaps k with
  | none => rfl
  | some s => exact h s (List.mem_of_find?_eq_some hs)

/-- The notes of the cassettes after the bookings, from snapshots without counts. -/
theorem notes_bookAll (mode : CountMode) {known : List CassetteSnapshot}
    (hknown : ∀ s ∈ known, Bare s) (bks : List Booking) (k : Nat) :
    let snaps := bookAll mode known bks
    noteOf snaps (·.dispensedNotes) k =
        lastCount bks (fun bk => mode.added = false ∧ bk.heading = some .dispensed) k ∧
      noteOf snaps (·.rejectedNotes) k =
        lastCount bks (fun bk => mode.added = false ∧ bk.heading = some .rejected) k ∧
      noteOf snaps (·.loadedNotes) k = lastCount bks (fun _ => mode.added) k ∧
      noteOf snaps (·.remainingNotes) k =
        lastCount bks (fun bk => mode.added = true ∨ bk.heading = some .remaining) k := by
  intro snaps
  refine ⟨?_, ?_, ?_, ?_⟩
  · have h := noteOf_bookAll (fun bk => mode.added = false ∧ bk.heading = some .dispensed)
      (fun _ => rfl) (fun bk s => by simpa using applyBooking_dispensed mode.added bk s) known bks k
    rwa [noteOf_bare (fun s hs => (hknown s hs).dispensed), Option.or_none] at h
  · have h := noteOf_bookAll (fun bk => mode.added = false ∧ bk.heading = some .rejected)
      (fun _ => rfl) (fun bk s => by simpa using applyBooking_rejected mode.added bk s) known bks k
    rwa [noteOf_bare (fun s hs => (hknown s hs).rejected), Option.or_none] at h
  · have h := noteOf_bookAll (fun _ => mode.added)
      (fun _ => rfl) (applyBooking_loaded mode.added) known bks k
    rwa [noteOf_bare (fun s hs => (hknown s hs).loaded), Option.or_none] at h
  · have h := noteOf_bookAll (fun bk => mode.added = true ∨ bk.heading = some .remaining)
      (fun _ => rfl) (fun bk s => by simpa using applyBooking_remaining mode.added bk s) known bks k
    rwa [noteOf_bare (fun s hs => (hknown s hs).remaining), Option.or_none] at h

theorem ownCounts_iff (mode : CountMode) {known : List CassetteSnapshot}
    (hknown : ∀ s ∈ known, Bare s) {lines : List Str} (hmode : mode.added = isAdded lines) :
    OwnCounts lines (bookAll mode known (bookings lines)) ↔ Separated lines := by
  have hnotes := notes_bookAll mode hknown (bookings lines)
  rw [hmode] at hnotes
  cases hadded : isAdded lines with
  | true =>
    have hnone : ∀ h : Heading, (∀ k, none = lastUnder lines h k) ↔
        ∀ bk ∈ bookings lines, bk.heading ≠ some h := by
      intro h
      constructor
      · intro hk bk hbk
        simpa using not_writes_of_lastCount (fun k => (hk k).symm) bk hbk
      · intro hbk k
        rw [lastUnder, lastCount_congr (q := fun _ => false) (fun bk hm => by simpa using hbk bk hm),
          lastCount_none]
    simp only [hadded, Bool.true_eq_false, false_and, decide_false, lastCount_none] at hnotes
    constructor
    · rintro ⟨hdispensed, hrejected, hloaded⟩ -
      refine ⟨fun bk hbk => ⟨?_, ?_⟩, fun k => ?_⟩
      · exact (hnone .dispensed).mp (fun k => (hnotes k).1.symm.trans (hdispensed k)) bk hbk
      · exact (hnone .rejected).mp (fun k => (hnotes k).2.1.symm.trans (hrejected k)) bk hbk
      · exact (hnotes k).2.2.1.symm.trans (hloaded k)
    · intro hsep
      obtain ⟨hclean, hlast⟩ := hsep hadded
      refine ⟨fun k => ?_, fun k => ?_, fun k => ?_⟩
      · exact (hnotes k).1.trans ((hnone .dispensed).mpr (fun bk hbk => (hclean bk hbk).1) k)
      · exact (hnotes k).2.1.trans ((hnone .rejected).mpr (fun bk hbk => (hclean bk hbk).2) k)
      · exact (hnotes k).2.2.1.trans (hlast k)
  | false =>
    simp only [hadded, true_and, lastCount_none] at hnotes
    refine ⟨fun _ h => absurd h (by simp [hadded]), fun _ => ⟨fun k => (hnotes k).1,
      fun k => (hnotes k).2.1, fun k => (hnotes k).2.2.1.trans ?_⟩⟩
    have hheading := heading_of_not_added hadded
    rw [lastUnder, lastCount_congr (q := fun _ => false)
      (fun bk hm => by simpa using hheading bk hm), lastCount_none]

theorem lastCount_append {xs ys : List Booking} {p : Booking → Bool}
    (h : ∀ bk ∈ ys, p bk = false) (k : Nat) : lastCount (xs ++ ys) p k = lastCount xs p k := by
  have hys : (ys.filter fun bk => bk.cassetteNo = k).filterMap
      (fun bk => if p bk then some (bk.count : Int) else none) = [] := by
    rw [List.filterMap_eq_nil_iff]
    intro bk hbk
    rw [h bk (List.mem_of_mem_filter hbk), if_neg Bool.false_ne_true]
  rw [lastCount, lastCount, List.filter_append, List.filterMap_append, hys, List.append_nil]

theorem isAdded_prefix {xs ys : List Str} (h : isAdded (xs ++ ys) = false) : isAdded xs = false := by
  rw [isAdded, List.any_append, Bool.or_eq_false_iff] at h
  exact h.1

theorem keepsCash_of_separated (mode : CountMode) {known : List CassetteSnapshot}
    (hknown : ∀ s ∈ known, Bare s) {lines : List Str} (hmode : mode.added = isAdded lines)
    (h : Separated lines) : KeepsCash mode known lines := by
  rintro before line after rfl hheading k
  set heading := headingAfter (before ++ [line]) with hset
  have hrow : bookings (before ++ [line]) =
      bookings before ++ bookRow heading (lineCounts line) := by
    have hafter : heading = (headingOf line).or (headingAfter before) := by
      rw [hset, headingAfter, List.foldl_append]
      rfl
    rw [bookings_append, bookingsFrom, bookingsFrom, List.append_nil, hafter]
  have hsplit : before ++ line :: after = before ++ [line] ++ after := by simp
  have hbefore : mode.added = false → isAdded (before ++ [line]) = false := by
    intro hadded
    rw [hmode, hsplit] at hadded
    exact isAdded_prefix hadded
  have hwrites : ∀ bk ∈ bookRow heading (lineCounts line),
      mode.added = false ∧ bk.heading ≠ some .remaining := by
    intro bk hbk
    have hbkHeading : bk.heading = heading := by
      obtain ⟨p, -, rfl⟩ := List.mem_map.mp hbk
      rfl
    refine ⟨?_, ?_⟩
    · by_contra hadded
      rw [Bool.not_eq_false, hmode] at hadded
      have hmem : bk ∈ bookings (before ++ line :: after) := by
        rw [hsplit, bookings_append, hrow]
        exact List.mem_append_left _ (List.mem_append_right _ hbk)
      have hclean := (h hadded).1 bk hmem
      rw [hbkHeading] at hclean
      exact hheading.elim hclean.1 hclean.2
    · rw [hbkHeading]
      obtain hd | hd := hheading <;> simp [hd]
  rw [countSnapshots_bookings hbefore, countSnapshots_bookings fun ha => isAdded_prefix (hbefore ha)]
  obtain ⟨-, -, hloaded, hremaining⟩ := notes_bookAll mode hknown (bookings (before ++ [line])) k
  obtain ⟨-, -, hloaded', hremaining'⟩ := notes_bookAll mode hknown (bookings before) k
  rw [hloaded, hloaded', hremaining, hremaining', hrow]
  refine ⟨lastCount_append (fun bk hbk => (hwrites bk hbk).1) k, lastCount_append ?_ k⟩
  intro bk hbk
  simp [hwrites bk hbk]

section Words

variable [Alnum]

/-- The counts of a block go to their own sections exactly if the block does not name added cash,
or no row stands under the headings for dispensed and rejected notes and the last row about a
cassette says what the last one under the heading for added cash says. -/
theorem counts_own_section_iff {lines : List Str} (h : ReachesCounts lines) (fileName : Str)
    (startLine : Nat) :
    OwnCounts lines (CassetteParser.parseBlock lines fileName startLine) ∧
        KeepsCash (countMode fileName startLine lines) (actionSnapshots fileName startLine lines)
          lines ↔
      Separated lines := by
  have hknown := actionSnapshots_bare fileName startLine lines
  have hmode : (countMode fileName startLine lines).added = isAdded lines := rfl
  have hown := ownCounts_iff (countMode fileName startLine lines) hknown hmode
  rw [parseBlock_bookings h]
  exact ⟨fun hboth => hown.mp hboth.1,
    fun hsep => ⟨hown.mpr hsep, keepsCash_of_separated _ hknown rfl hsep⟩⟩

end Words

def addedLines : List Str :=
  ["*5*15/07/2026*08:52*".toList, "CASH ADDED".toList, "TYPE 1 ≈ 100 TYPE 2 ≈ 200".toList,
    "CASH DISPENSED".toList, "TYPE 1 ≈ 7 TYPE 2 ≈ 8".toList]

/-- The dispensed notes of a block with added cash are booked as loaded. -/
theorem dispensed_booked_as_loaded : @ReachesCounts asciiAlnum addedLines ∧
    ¬ OwnCounts addedLines (@CassetteParser.parseBlock asciiAlnum addedLines [] 1) := by
  refine ⟨@ReachesCounts.mk asciiAlnum _ (fun h => absurd h (by decide +kernel))
    (by decide +kernel) (Or.inr (by decide +kernel)), ?_⟩
  intro h
  have hloaded := h.loaded 1
  have hbooked : noteOf (@CassetteParser.parseBlock asciiAlnum addedLines [] 1) (·.loadedNotes) 1 =
      some 7 := by decide +kernel
  have hunder : lastUnder addedLines .added 1 = some 100 := by decide +kernel
  rw [hbooked, hunder] at hloaded
  exact absurd hloaded (by decide)

def clearedLines : List Str :=
  ["*5*15/07/2026*08:52*".toList, "CASH COUNTS CLEARED".toList, "CASH DISPENSED".toList,
    "TYPE 1 ≈ 7 TYPE 2 ≈ 8".toList, "CASH REMAINING".toList, "TYPE 1 ≈ 93 TYPE 2 ≈ 192".toList]

theorem cleared_own_sections :
    OwnCounts clearedLines (@CassetteParser.parseBlock asciiAlnum clearedLines [] 1) ∧
      KeepsCash (countMode [] 1 clearedLines) (actionSnapshots [] 1 clearedLines) clearedLines :=
  (@counts_own_section_iff asciiAlnum clearedLines
    (@ReachesCounts.mk asciiAlnum _ (fun h => absurd h (by decide +kernel)) (by decide +kernel)
      (Or.inl (by decide +kernel))) [] 1).mpr
    fun h => absurd h (by decide +kernel)

end AtmMonitor.CountSections

import AtmMonitor.BrowserDate
import AtmMonitor.Library.ComparatorSort

namespace AtmMonitor.RecentNodes

open PyText NvrCheck BrowserDate Library.ComparatorSort

/-- A datetime, of which the backend writes all but the microseconds. -/
structure Moment where
  date : Datetime
  microsecond : Nat
  isDate : IsDate date
  microsecond_lt : microsecond < 1000000

def Moment.key (m : Moment) : Datetime ×ₗ Nat := toLex (m.date, m.microsecond)

/-- A device as the page knows it, with the fields that fill its row. -/
structure Device (ν : Type) where
  node : ν
  updatedAt : Option Str

section Page

variable {ν : Type} (newDate : Str → Option Int)

def time (d : Device ν) : Option Int :=
  match d.updatedAt with
  | none | some [] => some 0
  | some s => newDate s

/-- `bTime - aTime`. -/
def compareUpdated (a b : Device ν) : Option Int := do
  let aTime ← time newDate a
  let bTime ← time newDate b
  some (bTime - aTime)

def Shows (devices rows : List (Device ν)) : Prop :=
  ∃ sorted, Sorts (compareUpdated newDate) devices sorted ∧ rows = sorted.take 8

end Page

/-- The first is taken for the later one. -/
def Later (m m' : Moment) : Prop :=
  ∃ (h : m.date.day ≤ 12) (h' : m'.date.day ≤ 12), misread m'.date h' < misread m.date h

instance (m m' : Moment) : Decidable (Later m m') := exists_prop_decidable _

section Places

variable {n : Nat} (written : Fin n → Moment)

/-- Dates that are taken for equal, or that cannot be read, stay in the order of the list. -/
def ReadAhead (i j : Fin n) : Prop :=
  Later (written i) (written j) ∨ ¬ Later (written j) (written i) ∧ i < j

instance (i j : Fin n) : Decidable (ReadAhead written i j) := inferInstanceAs (Decidable (_ ∨ _))

/-- How many devices are taken to come before one. -/
def readRank (i : Fin n) : Nat := (List.finRange n).countP fun j => ReadAhead written j i

/-- Dates for which the order that is read is right as far as it is shown. -/
structure Fortunate : Prop where
  readable : (∀ i, (written i).date.day ≤ 12) ∨
    ∀ i j, (written i).date.day ≤ 12 → (written j).date.day ≤ 12 → (written i).date = (written j).date
  ordered : ∀ i j, ReadAhead written i j → readRank written i < 8 → (written j).key ≤ (written i).key

end Places

theorem Later.irrefl (m : Moment) : ¬ Later m m := fun ⟨_, _, h⟩ => lt_irrefl _ h

theorem Later.trans {l m n : Moment} (h : Later l m) (h' : Later m n) : Later l n := by
  obtain ⟨hl, hm, hlm⟩ := h
  obtain ⟨_, hn, hmn⟩ := h'
  exact ⟨hl, hn, hmn.trans hlm⟩

theorem date_eq_of_not_later {m m' : Moment} (h : m.date.day ≤ 12) (h' : m'.date.day ≤ 12)
    (hnot : ¬ Later m m') (hnot' : ¬ Later m' m) : m.date = m'.date := by
  apply @misread_injective _ _ h h'
  apply le_antisymm
  · exact not_lt.mp fun hlt => hnot ⟨h, h', hlt⟩
  · exact not_lt.mp fun hlt => hnot' ⟨h', h, hlt⟩

section Reading

variable {ν : Type} {newDate : Str → Option Int} {getTime : Datetime → Int}
  (hjs : ReadsMonthFirst newDate getTime) {writtenAt : Device ν → Moment}
include hjs

theorem getTime_lt_iff {d e : Datetime} (hd : IsDate d) (he : IsDate e) :
    getTime d < getTime e ↔ d < e := by
  refine ⟨fun hlt => ?_, hjs.later d e hd he⟩
  obtain h | rfl | h := lt_trichotomy d e
  · exact h
  · exact absurd hlt (lt_irrefl _)
  · exact absurd hlt (hjs.later e d he hd h).not_gt

theorem time_of_written {d : Device ν} (h : d.updatedAt = some (strftime (writtenAt d).date)) :
    time newDate d = if hday : (writtenAt d).date.day ≤ 12
      then some (getTime (misread (writtenAt d).date hday)) else none := by
  have htext : time newDate d = newDate (strftime (writtenAt d).date) := by
    rw [time, h]
    cases hs : strftime (writtenAt d).date with
    | nil => simp [strftime] at hs
    | cons c cs => rfl
  rw [htext]
  split_ifs with hday
  · exact hjs.valid _ hday (writtenAt d).isDate
  · exact hjs.invalid _ (not_le.mp hday)

variable {a b : Device ν} (ha : a.updatedAt = some (strftime (writtenAt a).date))
  (hb : b.updatedAt = some (strftime (writtenAt b).date))
include ha hb

theorem less_iff : Less (compareUpdated newDate) a b ↔ Later (writtenAt a) (writtenAt b) := by
  rw [Less, compareUpdated, time_of_written hjs ha, time_of_written hjs hb]
  by_cases hday : (writtenAt a).date.day ≤ 12
  · by_cases hday' : (writtenAt b).date.day ≤ 12
    · have hlt := getTime_lt_iff hjs (isDate_misread (writtenAt b).isDate hday')
        (isDate_misread (writtenAt a).isDate hday)
      have hsign : getTime (misread (writtenAt b).date hday') - getTime (misread (writtenAt a).date hday) < 0 ↔
          getTime (misread (writtenAt b).date hday') < getTime (misread (writtenAt a).date hday) := by
        omega
      simp [hday, hday', Later, ← hlt, hsign]
    · simp [hday, hday', Later]
  · simp [hday, Later]

theorem tied_iff : Tied (compareUpdated newDate) a b ↔
    ¬ Later (writtenAt a) (writtenAt b) ∧ ¬ Later (writtenAt b) (writtenAt a) := by
  rw [Tied, compareUpdated, time_of_written hjs ha, time_of_written hjs hb]
  by_cases hday : (writtenAt a).date.day ≤ 12
  · by_cases hday' : (writtenAt b).date.day ≤ 12
    · have hlt := getTime_lt_iff hjs (isDate_misread (writtenAt b).isDate hday')
        (isDate_misread (writtenAt a).isDate hday)
      have hlt' := getTime_lt_iff hjs (isDate_misread (writtenAt a).isDate hday)
        (isDate_misread (writtenAt b).isDate hday')
      simp [hday, hday', Later, ← hlt, ← hlt']
      omega
    · simp [hday, hday', Later]
  · simp [hday, Later]

theorem greater_iff : Greater (compareUpdated newDate) a b ↔ Later (writtenAt b) (writtenAt a) := by
  rw [Greater, compareUpdated, time_of_written hjs ha, time_of_written hjs hb]
  by_cases hday : (writtenAt a).date.day ≤ 12
  · by_cases hday' : (writtenAt b).date.day ≤ 12
    · have hlt := getTime_lt_iff hjs (isDate_misread (writtenAt a).isDate hday)
        (isDate_misread (writtenAt b).isDate hday')
      simp [hday, hday', Later, ← hlt]
    · simp [hday, hday', Later]
  · simp [hday, Later]

end Reading

section Table

variable {ν : Type} {newDate : Str → Option Int} {getTime : Datetime → Int}
  (hjs : ReadsMonthFirst newDate getTime) (writtenAt : Device ν → Moment)
  {devices : List (Device ν)}
  (hwritten : ∀ d ∈ devices, d.updatedAt = some (strftime (writtenAt d).date))

def dates (devices : List (Device ν)) (i : Fin devices.length) : Moment := writtenAt devices[i]

variable {writtenAt}
include hjs hwritten

theorem ahead_iff (i j : Fin devices.length) :
    Ahead (compareUpdated newDate) devices i j ↔ ReadAhead (dates writtenAt devices) i j := by
  have hi := hwritten devices[i] (List.getElem_mem _)
  have hj := hwritten devices[j] (List.getElem_mem _)
  rw [Ahead, less_iff hjs hi hj, tied_iff hjs hi hj, ReadAhead, dates, dates]
  tauto

/-- A date that cannot be read is tied with every other one, so these have to be tied as well. -/
theorem consistent_iff : Consistent (compareUpdated newDate) devices ↔
    (∀ d ∈ devices, (writtenAt d).date.day ≤ 12) ∨
      ∀ d ∈ devices, ∀ e ∈ devices, (writtenAt d).date.day ≤ 12 → (writtenAt e).date.day ≤ 12 →
        (writtenAt d).date = (writtenAt e).date := by
  constructor
  · intro h
    by_contra hnot
    obtain ⟨hall, hequal⟩ := not_or.mp hnot
    push Not at hall hequal
    obtain ⟨x, hx, hunread⟩ := hall
    obtain ⟨y, hy, z, hz, hyday, hzday, hne⟩ := hequal
    have hnone : ∀ d, ¬ Later (writtenAt x) (writtenAt d) ∧ ¬ Later (writtenAt d) (writtenAt x) :=
      fun d => ⟨fun ⟨h, _⟩ => absurd h hunread.not_ge, fun ⟨_, h, _⟩ => absurd h hunread.not_ge⟩
    have hyx := (tied_iff hjs (hwritten y hy) (hwritten x hx)).mpr (hnone y).symm
    have hxz := (tied_iff hjs (hwritten x hx) (hwritten z hz)).mpr (hnone z)
    obtain ⟨hyz, hzy⟩ := (tied_iff hjs (hwritten y hy) (hwritten z hz)).mp
      (h.tied_trans y hy x hx z hz hyx hxz)
    exact hne (date_eq_of_not_later hyday hzday hyz hzy)
  · intro h
    have hless : ∀ a ∈ devices, ∀ b ∈ devices,
        (Less (compareUpdated newDate) a b ↔ Later (writtenAt a) (writtenAt b)) :=
      fun a ha b hb => less_iff hjs (hwritten a ha) (hwritten b hb)
    have htied : ∀ a ∈ devices, ∀ b ∈ devices, (Tied (compareUpdated newDate) a b ↔
        ¬ Later (writtenAt a) (writtenAt b) ∧ ¬ Later (writtenAt b) (writtenAt a)) :=
      fun a ha b hb => tied_iff hjs (hwritten a ha) (hwritten b hb)
    have hgreater : ∀ a ∈ devices, ∀ b ∈ devices,
        (Greater (compareUpdated newDate) a b ↔ Later (writtenAt b) (writtenAt a)) :=
      fun a ha b hb => greater_iff hjs (hwritten a ha) (hwritten b hb)
    refine ⟨fun a ha => ?_, fun a ha b hb hab => ?_, fun a ha b hb c hc hab hbc => ?_,
      fun a ha b hb c hc hab hbc => ?_, fun a ha b hb c hc hab hbc => ?_⟩
    · exact (htied a ha a ha).mpr ⟨Later.irrefl _, Later.irrefl _⟩
    · exact (htied b hb a ha).mpr ((htied a ha b hb).mp hab).symm
    · obtain ⟨hab, hba⟩ := (htied a ha b hb).mp hab
      obtain ⟨hbc, hcb⟩ := (htied b hb c hc).mp hbc
      have hdate : (writtenAt a).date.day ≤ 12 → (writtenAt c).date.day ≤ 12 →
          (writtenAt a).date = (writtenAt c).date := by
        intro hday hday'
        obtain hall | hequal := h
        · exact (date_eq_of_not_later hday (hall b hb) hab hba).trans
            (date_eq_of_not_later (hall b hb) hday' hbc hcb)
        · exact hequal a ha c hc hday hday'
      refine (htied a ha c hc).mpr ⟨fun hlater => ?_, fun hlater => ?_⟩
      · obtain ⟨hday, hday', hlt⟩ := hlater
        simp only [hdate hday hday', lt_irrefl] at hlt
      · obtain ⟨hday', hday, hlt⟩ := hlater
        simp only [hdate hday hday', lt_irrefl] at hlt
    · exact (hless a ha c hc).mpr (((hless a ha b hb).mp hab).trans ((hless b hb c hc).mp hbc))
    · exact (hgreater a ha c hc).mpr
        (((hgreater b hb c hc).mp hbc).trans ((hgreater a ha b hb).mp hab))

theorem readable_iff : Consistent (compareUpdated newDate) devices ↔
    (∀ i, (dates writtenAt devices i).date.day ≤ 12) ∨
      ∀ i j, (dates writtenAt devices i).date.day ≤ 12 → (dates writtenAt devices j).date.day ≤ 12 →
        (dates writtenAt devices i).date = (dates writtenAt devices j).date := by
  rw [consistent_iff hjs hwritten]
  refine or_congr ⟨fun h i => h _ (List.getElem_mem _), fun h d hd => ?_⟩
    ⟨fun h i j => h _ (List.getElem_mem _) _ (List.getElem_mem _), fun h d hd e he => ?_⟩
  · obtain ⟨i, hi, rfl⟩ := List.mem_iff_getElem.mp hd
    exact h ⟨i, hi⟩
  · obtain ⟨i, hi, rfl⟩ := List.mem_iff_getElem.mp hd
    obtain ⟨j, hj, rfl⟩ := List.mem_iff_getElem.mp he
    exact h ⟨i, hi⟩ ⟨j, hj⟩

theorem readRank_eq (h : Consistent (compareUpdated newDate) devices)
    {places : List (Fin devices.length)}
    (hplaces : Arranged (compareUpdated newDate) devices places) {a : Nat} (ha : a < places.length) :
    readRank (dates writtenAt devices) places[a] = a :=
  countP_ahead h hplaces ha fun j => by
    rw [decide_eq_true_iff, ahead_iff hjs hwritten]

open Classical in
theorem consistent_of_leading
    (h : ∀ rows, Shows newDate devices rows → Leading (fun d => (writtenAt d).key) 8 devices rows) :
    Consistent (compareUpdated newDate) devices := by
  by_contra hnot
  have hdates := mt (consistent_iff hjs hwritten).mpr hnot
  push Not at hdates
  obtain ⟨-, y, hy, z, hz, -, -, hne⟩ := hdates
  have hwrong : ∀ y ∈ devices, ∀ z ∈ devices, (writtenAt y).date < (writtenAt z).date → False := by
    intro y hy z hz hlt
    have hzy : z ≠ y := fun heq => hlt.ne (heq ▸ rfl)
    have hperm : (y :: z :: (devices.erase y).erase z).Perm devices :=
      ((List.perm_cons_erase ((List.mem_erase_of_ne hzy).mpr hz)).symm.cons y).trans
        (List.perm_cons_erase hy).symm
    have hleading := h _ ⟨_, ⟨hperm, fun hcons => absurd hcons hnot⟩, rfl⟩
    have hkey := (leading_take_iff hperm).mp hleading 0 1 (by decide) (by simp) (by decide)
    rw [List.getElem_cons_zero, List.getElem_cons_succ, List.getElem_cons_zero] at hkey
    exact hkey.not_gt (Prod.Lex.toLex_lt_toLex.mpr (.inl hlt))
  obtain hlt | hlt := lt_or_gt_of_ne hne
  · exact hwrong y hy z hz hlt
  · exact hwrong z hz y hy hlt

/-- The table shows the most recently updated devices just when the dates are as fortunate. -/
theorem recent_nodes_iff :
    (∀ rows, Shows newDate devices rows → Leading (fun d => (writtenAt d).key) 8 devices rows) ↔
      Fortunate (dates writtenAt devices) := by
  constructor
  · intro h
    have hcons := consistent_of_leading hjs hwritten h
    obtain ⟨places, hplaces⟩ := hcons.exists_arranged
    have hperm : (places.map devices.get).Perm devices := by
      have hget := hplaces.perm.map devices.get
      rwa [List.map_get_finRange] at hget
    have hleading := (leading_take_iff hperm).mp
      (h _ ⟨_, ⟨hperm, fun _ => ⟨places, hplaces, rfl⟩⟩, rfl⟩)
    refine ⟨(readable_iff hjs hwritten).mp hcons, fun i j hahead hrank => ?_⟩
    obtain ⟨a, ha, rfl⟩ := List.mem_iff_getElem.mp (hplaces.perm.symm.subset (List.mem_finRange i))
    obtain ⟨b, hb, rfl⟩ := List.mem_iff_getElem.mp (hplaces.perm.symm.subset (List.mem_finRange j))
    rw [← ahead_iff hjs hwritten, hcons.ahead_iff_lt hplaces] at hahead
    rw [readRank_eq hjs hwritten hcons hplaces] at hrank
    have hkey := hleading a b hahead (by simpa using hb) hrank
    rw [List.getElem_map, List.getElem_map] at hkey
    exact hkey
  · rintro ⟨hreadable, hordered⟩ rows ⟨sorted, hsorts, rfl⟩
    have hcons := (readable_iff hjs hwritten).mpr hreadable
    obtain ⟨places, hplaces, rfl⟩ := hsorts.ordered hcons
    refine (leading_take_iff hsorts.perm).mpr fun a b hab hb ha8 => ?_
    rw [List.length_map] at hb
    have hahead := (hcons.ahead_iff_lt hplaces (by omega) hb).mpr hab
    rw [ahead_iff hjs hwritten] at hahead
    have hrank := readRank_eq hjs hwritten hcons hplaces (a := a) (by omega)
    rw [List.getElem_map, List.getElem_map]
    exact hordered _ _ hahead (hrank.trans_lt ha8)

end Table

def morning (month day : Nat) (hmonth : 1 ≤ month ∧ month ≤ 12) (hday : 1 ≤ day ∧ day ≤ 28) : Moment where
  date := ⟨2025, month, day, 9, 40, 20, by decide, hmonth.2, hday.2.trans (by decide), by decide,
    by decide, by decide⟩
  microsecond := 0
  isDate := by
    refine ⟨(by decide : 1 ≤ 2025), hmonth.1, hday.1, hday.2.trans ?_⟩
    show 28 ≤ NcrDatetime.daysInMonth 2025 month
    unfold NcrDatetime.daysInMonth
    split_ifs <;> decide
  microsecond_lt := by decide

def february : Moment := morning 2 5 (by decide) (by decide)

def march : Moment := morning 3 1 (by decide) (by decide)

def lastUpdate (d : Device Bool) : Moment := if d.node then march else february

def updated (node : Bool) : Device Bool where
  node := node
  updatedAt := some (strftime (if node then march else february).date)

theorem recent_nodes_iff_two :
    (∀ rows, Shows newDate [updated true, updated false] rows →
      Leading (fun d => (lastUpdate d).key) 8 [updated true, updated false] rows) ↔
      Fortunate (dates lastUpdate [updated true, updated false]) :=
  recent_nodes_iff utc_readsMonthFirst (by simp [updated, lastUpdate])

/-- The fifth of February is taken for the second of May, the first of March for the third of
January. -/
theorem february_before_march : ¬ ∀ rows, Shows newDate [updated false, updated true] rows →
    Leading (fun d => (lastUpdate d).key) 8 [updated false, updated true] rows := by
  intro h
  have hless : Less (compareUpdated newDate) (updated false) (updated true) :=
    ⟨-10281600000, by decide +kernel, by decide⟩
  have hsorts : Sorts (compareUpdated newDate) [updated false, updated true]
      [updated false, updated true] :=
    ⟨List.Perm.refl _, fun _ => ⟨[0, 1], ⟨List.Perm.refl _, by simpa using .inl hless⟩, rfl⟩⟩
  have hkey := (leading_take_iff (n := 8) (List.Perm.refl _)).mp (h _ ⟨_, hsorts, rfl⟩) 0 1
    (by decide) (by decide) (by decide)
  exact hkey.not_gt (Prod.Lex.toLex_lt_toLex.mpr (.inl (by decide)))

end AtmMonitor.RecentNodes

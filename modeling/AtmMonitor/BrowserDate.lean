import AtmMonitor.Decimal
import AtmMonitor.NcrDatetime
import AtmMonitor.NvrCheck

namespace AtmMonitor.BrowserDate

open PyText Decimal NcrDatetime NvrCheck

def IsDate (d : Datetime) : Prop :=
  1 ≤ d.year ∧ 1 ≤ d.month ∧ 1 ≤ d.day ∧ d.day ≤ daysInMonth d.year d.month

/-- What `new Date` makes of the text of a date: the day is read as the month. -/
def misread (d : Datetime) (h : d.day ≤ 12) : Datetime :=
  { d with month := d.day, day := d.month, month_le := h, day_le := d.month_le.trans (by decide) }

/-- The browser: `new Date(s).getTime()`, which may be no number, and the number of each date. -/
structure ReadsMonthFirst (newDate : Str → Option Int) (getTime : Datetime → Int) : Prop where
  valid : ∀ d (h : d.day ≤ 12), IsDate d → newDate (strftime d) = some (getTime (misread d h))
  invalid : ∀ d, 12 < d.day → newDate (strftime d) = none
  later : ∀ d e, IsDate d → IsDate e → d < e → getTime d < getTime e

theorem misread_injective {d e : Datetime} {hd : d.day ≤ 12} {he : e.day ≤ 12}
    (h : misread d hd = misread e he) : d = e := by
  simp only [misread, Datetime.mk.injEq] at h
  obtain ⟨hyear, hday, hmonth, hhour, hminute, hsecond⟩ := h
  exact Datetime.ext hyear hmonth hday hhour hminute hsecond

theorem isDate_misread {d : Datetime} (hd : IsDate d) (h : d.day ≤ 12) : IsDate (misread d h) := by
  obtain ⟨hyear, hmonth, hday, -⟩ := hd
  refine ⟨hyear, hday, hmonth, ?_⟩
  have hlong : 12 ≤ daysInMonth d.year d.day := by
    unfold daysInMonth
    split_ifs <;> omega
  exact d.month_le.trans hlong

/-- Milliseconds since the first of January 1970. -/
def utc (year month day hour minute second : Nat) : Int :=
  (((daysBeforeYear year + daysBeforeMonth year month + day : Nat) - 719163) * 86400 +
    ((hour * 60 + minute) * 60 + second : Nat)) * 1000

def utcTime (d : Datetime) : Int := utc d.year d.month d.day d.hour d.minute d.second

def hour24 (hour : Nat) (meridiem : Char) : Nat := hour % 12 + if meridiem = 'P' then 12 else 0

def newDate : Str → Option Int
  | [m₁, m₂, '/', d₁, d₂, '/', y₁, y₂, y₃, y₄, ',', ' ', h₁, h₂, ':', n₁, n₂, ':', s₁, s₂, ' ', x, 'M'] =>
    if int [m₁, m₂] ≤ 12 then
      some (utc (int [y₁, y₂, y₃, y₄]) (int [m₁, m₂]) (int [d₁, d₂]) (hour24 (int [h₁, h₂]) x)
        (int [n₁, n₂]) (int [s₁, s₂]))
    else none
  | _ => none

theorem int_padded (width n : Nat) : int (padded width n) = n % 10 ^ width := by
  induction width generalizing n with
  | zero => simp [padded, int, Nat.mod_one]
  | succ width ih =>
    have hdigit : ∀ k < 10, (digit? (Nat.digitChar k)).getD 0 = k := by decide
    rw [padded, int_concat, ih, hdigit _ (Nat.mod_lt _ (by decide)), Nat.pow_succ',
      Nat.mod_mul, Nat.add_comm]

theorem hour24_hour12 : ∀ hour < 24,
    hour24 (hour12 hour) (if hour < 12 then 'A' else 'P') = hour := by decide

/-- The text is read in the order in which it was written, with two numbers in each other's place. -/
theorem newDate_strftime (d : Datetime) :
    newDate (strftime d) =
      if d.day ≤ 12 then some (utc d.year d.day d.month d.hour d.minute d.second) else none := by
  have htwo : ∀ n, padded 2 n = [Nat.digitChar (n / 10 % 10), Nat.digitChar (n % 10)] := fun _ => rfl
  have hfour : ∀ n, padded 4 n = [Nat.digitChar (n / 10 / 10 / 10 % 10),
      Nat.digitChar (n / 10 / 10 % 10), Nat.digitChar (n / 10 % 10), Nat.digitChar (n % 10)] :=
    fun _ => rfl
  have hmeridiem : meridiem d.hour = [if d.hour < 12 then 'A' else 'P', 'M'] := by
    unfold meridiem
    split_ifs <;> rfl
  have hhour : hour12 d.hour < 100 := by
    unfold hour12
    split_ifs <;> omega
  have hread : newDate (strftime d) =
      if int (padded 2 d.day) ≤ 12 then
        some (utc (int (padded 4 d.year)) (int (padded 2 d.day)) (int (padded 2 d.month))
          (hour24 (int (padded 2 (hour12 d.hour))) (if d.hour < 12 then 'A' else 'P'))
          (int (padded 2 d.minute)) (int (padded 2 d.second)))
      else none := by
    rw [strftime, hmeridiem, htwo, htwo, htwo, htwo, htwo, hfour]
    rfl
  have hday := d.day_le
  have hmonth := d.month_le
  have hyear := d.year_lt
  have hminute := d.minute_lt
  have hsecond := d.second_lt
  rw [hread]
  simp only [int_padded, Nat.mod_eq_of_lt (show d.day < 10 ^ 2 by omega),
    Nat.mod_eq_of_lt (show d.month < 10 ^ 2 by omega), Nat.mod_eq_of_lt (show d.year < 10 ^ 4 by omega),
    Nat.mod_eq_of_lt (show d.minute < 10 ^ 2 by omega), Nat.mod_eq_of_lt (show d.second < 10 ^ 2 by omega),
    Nat.mod_eq_of_lt (show hour12 d.hour < 10 ^ 2 by omega), hour24_hour12 _ d.hour_lt]

theorem daysBeforeMonth_succ (year : Nat) {month : Nat} (h : 1 ≤ month) :
    daysBeforeMonth year (month + 1) = daysBeforeMonth year month + daysInMonth year month := by
  obtain ⟨m, rfl⟩ := Nat.exists_eq_add_of_le' h
  rw [daysBeforeMonth, daysBeforeMonth, Nat.add_sub_cancel, Nat.add_sub_cancel, List.range'_1_concat,
    List.map_append, List.sum_append, List.map_singleton, List.sum_singleton, Nat.add_comm 1 m]

theorem daysBeforeMonth_le (year : Nat) {m m' : Nat} (h : 1 ≤ m) (hle : m ≤ m') :
    daysBeforeMonth year m ≤ daysBeforeMonth year m' := by
  induction m', hle using Nat.le_induction with
  | base => exact le_rfl
  | succ m' hm ih =>
    rw [daysBeforeMonth_succ year (h.trans hm)]
    omega

theorem daysInYear (year : Nat) :
    daysBeforeMonth year 13 = 365 + if isLeap year then 1 else 0 := by
  have hmonths : List.range' 1 (13 - 1) = [1, 2, 3, 4, 5, 6, 7, 8, 9, 10, 11, 12] := rfl
  rw [daysBeforeMonth, hmonths]
  cases h : isLeap year <;> simp [daysInMonth, h]

theorem daysBeforeYear_succ {year : Nat} (h : 1 ≤ year) :
    daysBeforeYear (year + 1) = daysBeforeYear year + daysBeforeMonth year 13 := by
  obtain ⟨y, rfl⟩ := Nat.exists_eq_add_of_le' h
  have hleap : isLeap (y + 1) = true ↔ 4 ∣ y + 1 ∧ (¬ 100 ∣ y + 1 ∨ 400 ∣ y + 1) := by
    simp [isLeap, Nat.dvd_iff_mod_eq_zero]
  have hless : y / 100 ≤ y * 365 + y / 4 := by omega
  have h100 : 100 ∣ y + 1 → 4 ∣ y + 1 := Nat.dvd_trans (by decide)
  have h400 : 400 ∣ y + 1 → 100 ∣ y + 1 := Nat.dvd_trans (by decide)
  rw [daysInYear]
  simp only [daysBeforeYear, Nat.add_sub_cancel, Nat.succ_div, hleap]
  generalize y / 4 = a, y / 100 = b, y / 400 = c at hless ⊢
  by_cases d4 : 4 ∣ y + 1
  · by_cases d100 : 100 ∣ y + 1
    · by_cases d400 : 400 ∣ y + 1
      · simp only [d4, d100, d400, if_true, not_true_eq_false, or_true, and_self]
        omega
      · simp only [d4, d100, d400, if_true, if_false, not_true_eq_false, or_self, and_false]
        omega
    · simp only [d4, d100, mt h400 d100, if_true, if_false, not_false_eq_true, true_or, and_self]
      omega
  · simp only [d4, mt h100 d4, mt (h100 ∘ h400) d4, if_false, false_and]
    omega

theorem daysBeforeYear_le {y y' : Nat} (h : 1 ≤ y) (hle : y ≤ y') :
    daysBeforeYear y ≤ daysBeforeYear y' := by
  induction y', hle using Nat.le_induction with
  | base => exact le_rfl
  | succ y' hy ih =>
    rw [daysBeforeYear_succ (h.trans hy)]
    omega

theorem monthEnd_le {d : Datetime} (h : IsDate d) (month : Nat) (hlt : d.month < month) :
    daysBeforeMonth d.year d.month + d.day ≤ daysBeforeMonth d.year month := by
  have hnext := daysBeforeMonth_succ d.year h.2.1
  have hle := daysBeforeMonth_le d.year (Nat.le_add_left 1 d.month) hlt
  have hday := h.2.2.2
  omega

theorem yearEnd_le {d : Datetime} (h : IsDate d) {year : Nat} (hlt : d.year < year) :
    daysBeforeYear d.year + daysBeforeMonth d.year d.month + d.day ≤ daysBeforeYear year := by
  have hmonth := monthEnd_le h 13 (Nat.lt_succ_of_le d.month_le)
  have hnext := daysBeforeYear_succ h.1
  have hle := daysBeforeYear_le (Nat.le_add_left 1 d.year) hlt
  omega

theorem utcTime_lt {d e : Datetime} (hd : IsDate d) (he : IsDate e) (h : d < e) :
    utcTime d < utcTime e := by
  have hkey : d.key < e.key := h
  simp only [Datetime.key, Prod.Lex.toLex_lt_toLex] at hkey
  have hday := he.2.2.1
  have hd_hour := d.hour_lt
  have hd_minute := d.minute_lt
  have hd_second := d.second_lt
  have he_minute := e.minute_lt
  have he_second := e.second_lt
  unfold utcTime utc
  obtain hyear | ⟨hyear, hmonth | ⟨hmonth, hrest⟩⟩ := hkey
  · have hend := yearEnd_le hd hyear
    omega
  · have hend := monthEnd_le hd _ hmonth
    rw [hyear] at hend ⊢
    omega
  · rw [hyear, hmonth]
    omega

theorem utc_readsMonthFirst : ReadsMonthFirst newDate utcTime where
  valid d h _ := by
    rw [newDate_strftime, if_pos h]
    rfl
  invalid d h := by rw [newDate_strftime, if_neg (not_le.mpr h)]
  later _ _ := utcTime_lt

end AtmMonitor.BrowserDate

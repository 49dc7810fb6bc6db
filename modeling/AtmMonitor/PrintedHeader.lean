import AtmMonitor.BrowserDate
import AtmMonitor.ParsedBlocks
import AtmMonitor.PrintedRows
import Mathlib.Tactic.IntervalCases

namespace AtmMonitor.PrintedHeader

open Library.Regex PyText ParserModels EventPatterns EjParser NcrDatetime Decimal HeaderLines NvrCheck
  BrowserDate PrintedRows

def headerDate (d : Datetime) : Str :=
  padded 2 d.day ++ '/' :: (padded 2 d.month ++ '/' :: padded 4 d.year)

def headerClock (d : Datetime) : Str := padded 2 d.hour ++ ':' :: padded 2 d.minute

def headerLine (seqNum : Nat) (d : Datetime) : Str :=
  '*' :: (decimal seqNum ++ '*' :: (headerDate d ++ '*' :: (headerClock d ++ ['*'])))

/-- The minute that the header names. -/
def minuteOf (d : Datetime) : Timestamp :=
  microseconds (daysBeforeYear d.year + daysBeforeMonth d.year d.month + d.day) d.hour d.minute

theorem padded_digits (width n : Nat) : AsciiDigits (padded width n) := by
  have hdigit : ∀ k < 10, (Nat.digitChar k).isDigit = true := by decide
  induction width generalizing n with
  | zero => exact fun c hc => absurd hc List.not_mem_nil
  | succ width ih =>
    intro c hc
    rw [padded, List.mem_append, List.mem_singleton] at hc
    obtain hc | rfl := hc
    · exact ih (n / 10) c hc
    · exact hdigit _ (Nat.mod_lt n (by decide))

theorem prefers_digits {w : Str} (hw : ∀ c ∈ w, isDigit c = true) (rest : Str) :
    Prefers (digits w.length) w rest [] := by
  induction w with
  | nil => exact prefers_seqs_nil
  | cons c w ih =>
    exact prefers_seqs_skip (w := [c]) (prefers_cls (hw c (by simp)))
      (ih fun d hd => hw d (List.mem_cons_of_mem c hd))

theorem prefers_padded (width n : Nat) (rest : Str) : Prefers (digits width) (padded width n) rest [] := by
  have h := prefers_digits (fun c hc => isDigit_of_ascii (padded_digits width n c hc)) rest
  rwa [length_padded] at h

theorem header?_line (seqNum : Nat) (d : Datetime) :
    header? (headerLine seqNum d) = some ⟨decimal seqNum, headerDate d, headerClock d, []⟩ := by
  have hextra : Prefers (.group "extra" (.many fun c => !isNewline c)) ([] : Str) [] [("extra", [])] :=
    prefers_group (prefers_many (by simp) (by simp))
  have hend := prefers_seqs_skip (prefers_chr '*' _) (prefers_seqs_last hextra)
  have hclock : Prefers (.group "time" (seqs [digits 2, chr ':', digits 2])) (headerClock d)
      (['*'] ++ [] ++ []) [("time", headerClock d)] :=
    prefers_group (prefers_seqs_skip (prefers_padded 2 d.hour _)
      (prefers_seqs_skip (prefers_chr ':' _) (prefers_seqs_last (prefers_padded 2 d.minute _))))
  have htime := prefers_seqs_skip (prefers_chr '*' _) (prefers_seqs_cons hclock hend)
  have hdate : ∀ rest, Prefers (.group "date" (seqs [digits 2, chr '/', digits 2, chr '/', digits 4]))
      (headerDate d) rest [("date", headerDate d)] := fun rest =>
    prefers_group (prefers_seqs_skip (prefers_padded 2 d.day _) (prefers_seqs_skip (prefers_chr '/' _)
      (prefers_seqs_skip (prefers_padded 2 d.month _)
        (prefers_seqs_skip (prefers_chr '/' _) (prefers_seqs_last (prefers_padded 4 d.year _))))))
  have hdated := prefers_seqs_skip (prefers_chr '*' _) (prefers_seqs_cons (hdate _) htime)
  have hseq : ∀ t : Str, Prefers (.group "seq" (many1 isDigit)) (decimal seqNum) ('*' :: t)
      [("seq", decimal seqNum)] := fun t =>
    prefers_group (prefers_many1 (decimal_ne_nil seqNum)
      (fun c hc => isDigit_of_ascii (decimal_digits seqNum c hc)) (by simp [isDigit, digit?]))
  have hstart := prefers_seqs_skip (prefers_chr '*' _) (prefers_seqs_cons (hseq (headerDate d ++ '*' :: (headerClock d ++ ['*']) ++ [])) hdated)
  have hspace : ∀ t : Str, Prefers (.many isSpace) [] ('*' :: t) [] := fun t =>
    prefers_many (by simp) (by simp [isSpace])
  have hline := matchStart_of_prefers (prefers_seqs_skip (hspace _) hstart)
  have hmatch := (matchStart_atStart _ _).trans hline
  rw [header?, EVENT_HEADER_PATTERN]
  simp only [headerLine, List.append_nil, List.nil_append, List.cons_append] at hmatch ⊢
  rw [hmatch]
  rfl

theorem prefers_day {n : Nat} (hpos : 1 ≤ n) (hle : n ≤ 31) (rest : Str) :
    Prefers dayDirective (padded 2 n) rest [("d", padded 2 n)] := by
  refine prefers_group fun left groups => ?_
  interval_cases n <;> rfl

theorem prefers_month {n : Nat} (hpos : 1 ≤ n) (hle : n ≤ 12) (rest : Str) :
    Prefers monthDirective (padded 2 n) rest [("m", padded 2 n)] := by
  refine prefers_group fun left groups => ?_
  interval_cases n <;> rfl

theorem prefers_hour {n : Nat} (hlt : n < 24) (rest : Str) :
    Prefers hourDirective (padded 2 n) rest [("H", padded 2 n)] := by
  refine prefers_group fun left groups => ?_
  interval_cases n <;> rfl

theorem prefers_minute {n : Nat} (hlt : n < 60) (rest : Str) :
    Prefers minuteDirective (padded 2 n) rest [("M", padded 2 n)] := by
  refine prefers_group fun left groups => ?_
  interval_cases n <;> rfl

theorem headerTime_line {d : Datetime} (hd : IsDate d) :
    headerTime (headerDate d) (headerClock d) = some (minuteOf d) := by
  obtain ⟨hyear, hmonth, hday, hlast⟩ := hd
  have hdayLe := d.day_le
  have hmonthLe := d.month_le
  have hyearLt := d.year_lt
  have hminuteLt := d.minute_lt
  have hhourLt := d.hour_lt
  have hclock := prefers_seqs_cons (prefers_hour hhourLt _)
    (prefers_seqs_skip (prefers_chr ':' _) (prefers_seqs_last (prefers_minute hminuteLt [])))
  have hblank : ∀ t : Str, (∀ c ∈ t.head?, isSpace c = false) → Prefers (many1 isSpace) [' '] t [] :=
    fun t ht => prefers_many1 (by simp) (by simp [isSpace]) ht
  have hdigit : ∀ c ∈ (padded 2 d.hour ++ ([':'] ++ padded 2 d.minute) ++ []).head?, isSpace c = false := by
    intro c hc
    have hfirst : (padded 2 d.hour).head? = some c := hc
    exact isSpace_digit (padded_digits 2 d.hour c (List.mem_of_head? hfirst))
  have hyears : ∀ rest, Prefers (.group "y" (digits 4)) (padded 4 d.year) rest [("y", padded 4 d.year)] :=
    fun rest => prefers_group (prefers_padded 4 d.year rest)
  have hafter := prefers_seqs_cons (hyears _) (prefers_seqs_skip (hblank _ hdigit) hclock)
  have hmonths := prefers_seqs_cons (prefers_month hmonth hmonthLe _)
    (prefers_seqs_skip (prefers_chr '/' _) hafter)
  have hmatch := matchStart_of_prefers (prefers_seqs_cons (prefers_day hday hdayLe _)
    (prefers_seqs_skip (prefers_chr '/' _) hmonths))
  have hline : headerDate d ++ ' ' :: headerClock d = padded 2 d.day ++ (['/'] ++ (padded 2 d.month ++
      (['/'] ++ (padded 4 d.year ++ ([' '] ++ (padded 2 d.hour ++ ([':'] ++ padded 2 d.minute))))))) := by
    simp [headerDate, headerClock]
  rw [List.append_nil, ← hline] at hmatch
  have hordinal : toOrdinal d.year d.month d.day =
      some (daysBeforeYear d.year + daysBeforeMonth d.year d.month + d.day) :=
    if_pos ⟨hyear, by omega, hmonth, hmonthLe, hday, hlast⟩
  have hfirst : strptime (headerDate d ++ ' ' :: headerClock d) .slashLong =
      (toOrdinal (int (padded 4 d.year)) (int (padded 2 d.month)) (int (padded 2 d.day))).bind fun ordinal =>
        some (microseconds ordinal (int (padded 2 d.hour)) (int (padded 2 d.minute))) := by
    rw [strptime]
    exact congrArg (Option.bind · _) hmatch
  simp only [int_padded, Nat.mod_eq_of_lt (show d.day < 10 ^ 2 by omega),
    Nat.mod_eq_of_lt (show d.month < 10 ^ 2 by omega), Nat.mod_eq_of_lt (show d.year < 10 ^ 4 by omega),
    Nat.mod_eq_of_lt (show d.minute < 10 ^ 2 by omega), Nat.mod_eq_of_lt (show d.hour < 10 ^ 2 by omega),
    hordinal, Option.bind_some] at hfirst
  rw [headerTime, formats, List.findSome?_cons, hfirst]
  rfl

theorem headerLine_chars (seqNum : Nat) (d : Datetime) : ∀ c ∈ headerLine seqNum d, HeaderChar c := by
  have hdigits : ∀ width n, ∀ c ∈ padded width n, HeaderChar c :=
    fun width n c hc => headerChar_digit (padded_digits width n c hc)
  have hmark : ∀ c ∈ ['*', '/', ':'], HeaderChar c := fun c hc => .inr (.inr hc)
  simp only [headerLine, headerDate, headerClock, List.forall_mem_cons, List.forall_mem_append]
  exact ⟨hmark '*' (by simp), fun c hc => headerChar_digit (decimal_digits seqNum c hc),
    hmark '*' (by simp), ⟨hdigits 2 d.day, hmark '/' (by simp), hdigits 2 d.month, hmark '/' (by simp),
      hdigits 4 d.year⟩, hmark '*' (by simp), ⟨hdigits 2 d.hour, hmark ':' (by simp), hdigits 2 d.minute⟩,
    hmark '*' (by simp), by simp⟩

theorem strip_headerLine (seqNum : Nat) (d : Datetime) : strip (headerLine seqNum d) = headerLine seqNum d := by
  have hlast : headerLine seqNum d =
      ('*' :: (decimal seqNum ++ '*' :: (headerDate d ++ '*' :: headerClock d))) ++ ['*'] := by
    simp [headerLine]
  refine strip_eq_self (fun c hc => ?_) fun c hc => ?_
  · rw [headerLine, List.head?_cons, Option.mem_some_iff] at hc
    rw [← hc]
    rfl
  · rw [hlast, List.getLast?_concat, Option.mem_some_iff] at hc
    rw [← hc]
    rfl

theorem headerLine_newline (seqNum : Nat) (d : Datetime) : '\n' ∉ headerLine seqNum d := by
  have hdigits : ∀ width n, '\n' ∉ padded width n := fun width n hc => absurd (padded_digits width n _ hc) (by decide)
  have hseq : '\n' ∉ decimal seqNum := fun hc => absurd (decimal_digits seqNum _ hc) (by decide)
  simp [headerLine, headerDate, headerClock, hdigits, hseq]

theorem digit_of_header {line : Str} (h : (header? line).isSome) :
    ∃ c ∈ (strip line).tail.head?, isDigit c = true := by
  obtain ⟨hd, hh⟩ := Option.isSome_iff_exists.mp h
  obtain ⟨d, ds, hrun⟩ := run_of_header hh
  obtain ⟨p, hline, -⟩ := mem_headerStart (hrun ▸ List.mem_cons_self ..)
  obtain ⟨c, t, hc, hcore⟩ := p.core_cons
  refine ⟨c, ?_, hc⟩
  rw [hline, strip_line, hcore]
  rfl

end AtmMonitor.PrintedHeader

import AtmMonitor.EventPatterns
import Mathlib.Data.Prod.Lex
import Mathlib.Logic.Function.Basic

namespace AtmMonitor.NvrCheck

open Library.Regex PyText EventPatterns

@[ext] structure Datetime where
  year : Nat
  month : Nat
  day : Nat
  hour : Nat
  minute : Nat
  second : Nat
  year_lt : year < 10000
  month_le : month ≤ 12
  day_le : day ≤ 31
  hour_lt : hour < 24
  minute_lt : minute < 60
  second_lt : second < 60

def Datetime.key (d : Datetime) : Nat ×ₗ Nat ×ₗ Nat ×ₗ Nat ×ₗ Nat ×ₗ Nat :=
  toLex (d.year, toLex (d.month, toLex (d.day, toLex (d.hour, toLex (d.minute, d.second)))))

theorem Datetime.key_injective : Function.Injective Datetime.key := by
  intro a b h
  simp only [Datetime.key, EmbeddingLike.apply_eq_iff_eq, Prod.mk.injEq] at h
  obtain ⟨hy, hm, hd, hh, hmin, hs⟩ := h
  exact Datetime.ext hy hm hd hh hmin hs

instance : LinearOrder Datetime := LinearOrder.lift' Datetime.key Datetime.key_injective

/-- The last `width` decimal digits of a number. -/
def padded : Nat → Nat → Str
  | 0, _ => []
  | width + 1, n => padded width (n / 10) ++ [Nat.digitChar (n % 10)]

def hour12 (hour : Nat) : Nat := if hour % 12 = 0 then 12 else hour % 12

def meridiem (hour : Nat) : Str := if hour < 12 then "AM".toList else "PM".toList

/-- `strftime("%d/%m/%Y, %I:%M:%S %p")` -/
def strftime (d : Datetime) : Str :=
  padded 2 d.day ++ '/' :: (padded 2 d.month ++ '/' :: (padded 4 d.year ++ ',' :: ' ' ::
    (padded 2 (hour12 d.hour) ++ ':' :: (padded 2 d.minute ++ ':' :: (padded 2 d.second ++ ' ' ::
      meridiem d.hour)))))

theorem length_padded (width n : Nat) : (padded width n).length = width := by
  induction width generalizing n with
  | zero => rfl
  | succ width ih => simp [padded, ih]

theorem digitChar_inj : ∀ a < 10, ∀ b < 10, Nat.digitChar a = Nat.digitChar b → a = b := by decide

theorem padded_inj {width m n : Nat} (hm : m < 10 ^ width) (hn : n < 10 ^ width)
    (h : padded width m = padded width n) : m = n := by
  induction width generalizing m n with
  | zero => omega
  | succ width ih =>
    rw [Nat.pow_succ] at hm hn
    obtain ⟨hinit, hlast⟩ := List.append_inj' h rfl
    have hdiv := ih (by omega) (by omega) hinit
    have hmod := digitChar_inj _ (Nat.mod_lt _ (by omega)) _ (Nat.mod_lt _ (by omega))
      (List.singleton_inj.mp hlast)
    omega

theorem hour_inj : ∀ a < 24, ∀ b < 24, hour12 a = hour12 b → meridiem a = meridiem b → a = b := by
  decide

/-- A text of this format is that of one time only. -/
theorem strftime_injective : Function.Injective strftime := by
  intro a b h
  have hlen : ∀ w m n, (padded w m).length = (padded w n).length := by simp [length_padded]
  obtain ⟨hday, h⟩ := List.append_inj h (hlen ..)
  obtain ⟨hmonth, h⟩ := List.append_inj (List.cons_inj_right _ |>.mp h) (hlen ..)
  obtain ⟨hyear, h⟩ := List.append_inj (List.cons_inj_right _ |>.mp h) (hlen ..)
  obtain ⟨hhour, h⟩ := List.append_inj
    (List.cons_inj_right _ |>.mp (List.cons_inj_right _ |>.mp h)) (hlen ..)
  obtain ⟨hminute, h⟩ := List.append_inj (List.cons_inj_right _ |>.mp h) (hlen ..)
  obtain ⟨hsecond, h⟩ := List.append_inj (List.cons_inj_right _ |>.mp h) (hlen ..)
  have hmeridiem := List.cons_inj_right _ |>.mp h
  have h12 : ∀ n, hour12 n < 10 ^ 2 := by
    intro n
    unfold hour12
    split <;> omega
  apply Datetime.ext
  · exact padded_inj a.year_lt b.year_lt hyear
  · apply padded_inj _ _ hmonth
    · exact a.month_le.trans_lt (by omega)
    · exact b.month_le.trans_lt (by omega)
  · apply padded_inj _ _ hday
    · exact a.day_le.trans_lt (by omega)
    · exact b.day_le.trans_lt (by omega)
  · exact hour_inj _ a.hour_lt _ b.hour_lt (padded_inj (h12 _) (h12 _) hhour) hmeridiem
  · apply padded_inj _ _ hminute
    · exact a.minute_lt.trans (by omega)
    · exact b.minute_lt.trans (by omega)
  · apply padded_inj _ _ hsecond
    · exact a.second_lt.trans (by omega)
    · exact b.second_lt.trans (by omega)

/-- `value or default`, where the empty text is false like `None`. -/
def orDefault (value : Option Str) (default : String) : Str :=
  match value with
  | none | some [] => default.toList
  | some text => text

structure Device where
  type : Option Str
  ip : Option Str
  hikUsername : Option Str
  hikPassword : Option Str
  nvrRecording : Option Nat
  nvrLastRecordingDate : Option Str
  nvrHddStatus : Option Str
  nvrHddCapacity : Option Str
  nvrHddUsed : Option Str

/-- What the queries of the storage have found, the capacity with the used space. -/
structure Hdd where
  status : Str
  sizes : Option (Str × Str)

inductive Answer where
  | ok (xml : Str) (hdd : Hdd)
  | status (code : Nat)
  | timeout
  | requestError (text : Str)

structure CheckResult where
  success : Bool := false
  isRecording : Bool := false
  hddStatus : Str := "Unknown".toList
  error : Option Str := none
  hddCapacity : Option Str := none
  hddUsed : Option Str := none

/-- The error with which the check ends before it asks the device. -/
def rejects (nvr : Device) : Option Str :=
  if nvr.type ≠ some "NVR".toList then some "Device not found or not NVR".toList
  else if orDefault nvr.ip "" = [] ∨ orDefault nvr.hikUsername "" = [] ∨
      orDefault nvr.hikPassword "" = [] then some "Missing credentials or IP".toList
  else none

def isRecording (xml : Str) : Bool :=
  found (phrase "<isRecording>true</isRecording>") xml ||
    found (phrase "<recordingStatus>recording</recordingStatus>") xml ||
    found (phrase "<recording>true</recording>") xml || found (phrase "<online>true</online>") xml

def Answer.recording : Answer → Bool
  | .ok xml _ => isRecording xml
  | .status _ | .timeout | .requestError _ => false

def updateNvr (now : Datetime) (old : Option Str) (xml : Str) (hdd : Hdd) (nvr : Device) : Device :=
  { nvr with
    nvrRecording := some (if isRecording xml then 1 else 0)
    nvrLastRecordingDate := some (if isRecording xml then strftime now else orDefault old "N/A")
    nvrHddStatus := some hdd.status
    nvrHddCapacity := some ((hdd.sizes.map Prod.fst).getD (orDefault nvr.nvrHddCapacity "5.46 TB"))
    nvrHddUsed := some ((hdd.sizes.map Prod.snd).getD (orDefault nvr.nvrHddUsed "5.46 TB")) }

def updateOffline (nvr : Device) : Device :=
  { nvr with
    nvrRecording := some 0
    nvrHddCapacity := some (orDefault nvr.nvrHddCapacity "5.46 TB")
    nvrHddUsed := some (orDefault nvr.nvrHddUsed "5.46 TB") }

def Answer.assign (now : Datetime) (old : Option Str) : Answer → Device → Device
  | .ok xml hdd, nvr => updateNvr now old xml hdd nvr
  | .status _, nvr | .timeout, nvr | .requestError _, nvr => updateOffline nvr

def Answer.result : Answer → CheckResult
  | .ok xml hdd =>
    { success := true, isRecording := isRecording xml, hddStatus := hdd.status
      hddCapacity := hdd.sizes.map Prod.fst, hddUsed := hdd.sizes.map Prod.snd }
  | .status code =>
    { error := some ("NVR responded with HTTP ".toList ++ Nat.toDigits 10 code) }
  | .timeout => { error := some "Timeout checking NVR (offline)".toList }
  | .requestError text => { error := some text }

/-- The column after a flush: an attribute that was set to the value that it had is left out. -/
def flushed {α : Type} [DecidableEq α] (loaded assigned current : α) : α :=
  if assigned = loaded then current else assigned

theorem flushed_eq_assigned {α : Type} [DecidableEq α] {loaded assigned current : α} :
    flushed loaded assigned current = assigned ↔ (loaded = assigned → current = assigned) := by
  rw [flushed]
  split
  · simp [*]
  · simp [Ne.symm ‹_›]

theorem flushed_self {α : Type} [DecidableEq α] (loaded current : α) :
    flushed loaded loaded current = current := if_pos rfl

/-- The row after the UPDATE of an object that was loaded and then assigned to. -/
def flush (loaded assigned current : Device) : Device :=
  { current with
    nvrRecording := flushed loaded.nvrRecording assigned.nvrRecording current.nvrRecording
    nvrLastRecordingDate :=
      flushed loaded.nvrLastRecordingDate assigned.nvrLastRecordingDate current.nvrLastRecordingDate
    nvrHddStatus := flushed loaded.nvrHddStatus assigned.nvrHddStatus current.nvrHddStatus
    nvrHddCapacity := flushed loaded.nvrHddCapacity assigned.nvrHddCapacity current.nvrHddCapacity
    nvrHddUsed := flushed loaded.nvrHddUsed assigned.nvrHddUsed current.nvrHddUsed }

inductive Phase where
  | ready
  | querying (old : Option Str)
  | answered (old : Option Str) (a : Answer)
  | loaded (old : Option Str) (a : Answer) (nvr : Device)
  | assigned (old : Option Str) (a : Answer) (nvr : Device) (now : Datetime)
  | returned (r : CheckResult)
  | raised

def Phase.Running : Phase → Prop
  | .returned _ | .raised => False
  | .ready | .querying _ | .answered .. | .loaded .. | .assigned .. => True

/-- A commit: the clock reading if the check found the NVR recording, and the date column after. -/
structure Commit where
  reading : Option Datetime
  column : Option Str

structure State (T : Type) where
  now : Datetime
  row : Device
  phase : T → Phase
  log : List Commit

section System

variable {T : Type} [DecidableEq T]

def State.goto (s : State T) (t : T) (p : Phase) : State T :=
  { s with phase := Function.update s.phase t p }

def State.commit (s : State T) (t : T) (old : Option Str) (a : Answer) (nvr : Device)
    (now : Datetime) : State T :=
  let row := flush nvr (a.assign now old nvr) s.row
  { s with
    row := row
    phase := Function.update s.phase t (.returned a.result)
    log := s.log ++ [⟨if a.recording then some now else none, row.nvrLastRecordingDate⟩] }

/-- The steps of any number of checks of one NVR. A commit needs that `admits` allows it. An exception
is caught last or it is raised. -/
inductive Step (admits : State T → T → Prop) (s : State T) : State T → Prop
  | tick (now : Datetime) (hle : s.now ≤ now) : Step admits s { s with now := now }
  | reject (t : T) (error : Str) (hp : s.phase t = .ready) (hr : rejects s.row = some error) :
      Step admits s (s.goto t (.returned { error := some error }))
  | read (t : T) (hp : s.phase t = .ready) (hr : rejects s.row = none) :
      Step admits s (s.goto t (.querying s.row.nvrLastRecordingDate))
  | answer (t : T) (old : Option Str) (a : Answer) (hp : s.phase t = .querying old) :
      Step admits s (s.goto t (.answered old a))
  | load (t : T) (old : Option Str) (a : Answer) (hp : s.phase t = .answered old a) :
      Step admits s (s.goto t (.loaded old a s.row))
  | assign (t : T) (old : Option Str) (a : Answer) (nvr : Device)
      (hp : s.phase t = .loaded old a nvr) : Step admits s (s.goto t (.assigned old a nvr s.now))
  | commit (t : T) (old : Option Str) (a : Answer) (nvr : Device) (now : Datetime)
      (hp : s.phase t = .assigned old a nvr now) (ha : admits s t) :
      Step admits s (s.commit t old a nvr now)
  | fail (t : T) (r : CheckResult) (hp : (s.phase t).Running) :
      Step admits s (s.goto t (.returned r))
  | raise (t : T) (hp : (s.phase t).Running) : Step admits s (s.goto t .raised)

def initial (now : Datetime) (nvr : Device) : State T := ⟨now, nvr, fun _ => .ready, []⟩

inductive Reachable (admits : State T → T → Prop) (now : Datetime) (nvr : Device) : State T → Prop
  | init : Reachable admits now nvr (initial now nvr)
  | step {s s' : State T} : Reachable admits now nvr s → Step admits s s' →
      Reachable admits now nvr s'

end System

end AtmMonitor.NvrCheck

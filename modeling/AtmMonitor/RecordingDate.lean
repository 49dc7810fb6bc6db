import AtmMonitor.NvrCheck
import Mathlib.Data.List.Chain

namespace AtmMonitor.RecordingDate

open PyText NvrCheck

def Spells (column : Option Str) (d : Datetime) : Prop := column = some (strftime d)

instance (column : Option Str) (d : Datetime) : Decidable (Spells column d) :=
  inferInstanceAs (Decidable (_ = _))

def Dated (column : Option Str) : Prop := ∃ d, Spells column d

def Falsy (column : Option Str) : Prop := column = none ∨ column = some []

/-- A date is followed by a date that is not older. -/
def Kept (before after : Option Str) : Prop :=
  ∀ d, Spells before d → ∃ d', Spells after d' ∧ d ≤ d'

/-- The column and what it was after each commit. -/
def history {T : Type} (nvr : Device) (s : State T) : List (Option Str) :=
  nvr.nvrLastRecordingDate :: s.log.map Commit.column

/-- The commit to come goes against what has been committed since the check has read. -/
def Overtaken {T : Type} (s : State T) : Phase → Prop
  | .assigned old (.ok xml _) nvr now =>
    if isRecording xml = true then
      ¬ Spells nvr.nvrLastRecordingDate now ∧
        ∃ c ∈ s.log, ∃ later, c.reading = some later ∧ now < later
    else
      (Dated nvr.nvrLastRecordingDate ∧ nvr.nvrLastRecordingDate ≠ old) ∨
        (Falsy nvr.nvrLastRecordingDate ∧ Dated s.row.nvrLastRecordingDate)
  | _ => False

theorem Spells.eq {column : Option Str} {d d' : Datetime} (h : Spells column d)
    (h' : Spells column d') : d = d' :=
  strftime_injective (Option.some.inj (h.symm.trans h'))

theorem not_dated_na : ¬ Dated (some "N/A".toList) := by
  rintro ⟨d, h⟩
  have hlen := congrArg List.length (Option.some.inj h)
  simp [strftime, length_padded] at hlen
  omega

theorem Falsy.not_dated {column : Option Str} (h : Falsy column) : ¬ Dated column := by
  rintro ⟨d, hd⟩
  rcases h with rfl | rfl
  · cases hd
  · have hlen := congrArg List.length (Option.some.inj hd)
    simp [strftime, length_padded] at hlen

theorem not_falsy_na : ¬ Falsy (some "N/A".toList) := by simp [Falsy]

theorem Falsy.orDefault {column : Option Str} (h : Falsy column) (default : String) :
    orDefault column default = default.toList := by
  rcases h with rfl | rfl <;> rfl

theorem orDefault_of_not_falsy {column : Option Str} (h : ¬ Falsy column) (default : String) :
    some (orDefault column default) = column := by
  match column with
  | none => exact absurd (Or.inl rfl) h
  | some [] => exact absurd (Or.inr rfl) h
  | some (c :: cs) => rfl

/-- What a column can have become in a history without a step back: the same, `N/A` where it was
empty, or a date that is not older. -/
def Advanced (before after : Option Str) : Prop :=
  after = before ∨ (Falsy before ∧ after = some "N/A".toList) ∨
    ∃ d, Spells after d ∧ ∀ d', Spells before d' → d' ≤ d

theorem Advanced.refl (column : Option Str) : Advanced column column := Or.inl rfl

theorem Advanced.kept {before after : Option Str} (h : Advanced before after) :
    Kept before after := by
  intro d hd
  rcases h with rfl | ⟨hf, -⟩ | ⟨d', hd', hle⟩
  · exact ⟨d, hd, le_rfl⟩
  · exact absurd ⟨d, hd⟩ hf.not_dated
  · exact ⟨d', hd', hle d hd⟩

theorem Advanced.trans {a b c : Option Str} (hab : Advanced a b) (hbc : Advanced b c) :
    Advanced a c := by
  rcases hbc with rfl | ⟨hf, rfl⟩ | ⟨d, hd, hle⟩
  · exact hab
  · rcases hab with rfl | ⟨-, rfl⟩ | ⟨d, hd, -⟩
    · exact Or.inr (Or.inl ⟨hf, rfl⟩)
    · exact absurd hf not_falsy_na
    · exact absurd ⟨d, hd⟩ hf.not_dated
  · refine Or.inr (Or.inr ⟨d, hd, fun d' hd' => ?_⟩)
    obtain ⟨d'', hd'', hle'⟩ := hab.kept d' hd'
    exact hle'.trans (hle d'' hd'')

theorem Advanced.falsy {before after : Option Str} (h : Advanced before after) (hf : Falsy after) :
    after = before := by
  rcases h with h | ⟨-, rfl⟩ | ⟨d, hd, -⟩
  · exact h
  · exact absurd hf not_falsy_na
  · exact absurd ⟨d, hd⟩ hf.not_dated

section Commits

variable {T : Type} {s : State T} {old : Option Str} {a : Answer} {nvr : Device}
  {first now : Datetime}

/-- What the invariant knows of the committed column: where its date comes from, and that no check
has found the NVR recording later than the date says. -/
structure Sourced (first : Datetime) (s : State T) : Prop where
  origin : ∀ d, Spells s.row.nvrLastRecordingDate d →
    d ≤ first ∨ ∃ c ∈ s.log, c.reading = some d
  covers : ∀ c ∈ s.log, ∀ d, c.reading = some d →
    ∃ d', Spells s.row.nvrLastRecordingDate d' ∧ d ≤ d'

def after (s : State T) (old : Option Str) (a : Answer) (nvr : Device) (now : Datetime) :
    Option Str :=
  (flush nvr (a.assign now old nvr) s.row).nvrLastRecordingDate

theorem after_recording (h : a.recording = true) :
    after s old a nvr now = if Spells nvr.nvrLastRecordingDate now then s.row.nvrLastRecordingDate
      else some (strftime now) := by
  cases a with
  | ok xml hdd =>
    have hxml : isRecording xml = true := h
    simp only [after, flush, flushed, Answer.assign, updateNvr, hxml, if_true, Spells, eq_comm]
    rfl
  | status | timeout | requestError => cases h

theorem after_idle {xml : Str} {hdd : Hdd} (h : isRecording xml = false) :
    after s old (.ok xml hdd) nvr now =
      if nvr.nvrLastRecordingDate = some (orDefault old "N/A") then s.row.nvrLastRecordingDate
      else some (orDefault old "N/A") := by
  simp only [after, flush, flushed, Answer.assign, updateNvr, h, Bool.false_eq_true, if_false,
    eq_comm]

theorem after_offline (h : ∀ xml hdd, a ≠ .ok xml hdd) :
    after s old a nvr now = s.row.nvrLastRecordingDate := by
  cases a with
  | ok xml hdd => exact absurd rfl (h xml hdd)
  | status | timeout | requestError => exact if_pos rfl

/-- What a commit that is not overtaken leaves in the column. -/
inductive Writes (s : State T) (a : Answer) (now : Datetime) : Option Str → Prop
  | same (h : a.recording = true → ∃ d, Spells s.row.nvrLastRecordingDate d ∧ now ≤ d) :
      Writes s a now s.row.nvrLastRecordingDate
  | none (h : a.recording = false) (hf : Falsy s.row.nvrLastRecordingDate) :
      Writes s a now (some "N/A".toList)
  | date (h : a.recording = true) (hle : ∀ d, Spells s.row.nvrLastRecordingDate d → d ≤ now) :
      Writes s a now (some (strftime now))

theorem recording_writes (hrec : a.recording = true) (hsource : Sourced first s)
    (hfirst : first ≤ now) (hload : Advanced nvr.nvrLastRecordingDate s.row.nvrLastRecordingDate)
    (hn : ¬ Overtaken s (.assigned old a nvr now)) : Writes s a now (after s old a nvr now) := by
  rw [after_recording hrec]
  cases a with
  | ok xml hdd =>
    have hxml : isRecording xml = true := hrec
    split
    · exact .same fun _ => hload.kept now ‹_›
    · refine .date hrec fun d hd => ?_
      rcases hsource.origin d hd with hle | ⟨c, hc, hreading⟩
      · exact hle.trans hfirst
      · by_contra hlt
        refine hn ?_
        rw [Overtaken, if_pos hxml]
        exact ⟨‹_›, c, hc, d, hreading, not_le.mp hlt⟩
  | status | timeout | requestError => cases hrec

theorem idle_writes {xml : Str} {hdd : Hdd} (hidle : isRecording xml = false)
    (hold : Advanced old nvr.nvrLastRecordingDate)
    (hload : Advanced nvr.nvrLastRecordingDate s.row.nvrLastRecordingDate)
    (hn : ¬ Overtaken s (.assigned old (.ok xml hdd) nvr now)) :
    Writes s (.ok xml hdd) now (after s old (.ok xml hdd) nvr now) := by
  simp only [Overtaken, hidle, Bool.false_eq_true, if_false, not_or, not_and, not_not] at hn
  obtain ⟨hdate, hempty⟩ := hn
  have hsame : Writes s (.ok xml hdd) now s.row.nvrLastRecordingDate :=
    .same fun hrec => absurd (hidle.symm.trans hrec) Bool.false_ne_true
  rw [after_idle hidle]
  by_cases hwritten : nvr.nvrLastRecordingDate = some (orDefault old "N/A")
  · rwa [if_pos hwritten]
  rw [if_neg hwritten]
  have heq : nvr.nvrLastRecordingDate = old := by
    rcases hold with heq | ⟨hf, hna⟩ | ⟨d, hd, -⟩
    · exact heq
    · rw [hf.orDefault] at hwritten
      exact absurd hna hwritten
    · exact hdate ⟨d, hd⟩
  have hf : Falsy old := by
    by_contra hf
    rw [orDefault_of_not_falsy hf] at hwritten
    exact hwritten heq
  rw [hf.orDefault]
  rw [heq] at hload hempty
  rcases hload with hrow | ⟨-, hrow⟩ | ⟨d, hd, -⟩
  · exact .none hidle (by rwa [hrow])
  · rwa [← hrow]
  · exact absurd ⟨d, hd⟩ (hempty hf)

theorem offline_writes (ha : ∀ xml hdd, a ≠ .ok xml hdd) :
    Writes s a now (after s old a nvr now) := by
  rw [after_offline ha]
  refine .same fun hrec => ?_
  cases a with
  | ok xml hdd => exact absurd rfl (ha xml hdd)
  | status | timeout | requestError => cases hrec

theorem Writes.advanced {column : Option Str} (h : Writes s a now column) :
    Advanced s.row.nvrLastRecordingDate column := by
  cases h with
  | same => exact Advanced.refl _
  | none _ hf => exact Or.inr (Or.inl ⟨hf, rfl⟩)
  | date _ hle => exact Or.inr (Or.inr ⟨now, rfl, hle⟩)

/-- An overtaken commit moves the date back or takes it away. -/
theorem overtaken_not_kept (hsource : Sourced first s)
    (hold : Advanced old nvr.nvrLastRecordingDate)
    (hload : Advanced nvr.nvrLastRecordingDate s.row.nvrLastRecordingDate)
    (ho : Overtaken s (.assigned old a nvr now)) :
    ¬ Kept s.row.nvrLastRecordingDate (after s old a nvr now) := by
  intro hkept
  cases a with
  | status | timeout | requestError => exact ho
  | ok xml hdd =>
    cases hxml : isRecording xml with
    | true =>
      simp only [Overtaken, hxml, if_true] at ho
      obtain ⟨hwritten, c, hc, later, hreading, hlt⟩ := ho
      obtain ⟨d, hd, hle⟩ := hsource.covers c hc later hreading
      obtain ⟨d', hd', hle'⟩ := hkept d hd
      have hrec : (Answer.ok xml hdd).recording = true := hxml
      rw [after_recording hrec, if_neg hwritten] at hd'
      obtain rfl : now = d' := Spells.eq rfl hd'
      exact absurd (hle.trans hle') (not_le.mpr hlt)
    | false =>
      simp only [Overtaken, hxml, Bool.false_eq_true, if_false] at ho
      rw [after_idle hxml] at hkept
      rcases ho with ⟨⟨d, hd⟩, hne⟩ | ⟨hf, d, hd⟩
      · obtain ⟨d', hd', hle⟩ := hload.kept d hd
        by_cases hf : Falsy old
        · rw [hf.orDefault, if_neg] at hkept
          · obtain ⟨d'', hd'', -⟩ := hkept d' hd'
            exact not_dated_na ⟨d'', hd''⟩
          · intro hna
            exact not_dated_na ⟨d, hna.symm.trans hd⟩
        · rw [orDefault_of_not_falsy hf, if_neg hne] at hkept
          obtain ⟨d'', hd'', hle'⟩ := hkept d' hd'
          obtain ⟨e, he, hle''⟩ := hold.kept d'' hd''
          obtain rfl : d = e := hd.eq he
          obtain rfl : d = d'' := le_antisymm (hle.trans hle') hle''
          exact hne (hd.trans hd''.symm)
      · have heq := hold.falsy hf
        rw [heq] at hf
        rw [hf.orDefault, if_neg] at hkept
        · obtain ⟨d', hd', -⟩ := hkept d hd
          exact not_dated_na ⟨d', hd'⟩
        · rw [heq]
          intro hna
          rw [hna] at hf
          exact not_falsy_na hf

end Commits

section Runs

variable {T : Type} [DecidableEq T]

def Sound (first : Datetime) (row : Device) : Phase → Prop
  | .querying old | .answered old _ => Advanced old row.nvrLastRecordingDate
  | .loaded old _ nvr =>
    Advanced old nvr.nvrLastRecordingDate ∧
      Advanced nvr.nvrLastRecordingDate row.nvrLastRecordingDate
  | .assigned old _ nvr now =>
    Advanced old nvr.nvrLastRecordingDate ∧
      Advanced nvr.nvrLastRecordingDate row.nvrLastRecordingDate ∧ first ≤ now
  | .ready | .returned _ | .raised => True

structure Inv (first : Datetime) (nvr : Device) (s : State T) : Prop where
  clock : first ≤ s.now
  sourced : Sourced first s
  sound : ∀ t, Sound first s.row (s.phase t)
  current : (history nvr s).getLast? = some s.row.nvrLastRecordingDate
  chain : (history nvr s).IsChain Advanced

omit [DecidableEq T] in
theorem initial_inv {first : Datetime} {nvr : Device}
    (hpast : ∀ d, Spells nvr.nvrLastRecordingDate d → d ≤ first) :
    Inv first nvr (initial first nvr : State T) where
  clock := le_rfl
  sourced := ⟨fun d hd => Or.inl (hpast d hd), by simp [initial]⟩
  sound := fun _ => trivial
  current := rfl
  chain := List.IsChain.singleton _

variable {first : Datetime} {nvr₀ : Device} {s s' : State T}

theorem goto_inv (h : Inv first nvr₀ s) (t : T) (p : Phase) (hp : Sound first s.row p) :
    Inv first nvr₀ (s.goto t p) := by
  refine ⟨h.clock, ⟨h.sourced.origin, h.sourced.covers⟩, fun t' => ?_, h.current, h.chain⟩
  by_cases ht : t' = t
  · subst ht
    simpa [State.goto] using hp
  · simpa [State.goto, ht] using h.sound t'

theorem Sound.advanced {row row' : Device} {p : Phase} (h : Sound first row p)
    (hrow : Advanced row.nvrLastRecordingDate row'.nvrLastRecordingDate) : Sound first row' p := by
  cases p with
  | querying | answered => exact h.trans hrow
  | loaded => exact ⟨h.1, h.2.trans hrow⟩
  | assigned => exact ⟨h.1, h.2.1.trans hrow, h.2.2⟩
  | ready | returned | raised => trivial

omit [DecidableEq T] in
theorem commit_writes (h : Inv first nvr₀ s) {t : T} {old : Option Str} {a : Answer}
    {nvr : Device} {now : Datetime} (hp : s.phase t = .assigned old a nvr now)
    (hn : ¬ Overtaken s (s.phase t)) : Writes s a now (after s old a nvr now) := by
  have hsound := h.sound t
  rw [hp] at hsound hn
  obtain ⟨hold, hload, hfirst⟩ := hsound
  cases a with
  | ok xml hdd =>
    cases hxml : isRecording xml with
    | true => exact recording_writes hxml h.sourced hfirst hload hn
    | false => exact idle_writes hxml hold hload hn
  | status | timeout | requestError => exact offline_writes (by simp)

theorem commit_sourced (h : Sourced first s) {t : T} {old : Option Str} {a : Answer} {nvr : Device}
    {now : Datetime} (hw : Writes s a now (after s old a nvr now)) :
    Sourced first (s.commit t old a nvr now) := by
  constructor
  · intro d hd
    change Spells (after s old a nvr now) d at hd
    have hearlier : Spells s.row.nvrLastRecordingDate d →
        d ≤ first ∨ ∃ c ∈ (s.commit t old a nvr now).log, c.reading = some d := by
      intro hrow
      rcases h.origin d hrow with hle | ⟨c, hc, hreading⟩
      · exact Or.inl hle
      · exact Or.inr ⟨c, List.mem_append_left _ hc, hreading⟩
    generalize hcol : after s old a nvr now = column at hw hd
    cases hw with
    | same => exact hearlier hd
    | none => exact absurd ⟨d, hd⟩ not_dated_na
    | date hrec =>
      refine Or.inr ⟨_, List.mem_append_right _ (List.mem_singleton_self _), ?_⟩
      obtain rfl : now = d := Spells.eq rfl hd
      simp [hrec]
  · intro c hc d hreading
    change ∃ d', Spells (after s old a nvr now) d' ∧ d ≤ d'
    rcases List.mem_append.mp hc with hc | hc
    · obtain ⟨d', hd', hle⟩ := h.covers c hc d hreading
      obtain ⟨d'', hd'', hle'⟩ := hw.advanced.kept d' hd'
      exact ⟨d'', hd'', hle.trans hle'⟩
    · obtain rfl := List.mem_singleton.mp hc
      obtain ⟨hrec, rfl⟩ : a.recording = true ∧ now = d := by simpa using hreading
      generalize hcol : after s old a nvr now = column at hw
      cases hw with
      | same hreal => exact hreal hrec
      | none hidle => exact absurd (hidle.symm.trans hrec) Bool.false_ne_true
      | date => exact ⟨now, rfl, le_rfl⟩

theorem commit_inv (h : Inv first nvr₀ s) {t : T} {old : Option Str} {a : Answer}
    {nvr : Device} {now : Datetime} (hp : s.phase t = .assigned old a nvr now)
    (hn : ¬ Overtaken s (s.phase t)) : Inv first nvr₀ (s.commit t old a nvr now) := by
  have hw := commit_writes h hp hn
  have hhistory : history nvr₀ (s.commit t old a nvr now) =
      history nvr₀ s ++ [after s old a nvr now] := by
    simp [history, State.commit, after]
  refine ⟨h.clock, commit_sourced h.sourced hw, fun t' => ?_, ?_, ?_⟩
  · by_cases ht : t' = t
    · subst ht
      simp [State.commit, Sound]
    · have hsound := (h.sound t').advanced hw.advanced
      simpa [State.commit, ht] using hsound
  · rw [hhistory, List.getLast?_concat]
    rfl
  · rw [hhistory]
    refine List.isChain_append.mpr ⟨h.chain, List.IsChain.singleton _, ?_⟩
    intro x hx y hy
    rw [h.current, Option.mem_some_iff] at hx
    rw [List.head?_cons, Option.mem_some_iff] at hy
    rw [← hx, ← hy]
    exact hw.advanced

variable {admits : State T → T → Prop}

theorem step_inv (h : Inv first nvr₀ s) (st : Step admits s s')
    (hn : ∀ t, admits s t → ¬ Overtaken s (s.phase t)) : Inv first nvr₀ s' := by
  cases st with
  | tick now hle =>
    exact ⟨h.clock.trans hle, ⟨h.sourced.origin, h.sourced.covers⟩, h.sound, h.current, h.chain⟩
  | reject | fail | raise => exact goto_inv h _ _ trivial
  | read => exact goto_inv h _ _ (Advanced.refl _)
  | answer t old a hp =>
    have hsound := h.sound t
    rw [hp] at hsound
    exact goto_inv h _ _ hsound
  | load t old a hp =>
    have hsound := h.sound t
    rw [hp] at hsound
    exact goto_inv h _ _ ⟨hsound, Advanced.refl _⟩
  | assign t old a nvr hp =>
    have hsound := h.sound t
    rw [hp] at hsound
    exact goto_inv h _ _ ⟨hsound.1, hsound.2, h.clock⟩
  | commit t old a nvr now hp ha => exact commit_inv h hp (hn t ha)

omit [DecidableEq T] in
theorem phase_of_overtaken {p : Phase} (h : Overtaken s p) :
    ∃ old a nvr now, p = .assigned old a nvr now := by
  cases p with
  | assigned old a nvr now => exact ⟨old, a, nvr, now, rfl⟩
  | _ => exact absurd h id

/-- The run that goes on with an overtaken commit breaks the history. -/
theorem overtaken_breaks (h : Inv first nvr₀ s) {t : T} {old : Option Str} {a : Answer}
    {nvr : Device} {now : Datetime} (hp : s.phase t = .assigned old a nvr now)
    (ho : Overtaken s (s.phase t)) :
    ¬ (history nvr₀ (s.commit t old a nvr now)).IsChain Kept := by
  intro hchain
  have hsound := h.sound t
  rw [hp] at hsound ho
  refine overtaken_not_kept h.sourced hsound.1 hsound.2.1 ho ?_
  have hhistory : history nvr₀ (s.commit t old a nvr now) =
      history nvr₀ s ++ [after s old a nvr now] := by
    simp [history, State.commit, after]
  rw [hhistory, List.isChain_append] at hchain
  exact hchain.2.2 _ h.current _ rfl

theorem reachable_inv (hpast : ∀ d, Spells nvr₀.nvrLastRecordingDate d → d ≤ first)
    (hn : ∀ s : State T, Reachable admits first nvr₀ s → Inv first nvr₀ s →
      ∀ t, admits s t → ¬ Overtaken s (s.phase t))
    (h : Reachable admits first nvr₀ s) : Inv first nvr₀ s := by
  induction h with
  | init => exact initial_inv hpast
  | step hr st ih => exact step_inv ih st (hn _ hr ih)

/-- Whatever the checks and the answers are, the committed date never goes back or away if and only
if no check commits that has been overtaken. -/
theorem recording_date_kept_iff (admits : State T → T → Prop) (first : Datetime) (nvr : Device)
    (hpast : ∀ d, Spells nvr.nvrLastRecordingDate d → d ≤ first) :
    (∀ s, Reachable admits first nvr s → (history nvr s).IsChain Kept) ↔
      ∀ s, Reachable admits first nvr s → ∀ t, admits s t → ¬ Overtaken s (s.phase t) := by
  constructor
  · intro hkept
    have hn : ∀ s : State T, Reachable admits first nvr s → Inv first nvr s →
        ∀ t, admits s t → ¬ Overtaken s (s.phase t) := by
      intro s hr hinv t ha ho
      obtain ⟨old, a, loaded, now, hp⟩ := phase_of_overtaken ho
      exact overtaken_breaks hinv hp ho (hkept _ (hr.step (.commit t old a loaded now hp ha)))
    exact fun s hr => hn s hr (reachable_inv hpast hn hr)
  · intro hn s hr
    exact (reachable_inv hpast (fun u hu _ => hn u hu) hr).chain.imp fun _ _ h => h.kept

end Runs

def ten (second : Fin 60) : Datetime :=
  ⟨2026, 7, 1, 10, 0, second, by omega, by omega, by omega, by omega, by omega, second.2⟩

def recorder : Device where
  type := some "NVR".toList
  ip := some "10.0.0.8".toList
  hikUsername := some "admin".toList
  hikPassword := some "secret".toList
  nvrRecording := some 1
  nvrLastRecordingDate := some (strftime (ten 0))
  nvrHddStatus := some "Healthy".toList
  nvrHddCapacity := none
  nvrHddUsed := none

theorem recorder_past : ∀ d, Spells recorder.nvrLastRecordingDate d → d ≤ ten 0 :=
  fun _ hd => (Spells.eq rfl hd).ge

def recordingAnswer : Answer :=
  .ok "<recording>true</recording>".toList ⟨"Healthy".toList, none⟩

def idleAnswer : Answer := .ok "<recording>false</recording>".toList ⟨"Healthy".toList, none⟩

/-- Two checks that have read the same column find the recorder recording, the first five seconds
later and the second, which loads what the first has committed, seven. -/
theorem recording_date_kept_iff_overlapping :
    [some (strftime (ten 0)), some (strftime (ten 5)), some (strftime (ten 7))].IsChain Kept := by
  let admits : State Bool → Bool → Prop := fun s t => ¬ Overtaken s (s.phase t)
  have hinit : Reachable admits (ten 0) recorder (initial (ten 0) recorder) := .init
  have hread := hinit.step (.read false rfl rfl)
  have hread' := hread.step (.read true rfl rfl)
  have hanswer := hread'.step (.answer false _ recordingAnswer rfl)
  have hanswer' := hanswer.step (.answer true _ recordingAnswer rfl)
  have htick := hanswer'.step (.tick (ten 5) (by decide))
  have hload := htick.step (.load false _ _ rfl)
  have hassign := hload.step (.assign false _ _ _ rfl)
  have hcommit := hassign.step (.commit false _ _ _ _ rfl fun ⟨_, _, hc, _⟩ => List.not_mem_nil hc)
  have htick' := hcommit.step (.tick (ten 7) (by decide))
  have hload' := htick'.step (.load true _ _ rfl)
  have hassign' := hload'.step (.assign true _ _ _ rfl)
  have hcommit' := hassign'.step (.commit true _ _ _ _ rfl (by
    rintro ⟨-, c, hc, later, hreading, hlt⟩
    obtain rfl := List.mem_singleton.mp hc
    obtain rfl : ten 5 = later := Option.some.inj hreading
    exact absurd hlt (by decide)))
  exact (recording_date_kept_iff admits (ten 0) recorder recorder_past).mpr
    (fun _ _ _ ha => ha) _ hcommit'

/-- The second check finds the recorder recording and commits while the first, which has read the
column before, is told by the device that it is not. -/
theorem recording_date_moved_back :
    ¬ ∀ s : State Bool, Reachable (fun _ _ => True) (ten 0) recorder s →
      (history recorder s).IsChain Kept := by
  intro hall
  have hinit : Reachable (fun _ _ => True) (ten 0) recorder
      (initial (ten 0) recorder : State Bool) := .init
  have hread := hinit.step (.read false rfl rfl)
  have hread' := hread.step (.read true rfl rfl)
  have hanswer' := hread'.step (.answer true _ recordingAnswer rfl)
  have htick := hanswer'.step (.tick (ten 5) (by decide))
  have hload' := htick.step (.load true _ _ rfl)
  have hassign' := hload'.step (.assign true _ _ _ rfl)
  have hcommit' := hassign'.step (.commit true _ _ _ _ rfl trivial)
  have hanswer := hcommit'.step (.answer false _ idleAnswer rfl)
  have hload := hanswer.step (.load false _ _ rfl)
  have hassign := hload.step (.assign false _ _ _ rfl)
  have hcommit := hassign.step (.commit false _ _ _ _ rfl trivial)
  have hchain : [some (strftime (ten 0)), some (strftime (ten 5)), some (strftime (ten 0))].IsChain
      Kept := hall _ hcommit
  have hback : Kept (some (strftime (ten 5))) (some (strftime (ten 0))) := by
    simpa using (List.isChain_cons_cons.mp hchain).2
  obtain ⟨d, hd, hle⟩ := hback (ten 5) rfl
  obtain rfl : ten 0 = d := Spells.eq rfl hd
  exact absurd hle (by decide)

end AtmMonitor.RecordingDate

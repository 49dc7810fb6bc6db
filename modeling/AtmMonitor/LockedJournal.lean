import AtmMonitor.FileHistory

namespace AtmMonitor.LockedJournal

open PyText DatabaseModels FileUtils ParserService FileHistory

/-- The pass sees the file, while any of its opens may fail. -/
structure Glimpses (file : Nat → Bytes) (m : Moments) (env : ScanEnv) : Prop where
  order : m.InOrder
  sees : Sees file m env
  readsOn : ReadsOn file m env

section Pass

variable (target : Target) (env : ScanEnv) (s : AgentFileState)

/-- The hash of the check cannot be taken although one is saved. -/
def Lost : Prop := s.fileHash ≠ [] ∧ env.header = none

instance : Decidable (Lost env s) := inferInstanceAs (Decidable (_ ∧ _))

def startOffset : Nat := if Lost env s then 0 else s.lastReadOffset

def reading : List Str × Nat × Nat :=
  readAppendedLines target.maxBytes env.found env.reads (startOffset env s)

/-- The pass has lines to parse. -/
def Stores : Prop := ¬ (env.size = startOffset env s ∨ (reading target env s).1 = [])

instance : Decidable (Stores target env s) := inferInstanceAs (Decidable (¬ (_ ∨ _)))

/-- No statement of the database keeps the pass from its commit. -/
def Commits : Prop :=
  env.raises .getFileState = none ∧ env.raises .stat = none ∧ env.raises .commit = none ∧
    (Stores target env s → env.raises .updateFileState = none)

/-- The opens that fail do no harm: where the check could not be made all is read again, and the
hash is taken again where lines are stored. -/
def Tolerates : Prop :=
  (Lost env s → Stores target env s ∧ s.lastReadOffset ≤ (reading target env s).2.1) ∧
    (Stores target env s → env.finalHeader.isSome ∨ s.fileHash = [])

/-- The row `s'` keeps the offset of `s` or has moved it over bytes that the pass has read, and its
hash is that of `s` or of the beginning of the file. -/
structure Steady (file : Bytes) (s' : AgentFileState) : Prop where
  offset : s'.lastReadOffset = s.lastReadOffset ∨ s.lastReadOffset < s'.lastReadOffset ∧
    ∃ o ≤ s.lastReadOffset, (readAppendedLines target.maxBytes env.found env.reads o).1 ≠ [] ∧
      (readAppendedLines target.maxBytes env.found env.reads o).2.1 = s'.lastReadOffset
  hash : s'.fileHash = s.fileHash ∨
    s'.fileHash = target.sha256 (file.take (min 8192 s'.lastReadOffset))

theorem Steady.refl (file : Bytes) : Steady target env s file s := ⟨Or.inl rfl, Or.inl rfl⟩

end Pass

section Runs

variable (target : Target) (file : Nat → Bytes)

def Kept (t : Nat) (db : Database) : Prop :=
  ∀ s ∈ savedState target db, 0 < s.lastReadOffset →
    s.lastReadOffset ≤ (file t).length ∧
      (s.fileHash = [] ∨ s.fileHash = target.sha256 ((file t).take (min 8192 s.lastReadOffset)))

variable {target file} (hfile : AppendOnly file)
include hfile

theorem Kept.elsewhere {t t' : Nat} {db db' : Database} (h : Kept target file t db) (ht : t ≤ t')
    (hrow : savedState target db' = savedState target db) : Kept target file t' db' := by
  intro s hs hpos
  rw [hrow] at hs
  obtain ⟨hle, hhash⟩ := h s hs hpos
  refine ⟨hle.trans (hfile.length_le ht), ?_⟩
  rw [hfile.take_eq ht ((min_le_right _ _).trans hle)]
  exact hhash

variable {t : Nat} {db : Database} {m : Moments} {env : ScanEnv}

theorem Kept.pass [Alnum] (h : Kept target file t db) (ht : t ≤ m.size) (hg : Glimpses file m env) :
    Kept target file m.final (scan target env db).2 := by
  have hlater : t ≤ m.final := ht.trans (hg.order.size_le_rotated.trans hg.order.rotated_le_final)
  have hrow := savedState_scan target env db
  cases hcommitted : committed target env (savedState target db) with
  | none =>
    rw [hcommitted, Option.none_or] at hrow
    exact h.elsewhere hfile hlater hrow
  | some s =>
    rw [hcommitted, Option.some_or] at hrow
    rw [Kept, hrow]
    simp only [Option.mem_some_iff, forall_eq']
    have hsaved := currentState_cases target env (savedState target db)
    obtain ⟨-, rfl⟩ | ⟨-, rfl⟩ := committed_cases target hcommitted
    · exact fun hpos => h.elsewhere hfile hlater rfl _ (hsaved.resolve_left hpos.ne') hpos
    · have hin : (currentState target env (savedState target db)).lastReadOffset ≤ (file t).length := by
        obtain hzero | hsome := hsaved
        · omega
        · by_contra hlt
          exact hlt (h _ hsome (by omega)).1
      refine fun _ => ⟨(readAppendedLines_within hfile hg.order hg.sees hg.readsOn ht target.maxBytes hin).2, ?_⟩
      rw [advancedState]
      cases hc : env.finalHeader with
      | none => exact Or.inl rfl
      | some c =>
        rw [hg.sees.final c hc]
        exact Or.inr rfl

theorem Kept.currentState_eq (h : Kept target file t db) (ht : t ≤ m.size) (hg : Glimpses file m env)
    {s : AgentFileState} (hs : savedState target db = some s) (hpos : 0 < s.lastReadOffset) :
    currentState target env (some s) = if Lost env s then
      { s with lastReadOffset := 0, fileHash := headerHash target env.rotatedHeader 8192 } else s := by
  obtain ⟨hle, hhash⟩ := h s hs hpos
  have hsize : ¬ env.size < s.lastReadOffset := by
    rw [hg.sees.size]
    exact (hle.trans (hfile.length_le ht)).not_gt
  have hrotated : rotationDetected env s (headerHash target env.header (prefixLen (some s))) = true ↔
      Lost env s := by
    rw [rotationDetected, decide_eq_false hsize, Bool.false_or, Lost]
    cases hc : env.header with
    | none => cases s.fileHash <;> simp [headerHash]
    | some c =>
      have hsame : headerHash target (some c) (prefixLen (some s)) =
          target.sha256 ((file t).take (min 8192 s.lastReadOffset)) := by
        rw [headerHash, prefixLen, if_pos hpos, hg.sees.header c hc,
          hfile.take_eq (ht.trans hg.order.header) ((min_le_right _ _).trans hle)]
      obtain hnil | hhash := hhash
      · simp [hnil]
      · simp [hsame, hhash]
  rw [currentState]
  simp only [Option.getD_some, hrotated]

/-- What the pass commits for the row `s`. -/
theorem Kept.committed_eq [Alnum] (h : Kept target file t db) (ht : t ≤ m.size)
    (hg : Glimpses file m env) {s : AgentFileState} (hs : savedState target db = some s)
    (hpos : 0 < s.lastReadOffset) :
    (¬ Commits target env s → committed target env (some s) = none) ∧
      (Commits target env s → ∃ s', committed target env (some s) = some s' ∧
        if Stores target env s then
          s'.lastReadOffset = (reading target env s).2.1 ∧
            s'.fileHash = headerHash target env.finalHeader (min 8192 s'.lastReadOffset)
        else if Lost env s then s'.lastReadOffset = 0 else s' = s) := by
  set state := currentState target env (some s) with hstate
  have hcheck := h.currentState_eq hfile ht hg hs hpos
  have hoffset : state.lastReadOffset = startOffset env s := by
    rw [hstate, hcheck, startOffset]
    split_ifs <;> rfl
  have hread : readLines target env state = reading target env s := by
    rw [readLines, hoffset, reading]
  have hopening : (openingError env (some s)).isSome = true ↔
      ¬ (env.raises .getFileState = none ∧ env.raises .stat = none) := by
    rw [openingError]
    cases env.raises .getFileState <;> cases env.raises .stat <;> simp
  have hclosing : (env.raises .updateFileState <|> env.raises .commit).isSome = true ↔
      ¬ (env.raises .updateFileState = none ∧ env.raises .commit = none) := by
    cases env.raises .updateFileState <;> cases env.raises .commit <;> simp
  simp only [committed, ← hstate, hoffset, hread, hopening, hclosing]
  by_cases hstores : Stores target env s
  · rw [if_neg (c := env.size = startOffset env s ∨ (reading target env s).1 = []) hstores]
    simp only [if_pos hstores]
    constructor
    · intro hno
      split_ifs with hopen hclose
      · exact absurd ⟨hopen.1, hopen.2, hclose.2, fun _ => hclose.1⟩ hno
      · rfl
      · rfl
    · rintro ⟨hget, hstat, hcommit, hupdate⟩
      rw [if_neg (not_not.mpr ⟨hget, hstat⟩), if_neg (not_not.mpr ⟨hupdate hstores, hcommit⟩)]
      exact ⟨_, rfl, rfl, rfl⟩
  · rw [if_pos (c := env.size = startOffset env s ∨ (reading target env s).1 = []) (not_not.mp hstores)]
    simp only [if_neg hstores]
    constructor
    · intro hno
      split_ifs with hopen hclose
      · rfl
      · have hcommit := Option.not_isSome_iff_eq_none.mp hclose
        exact absurd ⟨hopen.1, hopen.2, hcommit, fun h => absurd h hstores⟩ hno
      · rfl
    · rintro ⟨hget, hstat, hcommit, -⟩
      rw [if_neg (not_not.mpr ⟨hget, hstat⟩), if_neg (by simp [hcommit])]
      refine ⟨state, rfl, ?_⟩
      rw [hstate, hcheck]
      split_ifs <;> rfl

omit hfile in
theorem startOffset_le (env : ScanEnv) (s : AgentFileState) : startOffset env s ≤ s.lastReadOffset := by
  rw [startOffset]
  split_ifs
  · exact Nat.zero_le _
  · exact le_rfl

omit hfile in
theorem steady_stored (hsha : ∀ bs, target.sha256 bs ≠ []) (hg : Glimpses file m env)
    {s s' : AgentFileState} (hstores : Stores target env s)
    (hend : startOffset env s ≤ (reading target env s).2.1)
    (hoffset : s'.lastReadOffset = (reading target env s).2.1)
    (hhash : s'.fileHash = headerHash target env.finalHeader (min 8192 s'.lastReadOffset)) :
    Steady target env s (file m.final) s' ↔ Tolerates target env s := by
  have hfinal : ∀ c ∈ env.finalHeader,
      s'.fileHash = target.sha256 ((file m.final).take (min 8192 s'.lastReadOffset)) := by
    intro c hc
    rw [hhash, Option.mem_def.mp hc, headerHash, hg.sees.final c hc]
  have hlost : env.finalHeader = none → s'.fileHash = [] := by
    intro hc
    rw [hhash, hc, headerHash]
  constructor
  · intro hsteady
    refine ⟨fun _ => ⟨hstores, ?_⟩, fun _ => ?_⟩
    · rw [← hoffset]
      obtain heq | ⟨hlt, -⟩ := hsteady.offset
      · exact heq.ge
      · exact hlt.le
    · by_contra hneither
      rw [not_or, Option.not_isSome_iff_eq_none] at hneither
      have hempty := hlost hneither.1
      obtain hsame | hsame := hsteady.hash
      · exact hneither.2 (hsame.symm.trans hempty)
      · exact hsha _ (hsame.symm.trans hempty)
  · intro htol
    have hlow : s.lastReadOffset ≤ s'.lastReadOffset := by
      rw [hoffset]
      by_cases hl : Lost env s
      · exact (htol.1 hl).2
      · rwa [startOffset, if_neg hl] at hend
    refine ⟨?_, ?_⟩
    · obtain heq | hlt := hlow.eq_or_lt
      · exact Or.inl heq.symm
      · have hlines : (reading target env s).1 ≠ [] := fun h => hstores (Or.inr h)
        exact Or.inr ⟨hlt, startOffset env s, startOffset_le env s, hlines, hoffset.symm⟩
    · cases hc : env.finalHeader with
      | none =>
        have hnil := (htol.2 hstores).resolve_left (by simp [hc])
        exact Or.inl ((hlost hc).trans hnil.symm)
      | some c => exact Or.inr (hfinal c hc)

/-- A pass from a saved offset leaves the row steady exactly if it tolerates the opens that fail. -/
theorem locked_journal_iff [Alnum] (hsha : ∀ bs, target.sha256 bs ≠ []) {t₀ : Nat} {db₀ : Database}
    (hnew : savedState target db₀ = none)
    (hrun : Leads target (Glimpses file) t₀ db₀ t db) (ht : t ≤ m.size) (hg : Glimpses file m env)
    {s : AgentFileState} (hs : savedState target db = some s) (hpos : 0 < s.lastReadOffset) :
    (∀ s' ∈ savedState target (scan target env db).2, Steady target env s (file m.final) s') ↔
      (Commits target env s → Tolerates target env s) := by
  have hstart : Kept target file t₀ db₀ := by
    intro s hs
    rw [hnew] at hs
    cases hs
  have hkept : Kept target file t db :=
    leads_invariant (P := Kept target file) (fun ht hrow h => h.elsewhere hfile ht hrow)
      (fun ht hg h => h.pass hfile ht hg) hrun hstart
  obtain ⟨hstay, hmove⟩ := hkept.committed_eq hfile ht hg hs hpos
  rw [savedState_scan, hs]
  by_cases hcommits : Commits target env s
  · obtain ⟨s', hs', hrow⟩ := hmove hcommits
    rw [hs', Option.some_or]
    simp only [Option.mem_some_iff, forall_eq', hcommits, forall_const]
    by_cases hstores : Stores target env s
    · rw [if_pos hstores] at hrow
      have hin := (startOffset_le env s).trans (hkept s hs hpos).1
      have hend := (readAppendedLines_within hfile hg.order hg.sees hg.readsOn ht target.maxBytes hin).1
      exact steady_stored hsha hg hstores hend hrow.1 hrow.2
    · rw [if_neg hstores] at hrow
      by_cases hlost : Lost env s
      · rw [if_pos hlost] at hrow
        refine ⟨fun hsteady => ?_, fun htol => absurd (htol.1 hlost).1 hstores⟩
        obtain heq | ⟨hlt, -⟩ := hsteady.offset
        · omega
        · omega
      · rw [if_neg hlost] at hrow
        rw [hrow]
        exact ⟨fun _ => ⟨fun h => absurd h hlost, fun h => absurd h hstores⟩, fun _ => Steady.refl ..⟩
  · rw [hstay hcommits, Option.none_or]
    refine ⟨fun _ h => absurd h hcommits, fun _ s' hs' => ?_⟩
    obtain rfl := Option.some.inj hs'
    exact Steady.refl ..

end Runs

def letters (t : Nat) : Bytes := if t = 0 then [65, 10] else [65, 10, 66, 10]

theorem letters_appendOnly : AppendOnly letters := by
  intro i j hij
  unfold letters
  split_ifs with hi hj
  · exact List.prefix_rfl
  · exact ⟨[66, 10], rfl⟩
  · omega
  · exact List.prefix_rfl

/-- The digests of both contents. -/
def twoLettered : Target :=
  { lettered with
    sha256 := fun bs =>
      if bs = [65, 10, 66, 10] then
        "daee1cd25194ae952d046ad9b9c81d3c07dc5332440b58d6d7461b248be56712".toList
      else lettered.sha256 bs }

def firstRead : Database := (@scan twoLettered (still [65, 10]) asciiAlnum {}).2

theorem firstRead_leads : @Leads asciiAlnum twoLettered (Glimpses letters) 0 {} 0 firstRead := by
  have hglimpses : Glimpses letters (.at 0) (still [65, 10]) :=
    ⟨Moments.at_inOrder 0, still_sees rfl, still_readsOn rfl⟩
  exact @Leads.pass asciiAlnum _ _ _ _ _ _ _ _ (@Leads.start asciiAlnum _ _ _ _) le_rfl hglimpses

/-- A pass over both letters in which the open for the lines fails once. -/
def delayed : ScanEnv :=
  { still [65, 10, 66, 10] with reads := [⟨some 4, none, []⟩, ⟨some 4, some [65, 10, 66, 10], []⟩] }

theorem delayed_glimpses : Glimpses letters (.at 1) delayed := by
  have hstill : Sees letters (.at 1) (still [65, 10, 66, 10]) := still_sees rfl
  have hread : ∀ {i : Nat} {a : ReadAttempt}, delayed.reads[i]? = some a →
      a.size = some 4 ∧ (∀ c ∈ a.content, c = [65, 10, 66, 10]) ∧ a.appended = [] := by
    intro i a ha
    obtain rfl | rfl := List.mem_pair.mp (List.mem_of_getElem? ha)
    · exact ⟨rfl, fun c hc => absurd hc (Option.not_mem_none c), rfl⟩
    · exact ⟨rfl, fun c hc => (Option.some.inj hc).symm, rfl⟩
  refine ⟨Moments.at_inOrder 1, ⟨hstill.size, hstill.header, hstill.rotated, ?_, ?_, hstill.final⟩, ?_⟩
  · intro i a ha size hsize
    rw [(hread ha).1] at hsize
    exact (Option.some.inj hsize).symm
  · exact fun i a ha => (hread ha).2.1
  · intro i a ha c hc
    rw [(hread ha).2.1 c hc, (hread ha).2.2]
    rfl

theorem locked_journal_iff_letter :
    ∃ s, savedState twoLettered firstRead = some s ∧ s.lastReadOffset = 2 ∧
      (savedState twoLettered (@scan twoLettered delayed asciiAlnum firstRead).2).map
        (·.lastReadOffset) = some 4 ∧
      ∀ s' ∈ savedState twoLettered (@scan twoLettered delayed asciiAlnum firstRead).2,
        Steady twoLettered delayed s [65, 10, 66, 10] s' := by
  have hsome : (savedState twoLettered firstRead).map (·.lastReadOffset) = some 2 := by decide +kernel
  obtain ⟨s, hs, hoffset⟩ := Option.map_eq_some_iff.mp hsome
  have hheld : ¬ Lost delayed s := fun h => by cases h.2
  have hdigest : ∀ bs, twoLettered.sha256 bs ≠ [] := by
    intro bs
    change (if bs = [65, 10, 66, 10] then _ else lettered.sha256 []) ≠ []
    split_ifs
    · decide
    · decide
  have hiff := @locked_journal_iff twoLettered letters letters_appendOnly 0 firstRead (.at 1) delayed
    asciiAlnum hdigest 0 {} rfl firstRead_leads zero_le_one delayed_glimpses s hs (by omega)
  exact ⟨s, hs, hoffset, by decide +kernel,
    hiff.mpr fun _ => ⟨fun h => absurd h hheld, fun _ => Or.inl rfl⟩⟩

def letterRead : Database := (@scan lettered (still [65, 10]) asciiAlnum {}).2

def lockedOut : ScanEnv :=
  { still [65, 10] with
    header := none
    rotatedHeader := none
    reads := List.replicate 5 ⟨none, none, []⟩
    finalHeader := none }

theorem lockedOut_sees : Sees (fun _ => [65, 10]) (.at 1) lockedOut where
  size := rfl
  header := fun _ hc => absurd hc (Option.not_mem_none _)
  rotated := fun _ hc => absurd hc (Option.not_mem_none _)
  readSize := fun i a ha s hs => by
    rw [(List.mem_replicate.mp (List.mem_of_getElem? ha)).2] at hs
    cases hs
  read := fun i a ha c hc => by
    rw [(List.mem_replicate.mp (List.mem_of_getElem? ha)).2] at hc
    cases hc
  final := fun _ hc => absurd hc (Option.not_mem_none _)

theorem lockedOut_readsOn : ReadsOn (fun _ => [65, 10]) (.at 1) lockedOut := by
  intro i a ha c hc
  rw [(List.mem_replicate.mp (List.mem_of_getElem? ha)).2] at hc
  cases hc

/-- The pass takes the lock for a rotation and saves the offset zero without a hash. -/
theorem locked_journal_reset :
    AppendOnly (fun _ => [65, 10]) ∧ Glimpses (fun _ => [65, 10]) (.at 1) lockedOut ∧
      (savedState lettered letterRead).map (·.lastReadOffset) = some 2 ∧
      (savedState lettered (@scan lettered lockedOut asciiAlnum letterRead).2).map
        (fun s => (s.lastReadOffset, s.fileHash)) = some (0, []) :=
  ⟨fun _ _ _ => List.prefix_rfl, ⟨Moments.at_inOrder 1, lockedOut_sees, lockedOut_readsOn⟩, by decide +kernel,
    by decide +kernel⟩

end AtmMonitor.LockedJournal

import AtmMonitor.Ledger
import AtmMonitor.ParserService

namespace AtmMonitor.FileHistory

open PyText ParserModels DatabaseModels Repositories FileUtils EventProcessor EventTransaction Ledger
  ParserService

theorem takeLine_length_le (bs : Bytes) : (takeLine bs).length ≤ bs.length := by
  induction bs with
  | nil => exact le_rfl
  | cons b rest ih =>
    rw [takeLine]
    split_ifs with h10 h13 hpair
    · simp
    · cases rest <;> simp_all
    · simp
    · simpa using ih

theorem readLoop_le (maxBytes fuel bytesRead : Nat) (bs : Bytes) (appended : List Bytes) :
    (readLoop maxBytes fuel bytesRead bs appended).2 ≤ bs.length + appended.flatten.length := by
  induction fuel generalizing bytesRead bs appended with
  | zero => exact Nat.zero_le _
  | succ fuel ih =>
    have hline := takeLine_length_le bs
    rw [readLoop]
    split_ifs with hcap
    · simp only
      split_ifs with hempty hend
      · exact hline.trans (Nat.le_add_right ..)
      · have hrest := ih (bytesRead + encodedLength (textLine (takeLine bs))) (appended.headD [])
          appended.tail
        have hflat : (appended.headD []).length + appended.tail.flatten.length =
            appended.flatten.length := by
          cases appended <;> simp
        simp only
        omega
      · have hrest := ih (bytesRead + encodedLength (textLine (takeLine bs)))
          (bs.drop (takeLine bs).length) appended
        rw [List.length_drop] at hrest
        simp only
        omega
    · exact Nat.zero_le _

/-- The attempt finds no less than `offset` bytes, and no more than `bound` with all that is
appended while it reads. -/
structure Within (offset bound : Nat) (a : ReadAttempt) : Prop where
  size : ∀ s ∈ a.size, offset ≤ s
  content : ∀ c ∈ a.content, offset ≤ c.length ∧ c.length + a.appended.flatten.length ≤ bound

theorem readAttempts_within {maxBytes offset bound : Nat} {attempts : List ReadAttempt}
    (h : ∀ a ∈ attempts, Within offset bound a) (hbound : offset ≤ bound) :
    offset ≤ (readAttempts maxBytes attempts offset).2.1 ∧
      (readAttempts maxBytes attempts offset).2.1 ≤ bound := by
  induction attempts with
  | nil => exact ⟨le_rfl, hbound⟩
  | cons a rest ih =>
    have hrest := ih fun b hb => h b (List.mem_cons_of_mem a hb)
    have ha := h a (by simp)
    rw [readAttempts]
    cases hs : a.size with
    | none => exact hrest
    | some size =>
      simp only
      rw [if_neg (ha.size size hs).not_gt]
      cases hc : a.content with
      | none => exact hrest
      | some content =>
        obtain ⟨hlow, hhigh⟩ := ha.content content hc
        have hread := readLoop_le maxBytes
          ((content.drop offset).length + a.appended.flatten.length) 0 (content.drop offset) a.appended
        have hdrop := List.length_drop (i := offset) (l := content)
        simp only [readFrom]
        omega

theorem processEvents_fileStates (atmId : Nat) (snapshots : List CassetteSnapshot)
    (ps : List (TxEnv × ATMParsedEvent)) (acc : Database × ProcessingStatistics) :
    (processEvents atmId snapshots ps acc).1.fileStates = acc.1.fileStates := by
  induction ps generalizing acc with
  | nil => rfl
  | cons p rest ih =>
    refine (ih _).trans ?_
    obtain ⟨-, -, h⟩ | ⟨-, h⟩ := processEvent_db atmId snapshots acc p
    · rw [h, storeEvent, (recordStatus_frame ..).2.2.1, (recordSnapshots_frame ..).2.2.1]
      rfl
    · exact h.fileStates

section Row

variable (target : Target)

def savedState (db : Database) : Option AgentFileState :=
  getFileState db target.atmId target.filePath

theorem savedState_save {state : AgentFileState}
    (h : state.atmId = target.atmId ∧ state.filePath = target.filePath) (db : Database) :
    savedState target (saveFileState db state) = some state := by
  rw [savedState, ← h.1, ← h.2, getFileState_saveFileState]

def openingError (env : ScanEnv) (known : Option AgentFileState) : Option ScanError :=
  env.raises .getFileState <|> env.raises .stat <|>
    if known.isNone then env.raises .createFileState else none

theorem currentState_cases (env : ScanEnv) (known : Option AgentFileState) :
    (currentState target env known).lastReadOffset = 0 ∨ known = some (currentState target env known) := by
  unfold currentState
  cases known with
  | none => simp only [Option.getD_none]; split_ifs <;> exact Or.inl rfl
  | some s =>
    simp only [Option.getD_some]
    split_ifs
    · exact Or.inl rfl
    · exact Or.inr rfl

variable [Alnum]

def committed (env : ScanEnv) (known : Option AgentFileState) : Option AgentFileState :=
  let state := currentState target env known
  let r := readLines target env state
  if (openingError env known).isSome then none
  else if env.size = state.lastReadOffset ∨ r.1 = [] then
    if (env.raises .commit).isSome then none else some state
  else if (env.raises .updateFileState <|> env.raises .commit).isSome then none
  else some (advancedState target env state r.2.1 (parseResult target env r.1))

theorem scan_eq (env : ScanEnv) (db : Database) :
    scan target env db =
      let state := currentState target env (savedState target db)
      let r := readLines target env state
      let result := parseResult target env r.1
      let stored := (processResult env.txs target.atmId result db).1
      match openingError env (savedState target db) with
      | some e => (e.scanEnd, db)
      | none =>
        if env.size = state.lastReadOffset ∨ r.1 = [] then
          match env.raises .commit with
          | some e => (e.scanEnd, db)
          | none => (.idle, saveFileState db state)
        else
          match env.raises .updateFileState <|> env.raises .commit with
          | some e => (e.scanEnd, stored)
          | none => (.parsed r.2.1, saveFileState stored (advancedState target env state r.2.1 result)) :=
  rfl

/-- A pass commits a row for the file or leaves the one that is there. -/
theorem savedState_scan (env : ScanEnv) (db : Database) :
    savedState target (scan target env db).2 =
      (committed target env (savedState target db)).or (savedState target db) := by
  have hkey : (currentState target env (savedState target db)).atmId = target.atmId ∧
      (currentState target env (savedState target db)).filePath = target.filePath :=
    currentState_key target env db
  have hstored : ∀ r : ParserResult,
      savedState target (processResult env.txs target.atmId r db).1 = savedState target db := by
    intro r
    rw [savedState, getFileState, processResult, processEvents_fileStates]
    rfl
  simp only [scan_eq, committed]
  generalize currentState target env (savedState target db) = state at hkey
  cases openingError env (savedState target db) with
  | some e => rfl
  | none =>
    simp only [Option.isSome_none, Bool.false_eq_true, if_false]
    split_ifs with hidle hcommit hcommit
    · obtain ⟨e, he⟩ := Option.isSome_iff_exists.mp hcommit
      rw [he]
      rfl
    · rw [Option.not_isSome_iff_eq_none.mp hcommit]
      exact savedState_save target hkey db
    · obtain ⟨e, he⟩ := Option.isSome_iff_exists.mp hcommit
      rw [he]
      exact hstored _
    · rw [Option.not_isSome_iff_eq_none.mp hcommit]
      have hkey' : (advancedState target env state (readLines target env state).2.1
          (parseResult target env (readLines target env state).1)).atmId = target.atmId ∧
          (advancedState target env state (readLines target env state).2.1
            (parseResult target env (readLines target env state).1)).filePath = target.filePath := hkey
      exact savedState_save target hkey' _

/-- What a pass commits, and which of its exits it takes. -/
theorem committed_cases {env : ScanEnv} {known : Option AgentFileState} {s : AgentFileState}
    (h : committed target env known = some s) :
    let state := currentState target env known
    let r := readLines target env state
    (env.size = state.lastReadOffset ∨ r.1 = []) ∧ s = state ∨
      ¬ (env.size = state.lastReadOffset ∨ r.1 = []) ∧
        s = advancedState target env state r.2.1 (parseResult target env r.1) := by
  intro state r
  simp only [committed] at h
  split_ifs at h with hopen hidle hcommit hcommit
  · exact Or.inl ⟨hidle, (Option.some.inj h).symm⟩
  · exact Or.inr ⟨hidle, (Option.some.inj h).symm⟩

end Row

/-- The moments at which a pass looks at the file, those of its attempts to read by number. -/
structure Moments where
  size : Nat
  header : Nat
  rotated : Nat
  readSize : Nat → Nat
  readOpen : Nat → Nat
  readEnd : Nat → Nat
  final : Nat

structure Moments.InOrder (m : Moments) : Prop where
  header : m.size ≤ m.header
  rotated : m.header ≤ m.rotated
  readSize : ∀ i, m.rotated ≤ m.readSize i
  readOpen : ∀ i, m.readSize i ≤ m.readOpen i
  readEnd : ∀ i, m.readOpen i ≤ m.readEnd i
  final : ∀ i, m.readEnd i ≤ m.final

theorem Moments.InOrder.rotated_le_final {m : Moments} (h : m.InOrder) : m.rotated ≤ m.final :=
  (h.readSize 0).trans ((h.readOpen 0).trans ((h.readEnd 0).trans (h.final 0)))

theorem Moments.InOrder.size_le_rotated {m : Moments} (h : m.InOrder) : m.size ≤ m.rotated :=
  h.header.trans h.rotated

/-- What the pass meets is the file at these moments, as far as its opens succeed. -/
structure Sees (file : Nat → Bytes) (m : Moments) (env : ScanEnv) : Prop where
  size : env.size = (file m.size).length
  header : ∀ c ∈ env.header, c = file m.header
  rotated : ∀ c ∈ env.rotatedHeader, c = file m.rotated
  readSize : ∀ i a, env.reads[i]? = some a → ∀ s ∈ a.size, s = (file (m.readSize i)).length
  read : ∀ i a, env.reads[i]? = some a → ∀ c ∈ a.content, c = file (m.readOpen i)
  final : ∀ c ∈ env.finalHeader, c = file m.final

/-- The opened file stays the one at the path until it is read. -/
def ReadsOn (file : Nat → Bytes) (m : Moments) (env : ScanEnv) : Prop :=
  ∀ i a, env.reads[i]? = some a → ∀ c ∈ a.content, c ++ a.appended.flatten = file (m.readEnd i)

def AppendOnly (file : Nat → Bytes) : Prop := ∀ i j, i ≤ j → file i <+: file j

theorem AppendOnly.length_le {file : Nat → Bytes} (h : AppendOnly file) {i j : Nat} (hij : i ≤ j) :
    (file i).length ≤ (file j).length := (h i j hij).length_le

theorem AppendOnly.take_eq {file : Nat → Bytes} (h : AppendOnly file) {i j : Nat} (hij : i ≤ j) {n : Nat}
    (hn : n ≤ (file i).length) : (file j).take n = (file i).take n := by
  obtain ⟨rest, hrest⟩ := h i j hij
  rw [← hrest, List.take_append_of_le_length hn]

theorem within_of_sees {file : Nat → Bytes} (hfile : AppendOnly file) {m : Moments} {env : ScanEnv}
    (horder : m.InOrder) (hsees : Sees file m env) (hon : ReadsOn file m env) {t offset : Nat}
    (ht : t ≤ m.rotated)
    (hoffset : offset ≤ (file t).length) :
    ∀ a ∈ env.reads.take 5, Within offset (file m.final).length a := by
  intro a ha
  obtain ⟨i, hi⟩ := List.mem_iff_getElem?.mp (List.mem_of_mem_take ha)
  refine ⟨fun s hs => ?_, fun c hc => ?_⟩
  · rw [hsees.readSize i a hi s hs]
    exact hoffset.trans (hfile.length_le (ht.trans (horder.readSize i)))
  · constructor
    · rw [hsees.read i a hi c hc]
      exact hoffset.trans
        (hfile.length_le (ht.trans ((horder.readSize i).trans (horder.readOpen i))))
    · rw [← List.length_append, hon i a hi c hc]
      exact hfile.length_le (horder.final i)

theorem readAppendedLines_within {file : Nat → Bytes} (hfile : AppendOnly file) {m : Moments}
    {env : ScanEnv} (horder : m.InOrder) (hsees : Sees file m env) (hon : ReadsOn file m env) {t : Nat}
    (ht : t ≤ m.size) (maxBytes : Nat) {offset : Nat} (h : offset ≤ (file t).length) :
    offset ≤ (readAppendedLines maxBytes env.found env.reads offset).2.1 ∧
      (readAppendedLines maxBytes env.found env.reads offset).2.1 ≤ (file m.final).length := by
  have hrot := ht.trans horder.size_le_rotated
  have hbound := h.trans (hfile.length_le (hrot.trans horder.rotated_le_final))
  rw [readAppendedLines]
  split_ifs
  · exact readAttempts_within (within_of_sees hfile horder hsees hon hrot h) hbound
  · exact ⟨le_rfl, hbound⟩

section Runs

variable [Alnum] (target : Target) (admits : Moments → ScanEnv → Prop)

/-- From one database at one moment to another, by passes over the file and by steps that do not
concern its row. -/
inductive Leads (t₀ : Nat) (db₀ : Database) : Nat → Database → Prop
  | start : Leads t₀ db₀ t₀ db₀
  | elsewhere {t t' : Nat} {db db' : Database} (h : Leads t₀ db₀ t db) (ht : t ≤ t')
      (hrow : savedState target db' = savedState target db) : Leads t₀ db₀ t' db'
  | pass {t : Nat} {db : Database} {m : Moments} {env : ScanEnv} (h : Leads t₀ db₀ t db)
      (ht : t ≤ m.size) (hadmits : admits m env) : Leads t₀ db₀ m.final (scan target env db).2

variable {target admits}

/-- What every admitted pass and the passage of time preserve holds along every run. -/
theorem leads_invariant {P : Nat → Database → Prop}
    (helsewhere : ∀ {t t' db db'}, t ≤ t' → savedState target db' = savedState target db →
      P t db → P t' db')
    (hpass : ∀ {t db m env}, t ≤ m.size → admits m env → P t db → P m.final (scan target env db).2)
    {t₀ t : Nat} {db₀ db : Database} (hrun : Leads target admits t₀ db₀ t db) (h : P t₀ db₀) :
    P t db := by
  induction hrun with
  | start => exact h
  | elsewhere _ ht hrow ih => exact helsewhere ht hrow ih
  | pass _ ht hadmits ih => exact hpass ht hadmits ih

def Chronological (admits : Moments → ScanEnv → Prop) : Nat → List (Moments × ScanEnv) → Prop
  | _, [] => True
  | t, (m, env) :: rest => t ≤ m.size ∧ admits m env ∧ Chronological admits m.final rest

/-- A call of `process_file` is such a run. -/
theorem leads_processFile {t₀ t : Nat} {db₀ db : Database} {passes : List (Moments × ScanEnv)}
    (h : Leads target admits t₀ db₀ t db) (hpasses : Chronological admits t passes)
    (breakerClosed found : Bool) :
    ∃ t', Leads target admits t₀ db₀ t'
      (processFile target breakerClosed found (passes.map Prod.snd) db).2 := by
  rw [processFile]
  split_ifs
  · induction passes generalizing t db with
    | nil => exact ⟨t, h⟩
    | cons p rest ih =>
      obtain ⟨ht, hadmits, hrest⟩ := hpasses
      have hpass := Leads.pass h ht hadmits
      rw [List.map_cons, scanLoop]
      split
      · rename_i db' hscan
        rw [hscan] at hpass
        split_ifs
        · exact ⟨p.1.final, hpass⟩
        · exact ih hpass hrest
      · exact ⟨p.1.final, hpass⟩
  · exact ⟨t, h⟩

end Runs

def Moments.at (t : Nat) : Moments := ⟨t, t, t, fun _ => t, fun _ => t, fun _ => t, t⟩

theorem Moments.at_inOrder (t : Nat) : (Moments.at t).InOrder :=
  ⟨le_rfl, le_rfl, fun _ => le_rfl, fun _ => le_rfl, fun _ => le_rfl, fun _ => le_rfl⟩

def still (content : Bytes) : ScanEnv where
  size := content.length
  modified := 0
  header := some content
  rotatedHeader := some content
  reads := [⟨some content.length, some content, []⟩]
  finalHeader := some content

theorem still_sees {file : Nat → Bytes} {t : Nat} {content : Bytes} (h : file t = content) :
    Sees file (.at t) (still content) where
  size := by rw [← h]; rfl
  header := fun c hc => by rw [← Option.some.inj hc, ← h]; rfl
  rotated := fun c hc => by rw [← Option.some.inj hc, ← h]; rfl
  readSize := fun i a ha s hs => by
    rw [List.mem_singleton.mp (List.mem_of_getElem? ha)] at hs
    rw [← Option.some.inj hs, ← h]
    rfl
  read := fun i a ha c hc => by
    rw [List.mem_singleton.mp (List.mem_of_getElem? ha)] at hc
    rw [← Option.some.inj hc, ← h]
    rfl
  final := fun c hc => by rw [← Option.some.inj hc, ← h]; rfl

theorem still_readsOn {file : Nat → Bytes} {t : Nat} {content : Bytes} (h : file t = content) :
    ReadsOn file (.at t) (still content) := by
  intro i a ha c hc
  rw [List.mem_singleton.mp (List.mem_of_getElem? ha)] at hc ⊢
  rw [← Option.some.inj hc, ← h]
  exact List.append_nil _

/-- A machine whose journal is one letter on a line; the digest is that of these two bytes. -/
def lettered : Target where
  sha256 := fun _ => "06f961b802bc46ee168555f066d28f4f0e9afdf3f88174c1ee6f9de004fc30a0".toList
  atmId := 1
  filePath := "EJDATA.LOG".toList
  fileName := "EJDATA.LOG".toList

end AtmMonitor.FileHistory

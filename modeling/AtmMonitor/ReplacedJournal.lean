import AtmMonitor.FileHistory

namespace AtmMonitor.ReplacedJournal

open PyText DatabaseModels FileUtils ParserService FileHistory

/-- The pass looks at the path, where any file may have come in the place of another; an attempt that
has opened a file keeps to it. No open fails. -/
structure Looks (file : Nat → Bytes) (m : Moments) (env : ScanEnv) : Prop where
  order : m.InOrder
  sees : Sees file m env
  header : env.header.isSome
  rotated : env.rotatedHeader.isSome
  read : ∃ a ∈ env.reads.head?, a.size.isSome ∧ a.content.isSome
  final : env.finalHeader.isSome

/-- The offset from which the attempt that succeeds reads, and all that its file has in the end. -/
def readSource : List ReadAttempt → Nat → Option (Nat × Bytes)
  | [], _ => none
  | a :: rest, offset =>
    match a.size with
    | none => readSource rest offset
    | some size =>
      let offset := if size < offset then 0 else offset
      match a.content with
      | none => readSource rest offset
      | some content => some (offset, content ++ a.appended.flatten)

theorem readLoop_nil (maxBytes fuel bytesRead : Nat) (appended : List Bytes) :
    (readLoop maxBytes fuel bytesRead [] appended).1 = [] := by
  cases fuel with
  | zero => rfl
  | succ fuel =>
    rw [readLoop]
    split_ifs <;> rfl

theorem readFrom_le {maxBytes offset : Nat} {content : Bytes} {appended : List Bytes}
    (h : (readFrom maxBytes offset content appended).1 ≠ []) :
    offset ≤ (readFrom maxBytes offset content appended).2 ∧
      (readFrom maxBytes offset content appended).2 ≤ (content ++ appended.flatten).length := by
  have hopen : content.drop offset ≠ [] := by
    intro hnil
    rw [readFrom, hnil] at h
    exact h (readLoop_nil ..)
  have hlt : offset < content.length := by
    rw [ne_eq, List.drop_eq_nil_iff] at hopen
    omega
  have hle := readLoop_le maxBytes ((content.drop offset).length + appended.flatten.length) 0
    (content.drop offset) appended
  have hdrop := List.length_drop (i := offset) (l := content)
  rw [List.length_append]
  simp only [readFrom]
  omega

theorem readAttempts_source {maxBytes offset : Nat} {attempts : List ReadAttempt}
    (h : (readAttempts maxBytes attempts offset).1 ≠ []) :
    ∃ start bytes, readSource attempts offset = some (start, bytes) ∧ (start = offset ∨ start = 0) ∧
      start ≤ (readAttempts maxBytes attempts offset).2.1 ∧
      (readAttempts maxBytes attempts offset).2.1 ≤ bytes.length := by
  induction attempts generalizing offset with
  | nil => exact absurd rfl h
  | cons a rest ih =>
    rw [readAttempts] at h ⊢
    rw [readSource]
    cases hs : a.size with
    | none =>
      simp only [hs] at h ⊢
      exact ih h
    | some size =>
      have hreset : (if size < offset then 0 else offset) = offset ∨
          (if size < offset then 0 else offset) = 0 := by
        split_ifs
        · exact Or.inr rfl
        · exact Or.inl rfl
      simp only [hs] at h ⊢
      generalize (if size < offset then 0 else offset) = start at h hreset ⊢
      cases hc : a.content with
      | none =>
        simp only [hc] at h ⊢
        obtain ⟨start', bytes, hsource, hstart, hle⟩ := ih h
        refine ⟨start', bytes, hsource, ?_, hle⟩
        obtain rfl | rfl := hstart
        · exact hreset
        · exact Or.inr rfl
      | some content =>
        simp only [hc] at h ⊢
        exact ⟨start, _, rfl, hreset, readFrom_le h⟩

theorem readLines_source {target : Target} {env : ScanEnv} {state : AgentFileState}
    (h : (readLines target env state).1 ≠ []) :
    ∃ start bytes, readSource (env.reads.take 5) state.lastReadOffset = some (start, bytes) ∧
      (start = state.lastReadOffset ∨ start = 0) ∧ start ≤ (readLines target env state).2.1 ∧
      (readLines target env state).2.1 ≤ bytes.length := by
  rw [readLines, readAppendedLines] at h ⊢
  split_ifs at h ⊢ with hfound
  · exact readAttempts_source h
  · exact absurd rfl h

/-- Bytes that are recorded up to `start` and read from there to `stop` begin as those that are read,
if the recorded ones do. -/
theorem recorded_append (k : Nat) {recorded bytes : Bytes} {start stop : Nat} (hstart : start ≤ stop)
    (hstop : stop ≤ bytes.length) (hlen : 0 < start → recorded.length = start)
    (hsame : 0 < start → recorded.take (min k start) = bytes.take (min k start)) :
    (recorded.take start ++ (bytes.take stop).drop start).length = stop ∧
      (recorded.take start ++ (bytes.take stop).drop start).take (min k stop) =
        bytes.take (min k stop) := by
  have hlen' : (recorded.take start).length = start := by
    rw [List.length_take]
    by_cases hpos : 0 < start
    · rw [hlen hpos, min_self]
    · omega
  constructor
  · rw [List.length_append, hlen', List.length_drop, List.length_take]
    omega
  · by_cases hk : start ≤ k
    · have hbegin : recorded.take start = (bytes.take stop).take start := by
        rw [List.take_take, min_eq_left hstart]
        by_cases hpos : 0 < start
        · have h := hsame hpos
          rwa [min_eq_right hk] at h
        · obtain rfl : start = 0 := by omega
          rfl
      rw [hbegin, List.take_append_drop, List.take_take, min_eq_left (min_le_right k stop)]
    · have h := hsame (by omega)
      rw [min_eq_left (by omega)] at h
      rw [min_eq_left (by omega), List.take_append_of_le_length (by omega), List.take_take,
        min_eq_left (by omega), h]

section Recorded

variable [Alnum] (target : Target)

/-- The bytes behind which the saved offset lies, as they were read, after one more pass. -/
def recordedAfter (env : ScanEnv) (known : Option AgentFileState) (recorded : Bytes) : Bytes :=
  let state := currentState target env known
  let r := readLines target env state
  if (committed target env known).isNone then recorded
  else if env.size = state.lastReadOffset ∨ r.1 = [] then recorded.take state.lastReadOffset
  else
    match readSource (env.reads.take 5) state.lastReadOffset with
    | some (start, bytes) => recorded.take start ++ (bytes.take r.2.1).drop start
    | none => recorded

/-- Where a pass stores an offset, the bytes that it hashes at the end, and those that it hashed at
the check if it goes on from an offset, are bytes of the file that it reads. -/
def Settled (env : ScanEnv) (known : Option AgentFileState) : Prop :=
  let state := currentState target env known
  let r := readLines target env state
  (committed target env known).isSome → ¬ (env.size = state.lastReadOffset ∨ r.1 = []) →
    ∀ start bytes, readSource (env.reads.take 5) state.lastReadOffset = some (start, bytes) →
      (0 < start → ∀ c ∈ env.header, c.take (min 8192 start) = bytes.take (min 8192 start)) ∧
        ∀ c ∈ env.finalHeader, c.take (min 8192 r.2.1) = bytes.take (min 8192 r.2.1)

/-- Runs of passes with the bytes that they have recorded, in which every pass is settled. -/
inductive Records (file : Nat → Bytes) (t₀ : Nat) (db₀ : Database) : Nat → Database → Bytes → Prop
  | start : Records file t₀ db₀ t₀ db₀ []
  | elsewhere {t t' : Nat} {db db' : Database} {recorded : Bytes}
      (h : Records file t₀ db₀ t db recorded) (ht : t ≤ t')
      (hrow : savedState target db' = savedState target db) : Records file t₀ db₀ t' db' recorded
  | pass {t : Nat} {db : Database} {recorded : Bytes} {m : Moments} {env : ScanEnv}
      (h : Records file t₀ db₀ t db recorded) (ht : t ≤ m.size) (hlooks : Looks file m env)
      (hsettled : Settled target env (savedState target db)) :
      Records file t₀ db₀ m.final (scan target env db).2
        (recordedAfter target env (savedState target db) recorded)

/-- The saved offset counts the recorded bytes, and the saved hash is that of their beginning. -/
def Backed (known : Option AgentFileState) (recorded : Bytes) : Prop :=
  ∀ s ∈ known, 0 < s.lastReadOffset →
    recorded.length = s.lastReadOffset ∧
      s.fileHash = target.sha256 (recorded.take (min 8192 s.lastReadOffset))

variable {target} (hsha : Function.Injective target.sha256) (hne : ∀ bs, target.sha256 bs ≠ [])

section

omit [Alnum]
include hsha hne

/-- Where the check passes, the file at the path begins as the recorded bytes do. -/
theorem Backed.same_beginning {s : AgentFileState} {recorded : Bytes}
    (h : Backed target (some s) recorded) (hpos : 0 < s.lastReadOffset) {env : ScanEnv}
    (hcheck : rotationDetected env s (headerHash target env.header (prefixLen (some s))) = false) :
    ∀ c ∈ env.header,
      c.take (min 8192 s.lastReadOffset) = recorded.take (min 8192 s.lastReadOffset) := by
  intro c hc
  obtain ⟨-, hhash⟩ := h s rfl hpos
  have hsaved : s.fileHash ≠ [] := by
    rw [hhash]
    exact hne _
  rw [rotationDetected, Bool.or_eq_false_iff] at hcheck
  have hequal : headerHash target env.header (prefixLen (some s)) = s.fileHash := by
    simpa [hsaved] using hcheck.2
  rw [Option.mem_def.mp hc, headerHash, prefixLen, if_pos hpos, hhash] at hequal
  exact hsha hequal

theorem Backed.goes_on {env : ScanEnv} {known : Option AgentFileState} {recorded : Bytes}
    (h : Backed target known recorded) (hpos : 0 < (currentState target env known).lastReadOffset) :
    known = some (currentState target env known) ∧ ∀ c ∈ env.header,
      c.take (min 8192 (currentState target env known).lastReadOffset) =
        recorded.take (min 8192 (currentState target env known).lastReadOffset) := by
  have hknown := (currentState_cases target env known).resolve_left hpos.ne'
  refine ⟨hknown, ?_⟩
  generalize hstate : currentState target env known = state at hknown hpos ⊢
  rw [hknown] at h
  refine h.same_beginning hsha hne hpos ?_
  by_contra hrot
  rw [Bool.not_eq_false] at hrot
  rw [← hstate, hknown, currentState] at hpos
  simp only [Option.getD_some, hrot, if_true] at hpos
  exact absurd hpos (lt_irrefl 0)

end

include hsha hne in
/-- What a settled pass stores is backed by what it has read. -/
theorem Backed.pass {file : Nat → Bytes} {m : Moments} {env : ScanEnv} (hlooks : Looks file m env)
    {known : Option AgentFileState} {recorded : Bytes} (h : Backed target known recorded)
    (hsettled : Settled target env known) :
    Backed target ((committed target env known).or known) (recordedAfter target env known recorded) := by
  cases hcommitted : committed target env known with
  | none =>
    rw [Option.none_or, recordedAfter, hcommitted]
    exact h
  | some s' =>
    rw [Option.some_or]
    intro s hs hpos
    obtain rfl := Option.some.inj hs
    simp only [recordedAfter, hcommitted, Option.isNone_some, Bool.false_eq_true, if_false]
    rw [Settled, hcommitted] at hsettled
    obtain ⟨hidle, rfl⟩ | ⟨hstored, rfl⟩ := committed_cases target hcommitted
    · have hbacked := h _ (h.goes_on hsha hne hpos).1 hpos
      rw [if_pos hidle, List.take_of_length_le hbacked.1.le]
      exact hbacked
    · rw [if_neg hstored]
      obtain ⟨start, bytes, hsource, hfrom, hstart, hstop⟩ :=
        readLines_source fun hnil => hstored (Or.inr hnil)
      obtain ⟨hopened, hclosed⟩ := hsettled rfl hstored start bytes hsource
      have hback : 0 < start → recorded.length = start ∧
          recorded.take (min 8192 start) = bytes.take (min 8192 start) := by
        intro hpos
        obtain rfl := hfrom.resolve_right hpos.ne'
        obtain ⟨hknown, hsame⟩ := h.goes_on hsha hne hpos
        obtain ⟨first, hfirst⟩ := Option.isSome_iff_exists.mp hlooks.header
        exact ⟨(h _ hknown hpos).1, (hsame first hfirst).symm.trans (hopened hpos first hfirst)⟩
      obtain ⟨hlength, hbegin⟩ :=
        recorded_append 8192 hstart hstop (fun hpos => (hback hpos).1) fun hpos => (hback hpos).2
      obtain ⟨last, hlast⟩ := Option.isSome_iff_exists.mp hlooks.final
      simp only [hsource, advancedState, hlast, headerHash]
      exact ⟨hlength, by rw [hbegin, hclosed last hlast]⟩

include hsha hne in
/-- In a run of settled passes the journal is never taken for another: where a pass starts with an
offset and declares no rotation, the file at the path begins as the recorded bytes do. -/
theorem replaced_journal_declared {file : Nat → Bytes} {t₀ t : Nat} {db₀ db : Database} {recorded : Bytes}
    (hnew : savedState target db₀ = none) (hrun : Records target file t₀ db₀ t db recorded) :
    ∀ s ∈ savedState target db, 0 < s.lastReadOffset →
      recorded.length = s.lastReadOffset ∧ ∀ m env, t ≤ m.size → Looks file m env →
        rotationDetected env s (headerHash target env.header (prefixLen (some s))) = false →
          (file m.header).take (min 8192 s.lastReadOffset) =
            recorded.take (min 8192 s.lastReadOffset) := by
  have hbacked : Backed target (savedState target db) recorded := by
    induction hrun with
    | start =>
      rw [hnew]
      exact fun s hs => absurd hs (Option.not_mem_none s)
    | elsewhere _ _ hrow ih => rwa [hrow]
    | pass _ _ hlooks hsettled ih =>
      rw [savedState_scan]
      exact ih.pass hsha hne hlooks hsettled
  intro s hs hpos
  rw [Option.mem_def.mp hs] at hbacked
  refine ⟨(hbacked s rfl hpos).1, fun m env _ hlooks hcheck => ?_⟩
  obtain ⟨c, hc⟩ := Option.isSome_iff_exists.mp hlooks.header
  rw [← hlooks.sees.header c hc]
  exact hbacked.same_beginning hsha hne hpos hcheck c hc

end Recorded

/-- The digests of the two beginnings that are hashed; other contents stand for their own. -/
def twoDigests (bs : Bytes) : Str :=
  if bs = [65, 10] then
    "06f961b802bc46ee168555f066d28f4f0e9afdf3f88174c1ee6f9de004fc30a0".toList
  else if bs = [66, 10] then
    "c0cde77fa8fef97d476c10aad3d2d54fcc2f336140d073651c2dcccf1e379fd6".toList
  else 'x' :: bs.map fun b => Char.ofNat b.toNat

theorem twoDigests_injective : Function.Injective twoDigests := by
  have hcode : ∀ n : Fin 256, (Char.ofNat n.val).toNat = n.val := by decide +kernel
  have hchar : Function.Injective fun b : UInt8 => Char.ofNat b.toNat := fun a b h => by
    have hval := congrArg Char.toNat h
    simp only at hval
    rw [hcode ⟨a.toNat, a.toNat_lt⟩, hcode ⟨b.toNat, b.toNat_lt⟩] at hval
    exact UInt8.toNat_inj.mp hval
  intro as bs h
  unfold twoDigests at h
  have hhead := congrArg List.head? h
  split_ifs at h hhead
  · rw [‹as = [65, 10]›, ‹bs = [65, 10]›]
  · exact absurd hhead (by decide)
  · cases hhead
  · exact absurd hhead (by decide)
  · rw [‹as = [66, 10]›, ‹bs = [66, 10]›]
  · cases hhead
  · cases hhead
  · cases hhead
  · exact List.map_injective_iff.mpr hchar (List.cons.inj h).2

def switched : Target := { lettered with sha256 := twoDigests }

/-- A pass with the first file at the path until the lines are read, and with the second one from
then on. -/
def switchedScan (last : Bytes) : ScanEnv := { still [65, 10] with finalHeader := some last }

def switchedFile (last : Bytes) (t : Nat) : Bytes := if t = 0 then [65, 10] else last

def switchedMoments : Moments := { Moments.at 0 with final := 1 }

theorem switchedScan_looks (last : Bytes) :
    Looks (switchedFile last) switchedMoments (switchedScan last) := by
  have hstill : Sees (switchedFile last) (.at 0) _ := still_sees rfl
  refine ⟨⟨le_rfl, le_rfl, fun _ => le_rfl, fun _ => le_rfl, fun _ => le_rfl, fun _ => Nat.zero_le 1⟩,
    ⟨hstill.size, hstill.header, hstill.rotated, hstill.readSize, hstill.read, ?_⟩, rfl, rfl,
    ⟨_, rfl, rfl, rfl⟩, rfl⟩
  intro c hc
  obtain rfl := Option.some.inj hc
  rfl

def switchedDb (last : Bytes) : Database := (@scan switched (switchedScan last) asciiAlnum {}).2

theorem replaced_journal_declared_same :
    ∃ s, savedState switched (switchedDb [65, 10]) = some s ∧
      (rotationDetected (still [65, 10]) s
          (headerHash switched (some [65, 10]) (prefixLen (some s))) = false →
        [65, 10].take (min 8192 s.lastReadOffset) =
          (@recordedAfter asciiAlnum switched (switchedScan [65, 10]) none []).take
            (min 8192 s.lastReadOffset)) := by
  have hsettled : @Settled asciiAlnum switched (switchedScan [65, 10]) none := by
    intro _ _ start bytes hsource
    have hread : readSource ((switchedScan [65, 10]).reads.take 5)
        (currentState switched (switchedScan [65, 10]) none).lastReadOffset = some (0, [65, 10]) := by
      decide +kernel
    obtain ⟨rfl, rfl⟩ := Prod.mk.inj (Option.some.inj (hsource.symm.trans hread))
    exact ⟨fun h => absurd h (lt_irrefl 0), fun c hc => by rw [← Option.some.inj hc]⟩
  have hrun : @Records asciiAlnum switched (switchedFile [65, 10]) 0 {} 1 (switchedDb [65, 10])
      (@recordedAfter asciiAlnum switched (switchedScan [65, 10]) none []) :=
    @Records.pass asciiAlnum _ _ _ _ _ _ _ switchedMoments _ (@Records.start asciiAlnum _ _ _ _) le_rfl
      (switchedScan_looks _) hsettled
  have hoffset : (savedState switched (switchedDb [65, 10])).map (·.lastReadOffset) = some 2 := by
    decide +kernel
  obtain ⟨s, hs, htwo⟩ := Option.map_eq_some_iff.mp hoffset
  have hlooks : Looks (switchedFile [65, 10]) (.at 1) (still [65, 10]) :=
    ⟨Moments.at_inOrder 1, still_sees rfl, rfl, rfl, ⟨_, rfl, rfl, rfl⟩, rfl⟩
  have hne : ∀ bs, switched.sha256 bs ≠ [] := by
    intro bs h
    change twoDigests bs = [] at h
    unfold twoDigests at h
    split_ifs at h
    · exact absurd h (by decide)
    · exact absurd h (by decide)
  exact ⟨s, hs, fun hcheck => (@replaced_journal_declared asciiAlnum switched twoDigests_injective hne
    _ 0 1 {} _ _ rfl hrun s hs (by omega)).2 (.at 1) _ le_rfl hlooks hcheck⟩

/-- The second file comes between the read and the last hash, and the next pass takes it for the
first one: its first line is skipped. -/
theorem replaced_journal_unnoticed :
    Looks (switchedFile [66, 10, 67, 10]) switchedMoments (switchedScan [66, 10, 67, 10]) ∧
      @recordedAfter asciiAlnum switched (switchedScan [66, 10, 67, 10]) none [] = [65, 10] ∧
      (savedState switched (switchedDb [66, 10, 67, 10])).map (fun s => (s.lastReadOffset,
        rotationDetected (still [66, 10, 67, 10]) s
          (headerHash switched (some [66, 10, 67, 10]) (prefixLen (some s))))) = some (2, false) ∧
      (switchedFile [66, 10, 67, 10] 1).take 2 ≠ [65, 10] :=
  ⟨switchedScan_looks _, by decide +kernel, by decide +kernel, by decide⟩

end AtmMonitor.ReplacedJournal

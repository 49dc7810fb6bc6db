import AtmMonitor.FileHistory
import AtmMonitor.Ingestion

namespace AtmMonitor.FileStateInvariant

open PyText DatabaseModels FileUtils ParserService Ingestion FileHistory

/-- The pass sees the file, and its opens succeed. -/
structure Watches (file : Nat → Bytes) (m : Moments) (env : ScanEnv) : Prop where
  order : m.InOrder
  sees : Sees file m env
  readsOn : ReadsOn file m env
  header : env.header.isSome
  rotated : env.rotatedHeader.isSome
  read : ∃ a ∈ env.reads.head?, a.size.isSome ∧ a.content.isSome
  final : env.finalHeader.isSome

section Invariant

variable (target : Target) (file : Nat → Bytes)

/-- An offset that is not zero lies within the file, and the hash that goes with it is that of the
beginning of the file. -/
def Sound (t : Nat) (db : Database) : Prop :=
  ∀ s ∈ savedState target db, 0 < s.lastReadOffset →
    s.lastReadOffset ≤ (file t).length ∧
      s.fileHash = target.sha256 ((file t).take (min 8192 s.lastReadOffset))

variable {target file} (hfile : AppendOnly file)
include hfile

theorem Sound.elsewhere {t t' : Nat} {db db' : Database} (h : Sound target file t db) (ht : t ≤ t')
    (hrow : savedState target db' = savedState target db) : Sound target file t' db' := by
  intro s hs hpos
  rw [hrow] at hs
  obtain ⟨hle, hhash⟩ := h s hs hpos
  refine ⟨hle.trans (hfile.length_le ht), ?_⟩
  rw [hfile.take_eq ht ((min_le_right _ _).trans hle)]
  exact hhash

variable {t : Nat} {db : Database} {m : Moments} {env : ScanEnv}

theorem Sound.unrotated (h : Sound target file t db) (ht : t ≤ m.size) (hw : Watches file m env) :
    ∀ s ∈ savedState target db, 0 < s.lastReadOffset →
      rotationDetected env s (headerHash target env.header (prefixLen (some s))) = false := by
  intro s hs hpos
  obtain ⟨hle, hhash⟩ := h s hs hpos
  obtain ⟨c, hc⟩ := Option.isSome_iff_exists.mp hw.header
  have hsame : headerHash target env.header (prefixLen (some s)) = s.fileHash := by
    rw [prefixLen, if_pos hpos, hc, headerHash, hw.sees.header c hc,
      hfile.take_eq (ht.trans hw.order.header) ((min_le_right _ _).trans hle), hhash]
  have hsize : s.lastReadOffset ≤ env.size := by
    rw [hw.sees.size]
    exact hle.trans (hfile.length_le ht)
  simp [rotationDetected, hsame, hsize]

theorem Sound.currentState (h : Sound target file t db) (ht : t ≤ m.size) (hw : Watches file m env) :
    let state := currentState target env (savedState target db)
    state.lastReadOffset = offset target db ∧
      (0 < state.lastReadOffset → savedState target db = some state) := by
  have hrotated := h.unrotated hfile ht hw
  simp only [ParserService.currentState, offset]
  change _ = (((savedState target db).map (·.lastReadOffset)).getD 0) ∧ _
  cases hknown : savedState target db with
  | none =>
    simp only [Option.getD_none, Option.map_none]
    split_ifs
    · exact ⟨rfl, fun hpos => absurd hpos (lt_irrefl 0)⟩
    · exact ⟨rfl, fun hpos => absurd hpos (lt_irrefl 0)⟩
  | some s =>
    simp only [Option.getD_some, Option.map_some]
    by_cases hpos : 0 < s.lastReadOffset
    · rw [hrotated s hknown hpos, if_neg Bool.false_ne_true]
      exact ⟨rfl, fun _ => rfl⟩
    · obtain hzero : s.lastReadOffset = 0 := by omega
      split_ifs
      · exact ⟨hzero.symm, fun h => absurd h (lt_irrefl 0)⟩
      · exact ⟨rfl, fun h => absurd h hpos⟩

theorem Sound.pass [Alnum] (h : Sound target file t db) (ht : t ≤ m.size) (hw : Watches file m env) :
    Sound target file m.final (scan target env db).2 ∧
      offset target db ≤ offset target (scan target env db).2 := by
  have hlater : t ≤ m.final := ht.trans (hw.order.size_le_rotated.trans hw.order.rotated_le_final)
  obtain ⟨hoffset, hsaved⟩ := h.currentState hfile ht hw
  set state := ParserService.currentState target env (savedState target db) with hstate
  have hin : state.lastReadOffset ≤ (file t).length := by
    by_cases hpos : 0 < state.lastReadOffset
    · exact (h state (hsaved hpos) hpos).1
    · omega
  have hread := readAppendedLines_within hfile hw.order hw.sees hw.readsOn ht target.maxBytes hin
  have hrow := savedState_scan target env db
  cases hcommitted : committed target env (savedState target db) with
  | none =>
    rw [hcommitted, Option.none_or] at hrow
    refine ⟨h.elsewhere hfile hlater hrow, ?_⟩
    change _ ≤ ((savedState target _).map (·.lastReadOffset)).getD 0
    rw [hrow]
    exact le_rfl
  | some s =>
    rw [hcommitted, Option.some_or] at hrow
    have hnew : offset target (scan target env db).2 = s.lastReadOffset := by
      change ((savedState target _).map (·.lastReadOffset)).getD 0 = _
      rw [hrow]
      rfl
    rw [hnew, Sound, hrow]
    simp only [Option.mem_some_iff, forall_eq']
    obtain ⟨-, rfl⟩ | ⟨-, rfl⟩ := committed_cases target hcommitted
    · exact ⟨fun hpos => (h.elsewhere hfile hlater rfl) state (hsaved hpos) hpos, hoffset.ge⟩
    · obtain ⟨c, hc⟩ := Option.isSome_iff_exists.mp hw.final
      refine ⟨fun _ => ⟨hread.2, ?_⟩, hoffset.ge.trans hread.1⟩
      rw [advancedState, hc, hw.sees.final c hc]
      rfl

/-- In every state of every run over a growing file the saved offset and hash agree with the file, a
pass that starts with an offset declares no rotation, and the offset never decreases. -/
theorem file_state_sound [Alnum] {t₀ : Nat} {db₀ : Database} (hnew : savedState target db₀ = none)
    (hrun : Leads target (Watches file) t₀ db₀ t db) :
    Sound target file t db ∧
      (∀ m env, t ≤ m.size → Watches file m env → ∀ s ∈ savedState target db, 0 < s.lastReadOffset →
        rotationDetected env s (headerHash target env.header (prefixLen (some s))) = false) ∧
      ∀ t' db', Leads target (Watches file) t db t' db' → offset target db ≤ offset target db' := by
  have hstart : Sound target file t₀ db₀ := by
    intro s hs
    rw [hnew] at hs
    cases hs
  have hsound : Sound target file t db :=
    leads_invariant (P := Sound target file) (fun ht hrow h => h.elsewhere hfile ht hrow)
      (fun ht hw h => (h.pass hfile ht hw).1) hrun hstart
  refine ⟨hsound, fun m env ht hw => hsound.unrotated hfile ht hw, fun t' db' hrun' => ?_⟩
  refine (leads_invariant
    (P := fun t' db' => Sound target file t' db' ∧ offset target db ≤ offset target db')
    (fun ht hrow h => ⟨h.1.elsewhere hfile ht hrow, ?_⟩)
    (fun ht hw h => ⟨(h.1.pass hfile ht hw).1, h.2.trans (h.1.pass hfile ht hw).2⟩)
    hrun' ⟨hsound, le_rfl⟩).2
  have hsame := congrArg (fun s => (s.map (·.lastReadOffset)).getD 0) hrow
  exact h.2.trans_eq hsame.symm

end Invariant

theorem file_state_sound_letter :
    let db := (@scan lettered (still [65, 10]) asciiAlnum {}).2
    Sound lettered (fun _ => [65, 10]) 0 db ∧ offset lettered db = 2 := by
  intro db
  have hwatches : Watches (fun _ => [65, 10]) (.at 0) (still [65, 10]) :=
    ⟨Moments.at_inOrder 0, still_sees rfl, still_readsOn rfl, rfl, rfl, ⟨_, rfl, rfl, rfl⟩, rfl⟩
  have hrun : @Leads asciiAlnum lettered (Watches fun _ => [65, 10]) 0 {} 0 db :=
    @Leads.pass asciiAlnum _ _ _ _ _ _ _ _ (@Leads.start asciiAlnum _ _ _ _) le_rfl hwatches
  exact ⟨(@file_state_sound lettered _ (fun _ _ _ => List.prefix_rfl) _ _ asciiAlnum _ _ rfl hrun).1,
    by decide +kernel⟩

end AtmMonitor.FileStateInvariant

import AtmMonitor.LiveStatus
import Mathlib.Data.List.Infix

namespace AtmMonitor.LiveCash

open ParserModels DatabaseModels LiveStatus

def noteCount (s : ATMLiveStatus) : Nat → Option Int
  | 1 => s.cassette1RemainingNotes
  | 2 => s.cassette2RemainingNotes
  | 3 => s.cassette3RemainingNotes
  | 4 => s.cassette4RemainingNotes
  | _ => none

def cassettes : List Nat := [1, 2, 3, 4]

theorem cCounts_eq (s : ATMLiveStatus) : cCounts s = cassettes.map (noteCount s) := rfl

/-- The last of the values that the snapshots of cassette `i` carry. -/
def lastOf (f : CassetteSnapshot → Option Int) (snaps : List CassetteSnapshot) (i : Nat) :
    Option Int :=
  ((snaps.filter fun s => s.cassetteNo == i).filterMap f).getLast?

theorem lastOf_append (f : CassetteSnapshot → Option Int) (snaps snaps' : List CassetteSnapshot)
    (i : Nat) : lastOf f (snaps ++ snaps') i = (lastOf f snaps' i <|> lastOf f snaps i) := by
  rw [lastOf, List.filter_append, List.filterMap_append, List.getLast?_append]
  cases h : lastOf f snaps' i <;> rw [lastOf] at h <;> simp [h, lastOf]

theorem lastOf_singleton (f : CassetteSnapshot → Option Int) (snap : CassetteSnapshot) (i : Nat) :
    lastOf f [snap] i = if snap.cassetteNo = i then f snap else none := by
  by_cases h : snap.cassetteNo = i
  · cases hf : f snap <;> simp [lastOf, h, hf]
  · simp [lastOf, h]

theorem noteCount_applySnapshot (s : ATMLiveStatus) (snap : CassetteSnapshot) {i : Nat}
    (hi : i ∈ cassettes) :
    noteCount (applySnapshot s snap) i =
      ((if snap.cassetteNo = i then snap.remainingNotes else none) <|> noteCount s i) := by
  have hi' : i = 1 ∨ i = 2 ∨ i = 3 ∨ i = 4 := by simpa [cassettes] using hi
  rw [applySnapshot]
  obtain rfl | rfl | rfl | rfl := hi'
  all_goals
    split
    all_goals simp_all [noteCount]

theorem noteCount_applySnapshots (s : ATMLiveStatus) (snaps : List CassetteSnapshot) {i : Nat}
    (hi : i ∈ cassettes) :
    noteCount (snaps.foldl applySnapshot s) i =
      (lastOf (·.remainingNotes) snaps i <|> noteCount s i) := by
  induction snaps using List.reverseRecOn with
  | nil => rfl
  | append_singleton snaps snap ih =>
    rw [List.foldl_append, List.foldl_cons, List.foldl_nil, noteCount_applySnapshot _ snap hi, ih,
      lastOf_append, lastOf_singleton]
    split_ifs with h
    · cases snap.remainingNotes <;> rfl
    · rfl

theorem cDenoms_eq (snaps : List CassetteSnapshot) (i : Nat) :
    cDenoms snaps i = (lastOf (·.denomination) snaps i <|> defaultDenoms i) := by
  rw [cDenoms]
  induction snaps using List.reverseRecOn with
  | nil => rfl
  | append_singleton snaps snap ih =>
    rw [List.foldl_append, List.foldl_cons, List.foldl_nil, lastOf_append, lastOf_singleton]
    cases hd : snap.denomination with
    | none =>
      dsimp only
      rw [ih, ite_self]
      rfl
    | some v =>
      by_cases h : snap.cassetteNo = i
      · subst h
        simp [Function.update_self]
      · simp only [h, if_false]
        rw [Function.update_of_ne (Ne.symm h), ih]
        rfl

structure SameCash (s s' : ATMLiveStatus) : Prop where
  counts : noteCount s' = noteCount s
  amount : s'.cashRemainingAmount = s.cashRemainingAmount

theorem SameCash.trans {s s' s'' : ATMLiveStatus} (h : SameCash s s') (h' : SameCash s' s'') :
    SameCash s s'' :=
  ⟨h'.counts.trans h.counts, h'.amount.trans h.amount⟩

def beforeSnapshots (now : Timestamp) (s : ATMLiveStatus) (ev : ATMParsedEvent) : ATMLiveStatus :=
  applyRejectBin ev (applyCardReader ev (applyTransaction ev (applyLastEvent now ev
    (applySupervisorMode ev (applyTerminalStatus ev s)))))

theorem beforeSnapshots_sameCash (now : Timestamp) (s : ATMLiveStatus) (ev : ATMParsedEvent) :
    SameCash s (beforeSnapshots now s ev) := by
  have hterminal : SameCash s (applyTerminalStatus ev s) := by
    rw [applyTerminalStatus]
    cases ev.terminalStatus <;> exact ⟨rfl, rfl⟩
  have hsupervisor : ∀ t, SameCash t (applySupervisorMode ev t) := by
    intro t
    rw [applySupervisorMode]
    cases ev.supervisorMode <;> exact ⟨rfl, rfl⟩
  have hlast : ∀ t, SameCash t (applyLastEvent now ev t) := fun t => ⟨rfl, rfl⟩
  have htransaction : ∀ t, SameCash t (applyTransaction ev t) := by
    intro t
    rw [applyTransaction]
    cases ev.amount <;> exact ⟨rfl, rfl⟩
  have hreader : ∀ t, SameCash t (applyCardReader ev t) := by
    intro t
    rw [applyCardReader]
    split_ifs <;> exact ⟨rfl, rfl⟩
  have hbin : ∀ t, SameCash t (applyRejectBin ev t) := by
    intro t
    rw [applyRejectBin]
    split_ifs <;> exact ⟨rfl, rfl⟩
  exact ((((hterminal.trans (hsupervisor _)).trans (hlast _)).trans (htransaction _)).trans
    (hreader _)).trans (hbin _)

theorem applySnapshots_amount (s : ATMLiveStatus) (snaps : List CassetteSnapshot) :
    (snaps.foldl applySnapshot s).cashRemainingAmount = s.cashRemainingAmount := by
  induction snaps generalizing s with
  | nil => rfl
  | cons snap rest ih =>
    rw [List.foldl_cons, ih]
    rw [applySnapshot]
    split <;> rfl

/-- The count of a cassette after an event: the last one that its snapshots carry, else the one
that the row had. -/
def countAfter (s : ATMLiveStatus) (snaps : List CassetteSnapshot) (i : Nat) : Option Int :=
  lastOf (·.remainingNotes) snaps i <|> noteCount s i

theorem noteCount_applyStatusUpdates (now : Timestamp) (s : ATMLiveStatus) (ev : ATMParsedEvent)
    (snaps : List CassetteSnapshot) {i : Nat} (hi : i ∈ cassettes) :
    noteCount (applyStatusUpdates now s ev snaps) i = countAfter s snaps i := by
  have hcash : ∀ t, noteCount (applyCash snaps t) = noteCount t := by
    intro t
    simp only [applyCash]
    split_ifs <;> rfl
  have hstep : noteCount (applyStatusUpdates now s ev snaps) =
      noteCount (snaps.foldl applySnapshot (beforeSnapshots now s ev)) := hcash _
  rw [hstep, noteCount_applySnapshots _ snaps hi, (beforeSnapshots_sameCash now s ev).counts,
    countAfter]

def anyCount (counts : Nat → Option Int) : Bool := cassettes.any fun i => (counts i).isSome

theorem amount_applyStatusUpdates (now : Timestamp) (s : ATMLiveStatus) (ev : ATMParsedEvent)
    (snaps : List CassetteSnapshot) :
    (applyStatusUpdates now s ev snaps).cashRemainingAmount =
      if anyCount (countAfter s snaps) then
        some ((cassettes.map fun i =>
          (countAfter s snaps i).getD 0 *
            (lastOf (·.denomination) snaps i <|> defaultDenoms i).getD 0).sum)
      else s.cashRemainingAmount := by
  set t := snaps.foldl applySnapshot (beforeSnapshots now s ev) with ht
  have hstep : (applyStatusUpdates now s ev snaps).cashRemainingAmount =
      (applyCash snaps t).cashRemainingAmount := rfl
  have hcounts : cCounts t = cassettes.map (countAfter s snaps) := by
    rw [cCounts_eq]
    apply List.map_congr_left
    intro i hi
    rw [ht, noteCount_applySnapshots _ snaps hi, (beforeSnapshots_sameCash now s ev).counts,
      countAfter]
  have hany : (cCounts t).any Option.isSome = anyCount (countAfter s snaps) := by
    rw [hcounts, anyCount, List.any_map]
    rfl
  have hamount : t.cashRemainingAmount = s.cashRemainingAmount :=
    (applySnapshots_amount _ snaps).trans (beforeSnapshots_sameCash now s ev).amount
  have hcalc : calcCash (cCounts t) (cDenoms snaps) = (cassettes.map fun i =>
      (countAfter s snaps i).getD 0 *
        (lastOf (·.denomination) snaps i <|> defaultDenoms i).getD 0).sum := by
    rw [hcounts, calcCash]
    simp only [cassettes, List.map_cons, List.map_nil, List.zipIdx_cons, List.zipIdx_nil,
      cDenoms_eq]
  rw [hstep, ← hany, ← hcalc, ← hamount]
  simp only [applyCash]
  split_ifs <;> rfl

structure Update where
  now : Timestamp
  ev : ATMParsedEvent
  snaps : List CassetteSnapshot

/-- The row that a run of updates makes of the one that is created for a new machine. -/
def rowAfter (us : List Update) : ATMLiveStatus :=
  us.foldl (fun s u => applyStatusUpdates u.now s u.ev u.snaps) initialStatus

def snapsOf (us : List Update) : List CassetteSnapshot := us.flatMap (·.snaps)

/-- The value of a note of cassette `i`: the last denomination it was reported with, or its
default. -/
def unitValue (snaps : List CassetteSnapshot) (i : Nat) : Int :=
  (lastOf (·.denomination) snaps i <|> defaultDenoms i).getD 0

def AmountRight (s : ATMLiveStatus) (snaps : List CassetteSnapshot) : Prop :=
  anyCount (noteCount s) = true →
    s.cashRemainingAmount =
      some ((cassettes.map fun i => (noteCount s i).getD 0 * unitValue snaps i).sum)

/-- The event carries a denomination for every cassette with notes whose reported denomination is
not its default. -/
def CarriesDenominations (s : ATMLiveStatus) (snaps : List CassetteSnapshot) (u : Update) : Prop :=
  ∀ i ∈ cassettes, (countAfter s u.snaps i).getD 0 ≠ 0 →
    lastOf (·.denomination) u.snaps i ≠ none ∨ lastOf (·.denomination) snaps i = none ∨
      lastOf (·.denomination) snaps i = defaultDenoms i

theorem anyCount_congr {f g : Nat → Option Int} (h : ∀ i ∈ cassettes, f i = g i) :
    anyCount f = anyCount g := by
  have h1 := h 1 (by simp [cassettes])
  have h2 := h 2 (by simp [cassettes])
  have h3 := h 3 (by simp [cassettes])
  have h4 := h 4 (by simp [cassettes])
  simp only [anyCount, cassettes, List.any_cons, List.any_nil, h1, h2, h3, h4]

/-- One update restores the amount, whatever it was before. -/
theorem amountRight_update {s : ATMLiveStatus} {snaps : List CassetteSnapshot} {u : Update}
    (h : CarriesDenominations s snaps u) :
    AmountRight (applyStatusUpdates u.now s u.ev u.snaps) (snaps ++ u.snaps) := by
  have hcount := fun i (hi : i ∈ cassettes) =>
    noteCount_applyStatusUpdates u.now s u.ev u.snaps hi
  intro hany
  rw [anyCount_congr hcount] at hany
  rw [amount_applyStatusUpdates, if_pos hany]
  congr 2
  apply List.map_congr_left
  intro i hi
  rw [hcount i hi]
  by_cases hzero : (countAfter s u.snaps i).getD 0 = 0
  · rw [hzero, Int.zero_mul, Int.zero_mul]
  · rw [unitValue, lastOf_append]
    obtain hnew | hold | hold := h i hi hzero
    · obtain ⟨v, hv⟩ := Option.ne_none_iff_exists'.mp hnew
      rw [hv]
      rfl
    · rw [hold]
      cases lastOf (·.denomination) u.snaps i <;> rfl
    · rw [hold]
      cases lastOf (·.denomination) u.snaps i with
      | some v => rfl
      | none => cases defaultDenoms i <;> rfl

theorem rowAfter_concat (pre : List Update) (u : Update) :
    rowAfter (pre ++ [u]) = applyStatusUpdates u.now (rowAfter pre) u.ev u.snaps := by
  rw [rowAfter, List.foldl_append]
  rfl

theorem snapsOf_concat (pre : List Update) (u : Update) :
    snapsOf (pre ++ [u]) = snapsOf pre ++ u.snaps := by
  simp [snapsOf]

/-- In a run whose events all carry the denominations that are needed, the amount is right in
every row reached, and an event without snapshots leaves it as it is. -/
theorem cash_amount_right (us : List Update)
    (h : ∀ pre u, pre ++ [u] <+: us → CarriesDenominations (rowAfter pre) (snapsOf pre) u) :
    ∀ pre, pre <+: us →
      AmountRight (rowAfter pre) (snapsOf pre) ∧
        ∀ u, pre ++ [u] <+: us → u.snaps = [] →
          (rowAfter (pre ++ [u])).cashRemainingAmount = (rowAfter pre).cashRemainingAmount := by
  have hright : ∀ pre, pre <+: us → AmountRight (rowAfter pre) (snapsOf pre) := by
    intro pre hpre
    induction pre using List.reverseRecOn with
    | nil =>
      intro hany
      cases hany
    | append_singleton pre u _ =>
      rw [rowAfter_concat, snapsOf_concat]
      exact amountRight_update (h pre u hpre)
  refine fun pre hpre => ⟨hright pre hpre, fun u hu hnone => ?_⟩
  have hsnaps : snapsOf (pre ++ [u]) = snapsOf pre := by
    rw [snapsOf_concat, hnone, List.append_nil]
  have hcount : ∀ i ∈ cassettes, noteCount (rowAfter (pre ++ [u])) i = noteCount (rowAfter pre) i := by
    intro i hi
    rw [rowAfter_concat, noteCount_applyStatusUpdates _ _ _ _ hi, hnone]
    rfl
  have hafter := hright (pre ++ [u]) hu
  have hbefore := hright pre hpre
  rw [AmountRight, anyCount_congr hcount, hsnaps] at hafter
  cases hany : anyCount (noteCount (rowAfter pre)) with
  | true =>
    rw [hafter hany, hbefore hany]
    congr 2
    exact List.map_congr_left fun i hi => by rw [hcount i hi]
  | false =>
    have hno : anyCount (countAfter (rowAfter pre) u.snaps) = false := by
      rw [hnone]
      exact hany
    rw [rowAfter_concat, amount_applyStatusUpdates, hno]
    rfl

theorem carries_concat {us : List Update} {u : Update}
    (h : ∀ pre v, pre ++ [v] <+: us → CarriesDenominations (rowAfter pre) (snapsOf pre) v)
    (hu : CarriesDenominations (rowAfter us) (snapsOf us) u) :
    ∀ pre v, pre ++ [v] <+: us ++ [u] → CarriesDenominations (rowAfter pre) (snapsOf pre) v := by
  intro pre v hpre
  obtain heq | hpre := List.prefix_concat_iff.mp hpre
  · obtain ⟨rfl, hv⟩ := List.append_inj' heq rfl
    rwa [List.singleton_inj.mp hv]
  · exact h pre v hpre

def reported : Update :=
  ⟨0, .bare 1 10 .cashAdded,
    [{ cassetteNo := 1, cassetteStatus := .low, denomination := some 10,
       remainingNotes := some 45 }]⟩

def refilled : Update :=
  ⟨0, .bare 2 20 .cashAdded,
    [{ cassetteNo := 1, cassetteStatus := .low, denomination := some 10, remainingNotes := some 90 },
     { cassetteNo := 2, cassetteStatus := .low, remainingNotes := some 3 }]⟩

def emptied : Update :=
  ⟨0, .bare 3 30 .cashCountsCleared,
    [{ cassetteNo := 1, cassetteStatus := .empty, remainingNotes := some 0 }]⟩

def inserted : Update := ⟨0, .bare 4 40 .cardInserted, []⟩

/-- The denomination 10 is reported again while cassette 1 has notes, and no more when it is empty. -/
theorem cash_amount_right_reported : let us := [reported, refilled, emptied]
    AmountRight (rowAfter us) (snapsOf us) ∧ (rowAfter us).cashRemainingAmount = some 1500 ∧
      (rowAfter (us ++ [inserted])).cashRemainingAmount = (rowAfter us).cashRemainingAmount := by
  intro us
  have hreported := @carries_concat [] reported (fun pre v hpre => absurd hpre.length_le (by simp))
    (by unfold CarriesDenominations; decide)
  have hrefilled := @carries_concat _ refilled hreported (by unfold CarriesDenominations; decide)
  have hemptied := @carries_concat _ emptied hrefilled (by unfold CarriesDenominations; decide)
  have hinserted := @carries_concat _ inserted hemptied (by unfold CarriesDenominations; decide)
  obtain ⟨hright, hsame⟩ := cash_amount_right _ hinserted us (List.prefix_append us [inserted])
  exact ⟨hright, by decide, hsame inserted List.prefix_rfl rfl⟩

/-- After a denomination other than the default was reported, the next event without snapshots
values the notes by the default. -/
theorem cash_amount_wrong :
    ¬ AmountRight (rowAfter [reported, ⟨0, .bare 2 20 .cardInserted, []⟩])
        (snapsOf [reported, ⟨0, .bare 2 20 .cardInserted, []⟩]) ∧
      (rowAfter [reported]).cashRemainingAmount = some 450 ∧
      (rowAfter [reported, ⟨0, .bare 2 20 .cardInserted, []⟩]).cashRemainingAmount =
        some 45000 := by
  rw [AmountRight]
  decide

end AtmMonitor.LiveCash

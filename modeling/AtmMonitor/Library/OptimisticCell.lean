import Mathlib.Data.List.Basic
import Mathlib.Logic.Function.Basic
import Mathlib.Order.Nat

namespace AtmMonitor.Library.OptimisticCell

/-- A versioned row under optimistic writers, which write what they computed from the version they
read if it is still there, and blind writers, which change it whatever its version is. The store
stamps every write with a fresh version. -/
structure Cell (R J H : Type) where
  version : R → Nat
  stamp : Nat → R → R
  version_stamp : ∀ v r, version (stamp v r) = v
  fresh : R
  skips : J → R → Bool
  skips_fresh : ∀ j v, skips j (stamp v fresh) = false
  update : J → R → R
  touch : H → R → R
  attempts : Nat

inductive Phase (R : Type) where
  | ready (attempt : Nat)
  | loaded (attempt : Nat) (row : R)
  | applied (attempt version : Nat) (row : R)
  | written
  | skipped
  | ended

/-- The committed row, the uncommitted write with the transaction that holds the lock, and the
committed versions in their order. -/
structure State (T R : Type) where
  row : Option R
  held : Option (T × R)
  next : Nat
  phase : T → Phase R
  log : List (T × R)

variable {T R J H : Type} [DecidableEq T]

def State.goto (s : State T R) (t : T) (p : Phase R) : State T R :=
  { s with phase := Function.update s.phase t p }

def State.hold (C : Cell R J H) (s : State T R) (t : T) (r : R) (p : Phase R) : State T R :=
  { s with
    held := some (t, C.stamp s.next r)
    next := s.next + 1
    phase := Function.update s.phase t p }

def State.commit (s : State T R) (t : T) (r : R) : State T R :=
  { s with
    row := some r
    held := none
    phase := Function.update s.phase t .ended
    log := s.log ++ [(t, r)] }

def State.abort (s : State T R) (t : T) : State T R :=
  { s with
    held := s.held.filter fun h => h.1 ≠ t
    phase := Function.update s.phase t .ended }

/-- What a transaction reads: its own write, or the committed row. -/
def State.seen (s : State T R) (t : T) : Option R :=
  match s.held with
  | some (t', r) => if t' = t then some r else s.row
  | none => s.row

def State.FreeFor (s : State T R) (t : T) : Prop := ∀ t' r, s.held = some (t', r) → t' = t

section System

variable (C : Cell R J H) (job : T → J ⊕ H)

inductive Step (s : State T R) : State T R → Prop
  | read (t : T) (j : J) (a : Nat) (r : R) (hj : job t = .inl j) (hp : s.phase t = .ready a)
      (hr : s.seen t = some r) (hs : C.skips j r = false) : Step s (s.goto t (.loaded a r))
  | skip (t : T) (j : J) (a : Nat) (r : R) (hj : job t = .inl j) (hp : s.phase t = .ready a)
      (hr : s.seen t = some r) (hs : C.skips j r = true) : Step s (s.goto t .skipped)
  | create (t : T) (j : J) (a : Nat) (hj : job t = .inl j) (hp : s.phase t = .ready a)
      (hr : s.row = none) (hfree : s.held = none) :
      Step s (s.hold C t C.fresh (.loaded a (C.stamp s.next C.fresh)))
  | apply (t : T) (j : J) (a : Nat) (r : R) (hj : job t = .inl j) (hp : s.phase t = .loaded a r) :
      Step s (s.goto t (.applied a (C.version r) (C.update j r)))
  | write (t : T) (a v : Nat) (r c : R) (hp : s.phase t = .applied a v r)
      (hc : s.seen t = some c) (hv : C.version c = v) (hfree : s.FreeFor t) :
      Step s (s.hold C t r .written)
  | conflict (t : T) (a v : Nat) (r : R) (hp : s.phase t = .applied a v r)
      (hc : ∀ c, s.seen t = some c → C.version c ≠ v) (ha : a + 1 < C.attempts) :
      Step s (s.goto t (.ready (a + 1)))
  | touch (t : T) (h : H) (r : R) (hj : job t = .inr h) (hp : s.phase t = .ready 0)
      (hr : s.row = some r) (hfree : s.held = none) : Step s (s.hold C t (C.touch h r) .written)
  | commit (t : T) (r : R) (hp : s.phase t = .written) (hh : s.held = some (t, r)) :
      Step s (s.commit t r)
  | finish (t : T) (hp : s.phase t = .skipped) : Step s (s.goto t .ended)
  | abort (t : T) : Step s (s.abort t)

def initial (start : Option R) (next : Nat) : State T R := ⟨start, none, next, fun _ => .ready 0, []⟩

inductive Reachable (start : Option R) (next : Nat) : State T R → Prop
  | init : Reachable start next (initial start next)
  | step {s s' : State T R} : Reachable start next s → Step C job s s' → Reachable start next s'

/-- The committed version is what its writer makes of the version before it. -/
inductive Follows : Option R → T × R → Prop
  | update (t : T) (j : J) (base : R) (v : Nat) (hj : job t = .inl j)
      (hs : C.skips j base = false) : Follows (some base) (t, C.stamp v (C.update j base))
  | create (t : T) (j : J) (v₀ v : Nat) (hj : job t = .inl j) :
      Follows none (t, C.stamp v (C.update j (C.stamp v₀ C.fresh)))
  | touch (t : T) (h : H) (base : R) (v : Nat) (hj : job t = .inr h) :
      Follows (some base) (t, C.stamp v (C.touch h base))

end System

def lastRow (start : Option R) (log : List (T × R)) : Option R :=
  (log.getLast?.map Prod.snd) <|> start

omit [DecidableEq T] in
theorem lastRow_concat (start : Option R) (log : List (T × R)) (e : T × R) :
    lastRow start (log ++ [e]) = some e.2 := by
  simp [lastRow]

section Invariant

variable (C : Cell R J H) (job : T → J ⊕ H)

/-- What a transaction knows of the row it read: it created the row and still holds it, or it is
a committed version, no later than the current one and equal to it if the version is. -/
def Saw (s : State T R) (t : T) (r : R) : Prop :=
  (s.held = some (t, r) ∧ s.row = none ∧ ∃ v, r = C.stamp v C.fresh) ∨
    ((∀ r', s.held ≠ some (t, r')) ∧
      ∃ c, s.row = some c ∧ C.version r ≤ C.version c ∧ (C.version r = C.version c → r = c))

structure Inv (start : Option R) (s : State T R) : Prop where
  linked : ∀ pre e post, s.log = pre ++ e :: post → Follows C job (lastRow start pre) e
  current : s.row = lastRow start s.log
  rowFresh : ∀ r, s.row = some r → C.version r < s.next
  heldFresh : ∀ t r, s.held = some (t, r) →
    C.version r < s.next ∧ ∀ c, s.row = some c → C.version c < C.version r
  ready : ∀ t a, s.phase t = .ready a → ∀ r, s.held ≠ some (t, r)
  loaded : ∀ t a r, s.phase t = .loaded a r →
    Saw C s t r ∧ ∀ j, job t = .inl j → C.skips j r = false
  applied : ∀ t a v r', s.phase t = .applied a v r' →
    ∃ j r, job t = .inl j ∧ v = C.version r ∧ r' = C.update j r ∧ C.skips j r = false ∧ Saw C s t r
  written : ∀ t r, s.phase t = .written → s.held = some (t, r) → Follows C job s.row (t, r)

variable {C job} {start : Option R} {s : State T R}

theorem goto_inv (h : Inv C job start s) (t : T) (p : Phase R)
    (hready : ∀ a, p = .ready a → ∀ r, s.held ≠ some (t, r))
    (hloaded : ∀ a r, p = .loaded a r → Saw C s t r ∧ ∀ j, job t = .inl j → C.skips j r = false)
    (happlied : ∀ a v r', p = .applied a v r' → ∃ j r, job t = .inl j ∧ v = C.version r ∧
      r' = C.update j r ∧ C.skips j r = false ∧ Saw C s t r)
    (hwritten : p ≠ .written) : Inv C job start (s.goto t p) := by
  refine ⟨h.linked, h.current, h.rowFresh, h.heldFresh, ?_, ?_, ?_, ?_⟩
  · intro t' a hp
    by_cases ht : t' = t
    · subst ht
      exact hready a (by simpa [State.goto] using hp)
    · exact h.ready t' a (by simpa [State.goto, ht] using hp)
  · intro t' a r hp
    by_cases ht : t' = t
    · subst ht
      exact hloaded a r (by simpa [State.goto] using hp)
    · exact h.loaded t' a r (by simpa [State.goto, ht] using hp)
  · intro t' a v r' hp
    by_cases ht : t' = t
    · subst ht
      exact happlied a v r' (by simpa [State.goto] using hp)
    · exact h.applied t' a v r' (by simpa [State.goto, ht] using hp)
  · intro t' r hp hh
    by_cases ht : t' = t
    · subst ht
      exact absurd (by simpa [State.goto] using hp) hwritten
    · exact h.written t' r (by simpa [State.goto, ht] using hp) hh

theorem hold_inv (h : Inv C job start s) (t : T) (r : R) (p : Phase R) (hfree : s.FreeFor t)
    (hready : ∀ a, p ≠ .ready a)
    (hloaded : ∀ a r', p = .loaded a r' → r' = C.stamp s.next C.fresh ∧ r = C.fresh ∧ s.row = none)
    (happlied : ∀ a v r', p ≠ .applied a v r')
    (hwritten : p = .written → Follows C job s.row (t, C.stamp s.next r)) :
    Inv C job start (s.hold C t r p) := by
  have hsaw : ∀ t' r', t' ≠ t → Saw C s t' r' → Saw C (s.hold C t r p) t' r' := by
    intro t' r' hne hs
    obtain ⟨hh, -, -⟩ | ⟨-, hc⟩ := hs
    · exact absurd (hfree t' r' hh) hne
    · refine Or.inr ⟨fun r'' heq => hne ?_, hc⟩
      simp only [State.hold, Option.some.injEq, Prod.mk.injEq] at heq
      exact heq.1.symm
  refine ⟨h.linked, h.current, ?_, ?_, ?_, ?_, ?_, ?_⟩
  · exact fun r' hr' => (h.rowFresh r' hr').trans (Nat.lt_succ_self _)
  · intro t' r' hh
    simp only [State.hold, Option.some.injEq, Prod.mk.injEq] at hh
    rw [← hh.2, C.version_stamp]
    exact ⟨Nat.lt_succ_self _, h.rowFresh⟩
  · intro t' a hp r' hh
    simp only [State.hold, Option.some.injEq, Prod.mk.injEq] at hh
    rw [← hh.1] at hp
    exact hready a (by simpa [State.hold] using hp)
  · intro t' a r' hp
    by_cases ht : t' = t
    · subst ht
      obtain ⟨h1, h2, h3⟩ := hloaded a r' (by simpa [State.hold] using hp)
      refine ⟨Or.inl ⟨?_, h3, s.next, h1⟩, fun j _ => ?_⟩
      · rw [h1, ← h2]
        rfl
      · rw [h1]
        exact C.skips_fresh j s.next
    · obtain ⟨h1, h2⟩ := h.loaded t' a r' (by simpa [State.hold, ht] using hp)
      exact ⟨hsaw t' r' ht h1, h2⟩
  · intro t' a v r' hp
    by_cases ht : t' = t
    · subst ht
      exact absurd (by simpa [State.hold] using hp) (happlied a v r')
    · obtain ⟨j, r0, h1, h2, h3, h4, h5⟩ := h.applied t' a v r' (by simpa [State.hold, ht] using hp)
      exact ⟨j, r0, h1, h2, h3, h4, hsaw t' r0 ht h5⟩
  · intro t' r' hp hh
    simp only [State.hold, Option.some.injEq, Prod.mk.injEq] at hh
    rw [← hh.1] at hp
    rw [← hh.1, ← hh.2]
    exact hwritten (by simpa [State.hold] using hp)

theorem commit_inv (h : Inv C job start s) (t : T) (r : R) (hp : s.phase t = .written)
    (hh : s.held = some (t, r)) : Inv C job start (s.commit t r) := by
  obtain ⟨hnext, hlater⟩ := h.heldFresh t r hh
  have hsaw : ∀ t' r', t' ≠ t → Saw C s t' r' → Saw C (s.commit t r) t' r' := by
    intro t' r' hne hs
    obtain ⟨hh', -, -⟩ | ⟨-, c, hc, hle, -⟩ := hs
    · rw [hh, Option.some.injEq, Prod.mk.injEq] at hh'
      exact absurd hh'.1.symm hne
    · have hlt : C.version r' < C.version r := hle.trans_lt (hlater c hc)
      refine Or.inr ⟨fun r'' heq => ?_, r, rfl, hlt.le, fun heq => absurd heq hlt.ne⟩
      cases heq
  refine ⟨?_, ?_, ?_, ?_, ?_, ?_, ?_, ?_⟩
  · intro pre e post hlog
    rw [State.commit] at hlog
    obtain rfl | ⟨post', e', rfl⟩ := List.eq_nil_or_concat post
    · obtain ⟨hpre, he⟩ := List.append_inj' hlog rfl
      rw [List.cons.injEq] at he
      rw [← hpre, ← he.1, ← h.current]
      exact h.written t r hp hh
    · have hlog' : s.log ++ [(t, r)] = (pre ++ e :: post') ++ [e'] := by
        simpa using hlog
      exact h.linked pre e post' (List.append_inj' hlog' rfl).1
  · rw [State.commit, lastRow_concat]
  · intro r' hr'
    obtain rfl : r = r' := by simpa [State.commit] using hr'
    exact hnext
  · intro t' r' hh'
    cases hh'
  · intro t' a _ r' hh'
    cases hh'
  · intro t' a r' hp'
    by_cases ht : t' = t
    · subst ht
      simp [State.commit] at hp'
    · obtain ⟨h1, h2⟩ := h.loaded t' a r' (by simpa [State.commit, ht] using hp')
      exact ⟨hsaw t' r' ht h1, h2⟩
  · intro t' a v r' hp'
    by_cases ht : t' = t
    · subst ht
      simp [State.commit] at hp'
    · obtain ⟨j, r0, h1, h2, h3, h4, h5⟩ := h.applied t' a v r'
        (by simpa [State.commit, ht] using hp')
      exact ⟨j, r0, h1, h2, h3, h4, hsaw t' r0 ht h5⟩
  · intro t' r' _ hh'
    cases hh'

theorem abort_inv (h : Inv C job start s) (t : T) : Inv C job start (s.abort t) := by
  have hheld : ∀ t' r', (s.abort t).held = some (t', r') → s.held = some (t', r') := by
    intro t' r' hh
    exact (Option.filter_eq_some_iff.mp hh).1
  have hkeep : ∀ t' r', t' ≠ t → s.held = some (t', r') → (s.abort t).held = some (t', r') := by
    intro t' r' hne hh
    exact Option.filter_eq_some_iff.mpr ⟨hh, by simpa using hne⟩
  have hsaw : ∀ t' r', t' ≠ t → Saw C s t' r' → Saw C (s.abort t) t' r' := by
    intro t' r' hne hs
    obtain ⟨hh, hrow⟩ | ⟨hn, hc⟩ := hs
    · exact Or.inl ⟨hkeep t' r' hne hh, hrow⟩
    · exact Or.inr ⟨fun r'' heq => hn r'' (hheld t' r'' heq), hc⟩
  refine ⟨h.linked, h.current, h.rowFresh, fun t' r' hh => h.heldFresh t' r' (hheld t' r' hh),
    ?_, ?_, ?_, ?_⟩
  · intro t' a hp r' hh
    by_cases ht : t' = t
    · subst ht
      simp [State.abort] at hp
    · exact h.ready t' a (by simpa [State.abort, ht] using hp) r' (hheld t' r' hh)
  · intro t' a r' hp
    by_cases ht : t' = t
    · subst ht
      simp [State.abort] at hp
    · obtain ⟨h1, h2⟩ := h.loaded t' a r' (by simpa [State.abort, ht] using hp)
      exact ⟨hsaw t' r' ht h1, h2⟩
  · intro t' a v r' hp
    by_cases ht : t' = t
    · subst ht
      simp [State.abort] at hp
    · obtain ⟨j, r0, h1, h2, h3, h4, h5⟩ := h.applied t' a v r' (by simpa [State.abort, ht] using hp)
      exact ⟨j, r0, h1, h2, h3, h4, hsaw t' r0 ht h5⟩
  · intro t' r' hp hh
    by_cases ht : t' = t
    · subst ht
      simp [State.abort] at hp
    · exact h.written t' r' (by simpa [State.abort, ht] using hp) (hheld t' r' hh)

theorem seen_of_not_held {t : T} (h : ∀ r, s.held ≠ some (t, r)) : s.seen t = s.row := by
  rw [State.seen]
  cases hh : s.held with
  | none => rfl
  | some p =>
    obtain ⟨t', r⟩ := p
    have hne : t' ≠ t := fun heq => h r (by rw [hh, heq])
    exact if_neg hne

theorem seen_of_held {t : T} {r : R} (h : s.held = some (t, r)) : s.seen t = some r := by
  rw [State.seen, h]
  exact if_pos rfl

/-- A write that finds the version that it read writes an update of the current row. -/
theorem write_follows (h : Inv C job start s) {t : T} {a v : Nat} {r c : R}
    (hp : s.phase t = .applied a v r) (hc : s.seen t = some c) (hv : C.version c = v) :
    Follows C job s.row (t, C.stamp s.next r) := by
  obtain ⟨j, r0, hj, hver, hr, hs, hsaw⟩ := h.applied t a v r hp
  obtain ⟨-, hrow, v0, hfresh⟩ | ⟨hn, c', hc', -, heq⟩ := hsaw
  · rw [hrow, hr, hfresh]
    exact Follows.create t j v0 s.next hj
  · rw [seen_of_not_held hn, hc', Option.some.injEq] at hc
    obtain rfl : r0 = c' := heq (by rw [← hver, ← hv, hc])
    rw [hc', hr]
    exact Follows.update t j r0 s.next hj hs

theorem step_inv {s' : State T R} (h : Inv C job start s) (st : Step C job s s') :
    Inv C job start s' := by
  cases st with
  | read t j a r hj hp hr hs =>
    have hn := h.ready t a hp
    refine goto_inv h t _ (by simp) ?_ (by simp) (by simp)
    intro a' r' heq
    rw [Phase.loaded.injEq] at heq
    rw [← heq.2]
    rw [seen_of_not_held hn] at hr
    refine ⟨Or.inr ⟨hn, r, hr, le_rfl, fun _ => rfl⟩, fun j' hj' => ?_⟩
    rw [hj, Sum.inl.injEq] at hj'
    rwa [← hj']
  | skip t j a r hj hp hr hs => exact goto_inv h t _ (by simp) (by simp) (by simp) (by simp)
  | create t j a hj hp hr hfree =>
    refine hold_inv h t _ _ ?_ (by simp) ?_ (by simp) (by simp)
    · intro t' r' hh
      rw [hfree] at hh
      cases hh
    · intro a' r' heq
      rw [Phase.loaded.injEq] at heq
      exact ⟨heq.2.symm, rfl, hr⟩
  | apply t j a r hj hp =>
    obtain ⟨hsaw, hs⟩ := h.loaded t a r hp
    refine goto_inv h t _ (by simp) (by simp) ?_ (by simp)
    intro a' v r' heq
    rw [Phase.applied.injEq] at heq
    exact ⟨j, r, hj, heq.2.1.symm, heq.2.2.symm, hs j hj, hsaw⟩
  | write t a v r c hp hc hv hfree =>
    exact hold_inv h t r _ hfree (by simp) (by simp) (by simp) fun _ => write_follows h hp hc hv
  | conflict t a v r hp hc ha =>
    refine goto_inv h t _ ?_ (by simp) (by simp) (by simp)
    intro a' _ r' hh
    obtain ⟨j, r0, -, hver, -, -, hsaw⟩ := h.applied t a v r hp
    obtain ⟨hh0, -, -⟩ | ⟨hn, -⟩ := hsaw
    · exact hc r0 (seen_of_held hh0) hver.symm
    · exact hn r' hh
  | touch t hb r hj hp hr hfree =>
    refine hold_inv h t _ _ ?_ (by simp) (by simp) (by simp) fun _ => ?_
    · intro t' r' hh
      rw [hfree] at hh
      cases hh
    · rw [hr]
      exact Follows.touch t hb r s.next hj
  | commit t r hp hh => exact commit_inv h t r hp hh
  | finish t hp => exact goto_inv h t _ (by simp) (by simp) (by simp) (by simp)
  | abort t => exact abort_inv h t

omit [DecidableEq T] in
theorem initial_inv {next : Nat} (hstart : ∀ r, start = some r → C.version r < next) :
    Inv C job start (initial start next) where
  linked := by
    intro pre e post hlog
    simp [initial] at hlog
  current := by simp [initial, lastRow]
  rowFresh := hstart
  heldFresh := by simp [initial]
  ready := by simp [initial]
  loaded := by simp [initial]
  applied := by simp [initial]
  written := by simp [initial]

/-- In every interleaving each committed version follows from the one before it. -/
theorem reachable_inv {next : Nat} (hstart : ∀ r, start = some r → C.version r < next)
    (h : Reachable C job start next s) : Inv C job start s := by
  induction h with
  | init => exact initial_inv hstart
  | step _ st ih => exact step_inv ih st

end Invariant

end AtmMonitor.Library.OptimisticCell

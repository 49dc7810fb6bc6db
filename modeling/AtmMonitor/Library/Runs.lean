import Mathlib.Data.List.Chain

namespace AtmMonitor.Library.Runs

variable {σ α : Type} {step : σ → α → σ}

/-- The states that a run visits, the first and the last included. -/
def states (step : σ → α → σ) : σ → List α → List σ
  | s, [] => [s]
  | s, x :: xs => s :: states step (step s x) xs

theorem head?_states (s : σ) (xs : List α) : (states step s xs).head? = some s := by
  cases xs <;> rfl

theorem getLast?_states (s : σ) (xs : List α) :
    (states step s xs).getLast? = some (xs.foldl step s) := by
  induction xs generalizing s with
  | nil => rfl
  | cons x xs ih => rw [states, List.getLast?_cons, ih (step s x), Option.getD_some, List.foldl_cons]

theorem foldl_invariant {P : σ → Prop} {xs : List α} {s : σ} (hs : P s)
    (hstep : ∀ t, ∀ x ∈ xs, P t → P (step t x)) : P (xs.foldl step s) := by
  induction xs generalizing s with
  | nil => exact hs
  | cons x xs ih =>
    exact ih (hstep s x (by simp) hs) (fun t y hy => hstep t y (List.mem_cons_of_mem _ hy))

theorem states_invariant {P : σ → Prop} {xs : List α} {s : σ} (hs : P s)
    (hstep : ∀ t, ∀ x ∈ xs, P t → P (step t x)) : ∀ t ∈ states step s xs, P t := by
  induction xs generalizing s with
  | nil => simpa [states] using hs
  | cons x xs ih =>
    have htail := ih (hstep s x (by simp) hs) (fun t y hy => hstep t y (List.mem_cons_of_mem _ hy))
    simpa [states] using ⟨hs, htail⟩

theorem states_chain {P : σ → Prop} {R : σ → σ → Prop} {xs : List α} {s : σ} (hs : P s)
    (hstep : ∀ t, ∀ x ∈ xs, P t → P (step t x))
    (hrel : ∀ t, ∀ x ∈ xs, P t → R t (step t x)) : (states step s xs).IsChain R := by
  induction xs generalizing s with
  | nil => exact List.isChain_singleton s
  | cons x xs ih =>
    have htail := ih (hstep s x (by simp) hs) (fun t y hy => hstep t y (List.mem_cons_of_mem _ hy))
      (fun t y hy => hrel t y (List.mem_cons_of_mem _ hy))
    refine List.isChain_cons.mpr ⟨fun t ht => ?_, htail⟩
    rw [head?_states, Option.mem_some_iff] at ht
    rw [← ht]
    exact hrel s x (by simp) hs

/-- Steps that leave a mark and do nothing where their mark is found. -/
structure Absorbing (step : σ → α → σ) (done : σ → α → Prop) (xs : List α) : Prop where
  skip : ∀ s, ∀ x ∈ xs, done s x → step s x = s
  marks : ∀ s, ∀ x ∈ xs, done (step s x) x
  keeps : ∀ s x, ∀ y ∈ xs, done s x → done (step s y) x

variable {done : σ → α → Prop} {xs ys : List α}

theorem Absorbing.foldl_keeps (h : Absorbing step done xs) {ys : List α} (hy : ∀ y ∈ ys, y ∈ xs)
    {s : σ} {x : α} (hx : done s x) : done (ys.foldl step s) x :=
  foldl_invariant (P := fun t => done t x) hx (fun t y hm => h.keeps t x y (hy y hm))

theorem Absorbing.foldl_marks (h : Absorbing step done xs) (s : σ) :
    ∀ x ∈ xs, done (xs.foldl step s) x := by
  intro x hx
  obtain ⟨as, bs, rfl⟩ := List.append_of_mem hx
  rw [List.foldl_append, List.foldl_cons]
  exact h.foldl_keeps (fun y hy => by simp [hy]) (h.marks _ x hx)

theorem foldl_skip {s : σ} (hskip : ∀ s, ∀ x ∈ xs, done s x → step s x = s)
    (hd : ∀ x ∈ xs, done s x) : xs.foldl step s = s := by
  induction xs with
  | nil => rfl
  | cons x xs ih =>
    rw [List.foldl_cons, hskip s x (by simp) (hd x (by simp))]
    exact ih (fun s y hy => hskip s y (by simp [hy])) (fun y hy => hd y (by simp [hy]))

/-- Running a prefix and then the whole again is running the whole once. -/
theorem Absorbing.replay (h : Absorbing step done (xs ++ ys)) (s : σ) :
    (xs ++ ys).foldl step (xs.foldl step s) = (xs ++ ys).foldl step s := by
  have hp : Absorbing step done xs :=
    ⟨fun s x hx => h.skip s x (by simp [hx]), fun s x hx => h.marks s x (by simp [hx]),
      fun s x y hy => h.keeps s x y (by simp [hy])⟩
  have hskip : xs.foldl step (xs.foldl step s) = xs.foldl step s :=
    foldl_skip hp.skip (hp.foldl_marks s)
  rw [List.foldl_append, hskip, ← List.foldl_append]

/-- Steps that overwrite: what a step did before, it does again. -/
structure Overwriting (step : σ → α → σ) : Prop where
  twice : ∀ s x, step (step s x) x = step s x
  again : ∀ s x y, step (step (step s x) y) x = step (step s y) x

theorem Overwriting.foldl_again (h : Overwriting step) (s : σ) (x : α) (xs : List α) :
    step (xs.foldl step (step s x)) x = step (xs.foldl step s) x := by
  induction xs using List.reverseRecOn with
  | nil => exact h.twice s x
  | append_singleton xs y ih =>
    rw [List.foldl_concat, List.foldl_concat, ← h.again (xs.foldl step (step s x)), ih, h.again]

theorem Overwriting.foldl_twice (h : Overwriting step) (s : σ) (xs : List α) :
    xs.foldl step (xs.foldl step s) = xs.foldl step s := by
  induction xs using List.reverseRecOn generalizing s with
  | nil => rfl
  | append_singleton xs x ih =>
    rw [List.foldl_concat, List.foldl_concat, h.foldl_again, ih]

end AtmMonitor.Library.Runs

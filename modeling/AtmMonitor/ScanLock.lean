import Mathlib.Logic.Function.Basic

namespace AtmMonitor.ScanLock

inductive Scan where
  | acquire | entered | settings | processing | leaving
  deriving DecidableEq

def Scan.holds : Scan → Bool
  | .acquire => false
  | .entered | .settings | .processing | .leaving => true

/-- Where the main thread is in `main` once the handlers are registered: `created` has assigned
the monitor, and from `tested` to `observing` it is in `start`. -/
inductive Script where
  | registered | created | tested | scan (p : Scan) | scanned | observing | running | exited
  deriving DecidableEq

def Script.scan? : Script → Option Scan
  | .scan p => some p
  | _ => none

/-- Where a call of `handle_shutdown` is: at the test of `monitor`, in `stop`, or after it. -/
inductive Handler where
  | received | stop | clear | acquire | locked | joining | exit
  deriving DecidableEq

def Handler.Cleared : Handler → Prop
  | .acquire | .locked | .joining => True
  | .received | .stop | .clear | .exit => False

inductive Thread (ι : Type) where
  | main | worker (i : ι)
  deriving DecidableEq

inductive Kind where
  | watchdog | polling

/-- The innermost call of the handler is the first; `exiting` says that `SystemExit` is on its way
through the frames of the main thread, and `passed` that `stop` has left its lock section. -/
structure State (ι : Type) where
  isRunning : Bool := false
  lock : Option (Thread ι) := none
  monitor : Bool := false
  observer : Bool := false
  pollingThread : Bool := false
  script : Script := .registered
  handlers : List Handler := []
  exiting : Bool := false
  worker : ι → Option Scan := fun _ => none
  passed : Bool := false

section System

variable {ι : Type}

/-- One step of `trigger_scan` on the thread `t`, with the lock; the call returns at `none`. The parser
may be disabled, and the settings may not be read. -/
inductive TriggerScan (t : Thread ι) (isRunning : Bool) :
    Scan × Option (Thread ι) → Option Scan × Option (Thread ι) → Prop
  | acquire : TriggerScan t isRunning (.acquire, none) (some .entered, some t)
  | stopped (l) (hr : isRunning = false) :
      TriggerScan t isRunning (.entered, l) (some .leaving, l)
  | enter (l) (hr : isRunning = true) : TriggerScan t isRunning (.entered, l) (some .settings, l)
  | skip (l) : TriggerScan t isRunning (.settings, l) (some .leaving, l)
  | processFile (l) : TriggerScan t isRunning (.settings, l) (some .processing, l)
  | processed (l) : TriggerScan t isRunning (.processing, l) (some .leaving, l)
  | release (l) : TriggerScan t isRunning (.leaving, l) (none, none)

/-- The main thread runs its script and no handler. -/
structure State.AtScript (s : State ι) (p : Script) : Prop where
  script : s.script = p
  handlers : s.handlers = []
  exiting : s.exiting = false

/-- The main thread runs a call of the handler that has interrupted the calls `hs`. -/
structure State.AtHandler (s : State ι) (h : Handler) (hs : List Handler) : Prop where
  handlers : s.handlers = h :: hs
  exiting : s.exiting = false

def scanOf (s : State ι) : Thread ι → Option Scan
  | .main => s.script.scan?
  | .worker i => s.worker i

def Waits (s : State ι) : Thread ι → Prop
  | .main => s.AtScript (.scan .acquire) ∨ ∃ hs, s.AtHandler .acquire hs
  | .worker i => s.worker i = some .acquire

variable [DecidableEq ι]

/-- The steps of the script, of the handlers on its thread and of the other threads. The script may
leave at any place outside the scan; the join of `stop` has a timeout, so that threads may run on. -/
inductive Step (kind : ι → Kind) (s : State ι) : State ι → Prop
  | create (hm : s.AtScript .registered) :
      Step kind s { s with script := .created, monitor := true }
  | start (hm : s.AtScript .created) (hr : s.isRunning = false) :
      Step kind s { s with script := .tested }
  | alreadyRunning (hm : s.AtScript .created) (hr : s.isRunning = true) :
      Step kind s { s with script := .running }
  | setRunning (hm : s.AtScript .tested) :
      Step kind s { s with script := .scan .acquire, isRunning := true }
  | startupScan (p q l) (hm : s.AtScript (.scan p))
      (ht : TriggerScan .main s.isRunning (p, s.lock) (q, l)) :
      Step kind s { s with script := q.elim .scanned .scan, lock := l }
  | observe (hm : s.AtScript .scanned) :
      Step kind s { s with script := .observing, observer := true }
  | pollingOnly (hm : s.AtScript .scanned) : Step kind s { s with script := .observing }
  | poll (hm : s.AtScript .observing) :
      Step kind s { s with script := .running, pollingThread := true }
  | leave (p) (hm : s.AtScript p) (hp : p.scan? = none) (hx : p ≠ .exited) :
      Step kind s { s with exiting := true }
  | noMonitor (hs) (hh : s.AtHandler .received hs) (hm : s.monitor = false) :
      Step kind s { s with handlers := .exit :: hs }
  | stopMonitor (hs) (hh : s.AtHandler .received hs) (hm : s.monitor = true) :
      Step kind s { s with handlers := .stop :: hs }
  | notRunning (hs) (hh : s.AtHandler .stop hs) (hr : s.isRunning = false) :
      Step kind s { s with handlers := .exit :: hs }
  | stillRunning (hs) (hh : s.AtHandler .stop hs) (hr : s.isRunning = true) :
      Step kind s { s with handlers := .clear :: hs }
  | clearRunning (hs) (hh : s.AtHandler .clear hs) :
      Step kind s { s with isRunning := false, handlers := .acquire :: hs }
  | acquire (hs) (hh : s.AtHandler .acquire hs) (hl : s.lock = none) :
      Step kind s { s with lock := some .main, handlers := .locked :: hs }
  | pass (hs) (hh : s.AtHandler .locked hs) :
      Step kind s { s with lock := none, passed := true, handlers := .joining :: hs }
  | join (hs) (hh : s.AtHandler .joining hs) : Step kind s { s with handlers := .exit :: hs }
  | sysExit (hs) (hh : s.AtHandler .exit hs) :
      Step kind s { s with handlers := hs, exiting := true }
  | unwindHandler (h hs) (hh : s.handlers = h :: hs) (hx : s.exiting = true) :
      Step kind s { s with handlers := hs, lock := if h = .locked then none else s.lock }
  | unwindMain (hh : s.handlers = []) (hx : s.exiting = true) :
      Step kind s { s with
        script := .exited, exiting := false
        lock := if s.script.scan?.any Scan.holds then none else s.lock }
  | onModified (i) (hk : kind i = .watchdog) (ho : s.observer = true) (hw : s.worker i = none) :
      Step kind s { s with worker := Function.update s.worker i (some .acquire) }
  | pollingLoop (i) (hk : kind i = .polling) (ho : s.pollingThread = true)
      (hr : s.isRunning = true) (hw : s.worker i = none) :
      Step kind s { s with worker := Function.update s.worker i (some .acquire) }
  | scan (i p q l) (hw : s.worker i = some p)
      (ht : TriggerScan (.worker i) s.isRunning (p, s.lock) (q, l)) :
      Step kind s { s with worker := Function.update s.worker i q, lock := l }

/-- A SIGINT or SIGTERM calls the handler on the main thread. -/
def interrupt (s : State ι) : State ι :=
  { s with handlers := .received :: s.handlers, exiting := false }

/-- The states of the runs in which a signal comes only when `admits` allows it. -/
inductive Reachable (kind : ι → Kind) (admits : State ι → Prop) : State ι → Prop
  | init : Reachable kind admits {}
  | step {s s' : State ι} : Reachable kind admits s → Step kind s s' → Reachable kind admits s'
  | signal {s : State ι} : Reachable kind admits s → admits s → Reachable kind admits (interrupt s)

structure Safe (kind : ι → Kind) (s : State ι) : Prop where
  noDeadlock : ∀ t, Waits s t → s.lock ≠ some t
  exclusive : ∀ t t', scanOf s t = some .processing → scanOf s t' = some .processing → t = t'
  stopped : ∀ s', Step kind s s' → ∀ t, scanOf s t ≠ some .processing →
    scanOf s' t = some .processing → s.passed = false

/-- The start-up scan holds the lock. -/
def InScan (s : State ι) : Prop := s.script.scan?.any Scan.holds = true

end System

section Invariant

variable {ι : Type}

structure Inv (s : State ι) : Prop where
  main : s.lock = some .main ↔ InScan s ∨ .locked ∈ s.handlers
  worker : ∀ i, s.lock = some (.worker i) ↔ (s.worker i).any Scan.holds = true
  apart : .locked ∈ s.handlers → ¬ InScan s
  nested : s.handlers.Pairwise fun inner outer =>
    outer.Cleared → inner ≠ .clear ∧ ¬ inner.Cleared
  cleared : (s.passed = true ∨ ∃ h ∈ s.handlers, h.Cleared) → s.isRunning = false
  ended : s.passed = true → s.handlers ≠ [] ∨ s.exiting = true ∨ s.script = .exited
  quiet : s.passed = true → ∀ i, s.worker i ≠ some .settings

theorem init_inv : Inv ({} : State ι) where
  main := by simp [InScan, Script.scan?]
  worker := by simp
  apart := by simp
  nested := List.Pairwise.nil
  cleared := by simp
  ended := by simp
  quiet := by simp

theorem triggerScan_owner {t : Thread ι} {r : Bool} {p : Scan} {q : Option Scan}
    {l l' : Option (Thread ι)} (ht : TriggerScan t r (p, l) (q, l'))
    (hown : l = some t ↔ p.holds = true) :
    (l' = some t ↔ q.any Scan.holds = true) ∧ ∀ t', t' ≠ t → (l' = some t' ↔ l = some t') := by
  cases ht with
  | acquire => exact ⟨by simp [Scan.holds], fun t' hne => by simp [Ne.symm hne]⟩
  | release =>
    have hl : l = some t := hown.mpr rfl
    exact ⟨by simp, fun t' hne => by simp [hl, Ne.symm hne]⟩
  | stopped | enter | skip | processFile | processed =>
    exact ⟨by simpa [Scan.holds] using hown, fun _ _ => Iff.rfl⟩

theorem triggerScan_settings {t : Thread ι} {r : Bool} {p : Scan} {l l' : Option (Thread ι)}
    (ht : TriggerScan t r (p, l) (some .settings, l')) : r = true := by
  cases ht with
  | enter _ hr => exact hr

theorem triggerScan_processing {t : Thread ι} {r : Bool} {p : Scan} {l l' : Option (Thread ι)}
    (ht : TriggerScan t r (p, l) (some .processing, l')) : p = .settings := by
  cases ht with
  | processFile => rfl

variable {s : State ι}

theorem Inv.not_passed (h : Inv s) {p : Script} (hm : s.AtScript p) (hp : p ≠ .exited) :
    s.passed = false := by
  by_contra hpass
  rw [Bool.not_eq_false] at hpass
  rcases h.ended hpass with hh | hx | hs
  · exact hh hm.handlers
  · exact Bool.false_ne_true (hm.exiting.symm.trans hx)
  · exact hp (hm.script.symm.trans hs)

theorem Inv.script_lock (h : Inv s) {p : Script} (hm : s.AtScript p) :
    s.lock = some .main ↔ p.scan?.any Scan.holds = true := by
  have hmain := h.main
  rw [InScan, hm.script, hm.handlers] at hmain
  simpa using hmain

theorem script_inv (h : Inv s) {p : Script} (hm : s.AtScript p) (hp : p ≠ .exited) (p' : Script)
    (l : Option (Thread ι)) (r m o b : Bool)
    (hmain : l = some .main ↔ p'.scan?.any Scan.holds = true)
    (hworker : ∀ i, l = some (.worker i) ↔ s.lock = some (.worker i)) :
    Inv { s with
      script := p', lock := l, isRunning := r, monitor := m, observer := o
      pollingThread := b } := by
  have hpass := h.not_passed hm hp
  refine ⟨?_, fun i => (hworker i).trans (h.worker i), ?_, h.nested, ?_, ?_, ?_⟩
  · simpa [InScan, hm.handlers] using hmain
  · simp [hm.handlers]
  · simp [hm.handlers, hpass]
  · simp [hpass]
  · simp [hpass]

theorem outside_inv (h : Inv s) {p : Script} (hm : s.AtScript p) (hp : p ≠ .exited) (p' : Script)
    (r m o b : Bool) (hout : p.scan?.any Scan.holds = false)
    (hout' : p'.scan?.any Scan.holds = false) :
    Inv { s with script := p', isRunning := r, monitor := m, observer := o, pollingThread := b } :=
  script_inv h hm hp p' s.lock r m o b ((h.script_lock hm).trans (by rw [hout, hout']))
    fun _ => Iff.rfl

theorem State.AtHandler.mem {k : Handler} {hs : List Handler} (hh : s.AtHandler k hs) :
    k ∈ s.handlers := by
  rw [hh.handlers]
  exact List.mem_cons_self

theorem State.AtHandler.mem_outer {k outer : Handler} {hs : List Handler} (hh : s.AtHandler k hs)
    (hmem : outer ∈ hs) : outer ∈ s.handlers := by
  rw [hh.handlers]
  exact List.mem_cons_of_mem k hmem

/-- A step of the innermost handler. -/
theorem handler_inv (h : Inv s) {k : Handler} {hs : List Handler} (hh : s.AtHandler k hs)
    (k' : Handler) (l : Option (Thread ι)) (r v : Bool) (hr : s.isRunning = false → r = false)
    (hclear : k'.Cleared ∨ v = true → r = false)
    (hnested : k' = .clear ∨ k'.Cleared → ∀ outer ∈ hs, ¬ outer.Cleared)
    (hmain : l = some .main ↔ InScan s ∨ .locked ∈ k' :: hs)
    (hworker : ∀ i, l = some (.worker i) ↔ s.lock = some (.worker i))
    (hapart : k' = .locked → ¬ InScan s)
    (hquiet : v = true → ∀ i, s.worker i ≠ some .settings) :
    Inv { s with handlers := k' :: hs, lock := l, isRunning := r, passed := v } := by
  have hold := h.nested
  rw [hh.handlers, List.pairwise_cons] at hold
  refine ⟨hmain, fun i => (hworker i).trans (h.worker i), ?_, ?_, ?_, by simp, hquiet⟩
  · intro hlocked
    rcases List.mem_cons.mp hlocked with heq | hmem
    · exact hapart heq.symm
    · exact h.apart (hh.mem_outer hmem)
  · refine List.pairwise_cons.mpr ⟨fun outer hmem hout => ?_, hold.2⟩
    exact ⟨fun heq => hnested (Or.inl heq) outer hmem hout,
      fun hin => hnested (Or.inr hin) outer hmem hout⟩
  · rintro (hv | ⟨h', hmem, hc⟩)
    · exact hclear (Or.inr hv)
    rcases List.mem_cons.mp hmem with rfl | hmem
    · exact hclear (Or.inl hc)
    · exact hr (h.cleared (Or.inr ⟨h', hh.mem_outer hmem, hc⟩))

theorem Inv.outer_not_cleared (h : Inv s) {k : Handler} {hs : List Handler}
    (hh : s.handlers = k :: hs) (hk : k = .clear ∨ k.Cleared) : ∀ outer ∈ hs, ¬ outer.Cleared := by
  intro outer hmem hout
  have hnested := h.nested
  rw [hh, List.pairwise_cons] at hnested
  obtain ⟨hne, hnc⟩ := hnested.1 outer hmem hout
  exact hk.elim hne hnc

theorem pop_inv (h : Inv s) {k : Handler} {hs : List Handler} (hh : s.handlers = k :: hs) :
    Inv { s with
      handlers := hs, exiting := true, lock := if k = .locked then none else s.lock } := by
  have hmain := h.main
  have happart := h.apart
  rw [hh] at hmain happart
  refine ⟨?_, ?_, ?_, ?_, ?_, by simp, h.quiet⟩
  · by_cases hk : k = .locked
    · subst hk
      have hout := h.outer_not_cleared hh (Or.inr trivial)
      have hlocked : .locked ∉ hs := fun hmem => hout _ hmem trivial
      have hscan : ¬ InScan s := happart (by simp)
      simpa [InScan, hlocked] using hscan
    · simpa [InScan, hk, Ne.symm hk] using hmain
  · intro i
    by_cases hk : k = .locked
    · subst hk
      have hlock : s.lock = some .main := hmain.mpr (by simp)
      have := h.worker i
      rw [hlock] at this
      simpa using this
    · simpa [hk] using h.worker i
  · exact fun hmem => happart (List.mem_cons_of_mem _ hmem)
  · have hnested := h.nested
    rw [hh] at hnested
    exact hnested.of_cons
  · rintro (hv | ⟨h', hmem, hc⟩)
    · exact h.cleared (Or.inl hv)
    · exact h.cleared (Or.inr ⟨h', by rw [hh]; exact List.mem_cons_of_mem _ hmem, hc⟩)

theorem unwind_inv (h : Inv s) (hh : s.handlers = []) :
    Inv { s with
      script := .exited, exiting := false
      lock := if s.script.scan?.any Scan.holds then none else s.lock } := by
  have hmain := h.main
  simp only [hh, List.not_mem_nil, or_false] at hmain
  refine ⟨?_, fun i => ?_, by simp [hh], h.nested, h.cleared, by simp, h.quiet⟩
  · change _ ↔ (Script.exited.scan?.any Scan.holds = true ∨ _)
    split
    · simp [Script.scan?, hh]
    · simpa [Script.scan?, hh] using mt hmain.mp ‹_›
  · have hworker := h.worker i
    change (if _ then _ else _) = _ ↔ _
    split
    · rw [hmain.mpr ‹_›] at hworker
      simpa using hworker
    · exact hworker

theorem interrupt_inv (h : Inv s) : Inv (interrupt s) where
  main := by simpa [interrupt, InScan] using h.main
  worker := h.worker
  apart := by simpa [interrupt, InScan] using h.apart
  nested := List.pairwise_cons.mpr ⟨fun _ _ _ => ⟨by simp, id⟩, h.nested⟩
  cleared := by simpa [interrupt, Handler.Cleared] using h.cleared
  ended := by simp [interrupt]
  quiet := h.quiet

variable [DecidableEq ι]

theorem worker_inv (h : Inv s) (i : ι) (q : Option Scan) (l : Option (Thread ι))
    (hown : l = some (.worker i) ↔ q.any Scan.holds = true)
    (hother : ∀ t, t ≠ .worker i → (l = some t ↔ s.lock = some t))
    (hq : s.isRunning = false → q ≠ some .settings) :
    Inv { s with worker := Function.update s.worker i q, lock := l } := by
  refine ⟨(hother .main (by simp)).trans h.main, ?_, h.apart, h.nested, h.cleared, h.ended, ?_⟩
  · intro j
    by_cases hj : j = i
    · subst hj
      simpa using hown
    · simpa [hj] using (hother (.worker j) (by simpa using hj)).trans (h.worker j)
  · intro hpass j
    by_cases hj : j = i
    · subst hj
      simpa using hq (h.cleared (Or.inl hpass))
    · simpa [hj] using h.quiet hpass j

variable {kind : ι → Kind} {s' : State ι}

theorem step_inv (h : Inv s) (st : Step kind s s') : Inv s' := by
  cases st with
  | create hm => exact outside_inv h hm (by simp) _ _ _ _ _ rfl rfl
  | start hm => exact outside_inv h hm (by simp) _ _ _ _ _ rfl rfl
  | alreadyRunning hm => exact outside_inv h hm (by simp) _ _ _ _ _ rfl rfl
  | setRunning hm => exact outside_inv h hm (by simp) _ _ _ _ _ rfl rfl
  | startupScan p q l hm ht =>
    obtain ⟨hown, hother⟩ := triggerScan_owner ht (h.script_lock hm)
    refine script_inv h hm (by simp) (q.elim .scanned .scan) l _ _ _ _ ?_
      fun i => hother (.worker i) (by simp)
    cases q with
    | none => exact hown
    | some p' => exact hown
  | observe hm => exact outside_inv h hm (by simp) _ _ _ _ _ rfl rfl
  | pollingOnly hm => exact outside_inv h hm (by simp) _ _ _ _ _ rfl rfl
  | poll hm => exact outside_inv h hm (by simp) _ _ _ _ _ rfl rfl
  | leave p hm hp hx =>
    exact ⟨h.main, h.worker, h.apart, h.nested, h.cleared, fun _ => by simp, h.quiet⟩
  | noMonitor hs hh | stopMonitor hs hh | notRunning hs hh | join hs hh =>
    have hmain := h.main
    rw [hh.handlers] at hmain
    refine handler_inv h hh _ s.lock _ _ id ?_ (by simp [Handler.Cleared])
      (by simpa using hmain) (fun _ => Iff.rfl) (by simp) h.quiet
    exact fun hc => h.cleared (Or.inl (hc.resolve_left id))
  | stillRunning hs hh hr =>
    have hmain := h.main
    rw [hh.handlers] at hmain
    have hnone : ¬ (s.passed = true ∨ ∃ k ∈ s.handlers, k.Cleared) := by
      intro hc
      rw [h.cleared hc] at hr
      cases hr
    refine handler_inv h hh _ s.lock _ _ id ?_ ?_ (by simpa using hmain) (fun _ => Iff.rfl)
      (by simp) h.quiet
    · exact fun hc => absurd (Or.inl (hc.resolve_left id)) hnone
    · intro _ outer hmem hout
      exact hnone (Or.inr ⟨outer, hh.mem_outer hmem, hout⟩)
  | clearRunning hs hh =>
    have hmain := h.main
    rw [hh.handlers] at hmain
    exact handler_inv h hh _ s.lock _ _ (fun _ => rfl) (fun _ => rfl)
      (fun _ => h.outer_not_cleared hh.handlers (Or.inl rfl)) (by simpa using hmain)
      (fun _ => Iff.rfl) (by simp) h.quiet
  | acquire hs hh hl =>
    have hscan : ¬ InScan s := fun hin => by
      have := h.main.mpr (Or.inl hin)
      rw [hl] at this
      cases this
    refine handler_inv h hh _ _ _ _ id (fun _ => ?_)
      (fun _ => h.outer_not_cleared hh.handlers (Or.inr trivial)) (by simp) (by simp [hl])
      (fun _ => hscan) h.quiet
    exact h.cleared (Or.inr ⟨.acquire, hh.mem, trivial⟩)
  | pass hs hh =>
    have hlock : s.lock = some .main := h.main.mpr (Or.inr hh.mem)
    have hout := h.outer_not_cleared hh.handlers (Or.inr trivial)
    refine handler_inv h hh _ _ _ _ id (fun _ => h.cleared (Or.inr ⟨_, hh.mem, trivial⟩))
      (fun _ => hout) ?_ (by simp [hlock]) (by simp) ?_
    · have hlocked : .locked ∉ hs := fun hmem => hout _ hmem trivial
      simpa [hlocked] using h.apart hh.mem
    · intro _ i hw
      have := (h.worker i).mpr (by rw [hw]; rfl)
      rw [hlock] at this
      cases this
  | sysExit hs hh => simpa using pop_inv h hh.handlers
  | unwindHandler k hs hh hx => simpa [hx] using pop_inv h hh
  | unwindMain hh hx => exact unwind_inv h hh
  | onModified i hk ho hw =>
    have hown := h.worker i
    rw [hw] at hown
    exact worker_inv h i _ s.lock (by simpa [Scan.holds] using hown) (fun _ _ => Iff.rfl) (by simp)
  | pollingLoop i hk ho hr hw =>
    have hown := h.worker i
    rw [hw] at hown
    exact worker_inv h i _ s.lock (by simpa [Scan.holds] using hown) (fun _ _ => Iff.rfl) (by simp)
  | scan i p q l hw ht =>
    have hown := h.worker i
    rw [hw] at hown
    obtain ⟨hown', hother⟩ := triggerScan_owner ht (by simpa using hown)
    refine worker_inv h i q l hown' hother fun hr hq => ?_
    subst hq
    exact Bool.false_ne_true (hr.symm.trans (triggerScan_settings ht))

theorem reachable_inv {admits : State ι → Prop} (h : Reachable kind admits s) : Inv s := by
  induction h with
  | init => exact init_inv
  | step _ st ih => exact step_inv ih st
  | signal _ _ ih => exact interrupt_inv ih

theorem step_main_starts (st : Step kind s s') (hs : s'.script.scan? = some .processing) :
    s.script.scan? = some .processing ∨ s.AtScript (.scan .settings) := by
  cases st with
  | startupScan p q l hm ht =>
    cases q with
    | none => cases hs
    | some q =>
      cases hs
      obtain rfl := triggerScan_processing ht
      exact Or.inr hm
  | create | start | alreadyRunning | setRunning | observe | pollingOnly | poll | unwindMain =>
    cases hs
  | _ => exact Or.inl hs

theorem step_worker_starts (st : Step kind s s') (i : ι) (hs : s'.worker i = some .processing) :
    s.worker i = some .processing ∨ s.worker i = some .settings := by
  cases st with
  | onModified j | pollingLoop j =>
    by_cases hj : i = j
    · subst hj
      simp at hs
    · exact Or.inl (by simpa [hj] using hs)
  | scan j p q l hw ht =>
    by_cases hj : i = j
    · subst hj
      obtain rfl : q = some .processing := by simpa using hs
      obtain rfl := triggerScan_processing ht
      exact Or.inr hw
    · exact Or.inl (by simpa [hj] using hs)
  | _ => exact Or.inl hs

/-- Handlers or `SystemExit` keep the script where it is. -/
def Interrupted (s : State ι) : Prop := s.handlers ≠ [] ∨ s.exiting = true

omit [DecidableEq ι] in
theorem State.AtScript.not_interrupted {p : Script} (hm : s.AtScript p) : ¬ Interrupted s := by
  simp [Interrupted, hm.handlers, hm.exiting]

theorem step_interrupted (st : Step kind s s') (hi : Interrupted s') (hs : InScan s') :
    Interrupted s ∧ InScan s := by
  cases st with
  | create hm | start hm | alreadyRunning hm | setRunning hm | startupScan _ _ _ hm | observe hm
  | pollingOnly hm | poll hm => exact absurd hi hm.not_interrupted
  | leave p hm hp =>
    rw [InScan, hm.script, hp] at hs
    cases hs
  | noMonitor _ hh | stopMonitor _ hh | notRunning _ hh | stillRunning _ hh | clearRunning _ hh
  | acquire _ hh | pass _ hh | join _ hh | sysExit _ hh =>
    exact ⟨Or.inl (by simp [hh.handlers]), hs⟩
  | unwindHandler _ _ hh => exact ⟨Or.inl (by simp [hh]), hs⟩
  | unwindMain => cases hs
  | onModified | pollingLoop | scan => exact ⟨hi, hs⟩

variable {admits : State ι → Prop}

theorem interrupted_since (h : Reachable kind admits s) (hi : Interrupted s) (hs : InScan s) :
    ∃ u, Reachable kind admits u ∧ admits u ∧ InScan u ∧ ¬ Interrupted u := by
  induction h with
  | init => cases hs
  | step _ st ih =>
    obtain ⟨hi', hs'⟩ := step_interrupted st hi hs
    exact ih hi' hs'
  | @signal u hr ha ih =>
    by_cases hu : Interrupted u
    · exact ih hu hs
    · exact ⟨u, hr, ha, hs, hu⟩

omit [DecidableEq ι] in
/-- A thread can only wait for itself where a handler has interrupted the start-up scan. -/
theorem waits_interrupted (h : Inv s) (t : Thread ι) (hw : Waits s t) (hl : s.lock = some t) :
    Interrupted s ∧ InScan s := by
  cases t with
  | worker i =>
    have hholds := (h.worker i).mp hl
    rw [show s.worker i = some .acquire from hw] at hholds
    cases hholds
  | main =>
    rcases hw with hm | ⟨hs, hh⟩
    · have hholds := (h.script_lock hm).mp hl
      cases hholds
    · refine ⟨Or.inl (by simp [hh.handlers]), (h.main.mp hl).resolve_right fun hmem => ?_⟩
      rw [hh.handlers] at hmem
      have hmem' : .locked ∈ hs := by simpa using hmem
      exact h.outer_not_cleared hh.handlers (Or.inr trivial) _ hmem' trivial

def Launched (s : State ι) : Prop :=
  ¬ Interrupted s →
    (s.script = .created ∨ s.script = .tested → s.monitor = true) ∧
      ((s.script.scan?).isSome → s.monitor = true ∧ s.isRunning = true)

theorem step_launched (st : Step kind s s') (h : Launched s) : Launched s' := by
  cases st with
  | create hm => exact fun _ => ⟨fun _ => rfl, nofun⟩
  | start hm => exact fun hi => ⟨fun _ => (h hi).1 (Or.inl hm.script), nofun⟩
  | setRunning hm => exact fun hi => ⟨nofun, fun _ => ⟨(h hi).1 (Or.inr hm.script), rfl⟩⟩
  | startupScan p q l hm =>
    intro hi
    have hlaunched := (h hi).2 (by rw [hm.script]; rfl)
    cases q with
    | none => exact ⟨nofun, nofun⟩
    | some q => exact ⟨nofun, fun _ => hlaunched⟩
  | alreadyRunning | observe | pollingOnly | poll | unwindMain => exact fun _ => ⟨nofun, nofun⟩
  | leave | sysExit => exact fun hi => absurd (Or.inr rfl) hi
  | unwindHandler _ _ _ hx => exact fun hi => absurd (Or.inr hx) hi
  | noMonitor | stopMonitor | notRunning | stillRunning | clearRunning | acquire | pass | join =>
    exact fun hi => absurd (Or.inl (List.cons_ne_nil _ _)) hi
  | onModified | pollingLoop | scan => exact h

theorem reachable_launched (h : Reachable kind admits s) : Launched s := by
  induction h with
  | init => exact fun _ => ⟨nofun, nofun⟩
  | step _ st ih => exact step_launched st ih
  | signal => exact fun hi => absurd (Or.inl (List.cons_ne_nil _ _)) hi

/-- The handler of a signal within the start-up scan comes to wait for the lock of its thread. -/
theorem signal_deadlocks (h : Reachable kind admits s) (ha : admits s) (hs : InScan s)
    (hi : ¬ Interrupted s) :
    ∃ u, Reachable kind admits u ∧ Waits u .main ∧ u.lock = some .main := by
  have hscan : s.script.scan?.isSome := by
    cases hp : s.script.scan? with
    | none => rw [InScan, hp] at hs; cases hs
    | some p => rfl
  obtain ⟨hmonitor, hrunning⟩ := (reachable_launched h hi).2 hscan
  have hlock : s.lock = some .main := (reachable_inv h).main.mpr (Or.inl hs)
  have hreceived := h.signal ha
  have hstop := hreceived.step (.stopMonitor s.handlers ⟨rfl, rfl⟩ hmonitor)
  have hclear := hstop.step (.stillRunning s.handlers ⟨rfl, rfl⟩ hrunning)
  have hacquire := hclear.step (.clearRunning s.handlers ⟨rfl, rfl⟩)
  exact ⟨_, hacquire, Or.inr ⟨s.handlers, rfl, rfl⟩, hlock⟩

omit [DecidableEq ι] in
theorem exclusive (h : Inv s) {t t' : Thread ι} (ht : scanOf s t = some .processing)
    (ht' : scanOf s t' = some .processing) : t = t' := by
  have howner : ∀ u, scanOf s u = some .processing → s.lock = some u := by
    intro u hu
    cases u with
    | main => exact h.main.mpr (Or.inl (by rw [InScan, show s.script.scan? = _ from hu]; rfl))
    | worker i => exact (h.worker i).mpr (by rw [show s.worker i = _ from hu]; rfl)
  exact Option.some.inj ((howner t ht).symm.trans (howner t' ht'))

theorem stopped (h : Inv s) (st : Step kind s s') {t : Thread ι}
    (hs : scanOf s t ≠ some .processing) (hs' : scanOf s' t = some .processing) :
    s.passed = false := by
  cases t with
  | main =>
    exact h.not_passed ((step_main_starts st hs').resolve_left hs) (by simp)
  | worker i =>
    have hsettings := (step_worker_starts st i hs').resolve_left hs
    by_contra hpass
    rw [Bool.not_eq_false] at hpass
    exact h.quiet hpass i hsettings

/-- Whatever signals come, the runs are safe if and only if none of them comes while the start-up
scan holds the lock. -/
theorem scan_lock_safe_iff (kind : ι → Kind) (admits : State ι → Prop) :
    (∀ s, Reachable kind admits s → Safe kind s) ↔
      ∀ s, Reachable kind admits s → admits s → ¬ InScan s := by
  constructor
  · intro hsafe s h ha hs
    by_cases hi : Interrupted s
    · obtain ⟨u, hu, hau, hsu, hiu⟩ := interrupted_since h hi hs
      obtain ⟨v, hv, hw, hl⟩ := signal_deadlocks hu hau hsu hiu
      exact (hsafe v hv).noDeadlock .main hw hl
    · obtain ⟨v, hv, hw, hl⟩ := signal_deadlocks h ha hs hi
      exact (hsafe v hv).noDeadlock .main hw hl
  · intro hcond s h
    have hinv := reachable_inv h
    refine ⟨fun t hw hl => ?_, fun _ _ => exclusive hinv, fun _ st _ => stopped hinv st⟩
    obtain ⟨hi, hs⟩ := waits_interrupted hinv t hw hl
    obtain ⟨u, hu, hau, hsu, -⟩ := interrupted_since h hi hs
    exact hcond u hu hau hsu

/-- A signal during the first `process_file`. -/
theorem scan_lock_deadlock :
    ¬ ∀ (kind : Bool → Kind) (s : State Bool), Reachable kind (fun _ => True) s → Safe kind s := by
  intro hall
  let kind : Bool → Kind := fun i => bif i then .watchdog else .polling
  have hinit : Reachable kind (fun _ => True) {} := .init
  have hcreate := hinit.step (.create ⟨rfl, rfl, rfl⟩)
  have hstart := hcreate.step (.start ⟨rfl, rfl, rfl⟩ rfl)
  have hrunning := hstart.step (.setRunning ⟨rfl, rfl, rfl⟩)
  have hacquire := hrunning.step (.startupScan _ _ _ ⟨rfl, rfl, rfl⟩ .acquire)
  have henter := hacquire.step (.startupScan _ _ _ ⟨rfl, rfl, rfl⟩ (.enter _ rfl))
  have hprocess := henter.step (.startupScan _ _ _ ⟨rfl, rfl, rfl⟩ (.processFile _))
  have hsignal := hprocess.signal trivial
  have hstop := hsignal.step (.stopMonitor [] ⟨rfl, rfl⟩ rfl)
  have hclear := hstop.step (.stillRunning [] ⟨rfl, rfl⟩ rfl)
  have hwait := hclear.step (.clearRunning [] ⟨rfl, rfl⟩)
  exact (hall kind _ hwait).noDeadlock .main (Or.inr ⟨[], rfl, rfl⟩) rfl

end Invariant

end AtmMonitor.ScanLock

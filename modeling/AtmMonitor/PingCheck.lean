import AtmMonitor.NvrCheck
import Mathlib.Logic.Function.Basic

namespace AtmMonitor.PingCheck

open PyText NvrCheck

structure Device where
  ip : Option Str
  isOnline : Option Int
  lastPingTime : Option Str
  lastLatency : Option Nat
  lastPacketLoss : Option Nat
  consecutiveFailures : Option Int
  downSince : Option Str
  updatedAt : Option Str

/-- `is_online`, `latency` and `loss`. -/
structure Probe where
  isOnline : Bool
  latency : Option Nat
  loss : Nat

def portsToTry : List Nat := [80, 8000, 443, 554, 23]

/-- The result of `run_ping_cmd`, or of the ports where the ping has failed. -/
def portProbe (ping : Probe) (accepts : Nat → Bool) : Probe :=
  if ping.isOnline then ping
  else if portsToTry.any accepts then ⟨true, some 5, 0⟩
  else ping

structure Reading where
  currentOnline : Option Int
  consecutiveFailures : Option Int

def Device.reading (d : Device) : Reading := ⟨d.isOnline, d.consecutiveFailures⟩

/-- The assignments to the device in the second session. A counter that is `None` raises. -/
def assign (r : Reading) (p : Probe) (now : Datetime) (d : Device) : Option Device :=
  if p.isOnline then
    some
      { d with
        isOnline := some 1
        lastLatency := p.latency
        lastPacketLoss := some p.loss
        consecutiveFailures := some 0
        downSince := none
        lastPingTime := some (strftime now)
        updatedAt := some (strftime now) }
  else
    r.consecutiveFailures.map fun failures =>
      { d with
        downSince := if r.currentOnline = some 1 then some (strftime now) else d.downSince
        isOnline := some 0
        lastPacketLoss := some 100
        lastLatency := none
        consecutiveFailures := some (failures + 1)
        lastPingTime := some (strftime now)
        updatedAt := some (strftime now) }

def flush (loaded assigned current : Device) : Device :=
  { current with
    isOnline := flushed loaded.isOnline assigned.isOnline current.isOnline
    lastPingTime := flushed loaded.lastPingTime assigned.lastPingTime current.lastPingTime
    lastLatency := flushed loaded.lastLatency assigned.lastLatency current.lastLatency
    lastPacketLoss := flushed loaded.lastPacketLoss assigned.lastPacketLoss current.lastPacketLoss
    consecutiveFailures :=
      flushed loaded.consecutiveFailures assigned.consecutiveFailures current.consecutiveFailures
    downSince := flushed loaded.downSince assigned.downSince current.downSince
    updatedAt := flushed loaded.updatedAt assigned.updatedAt current.updatedAt }

inductive Phase where
  | ready
  | probing (r : Reading)
  | probed (r : Reading) (p : Probe) (now : Datetime)
  | loaded (r : Reading) (p : Probe) (now : Datetime) (d : Device)
  | returned
  | raised

def Phase.Running : Phase → Prop
  | .returned | .raised => False
  | .ready | .probing _ | .probed .. | .loaded .. => True

/-- A committed write, with its `is_online` and its `now_str`. -/
structure Write where
  isOnline : Bool
  now : Datetime

structure State (T : Type) where
  now : Datetime
  row : Device
  phase : T → Phase
  log : List Write

section System

variable {T : Type} [DecidableEq T]

def State.goto (s : State T) (t : T) (p : Phase) : State T :=
  { s with phase := Function.update s.phase t p }

def State.commit (s : State T) (t : T) (p : Probe) (now : Datetime) (loaded assigned : Device) :
    State T :=
  { s with
    row := flush loaded assigned s.row
    phase := Function.update s.phase t .returned
    log := s.log ++ [⟨p.isOnline, now⟩] }

/-- The steps of any number of runs on one device, of one round or of several. A commit needs that
`admits` allows it. The database or the probe may fail, and a counter that is no number raises. -/
inductive Step (admits : State T → T → Prop) (s : State T) : State T → Prop
  | tick (now : Datetime) : Step admits s { s with now := now }
  | skip (t : T) (hp : s.phase t = .ready) (hip : orDefault s.row.ip "" = []) :
      Step admits s (s.goto t .returned)
  | read (t : T) (hp : s.phase t = .ready) (hip : orDefault s.row.ip "" ≠ []) :
      Step admits s (s.goto t (.probing s.row.reading))
  | probe (t : T) (r : Reading) (ping : Probe) (accepts : Nat → Bool)
      (hp : s.phase t = .probing r) :
      Step admits s (s.goto t (.probed r (portProbe ping accepts) s.now))
  | load (t : T) (r : Reading) (p : Probe) (now : Datetime) (hp : s.phase t = .probed r p now) :
      Step admits s (s.goto t (.loaded r p now s.row))
  | commit (t : T) (r : Reading) (p : Probe) (now : Datetime) (d d' : Device)
      (hp : s.phase t = .loaded r p now d) (hd : assign r p now d = some d') (ha : admits s t) :
      Step admits s (s.commit t p now d d')
  | raise (t : T) (hp : (s.phase t).Running) : Step admits s (s.goto t .raised)

def initial (now : Datetime) (d : Device) : State T := ⟨now, d, fun _ => .ready, []⟩

inductive Reachable (admits : State T → T → Prop) (now : Datetime) (d : Device) : State T → Prop
  | init : Reachable admits now d (initial now d)
  | step {s s' : State T} : Reachable admits now d s → Step admits s s' → Reachable admits now d s'

end System

end AtmMonitor.PingCheck

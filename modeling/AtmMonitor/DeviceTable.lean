import AtmMonitor.ChannelNames
import AtmMonitor.Library.UnitOfWork
import AtmMonitor.PingCheck
import Mathlib.Data.Fintype.OfMap

namespace AtmMonitor.DeviceTable

open Library.UnitOfWork PyText NvrCheck

/-- The columns less the primary key. -/
inductive Column where
  | name | ip | type | location | hikUsername | hikPassword | notes | parentNvrId
  | isOnline | lastPingTime | lastLatency | lastPacketLoss | consecutiveFailures | downSince
  | emailAlertSent | smsAlertSent
  | nvrRecording | nvrLastRecordingDate | nvrHddStatus | nvrHddCapacity | nvrHddUsed
  | atmBalance | atmStatus | atmLastUpdated
  | createdAt | updatedAt
  deriving DecidableEq

instance : Fintype Column :=
  Fintype.ofList
    [.name, .ip, .type, .location, .hikUsername, .hikPassword, .notes, .parentNvrId, .isOnline, .lastPingTime,
     .lastLatency, .lastPacketLoss, .consecutiveFailures, .downSince, .emailAlertSent, .smsAlertSent,
     .nvrRecording, .nvrLastRecordingDate, .nvrHddStatus, .nvrHddCapacity, .nvrHddUsed, .atmBalance, .atmStatus,
     .atmLastUpdated, .createdAt, .updatedAt]
    fun c => by cases c <;> decide

abbrev Column.Content : Column → Type
  | .parentNvrId | .isOnline | .consecutiveFailures | .emailAlertSent | .smsAlertSent | .atmBalance => Int
  | .lastLatency | .lastPacketLoss | .nvrRecording => Nat
  | _ => Str

abbrev Column.Value (c : Column) : Type := Option c.Content

instance : (c : Column) → DecidableEq c.Content
  | .parentNvrId | .isOnline | .consecutiveFailures | .emailAlertSent | .smsAlertSent | .atmBalance =>
    inferInstanceAs (DecidableEq Int)
  | .lastLatency | .lastPacketLoss | .nvrRecording => inferInstanceAs (DecidableEq Nat)
  | .name | .ip | .type | .location | .hikUsername | .hikPassword | .notes | .lastPingTime | .downSince
  | .nvrLastRecordingDate | .nvrHddStatus | .nvrHddCapacity | .nvrHddUsed | .atmStatus | .atmLastUpdated
  | .createdAt | .updatedAt => inferInstanceAs (DecidableEq Str)

abbrev Row := Library.UnitOfWork.Row Column.Value
abbrev Table := Library.UnitOfWork.Table Int Column.Value
abbrev Object := Library.UnitOfWork.Object Int Column.Value

/-- The body of a request: the value that goes with the key of a column, if the key is there. -/
abbrev Payload := (c : Column) → Option c.Value

/-- The keys that `update_device` looks for, in its order. -/
def editable : List Column :=
  [.name, .ip, .type, .location, .notes, .hikUsername, .hikPassword, .parentNvrId]

/-- The argument of a column, `None` where the key is missing. -/
def given (payload : Payload) (c : Column) : c.Value := (payload c).getD none

/-- The device that `create_device` adds. On an INSERT the default of a column takes the place of
`None`, as if nothing had been assigned. -/
def newDevice (payload : Payload) (now : Str) : Row
  | .name => (given payload .name).or (some [])
  | .ip => (given payload .ip).or (some [])
  | .type => (given payload .type).or (some [])
  | .location => given payload .location
  | .notes => given payload .notes
  | .hikUsername => given payload .hikUsername
  | .hikPassword => given payload .hikPassword
  | .parentNvrId => given payload .parentNvrId
  | .isOnline => some (1 : Int)
  | .consecutiveFailures => some (0 : Int)
  | .createdAt => some now
  | .updatedAt => some now
  | .emailAlertSent => some (0 : Int)
  | .smsAlertSent => some (0 : Int)
  | .nvrRecording => some (0 : Nat)
  | _ => none

def assignKey (payload : Payload) (row : Row) (c : Column) : Row :=
  match payload c with
  | none => row
  | some value => Function.update row c value

def updateDevice (payload : Payload) (now : Str) (row : Row) : Row :=
  Function.update (editable.foldl (assignKey payload) row) .updatedAt (some now)

/-- The fields of the schema that must not be `None`. -/
def required : List Column :=
  [.name, .ip, .type, .isOnline, .consecutiveFailures, .emailAlertSent, .smsAlertSent, .nvrRecording]

/-- `DeviceSchema.model_validate` does not raise. -/
def validates (row : Row) : Bool := required.all fun c => (row c).isSome

structure Device where
  id : Int
  row : Row

/-- The query returns the devices of the table, in some order. -/
structure Selects (t : Table) (devices : List Device) : Prop where
  nodup : (devices.map Device.id).Nodup
  mem : ∀ d, d ∈ devices ↔ t d.id = some d.row

/-- `get_devices`, which fails as a whole where a row does not validate. -/
def getDevices (type : Option Str) (devices : List Device) : Option (List Device) :=
  let chosen :=
    match type with
    | none | some [] => devices
    | some type => devices.filter fun d => d.row .type == some type
  if chosen.all fun d => validates d.row then some chosen else none

def isCritical (row : Row) : Bool :=
  if row .isOnline == some (0 : Int) then true
  else if row .type == some "ATM".toList &&
      ((row .atmBalance).any (fun balance : Int => balance < 500000) || row .atmStatus != some "Normal".toList) then true
  else row .type == some "NVR".toList && row .isOnline == some (1 : Int) && row .nvrRecording == some (0 : Nat)

structure Dashboard where
  total : Nat
  online : Nat
  offline : Nat
  nvrCount : Nat
  camCount : Nat
  atmCount : Nat
  crmCount : Nat
  routerCount : Nat
  serverCount : Nat
  criticalAlerts : List Device

def countType (devices : List Device) (type : String) : Nat :=
  devices.countP fun d => d.row .type == some type.toList

/-- `get_dashboard`, which fails where a critical row does not validate. -/
def getDashboard (devices : List Device) : Option Dashboard :=
  let criticalAlerts := devices.filter fun d => isCritical d.row
  if criticalAlerts.all fun d => validates d.row then
    some
      { total := devices.length
        online := devices.countP fun d => d.row .isOnline == some (1 : Int)
        offline := devices.countP fun d => d.row .isOnline == some (0 : Int)
        nvrCount := countType devices "NVR"
        camCount := countType devices "CAM"
        atmCount := countType devices "ATM"
        crmCount := countType devices "CRM"
        routerCount := countType devices "Router"
        serverCount := countType devices "Server"
        criticalAlerts := criticalAlerts }
  else none

end AtmMonitor.DeviceTable

import AtmMonitor.DeviceTable

namespace AtmMonitor.DeviceRegistry

open Library.UnitOfWork PyText NvrCheck DeviceTable

inductive Job where
  | create (payload : Payload)
  | edit (id : Int) (payload : Payload)
  | delete (id : Int)
  | ping (id : Int)
  | nvrCheck (id : Int)

def pingDevice (row : Row) : PingCheck.Device where
  ip := row .ip
  isOnline := row .isOnline
  lastPingTime := row .lastPingTime
  lastLatency := row .lastLatency
  lastPacketLoss := row .lastPacketLoss
  consecutiveFailures := row .consecutiveFailures
  downSince := row .downSince
  updatedAt := row .updatedAt

def setPing (d : PingCheck.Device) (row : Row) : Row
  | .isOnline => d.isOnline
  | .lastPingTime => d.lastPingTime
  | .lastLatency => d.lastLatency
  | .lastPacketLoss => d.lastPacketLoss
  | .consecutiveFailures => d.consecutiveFailures
  | .downSince => d.downSince
  | .updatedAt => d.updatedAt
  | c => row c

def nvrDevice (row : Row) : NvrCheck.Device where
  type := row .type
  ip := row .ip
  hikUsername := row .hikUsername
  hikPassword := row .hikPassword
  nvrRecording := row .nvrRecording
  nvrLastRecordingDate := row .nvrLastRecordingDate
  nvrHddStatus := row .nvrHddStatus
  nvrHddCapacity := row .nvrHddCapacity
  nvrHddUsed := row .nvrHddUsed

def setNvr (d : NvrCheck.Device) (row : Row) : Row
  | .nvrRecording => d.nvrRecording
  | .nvrLastRecordingDate => d.nvrLastRecordingDate
  | .nvrHddStatus => d.nvrHddStatus
  | .nvrHddCapacity => d.nvrHddCapacity
  | .nvrHddUsed => d.nvrHddUsed
  | c => row c

/-- The assignments to a camera whose address the NVR has told. -/
def assignIp (now ip : Str) (camera : Object) : Object :=
  if camera.assigned .ip != some ip && ip != [] && ip != "0.0.0.0".toList then
    { camera with
      assigned := Function.update (Function.update camera.assigned .ip (some ip)) .updatedAt (some now) }
  else camera

/-- The address goes to the first camera with the name of the channel. A camera without a name that
comes before it raises. -/
def assignAddress (now : Str) (address : Str × Str) : List Object → Option (List Object)
  | [] => some []
  | camera :: cameras =>
    match camera.assigned .name with
    | none => none
    | some name =>
      if ChannelNames.namesChannel name address.1 then some (assignIp now address.2 camera :: cameras)
      else (assignAddress now address cameras).map (camera :: ·)

def assignAddresses (now : Str) (addresses : List (Str × Str)) (cameras : List Object) : Option (List Object) :=
  addresses.foldlM (fun cameras address => assignAddress now address cameras) cameras

def isCamera (nvrId : Int) (row : Row) : Bool :=
  row .type == some "CAM".toList && row .parentNvrId == some nvrId

/-- The query returns the cameras of the NVR, in some order. -/
structure SelectsCameras (t : Table) (nvrId : Int) (cameras : List Object) : Prop where
  nodup : (cameras.map fun o => o.id).Nodup
  mem : ∀ o, o ∈ cameras ↔ t o.id = some o.loaded ∧ o.assigned = o.loaded ∧ isCamera nvrId o.loaded = true

/-- The assignments to `nvr_final`, which may be one of the cameras. -/
def assignNvr (now : Datetime) (old : Option Str) (a : Answer) (o : Object) : Object :=
  { o with assigned := setNvr (a.assign now old (nvrDevice o.assigned)) o.assigned }

/-- The objects of the session after `db.get`, which returns the object that is there already. -/
def getNvr (t : Table) (id : Int) (assign : Object → Object) (objects : List Object) : Option (List Object) :=
  if objects.any fun o => o.id == id then some (objects.map fun o => if o.id = id then assign o else o)
  else (t id).map fun row => assign ⟨id, row, row⟩ :: objects

inductive Response where
  | success (message : Str) (data : Option DeviceTable.Device)
  | error (text : Str)

inductive Result where
  | response (r : Response)
  | check (r : CheckResult)
  | nothing
  | raised (text : Str)

inductive Next where
  | refresh (id : Int) (message : Str)
  | pinged
  | checked (a : Answer)

inductive Phase where
  | ready
  | adding (row : Row)
  | deleting (id : Int)
  | probing (r : PingCheck.Reading)
  | probed (r : PingCheck.Reading) (p : PingCheck.Probe) (now : Datetime)
  | querying (old : Option Str)
  | answered (old : Option Str) (a : Answer) (addresses : List (Str × Str))
  | addressed (old : Option Str) (a : Answer) (cameras : List Object)
  | flushing (objects : List Object) (next : Next)
  | refreshing (id : Int) (message : Str)
  | ended (r : Result)

def Phase.Running : Phase → Prop
  | .ended _ => False
  | _ => True

def Next.phase : Next → Phase
  | .refresh id message => .refreshing id message
  | .pinged => .ended .nothing
  | .checked a => .ended (.check a.result)

/-- An exception after the answer leaves what the result has so far. One that comes while another is
handled is not caught. -/
def failureAfter (text : Str) (result : CheckResult) : Answer → Result
  | .ok _ _ | .status _ => .check { result with error := some text }
  | .timeout | .requestError _ => .raised text

/-- How `check_single_nvr_async` ends after an exception. The fields of the result are set behind
the loop over the cameras. -/
def checkFailure (text : Str) : Phase → Result
  | .querying _ => .check { error := some text }
  | .answered _ a _ => failureAfter text {} a
  | .addressed _ a _ | .flushing _ (.checked a) => failureAfter text a.result a
  | _ => .raised text

def Job.failure (text : Str) (p : Phase) : Job → Result
  | .create _ => .response (.error ("Failed to add device: ".toList ++ text))
  | .edit _ _ => .response (.error ("Failed to update device: ".toList ++ text))
  | .delete _ => .response (.error ("Failed to delete device: ".toList ++ text))
  | .ping _ => .raised text
  | .nvrCheck _ => checkFailure text p

structure State (T : Type) where
  now : Datetime
  table : Table
  phase : T → Phase
  log : List (T × List (Statement Int Column.Value))

section System

variable {T : Type} [DecidableEq T]

def State.goto (s : State T) (t : T) (p : Phase) : State T :=
  { s with phase := Function.update s.phase t p }

def State.commit (s : State T) (t : T) (statements : List (Statement Int Column.Value)) (table : Table)
    (p : Phase) : State T :=
  { s with
    table := table
    phase := Function.update s.phase t p
    log := s.log ++ [(t, statements)] }

def Unanswered : Answer → Prop
  | .ok _ _ => False
  | _ => True

/-- The steps of any number of jobs on one table. The database draws a primary key that is free; any
exception, of a statement, of the probe or the NVR or of the schema, ends the job. -/
inductive Step (job : T → Job) (s : State T) : State T → Prop
  | tick (now : Datetime) : Step job s { s with now := now }
  | build (t : T) (payload : Payload) (hj : job t = .create payload) (hp : s.phase t = .ready) :
      Step job s (s.goto t (.adding (newDevice payload (strftime s.now))))
  | insert (t : T) (row : Row) (id : Int) (table : Table) (hp : s.phase t = .adding row)
      (hc : commit s.table [.insert id row] = some table) :
      Step job s (s.commit t [.insert id row] table (.refreshing id "Device added successfully".toList))
  | edit (t : T) (id : Int) (payload : Payload) (row : Row) (hj : job t = .edit id payload)
      (hp : s.phase t = .ready) (hrow : s.table id = some row) :
      Step job s (s.goto t (.flushing [⟨id, row, updateDevice payload (strftime s.now) row⟩]
        (.refresh id "Device updated successfully".toList)))
  | editMissing (t : T) (id : Int) (payload : Payload) (hj : job t = .edit id payload)
      (hp : s.phase t = .ready) (hrow : s.table id = none) :
      Step job s (s.goto t (.ended (.response (.error "Device not found".toList))))
  | mark (t : T) (id : Int) (hj : job t = .delete id) (hp : s.phase t = .ready) (hrow : (s.table id).isSome) :
      Step job s (s.goto t (.deleting id))
  | markMissing (t : T) (id : Int) (hj : job t = .delete id) (hp : s.phase t = .ready)
      (hrow : s.table id = none) :
      Step job s (s.goto t (.ended (.response (.error "Device not found".toList))))
  | delete (t : T) (id : Int) (table : Table) (hp : s.phase t = .deleting id)
      (hc : commit s.table [.delete id] = some table) :
      Step job s (s.commit t [.delete id] table
        (.ended (.response (.success "Device deleted successfully".toList none))))
  | pingSkip (t : T) (id : Int) (hj : job t = .ping id) (hp : s.phase t = .ready)
      (hrow : ∀ row, s.table id = some row → orDefault (row .ip) "" = []) :
      Step job s (s.goto t (.ended .nothing))
  | pingRead (t : T) (id : Int) (row : Row) (hj : job t = .ping id) (hp : s.phase t = .ready)
      (hrow : s.table id = some row) (hip : orDefault (row .ip) "" ≠ []) :
      Step job s (s.goto t (.probing (pingDevice row).reading))
  | probe (t : T) (r : PingCheck.Reading) (ping : PingCheck.Probe) (accepts : Nat → Bool)
      (hp : s.phase t = .probing r) :
      Step job s (s.goto t (.probed r (PingCheck.portProbe ping accepts) s.now))
  | pingGone (t : T) (id : Int) (r : PingCheck.Reading) (p : PingCheck.Probe) (now : Datetime)
      (hj : job t = .ping id) (hp : s.phase t = .probed r p now) (hrow : s.table id = none) :
      Step job s (s.goto t (.ended .nothing))
  | pingAssign (t : T) (id : Int) (r : PingCheck.Reading) (p : PingCheck.Probe) (now : Datetime) (row : Row)
      (d : PingCheck.Device) (hj : job t = .ping id) (hp : s.phase t = .probed r p now)
      (hrow : s.table id = some row) (hd : PingCheck.assign r p now (pingDevice row) = some d) :
      Step job s (s.goto t (.flushing [⟨id, row, setPing d row⟩] .pinged))
  | checkMissing (t : T) (id : Int) (hj : job t = .nvrCheck id) (hp : s.phase t = .ready)
      (hrow : s.table id = none) :
      Step job s (s.goto t (.ended (.check { error := some "Device not found or not NVR".toList })))
  | checkReject (t : T) (id : Int) (row : Row) (error : Str) (hj : job t = .nvrCheck id)
      (hp : s.phase t = .ready) (hrow : s.table id = some row) (hr : rejects (nvrDevice row) = some error) :
      Step job s (s.goto t (.ended (.check { error := some error })))
  | checkRead (t : T) (id : Int) (row : Row) (hj : job t = .nvrCheck id) (hp : s.phase t = .ready)
      (hrow : s.table id = some row) (hr : rejects (nvrDevice row) = none) :
      Step job s (s.goto t (.querying (row .nvrLastRecordingDate)))
  | answer (t : T) (old : Option Str) (a : Answer) (addresses : List (Str × Str))
      (hp : s.phase t = .querying old) : Step job s (s.goto t (.answered old a addresses))
  | address (t : T) (id : Int) (old : Option Str) (xml : Str) (hdd : Hdd) (addresses : List (Str × Str))
      (selected cameras : List Object) (hj : job t = .nvrCheck id)
      (hp : s.phase t = .answered old (.ok xml hdd) addresses) (hselect : SelectsCameras s.table id selected)
      (hcameras : assignAddresses (strftime s.now) addresses selected = some cameras) :
      Step job s (s.goto t (.addressed old (.ok xml hdd) cameras))
  | skipAddresses (t : T) (old : Option Str) (a : Answer) (addresses : List (Str × Str)) (ha : Unanswered a)
      (hp : s.phase t = .answered old a addresses) : Step job s (s.goto t (.addressed old a []))
  | checkAssign (t : T) (id : Int) (old : Option Str) (a : Answer) (cameras objects : List Object)
      (hj : job t = .nvrCheck id) (hp : s.phase t = .addressed old a cameras)
      (hobjects : getNvr s.table id (assignNvr s.now old a) cameras = some objects) :
      Step job s (s.goto t (.flushing objects (.checked a)))
  | checkGone (t : T) (id : Int) (old : Option Str) (a : Answer) (cameras : List Object)
      (hj : job t = .nvrCheck id) (hp : s.phase t = .addressed old a cameras)
      (hobjects : getNvr s.table id (assignNvr s.now old a) cameras = none) :
      Step job s (s.goto t (.ended (.check a.result)))
  | flush (t : T) (objects : List Object) (next : Next) (table : Table)
      (hp : s.phase t = .flushing objects next)
      (hc : commit s.table (objects.filterMap Object.flush) = some table) :
      Step job s (s.commit t (objects.filterMap Object.flush) table next.phase)
  | refresh (t : T) (id : Int) (message : Str) (row : Row) (hp : s.phase t = .refreshing id message)
      (hrow : s.table id = some row) (hv : validates row = true) :
      Step job s (s.goto t (.ended (.response (.success message (some ⟨id, row⟩)))))
  | fail (t : T) (text : Str) (hp : (s.phase t).Running) :
      Step job s (s.goto t (.ended ((job t).failure text (s.phase t))))

def initial (now : Datetime) (table : Table) : State T := ⟨now, table, fun _ => .ready, []⟩

inductive Reachable (job : T → Job) (table : Table) : State T → Prop
  | init (now : Datetime) : Reachable job table (initial now table)
  | step {s s' : State T} : Reachable job table s → Step job s s' → Reachable job table s'

end System

end AtmMonitor.DeviceRegistry

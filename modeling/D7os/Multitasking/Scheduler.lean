import D7os.Multitasking.Queues
import D7os.Ipc.Manager
import D7os.Memory.Phys

/-!
# The scheduler

`src/multitasking/scheduler.rs`. The scheduler owns the processes by id, the
queues, and the id of the running process. `terminate` removes the process, wakes
the processes waiting for it, lets the IPC manager clean up (`on_process_over`)
and publishes `process/terminated`; the events both return are relayed to the
queues as they arrive.

A process is represented by what the scheduler reads of it: its id and whether a
system call is pending. `Process::create`, the clock and the serialized
`ProcessTerminated` message are parameters.
-/

namespace D7os

open Ipc

/-- The fields of `Process` that the scheduler reads. -/
structure Process where
  id : ProcessId
  /-- Pending system call for repeating IO operations after waking up -/
  repeatSyscall : Bool
  deriving DecidableEq, Repr

/-- `ProcessSwitch`, with the switch information reduced to the process id. -/
inductive ProcessSwitch
  /-- Keep the same process -/
  | Continue
  /-- Go to idle state -/
  | Idle
  /-- Switch to a different process -/
  | Switch (pid : ProcessId)
  /-- Switch to a new process by repeating a system call -/
  | RepeatSyscall (pid : ProcessId)
  deriving DecidableEq, Repr

structure Scheduler where
  /-- Processes by id -/
  processes : HashMap ProcessId Process
  /-- Queues for different types of scheduling -/
  queues : Queues
  /-- Id of the currently running process -/
  running : Option ProcessId
  /-- End of the timeslice of the currently running process -/
  runningTimesliceEnd : Option BSPInstant
  /-- Next available process id -/
  nextPid : ProcessId

namespace Scheduler

def new : Scheduler := ⟨∅, Queues.new, none, none, ProcessId.first⟩

/-- `spawn`: a new process, queued to run. -/
def spawn (s : Scheduler) (create : ProcessId → Except OutOfMemory Process) :
    Except Panic (Scheduler × Except OutOfMemory ProcessId) := do
  let pid := s.nextPid
  let s := { s with nextPid := pid.next }
  match create pid with
  | .error e => pure (s, .error e)
  | .ok process =>
    let s := { s with processes := s.processes.insert pid process }
    let queues ← s.queues.give pid .None
    pure ({ s with queues }, .ok pid)

def onExplicitEvent (s : Scheduler) (eventId : ExplicitEventId) : Scheduler :=
  { s with queues := s.queues.onExplicitEvent eventId }

/-- `IpcResult::consume_events`. -/
def consumeEvents (s : Scheduler) (events : List TriggerEvent) : Scheduler :=
  events.foldl (fun s e => s.onExplicitEvent e.event) s

/-- `kernel_publish(sched, "process/terminated", ..)` with the serialized message. -/
def publishTerminated (s : Scheduler) (ipc : Manager) (payload : List UInt8) :
    Except Panic (Scheduler × Manager) :=
  match Topic.new "process/terminated".toList with
  | none => .error "Invalid topic name"
  | some topic => do
    let (ipc, r) ← ipc.publish topic payload
    let s := s.consumeEvents r.events
    match r.value with
    | .ok () => pure (s, ipc)
    | .error _ => .error "Publish failed"

/-- The body of `terminate` for a live process: remove it, wake the processes
waiting for it, clean up its IPC state and publish its death. -/
def stop (s : Scheduler) (ipc : Manager) (target : ProcessId) (process : Process)
    (payload : List UInt8) : Except Panic (Scheduler × Manager) := do
  let s := { s with
    processes := s.processes.erase target
    queues := s.queues.onProcessOver process.id }
  let (ipc, events) ← ipc.onProcessOver process.id
  let s := events.foldl onExplicitEvent s
  s.publishTerminated ipc payload

/-- `terminate`: stop the process if it is alive; it is no longer the running one. -/
def terminate (s : Scheduler) (ipc : Manager) (target : ProcessId) (payload : List UInt8) :
    Except Panic (Scheduler × Manager) := do
  let (s, ipc) ← match s.processes.lookup target with
    | none => pure (s, ipc)
    | some process => s.stop ipc target process payload
  if s.running = some target then
    pure ({ s with running := none, runningTimesliceEnd := none }, ipc)
  else pure (s, ipc)

/-- The switch information of the process about to run. -/
def switchTo (process : Process) (pid : ProcessId) : ProcessSwitch :=
  if process.repeatSyscall then .RepeatSyscall pid else .Switch pid

/-- `switch`: requeue the running process under `schedule`, if given, and take
the next one; `timesliceEnd` is the end of the new time slice. -/
def switch (s : Scheduler) (schedule : Option WaitFor) (timesliceEnd : BSPInstant) :
    Except Panic (Scheduler × ProcessSwitch) := do
  let s ← match schedule, s.running with
    | some w, some runningPid => do
      let queues ← s.queues.give runningPid w
      pure { s with queues }
    | _, _ => pure s
  match s.queues.take with
  | (some pid, queues) =>
    let s := { s with queues, running := some pid, runningTimesliceEnd := some timesliceEnd }
    match s.processes.lookup pid with
    | none => .error "Process from queue not running"
    | some process => pure (s, switchTo process pid)
  | (none, queues) => pure ({ s with queues, running := none, runningTimesliceEnd := none }, .Idle)

/-- `switch_current_or_next`. -/
def switchCurrentOrNext (s : Scheduler) : Except Panic (Scheduler × ProcessSwitch) :=
  let s := match s.running with
    | none =>
      let (running, queues) := s.queues.take
      { s with running, queues }
    | some _ => s
  match s.running with
  | some pid =>
    match s.processes.lookup pid with
    | none => .error "self.running does not exist anymore"
    | some process => .ok (s, switchTo process pid)
  | none => .ok (s, .Idle)

/-- `tick` at time `now`. -/
def tick (s : Scheduler) (now timesliceEnd : BSPInstant) :
    Except Panic (Scheduler × ProcessSwitch) :=
  { s with queues := s.queues.onTick now }.switch (some .None) timesliceEnd

/-- `terminate_and_switch`. -/
def terminateAndSwitch (s : Scheduler) (ipc : Manager) (target : ProcessId)
    (payload : List UInt8) (timesliceEnd : BSPInstant) :
    Except Panic ((Scheduler × ProcessSwitch) × Manager) := do
  let isCurrent := s.running = some target
  let (s, ipc) ← s.terminate ipc target payload
  let r ← if isCurrent then s.switch none timesliceEnd else s.switchCurrentOrNext
  pure (r, ipc)

end Scheduler

end D7os

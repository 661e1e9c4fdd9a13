import D7os.Ipc.List
import D7os.Multitasking.WaitFor

/-!
# Messages, event queues and mailboxes

`src/ipc/result.rs`, `src/ipc/event_queue.rs` and the `Mailbox` of
`src/ipc/mod.rs`, with `Message` and `AcknowledgeId` from `d7abi::ipc`.

An `EventQueue` is a bounded FIFO with one lazily created wake-up event: a reader
that finds the queue empty takes the stored event (creating it from the global
counter `NEXT_EVENT` if there is none) and blocks on it, and the next successful
`push` hands the event back to be triggered. The counter is threaded through the
functions that draw from it.
-/

namespace D7os.Ipc

/-- `AcknowledgeId(u64)`. -/
structure AcknowledgeId where
  val : Nat
  deriving DecidableEq, Repr

/-- `AcknowledgeId::next`. -/
def AcknowledgeId.next (a : AcknowledgeId) : AcknowledgeId := ⟨a.val + 1⟩

/-- `d7abi::ipc::Message`. -/
structure Message where
  topic : List Char
  data : List UInt8
  ackId : Option AcknowledgeId
  deriving DecidableEq, Repr

inductive SubscriptionError
  | Exclusion
  deriving DecidableEq, Repr

inductive DeliveryError
  | NoSubscriber
  | QueueFull
  | NegativeAcknowledgement
  deriving DecidableEq, Repr

inductive PermissionError
  | NotOwner
  | NoAccess
  deriving DecidableEq, Repr

/-- `ipc::Error`. -/
inductive Error
  | InvalidTopic
  | Unsubscribed
  | ReAcknowledge
  | PipeReserved
  | PipeSenderTerminated
  | Subscription (e : SubscriptionError)
  | Delivery (e : DeliveryError)
  | Permission (e : PermissionError)
  deriving DecidableEq, Repr

/-- Marker for an event that should be triggered. -/
structure TriggerEvent where
  event : ExplicitEventId
  deriving DecidableEq, Repr

/-- `IpcResult<T>`: a value and the set of events to trigger. The `HashSet` is a
list without duplicates. -/
structure IpcResult (T : Type) where
  value : Except Error T
  events : List TriggerEvent

namespace IpcResult

variable {T R : Type}

def new (value : Except Error T) : IpcResult T := ⟨value, []⟩

def success (value : T) : IpcResult T := ⟨.ok value, []⟩

def error (e : Error) : IpcResult T := ⟨.error e, []⟩

def withEvent (r : IpcResult T) (newEvent : TriggerEvent) : IpcResult T :=
  { r with events := r.events.insert newEvent }

def withEvents (r : IpcResult T) (newEvents : List TriggerEvent) : IpcResult T :=
  { r with events := newEvents.foldl (fun acc e => acc.insert e) r.events }

def map (r : IpcResult T) (f : T → R) : IpcResult R := ⟨r.value.map f, r.events⟩

end IpcResult

/-- `EventQueue<T>`: queue with wakeup event blocking with max size. -/
structure EventQueue (α : Type) where
  queue : List α
  event : Option ExplicitEventId
  limit : Nat

namespace EventQueue

variable {α : Type}

def new (limit : Nat) : EventQueue α := ⟨[], none, limit⟩

def isEmpty (q : EventQueue α) : Bool := q.queue.isEmpty

/-- `Ok(event)` when the push succeeds (with the stored event, which is taken),
`Err(())` when the buffer is full. -/
def push (q : EventQueue α) (item : α) : Except Unit (Option ExplicitEventId) × EventQueue α :=
  if q.queue.length ≥ q.limit then (.error (), q)
  else (.ok q.event, { q with queue := q.queue ++ [item], event := none })

def pop (q : EventQueue α) : Option α × EventQueue α :=
  match q.queue with
  | [] => (none, q)
  | x :: xs => (some x, { q with queue := xs })

/-- `get_event`: the stored event, created from `NEXT_EVENT` if missing. -/
def getEvent (q : EventQueue α) (nextEvent : Nat) : ExplicitEventId × EventQueue α × Nat :=
  match q.event with
  | some e => (e, q, nextEvent)
  | none =>
    let (e, n) := newEventId nextEvent
    (e, { q with event := some e }, n)

/-- `pop_or_event`: `Ok` with the front message, or `Err` with the event to wait for. -/
def popOrEvent (q : EventQueue α) (nextEvent : Nat) :
    Except ExplicitEventId α × EventQueue α × Nat :=
  match q.queue with
  | x :: xs => (.ok x, { q with queue := xs }, nextEvent)
  | [] =>
    let (e, q', n) := q.getEvent nextEvent
    (.error e, q', n)

def takeEvent (q : EventQueue α) : Option ExplicitEventId × EventQueue α :=
  (q.event, { q with event := none })

def waitFor (q : EventQueue α) (nextEvent : Nat) : WaitFor × EventQueue α × Nat :=
  if q.queue.isEmpty then
    let (e, q', n) := q.getEvent nextEvent
    (.Event e, q', n)
  else (.None, q, nextEvent)

theorem push_of_full {q : EventQueue α} {item : α} (h : q.limit ≤ q.queue.length) :
    q.push item = (.error (), q) := by
  simp [push, h]

theorem push_of_lt {q : EventQueue α} {item : α} (h : q.queue.length < q.limit) :
    q.push item = (.ok q.event, { q with queue := q.queue ++ [item], event := none }) := by
  simp [push, Nat.not_le.mpr h]

/-- A push either fails and changes nothing, or appends the item and hands out the
stored event. -/
theorem push_cases (q : EventQueue α) (item : α) :
    q.push item = (.error (), q) ∨
      q.push item = (.ok q.event, { q with queue := q.queue ++ [item], event := none }) := by
  rcases Nat.lt_or_ge q.queue.length q.limit with hl | hl
  · exact .inr (push_of_lt hl)
  · exact .inl (push_of_full hl)

/-- Whatever `get_event` returns, the queue keeps its messages and limit. -/
@[simp] theorem getEvent_queue (q : EventQueue α) (n : Nat) :
    (q.getEvent n).2.1.queue = q.queue := by
  unfold getEvent; split <;> rfl

@[simp] theorem getEvent_limit (q : EventQueue α) (n : Nat) :
    (q.getEvent n).2.1.limit = q.limit := by
  unfold getEvent; split <;> rfl

/-- `pop_or_event` takes the front message, or leaves the messages as they are. -/
theorem popOrEvent_eq {q q' : EventQueue α} {n n' : Nat} {res : Except ExplicitEventId α}
    (h : q.popOrEvent n = (res, q', n')) :
    (∃ x, res = .ok x ∧ q.queue = x :: q'.queue) ∨ (∃ e, res = .error e ∧ q'.queue = q.queue) := by
  unfold popOrEvent at h
  split at h
  · rename_i x xs hq
    simp only [Prod.mk.injEq] at h
    obtain ⟨rfl, rfl, -⟩ := h
    exact .inl ⟨x, rfl, hq⟩
  · rcases hg : q.getEvent n with ⟨e, q'', n''⟩
    have hq := getEvent_queue q n
    rw [hg] at h hq
    simp only [Prod.mk.injEq] at h
    obtain ⟨rfl, rfl, -⟩ := h
    exact .inr ⟨e, rfl, hq⟩

/-- `wait_for` leaves the messages as they are. -/
theorem waitFor_eq {q q' : EventQueue α} {n n' : Nat} {w : WaitFor}
    (h : q.waitFor n = (w, q', n')) : q'.queue = q.queue := by
  unfold waitFor at h
  split at h
  · rcases hg : q.getEvent n with ⟨e, q'', n''⟩
    have hq := getEvent_queue q n
    rw [hg] at h hq
    simp only [Prod.mk.injEq] at h
    obtain ⟨-, rfl, -⟩ := h
    exact hq
  · simp only [Prod.mk.injEq] at h
    obtain ⟨-, rfl, -⟩ := h
    rfl

end EventQueue

/-- `const MAILBOX_BUFFER_LIMIT`. -/
def MAILBOX_BUFFER_LIMIT : Nat := 100

inductive PipeMode
  /-- This is not a pipe mailbox -/
  | None
  /-- No process has connected yet -/
  | NotConnected
  /-- Process has connected -/
  | ConnectedTo (pid : ProcessId)
  /-- Previously-connected process has been terminated -/
  | Disconnected
  deriving DecidableEq, Repr

structure Mailbox where
  queue : EventQueue Message
  pipeMode : PipeMode

namespace Mailbox

def new (pipeMode : PipeMode) : Mailbox := ⟨EventQueue.new MAILBOX_BUFFER_LIMIT, pipeMode⟩

/-- `push_unreliable`: asserts a non-pipe mailbox, drops the message when full. -/
def pushUnreliable (mb : Mailbox) (message : Message) : Except Panic (Option TriggerEvent × Mailbox) :=
  if mb.pipeMode = .None then
    match mb.queue.push message with
    | (.ok v, q) => .ok (v.map TriggerEvent.mk, { mb with queue := q })
    | (.error (), q) => .ok (none, { mb with queue := q })
  else .error "assertion failed: matches!(self.pipe_mode, PipeMode::None)"

/-- `push_reliable`: asserts the pipe mode was updated first, fails when full. -/
def pushReliable (mb : Mailbox) (message : Message) :
    Except Panic (Except DeliveryError (Option TriggerEvent) × Mailbox) :=
  if mb.pipeMode = .NotConnected then
    .error "assertion failed: !matches!(self.pipe_mode, PipeMode::NotConnected)"
  else
    match mb.queue.push message with
    | (.ok v, q) => .ok (.ok (v.map TriggerEvent.mk), { mb with queue := q })
    | (.error (), q) => .ok (.error .QueueFull, { mb with queue := q })

/-- The only panic of `push_unreliable` is its assertion. -/
theorem pushUnreliable_eq_error {mb : Mailbox} {message : Message} {p : Panic}
    (h : mb.pushUnreliable message = .error p) :
    p = "assertion failed: matches!(self.pipe_mode, PipeMode::None)" := by
  unfold pushUnreliable at h
  split at h
  · rcases EventQueue.push_cases mb.queue message with he | he <;> simp [he] at h
  · exact (Except.error.inj h).symm

/-- `push_unreliable` keeps the pipe mode and the queue, or appends the message. -/
theorem pushUnreliable_eq_ok {mb mb' : Mailbox} {message : Message} {e : Option TriggerEvent}
    (h : mb.pushUnreliable message = .ok (e, mb')) :
    mb'.pipeMode = mb.pipeMode ∧
      (mb'.queue.queue = mb.queue.queue ∨ mb'.queue.queue = mb.queue.queue ++ [message]) := by
  unfold pushUnreliable at h
  split at h
  · rcases EventQueue.push_cases mb.queue message with he | he <;>
      simp only [he, Except.ok.injEq, Prod.mk.injEq] at h <;> obtain ⟨-, rfl⟩ := h
    · exact ⟨rfl, .inl rfl⟩
    · exact ⟨rfl, .inr rfl⟩
  · cases h

/-- `push_reliable` keeps the pipe mode, and appends the message exactly when it
reports success. -/
theorem pushReliable_eq_ok {mb mb' : Mailbox} {message : Message}
    {r : Except DeliveryError (Option TriggerEvent)} (h : mb.pushReliable message = .ok (r, mb')) :
    mb'.pipeMode = mb.pipeMode ∧ mb'.queue.queue = mb.queue.queue ++
      (match r with
        | .ok _ => [message]
        | .error _ => []) := by
  unfold pushReliable at h
  split at h
  · cases h
  · rcases EventQueue.push_cases mb.queue message with he | he <;>
      simp only [he, Except.ok.injEq, Prod.mk.injEq] at h <;> obtain ⟨rfl, rfl⟩ := h
    · simp
    · simp

/-- Once the pipe mode has been updated, `push_reliable` does not panic. -/
theorem pushReliable_of_ne {mb : Mailbox} (message : Message) (h : mb.pipeMode ≠ .NotConnected) :
    ∃ r mb', mb.pushReliable message = .ok (r, mb') := by
  unfold pushReliable
  rw [if_neg h]
  rcases EventQueue.push_cases mb.queue message with he | he <;> simp [he]

end Mailbox

end D7os.Ipc

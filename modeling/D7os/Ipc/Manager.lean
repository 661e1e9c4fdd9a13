import D7os.Ipc.Mailbox
import D7os.Lib.AList

/-!
# The IPC manager

`struct Manager` of `src/ipc/mod.rs` and its operations. Each operation returns
the manager after the call, or the panic it stops at (`unwrap`, `expect`,
`assert!`), as `Except Panic`. The events an operation asks to trigger are part
of its `IpcResult`; the scheduler side of `consume_events` is not modelled here.

Hash maps are association lists (`HashMap`), hash sets lists without duplicates.
`deliver` hands messages for kernel-owned subscriptions to `services::incoming`;
that entry point is a parameter here and is instantiated in `D7os.Ipc.Services`.
-/

namespace D7os.Ipc

/-- `enum Deliver`, the result of `Manager::deliver`. -/
inductive Deliver
  /-- Wait for this event -/
  | Process (event : ExplicitEventId)
  /-- Just wake up with ok -/
  | Kernel
  deriving DecidableEq, Repr

structure Manager where
  /-- Topic to subscription id mapping -/
  subscriptions : SubscriptionList
  /-- All mailboxes by subscription id; `none` when the kernel handles the messages -/
  mailboxes : HashMap SubscriptionId (Option Mailbox)
  /-- Reliable messages waiting for the receiver acknowledgement: sender wakeup id and pid -/
  waitingForDelivery : HashMap AcknowledgeId (ExplicitEventId × ProcessId)
  /-- Reliable messages that have been delivered (or caused an error) -/
  deliveryResult : HashMap ProcessId (Except DeliveryError Unit)
  /-- Next free acknowledge id -/
  nextAcknowledgeId : AcknowledgeId
  /-- ProcessId -> SubscriptionId mapping for process-exit cleanup -/
  processSubscriptions : HashMap ProcessId (List SubscriptionId)
  /-- The global `NEXT_EVENT` of `waitfor.rs`; only IPC code draws from it -/
  nextEvent : Nat

/-- The kernel-side entry point for messages to kernel subscriptions,
`services::incoming`. -/
abbrev Incoming := Manager → ProcessId → SubscriptionId → Message → Except Panic (Manager × IpcResult Unit)

/-- The panic message of `Option::unwrap` on `None`. -/
def unwrapNone : Panic := "called `Option::unwrap()` on a `None` value"

namespace Manager

def new : Manager := ⟨.new, ∅, ∅, ∅, ⟨0⟩, ∅, 0⟩

/-- `process_owns`. -/
def processOwns (m : Manager) (pid : ProcessId) (sub : SubscriptionId) : Bool :=
  ((m.processSubscriptions.lookup pid).map fun subs => subs.contains sub).getD false

/-- `verify_process_owns`. -/
def verifyProcessOwns (m : Manager) (pid : ProcessId) (sub : SubscriptionId) :
    Except PermissionError Unit :=
  if m.processOwns pid sub then .ok () else .error .NotOwner

/-- `subscribe`: reliable subscriptions are mutually exclusive. -/
def subscribe (m : Manager) (pid : ProcessId) (filter : TopicFilter) (reliable pipe : Bool) :
    Manager × Except SubscriptionError SubscriptionId :=
  match m.subscriptions.insert filter reliable with
  | (subscriptions, some id) =>
    ({ m with
        subscriptions,
        mailboxes := m.mailboxes.insert id
          (some (Mailbox.new (if pipe then .NotConnected else .None))),
        processSubscriptions := m.processSubscriptions.insert pid
          (((m.processSubscriptions.lookup pid).getD []).insert id) },
      .ok id)
  | (_, none) => (m, .error .Exclusion)

/-- `kernel_subscribe`: only reliable subscriptions, with no mailbox. -/
def kernelSubscribe (m : Manager) (filter : TopicFilter) :
    Manager × Except SubscriptionError SubscriptionId :=
  match m.subscriptions.insert filter true with
  | (subscriptions, some id) =>
    ({ m with subscriptions, mailboxes := m.mailboxes.insert id none }, .ok id)
  | (_, none) => (m, .error .Exclusion)

/-- The loop of `_force_unsubscribe` that releases the reliable messages of the
removed mailbox: each sender is told `NoSubscriber` and woken. -/
def releaseMessages : List Message → HashMap AcknowledgeId (ExplicitEventId × ProcessId) →
    HashMap ProcessId (Except DeliveryError Unit) → List TriggerEvent →
    Except Panic (HashMap AcknowledgeId (ExplicitEventId × ProcessId) ×
      HashMap ProcessId (Except DeliveryError Unit) × List TriggerEvent)
  | [], waiting, results, events => .ok (waiting, results, events)
  | msg :: rest, waiting, results, events =>
    match msg.ackId with
    | none => releaseMessages rest waiting results events
    | some ackId =>
      match waiting.lookup ackId with
      | none => .error unwrapNone
      | some (event, pid) =>
        releaseMessages rest (waiting.erase ackId) (results.insert pid (.error .NoSubscriber))
          (events.insert ⟨event⟩)

/-- `_force_unsubscribe`: removing subscriptions on process termination. -/
def forceUnsubscribe (m : Manager) (subscription : SubscriptionId) :
    Except Panic (Manager × IpcResult Unit) :=
  let subscriptions := m.subscriptions.remove subscription
  match m.mailboxes.lookup subscription with
  | none => .error unwrapNone
  | some none => .error "Kernel cannot unsubscribe"
  | some (some mailbox) => do
    let (waiting, results, events) ←
      releaseMessages mailbox.queue.queue m.waitingForDelivery m.deliveryResult []
    pure ({ m with
        subscriptions,
        mailboxes := m.mailboxes.erase subscription,
        waitingForDelivery := waiting,
        deliveryResult := results },
      (IpcResult.success ()).withEvents events)

/-- `unsubscribe`. -/
def unsubscribe (m : Manager) (pid : ProcessId) (subscription : SubscriptionId) :
    Except Panic (Manager × IpcResult Unit) :=
  match m.verifyProcessOwns pid subscription with
  | .error e => .ok (m, .error (.Permission e))
  | .ok () =>
    match m.processSubscriptions.lookup pid with
    | none => .error unwrapNone
    | some subs =>
      forceUnsubscribe
        { m with processSubscriptions := m.processSubscriptions.insert pid (subs.erase subscription) }
        subscription

/-- The loop of `publish` over the unreliable subscribers. -/
def publishLoop (topic : Topic) (data : List UInt8) :
    List SubscriptionId → HashMap SubscriptionId (Option Mailbox) → List TriggerEvent →
    Except Panic (HashMap SubscriptionId (Option Mailbox) × List TriggerEvent)
  | [], mailboxes, events => .ok (mailboxes, events)
  | sub :: rest, mailboxes, events =>
    match mailboxes.lookup sub with
    | none => .error unwrapNone
    | some none => .error "Cannot send unreliable messages to the kernel"
    | some (some mailbox) => do
      let (event, mailbox) ← mailbox.pushUnreliable ⟨topic.name, data, none⟩
      publishLoop topic data rest (mailboxes.insert sub (some mailbox))
        (match event with
          | some e => events.insert e
          | none => events)

/-- `publish`: unreliable (fire-and-forget) publish to a key group. -/
def publish (m : Manager) (topic : Topic) (data : List UInt8) :
    Except Panic (Manager × IpcResult Unit) := do
  let (mailboxes, events) ← publishLoop topic data (m.subscriptions.findAll topic false) m.mailboxes []
  pure ({ m with mailboxes }, (IpcResult.success ()).withEvents events)

/-- The `match mailbox.pipe_mode` of `deliver`: the first sender to a pipe
connects it; a pipe connected to another process, or disconnected, is reserved. -/
def connectPipe (mailbox : Mailbox) (pid : ProcessId) : Option Mailbox :=
  match mailbox.pipeMode with
  | .None => some mailbox
  | .NotConnected => some { mailbox with pipeMode := .ConnectedTo pid }
  | .ConnectedTo cPid => if cPid ≠ pid then none else some mailbox
  | .Disconnected => none

/-- `deliver`: reliable delivery to an exclusive topic. -/
def deliver (incoming : Incoming) (m : Manager) (pid : ProcessId) (topic : Topic)
    (data : List UInt8) : Except Panic (Manager × IpcResult Deliver) :=
  let all := m.subscriptions.findAll topic true
  if all.length = 0 then .ok (m, .error (.Delivery .NoSubscriber))
  else if all.length ≠ 1 then .error "Multiple targets selected for reliable delivery"
  else
    let ackId := m.nextAcknowledgeId
    let m := { m with nextAcknowledgeId := ackId.next }
    match all with
    | [] => .error unwrapNone
    | sub :: _ =>
      match m.mailboxes.lookup sub with
      | none => .error unwrapNone
      | some (some mailbox) =>
        match connectPipe mailbox pid with
        | none => .ok (m, .error .PipeReserved)
        | some mailbox => do
          let (result, mailbox) ← mailbox.pushReliable ⟨topic.name, data, some ackId⟩
          let m := { m with mailboxes := m.mailboxes.insert sub (some mailbox) }
          match result with
          | .ok trigger =>
            let (senderWakeupId, nextEvent) := newEventId m.nextEvent
            pure ({ m with
                nextEvent,
                waitingForDelivery := m.waitingForDelivery.insert ackId (senderWakeupId, pid) },
              (IpcResult.success (.Process senderWakeupId)).withEvents trigger.toList)
          | .error error => pure (m, .error (.Delivery error))
      | some none => do
        let (m, r) ← incoming m pid sub ⟨topic.name, data, some ackId⟩
        pure (m, r.map fun () => .Kernel)

/-- `deliver_reply`: reply to a delivery to a different topic. -/
def deliverReply (m : Manager) (_pid : ProcessId) (topic : Topic) (data : List UInt8) :
    Except Panic (Manager × IpcResult Unit) :=
  let all := m.subscriptions.findAll topic true
  if all.length = 0 then .ok (m, .error (.Delivery .NoSubscriber))
  else if all.length ≠ 1 then .error "Multiple targets selected for reliable delivery"
  else
    match all with
    | [] => .error unwrapNone
    | sub :: _ =>
      match m.mailboxes.lookup sub with
      | none => .error unwrapNone
      | some (some mailbox) =>
        if mailbox.pipeMode ≠ .None then .error "TODO: Error: reply to pipe not allowed"
        else do
          let (result, mailbox) ← mailbox.pushReliable ⟨topic.name, data, none⟩
          let m := { m with mailboxes := m.mailboxes.insert sub (some mailbox) }
          match result with
          | .ok trigger => pure (m, (IpcResult.success ()).withEvents trigger.toList)
          | .error error => pure (m, .error (.Delivery error))
      | some none => .error "Cannot deliver_reply to the kernel"

/-- `kernel_deliver_reply`, with the payload already serialized. -/
def kernelDeliverReply (m : Manager) (topic : Topic) (payload : List UInt8) :
    Except Panic (Manager × Except DeliveryError Unit) :=
  let all := m.subscriptions.findAll topic true
  if all.length = 0 then .ok (m, .error .NoSubscriber)
  else if all.length ≠ 1 then .error "Multiple targets selected for reliable delivery"
  else
    let ackId := m.nextAcknowledgeId
    let m := { m with nextAcknowledgeId := ackId.next }
    match all with
    | [] => .error unwrapNone
    | sub :: _ =>
      match m.mailboxes.lookup sub with
      | none => .error unwrapNone
      | some none => .error "Kernel cannot reply to itself"
      | some (some mailbox) =>
        if mailbox.pipeMode ≠ .None then
          .error "assertion failed: matches!(mailbox.pipe_mode, PipeMode::None)"
        else do
          let (result, mailbox) ← mailbox.pushReliable ⟨topic.name, payload, none⟩
          let m := { m with mailboxes := m.mailboxes.insert sub (some mailbox) }
          match result with
          | .error e => pure (m, .error e)
          | .ok (some _) => .error "Kernel reply delivery must not cause events"
          | .ok none => pure (m, .ok ())

/-- `delivery_complete`. -/
def deliveryComplete (m : Manager) (pid : ProcessId) : Bool :=
  (m.deliveryResult.lookup pid).isSome

/-- `after_delivery`. -/
def afterDelivery (m : Manager) (pid : ProcessId) : Except Panic (Manager × IpcResult Unit) :=
  match m.deliveryResult.lookup pid with
  | none => .error "No such delivery in after_delivery"
  | some result =>
    .ok ({ m with deliveryResult := m.deliveryResult.erase pid },
      match result with
      | .ok () => .success ()
      | .error e => .error (.Delivery e))

/-- `waiting_for`: what event this subscription triggers when selected. -/
def waitingFor (m : Manager) (subscription : SubscriptionId) : Except Panic (Manager × WaitFor) :=
  match m.mailboxes.lookup subscription with
  | none => .error "Attempt to check_available from an unsubscribed topic"
  | some none => .error "The kernel cannot manually check for events"
  | some (some mailbox) =>
    let (w, queue, nextEvent) := mailbox.queue.waitFor m.nextEvent
    .ok ({ m with
        mailboxes := m.mailboxes.insert subscription (some { mailbox with queue }),
        nextEvent }, w)

/-- `receive`: a message if one is available, otherwise the event to wait for. -/
def receive (m : Manager) (pid : ProcessId) (subscription : SubscriptionId) :
    Except Panic (Manager × IpcResult (Except ExplicitEventId Message)) :=
  match m.verifyProcessOwns pid subscription with
  | .error e => .ok (m, .error (.Permission e))
  | .ok () =>
    match m.mailboxes.lookup subscription with
    | none => .ok (m, .error .Unsubscribed)
    | some none => .error "The kernel cannot manually receive events"
    | some (some mailbox) =>
      let (r, queue, nextEvent) := mailbox.queue.popOrEvent m.nextEvent
      .ok ({ m with
          mailboxes := m.mailboxes.insert subscription (some { mailbox with queue }),
          nextEvent }, .success r)

/-- `acknowledge`; the subscription argument is ignored by the code. -/
def acknowledge (m : Manager) (_subscription : SubscriptionId) (ackId : AcknowledgeId)
    (positive : Bool) : Except Panic (Manager × IpcResult Unit) :=
  match m.waitingForDelivery.lookup ackId with
  | none => .error "Attempt to re-acknowledge a message"
  | some (event, pid) =>
    .ok ({ m with
        waitingForDelivery := m.waitingForDelivery.erase ackId,
        deliveryResult := m.deliveryResult.insert pid
          (if positive then .ok () else .error .NegativeAcknowledgement) },
      (IpcResult.success ()).withEvent ⟨event⟩)

/-- The loop of `on_process_over` over the subscriptions of the process; the
events of each `_force_unsubscribe` are consumed in order. -/
def unsubscribeAll : List SubscriptionId → Manager → List ExplicitEventId →
    Except Panic (Manager × List ExplicitEventId)
  | [], m, events => .ok (m, events)
  | sub :: rest, m, events => do
    let (m, r) ← m.forceUnsubscribe sub
    match r.value with
    | .ok () => unsubscribeAll rest m (events ++ r.events.map (·.event))
    | .error _ => .error "called `Result::unwrap()` on an `Err` value"

/-- A pipe connected to the terminated process becomes disconnected and gives up
its event. -/
def disconnect (pid : ProcessId) (mailbox : Mailbox) : Mailbox :=
  if mailbox.pipeMode = .ConnectedTo pid then
    { mailbox with pipeMode := .Disconnected, queue := mailbox.queue.takeEvent.2 }
  else mailbox

/-- The events `on_process_over` takes from pipes connected to the process, in the
order of the mailbox map. -/
def pipeEvents (mailboxes : HashMap SubscriptionId (Option Mailbox)) (pid : ProcessId) :
    List ExplicitEventId :=
  mailboxes.entries.filterMap fun e =>
    match e.2 with
    | some mailbox => if mailbox.pipeMode = .ConnectedTo pid then mailbox.queue.event else none
    | none => none

/-- `on_process_over`: unsubscribe from all events, disconnect pipes, and return
the events to trigger, in the order the code triggers them. The per-mailbox steps
of the pipe loop touch only their own mailbox, so the loop is the pointwise
`disconnect` together with the list of the events it takes. -/
def onProcessOver (m : Manager) (pid : ProcessId) : Except Panic (Manager × List ExplicitEventId) := do
  let (m, events) ← match m.processSubscriptions.lookup pid with
    | some subs =>
      unsubscribeAll subs { m with processSubscriptions := m.processSubscriptions.erase pid } []
    | none => pure (m, [])
  pure ({ m with mailboxes := m.mailboxes.updateAll fun _ v => v.map (disconnect pid) },
    events ++ pipeEvents m.mailboxes pid)

end Manager

end D7os.Ipc

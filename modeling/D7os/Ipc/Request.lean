import D7os.Syscall.Dispatch

/-!
# Requests and replies over reliable IPC

`src/libs/libd7/src/ipc/server.rs`. A client's `request(topic, message)`
subscribes to a reply topic, delivers `(reply_to, message)` reliably, blocks
until it is acknowledged, receives the reply and unsubscribes. The server's
`handle(f)` receives one request, delivers `f(message)` to `reply_to` and then
acknowledges the request.

A process is a program counter over these system calls, each handled atomically
by the kernel on the IPC manager; a blocking call returns `RepeatAfter` and is
made again once its event is triggered. A world is the manager with one server
and any number of clients, and `Step` runs one call of one process; a panic is no
step. `pinecone` is a `Codec` that reads back what it writes, and a message is
only measured (`messageLength`) against the receive buffer.
-/

namespace D7os.Ipc

/-- A serialization of `α` (`pinecone::to_vec` and `pinecone::from_bytes`) that
reads back what it writes. -/
structure Codec (α : Type) where
  encode : α → List UInt8
  decode : List UInt8 → Option α
  decode_encode : ∀ a, decode (encode a) = some a

/-- `BUFFER_SIZE` of `libd7::ipc::subscription`. -/
def BUFFER_SIZE : Nat := 0x10_0000

/-- `format!("libd7/ipc/request/{}/{}", pid, num)`. -/
def replyTopicName (pid : ProcessId) (num : Nat) : List Char :=
  "libd7/ipc/request/".toList ++ Nat.toDigits 10 pid.val ++ '/' :: Nat.toDigits 10 num

/-- The fixed parts of a request-reply system: the server's topic and handler, the
serialization of requests and responses, and the processes with the request each
client makes. -/
structure Protocol (ι RQ RS : Type) where
  topic : Topic
  handler : RQ → Except SyscallErrorCode RS
  request : Codec (List Char × RQ)
  response : Codec RS
  /-- `pinecone::to_vec(&msg).len()` -/
  messageLength : Message → Nat
  /-- `services::incoming`, for deliveries to kernel subscriptions -/
  incoming : Incoming
  serverPid : ProcessId
  clientPid : ι → ProcessId
  message : ι → RQ

namespace Protocol

variable {ι RQ RS : Type} (P : Protocol ι RQ RS)

/-- The reply topic of the first `request` of a client: `NEXT_TOPIC` starts at 0. -/
def replyName (i : ι) : List Char := replyTopicName (P.clientPid i) 0

end Protocol

/-! ## The system calls -/

/-- What a blocking system call hands back: its result, or the event after which
it is made again. -/
inductive Returned (α : Type)
  | value (r : Except SyscallErrorCode α)
  | repeatAfter (event : ExplicitEventId)

/-- `try_ipc!` on the `IpcResult` of a manager call whose events are consumed. -/
def ipcReturn (call : Except Panic (Manager × IpcResult Unit)) :
    Except Panic (Manager × List TriggerEvent × Except SyscallErrorCode Unit) := do
  let (m, r) ← call
  pure (m, r.events, r.value.mapError Error.code)

/-- The `ipc_subscribe` handler, with the filter text and the flags already decoded. -/
def ipcSubscribe (m : Manager) (pid : ProcessId) (filter : List Char) (exact reliable pipe : Bool) :
    Manager × Except SyscallErrorCode SubscriptionId :=
  match TopicFilter.tryNew filter exact with
  | none => (m, .error Error.InvalidTopic.code)
  | some filter =>
    match m.subscribe pid filter reliable pipe with
    | (m, .ok sub) => (m, .ok sub)
    | (m, .error e) => (m, .error (Error.Subscription e).code)

/-- The `ipc_deliver` handler: a call made again after its wake-up finds the delivery
complete and returns its result; a first call delivers and waits for the
acknowledgement. -/
def ipcDeliver (incoming : Incoming) (m : Manager) (pid : ProcessId) (topic : List Char)
    (data : List UInt8) : Except Panic (Manager × List TriggerEvent × Returned Unit) :=
  if m.deliveryComplete pid then do
    let (m, r) ← m.afterDelivery pid
    pure (m, r.events, .value (r.value.mapError Error.code))
  else
    match Topic.new topic with
    | none => .ok (m, [], .value (.error Error.InvalidTopic.code))
    | some topic => do
      let (m, r) ← m.deliver incoming pid topic data
      pure (m, r.events,
        match r.value with
        | .ok (.Process event) => .repeatAfter event
        | .ok .Kernel => .value (.ok ())
        | .error e => .value (.error e.code))

/-- The `ipc_deliver_reply` handler. -/
def ipcDeliverReply (m : Manager) (pid : ProcessId) (topic : List Char) (data : List UInt8) :
    Except Panic (Manager × List TriggerEvent × Except SyscallErrorCode Unit) :=
  match Topic.new topic with
  | none => .ok (m, [], .error Error.InvalidTopic.code)
  | some topic => ipcReturn (m.deliverReply pid topic data)

/-- The `ipc_receive` handler on a buffer of `len` bytes; the message is handed
over whole, and one longer than the buffer panics. -/
def ipcReceive (length : Message → Nat) (m : Manager) (pid : ProcessId) (sub : SubscriptionId)
    (len : Nat) : Except Panic (Manager × List TriggerEvent × Returned Message) := do
  let (m, r) ← m.receive pid sub
  match r.value with
  | .error e => pure (m, r.events, .value (.error e.code))
  | .ok (.error event) => pure (m, r.events, .repeatAfter event)
  | .ok (.ok msg) =>
    if len < length msg then
      .error ("Buffer too small msg_len=" ++ toString (length msg) ++ " buf_len=" ++ toString len)
    else pure (m, r.events, .value (.ok msg))

/-- The `ipc_acknowledge` handler. -/
def ipcAcknowledge (m : Manager) (sub : SubscriptionId) (ackId : AcknowledgeId) (positive : Bool) :
    Except Panic (Manager × List TriggerEvent × Except SyscallErrorCode Unit) :=
  ipcReturn (m.acknowledge sub ackId positive)

/-- The `ipc_unsubscribe` handler. -/
def ipcUnsubscribe (m : Manager) (pid : ProcessId) (sub : SubscriptionId) :
    Except Panic (Manager × List TriggerEvent × Except SyscallErrorCode Unit) :=
  ipcReturn (m.unsubscribe pid sub)

/-! ## The two programs -/

/-- Where `request(topic, message)` stands in a client: before one of its system
calls, blocked in one, or returned. -/
inductive ClientPc (RS : Type)
  /-- `ReliableSubscription::exact(&reply_to)` -/
  | subscribe
  /-- `deliver(topic, &(reply_to, message))`, the first call or its repetition -/
  | deliver (sub : SubscriptionId)
  | waitDeliver (sub : SubscriptionId) (event : ExplicitEventId)
  /-- `subscription.receive()` -/
  | receive (sub : SubscriptionId)
  | waitReceive (sub : SubscriptionId) (event : ExplicitEventId)
  /-- `ack_ctx.ack()` of a reply that carries an acknowledge id -/
  | acknowledge (sub : SubscriptionId) (ackId : AcknowledgeId) (data : RS)
  /-- the drop of the reply subscription as `request` returns `result` -/
  | unsubscribe (sub : SubscriptionId) (result : Except SyscallErrorCode RS)
  | done (result : Except SyscallErrorCode RS)
  /-- a panic in the client: an undecodable reply or a failed unsubscribe -/
  | crashed

/-- Where the server stands: `Server::exact(topic)`, then `handle(f)` again and again. -/
inductive ServerPc (RS : Type)
  | subscribe
  /-- `self.sub.receive_topic()` -/
  | receive (sub : SubscriptionId)
  | waitReceive (sub : SubscriptionId) (event : ExplicitEventId)
  /-- `deliver_reply(&reply_to, &response)` -/
  | reply (sub : SubscriptionId) (ackId : Option AcknowledgeId) (replyTo : List Char) (response : RS)
  /-- `ack_ctx.ack()`, or the negative acknowledgement of the context's drop -/
  | acknowledge (sub : SubscriptionId) (ackId : Option AcknowledgeId) (positive : Bool)
  /-- `Server::exact(topic)` failed -/
  | failed
  /-- a panic in the server: an undecodable request or a failed negative acknowledgement -/
  | crashed

variable {ι RQ RS : Type} (P : Protocol ι RQ RS)

/-- One system call of `request(topic, message)` in client `i`: the manager after
it, the events it triggers and where the client stands next; `none` when the
client is blocked or has returned. -/
def requestStep (i : ι) (m : Manager) :
    ClientPc RS → Option (Except Panic (Manager × List TriggerEvent × ClientPc RS))
  | .subscribe =>
    some <| match ipcSubscribe m (P.clientPid i) (P.replyName i) true true false with
      | (m, .ok sub) => .ok (m, [], .deliver sub)
      | (m, .error e) => .ok (m, [], .done (.error e))
  | .deliver sub =>
    some <| (ipcDeliver P.incoming m (P.clientPid i) P.topic.name
        (P.request.encode (P.replyName i, P.message i))).map fun (m, events, r) =>
      (m, events,
        match r with
        | .repeatAfter event => .waitDeliver sub event
        | .value (.ok ()) => .receive sub
        | .value (.error e) => .unsubscribe sub (.error e))
  | .waitDeliver _ _ => none
  | .receive sub =>
    some <| (ipcReceive P.messageLength m (P.clientPid i) sub BUFFER_SIZE).map fun (m, events, r) =>
      (m, events,
        match r with
        | .repeatAfter event => .waitReceive sub event
        | .value (.error e) => .unsubscribe sub (.error e)
        | .value (.ok msg) =>
          -- `expect("Invalid message payload")`; a reply without acknowledge id needs no call
          match P.response.decode msg.data with
          | none => .crashed
          | some data =>
            match msg.ackId with
            | none => .unsubscribe sub (.ok data)
            | some ackId => .acknowledge sub ackId data)
  | .waitReceive _ _ => none
  | .acknowledge sub ackId data =>
    some <| (ipcAcknowledge m sub ackId true).map fun (m, events, r) =>
      (m, events, .unsubscribe sub (r.map fun () => data))
  | .unsubscribe sub result =>
    -- `ipc_unsubscribe(self.id).expect("Unsubscribe on drop failed")`
    some <| (ipcUnsubscribe m (P.clientPid i) sub).map fun (m, events, r) =>
      (m, events,
        match r with
        | .ok () => .done result
        | .error _ => .crashed)
  | .done _ => none
  | .crashed => none

/-- One system call of the server. -/
def handleStep (m : Manager) :
    ServerPc RS → Option (Except Panic (Manager × List TriggerEvent × ServerPc RS))
  | .subscribe =>
    some <| match ipcSubscribe m P.serverPid P.topic.name true true false with
      | (m, .ok sub) => .ok (m, [], .receive sub)
      | (m, .error _) => .ok (m, [], .failed)
  | .receive sub =>
    some <| (ipcReceive P.messageLength m P.serverPid sub BUFFER_SIZE).map fun (m, events, r) =>
      (m, events,
        match r with
        | .repeatAfter event => .waitReceive sub event
        -- `handle` returns the error, and the loop calls it again
        | .value (.error _) => .receive sub
        | .value (.ok msg) =>
          match P.request.decode msg.data with
          | none => .crashed
          | some (replyTo, message) =>
            -- `f(message)?` drops the acknowledge context, which acknowledges negatively
            match P.handler message with
            | .ok response => .reply sub msg.ackId replyTo response
            | .error _ => .acknowledge sub msg.ackId false)
  | .waitReceive _ _ => none
  | .reply sub ackId replyTo response =>
    some <| (ipcDeliverReply m P.serverPid replyTo (P.response.encode response)).map
      fun (m, events, r) =>
        (m, events,
          match r with
          | .ok () => .acknowledge sub ackId true
          | .error _ => .acknowledge sub ackId false)
  | .acknowledge sub ackId positive =>
    match ackId with
    | none => some (.ok (m, [], .receive sub))
    | some ackId =>
      -- the drop's negative acknowledgement is an `expect`
      some <| (ipcAcknowledge m sub ackId positive).map fun (m, events, r) =>
        (m, events,
          match r with
          | .ok () => .receive sub
          | .error _ => if positive then .receive sub else .crashed)
  | .failed => none
  | .crashed => none

/-! ## Worlds and runs -/

/-- The scheduler's side of `consume_events`: a client waiting for a triggered event
is woken to repeat its call. -/
def ClientPc.wake (events : List TriggerEvent) : ClientPc RS → ClientPc RS
  | .waitDeliver sub e => if ⟨e⟩ ∈ events then .deliver sub else .waitDeliver sub e
  | .waitReceive sub e => if ⟨e⟩ ∈ events then .receive sub else .waitReceive sub e
  | pc => pc

def ServerPc.wake (events : List TriggerEvent) : ServerPc RS → ServerPc RS
  | .waitReceive sub e => if ⟨e⟩ ∈ events then .receive sub else .waitReceive sub e
  | pc => pc

namespace RequestReply

/-- The IPC manager with the program counters of the clients and of the server. -/
structure World (ι RS : Type) where
  manager : Manager
  clients : ι → ClientPc RS
  server : ServerPc RS

/-- Every process at its start, on a fresh manager. -/
def World.init : World ι RS := ⟨Manager.new, fun _ => .subscribe, .subscribe⟩

variable [DecidableEq ι]

/-- One system call of one process, with the wake-ups of the events it triggers. -/
inductive Step : World ι RS → World ι RS → Prop
  | client {w : World ι RS} (i : ι) {m : Manager} {events : List TriggerEvent} {pc : ClientPc RS} :
      requestStep P i w.manager (w.clients i) = some (.ok (m, events, pc)) →
      Step w ⟨m, Function.update (fun j => (w.clients j).wake events) i pc, w.server.wake events⟩
  | server {w : World ι RS} {m : Manager} {events : List TriggerEvent} {pc : ServerPc RS} :
      handleStep P w.manager w.server = some (.ok (m, events, pc)) →
      Step w ⟨m, fun j => (w.clients j).wake events, pc⟩

/-- The worlds some interleaving of the processes reaches. -/
def Reachable (w : World ι RS) : Prop := Relation.ReflTransGen (Step P) World.init w

end RequestReply

end D7os.Ipc

import D7os.Ipc.Manager

/-!
# Kernel-hosted IPC services

`src/services/mod.rs` and `src/services/initrd.rs`. A service is registered with
`kernel_subscribe` on an exact reliable topic; messages delivered to it reach
`incoming`, which runs the service on the caller's behalf and turns its result
into the result of the delivery.

What the services read outside the manager is a parameter: the `pinecone`
decoder of the request, the encoder of the reply, and the initrd file table.
-/

namespace D7os.Ipc

/-- The parts of the kernel a service reads that are not the IPC manager. -/
structure ServiceEnv where
  /-- `pinecone::from_bytes::<(String, String)>` -/
  decodeRequest : List UInt8 → Option (List Char × List Char)
  /-- `pinecone::to_vec` of the reply bytes -/
  encodeReply : List UInt8 → List UInt8
  /-- `crate::initrd::read` -/
  initrdRead : List Char → Option (List UInt8)

/-- The registered service functions. -/
inductive Service
  /-- `services::initrd::read` -/
  | initrdRead
  deriving DecidableEq, Repr

namespace Services

/-- `initrd::read`: decode `(reply_to, path)`, then reply with the file. -/
def initrdRead (env : ServiceEnv) (m : Manager) (_pid : ProcessId) (message : Message) :
    Except Panic (Manager × Except DeliveryError Unit) :=
  match env.decodeRequest message.data with
  | none => .error "Invalid message: TODO: just reply client error"
  | some (replyTo, path) =>
    match Topic.new replyTo with
    | none => .ok (m, .error .NegativeAcknowledgement)
    | some replyTo =>
      match env.initrdRead path with
      | none => .ok (m, .error .NegativeAcknowledgement)
      | some data => m.kernelDeliverReply replyTo (env.encodeReply data)

/-- Calling a registered service. -/
def run : Service → ServiceEnv → Manager → ProcessId → Message →
    Except Panic (Manager × Except DeliveryError Unit)
  | .initrdRead => initrdRead

/-- `services::incoming`: the service of the subscription handles the message,
whose acknowledge id is taken first. -/
def incoming (env : ServiceEnv) (services : HashMap SubscriptionId Service) : Incoming :=
  fun m pid sub message =>
    match services.lookup sub with
    | none => .error "No such subscription for the kernel services"
    | some service =>
      match message.ackId with
      | none => .error "Incoming messages must be reliable"
      | some _ => do
        let (m, r) ← run service env m pid { message with ackId := none }
        pure (m, IpcResult.new (Except.mapError Error.Delivery r))

/-- `register`: a kernel subscription for the filter, bound to the service. -/
def register (m : Manager) (services : HashMap SubscriptionId Service) (filter : TopicFilter)
    (service : Service) : Except Panic (Manager × HashMap SubscriptionId Service) :=
  match m.kernelSubscribe filter with
  | (m, .ok sub) => .ok (m, services.insert sub service)
  | (_, .error _) => .error "Could not register a service"

/-- `init`: `register_exact("initrd/read", initrd::read)`. -/
def init (m : Manager) : Except Panic (Manager × HashMap SubscriptionId Service) :=
  match TopicFilter.tryNew "initrd/read".toList true with
  | none => .error "Invalid filter"
  | some filter => register m ∅ filter .initrdRead

end Services

end D7os.Ipc

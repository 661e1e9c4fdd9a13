import D7os.Ipc.Operations

/-!
# Reachable states of the IPC manager

The manager is driven by the system calls of every process and by the kernel
services, one call at a time under the `IPC` lock. `Step` is one such call that
returns (a call that panics stops the kernel, so it leads to no state). Next to
the manager a step carries the received list: `receive` adds the acknowledge id
of the reliable message it returns, and `acknowledge` is a step only for a
triple of that list, which it removes, the way a well-behaved caller uses it.

Every state reachable from `Manager::new` satisfies `Bookkeeping`; from it, the
`unwrap`s and `expect`s of `_force_unsubscribe`, `unsubscribe`, `publish` and
`acknowledge` never fail.
-/

namespace D7os.Ipc

open Manager

/-- One call into the manager that returns, with its effect on the received list. -/
inductive Step (env : ServiceEnv) (services : HashMap SubscriptionId Service) :
    Manager × Received → Manager × Received → Prop
  | subscribe {m : Manager} {g : Received} (pid : ProcessId) (filter : TopicFilter)
      (reliable pipe : Bool) :
      Step env services (m, g) ((m.subscribe pid filter reliable pipe).1, g)
  | kernelSubscribe {m : Manager} {g : Received} (filter : TopicFilter) :
      Step env services (m, g) ((m.kernelSubscribe filter).1, g)
  | unsubscribe {m m' : Manager} {g : Received} {pid : ProcessId} {sub : SubscriptionId}
      {r : IpcResult Unit} :
      m.unsubscribe pid sub = .ok (m', r) → Step env services (m, g) (m', g)
  | publish {m m' : Manager} {g : Received} {topic : Topic} {data : List UInt8}
      {r : IpcResult Unit} :
      m.publish topic data = .ok (m', r) → Step env services (m, g) (m', g)
  | deliver {m m' : Manager} {g : Received} {pid : ProcessId} {topic : Topic}
      {data : List UInt8} {r : IpcResult Deliver} :
      m.deliver (Services.incoming env services) pid topic data = .ok (m', r) →
      Step env services (m, g) (m', g)
  | deliverReply {m m' : Manager} {g : Received} {pid : ProcessId} {topic : Topic}
      {data : List UInt8} {r : IpcResult Unit} :
      m.deliverReply pid topic data = .ok (m', r) → Step env services (m, g) (m', g)
  | kernelDeliverReply {m m' : Manager} {g : Received} {topic : Topic} {payload : List UInt8}
      {r : Except DeliveryError Unit} :
      m.kernelDeliverReply topic payload = .ok (m', r) → Step env services (m, g) (m', g)
  | receive {m m' : Manager} {g : Received} {pid : ProcessId} {sub : SubscriptionId}
      {r : IpcResult (Except ExplicitEventId Message)} :
      m.receive pid sub = .ok (m', r) → Step env services (m, g) (m', g ++ receivedAck pid sub r)
  | acknowledge {m m' : Manager} {g : Received} {pid : ProcessId} {sub : SubscriptionId}
      {ackId : AcknowledgeId} {positive : Bool} {r : IpcResult Unit} :
      (pid, sub, ackId) ∈ g → m.acknowledge sub ackId positive = .ok (m', r) →
      Step env services (m, g) (m', g.erase (pid, sub, ackId))
  | waitingFor {m m' : Manager} {g : Received} {sub : SubscriptionId} {w : WaitFor} :
      m.waitingFor sub = .ok (m', w) → Step env services (m, g) (m', g)
  | afterDelivery {m m' : Manager} {g : Received} {pid : ProcessId} {r : IpcResult Unit} :
      m.afterDelivery pid = .ok (m', r) → Step env services (m, g) (m', g)
  | processOver {m m' : Manager} {g : Received} {pid : ProcessId} {events : List ExplicitEventId} :
      m.onProcessOver pid = .ok (m', events) → Step env services (m, g) (m', g)

/-- The states reachable from `Manager::new` with nothing received. -/
def Reachable (env : ServiceEnv) (services : HashMap SubscriptionId Service)
    (s : Manager × Received) : Prop :=
  Relation.ReflTransGen (Step env services) (Manager.new, []) s

theorem bookkeeping_new : Bookkeeping Manager.new [] where
  keys id := by simp [Manager.new, SubscriptionList.new]
  acks_waiting a ha := by simp [allAcks, queuedAcks, Manager.new] at ha
  acks_nodup := by simp [allAcks, queuedAcks, Manager.new]
  acks_fresh a ha := by simp [allAcks, queuedAcks, Manager.new] at ha
  owned pid subs hp := by simp [Manager.new] at hp
  owners_disjoint p q sp sq hp := by simp [Manager.new] at hp
  owned_nodup p sp hp := by simp [Manager.new] at hp
  ids_fresh f r id ht := by simp [Manager.new, SubscriptionList.new] at ht
  kernel_reliable f id ht := by simp [Manager.new, SubscriptionList.new] at ht
  list := .new

/-- Every step keeps the invariant: one case per operation, each closed by the
lemma of that operation. -/
theorem Step.bookkeeping {env : ServiceEnv} {services : HashMap SubscriptionId Service}
    {s s' : Manager × Received} (hs : Step env services s s') (h : Bookkeeping s.1 s.2) :
    Bookkeeping s'.1 s'.2 := by
  cases hs with
  | subscribe pid filter reliable pipe => exact subscribe_preserves h pid filter reliable pipe
  | kernelSubscribe filter => exact kernelSubscribe_preserves h filter
  | unsubscribe hu =>
    obtain ⟨m'', r'', he, h'⟩ := unsubscribe_ok h _ _
    rw [he] at hu
    cases hu
    exact h'
  | publish hp => exact (publish_spec h _ _).2 _ _ hp
  | deliver hd => exact deliver_preserves (Services.incoming_keeps env services) h hd
  | deliverReply hd => exact deliverReply_preserves h hd
  | kernelDeliverReply hd => exact kernelDeliverReply_preserves h hd
  | receive hr => exact receive_preserves h hr
  | acknowledge hx ha =>
    obtain ⟨m'', r'', he, h'⟩ := acknowledge_ok h hx _ _
    rw [he] at ha
    cases ha
    exact h'
  | waitingFor hw => exact waitingFor_preserves h hw
  | afterDelivery ha => exact afterDelivery_preserves h ha
  | processOver ho =>
    obtain ⟨m'', evs, he, h'⟩ := onProcessOver_ok h _
    rw [he] at ho
    cases ho
    exact h'

theorem Reachable.bookkeeping {env : ServiceEnv} {services : HashMap SubscriptionId Service}
    {s : Manager × Received} (hr : Reachable env services s) : Bookkeeping s.1 s.2 := by
  induction hr with
  | refl => exact bookkeeping_new
  | tail _ hstep ih => exact hstep.bookkeeping ih

/-- **Reliable-delivery bookkeeping.** In every reachable state: (a) the mailbox
keys are the subscription ids of the list; (b) every acknowledge id queued in a
mailbox waits for delivery, and none is queued twice; (c) every subscription a
process owns has a process mailbox. Hence `unsubscribe` and `on_process_over`
(and the `_force_unsubscribe` calls they make) never panic, `publish` can panic
only at the pipe assertion of `push_unreliable`, and acknowledging a received,
unacknowledged message never panics. -/
theorem reliable_delivery_bookkeeping {env : ServiceEnv}
    {services : HashMap SubscriptionId Service} {m : Manager} {g : Received}
    (hr : Reachable env services (m, g)) :
    (∀ id, id ∈ m.mailboxes ↔ ∃ f r, (f, r, id) ∈ m.subscriptions.targets) ∧
    (∀ sub mb, m.mailboxes.lookup sub = some (some mb) →
      ∀ msg ∈ mb.queue.queue, ∀ a, msg.ackId = some a → a ∈ m.waitingForDelivery) ∧
    (queuedAcks m.mailboxes).Nodup ∧
    (∀ pid subs, m.processSubscriptions.lookup pid = some subs →
      ∀ id ∈ subs, ∃ mb, m.mailboxes.lookup id = some (some mb)) ∧
    (∀ pid sub p, m.unsubscribe pid sub ≠ .error p) ∧
    (∀ pid p, m.onProcessOver pid ≠ .error p) ∧
    (∀ topic data p, m.publish topic data = .error p → p = pipePublishAssert) ∧
    (∀ x ∈ g, ∀ sub positive p, m.acknowledge sub x.2.2 positive ≠ .error p) := by
  have h : Bookkeeping m g := hr.bookkeeping
  refine ⟨h.keys, ?_, (List.nodup_append.mp h.acks_nodup).1, h.owned, ?_, ?_,
    fun topic data => (publish_spec h topic data).1, ?_⟩
  · intro sub mb hl msg hmsg a ha
    exact (h.mailbox_acks hl).2 a (List.mem_filterMap.mpr ⟨msg, hmsg, ha⟩)
  · intro pid sub p hp
    obtain ⟨m', r, he, -⟩ := unsubscribe_ok h pid sub
    rw [he] at hp
    cases hp
  · intro pid p hp
    obtain ⟨m', evs, he, -⟩ := onProcessOver_ok h pid
    rw [he] at hp
    cases hp
  · intro x hx sub positive p hp
    obtain ⟨m', r, he, -⟩ := acknowledge_ok h hx sub positive
    rw [he] at hp
    cases hp

/-- The state after one process subscribes reliably to the exact topic `a`. -/
theorem reliable_delivery_bookkeeping_after_subscribe :
    let env : ServiceEnv := ⟨fun _ => none, id, fun _ => none⟩
    let m := (Manager.new.subscribe ProcessId.first (.Exact ⟨['a'], by decide⟩) true false).1
    Reachable env ∅ (m, []) ∧
    ((∀ id, id ∈ m.mailboxes ↔ ∃ f r, (f, r, id) ∈ m.subscriptions.targets) ∧
    (∀ sub mb, m.mailboxes.lookup sub = some (some mb) →
      ∀ msg ∈ mb.queue.queue, ∀ a, msg.ackId = some a → a ∈ m.waitingForDelivery) ∧
    (queuedAcks m.mailboxes).Nodup ∧
    (∀ pid subs, m.processSubscriptions.lookup pid = some subs →
      ∀ id ∈ subs, ∃ mb, m.mailboxes.lookup id = some (some mb)) ∧
    (∀ pid sub p, m.unsubscribe pid sub ≠ .error p) ∧
    (∀ pid p, m.onProcessOver pid ≠ .error p) ∧
    (∀ topic data p, m.publish topic data = .error p → p = pipePublishAssert) ∧
    (∀ x ∈ ([] : Received), ∀ sub positive p, m.acknowledge sub x.2.2 positive ≠ .error p)) :=
  have hr := Relation.ReflTransGen.single (Step.subscribe (g := []) ProcessId.first
    (.Exact ⟨['a'], by decide⟩) true false)
  ⟨hr, reliable_delivery_bookkeeping hr⟩

end D7os.Ipc

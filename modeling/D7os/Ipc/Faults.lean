import D7os.Ipc.Reachable

/-!
# Where the IPC manager trusts its callers

The manager takes subscription and acknowledge ids straight from system call
registers. Some of its checks are `expect`s: an id that is not waiting for
delivery, or a subscription that does not exist, stops the kernel instead of
returning an error. `acknowledge` reads neither its subscription argument nor the
caller, and no path of `receive` returns `PipeSenderTerminated`.

The second part follows one reliable message whose receiver terminates after
`receive` and before `acknowledge`: its acknowledge id is in no queue, so the
cleanup of `on_process_over` does not release it, and the sender's entry in
`waiting_for_delivery` stays with no delivery result.
-/

namespace D7os.Ipc

open Manager

variable {m m' : Manager}

theorem acknowledge_of_not_waiting {ackId : AcknowledgeId} (ha : ackId ∉ m.waitingForDelivery)
    (sub : SubscriptionId) (positive : Bool) :
    m.acknowledge sub ackId positive = .error "Attempt to re-acknowledge a message" := by
  simp [acknowledge, AList.lookup_eq_none.mpr ha]

/-- Whenever `acknowledge` returns, it reports success. -/
theorem acknowledge_value {sub : SubscriptionId} {ackId : AcknowledgeId} {positive : Bool}
    {r : IpcResult Unit} (ha : m.acknowledge sub ackId positive = .ok (m', r)) :
    r.value = .ok () := by
  cases hl : m.waitingForDelivery.lookup ackId with
  | none => simp [acknowledge, hl] at ha
  | some v =>
    obtain ⟨event, pid⟩ := v
    simp [acknowledge, hl] at ha
    obtain ⟨-, rfl⟩ := ha
    rfl

theorem waitingFor_of_not_mem {sub : SubscriptionId} (hs : sub ∉ m.mailboxes) :
    m.waitingFor sub = .error "Attempt to check_available from an unsubscribed topic" := by
  simp [waitingFor, AList.lookup_eq_none.mpr hs]

/-- The errors `receive` returns are a permission error and `Unsubscribed`; an
empty queue always yields the event to wait for, whatever the pipe mode. -/
theorem receive_value {pid : ProcessId} {sub : SubscriptionId}
    {r : IpcResult (Except ExplicitEventId Message)} (hr : m.receive pid sub = .ok (m', r)) :
    r.value ≠ .error .PipeSenderTerminated := by
  cases hv : m.verifyProcessOwns pid sub with
  | error e =>
    simp [receive, hv] at hr
    obtain ⟨-, rfl⟩ := hr
    simp [IpcResult.error]
  | ok u =>
    cases hl : m.mailboxes.lookup sub with
    | none =>
      simp [receive, hv, hl] at hr
      obtain ⟨-, rfl⟩ := hr
      simp [IpcResult.error]
    | some v =>
      cases v with
      | none => simp [receive, hv, hl] at hr
      | some mb =>
        rcases hpe : mb.queue.popOrEvent m.nextEvent with ⟨res, q', n'⟩
        simp [receive, hv, hl, hpe] at hr
        obtain ⟨-, rfl⟩ := hr
        simp [IpcResult.success]

/-- **Client input the manager does not turn into errors.** For every state: an
acknowledge id that is not waiting for delivery panics `acknowledge`; every
returning `acknowledge` reports success, so no permission error can come from
it; an id without mailbox panics `waiting_for`; and `receive` never returns
`PipeSenderTerminated`. -/
theorem client_input_faults :
    (∀ (m : Manager) (sub : SubscriptionId) (ackId : AcknowledgeId) (positive : Bool),
      ackId ∉ m.waitingForDelivery →
      m.acknowledge sub ackId positive = .error "Attempt to re-acknowledge a message") ∧
    (∀ (m m' : Manager) (sub : SubscriptionId) (ackId : AcknowledgeId) (positive : Bool)
      (r : IpcResult Unit), m.acknowledge sub ackId positive = .ok (m', r) → r.value = .ok ()) ∧
    (∀ (m : Manager) (sub : SubscriptionId), sub ∉ m.mailboxes →
      m.waitingFor sub = .error "Attempt to check_available from an unsubscribed topic") ∧
    (∀ (m m' : Manager) (pid : ProcessId) (sub : SubscriptionId)
      (r : IpcResult (Except ExplicitEventId Message)),
      m.receive pid sub = .ok (m', r) → r.value ≠ .error .PipeSenderTerminated) :=
  ⟨fun _ sub _ positive ha => acknowledge_of_not_waiting ha sub positive,
    fun _ _ _ _ _ _ ha => acknowledge_value ha,
    fun _ _ hs => waitingFor_of_not_mem hs,
    fun _ _ _ _ _ hr => receive_value hr⟩

/-- The first acknowledgement a fresh kernel sees, with any ids, panics. -/
theorem client_input_faults_at_new :
    (⟨0⟩ : AcknowledgeId) ∉ Manager.new.waitingForDelivery ∧
    Manager.new.acknowledge ⟨0⟩ ⟨0⟩ true = .error "Attempt to re-acknowledge a message" :=
  have ha : (⟨0⟩ : AcknowledgeId) ∉ Manager.new.waitingForDelivery := by
    simp [Manager.new]
  ⟨ha, client_input_faults.1 _ _ _ _ ha⟩

/-! ## A receiver that terminates before acknowledging -/

/-- The topic of the scenario. -/
def scenarioTopic : Topic := ⟨['t'], by decide⟩

/-- **A stranded reliable delivery.** Process 2 subscribes reliably to `t`,
process 1 delivers to it and blocks on wake-up event 0, process 2 receives the
message (acknowledge id 0) and terminates. `on_process_over` returns no event to
trigger; the entry of acknowledge id 0 still waits for delivery with sender 1,
the id is in no queue, no subscription or process is left to acknowledge it, and
there is no delivery result for process 1: nothing wakes the sender again. -/
theorem receiver_exit_strands_sender (incoming : Incoming) :
    (do
      let m := (Manager.new.subscribe ⟨2⟩ (.Exact scenarioTopic) true false).1
      let (m, sent) ← m.deliver incoming ⟨1⟩ scenarioTopic []
      let (m, got) ← m.receive ⟨2⟩ ⟨0⟩
      let (m, events) ← m.onProcessOver ⟨2⟩
      pure (sent.value, (got.value.toOption.bind Except.toOption).map Message.ackId, events,
        m.waitingForDelivery.lookup ⟨0⟩, queuedAcks m.mailboxes, m.subscriptions.targets.length,
        m.processSubscriptions.lookup ⟨2⟩, m.deliveryResult.lookup ⟨1⟩)) =
    (.ok (.ok (.Process ⟨0⟩), some (some ⟨0⟩), [], some (⟨0⟩, ⟨1⟩), [], 0, none, none) :
      Except Panic (Except Error Deliver × Option (Option AcknowledgeId) × List ExplicitEventId ×
        Option (ExplicitEventId × ProcessId) × List AcknowledgeId × Nat ×
        Option (List SubscriptionId) × Option (Except DeliveryError Unit))) := by
  rfl

end D7os.Ipc

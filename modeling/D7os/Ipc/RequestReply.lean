import D7os.Ipc.Request

/-!
# Each reply reaches its own requester, once

Over every interleaving of the clients' `request` calls and the server's `handle`
loop, the manager holds for each client what its program counter says. A client
blocked in `deliver` waits for one acknowledge id, whose request is queued in the
server's mailbox or being handled; the server's mailbox holds only requests of
blocked clients, and its wake-up event is set exactly while the server waits; a
client's reply mailbox is empty until the server has delivered the reply to its
own request, and holds that one reply until it is taken; a delivery result is
recorded only for a client woken to repeat its `deliver`; and the events
processes wait for are distinct.

`Inv` collects these facts and every step keeps it (one lemma per system call),
so it holds in every reachable world.
-/

namespace D7os.Ipc

variable {ι RQ RS : Type}

/-! ## What a program counter holds -/

/-- The reply subscription a client holds. -/
def ClientPc.subscription : ClientPc RS → Option SubscriptionId
  | .deliver s | .waitDeliver s _ | .receive s | .waitReceive s _ | .acknowledge s _ _
  | .unsubscribe s _ => some s
  | .subscribe | .done _ | .crashed => none

/-- The subscription the server holds. -/
def ServerPc.subscription : ServerPc RS → Option SubscriptionId
  | .receive s | .waitReceive s _ | .reply s _ _ _ | .acknowledge s _ _ => some s
  | .subscribe | .failed | .crashed => none

/-- The acknowledge id of the request the server is handling. -/
def ServerPc.handling : ServerPc RS → Option AcknowledgeId
  | .reply _ a _ _ | .acknowledge _ a _ => a
  | _ => none

@[simp] theorem ClientPc.subscription_wake (events : List TriggerEvent) (pc : ClientPc RS) :
    (pc.wake events).subscription = pc.subscription := by
  cases pc <;> simp only [ClientPc.wake] <;> split_ifs <;> rfl

@[simp] theorem ServerPc.subscription_wake (events : List TriggerEvent) (pc : ServerPc RS) :
    (pc.wake events).subscription = pc.subscription := by
  cases pc <;> simp only [ServerPc.wake]
  split_ifs <;> rfl

@[simp] theorem ServerPc.handling_wake (events : List TriggerEvent) (pc : ServerPc RS) :
    (pc.wake events).handling = pc.handling := by
  cases pc <;> simp only [ServerPc.wake]
  split_ifs <;> rfl

@[simp] theorem ClientPc.wake_nil (pc : ClientPc RS) : pc.wake [] = pc := by
  cases pc <;> simp [ClientPc.wake]

@[simp] theorem ServerPc.wake_nil (pc : ServerPc RS) : pc.wake [] = pc := by
  cases pc <;> simp [ServerPc.wake]

theorem ServerPc.wake_eq_or (events : List TriggerEvent) (pc : ServerPc RS) :
    pc.wake events = pc ∨ ∃ s e, pc = .waitReceive s e := by
  cases pc with
  | waitReceive s e => exact .inr ⟨s, e, rfl⟩
  | _ => exact .inl rfl

/-- A woken client waits only if it waited before, for an event not triggered. -/
theorem ClientPc.wake_eq_waitDeliver {events : List TriggerEvent} {pc : ClientPc RS}
    {s : SubscriptionId} {e : ExplicitEventId} :
    pc.wake events = .waitDeliver s e ↔ pc = .waitDeliver s e ∧ ⟨e⟩ ∉ events := by
  cases pc with
  | waitDeliver s' e' =>
    by_cases h : (⟨e'⟩ : TriggerEvent) ∈ events
    · simp only [ClientPc.wake, if_pos h, reduceCtorEq, false_iff, not_and, ClientPc.waitDeliver.injEq]
      rintro ⟨rfl, rfl⟩
      exact not_not.mpr h
    · simp only [ClientPc.wake, if_neg h, ClientPc.waitDeliver.injEq, iff_self_and, and_imp]
      rintro rfl rfl
      exact h
  | waitReceive s' e' => simp only [ClientPc.wake]; split_ifs <;> simp
  | _ => simp [ClientPc.wake]

theorem ServerPc.wake_eq_waitReceive {events : List TriggerEvent} {pc : ServerPc RS}
    {s : SubscriptionId} {e : ExplicitEventId} :
    pc.wake events = .waitReceive s e ↔ pc = .waitReceive s e ∧ ⟨e⟩ ∉ events := by
  cases pc with
  | waitReceive s' e' =>
    by_cases h : (⟨e'⟩ : TriggerEvent) ∈ events
    · simp only [ServerPc.wake, if_pos h, reduceCtorEq, false_iff, not_and, ServerPc.waitReceive.injEq]
      rintro ⟨rfl, rfl⟩
      exact not_not.mpr h
    · simp only [ServerPc.wake, if_neg h, ServerPc.waitReceive.injEq, iff_self_and, and_imp]
      rintro rfl rfl
      exact h
  | _ => simp [ServerPc.wake]

/-- The process mailbox of a subscription. -/
def box (mailboxes : HashMap SubscriptionId (Option Mailbox)) (s : SubscriptionId) :
    Option Mailbox :=
  (mailboxes.lookup s).join

@[simp] theorem box_insert_self (mailboxes : HashMap SubscriptionId (Option Mailbox))
    (s : SubscriptionId) (v : Option Mailbox) : box (mailboxes.insert s v) s = v := by
  simp [box]

@[simp] theorem box_insert_ne {mailboxes : HashMap SubscriptionId (Option Mailbox)}
    {s s' : SubscriptionId} (v : Option Mailbox) (h : s' ≠ s) :
    box (mailboxes.insert s v) s' = box mailboxes s' := by
  simp [box, AList.lookup_insert_ne h]

@[simp] theorem box_erase_ne {mailboxes : HashMap SubscriptionId (Option Mailbox)}
    {s s' : SubscriptionId} (h : s' ≠ s) : box (mailboxes.erase s) s' = box mailboxes s' := by
  simp [box, AList.lookup_erase_ne h]

theorem lookup_of_box {mailboxes : HashMap SubscriptionId (Option Mailbox)} {s : SubscriptionId}
    {mb : Mailbox} (h : box mailboxes s = some mb) : mailboxes.lookup s = some (some mb) := by
  unfold box at h
  cases hl : mailboxes.lookup s with
  | none => simp [hl] at h
  | some v => simp_all

/-- The messages queued for the reply subscription a client holds. -/
def repliesAt (m : Manager) (pc : ClientPc RS) : List Message :=
  match pc.subscription with
  | some s => ((box m.mailboxes s).map (·.queue.queue)).getD []
  | none => []

@[simp] theorem repliesAt_wake (m : Manager) (events : List TriggerEvent) (pc : ClientPc RS) :
    repliesAt m (pc.wake events) = repliesAt m pc := by
  simp [repliesAt]

namespace Protocol

variable (P : Protocol ι RQ RS)

/-- The message `deliver` queues for client `i`'s request. -/
def requestMessage (i : ι) (a : AcknowledgeId) : Message :=
  ⟨P.topic.name, P.request.encode (P.replyName i, P.message i), some a⟩

/-- The reply `deliver_reply` queues for client `i`. -/
def replyMessage (i : ι) (r : RS) : Message :=
  ⟨P.replyName i, P.response.encode r, none⟩

/-- What the system needs of its parameters: distinct processes, and a server
topic that is no client's reply topic. -/
structure Wf (P : Protocol ι RQ RS) : Prop where
  pid_injective : Function.Injective P.clientPid
  server_pid : ∀ i, P.clientPid i ≠ P.serverPid
  topic : ∀ i, P.topic.name ≠ P.replyName i

end Protocol

/-- A client that has taken its reply: `request` is returning it. -/
def ClientPc.tookReply : ClientPc RS → Bool
  | .unsubscribe _ (.ok _) | .done (.ok _) => true
  | _ => false

/-! ## The manager calls of the protocol -/

section Calls

variable {m m' : Manager}

/-- A reliable exact subscription through `ipc_subscribe`: refused with nothing
changed, or stored under the next id with an empty mailbox that `pid` owns. -/
theorem ipcSubscribe_cases {pid : ProcessId} {name : List Char}
    {r : Except SyscallErrorCode SubscriptionId}
    (h : ipcSubscribe m pid name true true false = (m', r)) :
    (m' = m ∧ ∃ e, r = .error e) ∨
    ∃ t targets, Topic.new name = some t ∧ r = .ok m.subscriptions.nextSubscriptionId ∧
      targets.Perm ((.Exact t, true, m.subscriptions.nextSubscriptionId) :: m.subscriptions.targets) ∧
      m.subscriptions.insert (.Exact t) true =
        (⟨targets, m.subscriptions.nextSubscriptionId.next⟩, some m.subscriptions.nextSubscriptionId) ∧
      m' = { m with
        subscriptions := ⟨targets, m.subscriptions.nextSubscriptionId.next⟩
        mailboxes := m.mailboxes.insert m.subscriptions.nextSubscriptionId (some (Mailbox.new .None))
        processSubscriptions := m.processSubscriptions.insert pid
          (((m.processSubscriptions.lookup pid).getD []).insert m.subscriptions.nextSubscriptionId) } := by
  unfold ipcSubscribe TopicFilter.tryNew at h
  cases ht : Topic.new name with
  | none =>
    simp only [ht, if_true, Option.map_none] at h
    exact .inl ⟨(Prod.mk.inj h).1.symm, _, (Prod.mk.inj h).2.symm⟩
  | some t =>
    simp only [ht, if_true, Option.map_some] at h
    cases hc : m.subscriptions.conflicts (.Exact t) true with
    | true =>
      simp only [Manager.subscribe, SubscriptionList.insert_of_conflicts hc] at h
      exact .inl ⟨(Prod.mk.inj h).1.symm, _, (Prod.mk.inj h).2.symm⟩
    | false =>
      obtain ⟨targets, hins, hperm⟩ := SubscriptionList.insert_of_not_conflicts hc
      simp only [Manager.subscribe, hins, Bool.false_eq_true, if_false, Prod.mk.injEq] at h
      obtain ⟨rfl, rfl⟩ := h
      exact .inr ⟨t, targets, rfl, rfl, hperm, hins, rfl⟩

theorem name_of_topic_new {name : List Char} {t : Topic} (h : Topic.new name = some t) :
    t.name = name := by
  unfold Topic.new at h
  split at h
  · cases h
    rfl
  · cases h

theorem topic_new_name (t : Topic) : Topic.new t.name = some t := by
  simp [Topic.new, t.valid]

theorem deliver_of_nil {incoming : Incoming} {pid : ProcessId} {topic : Topic} {data : List UInt8}
    (hall : m.subscriptions.findAll topic true = []) :
    m.deliver incoming pid topic data = .ok (m, .error (.Delivery .NoSubscriber)) := by
  simp [Manager.deliver, hall]

/-- `deliver` to a topic whose one reliable subscriber has a mailbox that is no
pipe: the full queue refuses the request, or it is queued under the next
acknowledge id and the sender waits for a new event. -/
theorem deliver_of_box {incoming : Incoming} {pid : ProcessId} {topic : Topic}
    {data : List UInt8} {s : SubscriptionId} {mb : Mailbox}
    (hall : m.subscriptions.findAll topic true = [s]) (hb : box m.mailboxes s = some mb)
    (hp : mb.pipeMode = .None) :
    m.deliver incoming pid topic data =
      if mb.queue.limit ≤ mb.queue.queue.length then
        .ok ({ m with
            nextAcknowledgeId := m.nextAcknowledgeId.next
            mailboxes := m.mailboxes.insert s (some mb) }, .error (.Delivery .QueueFull))
      else
        .ok ({ m with
            nextAcknowledgeId := m.nextAcknowledgeId.next
            mailboxes := m.mailboxes.insert s (some { mb with queue := { mb.queue with
              queue := mb.queue.queue ++ [⟨topic.name, data, some m.nextAcknowledgeId⟩]
              event := none } })
            nextEvent := m.nextEvent + 1
            waitingForDelivery :=
              m.waitingForDelivery.insert m.nextAcknowledgeId (⟨m.nextEvent⟩, pid) },
          (IpcResult.success (.Process ⟨m.nextEvent⟩)).withEvents
            (mb.queue.event.map TriggerEvent.mk).toList) := by
  have hl := lookup_of_box hb
  obtain ⟨q, pm⟩ := mb
  obtain rfl : pm = .None := hp
  split_ifs with hfull
  · simp [Manager.deliver, hall, hl, Manager.connectPipe, Mailbox.pushReliable, EventQueue.push, hfull,
      bind, Except.bind, pure, Except.pure]
  · simp [Manager.deliver, hall, hl, Manager.connectPipe, Mailbox.pushReliable, EventQueue.push, hfull,
      bind, Except.bind, pure, Except.pure, newEventId]

/-- In an exclusive list, a reliable triple matching a topic makes its id the one
reliable subscriber. -/
theorem findAll_eq_singleton {l : SubscriptionList} (hl : l.Exclusive) {topic : Topic}
    {f : TopicFilter} {id : SubscriptionId} (hmem : (f, true, id) ∈ l.targets)
    (hm : f.matches topic = true) : l.findAll topic true = [id] := by
  have huniq := SubscriptionList.unique_of_reliable hl hmem hm
  apply SubscriptionList.eq_singleton_of_nodup (List.nodup_dedup _)
    (SubscriptionList.mem_findAll.mpr ⟨f, hmem, hm⟩)
  intro b hb
  obtain ⟨g, hgmem, hgm⟩ := SubscriptionList.mem_findAll.mp hb
  have he := huniq _ hgmem hgm
  simp only [Prod.mk.injEq] at he
  exact he.2.2

end Calls

namespace RequestReply

variable (P : Protocol ι RQ RS)

/-- The request with acknowledge id `a` is queued for the server, or being handled. -/
def Pending (w : World ι RS) (a : AcknowledgeId) : Prop :=
  (∃ s mb, w.server.subscription = some s ∧ box w.manager.mailboxes s = some mb ∧
    some a ∈ mb.queue.queue.map (·.ackId)) ∨ w.server.handling = some a

/-- The request the server handles comes from a client blocked in `deliver`, and
the reply it delivers is the answer to that client's message. -/
def Handling (w : World ι RS) : Prop :=
  match w.server with
  | .reply _ (some a) replyTo r =>
    ∃ i e, w.manager.waitingForDelivery.lookup a = some (e, P.clientPid i) ∧
      replyTo = P.replyName i ∧ P.handler (P.message i) = .ok r ∧
      repliesAt w.manager (w.clients i) = []
  | .acknowledge _ (some a) positive =>
    ∃ i e, w.manager.waitingForDelivery.lookup a = some (e, P.clientPid i) ∧
      if positive then
        ∃ r, P.handler (P.message i) = .ok r ∧
          repliesAt w.manager (w.clients i) = [P.replyMessage i r]
      else repliesAt w.manager (w.clients i) = []
  | .reply _ none _ _ | .acknowledge _ none _ | .crashed => False
  | _ => True

/-- What a client's program counter says of its reply mailbox and its result. -/
def Stage (w : World ι RS) (i : ι) : Prop :=
  match w.clients i with
  | .subscribe => True
  | .deliver _ => w.manager.deliveryResult.lookup (P.clientPid i) = none →
    repliesAt w.manager (w.clients i) = []
  | .waitDeliver _ e => repliesAt w.manager (w.clients i) ≠ [] →
    ∃ s a, w.server = .acknowledge s (some a) true ∧
      w.manager.waitingForDelivery.lookup a = some (e, P.clientPid i)
  | .receive _ => ∃ r, P.handler (P.message i) = .ok r ∧
    repliesAt w.manager (w.clients i) = [P.replyMessage i r]
  | .unsubscribe _ res => repliesAt w.manager (w.clients i) = [] ∧
    ∀ r, res = .ok r → P.handler (P.message i) = .ok r
  | .done res => ∀ r, res = .ok r → P.handler (P.message i) = .ok r
  | .waitReceive _ _ | .acknowledge _ _ _ | .crashed => False

/-- The invariant of every reachable world. -/
structure Inv (w : World ι RS) : Prop where
  list : w.manager.subscriptions.Reachable
  /-- the subscriptions are the server's to the topic and each client's to its reply topic -/
  targets : ∀ x, x ∈ w.manager.subscriptions.targets ↔
    (∃ s, w.server.subscription = some s ∧ x = (.Exact P.topic, true, s)) ∨
    ∃ i s t, (w.clients i).subscription = some s ∧ t.name = P.replyName i ∧
      x = (.Exact t, true, s)
  server_fresh : ∀ s, w.server.subscription = some s →
    s.val < w.manager.subscriptions.nextSubscriptionId.val
  client_fresh : ∀ i s, (w.clients i).subscription = some s →
    s.val < w.manager.subscriptions.nextSubscriptionId.val
  client_apart : ∀ i j s, (w.clients i).subscription = some s →
    (w.clients j).subscription = some s → i = j
  server_apart : ∀ i s, (w.clients i).subscription = some s → w.server.subscription ≠ some s
  server_owns : (w.manager.processSubscriptions.lookup P.serverPid).getD [] =
    w.server.subscription.toList
  client_owns : ∀ i, (w.manager.processSubscriptions.lookup (P.clientPid i)).getD [] =
    (w.clients i).subscription.toList
  /-- the server's mailbox holds the requests of blocked clients -/
  server_box : ∀ s, w.server.subscription = some s → ∃ mb, box w.manager.mailboxes s = some mb ∧
    mb.pipeMode = .None ∧
    (∀ msg ∈ mb.queue.queue, ∃ i a t e, msg = P.requestMessage i a ∧
      w.clients i = .waitDeliver t e ∧
      w.manager.waitingForDelivery.lookup a = some (e, P.clientPid i)) ∧
    (w.server.handling :: mb.queue.queue.map (·.ackId)).Nodup ∧
    (∀ e, mb.queue.event = some e ↔ w.server = .waitReceive s e) ∧
    (∀ e, w.server = .waitReceive s e → mb.queue.queue = [])
  client_box : ∀ i s, (w.clients i).subscription = some s →
    ∃ mb, box w.manager.mailboxes s = some mb ∧ mb.pipeMode = .None ∧ mb.queue.event = none
  /-- each waiting acknowledgement belongs to one blocked client -/
  waiting : ∀ a e p, w.manager.waitingForDelivery.lookup a = some (e, p) →
    a.val < w.manager.nextAcknowledgeId.val ∧ Pending w a ∧
      ∃ i t, p = P.clientPid i ∧ w.clients i = .waitDeliver t e
  waiting_unique : ∀ a a' e e' i, w.manager.waitingForDelivery.lookup a = some (e, P.clientPid i) →
    w.manager.waitingForDelivery.lookup a' = some (e', P.clientPid i) → a = a'
  delivering : ∀ i t e, w.clients i = .waitDeliver t e →
    ∃ a, w.manager.waitingForDelivery.lookup a = some (e, P.clientPid i)
  handling : Handling P w
  /-- a delivery result waits for its client's repeated `deliver` -/
  results : ∀ i res, w.manager.deliveryResult.lookup (P.clientPid i) = some res →
    ∃ t, w.clients i = .deliver t ∧
      (res = .ok () → ∃ r, P.handler (P.message i) = .ok r ∧
        repliesAt w.manager (w.clients i) = [P.replyMessage i r]) ∧
      (res ≠ .ok () → repliesAt w.manager (w.clients i) = [])
  stage : ∀ i, Stage P w i
  /-- the events processes wait for are fresh and distinct -/
  client_event : ∀ i t e, w.clients i = .waitDeliver t e → e.val < w.manager.nextEvent
  server_event : ∀ s e, w.server = .waitReceive s e → e.val < w.manager.nextEvent
  event_unique : ∀ i j t t' e, w.clients i = .waitDeliver t e → w.clients j = .waitDeliver t' e →
    i = j
  event_apart : ∀ i t s e, w.clients i = .waitDeliver t e → w.server ≠ .waitReceive s e

theorem inv_init : Inv P (World.init : World ι RS) where
  list := .new
  targets x := by simp [World.init, Manager.new, SubscriptionList.new, ClientPc.subscription,
    ServerPc.subscription]
  server_fresh s h := by simp [World.init, ServerPc.subscription] at h
  client_fresh i s h := by simp [World.init, ClientPc.subscription] at h
  client_apart i j s h := by simp [World.init, ClientPc.subscription] at h
  server_apart i s h := by simp [World.init, ClientPc.subscription] at h
  server_owns := by simp [World.init, Manager.new, ServerPc.subscription]
  client_owns i := by simp [World.init, Manager.new, ClientPc.subscription]
  server_box s h := by simp [World.init, ServerPc.subscription] at h
  client_box i s h := by simp [World.init, ClientPc.subscription] at h
  waiting a e p h := by simp [World.init, Manager.new] at h
  waiting_unique a a' e e' i h := by simp [World.init, Manager.new] at h
  delivering i t e h := by simp [World.init] at h
  handling := trivial
  results i res h := by simp [World.init, Manager.new] at h
  stage i := trivial
  client_event i t e h := by simp [World.init] at h
  server_event s e h := by simp [World.init] at h
  event_unique i j t t' e h := by simp [World.init] at h
  event_apart i t s e h := by simp [World.init] at h

/-- The manager `m'` keeps all that the invariant reads of `m`, except client
`i`'s delivery result, which is gone, and its counters have not gone back. -/
structure Frame (i : ι) (m m' : Manager) : Prop where
  subscriptions : m'.subscriptions = m.subscriptions
  owners : m'.processSubscriptions = m.processSubscriptions
  boxes : ∀ s, box m'.mailboxes s = box m.mailboxes s
  waiting : m'.waitingForDelivery = m.waitingForDelivery
  results : ∀ j, j ≠ i →
    m'.deliveryResult.lookup (P.clientPid j) = m.deliveryResult.lookup (P.clientPid j)
  result_self : m'.deliveryResult.lookup (P.clientPid i) = none
  ack_le : m.nextAcknowledgeId.val ≤ m'.nextAcknowledgeId.val
  event_le : m.nextEvent ≤ m'.nextEvent

/-! ## What each step keeps -/

section Steps

variable {P} {w : World ι RS}

theorem repliesAt_of_subscription {m : Manager} {pc pc' : ClientPc RS}
    (h : pc'.subscription = pc.subscription) : repliesAt m pc' = repliesAt m pc := by
  simp [repliesAt, h]

theorem Frame.of_no_result {i : ι} {m : Manager}
    (h : m.deliveryResult.lookup (P.clientPid i) = none) : Frame P i m m :=
  ⟨rfl, rfl, fun _ => rfl, rfl, fun _ _ => rfl, h, le_rfl, le_rfl⟩

theorem Frame.repliesAt {i : ι} {m m' : Manager} (hf : Frame P i m m') (pc : ClientPc RS) :
    repliesAt m' pc = repliesAt m pc := by
  simp [D7os.Ipc.repliesAt, hf.boxes]

/-- What client `j`'s stage says survives a step that keeps its program counter,
its replies, its delivery result and the acknowledgement the server handles, and
keeps the server or finds it elsewhere than at a positive acknowledgement. -/
theorem Stage.frame {w w' : World ι RS} {j : ι} (hs : Stage P w j) (hc : w'.clients j = w.clients j)
    (hsrv : w'.server = w.server ∨ ∀ s a, w.server ≠ .acknowledge s (some a) true)
    (hr : repliesAt w'.manager (w.clients j) = repliesAt w.manager (w.clients j))
    (hres : w'.manager.deliveryResult.lookup (P.clientPid j) =
      w.manager.deliveryResult.lookup (P.clientPid j))
    (hwait : ∀ a, w.server.handling = some a →
      w'.manager.waitingForDelivery.lookup a = w.manager.waitingForDelivery.lookup a) :
    Stage P w' j := by
  unfold Stage at hs ⊢
  rw [hc, hr, hres]
  cases hcj : w.clients j with
  | waitDeliver t e =>
    rw [hcj] at hs
    intro hne
    obtain ⟨s, a, has, ha⟩ := hs hne
    rcases hsrv with hsrv | hsrv
    · exact ⟨s, a, hsrv.trans has, by rw [hwait a (by rw [has]; rfl), ha]⟩
    · exact absurd has (hsrv s a)
  | _ =>
    rw [hcj] at hs
    exact hs

/-- What the server's handling says survives a step that at most wakes the server
and keeps the handled acknowledgement and the handled client's replies. -/
theorem Handling.frame {w w' : World ι RS} {events : List TriggerEvent} (hh : Handling P w)
    (hsrv : w'.server = w.server.wake events)
    (hwait : ∀ a, w.server.handling = some a →
      w'.manager.waitingForDelivery.lookup a = w.manager.waitingForDelivery.lookup a)
    (hrep : ∀ a e j, w.server.handling = some a →
      w.manager.waitingForDelivery.lookup a = some (e, P.clientPid j) →
      repliesAt w'.manager (w'.clients j) = repliesAt w.manager (w.clients j)) :
    Handling P w' := by
  unfold Handling at hh ⊢
  rw [hsrv]
  rcases ServerPc.wake_eq_or events w.server with hw | ⟨s, e, hw⟩
  · rw [hw]
    split
    · rename_i s a replyTo r heq
      simp only [heq] at hh
      obtain ⟨j, e, ha, hr, hf, hrp⟩ := hh
      have hsa : w.server.handling = some a := by rw [heq]; rfl
      exact ⟨j, e, by rw [hwait a hsa, ha], hr, hf, by rw [hrep a e j hsa ha, hrp]⟩
    · rename_i s a positive heq
      simp only [heq] at hh
      obtain ⟨j, e, ha, hp⟩ := hh
      have hsa : w.server.handling = some a := by rw [heq]; rfl
      exact ⟨j, e, by rw [hwait a hsa, ha], by rw [hrep a e j hsa ha]; exact hp⟩
    -- the handling of no acknowledgement, and a crash, were never reached
    all_goals first
      | trivial
      | (rename_i heq; simp only [heq] at hh)
  · rw [hw]
    simp only [ServerPc.wake]
    split_ifs <;> trivial

/-- A client no event of `events` is meant for is left as it is. -/
theorem Inv.wake_client (h : Inv P w) {events : List TriggerEvent} {j : ι}
    (hev : ∀ t e, w.clients j = .waitDeliver t e → ⟨e⟩ ∉ events) :
    (w.clients j).wake events = w.clients j := by
  have hs := h.stage j
  unfold Stage at hs
  cases hc : w.clients j with
  | waitDeliver t e => simp only [ClientPc.wake, if_neg (hev t e hc)]
  | waitReceive t e =>
    rw [hc] at hs
    exact hs.elim
  | _ => rfl

/-- A delivery result is recorded only for a client at `deliver`. -/
theorem Inv.result_none (h : Inv P w) {i : ι} (hi : ∀ t, w.clients i ≠ .deliver t) :
    w.manager.deliveryResult.lookup (P.clientPid i) = none := by
  cases hr : w.manager.deliveryResult.lookup (P.clientPid i) with
  | none => rfl
  | some res =>
    obtain ⟨t, ht, -⟩ := h.results i res hr
    exact absurd ht (hi t)

/-- The reliable subscribers of the server's topic: the server, once subscribed. -/
theorem Inv.findAll_topic (hP : P.Wf) (h : Inv P w) :
    w.manager.subscriptions.findAll P.topic true = w.server.subscription.toList := by
  cases hs : w.server.subscription with
  | some s =>
    exact findAll_eq_singleton (SubscriptionList.reachable_exclusive h.list)
      ((h.targets _).mpr (.inl ⟨s, hs, rfl⟩)) (TopicFilter.matches_self _)
  | none =>
    refine List.eq_nil_iff_forall_not_mem.mpr fun b hb => ?_
    obtain ⟨f, hmem, hm⟩ := SubscriptionList.mem_findAll.mp hb
    rcases (h.targets _).mp hmem with ⟨s, hs', -⟩ | ⟨j, s, t, -, ht, he⟩
    · rw [hs] at hs'
      cases hs'
    · simp only [Prod.mk.injEq] at he
      obtain ⟨rfl, -, -⟩ := he
      rw [matches_exact_iff] at hm
      exact hP.topic j (by rw [← hm]; exact ht)

/-- The reliable subscriber of client `i`'s reply topic is its reply subscription. -/
theorem Inv.findAll_reply (h : Inv P w) {i : ι} {s : SubscriptionId} {t : Topic}
    (hs : (w.clients i).subscription = some s) (ht : t.name = P.replyName i) :
    w.manager.subscriptions.findAll t true = [s] :=
  findAll_eq_singleton (SubscriptionList.reachable_exclusive h.list)
    ((h.targets _).mpr (.inr ⟨i, s, t, hs, ht, rfl⟩)) (TopicFilter.matches_self _)

/-- Every acknowledge id in the server's mailbox or in its hands is waited for,
so it is below the next one. -/
theorem Inv.server_ack_lt (h : Inv P w) {a : AcknowledgeId}
    (ha : ∃ e p, w.manager.waitingForDelivery.lookup a = some (e, p)) :
    a.val < w.manager.nextAcknowledgeId.val := by
  obtain ⟨e, p, ha⟩ := ha
  exact (h.waiting a e p ha).1

theorem Inv.handling_waiting (h : Inv P w) {a : AcknowledgeId} (ha : w.server.handling = some a) :
    ∃ e p, w.manager.waitingForDelivery.lookup a = some (e, p) := by
  have hh := h.handling
  unfold Handling at hh
  cases hs : w.server with
  | reply s a' replyTo r =>
    rw [hs] at ha hh
    simp only [ServerPc.handling] at ha
    subst ha
    obtain ⟨j, e, hl, -⟩ := hh
    exact ⟨e, _, hl⟩
  | acknowledge s a' positive =>
    rw [hs] at ha hh
    simp only [ServerPc.handling] at ha
    subst ha
    obtain ⟨j, e, hl, -⟩ := hh
    exact ⟨e, _, hl⟩
  | _ =>
    rw [hs] at ha
    cases ha

/-- No process holds the subscription id the list hands out next. -/
theorem Inv.client_sub_ne_next (h : Inv P w) {j : ι} {s : SubscriptionId}
    (hs : (w.clients j).subscription = some s) : s ≠ w.manager.subscriptions.nextSubscriptionId :=
  fun he => absurd (he ▸ h.client_fresh j s hs) (Nat.lt_irrefl _)

theorem Inv.server_sub_ne_next (h : Inv P w) {s : SubscriptionId}
    (hs : w.server.subscription = some s) : s ≠ w.manager.subscriptions.nextSubscriptionId :=
  fun he => absurd (he ▸ h.server_fresh s hs) (Nat.lt_irrefl _)

/-- A client's reply subscription is not the server's. -/
theorem Inv.client_sub_ne_server (h : Inv P w) {j : ι} {t s : SubscriptionId}
    (ht : (w.clients j).subscription = some t) (hs : w.server.subscription = some s) : t ≠ s :=
  fun he => h.server_apart j t ht (by rw [he]; exact hs)

/-- A waiting acknowledge id is not the one handed out next. -/
theorem Inv.waiting_ne_next (h : Inv P w) {a : AcknowledgeId} {e : ExplicitEventId} {p : ProcessId}
    (ha : w.manager.waitingForDelivery.lookup a = some (e, p)) : a ≠ w.manager.nextAcknowledgeId := by
  intro he
  have hlt := h.server_ack_lt ⟨e, p, ha⟩
  rw [he] at hlt
  exact Nat.lt_irrefl _ hlt

/-- A client not blocked in `deliver` has no acknowledgement waiting for it. -/
theorem Inv.not_waiting (hP : P.Wf) (h : Inv P w) {i : ι} (hi : ∀ t e, w.clients i ≠ .waitDeliver t e)
    (a : AcknowledgeId) (e : ExplicitEventId) :
    w.manager.waitingForDelivery.lookup a ≠ some (e, P.clientPid i) := by
  intro ha
  obtain ⟨-, -, j, t, hj, hjt⟩ := h.waiting a e _ ha
  rw [← hP.pid_injective hj] at hjt
  exact hi t e hjt

variable [DecidableEq ι]

/-- Client `i` moves to `pc` over a manager that frames the old one: every other
process sees the same subscriptions, mailboxes and acknowledgements. -/
theorem Inv.replace_client (h : Inv P w) {i : ι} {m : Manager} {pc : ClientPc RS}
    (hf : Frame P i w.manager m) (hsub : pc.subscription = (w.clients i).subscription)
    (hnw : ∀ t e, w.clients i ≠ .waitDeliver t e) (hnw' : ∀ t e, pc ≠ .waitDeliver t e)
    (hstage : Stage P ⟨m, Function.update w.clients i pc, w.server⟩ i) :
    Inv P ⟨m, Function.update w.clients i pc, w.server⟩ := by
  have hsubs : ∀ j, (Function.update w.clients i pc j).subscription = (w.clients j).subscription := by
    intro j
    rcases eq_or_ne j i with rfl | hj
    · rw [Function.update_self, hsub]
    · rw [Function.update_of_ne hj]
  have hwd : ∀ j t e, Function.update w.clients i pc j = .waitDeliver t e ↔
      w.clients j = .waitDeliver t e := by
    intro j t e
    rcases eq_or_ne j i with rfl | hj
    · rw [Function.update_self]
      exact ⟨fun he => absurd he (hnw' t e), fun he => absurd he (hnw t e)⟩
    · rw [Function.update_of_ne hj]
  have hrep : ∀ j, repliesAt m (Function.update w.clients i pc j) =
      repliesAt w.manager (w.clients j) := fun j => by
    rw [hf.repliesAt, repliesAt_of_subscription (hsubs j)]
  have hhandling : Handling P ⟨m, Function.update w.clients i pc, w.server⟩ := by
    have hh := h.handling
    unfold Handling at hh ⊢
    simp only [hrep, hf.waiting]
    exact hh
  refine ⟨by rw [hf.subscriptions]; exact h.list, ?_, ?_, ?_, ?_, ?_, ?_, ?_, ?_, ?_, ?_, ?_, ?_,
    hhandling, ?_, ?_, ?_, ?_, ?_, ?_⟩
  · simpa only [hsubs, hf.subscriptions] using h.targets
  · simpa only [hf.subscriptions] using h.server_fresh
  · simpa only [hsubs, hf.subscriptions] using h.client_fresh
  · simpa only [hsubs] using h.client_apart
  · simpa only [hsubs] using h.server_apart
  · simpa only [hf.owners] using h.server_owns
  · simpa only [hsubs, hf.owners] using h.client_owns
  · simpa only [hwd, hf.boxes, hf.waiting] using h.server_box
  · simpa only [hsubs, hf.boxes] using h.client_box
  · intro a e p ha
    rw [hf.waiting] at ha
    obtain ⟨hlt, hpend, hcl⟩ := h.waiting a e p ha
    refine ⟨Nat.lt_of_lt_of_le hlt hf.ack_le, ?_, by simpa only [hwd] using hcl⟩
    simpa only [Pending, hf.boxes] using hpend
  · simpa only [hf.waiting] using h.waiting_unique
  · simpa only [hwd, hf.waiting] using h.delivering
  · intro j res hr
    rcases eq_or_ne j i with rfl | hj
    · rw [hf.result_self] at hr
      cases hr
    · rw [hf.results j hj] at hr
      dsimp only
      rw [Function.update_of_ne hj, hf.repliesAt]
      exact h.results j res hr
  · intro j
    rcases eq_or_ne j i with rfl | hj
    · exact hstage
    · exact (h.stage j).frame (Function.update_of_ne hj _ _) (.inl rfl) (hf.repliesAt _)
        (hf.results j hj) (fun a _ => by rw [hf.waiting])
  · intro j t e hj
    exact Nat.lt_of_lt_of_le (h.client_event j t e ((hwd j t e).mp hj)) hf.event_le
  · intro s e hs
    exact Nat.lt_of_lt_of_le (h.server_event s e hs) hf.event_le
  · simpa only [hwd] using h.event_unique
  · simpa only [hwd] using h.event_apart

/-- Client `i` subscribes to its reply topic, under the next id. -/
theorem Inv.subscribed (hP : P.Wf) (h : Inv P w) {i : ι} (hpc : w.clients i = .subscribe)
    {t : Topic} (ht : t.name = P.replyName i) {targets : List Target}
    (hperm : targets.Perm
      ((.Exact t, true, w.manager.subscriptions.nextSubscriptionId) :: w.manager.subscriptions.targets))
    (hins : w.manager.subscriptions.insert (.Exact t) true =
      (⟨targets, w.manager.subscriptions.nextSubscriptionId.next⟩,
        some w.manager.subscriptions.nextSubscriptionId)) :
    Inv P ⟨{ w.manager with
        subscriptions := ⟨targets, w.manager.subscriptions.nextSubscriptionId.next⟩
        mailboxes := w.manager.mailboxes.insert w.manager.subscriptions.nextSubscriptionId
          (some (Mailbox.new .None))
        processSubscriptions := w.manager.processSubscriptions.insert (P.clientPid i)
          (((w.manager.processSubscriptions.lookup (P.clientPid i)).getD []).insert
            w.manager.subscriptions.nextSubscriptionId) },
      Function.update w.clients i (.deliver w.manager.subscriptions.nextSubscriptionId), w.server⟩ := by
  set n := w.manager.subscriptions.nextSubscriptionId with hn
  -- every subscription held so far is below the new id
  have hold : ∀ j s, (w.clients j).subscription = some s → s ≠ n := fun _ _ hs => h.client_sub_ne_next hs
  have hsrv : ∀ s, w.server.subscription = some s → s ≠ n := fun _ hs => h.server_sub_ne_next hs
  have hnone : (w.clients i).subscription = none := by rw [hpc]; rfl
  have hne : ∀ j s, (w.clients j).subscription = some s → j ≠ i := by
    rintro j s hs rfl
    rw [hnone] at hs
    cases hs
  have hsubs : ∀ j, (Function.update w.clients i (.deliver n) j).subscription =
      if j = i then some n else (w.clients j).subscription := by
    intro j
    rcases eq_or_ne j i with rfl | hj
    · simp [ClientPc.subscription]
    · simp [hj]
  have hwd : ∀ j t e, Function.update w.clients i (.deliver n) j = .waitDeliver t e ↔
      w.clients j = .waitDeliver t e := by
    intro j t e
    rcases eq_or_ne j i with rfl | hj
    · simp [hpc]
    · rw [Function.update_of_ne hj]
  have hrep : ∀ j, j ≠ i → repliesAt { w.manager with
      subscriptions := ⟨targets, n.next⟩
      mailboxes := w.manager.mailboxes.insert n (some (Mailbox.new .None))
      processSubscriptions := w.manager.processSubscriptions.insert (P.clientPid i)
        (((w.manager.processSubscriptions.lookup (P.clientPid i)).getD []).insert n) } (w.clients j) =
      repliesAt w.manager (w.clients j) := by
    intro j _
    unfold repliesAt
    cases hs : (w.clients j).subscription with
    | none => rfl
    | some s => simp [box_insert_ne _ (hold j s hs)]
  have hlt : ∀ s : SubscriptionId, s.val < n.val → s.val < n.next.val := fun s hs => by
    simp only [SubscriptionId.next]
    omega
  refine ⟨?_, ?_, fun s hs => hlt s (h.server_fresh s hs), ?_, ?_, ?_, ?_, ?_, ?_, ?_, ?_,
    h.waiting_unique, ?_, ?_, ?_, ?_, ?_, h.server_event, ?_, ?_⟩
  · have hl := h.list.insert (.Exact t) true
    rw [hins] at hl
    exact hl
  · intro x
    simp only [hsubs]
    rw [hperm.mem_iff, List.mem_cons]
    constructor
    · rintro (rfl | hx)
      · exact .inr ⟨i, n, t, by simp, ht, rfl⟩
      · rcases (h.targets x).mp hx with hs | ⟨j, s, t', hj, ht', rfl⟩
        · exact .inl hs
        · exact .inr ⟨j, s, t', by simp [hne j s hj, hj], ht', rfl⟩
    · rintro (⟨s, hs, rfl⟩ | ⟨j, s, t', hj, ht', rfl⟩)
      · exact .inr ((h.targets _).mpr (.inl ⟨s, hs, rfl⟩))
      · by_cases hji : j = i
        · subst hji
          simp only [if_true, Option.some.injEq] at hj
          subst hj
          exact .inl (by rw [Topic.ext_name (ht'.trans ht.symm)])
        · simp only [hji, if_false] at hj
          exact .inr ((h.targets _).mpr (.inr ⟨j, s, t', hj, ht', rfl⟩))
  · intro j s hs
    simp only [hsubs] at hs
    split_ifs at hs
    · cases hs
      exact Nat.lt_succ_self _
    · exact hlt s (h.client_fresh j s hs)
  · intro j k s hj hk
    simp only [hsubs] at hj hk
    split_ifs at hj hk with hji hki hki
    · rw [hji, hki]
    · exact absurd (Option.some.inj hj).symm (hold k s hk)
    · exact absurd (Option.some.inj hk).symm (hold j s hj)
    · exact h.client_apart j k s hj hk
  · intro j s hs
    simp only [hsubs] at hs
    split_ifs at hs
    · cases hs
      exact fun he => hsrv n he rfl
    · exact h.server_apart j s hs
  · simp only [AList.lookup_insert_ne (hP.server_pid i).symm]
    exact h.server_owns
  · intro j
    simp only [hsubs]
    split_ifs with hji
    · subst hji
      rw [AList.lookup_insert, h.client_owns, hnone]
      rfl
    · rw [AList.lookup_insert_ne (fun he => hji (hP.pid_injective he))]
      exact h.client_owns j
  · intro s hs
    obtain ⟨mb, hb, hp, hq, hnd, hev, hwt⟩ := h.server_box s hs
    refine ⟨mb, by rw [box_insert_ne _ (hsrv s hs)]; exact hb, hp, ?_, hnd, hev, hwt⟩
    simpa only [hwd] using hq
  · intro j s hs
    simp only [hsubs] at hs
    split_ifs at hs with hji
    · cases hs
      exact ⟨_, box_insert_self _ _ _, rfl, rfl⟩
    · obtain ⟨mb, hb, hmb⟩ := h.client_box j s hs
      exact ⟨mb, by rw [box_insert_ne _ (hold j s hs)]; exact hb, hmb⟩
  · intro a e p ha
    obtain ⟨hlt', hpend, hcl⟩ := h.waiting a e p ha
    refine ⟨hlt', ?_, by simpa only [hwd] using hcl⟩
    rcases hpend with ⟨s, mb, hs, hb, hmem⟩ | hh
    · exact .inl ⟨s, mb, hs, by rw [box_insert_ne _ (hsrv s hs)]; exact hb, hmem⟩
    · exact .inr hh
  · simpa only [hwd] using h.delivering
  · -- the request being handled belongs to a blocked client, which is not `i`
    have hh := h.handling
    have hwi : ∀ a e j, w.manager.waitingForDelivery.lookup a = some (e, P.clientPid j) → j ≠ i := by
      rintro a e j ha rfl
      exact h.not_waiting hP (fun t e he => by rw [hpc] at he; cases he) a e ha
    unfold Handling at hh ⊢
    dsimp only
    split at hh
    · obtain ⟨j, e, ha, hr, hf, hrp⟩ := hh
      have hji := hwi _ _ _ ha
      exact ⟨j, e, ha, hr, hf, by rw [Function.update_of_ne hji, hrep j hji]; exact hrp⟩
    · obtain ⟨j, e, ha, hrp⟩ := hh
      have hji := hwi _ _ _ ha
      refine ⟨j, e, ha, ?_⟩
      rw [Function.update_of_ne hji, hrep j hji]
      exact hrp
    all_goals exact hh
  · intro j res hr
    obtain ⟨t', hj, hok, herr⟩ := h.results j res hr
    have hji : j ≠ i := by
      rintro rfl
      rw [hpc] at hj
      cases hj
    dsimp only
    rw [Function.update_of_ne hji, hrep j hji]
    exact ⟨t', hj, hok, herr⟩
  · intro j
    rcases eq_or_ne j i with rfl | hji
    · unfold Stage
      simp only [Function.update_self]
      intro _
      simp [repliesAt, ClientPc.subscription, Mailbox.new, EventQueue.new]
    · have hs := h.stage j
      unfold Stage at hs ⊢
      dsimp only
      rw [Function.update_of_ne hji, hrep j hji]
      exact hs
  · simpa only [hwd] using h.client_event
  · simpa only [hwd] using h.event_unique
  · simpa only [hwd] using h.event_apart

/-- Client `i`'s request is queued for the server under the next acknowledge id,
and the client blocks on a fresh event; the server is woken if it waited. -/
theorem Inv.requested (hP : P.Wf) (h : Inv P w) {i : ι} {s s' : SubscriptionId} {mb : Mailbox}
    {events : List TriggerEvent} (hpc : w.clients i = .deliver s)
    (hres : w.manager.deliveryResult.lookup (P.clientPid i) = none)
    (hs' : w.server.subscription = some s') (hb : box w.manager.mailboxes s' = some mb)
    (hev : ∀ e, (⟨e⟩ : TriggerEvent) ∈ events ↔ mb.queue.event = some e) :
    Inv P ⟨{ w.manager with
        nextAcknowledgeId := w.manager.nextAcknowledgeId.next
        mailboxes := w.manager.mailboxes.insert s' (some { mb with queue := { mb.queue with
          queue := mb.queue.queue ++ [P.requestMessage i w.manager.nextAcknowledgeId]
          event := none } })
        nextEvent := w.manager.nextEvent + 1
        waitingForDelivery := w.manager.waitingForDelivery.insert w.manager.nextAcknowledgeId
          (⟨w.manager.nextEvent⟩, P.clientPid i) },
      Function.update (fun j => (w.clients j).wake events) i (.waitDeliver s ⟨w.manager.nextEvent⟩),
      w.server.wake events⟩ := by
  obtain ⟨mb₀, hb₀, hpipe, hmsgs, hnd, hevent, -⟩ := h.server_box s' hs'
  obtain rfl : mb₀ = mb := Option.some.inj (hb₀.symm.trans hb)
  set m' : Manager := { w.manager with
    nextAcknowledgeId := w.manager.nextAcknowledgeId.next
    mailboxes := w.manager.mailboxes.insert s' (some { mb₀ with queue := { mb₀.queue with
      queue := mb₀.queue.queue ++ [P.requestMessage i w.manager.nextAcknowledgeId]
      event := none } })
    nextEvent := w.manager.nextEvent + 1
    waitingForDelivery := w.manager.waitingForDelivery.insert w.manager.nextAcknowledgeId
      (⟨w.manager.nextEvent⟩, P.clientPid i) } with hm'
  set c := Function.update (fun j => (w.clients j).wake events) i
    (.waitDeliver s ⟨w.manager.nextEvent⟩) with hc
  -- no client waits for the server's event, so only the server can be woken
  have hcl : ∀ j, j ≠ i → c j = w.clients j := fun j hj => by
    rw [hc, Function.update_of_ne hj]
    exact h.wake_client fun t e hj he => h.event_apart j t s' e hj ((hevent e).mp ((hev e).mp he))
  have hci : c i = .waitDeliver s ⟨w.manager.nextEvent⟩ := Function.update_self ..
  have hsubs : ∀ j, (c j).subscription = (w.clients j).subscription := by
    intro j
    rcases eq_or_ne j i with rfl | hj
    · rw [hci, hpc]
      rfl
    · rw [hcl j hj]
  have hnotwr : ∀ t e, w.server.wake events ≠ .waitReceive t e := by
    intro t e hw
    obtain ⟨hw, hne⟩ := ServerPc.wake_eq_waitReceive.mp hw
    obtain rfl : t = s' := by
      rw [hw] at hs'
      exact Option.some.inj hs'
    exact hne ((hev e).mpr ((hevent e).mpr hw))
  -- client `i` waits for nothing yet, and the new acknowledge id is none of the waiting ones
  have hnoi : ∀ a e, w.manager.waitingForDelivery.lookup a ≠ some (e, P.clientPid i) :=
    h.not_waiting hP fun t e he => by rw [hpc] at he; cases he
  have hwait : ∀ a, a ≠ w.manager.nextAcknowledgeId →
      m'.waitingForDelivery.lookup a = w.manager.waitingForDelivery.lookup a :=
    fun a ha => AList.lookup_insert_ne ha
  have hrep : ∀ j, repliesAt m' (w.clients j) = repliesAt w.manager (w.clients j) := by
    intro j
    unfold repliesAt
    cases ht : (w.clients j).subscription with
    | none => rfl
    | some t => simp [m', box_insert_ne _ (h.client_sub_ne_server ht hs')]
  have hwa : m'.waitingForDelivery.lookup w.manager.nextAcknowledgeId =
      some (⟨w.manager.nextEvent⟩, P.clientPid i) := AList.lookup_insert _
  have hjne : ∀ j t e, w.clients j = .waitDeliver t e → j ≠ i := by
    rintro j t e hj rfl
    rw [hpc] at hj
    cases hj
  refine ⟨h.list, ?_, ?_, ?_, ?_, ?_, ?_, ?_, ?_, ?_, ?_, ?_, ?_, ?_, ?_, ?_, ?_, ?_, ?_, ?_⟩
  · simpa only [hsubs, ServerPc.subscription_wake] using h.targets
  · simpa only [ServerPc.subscription_wake] using h.server_fresh
  · simpa only [hsubs] using h.client_fresh
  · simpa only [hsubs] using h.client_apart
  · simpa only [hsubs, ServerPc.subscription_wake] using h.server_apart
  · simpa only [ServerPc.subscription_wake] using h.server_owns
  · simpa only [hsubs] using h.client_owns
  · intro t ht
    rw [ServerPc.subscription_wake, hs'] at ht
    obtain rfl := Option.some.inj ht
    refine ⟨_, box_insert_self _ _ _, hpipe, ?_, ?_, fun e => ?_, fun e hw => absurd hw (hnotwr s' e)⟩
    · intro msg hmsg
      rw [List.mem_append, List.mem_singleton] at hmsg
      rcases hmsg with hmsg | rfl
      · obtain ⟨j, a, t, e, rfl, hj, ha⟩ := hmsgs msg hmsg
        refine ⟨j, a, t, e, rfl, (hcl j (hjne j t e hj)).trans hj, ?_⟩
        rw [hwait a (h.waiting_ne_next ha)]
        exact ha
      · exact ⟨i, _, s, _, rfl, hci, AList.lookup_insert _⟩
    · -- the new acknowledge id is neither handled nor queued yet
      have hnew : some w.manager.nextAcknowledgeId ∉
          w.server.handling :: mb₀.queue.queue.map (·.ackId) := by
        intro hmem
        rcases List.mem_cons.mp hmem with he | he
        · obtain ⟨e, p, ha⟩ := h.handling_waiting he.symm
          exact h.waiting_ne_next ha rfl
        · obtain ⟨msg, hmsg, hma⟩ := List.mem_map.mp he
          obtain ⟨j, a, t, e, rfl, -, ha⟩ := hmsgs msg hmsg
          obtain rfl : a = w.manager.nextAcknowledgeId := Option.some.inj hma
          exact h.waiting_ne_next ha rfl
      rw [ServerPc.handling_wake, List.map_append, List.map_singleton, ← List.cons_append,
        ← List.concat_eq_append]
      exact hnd.concat hnew
    · exact ⟨fun he => absurd he (by simp), fun hw => absurd hw (hnotwr s' e)⟩
  · intro j t ht
    rw [hsubs] at ht
    obtain ⟨mbj, hbj, hj⟩ := h.client_box j t ht
    refine ⟨mbj, ?_, hj⟩
    rw [box_insert_ne _ (h.client_sub_ne_server ht hs')]
    exact hbj
  · intro a e p ha
    rcases eq_or_ne a w.manager.nextAcknowledgeId with rfl | hae
    · obtain ⟨rfl, rfl⟩ := Prod.mk.inj (Option.some.inj (hwa.symm.trans ha))
      refine ⟨Nat.lt_succ_self _, .inl ⟨s', _, by rw [ServerPc.subscription_wake, hs'],
        box_insert_self _ _ _, by simp [Protocol.requestMessage]⟩, i, s, rfl, hci⟩
    · rw [hwait a hae] at ha
      obtain ⟨hlt, hpend, j, t, rfl, hj⟩ := h.waiting a e _ ha
      refine ⟨Nat.lt_succ_of_lt hlt, ?_, j, t, rfl, (hcl j (hjne j t e hj)).trans hj⟩
      rcases hpend with ⟨t', mb', ht', hb', hmem⟩ | hh
      · obtain rfl := Option.some.inj (ht'.symm.trans hs')
        obtain rfl := Option.some.inj (hb'.symm.trans hb₀)
        exact .inl ⟨t', _, by rw [ServerPc.subscription_wake, hs'], box_insert_self _ _ _,
          by simp [hmem]⟩
      · exact .inr (by rw [ServerPc.handling_wake]; exact hh)
  · -- one acknowledgement per client: client `i` had none before this one
    intro a a' e e' j ha ha'
    have hcases : ∀ b f, m'.waitingForDelivery.lookup b = some (f, P.clientPid j) →
        (b = w.manager.nextAcknowledgeId ∧ j = i) ∨
          (b ≠ w.manager.nextAcknowledgeId ∧
            w.manager.waitingForDelivery.lookup b = some (f, P.clientPid j)) := by
      intro b f hb
      rcases eq_or_ne b w.manager.nextAcknowledgeId with rfl | hbe
      · have hp := (Prod.mk.inj (Option.some.inj (hwa.symm.trans hb))).2
        exact .inl ⟨rfl, hP.pid_injective hp.symm⟩
      · exact .inr ⟨hbe, by rw [← hwait b hbe]; exact hb⟩
    rcases hcases a e ha with ⟨rfl, rfl⟩ | ⟨-, ho⟩ <;>
      rcases hcases a' e' ha' with ⟨rfl, hji⟩ | ⟨-, ho'⟩
    · rfl
    · exact absurd ho' (hnoi a' e')
    · subst hji
      exact absurd ho (hnoi a e)
    · exact h.waiting_unique a a' e e' j ho ho'
  · intro j t e hj
    dsimp only at hj
    rcases eq_or_ne j i with rfl | hji
    · rw [hci] at hj
      cases hj
      exact ⟨_, AList.lookup_insert _⟩
    · rw [hcl j hji] at hj
      obtain ⟨a, ha⟩ := h.delivering j t e hj
      exact ⟨a, by rw [hwait a (h.waiting_ne_next ha)]; exact ha⟩
  · refine h.handling.frame rfl (fun a ha => ?_) (fun a e j _ ha => ?_)
    · obtain ⟨e, p, hl⟩ := h.handling_waiting ha
      exact hwait a (h.waiting_ne_next hl)
    · have hji : j ≠ i := fun he => hnoi a e (he ▸ ha)
      dsimp only
      rw [hcl j hji, hrep j]
  · intro j res hr
    obtain ⟨t, hj, hok, herr⟩ := h.results j res hr
    have hji : j ≠ i := by
      rintro rfl
      rw [hres] at hr
      cases hr
    dsimp only
    rw [hcl j hji, hrep j]
    exact ⟨t, hj, hok, herr⟩
  · intro j
    rcases eq_or_ne j i with rfl | hji
    · -- client `i` blocks with no reply queued: its stage at `deliver` said so
      have hs := h.stage j
      unfold Stage at hs ⊢
      rw [hpc] at hs
      have hnil := hs hres
      dsimp only
      rw [hci]
      intro hne
      refine absurd ?_ hne
      calc repliesAt m' (.waitDeliver s ⟨w.manager.nextEvent⟩) = repliesAt m' (w.clients j) :=
            repliesAt_of_subscription (by rw [hpc]; rfl)
        _ = repliesAt w.manager (w.clients j) := hrep j
        _ = [] := by rw [hpc]; exact hnil
    · refine (h.stage j).frame (hcl j hji) ?_ (hrep j) rfl (fun a ha => ?_)
      · rcases ServerPc.wake_eq_or events w.server with hw | ⟨t, e, hw⟩
        · exact .inl hw
        · exact .inr fun t' a' he => by rw [hw] at he; cases he
      · obtain ⟨e, p, hl⟩ := h.handling_waiting ha
        exact hwait a (h.waiting_ne_next hl)
  · intro j t e hj
    dsimp only at hj
    rcases eq_or_ne j i with rfl | hji
    · rw [hci] at hj
      cases hj
      exact Nat.lt_succ_self _
    · rw [hcl j hji] at hj
      exact Nat.lt_succ_of_lt (h.client_event j t e hj)
  · intro t e hw
    exact absurd hw (hnotwr t e)
  · intro j k t t' e hj hk
    dsimp only at hj hk
    have hold : ∀ j t, c j = .waitDeliver t e → j ≠ i → w.clients j = .waitDeliver t e :=
      fun j t hj hji => by rw [← hcl j hji]; exact hj
    rcases eq_or_ne j i with rfl | hji <;> rcases eq_or_ne k j with rfl | hkj
    · rfl
    · -- client `i`'s event is fresh, so no other client waits for it
      rw [hci] at hj
      cases hj
      exact absurd (h.client_event k t' _ (hold k t' hk hkj)) (Nat.lt_irrefl _)
    · rfl
    · rcases eq_or_ne k i with rfl | hki
      · rw [hci] at hk
        cases hk
        exact absurd (h.client_event j t _ (hold j t hj hji)) (Nat.lt_irrefl _)
      · exact h.event_unique j k t t' e (hold j t hj hji) (hold k t' hk hki)
  · intro j t t' e _ hw
    exact hnotwr t' e hw

theorem Inv.client_subscribe (hP : P.Wf) (h : Inv P w) {i : ι} (hpc : w.clients i = .subscribe)
    {m : Manager} {events : List TriggerEvent} {pc : ClientPc RS}
    (hs : requestStep P i w.manager .subscribe = some (.ok (m, events, pc))) :
    Inv P ⟨m, Function.update (fun j => (w.clients j).wake events) i pc, w.server.wake events⟩ := by
  unfold requestStep at hs
  generalize hsub : ipcSubscribe w.manager (P.clientPid i) (P.replyName i) true true false = r at hs
  obtain ⟨m', r⟩ := r
  rcases ipcSubscribe_cases hsub with ⟨rfl, e, rfl⟩ | ⟨t, targets, ht, rfl, hperm, hins, rfl⟩
  · -- refused: `request` returns the error and nothing else changes
    simp only [Option.some.injEq, Except.ok.injEq, Prod.mk.injEq] at hs
    obtain ⟨rfl, rfl, rfl⟩ := hs
    simp only [ClientPc.wake_nil, ServerPc.wake_nil]
    refine h.replace_client (Frame.of_no_result (h.result_none (by simp [hpc])))
      (by rw [hpc]; rfl) (by simp [hpc]) (by simp) ?_
    unfold Stage
    simp
  · simp only [Option.some.injEq, Except.ok.injEq, Prod.mk.injEq] at hs
    obtain ⟨rfl, rfl, rfl⟩ := hs
    simp only [ClientPc.wake_nil, ServerPc.wake_nil]
    exact h.subscribed hP hpc (name_of_topic_new ht) hperm hins

end Steps

end RequestReply

end D7os.Ipc

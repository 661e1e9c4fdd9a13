import D7os.Ipc.Bookkeeping
import D7os.Ipc.Services

/-!
# The operations of the IPC manager keep the bookkeeping

One lemma per operation of `Manager`: from a state with `Bookkeeping`, the state
it returns has it again, with the received list updated where the operation
hands out or takes back an acknowledge obligation. Where the invariant rules out
the `unwrap`s and `expect`s of an operation, the lemma says that it returns. The
loops of `_force_unsubscribe`, `publish` and `on_process_over` have lemmas of
their own, by induction on the list the loop walks.
-/

namespace D7os.Ipc

namespace Manager

variable {m m' : Manager} {g : Received}

theorem processOwns_iff {pid : ProcessId} {sub : SubscriptionId} :
    m.processOwns pid sub = true ↔
      ∃ subs, m.processSubscriptions.lookup pid = some subs ∧ sub ∈ subs := by
  unfold processOwns
  cases m.processSubscriptions.lookup pid <;> simp

/-! ## Subscribing -/

theorem subscribe_preserves (h : Bookkeeping m g) (pid : ProcessId) (filter : TopicFilter)
    (reliable pipe : Bool) : Bookkeeping (m.subscribe pid filter reliable pipe).1 g := by
  cases hc : m.subscriptions.conflicts filter reliable with
  | true =>
    unfold subscribe
    rw [SubscriptionList.insert_of_conflicts hc]
    exact h
  | false =>
    obtain ⟨targets, hins, -⟩ := SubscriptionList.insert_of_not_conflicts hc
    have h₁ := h.subscribed hc
      (v := some (Mailbox.new (if pipe then .NotConnected else .None))) rfl (by simp)
    -- the new id has a process mailbox and no owner yet
    have hfree : ∀ p sp, m.processSubscriptions.lookup p = some sp →
        m.subscriptions.nextSubscriptionId ∉ sp := by
      intro p sp hp hid
      obtain ⟨mb, hmb⟩ := h.owned p sp hp _ hid
      exact h.next_not_mem (AList.lookup_isSome.mp (by simp [hmb]))
    have h₂ := h₁.owner_added pid ⟨_, AList.lookup_insert _⟩ hfree
    unfold subscribe
    rw [hins] at h₂ ⊢
    exact h₂

theorem kernelSubscribe_preserves (h : Bookkeeping m g) (filter : TopicFilter) :
    Bookkeeping (m.kernelSubscribe filter).1 g := by
  cases hc : m.subscriptions.conflicts filter true with
  | true =>
    unfold kernelSubscribe
    rw [SubscriptionList.insert_of_conflicts hc]
    exact h
  | false =>
    obtain ⟨targets, hins, -⟩ := SubscriptionList.insert_of_not_conflicts hc
    have h₁ := h.subscribed hc (v := none) rfl fun _ => rfl
    unfold kernelSubscribe
    rw [hins] at h₁ ⊢
    exact h₁

/-! ## Unsubscribing -/

/-- The release loop of `_force_unsubscribe` finds every acknowledge id it looks
up, provided they are distinct and all wait for delivery; it removes exactly
those ids. -/
theorem releaseMessages_ok (msgs : List Message)
    (results : HashMap ProcessId (Except DeliveryError Unit)) (events : List TriggerEvent)
    {waiting : HashMap AcknowledgeId (ExplicitEventId × ProcessId)}
    (hnd : (msgs.filterMap (·.ackId)).Nodup) (hw : ∀ a ∈ msgs.filterMap (·.ackId), a ∈ waiting) :
    ∃ w r e, releaseMessages msgs waiting results events = .ok (w, r, e) ∧
      ∀ a, a ∈ w ↔ a ∈ waiting ∧ a ∉ msgs.filterMap (·.ackId) := by
  induction msgs generalizing waiting results events with
  | nil => exact ⟨waiting, results, events, rfl, fun a => by simp⟩
  | cons msg rest ih =>
    cases hm : msg.ackId with
    | none =>
      have hrest : (msg :: rest).filterMap (·.ackId) = rest.filterMap (·.ackId) := by
        simp [hm]
      rw [hrest] at hnd hw ⊢
      obtain ⟨w, r, e, he, hiff⟩ := ih results events hnd hw
      exact ⟨w, r, e, by simp only [releaseMessages, hm, he], hiff⟩
    | some a =>
      have hrest : (msg :: rest).filterMap (·.ackId) = a :: rest.filterMap (·.ackId) := by
        simp [hm]
      rw [hrest] at hnd hw ⊢
      obtain ⟨ha, hnd'⟩ := List.nodup_cons.mp hnd
      obtain ⟨⟨event, pid⟩, hv⟩ :=
        Option.isSome_iff_exists.mp (AList.lookup_isSome.mpr (hw a (List.mem_cons_self ..)))
      -- the remaining ids differ from `a`, so they survive its removal
      have hw' : ∀ b ∈ rest.filterMap (·.ackId), b ∈ waiting.erase a := by
        intro b hb
        have hne : b ≠ a := fun he => ha (he ▸ hb)
        exact AList.mem_erase.mpr ⟨hne, hw b (List.mem_cons_of_mem _ hb)⟩
      obtain ⟨w, r, e, he, hiff⟩ :=
        ih (results.insert pid (.error .NoSubscriber)) (events.insert ⟨event⟩) hnd' hw'
      refine ⟨w, r, e, by simp only [releaseMessages, hm, hv, he], fun b => ?_⟩
      rw [hiff, AList.mem_erase, List.mem_cons]
      tauto

/-- `_force_unsubscribe` of a process mailbox that no process owns returns, keeps
the invariant, and changes the mailbox map only at the removed key. -/
theorem forceUnsubscribe_ok {sub : SubscriptionId} {mb : Mailbox} (h : Bookkeeping m g)
    (hl : m.mailboxes.lookup sub = some (some mb))
    (hown : ∀ p sp, m.processSubscriptions.lookup p = some sp → sub ∉ sp) :
    ∃ m' r, m.forceUnsubscribe sub = .ok (m', r) ∧ r.value = .ok () ∧ Bookkeeping m' g ∧
      m'.mailboxes = m.mailboxes.erase sub ∧ m'.processSubscriptions = m.processSubscriptions := by
  obtain ⟨hnd, hw⟩ := h.mailbox_acks hl
  obtain ⟨w, r, e, hrel, hiff⟩ := releaseMessages_ok mb.queue.queue m.deliveryResult [] hnd hw
  refine ⟨{ m with
      subscriptions := m.subscriptions.remove sub
      mailboxes := m.mailboxes.erase sub
      waitingForDelivery := w
      deliveryResult := r }, (IpcResult.success ()).withEvents e, ?_, rfl,
    h.removed hl hown hiff r, rfl, rfl⟩
  simp only [forceUnsubscribe, hl, hrel]
  rfl

/-- `unsubscribe` never panics, and keeps the invariant. -/
theorem unsubscribe_ok (h : Bookkeeping m g) (pid : ProcessId) (sub : SubscriptionId) :
    ∃ m' r, m.unsubscribe pid sub = .ok (m', r) ∧ Bookkeeping m' g := by
  cases hv : m.verifyProcessOwns pid sub with
  | error e => exact ⟨m, _, by simp only [unsubscribe, hv]; rfl, h⟩
  | ok u =>
    have hown : m.processOwns pid sub = true := by
      unfold verifyProcessOwns at hv
      split at hv
      · assumption
      · cases hv
    obtain ⟨subs, hps, hsub⟩ := processOwns_iff.mp hown
    have hnd := h.owned_nodup pid subs hps
    obtain ⟨mb, hl⟩ := h.owned pid subs hps sub hsub
    -- the caller gives the subscription up first
    let m₁ := { m with
      processSubscriptions := m.processSubscriptions.insert pid (subs.erase sub) }
    have h₁ : Bookkeeping m₁ g := by
      refine h.owners_sub fun p sp hp => ?_
      by_cases hpid : p = pid
      · subst hpid
        rw [AList.lookup_insert] at hp
        exact ⟨subs, hps, Option.some.inj hp ▸ List.erase_sublist⟩
      · rw [AList.lookup_insert_ne hpid] at hp
        exact ⟨sp, hp, List.Sublist.refl sp⟩
    have hfree : ∀ p sp, m₁.processSubscriptions.lookup p = some sp → sub ∉ sp := by
      intro p sp hp
      by_cases hpid : p = pid
      · subst hpid
        rw [AList.lookup_insert] at hp
        rw [← Option.some.inj hp]
        exact hnd.not_mem_erase
      · rw [AList.lookup_insert_ne hpid] at hp
        exact h.owners_disjoint pid p subs sp hps hp (Ne.symm hpid) sub hsub
    obtain ⟨m', r, hf, -, h', -, -⟩ := forceUnsubscribe_ok h₁ hl hfree
    exact ⟨m', r, by simp only [unsubscribe, hv, hps]; exact hf, h'⟩

/-- The unsubscribe loop of `on_process_over` runs through every subscription of a
set whose mailboxes exist and that no process owns any more. -/
theorem unsubscribeAll_ok (subs : List SubscriptionId) (events : List ExplicitEventId)
    (h : Bookkeeping m g) (hnd : subs.Nodup)
    (hmb : ∀ s ∈ subs, ∃ mb, m.mailboxes.lookup s = some (some mb))
    (hfree : ∀ s ∈ subs, ∀ p sp, m.processSubscriptions.lookup p = some sp → s ∉ sp) :
    ∃ m' evs, unsubscribeAll subs m events = .ok (m', evs) ∧ Bookkeeping m' g := by
  induction subs generalizing m events with
  | nil => exact ⟨m, events, rfl, h⟩
  | cons s rest ih =>
    obtain ⟨mb, hl⟩ := hmb s (List.mem_cons_self ..)
    obtain ⟨m₁, r, hf, hv, h₁, hmbs, hps⟩ := forceUnsubscribe_ok h hl (hfree s (List.mem_cons_self ..))
    obtain ⟨hs, hnd'⟩ := List.nodup_cons.mp hnd
    -- the other mailboxes of the set survive the removal of `s`
    have hmb' : ∀ s' ∈ rest, ∃ mb, m₁.mailboxes.lookup s' = some (some mb) := by
      intro s' hs'
      have hne : s' ≠ s := fun he => hs (he ▸ hs')
      rw [hmbs, AList.lookup_erase_ne hne]
      exact hmb s' (List.mem_cons_of_mem _ hs')
    have hfree' : ∀ s' ∈ rest, ∀ p sp, m₁.processSubscriptions.lookup p = some sp → s' ∉ sp := by
      rw [hps]
      exact fun s' hs' => hfree s' (List.mem_cons_of_mem _ hs')
    obtain ⟨m', evs, he, h'⟩ := ih (events ++ r.events.map (·.event)) h₁ hnd' hmb' hfree'
    refine ⟨m', evs, ?_, h'⟩
    simp only [unsubscribeAll, hf, bind, Except.bind, hv]
    exact he

/-- `on_process_over` never panics, and keeps the invariant. -/
theorem onProcessOver_ok (h : Bookkeeping m g) (pid : ProcessId) :
    ∃ m' evs, m.onProcessOver pid = .ok (m', evs) ∧ Bookkeeping m' g := by
  have hd : ∀ mb, (disconnect pid mb).queue.queue = mb.queue.queue := by
    intro mb
    unfold disconnect
    split <;> rfl
  cases hps : m.processSubscriptions.lookup pid with
  | none =>
    exact ⟨_, _, by simp only [onProcessOver, hps, bind, Except.bind, pure, Except.pure]; rfl,
      h.updated hd⟩
  | some subs =>
    -- after `remove(&pid)` no process owns a subscription of `subs`
    have herase : ∀ p sp, (m.processSubscriptions.erase pid).lookup p = some sp →
        p ≠ pid ∧ m.processSubscriptions.lookup p = some sp := by
      intro p sp hp
      by_cases hpid : p = pid
      · subst hpid
        rw [AList.lookup_erase] at hp
        cases hp
      · rw [AList.lookup_erase_ne hpid] at hp
        exact ⟨hpid, hp⟩
    have h₀ : Bookkeeping { m with processSubscriptions := m.processSubscriptions.erase pid } g :=
      h.owners_sub fun p sp hp => ⟨sp, (herase p sp hp).2, List.Sublist.refl sp⟩
    have hfree : ∀ s ∈ subs, ∀ p sp, (m.processSubscriptions.erase pid).lookup p = some sp →
        s ∉ sp := by
      intro s hs p sp hp
      obtain ⟨hne, hp'⟩ := herase p sp hp
      exact h.owners_disjoint pid p subs sp hps hp' (Ne.symm hne) s hs
    obtain ⟨m₁, evs, he, h₁⟩ := unsubscribeAll_ok subs [] h₀ (h.owned_nodup pid subs hps)
      (h.owned pid subs hps) hfree
    exact ⟨_, _, by simp only [onProcessOver, hps, he, bind, Except.bind, pure, Except.pure]; rfl,
      h₁.updated hd⟩

/-! ## Acknowledging -/

/-- An acknowledgement of a received, unacknowledged message never panics. -/
theorem acknowledge_ok (h : Bookkeeping m g) {x : ProcessId × SubscriptionId × AcknowledgeId}
    (hx : x ∈ g) (sub : SubscriptionId) (positive : Bool) :
    ∃ m' r, m.acknowledge sub x.2.2 positive = .ok (m', r) ∧ Bookkeeping m' (g.erase x) := by
  have hw : x.2.2 ∈ m.waitingForDelivery :=
    h.acks_waiting _ (List.mem_append_right _ (List.mem_map_of_mem hx))
  obtain ⟨⟨event, pid⟩, hv⟩ := Option.isSome_iff_exists.mp (AList.lookup_isSome.mpr hw)
  exact ⟨_, _, by simp only [acknowledge, hv]; rfl, h.acknowledged hx _⟩

/-! ## Publishing -/

/-- The panic message of the assertion in `push_unreliable`. -/
def pipePublishAssert : Panic := "assertion failed: matches!(self.pipe_mode, PipeMode::None)"

/-- The loop of `publish` over subscriptions that all have process mailboxes: its
only possible panic is the assertion of `push_unreliable`, and every mailbox it
writes keeps its acknowledge ids. -/
theorem publishLoop_spec (topic : Topic) (data : List UInt8) (subs : List SubscriptionId)
    (mbs : HashMap SubscriptionId (Option Mailbox)) (events : List TriggerEvent)
    (h : Bookkeeping { m with mailboxes := mbs } g)
    (hs : ∀ s ∈ subs, ∃ mb, mbs.lookup s = some (some mb)) :
    (∀ p, publishLoop topic data subs mbs events = .error p → p = pipePublishAssert) ∧
    (∀ mbs' evs, publishLoop topic data subs mbs events = .ok (mbs', evs) →
      Bookkeeping { m with mailboxes := mbs' } g) := by
  induction subs generalizing mbs events with
  | nil =>
    refine ⟨fun p hp => (by cases hp), fun mbs' evs hp => ?_⟩
    cases hp
    exact h
  | cons sub rest ih =>
    obtain ⟨mb, hl⟩ := hs sub (List.mem_cons_self ..)
    cases hpush : mb.pushUnreliable ⟨topic.name, data, none⟩ with
    | error p =>
      have hloop : publishLoop topic data (sub :: rest) mbs events = .error p := by
        simp only [publishLoop, hl, hpush, bind, Except.bind]
      refine ⟨fun p' hp' => ?_, fun mbs' evs hp' => ?_⟩
      · rw [hloop] at hp'
        cases hp'
        exact Mailbox.pushUnreliable_eq_error hpush
      · rw [hloop] at hp'
        cases hp'
    | ok res =>
      obtain ⟨e, mb'⟩ := res
      obtain ⟨-, hq⟩ := Mailbox.pushUnreliable_eq_ok hpush
      -- the pushed message carries no acknowledge id
      have hacks : mailboxAcks (some mb') = mailboxAcks (some mb) := by
        rcases hq with hq | hq <;> simp [mailboxAcks, hq]
      have h₁ : Bookkeeping { m with mailboxes := mbs.insert sub (some mb') } g :=
        Bookkeeping.rewrite_same (m := { m with mailboxes := mbs }) h hl hacks
      have hs' : ∀ s ∈ rest, ∃ mb, (mbs.insert sub (some mb')).lookup s = some (some mb) := by
        intro s hs'
        by_cases he : s = sub
        · exact ⟨mb', by rw [he, AList.lookup_insert]⟩
        · rw [AList.lookup_insert_ne he]
          exact hs s (List.mem_cons_of_mem _ hs')
      simp only [publishLoop, hl, hpush, bind, Except.bind]
      exact ih _ _ h₁ hs'

/-- `publish` keeps the invariant, and its `unwrap` and `expect` never fail: the
only panic left is the assertion of `push_unreliable` on a pipe mailbox. -/
theorem publish_spec (h : Bookkeeping m g) (topic : Topic) (data : List UInt8) :
    (∀ p, m.publish topic data = .error p → p = pipePublishAssert) ∧
    (∀ m' r, m.publish topic data = .ok (m', r) → Bookkeeping m' g) := by
  -- every unreliable subscriber has a process mailbox
  have hs : ∀ s ∈ m.subscriptions.findAll topic false,
      ∃ mb, m.mailboxes.lookup s = some (some mb) := by
    intro s hs
    obtain ⟨f, ht, -⟩ := SubscriptionList.mem_findAll.mp hs
    obtain ⟨v, hv⟩ :=
      Option.isSome_iff_exists.mp (AList.lookup_isSome.mpr ((h.keys s).mpr ⟨f, false, ht⟩))
    cases v with
    | none => exact absurd hv (h.kernel_reliable f s ht)
    | some mb => exact ⟨mb, hv⟩
  obtain ⟨herr, hok⟩ := publishLoop_spec (m := m) topic data _ _ [] h hs
  constructor
  · intro p hp
    cases hl : publishLoop topic data (m.subscriptions.findAll topic false) m.mailboxes [] with
    | error p' =>
      simp only [publish, hl, bind, Except.bind] at hp
      obtain rfl := Except.error.inj hp
      exact herr _ hl
    | ok res => simp [publish, hl, bind, Except.bind, pure, Except.pure] at hp
  · intro m' r hp
    cases hl : publishLoop topic data (m.subscriptions.findAll topic false) m.mailboxes [] with
    | error p' => simp [publish, hl, bind, Except.bind] at hp
    | ok res =>
      obtain ⟨mbs', evs⟩ := res
      simp only [publish, hl, bind, Except.bind, pure, Except.pure, Except.ok.injEq,
        Prod.mk.injEq] at hp
      obtain ⟨rfl, -⟩ := hp
      exact hok mbs' evs hl

/-! ## Reliable delivery -/

/-- Connecting a pipe keeps the queue and leaves the pipe connected or not a pipe. -/
theorem connectPipe_eq_some {mb mb' : Mailbox} {pid : ProcessId}
    (h : connectPipe mb pid = some mb') : mb'.queue = mb.queue ∧ mb'.pipeMode ≠ .NotConnected := by
  unfold connectPipe at h
  split at h
  · rename_i hm
    cases h
    exact ⟨rfl, by simp [hm]⟩
  · cases h
    exact ⟨rfl, by simp⟩
  · split at h
    · cases h
    · rename_i hm _
      cases h
      exact ⟨rfl, by simp [hm]⟩
  · cases h

/-- A reliable push of a message without acknowledge id keeps the mailbox's ids. -/
theorem pushReliable_acks {mb mb' : Mailbox} {message : Message}
    {r : Except DeliveryError (Option TriggerEvent)} (h : mb.pushReliable message = .ok (r, mb'))
    (hm : message.ackId = none) : mailboxAcks (some mb') = mailboxAcks (some mb) := by
  obtain ⟨-, hq⟩ := Mailbox.pushReliable_eq_ok h
  cases r <;> simp [mailboxAcks, hq, hm]

/-- What `deliver` needs of the kernel side: a message to a kernel subscription
keeps the invariant. -/
def IncomingKeeps (incoming : Incoming) : Prop :=
  ∀ m g pid sub message m' r, Bookkeeping m g → m.mailboxes.lookup sub = some none →
    incoming m pid sub message = .ok (m', r) → Bookkeeping m' g

theorem deliver_preserves {incoming : Incoming} (hinc : IncomingKeeps incoming)
    (h : Bookkeeping m g) {pid : ProcessId} {topic : Topic} {data : List UInt8}
    {r : IpcResult Deliver} (hd : m.deliver incoming pid topic data = .ok (m', r)) :
    Bookkeeping m' g := by
  have h₁ : Bookkeeping { m with nextAcknowledgeId := m.nextAcknowledgeId.next } g :=
    h.nextAck (Nat.le_succ _)
  cases hall : m.subscriptions.findAll topic true with
  | nil =>
    simp only [deliver, hall, List.length_nil, if_true, Except.ok.injEq, Prod.mk.injEq] at hd
    obtain ⟨rfl, -⟩ := hd
    exact h
  | cons sub rest =>
    cases rest with
    | cons _ _ => simp [deliver, hall] at hd
    | nil =>
      cases hl : m.mailboxes.lookup sub with
      | none => simp [deliver, hall, hl] at hd
      | some v =>
        cases v with
        | none =>
          -- a kernel subscription: the service sees the advanced counter
          cases hi : incoming { m with nextAcknowledgeId := m.nextAcknowledgeId.next } pid sub
              ⟨topic.name, data, some m.nextAcknowledgeId⟩ with
          | error p => simp [deliver, hall, hl, hi, bind, Except.bind] at hd
          | ok res =>
            obtain ⟨m₂, r₂⟩ := res
            simp [deliver, hall, hl, hi, bind, Except.bind, pure, Except.pure] at hd
            obtain ⟨rfl, -⟩ := hd
            exact hinc _ _ _ _ _ _ _ h₁ hl hi
        | some mb =>
          cases hc : connectPipe mb pid with
          | none =>
            simp [deliver, hall, hl, hc] at hd
            obtain ⟨rfl, -⟩ := hd
            exact h₁
          | some mb₁ =>
            have hq₁ := (connectPipe_eq_some hc).1
            cases hpush : mb₁.pushReliable ⟨topic.name, data, some m.nextAcknowledgeId⟩ with
            | error p => simp [deliver, hall, hl, hc, hpush, bind, Except.bind] at hd
            | ok res =>
              obtain ⟨result, mb₂⟩ := res
              obtain ⟨-, hq⟩ := Mailbox.pushReliable_eq_ok hpush
              cases result with
              | ok trigger =>
                simp [deliver, hall, hl, hc, hpush, bind, Except.bind, pure, Except.pure,
                  newEventId] at hd
                obtain ⟨rfl, -⟩ := hd
                have hacks : mailboxAcks (some mb₂) =
                    mailboxAcks (some mb) ++ [m.nextAcknowledgeId] := by
                  simp [mailboxAcks, hq, hq₁]
                exact (h.rewrite_push _ hl hacks).frame _ _
              | error e =>
                simp [deliver, hall, hl, hc, hpush, bind, Except.bind, pure, Except.pure] at hd
                obtain ⟨rfl, -⟩ := hd
                have hacks : mailboxAcks (some mb₂) = mailboxAcks (some mb) := by
                  simp [mailboxAcks, hq, hq₁]
                exact (h.rewrite_same hl hacks).nextAck (Nat.le_succ _)

/-! ## Replies -/

theorem deliverReply_preserves (h : Bookkeeping m g) {pid : ProcessId} {topic : Topic}
    {data : List UInt8} {r : IpcResult Unit} (hd : m.deliverReply pid topic data = .ok (m', r)) :
    Bookkeeping m' g := by
  cases hall : m.subscriptions.findAll topic true with
  | nil =>
    simp [deliverReply, hall] at hd
    obtain ⟨rfl, -⟩ := hd
    exact h
  | cons sub rest =>
    cases rest with
    | cons _ _ => simp [deliverReply, hall] at hd
    | nil =>
      cases hl : m.mailboxes.lookup sub with
      | none => simp [deliverReply, hall, hl] at hd
      | some v =>
        cases v with
        | none => simp [deliverReply, hall, hl] at hd
        | some mb =>
          by_cases hp : mb.pipeMode = .None
          · cases hpush : mb.pushReliable ⟨topic.name, data, none⟩ with
            | error p => simp [deliverReply, hall, hl, hp, hpush, bind, Except.bind] at hd
            | ok res =>
              obtain ⟨result, mb₂⟩ := res
              have hacks := pushReliable_acks hpush rfl
              -- success or a full queue: either way only this mailbox changed
              cases result <;>
                simp [deliverReply, hall, hl, hp, hpush, bind, Except.bind, pure,
                  Except.pure] at hd <;>
                obtain ⟨rfl, -⟩ := hd <;>
                exact h.rewrite_same hl hacks
          · simp [deliverReply, hall, hl, hp] at hd

theorem kernelDeliverReply_preserves (h : Bookkeeping m g) {topic : Topic}
    {payload : List UInt8} {r : Except DeliveryError Unit}
    (hd : m.kernelDeliverReply topic payload = .ok (m', r)) : Bookkeeping m' g := by
  cases hall : m.subscriptions.findAll topic true with
  | nil =>
    simp [kernelDeliverReply, hall] at hd
    obtain ⟨rfl, -⟩ := hd
    exact h
  | cons sub rest =>
    cases rest with
    | cons _ _ => simp [kernelDeliverReply, hall] at hd
    | nil =>
      cases hl : m.mailboxes.lookup sub with
      | none => simp [kernelDeliverReply, hall, hl] at hd
      | some v =>
        cases v with
        | none => simp [kernelDeliverReply, hall, hl] at hd
        | some mb =>
          by_cases hp : mb.pipeMode = .None
          · cases hpush : mb.pushReliable ⟨topic.name, payload, none⟩ with
            | error p => simp [kernelDeliverReply, hall, hl, hp, hpush, bind, Except.bind] at hd
            | ok res =>
              obtain ⟨result, mb₂⟩ := res
              have hacks := pushReliable_acks hpush rfl
              have h₂ := (h.rewrite_same hl hacks).nextAck (Nat.le_succ _)
              rcases result with e | _ | t
              · simp [kernelDeliverReply, hall, hl, hp, hpush, bind, Except.bind, pure,
                  Except.pure] at hd
                obtain ⟨rfl, -⟩ := hd
                exact h₂
              · simp [kernelDeliverReply, hall, hl, hp, hpush, bind, Except.bind, pure,
                  Except.pure] at hd
                obtain ⟨rfl, -⟩ := hd
                exact h₂
              · simp [kernelDeliverReply, hall, hl, hp, hpush, bind, Except.bind] at hd
          · simp [kernelDeliverReply, hall, hl, hp] at hd

/-! ## Receiving -/

/-- The acknowledge obligation a `receive` hands to its caller: the id of the
reliable message it returns, if any. -/
def receivedAck (pid : ProcessId) (sub : SubscriptionId)
    (r : IpcResult (Except ExplicitEventId Message)) : Received :=
  match r.value with
  | .ok (.ok message) => (message.ackId.map fun a => (pid, sub, a)).toList
  | _ => []

theorem receive_preserves (h : Bookkeeping m g) {pid : ProcessId} {sub : SubscriptionId}
    {r : IpcResult (Except ExplicitEventId Message)} (hr : m.receive pid sub = .ok (m', r)) :
    Bookkeeping m' (g ++ receivedAck pid sub r) := by
  cases hv : m.verifyProcessOwns pid sub with
  | error e =>
    simp [receive, hv] at hr
    obtain ⟨rfl, rfl⟩ := hr
    simpa [receivedAck, IpcResult.error] using h
  | ok u =>
    cases hl : m.mailboxes.lookup sub with
    | none =>
      simp [receive, hv, hl] at hr
      obtain ⟨rfl, rfl⟩ := hr
      simpa [receivedAck, IpcResult.error] using h
    | some v =>
      cases v with
      | none => simp [receive, hv, hl] at hr
      | some mb =>
        rcases hpe : mb.queue.popOrEvent m.nextEvent with ⟨res, q', n'⟩
        simp [receive, hv, hl, hpe] at hr
        obtain ⟨rfl, rfl⟩ := hr
        rcases EventQueue.popOrEvent_eq hpe with ⟨x, rfl, hq⟩ | ⟨e, rfl, hq⟩
        · -- a message is popped; a reliable one becomes the caller's to acknowledge
          cases hx : x.ackId with
          | none =>
            have hacks : mailboxAcks (some { mb with queue := q' }) = mailboxAcks (some mb) := by
              simp [mailboxAcks, hq, hx]
            have hg : receivedAck pid sub (.success (.ok x)) = [] := by
              simp [receivedAck, IpcResult.success, hx]
            rw [hg, List.append_nil]
            exact (h.rewrite_same hl hacks).frame _ _
          | some a =>
            have hacks : mailboxAcks (some mb) = a :: mailboxAcks (some { mb with queue := q' }) := by
              simp [mailboxAcks, hq, hx]
            have hg : receivedAck pid sub (.success (.ok x)) = [(pid, sub, a)] := by
              simp [receivedAck, IpcResult.success, hx]
            rw [hg]
            exact (h.rewrite_pop pid hl hacks).frame _ _
        · have hacks : mailboxAcks (some { mb with queue := q' }) = mailboxAcks (some mb) := by
            simp [mailboxAcks, hq]
          have hg : receivedAck pid sub (.success (.error e)) = [] := rfl
          rw [hg, List.append_nil]
          exact (h.rewrite_same hl hacks).frame _ _

theorem waitingFor_preserves (h : Bookkeeping m g) {sub : SubscriptionId} {w : WaitFor}
    (hw : m.waitingFor sub = .ok (m', w)) : Bookkeeping m' g := by
  cases hl : m.mailboxes.lookup sub with
  | none => simp [waitingFor, hl] at hw
  | some v =>
    cases v with
    | none => simp [waitingFor, hl] at hw
    | some mb =>
      rcases hwe : mb.queue.waitFor m.nextEvent with ⟨w', q', n'⟩
      simp [waitingFor, hl, hwe] at hw
      obtain ⟨rfl, -⟩ := hw
      have hacks : mailboxAcks (some { mb with queue := q' }) = mailboxAcks (some mb) := by
        simp [mailboxAcks, EventQueue.waitFor_eq hwe]
      exact (h.rewrite_same hl hacks).frame _ _

theorem afterDelivery_preserves (h : Bookkeeping m g) {pid : ProcessId} {r : IpcResult Unit}
    (ha : m.afterDelivery pid = .ok (m', r)) : Bookkeeping m' g := by
  cases hl : m.deliveryResult.lookup pid with
  | none => simp [afterDelivery, hl] at ha
  | some res =>
    simp [afterDelivery, hl] at ha
    obtain ⟨rfl, -⟩ := ha
    exact h.frame _ _

end Manager

namespace Services

variable {m m' : Manager} {g : Received}

theorem run_preserves (h : Bookkeeping m g) (service : Service) (env : ServiceEnv)
    (pid : ProcessId) (message : Message) {r : Except DeliveryError Unit}
    (hr : run service env m pid message = .ok (m', r)) : Bookkeeping m' g := by
  cases service
  simp only [run, initrdRead] at hr
  cases hdec : env.decodeRequest message.data with
  | none => simp [hdec] at hr
  | some req =>
    obtain ⟨replyTo, path⟩ := req
    cases ht : Topic.new replyTo with
    | none =>
      simp [hdec, ht] at hr
      obtain ⟨rfl, -⟩ := hr
      exact h
    | some topic =>
      cases hf : env.initrdRead path with
      | none =>
        simp [hdec, ht, hf] at hr
        obtain ⟨rfl, -⟩ := hr
        exact h
      | some data =>
        simp only [hdec, ht, hf] at hr
        exact Manager.kernelDeliverReply_preserves h hr

theorem incoming_keeps (env : ServiceEnv) (services : HashMap SubscriptionId Service) :
    Manager.IncomingKeeps (incoming env services) := by
  intro m g pid sub message m' r h _ hi
  cases hs : services.lookup sub with
  | none => simp [incoming, hs] at hi
  | some service =>
    cases ha : message.ackId with
    | none => simp [incoming, hs, ha] at hi
    | some a =>
      cases hrun : run service env m pid { message with ackId := none } with
      | error p => simp [incoming, hs, ha, hrun, bind, Except.bind] at hi
      | ok res =>
        obtain ⟨m₂, r₂⟩ := res
        simp [incoming, hs, ha, hrun, bind, Except.bind, pure, Except.pure] at hi
        obtain ⟨rfl, -⟩ := hi
        exact run_preserves h service env pid _ hrun

end Services

end D7os.Ipc

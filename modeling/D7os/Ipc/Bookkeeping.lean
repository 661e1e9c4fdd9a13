import D7os.Ipc.Manager

/-!
# The bookkeeping invariant of the IPC manager

The maps of `Manager` and its subscription list must agree for the `unwrap`s and
`expect`s of `_force_unsubscribe`, `unsubscribe`, `publish` and `acknowledge` to
hold. `Bookkeeping` says: the mailbox keys are the subscription ids; every
acknowledge id queued, or received and not yet acknowledged (the ghost list
`Received`), is a key of `waiting_for_delivery`, occurs once and is below
`next_acknowledge_id`; and every owned subscription has a process mailbox and
one owner.

This module proves what each kind of state change does to the invariant: a
rewrite of one mailbox, a removed mailbox, an acknowledged message, a new
subscription.
-/

namespace D7os.Ipc

/-- Received, not yet acknowledged reliable messages: (receiver, subscription, ack id). -/
abbrev Received := List (ProcessId × SubscriptionId × AcknowledgeId)

/-- The acknowledge ids of the messages queued in one mailbox. -/
def mailboxAcks : Option Mailbox → List AcknowledgeId
  | some mailbox => mailbox.queue.queue.filterMap (·.ackId)
  | none => []

/-- The acknowledge ids queued in every mailbox. -/
def queuedAcks (mailboxes : HashMap SubscriptionId (Option Mailbox)) : List AcknowledgeId :=
  mailboxes.entries.flatMap fun e => mailboxAcks e.2

/-- The acknowledge ids still owed: queued ones, then received ones. -/
def allAcks (m : Manager) (g : Received) : List AcknowledgeId :=
  queuedAcks m.mailboxes ++ g.map (·.2.2)

/-- The invariant of every reachable `(Manager, Received)` pair. -/
structure Bookkeeping (m : Manager) (g : Received) : Prop where
  /-- (a) the mailbox keys are the subscription ids -/
  keys : ∀ id, id ∈ m.mailboxes ↔ ∃ f r, (f, r, id) ∈ m.subscriptions.targets
  /-- (b) every owed acknowledge id waits for delivery -/
  acks_waiting : ∀ a ∈ allAcks m g, a ∈ m.waitingForDelivery
  /-- (b) no acknowledge id is owed twice -/
  acks_nodup : (allAcks m g).Nodup
  acks_fresh : ∀ a ∈ allAcks m g, a.val < m.nextAcknowledgeId.val
  /-- (c) owned subscriptions have process mailboxes -/
  owned : ∀ pid subs, m.processSubscriptions.lookup pid = some subs →
    ∀ id ∈ subs, ∃ mailbox, m.mailboxes.lookup id = some (some mailbox)
  owners_disjoint : ∀ p q sp sq, m.processSubscriptions.lookup p = some sp →
    m.processSubscriptions.lookup q = some sq → p ≠ q → ∀ id ∈ sp, id ∉ sq
  owned_nodup : ∀ p sp, m.processSubscriptions.lookup p = some sp → sp.Nodup
  ids_fresh : ∀ f r id, (f, r, id) ∈ m.subscriptions.targets →
    id.val < m.subscriptions.nextSubscriptionId.val
  /-- unreliable subscriptions are never kernel ones -/
  kernel_reliable : ∀ f id, (f, false, id) ∈ m.subscriptions.targets →
    m.mailboxes.lookup id ≠ some none
  list : m.subscriptions.Reachable

namespace Bookkeeping

variable {m : Manager} {g : Received}

/-! ## Collecting acknowledge ids -/

theorem queuedAcks_perm {mailboxes : HashMap SubscriptionId (Option Mailbox)}
    {sub : SubscriptionId} {v : Option Mailbox} (h : mailboxes.lookup sub = some v) :
    (queuedAcks mailboxes).Perm (mailboxAcks v ++ queuedAcks (mailboxes.erase sub)) :=
  AList.flatMap_entries_perm h fun _ v => mailboxAcks v

theorem queuedAcks_insert (mailboxes : HashMap SubscriptionId (Option Mailbox))
    (sub : SubscriptionId) (v : Option Mailbox) :
    queuedAcks (mailboxes.insert sub v) = mailboxAcks v ++ queuedAcks (mailboxes.erase sub) :=
  AList.flatMap_entries_insert mailboxes sub v fun _ v => mailboxAcks v

/-- Rewriting one mailbox exchanges its acknowledge ids and keeps all the others. -/
theorem allAcks_insert_perm {sub : SubscriptionId} {v : Option Mailbox}
    (h : m.mailboxes.lookup sub = some v) (v' : Option Mailbox) :
    (allAcks m g).Perm (mailboxAcks v ++ queuedAcks (m.mailboxes.erase sub) ++ g.map (·.2.2)) ∧
    allAcks { m with mailboxes := m.mailboxes.insert sub v' } g =
      mailboxAcks v' ++ queuedAcks (m.mailboxes.erase sub) ++ g.map (·.2.2) := by
  constructor
  · exact (queuedAcks_perm h).append_right _
  · simp only [allAcks, queuedAcks_insert, List.append_assoc]

/-! ## Frame lemmas -/

/-- The invariant does not read `delivery_result` or `NEXT_EVENT`. -/
theorem frame (h : Bookkeeping m g) (results : HashMap ProcessId (Except DeliveryError Unit))
    (nextEvent : Nat) :
    Bookkeeping { m with deliveryResult := results, nextEvent } g :=
  ⟨h.keys, h.acks_waiting, h.acks_nodup, h.acks_fresh, h.owned, h.owners_disjoint,
    h.owned_nodup, h.ids_fresh, h.kernel_reliable, h.list⟩

theorem nextAck (h : Bookkeeping m g) {n : AcknowledgeId}
    (hn : m.nextAcknowledgeId.val ≤ n.val) : Bookkeeping { m with nextAcknowledgeId := n } g :=
  { h with acks_fresh := fun a ha => lt_of_lt_of_le (h.acks_fresh a ha) hn }

/-- Rewriting a process mailbox into another process mailbox keeps every part of
the invariant that does not concern acknowledge ids; the caller supplies those. -/
private theorem rewrite {sub : SubscriptionId} {mb mb' : Mailbox} {g' : Received}
    {waiting : HashMap AcknowledgeId (ExplicitEventId × ProcessId)} {n : AcknowledgeId}
    (h : Bookkeeping m g) (hl : m.mailboxes.lookup sub = some (some mb))
    (hwait : ∀ a ∈ allAcks { m with mailboxes := m.mailboxes.insert sub (some mb') } g',
      a ∈ waiting)
    (hnodup : (allAcks { m with mailboxes := m.mailboxes.insert sub (some mb') } g').Nodup)
    (hfresh : ∀ a ∈ allAcks { m with mailboxes := m.mailboxes.insert sub (some mb') } g',
      a.val < n.val) :
    Bookkeeping { m with
      mailboxes := m.mailboxes.insert sub (some mb')
      waitingForDelivery := waiting
      nextAcknowledgeId := n } g' := by
  have hmem : sub ∈ m.mailboxes := AList.lookup_isSome.mp (by simp [hl])
  refine ⟨?_, hwait, hnodup, hfresh, ?_, h.owners_disjoint, h.owned_nodup,
    h.ids_fresh, ?_, h.list⟩
  · intro id
    rw [← h.keys id, AList.mem_insert]
    constructor
    · rintro (rfl | hid)
      · exact hmem
      · exact hid
    · exact Or.inr
  · intro pid subs hp id hid
    by_cases hs : id = sub
    · exact ⟨mb', by rw [hs, AList.lookup_insert]⟩
    · rw [AList.lookup_insert_ne hs]
      exact h.owned pid subs hp id hid
  · intro f id ht
    by_cases hs : id = sub
    · rw [hs, AList.lookup_insert]
      simp
    · rw [AList.lookup_insert_ne hs]
      exact h.kernel_reliable f id ht

/-- A mailbox rewrite that keeps the acknowledge ids of its queue. -/
theorem rewrite_same {sub : SubscriptionId} {mb mb' : Mailbox}
    (h : Bookkeeping m g) (hl : m.mailboxes.lookup sub = some (some mb))
    (hq : mailboxAcks (some mb') = mailboxAcks (some mb)) :
    Bookkeeping { m with mailboxes := m.mailboxes.insert sub (some mb') } g := by
  obtain ⟨hperm, heq⟩ := allAcks_insert_perm (g := g) hl (some mb')
  rw [← hq] at hperm
  have hp : (allAcks { m with mailboxes := m.mailboxes.insert sub (some mb') } g).Perm
      (allAcks m g) := heq ▸ hperm.symm
  exact rewrite h hl (fun a ha => h.acks_waiting a (hp.mem_iff.mp ha))
    (hp.nodup_iff.mpr h.acks_nodup) (fun a ha => h.acks_fresh a (hp.mem_iff.mp ha))

/-- A reliable push: the mailbox gains the fresh id `next_acknowledge_id`, which
starts to wait for delivery, and the counter moves past it. -/
theorem rewrite_push {sub : SubscriptionId} {mb mb' : Mailbox} (v : ExplicitEventId × ProcessId)
    (h : Bookkeeping m g) (hl : m.mailboxes.lookup sub = some (some mb))
    (hq : mailboxAcks (some mb') = mailboxAcks (some mb) ++ [m.nextAcknowledgeId]) :
    Bookkeeping { m with
      mailboxes := m.mailboxes.insert sub (some mb')
      waitingForDelivery := m.waitingForDelivery.insert m.nextAcknowledgeId v
      nextAcknowledgeId := m.nextAcknowledgeId.next } g := by
  obtain ⟨hperm, heq⟩ := allAcks_insert_perm (g := g) hl (some mb')
  rw [hq] at heq
  -- the new list is the old one with the fresh id added
  have hp : (allAcks { m with mailboxes := m.mailboxes.insert sub (some mb') } g).Perm
      (m.nextAcknowledgeId :: allAcks m g) := by
    rw [heq]
    refine List.Perm.trans ?_ (hperm.symm.cons _)
    simp only [List.append_assoc]
    exact List.perm_middle
  have hfresh : m.nextAcknowledgeId ∉ allAcks m g := fun hm => by
    have := h.acks_fresh _ hm
    omega
  refine rewrite h hl ?_ (hp.nodup_iff.mpr (List.nodup_cons.mpr ⟨hfresh, h.acks_nodup⟩)) ?_
  · intro a ha
    rcases List.mem_cons.mp (hp.mem_iff.mp ha) with rfl | ha
    · exact (AList.mem_insert _).mpr (.inl rfl)
    · exact (AList.mem_insert _).mpr (.inr (h.acks_waiting a ha))
  · intro a ha
    rcases List.mem_cons.mp (hp.mem_iff.mp ha) with rfl | ha
    · exact Nat.lt_succ_self _
    · exact Nat.lt_succ_of_lt (h.acks_fresh a ha)

/-- A pop of a message with acknowledge id `a`: the id moves from the queue to the
received list. -/
theorem rewrite_pop {sub : SubscriptionId} {mb mb' : Mailbox} {a : AcknowledgeId}
    (pid : ProcessId) (h : Bookkeeping m g) (hl : m.mailboxes.lookup sub = some (some mb))
    (hq : mailboxAcks (some mb) = a :: mailboxAcks (some mb')) :
    Bookkeeping { m with mailboxes := m.mailboxes.insert sub (some mb') } (g ++ [(pid, sub, a)]) := by
  obtain ⟨hperm, heq⟩ := allAcks_insert_perm (g := g ++ [(pid, sub, a)]) hl (some mb')
  -- both lists are `a` in front of the same ids
  have hnew : (allAcks { m with mailboxes := m.mailboxes.insert sub (some mb') }
      (g ++ [(pid, sub, a)])).Perm
      (a :: (mailboxAcks (some mb') ++ queuedAcks (m.mailboxes.erase sub) ++ g.map (·.2.2))) := by
    rw [heq, List.map_append, List.map_singleton, ← List.append_assoc]
    exact List.perm_append_singleton _ _
  have hold : (allAcks m g).Perm
      (a :: (mailboxAcks (some mb') ++ queuedAcks (m.mailboxes.erase sub) ++ g.map (·.2.2))) := by
    have h1 := (queuedAcks_perm hl).append_right (g.map (·.2.2))
    rw [hq] at h1
    simpa only [allAcks, List.cons_append] using h1
  have hp := hnew.trans hold.symm
  exact rewrite h hl (fun b hb => h.acks_waiting b (hp.mem_iff.mp hb))
    (hp.nodup_iff.mpr h.acks_nodup) (fun b hb => h.acks_fresh b (hp.mem_iff.mp hb))

/-- A legitimate acknowledgement: the received id stops waiting for delivery. -/
theorem acknowledged {x : ProcessId × SubscriptionId × AcknowledgeId} (h : Bookkeeping m g)
    (hx : x ∈ g) (results : HashMap ProcessId (Except DeliveryError Unit)) :
    Bookkeeping { m with
      waitingForDelivery := m.waitingForDelivery.erase x.2.2
      deliveryResult := results } (g.erase x) := by
  -- the acknowledged id is owed once, in the received list
  have hp : (allAcks m g).Perm (x.2.2 :: allAcks m (g.erase x)) := by
    have h1 := ((List.perm_cons_erase hx).map (·.2.2)).append_left (queuedAcks m.mailboxes)
    exact h1.trans List.perm_middle
  have hnd := hp.nodup_iff.mp h.acks_nodup
  obtain ⟨hnot, hnd'⟩ := List.nodup_cons.mp hnd
  refine ⟨h.keys, ?_, hnd', ?_, h.owned, h.owners_disjoint, h.owned_nodup, h.ids_fresh,
    h.kernel_reliable, h.list⟩
  · intro a ha
    have hne : a ≠ x.2.2 := fun he => hnot (he ▸ ha)
    exact AList.mem_erase.mpr ⟨hne, h.acks_waiting a (hp.mem_iff.mpr (List.mem_cons_of_mem _ ha))⟩
  · intro a ha
    exact h.acks_fresh a (hp.mem_iff.mpr (List.mem_cons_of_mem _ ha))

/-- Removing a process mailbox that no process owns, together with its
subscription and every acknowledge id of its queue. -/
theorem removed {sub : SubscriptionId} {mb : Mailbox}
    {waiting : HashMap AcknowledgeId (ExplicitEventId × ProcessId)}
    (h : Bookkeeping m g) (hl : m.mailboxes.lookup sub = some (some mb))
    (hown : ∀ p sp, m.processSubscriptions.lookup p = some sp → sub ∉ sp)
    (hwait : ∀ a, a ∈ waiting ↔ a ∈ m.waitingForDelivery ∧ a ∉ mailboxAcks (some mb))
    (results : HashMap ProcessId (Except DeliveryError Unit)) :
    Bookkeeping { m with
      subscriptions := m.subscriptions.remove sub
      mailboxes := m.mailboxes.erase sub
      waitingForDelivery := waiting
      deliveryResult := results } g := by
  have hp : (allAcks m g).Perm (mailboxAcks (some mb) ++ allAcks { m with
      mailboxes := m.mailboxes.erase sub } g) := by
    simpa only [allAcks, List.append_assoc] using (queuedAcks_perm hl).append_right _
  have hnd := hp.nodup_iff.mp h.acks_nodup
  have hmem : ∀ a ∈ allAcks { m with mailboxes := m.mailboxes.erase sub } g, a ∈ allAcks m g :=
    fun a ha => hp.mem_iff.mpr (List.mem_append_right _ ha)
  refine ⟨?_, ?_, (List.nodup_append.mp hnd).2.1, fun a ha => h.acks_fresh a (hmem a ha),
    ?_, h.owners_disjoint, h.owned_nodup, ?_, ?_, .remove sub h.list⟩
  · intro id
    rw [AList.mem_erase, h.keys id]
    simp only [SubscriptionList.remove, List.mem_filter, bne_iff_ne]
    constructor
    · rintro ⟨hne, f, r, ht⟩
      exact ⟨f, r, ht, Ne.symm hne⟩
    · rintro ⟨f, r, ht, hne⟩
      exact ⟨Ne.symm hne, f, r, ht⟩
  · intro a ha
    refine (hwait a).mpr ⟨h.acks_waiting a (hmem a ha), fun hq => ?_⟩
    exact (List.nodup_append.mp hnd).2.2 a hq a ha rfl
  · intro pid subs hps id hid
    have hne : id ≠ sub := fun he => hown pid subs hps (he ▸ hid)
    rw [AList.lookup_erase_ne hne]
    exact h.owned pid subs hps id hid
  · intro f r id ht
    exact h.ids_fresh f r id (List.mem_of_mem_filter ht)
  · intro f id ht
    have hne : id ≠ sub := by
      have := (List.mem_filter.mp ht).2
      simpa [bne_iff_ne, ne_comm] using this
    rw [AList.lookup_erase_ne hne]
    exact h.kernel_reliable f id (List.mem_of_mem_filter ht)

/-- Shrinking the subscription set of one process, or dropping it. -/
theorem owners_sub {owners : HashMap ProcessId (List SubscriptionId)} (h : Bookkeeping m g)
    (hsub : ∀ p sp, owners.lookup p = some sp →
      ∃ sp', m.processSubscriptions.lookup p = some sp' ∧ sp.Sublist sp') :
    Bookkeeping { m with processSubscriptions := owners } g := by
  refine ⟨h.keys, h.acks_waiting, h.acks_nodup, h.acks_fresh, ?_, ?_, ?_, h.ids_fresh,
    h.kernel_reliable, h.list⟩
  · intro pid subs hp id hid
    obtain ⟨sp', hp', hs⟩ := hsub pid subs hp
    exact h.owned pid sp' hp' id (hs.subset hid)
  · intro p q sp sq hp hq hpq id hid hid'
    obtain ⟨sp', hp', hs⟩ := hsub p sp hp
    obtain ⟨sq', hq', hs'⟩ := hsub q sq hq
    exact h.owners_disjoint p q sp' sq' hp' hq' hpq id (hs.subset hid) (hs'.subset hid')
  · intro p sp hp
    obtain ⟨sp', hp', hs⟩ := hsub p sp hp
    exact (h.owned_nodup p sp' hp').sublist hs

/-- The next subscription id has no mailbox yet. -/
theorem next_not_mem (h : Bookkeeping m g) : m.subscriptions.nextSubscriptionId ∉ m.mailboxes := by
  intro hmem
  obtain ⟨f, r, ht⟩ := (h.keys _).mp hmem
  have := h.ids_fresh f r _ ht
  omega

/-- A new subscription, with an empty process mailbox or the kernel's `None`. -/
theorem subscribed {filter : TopicFilter} {reliable : Bool} {v : Option Mailbox}
    (h : Bookkeeping m g) (hc : m.subscriptions.conflicts filter reliable = false)
    (hv : mailboxAcks v = []) (hk : v = none → reliable = true) :
    Bookkeeping { m with
      subscriptions := (m.subscriptions.insert filter reliable).1
      mailboxes := m.mailboxes.insert m.subscriptions.nextSubscriptionId v } g := by
  obtain ⟨targets, hins, hperm⟩ := SubscriptionList.insert_of_not_conflicts hc
  have hl : (m.subscriptions.insert filter reliable).1 =
      ⟨targets, m.subscriptions.nextSubscriptionId.next⟩ := by rw [hins]
  have hfresh := h.next_not_mem
  have hne : ∀ id, id ∈ m.mailboxes → id ≠ m.subscriptions.nextSubscriptionId :=
    fun id hid he => hfresh (he ▸ hid)
  -- the new mailbox owes no acknowledge id
  have hacks : allAcks { m with
      subscriptions := (m.subscriptions.insert filter reliable).1
      mailboxes := m.mailboxes.insert m.subscriptions.nextSubscriptionId v } g = allAcks m g := by
    have herase := AList.erase_of_lookup_none (AList.lookup_eq_none.mpr hfresh)
    simp only [allAcks, queuedAcks_insert, hv, herase, List.nil_append]
  refine ⟨?_, hacks ▸ h.acks_waiting, hacks ▸ h.acks_nodup, hacks ▸ h.acks_fresh, ?_,
    h.owners_disjoint, h.owned_nodup, ?_, ?_, .insert filter reliable h.list⟩
  · intro id
    rw [hl, AList.mem_insert, h.keys id]
    simp only [hperm.mem_iff, List.mem_cons, Prod.mk.injEq]
    constructor
    · rintro (rfl | ⟨f, r, ht⟩)
      · exact ⟨filter, reliable, .inl ⟨rfl, rfl, rfl⟩⟩
      · exact ⟨f, r, .inr ht⟩
    · rintro ⟨f, r, ⟨-, -, rfl⟩ | ht⟩
      · exact .inl rfl
      · exact .inr ⟨f, r, ht⟩
  · intro pid subs hp id hid
    obtain ⟨mb, hmb⟩ := h.owned pid subs hp id hid
    have hk : id ∈ m.mailboxes := AList.lookup_isSome.mp (by simp [hmb])
    exact ⟨mb, by rw [AList.lookup_insert_ne (hne id hk), hmb]⟩
  · intro f r id ht
    rw [hl] at ht ⊢
    rcases List.mem_cons.mp (hperm.mem_iff.mp ht) with he | ht
    · simp only [Prod.mk.injEq] at he
      obtain ⟨-, -, rfl⟩ := he
      exact Nat.lt_succ_self _
    · exact Nat.lt_succ_of_lt (h.ids_fresh f r id ht)
  · intro f id ht
    rw [hl] at ht
    rcases List.mem_cons.mp (hperm.mem_iff.mp ht) with he | ht
    · simp only [Prod.mk.injEq] at he
      obtain ⟨-, hr, rfl⟩ := he
      rw [AList.lookup_insert]
      intro hv'
      have := hk (Option.some.inj hv')
      rw [← hr] at this
      exact Bool.false_ne_true this
    · have hk' : id ∈ m.mailboxes := (h.keys id).mpr ⟨f, false, ht⟩
      rw [AList.lookup_insert_ne (hne id hk')]
      exact h.kernel_reliable f id ht

/-- Where a subscription can sit after it is added to the set of `pid`. -/
theorem mem_owner_insert {owners : HashMap ProcessId (List SubscriptionId)} {pid p : ProcessId}
    {id x : SubscriptionId} {sp : List SubscriptionId}
    (hp : (owners.insert pid (((owners.lookup pid).getD []).insert id)).lookup p = some sp)
    (hx : x ∈ sp) : (p = pid ∧ x = id) ∨ ∃ sp', owners.lookup p = some sp' ∧ x ∈ sp' := by
  by_cases hpid : p = pid
  · subst hpid
    rw [AList.lookup_insert] at hp
    rw [← Option.some.inj hp, List.mem_insert_iff] at hx
    rcases hx with rfl | hx
    · exact .inl ⟨rfl, rfl⟩
    · cases ho : owners.lookup p with
      | none => simp [ho] at hx
      | some sp' => exact .inr ⟨sp', rfl, by simpa [ho] using hx⟩
  · rw [AList.lookup_insert_ne hpid] at hp
    exact .inr ⟨sp, hp, hx⟩

/-- The subscribing process becomes the owner of a new process mailbox. -/
theorem owner_added {id : SubscriptionId} (h : Bookkeeping m g) (pid : ProcessId)
    (hmb : ∃ mb, m.mailboxes.lookup id = some (some mb))
    (hfree : ∀ p sp, m.processSubscriptions.lookup p = some sp → id ∉ sp) :
    Bookkeeping { m with
      processSubscriptions := m.processSubscriptions.insert pid
        (((m.processSubscriptions.lookup pid).getD []).insert id) } g := by
  refine ⟨h.keys, h.acks_waiting, h.acks_nodup, h.acks_fresh, ?_, ?_, ?_, h.ids_fresh,
    h.kernel_reliable, h.list⟩
  · intro p sp hp x hx
    rcases mem_owner_insert hp hx with ⟨-, rfl⟩ | ⟨sp', hp', hx'⟩
    · exact hmb
    · exact h.owned p sp' hp' x hx'
  · intro p q sp sq hp hq hpq x hx hx'
    rcases mem_owner_insert hp hx with ⟨rfl, rfl⟩ | ⟨sp', hp', hx₁⟩ <;>
      rcases mem_owner_insert hq hx' with ⟨rfl, hxq⟩ | ⟨sq', hq', hx₂⟩
    · exact hpq rfl
    · exact hfree q sq' hq' hx₂
    · exact hfree p sp' hp' (hxq ▸ hx₁)
    · exact h.owners_disjoint p q sp' sq' hp' hq' hpq x hx₁ hx₂
  · intro p sp hp
    by_cases hpid : p = pid
    · subst hpid
      rw [AList.lookup_insert] at hp
      rw [← Option.some.inj hp]
      cases ho : m.processSubscriptions.lookup p with
      | none => simp
      | some sp' => exact (h.owned_nodup p sp' ho).insert
    · rw [AList.lookup_insert_ne hpid] at hp
      exact h.owned_nodup p sp hp

/-- Rewriting every process mailbox in place, each keeping its queue. -/
theorem updated {f : Mailbox → Mailbox} (h : Bookkeeping m g)
    (hf : ∀ mb, (f mb).queue.queue = mb.queue.queue) :
    Bookkeeping { m with mailboxes := m.mailboxes.updateAll fun _ v => v.map f } g := by
  have hl : ∀ id, (m.mailboxes.updateAll fun _ v => v.map f).lookup id =
      (m.mailboxes.lookup id).map (Option.map f) := fun id => AList.lookup_updateAll _ _ id
  have hv : ∀ v : Option Mailbox, mailboxAcks (v.map f) = mailboxAcks v := by
    rintro (_ | mb)
    · rfl
    · simp only [Option.map_some, mailboxAcks, hf]
  have hacks : allAcks { m with mailboxes := m.mailboxes.updateAll fun _ v => v.map f } g =
      allAcks m g := by
    have hq := AList.flatMap_entries_updateAll m.mailboxes (fun _ v => v.map f)
      fun _ v => mailboxAcks v
    simp only [hv] at hq
    simp only [allAcks, queuedAcks, hq]
  refine ⟨fun id => ?_, hacks ▸ h.acks_waiting, hacks ▸ h.acks_nodup, hacks ▸ h.acks_fresh, ?_,
    h.owners_disjoint, h.owned_nodup, h.ids_fresh, ?_, h.list⟩
  · rw [AList.mem_updateAll]
    exact h.keys id
  · intro pid subs hp id hid
    obtain ⟨mb, hmb⟩ := h.owned pid subs hp id hid
    exact ⟨f mb, by rw [hl, hmb]; rfl⟩
  · intro f' id ht
    rw [hl]
    cases hv' : m.mailboxes.lookup id with
    | none => simp
    | some v =>
      have := h.kernel_reliable f' id ht
      rw [hv'] at this
      cases v with
      | none => exact absurd rfl this
      | some mb => simp

/-- The acknowledge ids of one mailbox wait for delivery, each once. -/
theorem mailbox_acks {sub : SubscriptionId} {v : Option Mailbox} (h : Bookkeeping m g)
    (hl : m.mailboxes.lookup sub = some v) :
    (mailboxAcks v).Nodup ∧ ∀ a ∈ mailboxAcks v, a ∈ m.waitingForDelivery := by
  have hp := (queuedAcks_perm hl).append_right (g.map (·.2.2))
  have hnd : (mailboxAcks v ++ (queuedAcks (m.mailboxes.erase sub) ++ g.map (·.2.2))).Nodup := by
    simpa only [List.append_assoc] using hp.nodup_iff.mp h.acks_nodup
  refine ⟨(List.nodup_append.mp hnd).1, fun a ha => h.acks_waiting a ?_⟩
  exact hp.mem_iff.mpr (List.mem_append_left _ (List.mem_append_left _ ha))

end Bookkeeping

end D7os.Ipc

import D7os.Multitasking.Termination

/-!
# No process is scheduled twice

`src/multitasking/queues.rs` says that a trigger consumes its wait id, so that
"a process will never be returned twice to the scheduler". The *occupancy* of
the queues is the list of processes they hold, the running deque and the
process under each live wait id: `give` adds one, `take` removes the one it
returns, a trigger moves one to the running deque. Along any run, the processes
handed out and those still queued are a sub-multiset of those queued and given;
while wait ids are fresh, exactly as often as given.

The scheduler adds its running process; only `spawn`, with a pid above every pid
in use, makes the occupancy grow. So in every state a run of system calls, ticks,
terminations and IPC events reaches from `Scheduler::new`, no process is queued
twice and the running process is not queued.
-/

namespace D7os

namespace Queues

/-- The processes the queues hold, a process once for every place it holds. -/
def occupancy (q : Queues) : List ProcessId := q.running ++ q.waiting.values

/-- Every live wait id is below `next_waitid`, so `create_wait` never reuses one. -/
def FreshWaitIds (q : Queues) : Prop := ∀ w ∈ q.waiting, w.val < q.nextWaitid.val

theorem freshWaitIds_new : Queues.new.FreshWaitIds := fun _ h => absurd h (AList.notMem_empty _)

/-! ## One operation -/

section Steps

variable (q : Queues)

/-- A trigger moves the process of a live wait id to the running deque. -/
theorem triggerWait_occupancy (w : WaitId) : (q.triggerWait w).occupancy.Perm q.occupancy := by
  cases h : q.waiting.lookup w with
  | none =>
    rw [triggerWait, h]
  | some pid =>
    rw [triggerWait, h]
    show (pid :: (q.running ++ (q.waiting.erase w).values)).Perm (q.running ++ q.waiting.values)
    -- the process goes to the front; its entry leaves `waiting`
    exact List.perm_middle.symm.trans ((AList.values_perm_erase h).symm.append_left q.running)

theorem triggerAll_occupancy (ws : List WaitId) : (q.triggerAll ws).occupancy.Perm q.occupancy := by
  induction ws generalizing q with
  | nil => exact List.Perm.refl _
  | cons w ws ih => exact (ih (q.triggerWait w)).trans (triggerWait_occupancy q w)

/-- The sleepers `on_tick` wakes move to the running deque, one trigger each. -/
theorem onTickLoop_occupancy (now : BSPInstant) :
    ∀ (l : List (BSPInstant × WaitId)) (q : Queues), (onTickLoop now l q).occupancy.Perm q.occupancy
  | [], _ => List.Perm.refl _
  | (wakeup, waitId) :: rest, q => by
    by_cases h : wakeup ≤ now
    · rw [onTickLoop, if_pos h]
      exact (onTickLoop_occupancy now rest _).trans (triggerWait_occupancy q waitId)
    · rw [onTickLoop, if_neg h]
      exact List.Perm.refl _

theorem onTick_occupancy (now : BSPInstant) : (q.onTick now).occupancy.Perm q.occupancy :=
  onTickLoop_occupancy now q.waitSleeping q

theorem onExplicitEvent_occupancy (eventId : ExplicitEventId) :
    (q.onExplicitEvent eventId).occupancy.Perm q.occupancy := by
  cases h : q.waitEvent.lookup eventId with
  | none =>
    rw [onExplicitEvent, h]
  | some waitIds =>
    rw [onExplicitEvent, h]
    exact triggerAll_occupancy _ waitIds

/-- `on_process_over` drops the first occurrence of the completed process from
the running deque and wakes its waiters. -/
theorem onProcessOver_occupancy (completed : ProcessId) :
    (q.onProcessOver completed).occupancy.Perm (q.running.erase completed ++ q.waiting.values) := by
  cases h : q.waitProcess.lookup completed with
  | none =>
    dsimp only [onProcessOver]
    rw [h]
    rfl
  | some waitIds =>
    dsimp only [onProcessOver]
    rw [h]
    exact triggerAll_occupancy _ waitIds

theorem onProcessOver_subperm (completed : ProcessId) :
    (q.onProcessOver completed).occupancy.Subperm q.occupancy :=
  (q.onProcessOver_occupancy completed).subperm.trans
    ((List.erase_sublist).append_right q.waiting.values).subperm

/-- `take` hands out the front of the running deque and removes it. -/
theorem take_occupancy : q.occupancy = q.take.1.toList ++ q.take.2.occupancy := by
  unfold take
  split <;> rename_i h <;> simp only [occupancy, h, Option.toList, List.nil_append, List.cons_append]

/-- The wait structures `give_inner` fills hold wait ids, not processes. -/
theorem giveInner_occupancy {s : WaitFor} {w : WaitId} {q' : Queues} (h : q.giveInner s w = .ok q') :
    q'.occupancy = q.occupancy := by
  cases s with
  | Time t => cases h; rfl
  | Process p => cases h; rfl
  | Event e => cases h; rfl
  | None => cases h
  | FirstOf _ => cases h

theorem foldlM_giveInner_occupancy {w : WaitId} (targets : List WaitFor) {q' : Queues}
    (h : targets.foldlM (fun q target => q.giveInner target w) q = .ok q') : q'.occupancy = q.occupancy :=
  Except.foldlM_invariant (P := fun q' => q'.occupancy = q.occupancy)
    (fun _ _ _ ha hb => (giveInner_occupancy _ hb).trans ha) targets rfl h

/-- Under a fresh wait id, `create_wait` adds the process; under a reused one it
replaces the entry there. -/
theorem createWait_occupancy (pid : ProcessId) :
    (q.createWait pid).2.occupancy.Subperm (pid :: q.occupancy) :=
  ((List.subperm_append_left q.running).mpr (AList.values_insert_subperm _ _ _)).trans
    List.perm_middle.subperm

theorem createWait_occupancy_of_fresh {pid : ProcessId} (hq : q.FreshWaitIds) :
    (q.createWait pid).2.occupancy.Perm (pid :: q.occupancy) := by
  have hnone : q.waiting.lookup q.nextWaitid = none :=
    AList.lookup_eq_none.mpr fun hm => Nat.lt_irrefl _ (hq _ hm)
  show (q.running ++ (q.waiting.insert q.nextWaitid pid).values).Perm (pid :: q.occupancy)
  rw [AList.values_insert_of_lookup_none hnone]
  exact List.perm_middle

/-- The queues after `give` hold what they held and the given process. -/
theorem give_occupancy {pid : ProcessId} {s : WaitFor} {q' : Queues} (h : q.give pid s = .ok q') :
    (∃ q₁ : Queues, q₁.occupancy = q'.occupancy ∧
      (q₁ = { q with running := q.running ++ [pid] } ∨ q₁ = (q.createWait pid).2)) := by
  unfold give at h
  obtain ⟨s', -, h⟩ := Except.bind_eq_ok.mp h
  dsimp only at h
  split at h
  · cases h
    exact ⟨_, rfl, .inl rfl⟩
  · refine ⟨(q.createWait pid).2, ?_, .inr rfl⟩
    split at h
    · exact (foldlM_giveInner_occupancy _ _ h).symm
    · exact (giveInner_occupancy _ h).symm

theorem give_subperm {pid : ProcessId} {s : WaitFor} {q' : Queues} (h : q.give pid s = .ok q') :
    q'.occupancy.Subperm (pid :: q.occupancy) := by
  obtain ⟨q₁, hq₁, rfl | rfl⟩ := give_occupancy q h <;> rw [← hq₁]
  · exact (List.perm_append_singleton _ _ |>.append_right _).subperm
  · exact createWait_occupancy q pid

theorem give_perm {pid : ProcessId} {s : WaitFor} {q' : Queues} (hq : q.FreshWaitIds)
    (h : q.give pid s = .ok q') : q'.occupancy.Perm (pid :: q.occupancy) := by
  obtain ⟨q₁, hq₁, rfl | rfl⟩ := give_occupancy q h <;> rw [← hq₁]
  · exact List.perm_append_singleton _ _ |>.append_right _
  · exact createWait_occupancy_of_fresh q hq

/-! ### Wait ids stay fresh -/

theorem triggerWait_fresh {w : WaitId} (hq : q.FreshWaitIds) : (q.triggerWait w).FreshWaitIds := by
  cases h : q.waiting.lookup w with
  | none =>
    rw [triggerWait, h]
    exact hq
  | some pid =>
    rw [triggerWait, h]
    exact fun k hk => hq k (AList.mem_erase.mp hk).2

theorem triggerAll_fresh (ws : List WaitId) (hq : q.FreshWaitIds) : (q.triggerAll ws).FreshWaitIds := by
  induction ws generalizing q with
  | nil => exact hq
  | cons w ws ih => exact ih _ (q.triggerWait_fresh hq)

theorem onTickLoop_fresh (now : BSPInstant) :
    ∀ (l : List (BSPInstant × WaitId)) (q : Queues), q.FreshWaitIds → (onTickLoop now l q).FreshWaitIds
  | [], _, hq => hq
  | (wakeup, waitId) :: rest, q, hq => by
    by_cases h : wakeup ≤ now
    · rw [onTickLoop, if_pos h]
      exact onTickLoop_fresh now rest _ (q.triggerWait_fresh hq)
    · rw [onTickLoop, if_neg h]
      exact hq

theorem onExplicitEvent_fresh (eventId : ExplicitEventId) (hq : q.FreshWaitIds) :
    (q.onExplicitEvent eventId).FreshWaitIds := by
  cases h : q.waitEvent.lookup eventId with
  | none =>
    rw [onExplicitEvent, h]
    exact hq
  | some waitIds =>
    rw [onExplicitEvent, h]
    exact triggerAll_fresh _ waitIds hq

theorem onProcessOver_fresh (completed : ProcessId) (hq : q.FreshWaitIds) :
    (q.onProcessOver completed).FreshWaitIds := by
  cases h : q.waitProcess.lookup completed with
  | none =>
    dsimp only [onProcessOver]
    rw [h]
    exact hq
  | some waitIds =>
    dsimp only [onProcessOver]
    rw [h]
    exact triggerAll_fresh _ waitIds hq

/-- `create_wait` registers under `next_waitid` and moves the counter past it. -/
theorem createWait_fresh (pid : ProcessId) (hq : q.FreshWaitIds) : (q.createWait pid).2.FreshWaitIds := by
  intro k hk
  show k.val < q.nextWaitid.val + 1
  rcases (AList.mem_insert _).mp hk with rfl | hk
  · exact Nat.lt_succ_self _
  · exact Nat.lt_succ_of_lt (hq k hk)

theorem give_fresh {pid : ProcessId} {s : WaitFor} {q' : Queues} (hq : q.FreshWaitIds)
    (h : q.give pid s = .ok q') : q'.FreshWaitIds := by
  unfold give at h
  obtain ⟨s', -, h⟩ := Except.bind_eq_ok.mp h
  dsimp only at h
  split at h
  · cases h
    exact hq
  · -- `give_inner` writes only the wait structures
    have hfresh := q.createWait_fresh pid hq
    have hkeep : ∀ {q₁ q₂ : Queues} {t : WaitFor} {w : WaitId}, q₁.giveInner t w = .ok q₂ →
        q₂.waiting = q₁.waiting ∧ q₂.nextWaitid = q₁.nextWaitid := by
      intro q₁ q₂ t w ht
      cases t <;> cases ht <;> exact ⟨rfl, rfl⟩
    split at h
    · refine Except.foldlM_invariant (P := fun q₂ => q₂.FreshWaitIds) (fun q₁ _ q₂ h₁ ht => ?_) _ hfresh h
      obtain ⟨hw, hn⟩ := hkeep ht
      unfold FreshWaitIds
      rw [hw, hn]
      exact h₁
    · obtain ⟨hw, hn⟩ := hkeep h
      unfold FreshWaitIds
      rw [hw, hn]
      exact hfresh

end Steps

end Queues

/-! ## Runs of queue calls -/

namespace QueueCall

/-- The process a call hands out to the scheduler: `take`'s. -/
def handedOut (q : Queues) : QueueCall → Option ProcessId
  | .take => q.take.1
  | _ => none

/-- The process a call queues: `give`'s. -/
def given : QueueCall → Option ProcessId
  | .give pid _ => some pid
  | _ => none

/-- The process a call reports as over: `on_process_over`'s. -/
def completed : QueueCall → Option ProcessId
  | .onProcessOver pid => some pid
  | _ => none

variable {q q' : Queues} {c : QueueCall}

/-- **One call**: what it hands out and what stays queued is part of what was
queued and what it gives. -/
theorem apply_subperm (h : c.apply q = .ok q') :
    ((c.handedOut q).toList ++ q'.occupancy).Subperm (c.given.toList ++ q.occupancy) := by
  cases c with
  | give pid s => exact q.give_subperm h
  | take =>
    cases h
    rw [q.take_occupancy]
    exact List.Subperm.refl _
  | onTick now =>
    cases h
    exact (q.onTick_occupancy now).subperm
  | onProcessOver completed =>
    cases h
    exact q.onProcessOver_subperm completed
  | onExplicitEvent eventId =>
    cases h
    exact (q.onExplicitEvent_occupancy eventId).subperm

/-- **One call, counted**: with fresh wait ids, a process the call does not report
as over is kept exactly. -/
theorem apply_count (hq : q.FreshWaitIds) (h : c.apply q = .ok q') {p : ProcessId}
    (hp : c.completed ≠ some p) :
    ((c.handedOut q).toList ++ q'.occupancy).count p = (c.given.toList ++ q.occupancy).count p := by
  cases c with
  | give pid s => exact (q.give_perm hq h).count_eq p
  | take =>
    cases h
    rw [q.take_occupancy]
    rfl
  | onTick now =>
    cases h
    exact (q.onTick_occupancy now).count_eq p
  | onProcessOver completed =>
    cases h
    have hne : p ≠ completed := fun he => hp (congrArg some he.symm)
    show (q.onProcessOver completed).occupancy.count p = (q.running ++ q.waiting.values).count p
    rw [(q.onProcessOver_occupancy completed).count_eq, List.count_append, List.count_append,
      List.count_erase_of_ne hne]
  | onExplicitEvent eventId =>
    cases h
    exact (q.onExplicitEvent_occupancy eventId).count_eq p

theorem apply_fresh (hq : q.FreshWaitIds) (h : c.apply q = .ok q') : q'.FreshWaitIds := by
  cases c with
  | give pid s => exact q.give_fresh hq h
  | take =>
    cases h
    unfold Queues.take
    split <;> exact hq
  | onTick now =>
    cases h
    exact Queues.onTickLoop_fresh now _ _ hq
  | onProcessOver completed =>
    cases h
    exact q.onProcessOver_fresh completed hq
  | onExplicitEvent eventId =>
    cases h
    exact q.onExplicitEvent_fresh eventId hq

end QueueCall

/-- The processes a run of calls gives. -/
def givenBy (calls : List QueueCall) : List ProcessId := calls.flatMap fun c => c.given.toList

/-- A run of calls from `q` with the processes `take` hands out, in order; it stops
at the first panic. -/
def runHandingOut (q : Queues) : List QueueCall → Except Panic (List ProcessId × Queues)
  | [] => .ok ([], q)
  | c :: cs => do
    let q' ← c.apply q
    let (out, q'') ← runHandingOut q' cs
    pure ((c.handedOut q).toList ++ out, q'')

theorem runHandingOut_cons {q : Queues} {c : QueueCall} {cs : List QueueCall} {out : List ProcessId}
    {q'' : Queues} (h : runHandingOut q (c :: cs) = .ok (out, q'')) :
    ∃ q' out', c.apply q = .ok q' ∧ runHandingOut q' cs = .ok (out', q'') ∧
      out = (c.handedOut q).toList ++ out' := by
  unfold runHandingOut at h
  obtain ⟨q', hc, h⟩ := Except.bind_eq_ok.mp h
  obtain ⟨⟨out', q₁⟩, hr, h⟩ := Except.bind_eq_ok.mp h
  cases h
  exact ⟨q', out', hc, hr, rfl⟩

/-- **The run lemma**: the processes a run hands out, with those still queued,
are part of those queued at the start and those given. -/
theorem runHandingOut_subperm :
    ∀ (calls : List QueueCall) (q₀ : Queues) {out : List ProcessId} {q : Queues},
      runHandingOut q₀ calls = .ok (out, q) → (out ++ q.occupancy).Subperm (givenBy calls ++ q₀.occupancy)
  | [], q₀, out, q, h => by
    cases h
    exact List.Subperm.refl _
  | c :: cs, q₀, out, q, h => by
    obtain ⟨q', out', hc, hr, rfl⟩ := runHandingOut_cons h
    have hstep := QueueCall.apply_subperm hc
    have hrest := runHandingOut_subperm cs q' hr
    -- the first call's part, then the rest of the run's, each rearranged to the front
    show ((c.handedOut q₀).toList ++ out' ++ q.occupancy).Subperm
      (c.given.toList ++ givenBy cs ++ q₀.occupancy)
    rw [List.append_assoc, List.append_assoc]
    have hfirst : ((c.handedOut q₀).toList ++ (givenBy cs ++ q'.occupancy)).Subperm
        (givenBy cs ++ (c.given.toList ++ q₀.occupancy)) :=
      (List.perm_append_comm_assoc _ _ _).subperm.trans ((List.subperm_append_left _).mpr hstep)
    exact ((List.subperm_append_left _).mpr hrest).trans
      (hfirst.trans (List.perm_append_comm_assoc _ _ _).subperm)

/-- With fresh wait ids, the run keeps every process it does not report as over. -/
theorem runHandingOut_count :
    ∀ (calls : List QueueCall) (q₀ : Queues) {out : List ProcessId} {q : Queues} {p : ProcessId},
      q₀.FreshWaitIds → (∀ c ∈ calls, c.completed ≠ some p) → runHandingOut q₀ calls = .ok (out, q) →
        (out ++ q.occupancy).count p = (givenBy calls ++ q₀.occupancy).count p
  | [], q₀, out, q, p, _, _, h => by
    cases h
    rfl
  | c :: cs, q₀, out, q, p, hq, hp, h => by
    obtain ⟨q', out', hc, hr, rfl⟩ := runHandingOut_cons h
    have hstep := QueueCall.apply_count hq hc (hp c List.mem_cons_self)
    have hrest := runHandingOut_count cs q' (QueueCall.apply_fresh hq hc)
      (fun c' hc' => hp c' (List.mem_cons_of_mem c hc')) hr
    show ((c.handedOut q₀).toList ++ out' ++ q.occupancy).count p =
      (c.given.toList ++ givenBy cs ++ q₀.occupancy).count p
    simp only [List.count_append] at hstep hrest ⊢
    omega

/-- **`take` never hands out a process twice.** Along every run of `give`, `take`,
`on_tick`, `on_process_over` and `on_explicit_event` calls from `Queues::new`
that does not panic, the processes `take` hands out, together with those still
queued, are part of the processes given: each process is handed out at most as
often as it was given. And nothing is lost: a process that no call reports as
over is handed out or still queued exactly as often as it was given. -/
theorem take_hands_out_given_once (calls : List QueueCall) {out : List ProcessId} {q : Queues}
    (h : runHandingOut Queues.new calls = .ok (out, q)) :
    (out ++ q.occupancy).Subperm (givenBy calls) ∧
      ∀ p : ProcessId, (∀ c ∈ calls, c.completed ≠ some p) →
        out.count p + q.occupancy.count p = (givenBy calls).count p := by
  have hsub := runHandingOut_subperm calls Queues.new h
  rw [show Queues.new.occupancy = [] from rfl, List.append_nil] at hsub
  refine ⟨hsub, fun p hp => ?_⟩
  have hcount := runHandingOut_count calls Queues.new Queues.freshWaitIds_new hp h
  rwa [show Queues.new.occupancy = [] from rfl, List.append_nil, List.count_append] at hcount

/-- Processes 1 and 3 run; process 2 sleeps until time 5 under a wait id that also
waits for process 3; the tick at 5 wakes it, and `take` hands each out once. -/
theorem take_hands_out_sleeper_once :
    let calls := [QueueCall.give ⟨1⟩ .None, .give ⟨3⟩ .None, .give ⟨2⟩ (.FirstOf [.Time ⟨5⟩, .Process ⟨3⟩]),
      .take, .take, .onTick ⟨5⟩, .take, .take]
    ∃ out q, runHandingOut Queues.new calls = .ok (out, q) ∧ out = [⟨1⟩, ⟨3⟩, ⟨2⟩] ∧
      ((out ++ q.occupancy).Subperm (givenBy calls) ∧
        ∀ p : ProcessId, (∀ c ∈ calls, c.completed ≠ some p) →
          out.count p + q.occupancy.count p = (givenBy calls).count p) :=
  ⟨_, _, rfl, rfl, take_hands_out_given_once _ rfl⟩

/-! ## The scheduler -/

namespace Scheduler

open Ipc

/-- The processes the scheduler holds to run: the running one, then those of the
queues. -/
def occupancy (s : Scheduler) : List ProcessId := s.running.toList ++ s.queues.occupancy

/-- **No process is scheduled twice**: none is queued twice or queued while it
runs, and every pid the scheduler holds is below `next_pid`. -/
structure Exclusive (s : Scheduler) : Prop where
  nodup : s.occupancy.Nodup
  lt_nextPid : ∀ p ∈ s.occupancy, p.val < s.nextPid.val

/-- A step that schedules no new process and keeps the pid counter. -/
structure Shrinks (s s' : Scheduler) : Prop where
  occupancy : s'.occupancy.Subperm s.occupancy
  nextPid : s'.nextPid = s.nextPid

variable {s s' s'' : Scheduler}

theorem Shrinks.refl (s : Scheduler) : Shrinks s s := ⟨List.Subperm.refl _, rfl⟩

theorem Shrinks.trans (h₁ : Shrinks s s') (h₂ : Shrinks s' s'') : Shrinks s s'' :=
  ⟨h₂.occupancy.trans h₁.occupancy, h₂.nextPid.trans h₁.nextPid⟩

/-- A step that only rearranges the queues. -/
theorem Shrinks.of_queues (hr : s'.running = s.running) (hn : s'.nextPid = s.nextPid)
    (hq : s'.queues.occupancy.Subperm s.queues.occupancy) : Shrinks s s' :=
  ⟨by rw [Scheduler.occupancy, Scheduler.occupancy, hr]; exact (List.subperm_append_left _).mpr hq, hn⟩

theorem Exclusive.of_shrinks (h : s.Exclusive) (hs : Shrinks s s') : s'.Exclusive := by
  obtain ⟨l, hperm, hsub⟩ := hs.occupancy
  refine ⟨hperm.nodup_iff.mp (h.nodup.sublist hsub), fun p hp => ?_⟩
  rw [hs.nextPid]
  exact h.lt_nextPid p (hs.occupancy.subset hp)

theorem exclusive_new : Scheduler.new.Exclusive :=
  ⟨List.nodup_nil, fun _ hp => absurd hp List.not_mem_nil⟩

/-! ### One operation -/

theorem onExplicitEvent_shrinks (eventId : ExplicitEventId) : Shrinks s (s.onExplicitEvent eventId) :=
  .of_queues rfl rfl (s.queues.onExplicitEvent_occupancy eventId).subperm

theorem foldl_onExplicitEvent_shrinks (events : List ExplicitEventId) :
    Shrinks s (events.foldl onExplicitEvent s) := by
  induction events generalizing s with
  | nil => exact .refl s
  | cons e events ih => exact (onExplicitEvent_shrinks e).trans ih

theorem publishTerminated_shrinks {ipc ipc' : Manager} {payload : List UInt8}
    (h : s.publishTerminated ipc payload = .ok (s', ipc')) : Shrinks s s' := by
  obtain ⟨events, rfl⟩ := publishTerminated_eq h
  exact foldl_onExplicitEvent_shrinks events

theorem stop_shrinks {ipc ipc' : Manager} {target : ProcessId} {process : Process}
    {payload : List UInt8} (h : s.stop ipc target process payload = .ok (s', ipc')) : Shrinks s s' := by
  unfold stop at h
  obtain ⟨⟨ipc₁, events⟩, -, h⟩ := Except.bind_eq_ok.mp h
  -- the process leaves the running deque, then two rounds of wake-ups
  have hover : Shrinks s { s with
      processes := s.processes.erase target
      queues := s.queues.onProcessOver process.id } :=
    .of_queues rfl rfl (s.queues.onProcessOver_subperm process.id)
  exact (hover.trans (foldl_onExplicitEvent_shrinks events)).trans (publishTerminated_shrinks h)

/-- Clearing the running process drops it from the occupancy. -/
theorem shrinks_stopRunning (s : Scheduler) :
    Shrinks s { s with running := none, runningTimesliceEnd := none } :=
  ⟨(List.sublist_append_right s.running.toList _).subperm, rfl⟩

theorem terminate_shrinks {ipc ipc' : Manager} {target : ProcessId} {payload : List UInt8}
    (h : s.terminate ipc target payload = .ok (s', ipc')) : Shrinks s s' := by
  unfold terminate at h
  dsimp only at h
  -- the process is stopped if it is alive; then `running` is cleared if it was the target
  have hend : ∀ {s₁ : Scheduler} {ipc₁ : Manager}, Shrinks s s₁ →
      (if s₁.running = some target then pure ({ s₁ with running := none, runningTimesliceEnd := none }, ipc₁)
        else pure (s₁, ipc₁) : Except Panic (Scheduler × Manager)) = .ok (s', ipc') → Shrinks s s' := by
    intro s₁ ipc₁ hs₁ h
    split at h
    · cases h
      exact hs₁.trans (shrinks_stopRunning s₁)
    · cases h
      exact hs₁
  cases hl : s.processes.lookup target with
  | none =>
    rw [hl] at h
    exact hend (.refl s) h
  | some process =>
    rw [hl] at h
    obtain ⟨⟨s₁, ipc₁⟩, h₁, h⟩ := Except.bind_eq_ok.mp h
    exact hend (stop_shrinks h₁) h

/-- `switch` with nothing to requeue: the process taken, if any, becomes the
running one, and the scheduler holds what the queues held. -/
theorem switch_none_occupancy {timesliceEnd : BSPInstant} {sw : ProcessSwitch}
    (h : s.switch none timesliceEnd = .ok (s', sw)) :
    s'.occupancy = s.queues.occupancy ∧ s'.nextPid = s.nextPid := by
  unfold switch at h
  dsimp only at h
  obtain ⟨s₁, hs₁, h⟩ := Except.bind_eq_ok.mp h
  cases hs₁
  have htake := s.queues.take_occupancy
  rcases ht : s.queues.take with ⟨_ | pid, queues⟩
  · rw [ht] at h htake
    cases h
    exact ⟨htake.symm, rfl⟩
  · rw [ht] at h htake
    dsimp only at h
    split at h
    · cases h
    · cases h
      exact ⟨htake.symm, rfl⟩

theorem switch_shrinks {schedule : Option WaitFor} {timesliceEnd : BSPInstant} {sw : ProcessSwitch}
    (h : s.switch schedule timesliceEnd = .ok (s', sw)) : Shrinks s s' := by
  cases schedule with
  | none =>
    obtain ⟨ho, hn⟩ := switch_none_occupancy h
    exact ⟨by rw [ho]; exact (List.sublist_append_right _ _).subperm, hn⟩
  | some w =>
    cases hr : s.running with
    | none =>
      -- nothing runs, so nothing is requeued: the rest is `switch(None)`
      have h' : s.switch none timesliceEnd = .ok (s', sw) := by
        unfold switch at h ⊢
        rw [hr] at h
        exact h
      obtain ⟨ho, hn⟩ := switch_none_occupancy h'
      exact ⟨by rw [ho]; exact (List.sublist_append_right _ _).subperm, hn⟩
    | some runningPid =>
      unfold switch at h
      rw [hr] at h
      dsimp only at h
      obtain ⟨queues, hg, h⟩ := Except.bind_eq_ok.mp h
      obtain ⟨s₁, hs₁, h⟩ := Except.bind_eq_ok.mp h
      cases hs₁
      -- the running process is queued again, then the rest is `switch(None)`
      have h' : ({ s with queues } : Scheduler).switch none timesliceEnd = .ok (s', sw) := h
      obtain ⟨ho, hn⟩ := switch_none_occupancy h'
      refine ⟨?_, hn⟩
      rw [ho, Scheduler.occupancy, hr]
      exact s.queues.give_subperm hg

theorem switchCurrentOrNext_shrinks {sw : ProcessSwitch} (h : s.switchCurrentOrNext = .ok (s', sw)) :
    Shrinks s s' := by
  unfold switchCurrentOrNext at h
  cases hr : s.running with
  | none =>
    rw [hr] at h
    dsimp only at h
    -- the process taken becomes the running one
    have hs₁ : Shrinks s { s with running := s.queues.take.1, queues := s.queues.take.2 } := by
      refine ⟨?_, rfl⟩
      show (s.queues.take.1.toList ++ s.queues.take.2.occupancy).Subperm (s.running.toList ++ s.queues.occupancy)
      rw [hr, ← s.queues.take_occupancy]
      exact List.Subperm.refl _
    split at h
    · split at h
      · cases h
      · cases h
        exact hs₁
    · cases h
      exact hs₁
  | some pid =>
    rw [hr] at h
    dsimp only at h
    rw [hr] at h
    dsimp only at h
    split at h
    · cases h
    · cases h
      exact .refl s

theorem tick_shrinks {now timesliceEnd : BSPInstant} {sw : ProcessSwitch}
    (h : s.tick now timesliceEnd = .ok (s', sw)) : Shrinks s s' := by
  have h' : ({ s with queues := s.queues.onTick now } : Scheduler).switch (some .None) timesliceEnd =
      .ok (s', sw) := h
  have hticked : Shrinks s { s with queues := s.queues.onTick now } :=
    .of_queues rfl rfl (s.queues.onTick_occupancy now).subperm
  exact hticked.trans (switch_shrinks h')

theorem terminateAndSwitch_shrinks {ipc ipc' : Manager} {target : ProcessId} {payload : List UInt8}
    {timesliceEnd : BSPInstant} {r : Scheduler × ProcessSwitch}
    (h : s.terminateAndSwitch ipc target payload timesliceEnd = .ok (r, ipc')) : Shrinks s r.1 := by
  unfold terminateAndSwitch at h
  obtain ⟨⟨s₁, ipc₁⟩, h₁, h⟩ := Except.bind_eq_ok.mp h
  dsimp only at h
  have hs₁ := terminate_shrinks h₁
  split at h
  · obtain ⟨r₁, h₂, h⟩ := Except.bind_eq_ok.mp h
    cases h
    exact hs₁.trans (switch_shrinks h₂)
  · obtain ⟨r₁, h₂, h⟩ := Except.bind_eq_ok.mp h
    cases h
    exact hs₁.trans (switchCurrentOrNext_shrinks h₂)

/-- `spawn` queues a pid above every pid in use and moves the counter past it. -/
theorem spawn_exclusive {create : ProcessId → Except OutOfMemory Process}
    {r : Except OutOfMemory ProcessId} (hs : s.Exclusive) (h : s.spawn create = .ok (s', r)) :
    s'.Exclusive := by
  unfold spawn at h
  dsimp only at h
  have hfresh : s.nextPid ∉ s.occupancy := fun hm => Nat.lt_irrefl _ (hs.lt_nextPid _ hm)
  split at h
  · cases h
    exact ⟨hs.nodup, fun p hp => Nat.lt_succ_of_lt (hs.lt_nextPid p hp)⟩
  · obtain ⟨queues, hg, h⟩ := Except.bind_eq_ok.mp h
    cases h
    -- the new pid joins the queues; no other process does
    have hsub : (s.running.toList ++ queues.occupancy).Subperm (s.nextPid :: s.occupancy) :=
      ((List.subperm_append_left _).mpr (Queues.give_subperm _ hg)).trans List.perm_middle.subperm
    have hmem := hsub.subset
    obtain ⟨l, hperm, hsl⟩ := hsub
    refine ⟨hperm.nodup_iff.mp ((List.nodup_cons.mpr ⟨hfresh, hs.nodup⟩).sublist hsl), fun p hp => ?_⟩
    rcases List.mem_cons.mp (hmem hp) with rfl | hp
    · exact Nat.lt_succ_self _
    · exact Nat.lt_succ_of_lt (hs.lt_nextPid p hp)

end Scheduler

/-! ## Runs of the scheduler -/

/-- What the kernel asks of the scheduler: `spawn` from `exec`, `terminate` of a
process whose owner died, `switch` after a system call, `switch_current_or_next`
on interrupts, `tick` on the timer deadline, `terminate_and_switch` on an exit or
a fault, and `on_explicit_event` for the events IPC relays. -/
inductive SchedulerCall
  | spawn (create : ProcessId → Except OutOfMemory Process)
  | terminate (target : ProcessId) (payload : List UInt8)
  | switch (schedule : Option WaitFor) (timesliceEnd : BSPInstant)
  | switchCurrentOrNext
  | tick (now timesliceEnd : BSPInstant)
  | terminateAndSwitch (target : ProcessId) (payload : List UInt8) (timesliceEnd : BSPInstant)
  | onExplicitEvent (eventId : ExplicitEventId)

/-- One call, on the scheduler and the IPC manager `terminate` reaches. -/
def SchedulerCall.apply (w : Scheduler × Ipc.Manager) : SchedulerCall → Except Panic (Scheduler × Ipc.Manager)
  | .spawn create => (w.1.spawn create).map fun r => (r.1, w.2)
  | .terminate target payload => w.1.terminate w.2 target payload
  | .switch schedule timesliceEnd => (w.1.switch schedule timesliceEnd).map fun r => (r.1, w.2)
  | .switchCurrentOrNext => w.1.switchCurrentOrNext.map fun r => (r.1, w.2)
  | .tick now timesliceEnd => (w.1.tick now timesliceEnd).map fun r => (r.1, w.2)
  | .terminateAndSwitch target payload timesliceEnd =>
    (w.1.terminateAndSwitch w.2 target payload timesliceEnd).map fun r => (r.1.1, r.2)
  | .onExplicitEvent eventId => .ok (w.1.onExplicitEvent eventId, w.2)

/-- A run of scheduler calls, stopped by the first panic. -/
def runScheduler (w : Scheduler × Ipc.Manager) (calls : List SchedulerCall) :
    Except Panic (Scheduler × Ipc.Manager) :=
  calls.foldlM SchedulerCall.apply w

theorem SchedulerCall.apply_exclusive {w w' : Scheduler × Ipc.Manager} {c : SchedulerCall}
    (hw : w.1.Exclusive) (h : c.apply w = .ok w') : w'.1.Exclusive := by
  cases c with
  | spawn create =>
    obtain ⟨r, hr, rfl⟩ := Except.map_eq_ok.mp h
    exact Scheduler.spawn_exclusive hw hr
  | terminate target payload => exact hw.of_shrinks (Scheduler.terminate_shrinks h)
  | switch schedule timesliceEnd =>
    obtain ⟨r, hr, rfl⟩ := Except.map_eq_ok.mp h
    exact hw.of_shrinks (Scheduler.switch_shrinks hr)
  | switchCurrentOrNext =>
    obtain ⟨r, hr, rfl⟩ := Except.map_eq_ok.mp h
    exact hw.of_shrinks (Scheduler.switchCurrentOrNext_shrinks hr)
  | tick now timesliceEnd =>
    obtain ⟨r, hr, rfl⟩ := Except.map_eq_ok.mp h
    exact hw.of_shrinks (Scheduler.tick_shrinks hr)
  | terminateAndSwitch target payload timesliceEnd =>
    obtain ⟨r, hr, rfl⟩ := Except.map_eq_ok.mp h
    exact hw.of_shrinks (Scheduler.terminateAndSwitch_shrinks hr)
  | onExplicitEvent eventId =>
    cases h
    exact hw.of_shrinks (Scheduler.onExplicitEvent_shrinks eventId)

/-- **No process is scheduled twice.** In every state that a run of scheduler
calls reaches from `Scheduler::new`, with any IPC manager, no process is queued
twice, the running process is not queued, and every pid the scheduler holds is
below `next_pid`. -/
theorem no_process_scheduled_twice (ipc : Ipc.Manager) (calls : List SchedulerCall)
    {s : Scheduler} {ipc' : Ipc.Manager} (h : runScheduler (Scheduler.new, ipc) calls = .ok (s, ipc')) :
    s.occupancy.Nodup ∧ ∀ p ∈ s.occupancy, p.val < s.nextPid.val := by
  have hs : s.Exclusive :=
    Except.foldlM_invariant (P := fun w => w.1.Exclusive) (fun _ _ _ hw hc => SchedulerCall.apply_exclusive hw hc)
      calls Scheduler.exclusive_new h
  exact ⟨hs.nodup, hs.lt_nextPid⟩

/-- Two processes are spawned; the first runs, sleeps and is woken by the tick;
the second is terminated while it waits for the first, and its wait id stays in
`waiting`: it is still held once. -/
theorem no_process_scheduled_twice_in_run :
    let create : ProcessId → Except OutOfMemory Process := fun pid => .ok ⟨pid, false⟩
    let calls := [SchedulerCall.spawn create, .spawn create, .switch none ⟨0⟩,
      .switch (some (.Time ⟨5⟩)) ⟨0⟩, .switch (some (.Process ⟨1⟩)) ⟨0⟩, .tick ⟨5⟩ ⟨10⟩,
      .terminate ⟨2⟩ []]
    ∃ s ipc', runScheduler (Scheduler.new, Ipc.Manager.new) calls = .ok (s, ipc') ∧
      s.occupancy = [⟨1⟩, ⟨2⟩] ∧
      (s.occupancy.Nodup ∧ ∀ p ∈ s.occupancy, p.val < s.nextPid.val) :=
  by
    intro _ calls
    exact ⟨_, _, rfl, rfl, no_process_scheduled_twice Ipc.Manager.new calls rfl⟩

end D7os

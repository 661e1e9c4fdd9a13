import D7os.Multitasking.WaitFor
import D7os.Lib.List
import D7os.Lib.Except

/-!
# Scheduler queues

`src/multitasking/queues.rs` and `WaitFor::reduce_queues`. A process is either in
the running deque or registered under a `WaitId` in `waiting`, with that wait id
stored in any number of wait structures (the sleep list, `wait_process`,
`wait_event`). The first trigger of a wait id consumes it and pushes the process
to the front of the running deque; later triggers of the same id find nothing.

Deques and the sleep list are lists (front first), hash sets lists without
duplicates.
-/

namespace D7os

/-- `WaitId(u64)`: internal wait id for scheduler queues. -/
structure WaitId where
  val : Nat
  deriving DecidableEq, Repr

/-- `WaitId::take`: the id, and the counter moved past it. -/
def WaitId.take (w : WaitId) : WaitId × WaitId := (w, ⟨w.val + 1⟩)

structure Queues where
  /-- Processes currently in the running queue -/
  running : List ProcessId
  /-- Processes waiting for some trigger, by the wait id they were queued under -/
  waiting : HashMap WaitId ProcessId
  /-- Next available `WaitId` -/
  nextWaitid : WaitId
  /-- Sleeping processes, kept sorted by the wake-up time -/
  waitSleeping : List (BSPInstant × WaitId)
  /-- Waiting for a process to complete -/
  waitProcess : HashMap ProcessId (List WaitId)
  /-- Waiting for an explicit event -/
  waitEvent : HashMap ExplicitEventId (List WaitId)

/-- `p_index_vecdeque`: the first index whose key is greater than `t`. -/
def pIndexVecdeque {K V : Type} [LT K] [DecidableRel (α := K) (· < ·)] (v : List (K × V))
    (t : K) : Nat :=
  v.findIdx fun e => decide (t < e.1)

namespace Queues

def new : Queues := ⟨[], ∅, ⟨0⟩, [], ∅, ∅⟩

/-- `process_exists`: the process is running or waits under some id. -/
def processExists (q : Queues) (pid : ProcessId) : Bool :=
  q.running.contains pid || q.waiting.entries.any fun e => e.2 == pid

def createWait (q : Queues) (pid : ProcessId) : WaitId × Queues :=
  let (waitId, nextWaitid) := q.nextWaitid.take
  (waitId, { q with nextWaitid, waiting := q.waiting.insert waitId pid })

/-- `trigger_wait`: a consumed wait id is ignored; otherwise the process goes to
the front of the running deque. -/
def triggerWait (q : Queues) (waitId : WaitId) : Queues :=
  match q.waiting.lookup waitId with
  | some pid => { q with waiting := q.waiting.erase waitId, running := pid :: q.running }
  | none => q

/-- `HashSet::insert` of `entry(key).or_default()`. -/
def addWait {K : Type} [DecidableEq K] (m : HashMap K (List WaitId)) (key : K) (waitId : WaitId) :
    HashMap K (List WaitId) :=
  m.insert key (((m.lookup key).getD []).insert waitId)

def giveInner (q : Queues) (s : WaitFor) (waitId : WaitId) : Except Panic Queues :=
  match s with
  | .Time instant =>
    let i := pIndexVecdeque q.waitSleeping instant
    .ok { q with waitSleeping := q.waitSleeping.insertIdx i (instant, waitId) }
  | .Process waitForPid => .ok { q with waitProcess := addWait q.waitProcess waitForPid waitId }
  | .Event eventId => .ok { q with waitEvent := addWait q.waitEvent eventId waitId }
  | .None => .error "WaitFor::None inside of WaitFor::FirstOf"
  | .FirstOf _ => .error "Nested WaitFor::FirstOf"

/-- Whether a `WaitFor` names a completed process other than the current one. -/
def processDone (q : Queues) (current p : ProcessId) : Bool :=
  current != p && !q.processExists p

end Queues

/-- `WaitFor::reduce_queues`: a wait for a completed process is no wait at all. -/
def WaitFor.reduceQueues (s : WaitFor) (qs : Queues) (current : ProcessId) : Except Panic WaitFor :=
  match s with
  | .Process p => if qs.processDone current p then .ok .None else s.reduce
  | .FirstOf subevents =>
    if subevents.any (fun e => match e with
        | .Process p => qs.processDone current p
        | _ => false) then .ok .None
    else s.reduce
  | _ => s.reduce

namespace Queues

/-- `give`: queue the process until the condition holds. -/
def give (q : Queues) (pid : ProcessId) (s : WaitFor) : Except Panic Queues := do
  let s ← s.reduceQueues q pid
  if s.isNone then pure { q with running := q.running ++ [pid] }
  else
    let (waitId, q) := q.createWait pid
    match s with
    | .FirstOf targets => targets.foldlM (fun q target => q.giveInner target waitId) q
    | s => q.giveInner s waitId

/-- `take`: the process to run next, removed from the running deque. -/
def take (q : Queues) : Option ProcessId × Queues :=
  match q.running with
  | [] => (none, q)
  | pid :: rest => (some pid, { q with running := rest })

/-- The loop of `on_tick`: pop and trigger every sleeper whose time has come. -/
def onTickLoop (now : BSPInstant) : List (BSPInstant × WaitId) → Queues → Queues
  | [], q => { q with waitSleeping := [] }
  | (wakeup, waitId) :: rest, q =>
    if wakeup ≤ now then onTickLoop now rest (q.triggerWait waitId)
    else { q with waitSleeping := (wakeup, waitId) :: rest }

def onTick (q : Queues) (now : BSPInstant) : Queues := onTickLoop now q.waitSleeping q

def triggerAll (q : Queues) (waitIds : List WaitId) : Queues :=
  waitIds.foldl triggerWait q

/-- `on_process_over`: drop the first occurrence from the running deque and wake
the waiters of the process. -/
def onProcessOver (q : Queues) (completed : ProcessId) : Queues :=
  let q := { q with running := q.running.erase completed }
  match q.waitProcess.lookup completed with
  | some waitIds => triggerAll { q with waitProcess := q.waitProcess.erase completed } waitIds
  | none => q

def onExplicitEvent (q : Queues) (eventId : ExplicitEventId) : Queues :=
  match q.waitEvent.lookup eventId with
  | some waitIds => triggerAll { q with waitEvent := q.waitEvent.erase eventId } waitIds
  | none => q

/-- `next_wakeup`: the wake-up time at the front of the sleep list. -/
def nextWakeup (q : Queues) : Option BSPInstant := q.waitSleeping.head?.map Prod.fst

end Queues

/-! ## The sleep list stays sorted

`give` inserts a sleeper at the index `p_index_vecdeque` finds, the first entry
due strictly later; `on_tick` pops from the front while the front is due. Over
a list sorted by wake-up time the first is an insertion after every entry due
at or before the new time, and the second takes exactly the entries due by
`now`. The other calls leave the sleep list alone, so every run keeps it sorted.
-/

/-- The calls the scheduler makes on its queues. -/
inductive QueueCall
  | give (pid : ProcessId) (s : WaitFor)
  | take
  | onTick (now : BSPInstant)
  | onProcessOver (completed : ProcessId)
  | onExplicitEvent (eventId : ExplicitEventId)

def QueueCall.apply (q : Queues) : QueueCall → Except Panic Queues
  | .give pid s => q.give pid s
  | .take => .ok q.take.2
  | .onTick now => .ok (q.onTick now)
  | .onProcessOver completed => .ok (q.onProcessOver completed)
  | .onExplicitEvent eventId => .ok (q.onExplicitEvent eventId)

/-- A run of calls from `q`, stopped by the first panic. -/
def runCalls (q : Queues) (calls : List QueueCall) : Except Panic Queues :=
  calls.foldlM QueueCall.apply q

/-- Sorted by wake-up time, earliest first. -/
def SleepSorted (l : List (BSPInstant × WaitId)) : Prop := l.Pairwise fun a b => a.1 ≤ b.1

theorem sleepSorted_new : SleepSorted Queues.new.waitSleeping := List.Pairwise.nil

theorem pIndexVecdeque_eq (l : List (BSPInstant × WaitId)) (t : BSPInstant) :
    pIndexVecdeque l t = (l.takeWhile fun e => e.1 ≤ t).length := by
  rw [pIndexVecdeque, List.findIdx_eq_length_takeWhile]
  congr 2
  funext e
  rw [Bool.not_eq_eq_eq_not, ← decide_not]
  exact decide_eq_decide.mpr BSPInstant.not_le.symm

/-- Due by `t` is closed downwards along a sorted list. -/
theorem due_of_le {t : BSPInstant} (a b : BSPInstant × WaitId) (hab : a.1 ≤ b.1)
    (hb : decide (b.1 ≤ t) = true) : decide (a.1 ≤ t) = true :=
  decide_eq_true (BSPInstant.le_trans hab (of_decide_eq_true hb))

theorem SleepSorted.takeWhile_eq {l : List (BSPInstant × WaitId)} (hl : SleepSorted l) (t : BSPInstant) :
    (l.takeWhile fun e => e.1 ≤ t) = l.filter fun e => e.1 ≤ t :=
  List.takeWhile_eq_filter_of_pairwise due_of_le hl

theorem SleepSorted.dropWhile_eq {l : List (BSPInstant × WaitId)} (hl : SleepSorted l) (t : BSPInstant) :
    (l.dropWhile fun e => e.1 ≤ t) = l.filter fun e => t < e.1 := by
  rw [List.dropWhile_eq_filter_of_pairwise due_of_le hl]
  apply List.filter_congr
  intro e _
  rw [← decide_not]
  exact decide_eq_decide.mpr BSPInstant.not_le

/-- **Where `give` puts a sleeper**: after every entry due at or before its time,
before every later one, and the others in their order. -/
theorem insertIdx_pIndexVecdeque {l : List (BSPInstant × WaitId)} (hl : SleepSorted l) (t : BSPInstant)
    (w : WaitId) :
    l.insertIdx (pIndexVecdeque l t) (t, w) =
      (l.filter fun e => e.1 ≤ t) ++ (t, w) :: l.filter fun e => t < e.1 := by
  have hsplit := List.insertIdx_append_length (l.takeWhile fun e => e.1 ≤ t)
    (l.dropWhile fun e => e.1 ≤ t) (t, w)
  rw [List.takeWhile_append_dropWhile] at hsplit
  rw [pIndexVecdeque_eq, hsplit, hl.takeWhile_eq, hl.dropWhile_eq]

theorem SleepSorted.insert {l : List (BSPInstant × WaitId)} (hl : SleepSorted l) (t : BSPInstant) (w : WaitId) :
    SleepSorted (l.insertIdx (pIndexVecdeque l t) (t, w)) := by
  rw [insertIdx_pIndexVecdeque hl]
  unfold SleepSorted
  rw [List.pairwise_append, List.pairwise_cons]
  refine ⟨hl.filter _, ⟨fun b hb => ?_, hl.filter _⟩, fun a ha b hb => ?_⟩
  · -- every later entry is due after `t`
    exact Nat.le_of_lt (of_decide_eq_true (List.mem_filter.mp hb).2)
  · have hat : a.1 ≤ t := of_decide_eq_true (List.mem_filter.mp ha).2
    rcases List.mem_cons.mp hb with rfl | hb
    · exact hat
    · exact Nat.le_of_lt (Nat.lt_of_le_of_lt hat (of_decide_eq_true (List.mem_filter.mp hb).2))

namespace Queues

@[simp] theorem triggerWait_waitSleeping (q : Queues) (w : WaitId) :
    (q.triggerWait w).waitSleeping = q.waitSleeping := by
  unfold triggerWait
  split <;> rfl

@[simp] theorem triggerAll_waitSleeping (q : Queues) (ws : List WaitId) :
    (q.triggerAll ws).waitSleeping = q.waitSleeping := by
  induction ws generalizing q with
  | nil => rfl
  | cons w ws ih => exact (ih (q.triggerWait w)).trans (triggerWait_waitSleeping q w)

@[simp] theorem take_waitSleeping (q : Queues) : q.take.2.waitSleeping = q.waitSleeping := by
  unfold take
  split <;> rfl

@[simp] theorem onProcessOver_waitSleeping (q : Queues) (completed : ProcessId) :
    (q.onProcessOver completed).waitSleeping = q.waitSleeping := by
  dsimp only [onProcessOver]
  split <;> simp

@[simp] theorem onExplicitEvent_waitSleeping (q : Queues) (eventId : ExplicitEventId) :
    (q.onExplicitEvent eventId).waitSleeping = q.waitSleeping := by
  dsimp only [onExplicitEvent]
  split <;> simp

/-- The loop of `on_tick` triggers the longest due prefix, in order, and keeps the rest. -/
theorem onTickLoop_eq (now : BSPInstant) : ∀ (l : List (BSPInstant × WaitId)) (q : Queues),
    onTickLoop now l q =
      { q.triggerAll ((l.takeWhile fun e => e.1 ≤ now).map Prod.snd) with
        waitSleeping := l.dropWhile fun e => e.1 ≤ now }
  | [], _ => rfl
  | (wakeup, waitId) :: rest, q => by
    by_cases h : wakeup ≤ now
    · rw [onTickLoop, if_pos h, onTickLoop_eq now rest, List.takeWhile_cons_of_pos (by simpa using h),
        List.dropWhile_cons_of_pos (by simpa using h)]
      rfl
    · rw [onTickLoop, if_neg h, List.takeWhile_cons_of_neg (by simpa using h),
        List.dropWhile_cons_of_neg (by simpa using h)]
      rfl

/-- **What `on_tick` does** on a sorted sleep list: it triggers, in order, exactly
the sleepers due by `now`, and keeps the later ones in order. -/
theorem onTick_eq {q : Queues} (hq : SleepSorted q.waitSleeping) (now : BSPInstant) :
    q.onTick now =
      { q.triggerAll ((q.waitSleeping.filter fun e => e.1 ≤ now).map Prod.snd) with
        waitSleeping := q.waitSleeping.filter fun e => now < e.1 } := by
  rw [onTick, onTickLoop_eq, hq.takeWhile_eq, hq.dropWhile_eq]

/-- `next_wakeup` is the earliest time of a sorted sleep list. -/
theorem nextWakeup_eq_some {q : Queues} (hq : SleepSorted q.waitSleeping) {t : BSPInstant}
    (h : q.nextWakeup = some t) : (∃ w, (t, w) ∈ q.waitSleeping) ∧ ∀ e ∈ q.waitSleeping, t ≤ e.1 := by
  unfold nextWakeup at h
  unfold SleepSorted at hq
  cases hl : q.waitSleeping with
  | nil =>
    rw [hl] at h
    cases h
  | cons e rest =>
    rw [hl] at h hq
    obtain rfl : e.1 = t := Option.some.inj h
    refine ⟨⟨e.2, List.mem_cons_self⟩, fun x hx => ?_⟩
    rcases List.mem_cons.mp hx with rfl | hx
    · exact BSPInstant.le_refl _
    · exact (List.pairwise_cons.mp hq).1 x hx

theorem nextWakeup_eq_none_iff (q : Queues) : q.nextWakeup = none ↔ q.waitSleeping = [] := by
  cases hl : q.waitSleeping <;> simp [nextWakeup, hl]

/-- `next_wakeup` of a non-empty sorted sleep list is some time, the earliest of the list. -/
theorem nextWakeup_total {q : Queues} (hq : SleepSorted q.waitSleeping) (hne : q.waitSleeping ≠ []) :
    ∃ t, q.nextWakeup = some t ∧ (∃ w, (t, w) ∈ q.waitSleeping) ∧ ∀ e ∈ q.waitSleeping, t ≤ e.1 := by
  obtain ⟨e, rest, hl⟩ := List.exists_cons_of_ne_nil hne
  have hnext : q.nextWakeup = some e.1 := by simp [nextWakeup, hl]
  exact ⟨e.1, hnext, nextWakeup_eq_some hq hnext⟩

/-! ### Every call keeps the sleep list sorted -/

theorem giveInner_sorted {q q' : Queues} {s : WaitFor} {w : WaitId} (hq : SleepSorted q.waitSleeping)
    (h : q.giveInner s w = .ok q') : SleepSorted q'.waitSleeping := by
  cases s with
  | Time t =>
    cases h
    exact hq.insert t w
  | Process p =>
    cases h
    exact hq
  | Event e =>
    cases h
    exact hq
  | None => cases h
  | FirstOf _ => cases h

theorem foldlM_giveInner_sorted {w : WaitId} :
    ∀ (targets : List WaitFor) {q q' : Queues}, SleepSorted q.waitSleeping →
      targets.foldlM (fun q target => q.giveInner target w) q = .ok q' → SleepSorted q'.waitSleeping :=
  Except.foldlM_invariant fun _ _ _ hq h => giveInner_sorted hq h

theorem give_sorted {q q' : Queues} {pid : ProcessId} {s : WaitFor} (hq : SleepSorted q.waitSleeping)
    (h : q.give pid s = .ok q') : SleepSorted q'.waitSleeping := by
  unfold give at h
  obtain ⟨s', -, h⟩ := Except.bind_eq_ok.mp h
  dsimp only at h
  split at h
  · cases h
    exact hq
  · -- queued under a fresh wait id; `create_wait` leaves the sleep list alone
    have hq' : SleepSorted (q.createWait pid).2.waitSleeping := hq
    split at h
    · exact foldlM_giveInner_sorted _ hq' h
    · exact giveInner_sorted hq' h

theorem QueueCall.apply_sorted {q q' : Queues} {c : QueueCall} (hq : SleepSorted q.waitSleeping)
    (h : c.apply q = .ok q') : SleepSorted q'.waitSleeping := by
  cases c with
  | give pid s => exact give_sorted hq h
  | take =>
    cases h
    rw [take_waitSleeping]
    exact hq
  | onTick now =>
    cases h
    rw [onTick_eq hq]
    exact hq.filter _
  | onProcessOver completed =>
    cases h
    rw [onProcessOver_waitSleeping]
    exact hq
  | onExplicitEvent eventId =>
    cases h
    rw [onExplicitEvent_waitSleeping]
    exact hq

/-- **The run lemma**: every run of calls keeps the sleep list sorted. -/
theorem runCalls_sorted : ∀ (calls : List QueueCall) {q q' : Queues}, SleepSorted q.waitSleeping →
    runCalls q calls = .ok q' → SleepSorted q'.waitSleeping :=
  Except.foldlM_invariant fun _ _ _ hq h => QueueCall.apply_sorted hq h

end Queues

/-- **The sleep queue is ordered.** In every state a run of `give`, `take`,
`on_tick`, `on_process_over` and `on_explicit_event` calls reaches from
`Queues::new`, the sleep list is sorted by wake-up time. On a sorted list, `give`
of `Time(t)` puts the sleeper after every entry due at or before `t` and before
every later one; `on_tick(now)` triggers exactly the entries due by `now`, in
their order, and keeps the others in order; and `next_wakeup` is `None` on an
empty sleep list and otherwise the earliest time left. -/
theorem sleep_queue_ordering :
    (∀ (calls : List QueueCall) (q : Queues), runCalls Queues.new calls = .ok q →
      SleepSorted q.waitSleeping) ∧
    (∀ (q : Queues) (t : BSPInstant) (w : WaitId), SleepSorted q.waitSleeping →
      q.giveInner (.Time t) w =
        .ok { q with waitSleeping := (q.waitSleeping.filter fun e => e.1 ≤ t) ++ (t, w) ::
          q.waitSleeping.filter fun e => t < e.1 }) ∧
    (∀ (q : Queues) (now : BSPInstant), SleepSorted q.waitSleeping →
      q.onTick now =
        { q.triggerAll ((q.waitSleeping.filter fun e => e.1 ≤ now).map Prod.snd) with
          waitSleeping := q.waitSleeping.filter fun e => now < e.1 }) ∧
    ∀ (q : Queues), SleepSorted q.waitSleeping →
      (q.waitSleeping = [] → q.nextWakeup = none) ∧
      (q.waitSleeping ≠ [] → ∃ t, q.nextWakeup = some t ∧
        (∃ w, (t, w) ∈ q.waitSleeping) ∧ ∀ e ∈ q.waitSleeping, t ≤ e.1) := by
  refine ⟨fun calls q h => Queues.runCalls_sorted calls sleepSorted_new h, fun q t w hq => ?_,
    fun q now hq => Queues.onTick_eq hq now,
    fun q hq => ⟨(Queues.nextWakeup_eq_none_iff q).mpr, Queues.nextWakeup_total hq⟩⟩
  rw [Queues.giveInner, insertIdx_pIndexVecdeque hq]

end D7os

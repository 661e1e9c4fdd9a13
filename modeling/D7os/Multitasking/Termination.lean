import D7os.Multitasking.Scheduler

/-!
# Terminating a process that waits

`Queues::on_process_over` removes the completed process from the running deque
and wakes the processes waiting for it, but leaves the wait ids under which the
process itself is queued. `Scheduler::terminate` removes the process from the
process table all the same. A process that sleeps when it is terminated thus
stays in `waiting`; when its time comes, `on_tick` puts it back in the running
deque, and `switch` finds no such process.
-/

namespace D7os

namespace Queues

variable {q : Queues} {w : WaitId}

/-- The wait id is in no process or event wait set: only the sleep list, if
anything, can trigger it. -/
def Unregistered (q : Queues) (w : WaitId) : Prop :=
  (∀ p l, q.waitProcess.lookup p = some l → w ∉ l) ∧
  (∀ e l, q.waitEvent.lookup e = some l → w ∉ l)

@[simp] theorem triggerWait_waitProcess (q : Queues) (w' : WaitId) :
    (q.triggerWait w').waitProcess = q.waitProcess := by
  unfold triggerWait
  split <;> rfl

@[simp] theorem triggerWait_waitEvent (q : Queues) (w' : WaitId) :
    (q.triggerWait w').waitEvent = q.waitEvent := by
  unfold triggerWait
  split <;> rfl

theorem triggerWait_lookup_ne {w' : WaitId} (h : w' ≠ w) :
    (q.triggerWait w').waiting.lookup w = q.waiting.lookup w := by
  unfold triggerWait
  split
  · exact AList.lookup_erase_ne (Ne.symm h)
  · rfl

@[simp] theorem triggerAll_waitProcess (q : Queues) (ws : List WaitId) :
    (q.triggerAll ws).waitProcess = q.waitProcess := by
  induction ws generalizing q with
  | nil => rfl
  | cons w' ws ih => exact (ih (q.triggerWait w')).trans (triggerWait_waitProcess q w')

@[simp] theorem triggerAll_waitEvent (q : Queues) (ws : List WaitId) :
    (q.triggerAll ws).waitEvent = q.waitEvent := by
  induction ws generalizing q with
  | nil => rfl
  | cons w' ws ih => exact (ih (q.triggerWait w')).trans (triggerWait_waitEvent q w')

theorem triggerAll_lookup {ws : List WaitId} (h : w ∉ ws) :
    (q.triggerAll ws).waiting.lookup w = q.waiting.lookup w := by
  induction ws generalizing q with
  | nil => rfl
  | cons w' ws ih =>
    rw [List.mem_cons, not_or] at h
    calc (q.triggerAll (w' :: ws)).waiting.lookup w
        = ((q.triggerWait w').triggerAll ws).waiting.lookup w := rfl
      _ = (q.triggerWait w').waiting.lookup w := ih h.2
      _ = q.waiting.lookup w := triggerWait_lookup_ne (Ne.symm h.1)

theorem onExplicitEvent_unregistered (hu : q.Unregistered w) (e : ExplicitEventId) :
    (q.onExplicitEvent e).waiting.lookup w = q.waiting.lookup w ∧
      (q.onExplicitEvent e).Unregistered w := by
  unfold onExplicitEvent
  cases hl : q.waitEvent.lookup e with
  | none => exact ⟨rfl, hu⟩
  | some ws =>
    refine ⟨triggerAll_lookup (hu.2 e ws hl), ?_, ?_⟩
    · simpa using hu.1
    · intro e' l he'
      rw [triggerAll_waitEvent] at he'
      exact hu.2 e' l (AList.lookup_of_lookup_erase he').2

theorem onProcessOver_unregistered (hu : q.Unregistered w) (completed : ProcessId) :
    (q.onProcessOver completed).waiting.lookup w = q.waiting.lookup w ∧
      (q.onProcessOver completed).Unregistered w := by
  dsimp only [onProcessOver]
  cases hl : q.waitProcess.lookup completed with
  | none => exact ⟨rfl, hu⟩
  | some ws =>
    refine ⟨triggerAll_lookup (hu.1 completed ws hl), ?_, ?_⟩
    · intro p l hp
      rw [triggerAll_waitProcess] at hp
      exact hu.1 p l (AList.lookup_of_lookup_erase hp).2
    · simpa using hu.2

end Queues

namespace Scheduler

open Ipc

variable {s s' : Scheduler} {w : WaitId}

/-- Relaying events wakes only event waiters: a wait id in no wait set keeps its
process, and the process table is untouched. -/
theorem foldl_onExplicitEvent (events : List ExplicitEventId) (hu : s.queues.Unregistered w) :
    (events.foldl onExplicitEvent s).queues.waiting.lookup w = s.queues.waiting.lookup w ∧
      (events.foldl onExplicitEvent s).queues.Unregistered w ∧
      (events.foldl onExplicitEvent s).processes = s.processes := by
  induction events generalizing s with
  | nil => exact ⟨rfl, hu, rfl⟩
  | cons e events ih =>
    obtain ⟨hl, hu'⟩ := Queues.onExplicitEvent_unregistered hu e
    obtain ⟨hl₁, hu₁, hp₁⟩ := ih (s := s.onExplicitEvent e) hu'
    exact ⟨hl₁.trans hl, hu₁, hp₁⟩

theorem publishTerminated_eq {ipc ipc' : Manager} {payload : List UInt8}
    (h : s.publishTerminated ipc payload = .ok (s', ipc')) :
    ∃ events : List ExplicitEventId, s' = events.foldl onExplicitEvent s := by
  unfold publishTerminated at h
  split at h
  · cases h
  · rename_i topic _
    cases hp : ipc.publish topic payload with
    | error p => simp [hp, bind, Except.bind] at h
    | ok res =>
      obtain ⟨ipc₁, r⟩ := res
      cases hv : r.value with
      | error e => simp [hp, hv, bind, Except.bind] at h
      | ok u =>
        simp only [hp, hv, bind, Except.bind, pure, Except.pure, Except.ok.injEq,
          Prod.mk.injEq] at h
        obtain ⟨rfl, -⟩ := h
        exact ⟨r.events.map (·.event), by simp [consumeEvents, List.foldl_map]⟩

theorem stop_keeps_wait {ipc ipc' : Manager} {target : ProcessId} {process : Process}
    {payload : List UInt8} (h : s.stop ipc target process payload = .ok (s', ipc'))
    (hw : s.queues.waiting.lookup w = some target) (hu : s.queues.Unregistered w) :
    s'.queues.waiting.lookup w = some target ∧ target ∉ s'.processes := by
  unfold stop at h
  cases ho : ipc.onProcessOver process.id with
  | error p => simp [ho, bind, Except.bind] at h
  | ok res =>
    obtain ⟨ipc₁, events⟩ := res
    simp only [ho, bind, Except.bind] at h
    obtain ⟨published, rfl⟩ := publishTerminated_eq h
    -- three rounds of wake-ups: the waiters of the process, the IPC events, the publish
    obtain ⟨hl₀, hu₀⟩ := Queues.onProcessOver_unregistered hu process.id
    obtain ⟨hl₁, hu₁, hp₁⟩ := foldl_onExplicitEvent (s := { s with
      processes := s.processes.erase target
      queues := s.queues.onProcessOver process.id }) events hu₀
    obtain ⟨hl₂, -, hp₂⟩ := foldl_onExplicitEvent published hu₁
    refine ⟨hl₂.trans (hl₁.trans (hl₀.trans hw)), ?_⟩
    rw [hp₂, hp₁]
    exact fun hm => (AList.mem_erase.mp hm).1 rfl

/-- **`terminate` keeps a sleeping process in `waiting`.** If the target is
queued under a wait id that no process or event wait set holds, then after
`terminate` the wait id still names the target, which is no longer in the
process table. -/
theorem terminate_keeps_wait {ipc ipc' : Manager} {target : ProcessId} {payload : List UInt8}
    (ht : s.terminate ipc target payload = .ok (s', ipc'))
    (hw : s.queues.waiting.lookup w = some target) (hu : s.queues.Unregistered w) :
    s'.queues.waiting.lookup w = some target ∧ target ∉ s'.processes := by
  unfold terminate at ht
  -- resetting `running` at the end touches neither the queues nor the process table
  cases hl : s.processes.lookup target with
  | none =>
    have hnot := AList.lookup_eq_none.mp hl
    by_cases hr : s.running = some target <;>
      simp [hl, hr, bind, Except.bind, pure, Except.pure] at ht <;>
      obtain ⟨rfl, -⟩ := ht <;> exact ⟨hw, hnot⟩
  | some process =>
    cases hs : s.stop ipc target process payload with
    | error p => simp [hl, hs, bind, Except.bind] at ht
    | ok res =>
      obtain ⟨s₁, ipc₁⟩ := res
      obtain ⟨hw₁, hp₁⟩ := stop_keeps_wait hs hw hu
      by_cases hr : s₁.running = some target <;>
        simp [hl, hs, hr, bind, Except.bind, pure, Except.pure] at ht <;>
        obtain ⟨rfl, -⟩ := ht <;> exact ⟨hw₁, hp₁⟩

/-- Process 1, asleep until time 10 under wait id 0, while nothing runs. -/
def asleep : Scheduler :=
  { Scheduler.new with
    processes := (∅ : HashMap ProcessId Process).insert ⟨1⟩ ⟨⟨1⟩, false⟩
    queues := { Queues.new with
      waiting := (∅ : HashMap WaitId ProcessId).insert ⟨0⟩ ⟨1⟩
      nextWaitid := ⟨1⟩
      waitSleeping := [(⟨10⟩, ⟨0⟩)] } }

theorem terminate_keeps_wait_asleep :
    ∃ (s' : Scheduler) (ipc' : Manager), asleep.terminate Manager.new ⟨1⟩ [] = .ok (s', ipc') ∧
      asleep.queues.waiting.lookup ⟨0⟩ = some ⟨1⟩ ∧ asleep.queues.Unregistered ⟨0⟩ ∧
      (s'.queues.waiting.lookup ⟨0⟩ = some ⟨1⟩ ∧ (⟨1⟩ : ProcessId) ∉ s'.processes) := by
  obtain ⟨⟨s', ipc'⟩, ht⟩ : ∃ r, asleep.terminate Manager.new ⟨1⟩ [] = .ok r := ⟨_, rfl⟩
  have hw : asleep.queues.waiting.lookup ⟨0⟩ = some ⟨1⟩ := rfl
  -- no process or event wait set exists yet
  have hu : asleep.queues.Unregistered ⟨0⟩ := ⟨(fun _ _ h => by cases h), (fun _ _ h => by cases h)⟩
  exact ⟨s', ipc', ht, hw, hu, terminate_keeps_wait ht hw hu⟩

/-- **A terminated sleeper is scheduled again.** Process 1 is spawned, runs, and
goes to sleep until time 10; it is terminated while asleep; the tick at time 10
wakes its stale wait id and `switch` panics on the missing process. -/
theorem terminated_sleeper_panics_switch :
    (do
      let (s, _) ← Scheduler.new.spawn fun pid => .ok ⟨pid, false⟩
      let (s, _) ← s.switch none ⟨0⟩
      let (s, _) ← s.switch (some (.Time ⟨10⟩)) ⟨0⟩
      let (s, _) ← s.terminate Manager.new ⟨1⟩ []
      s.tick ⟨10⟩ ⟨0⟩) =
    (.error "Process from queue not running" : Except Panic (Scheduler × ProcessSwitch)) := by
  rfl

end Scheduler

end D7os

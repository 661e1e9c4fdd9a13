import D7os.Multitasking.Queues

/-!
# `reduce_queues` keeps what wakes a process

`WaitFor::reduce_queues` (`src/multitasking/waitfor.rs`) simplifies the condition
a process blocks on before `Queues::give` files it: a wait for a process that has
already completed, other than the current one, becomes `None`, and `reduce`
merges the `Time` members of a `FirstOf` into the earliest one.

What a condition means is when it lets the process run, given what happens after
it blocks: `None` at once, `Time(t)` from `t` on, `Event(e)` once `e` is
triggered, `Process(p)` once `p` completes or already when `p` is gone and not the
current process, and `FirstOf` when any member does. For every condition whose
`FirstOf` holds at least one member and neither `None` nor another `FirstOf`,
the reduced condition means the same. An empty `FirstOf` never lets the process
run, but `reduce` turns it into `None`, which lets it run at once.
-/

namespace D7os

/-- What has happened since a process blocked: the time reached, the events
triggered and the processes completed. -/
structure Future where
  now : BSPInstant
  triggered : ExplicitEventId → Bool
  completed : ProcessId → Bool

mutual

/-- When the condition lets the process run, in the future `f` of a process that
blocked as `current` on the queues `qs`. -/
def WaitFor.Satisfied (qs : Queues) (current : ProcessId) (f : Future) : WaitFor → Prop
  | .None => True
  | .Time t => t ≤ f.now
  | .Process p => f.completed p = true ∨ qs.processDone current p = true
  | .Event e => f.triggered e = true
  | .FirstOf ws => WaitFor.AnySatisfied qs current f ws

/-- Some member lets the process run. -/
def WaitFor.AnySatisfied (qs : Queues) (current : ProcessId) (f : Future) : List WaitFor → Prop
  | [] => False
  | w :: ws => w.Satisfied qs current f ∨ WaitFor.AnySatisfied qs current f ws

end

/-- A member a `FirstOf` may hold: neither `None` nor a `FirstOf`. -/
def WaitFor.isAtom : WaitFor → Bool
  | .Time _ | .Process _ | .Event _ => true
  | .None | .FirstOf _ => false

def WaitFor.isTime : WaitFor → Bool
  | .Time _ => true
  | _ => false

/-- The condition `reduce` ends with for the members it kept. -/
def firstOfOrSingle : List WaitFor → WaitFor
  | [] => .None
  | [w] => w
  | ws => .FirstOf ws

/-- The members `reduce` keeps: the others in their order, then the earliest time. -/
def keptMembers (ws : List WaitFor) (earliest : Option BSPInstant) : List WaitFor :=
  ws.filter (fun w => !w.isTime) ++ earliest.toList.map .Time

/-- `e` is the earliest of `start` and the times of the `Time` members of `ws`. -/
def IsEarliest (start : Option BSPInstant) (ws : List WaitFor) (e : Option BSPInstant) : Prop :=
  (e = none ↔ start = none ∧ ∀ t, WaitFor.Time t ∉ ws) ∧
    ∀ t, e = some t → (start = some t ∨ WaitFor.Time t ∈ ws) ∧
      (∀ s, start = some s → t ≤ s) ∧ ∀ u, WaitFor.Time u ∈ ws → t ≤ u

section Semantics

variable {qs : Queues} {current : ProcessId} {f : Future}

theorem WaitFor.anySatisfied_iff :
    ∀ ws : List WaitFor, WaitFor.AnySatisfied qs current f ws ↔ ∃ w ∈ ws, w.Satisfied qs current f
  | [] => by simp [WaitFor.AnySatisfied]
  | w :: ws => by simp [WaitFor.AnySatisfied, WaitFor.anySatisfied_iff ws]

@[simp] theorem WaitFor.satisfied_firstOf (ws : List WaitFor) :
    (WaitFor.FirstOf ws).Satisfied qs current f ↔ ∃ w ∈ ws, w.Satisfied qs current f := by
  rw [WaitFor.Satisfied, WaitFor.anySatisfied_iff]

/-- A list of kept members means what its `FirstOf` means. -/
theorem satisfied_firstOfOrSingle {ws : List WaitFor} (hws : ws ≠ []) :
    (firstOfOrSingle ws).Satisfied qs current f ↔ ∃ w ∈ ws, w.Satisfied qs current f := by
  match ws, hws with
  | [w], _ => simp [firstOfOrSingle]
  | w₁ :: w₂ :: ws, _ => exact WaitFor.satisfied_firstOf _

/-- The earliest time is reached exactly when one of the times is. -/
theorem IsEarliest.reached {start e : Option BSPInstant} {ws : List WaitFor}
    (h : IsEarliest start ws e) (now : BSPInstant) :
    (∃ t, e = some t ∧ t ≤ now) ↔
      (∃ t, start = some t ∧ t ≤ now) ∨ ∃ t, WaitFor.Time t ∈ ws ∧ t ≤ now := by
  obtain ⟨hnone, hsome⟩ := h
  constructor
  · rintro ⟨t, rfl, ht⟩
    rcases (hsome t rfl).1 with hs | hw
    · exact .inl ⟨t, hs, ht⟩
    · exact .inr ⟨t, hw, ht⟩
  · -- a time reached makes the earliest one exist, and it is no later
    intro hreach
    have hne : e ≠ none := by
      intro he
      obtain ⟨hs, hw⟩ := hnone.mp he
      rcases hreach with ⟨t, ht, -⟩ | ⟨t, ht, -⟩
      · rw [hs] at ht
        cases ht
      · exact hw t ht
    obtain ⟨t, rfl⟩ := Option.ne_none_iff_exists'.mp hne
    obtain ⟨-, hles, hlew⟩ := hsome t rfl
    refine ⟨t, rfl, ?_⟩
    rcases hreach with ⟨s, hs, hsnow⟩ | ⟨u, hu, hunow⟩
    · exact BSPInstant.le_trans (hles s hs) hsnow
    · exact BSPInstant.le_trans (hlew u hu) hunow

/-- **The kept members mean the same as all of them.** -/
theorem satisfied_keptMembers {ws : List WaitFor} {e : Option BSPInstant} (h : IsEarliest none ws e) :
    (∃ w ∈ keptMembers ws e, w.Satisfied qs current f) ↔ ∃ w ∈ ws, w.Satisfied qs current f := by
  -- with no start, the earliest time is reached exactly when a time member is
  have htimes : (∃ t, e = some t ∧ t ≤ f.now) ↔ ∃ t, WaitFor.Time t ∈ ws ∧ t ≤ f.now := by
    rw [h.reached f.now]
    constructor
    · rintro (⟨t, ht, -⟩ | hw)
      · cases ht
      · exact hw
    · exact .inr
  constructor
  · rintro ⟨w, hw, hsat⟩
    rcases List.mem_append.mp hw with hw | hw
    · exact ⟨w, (List.mem_filter.mp hw).1, hsat⟩
    · -- the earliest time stands for the time members
      obtain ⟨t, ht, rfl⟩ := List.mem_map.mp hw
      obtain ⟨u, hu, hunow⟩ := htimes.mp ⟨t, Option.mem_toList.mp ht, hsat⟩
      exact ⟨.Time u, hu, hunow⟩
  · rintro ⟨w, hw, hsat⟩
    cases w with
    | Time u =>
      obtain ⟨t, ht, htnow⟩ := htimes.mpr ⟨u, hw, hsat⟩
      exact ⟨.Time t, List.mem_append_right _ (List.mem_map.mpr ⟨t, Option.mem_toList.mpr ht, rfl⟩), htnow⟩
    | _ => exact ⟨_, List.mem_append_left _ (List.mem_filter.mpr ⟨hw, rfl⟩), hsat⟩

end Semantics

/-! ## The loop of `reduce` -/

theorem isEarliest_nil (start : Option BSPInstant) : IsEarliest start [] start :=
  ⟨by simp, fun t ht => ⟨.inl ht, fun s hs => by rw [ht] at hs; cases hs; exact BSPInstant.le_refl _,
    fun u hu => absurd hu List.not_mem_nil⟩⟩

/-- A member that is no time changes no earliest time. -/
theorem IsEarliest.cons_of_not_time {start e : Option BSPInstant} {ws : List WaitFor} {w : WaitFor}
    (hw : w.isTime = false) (h : IsEarliest start ws e) : IsEarliest start (w :: ws) e := by
  have hmem : ∀ t, WaitFor.Time t ∈ w :: ws ↔ WaitFor.Time t ∈ ws := by
    intro t
    rw [List.mem_cons]
    constructor
    · rintro (he | ht)
      · rw [← he] at hw
        cases hw
      · exact ht
    · exact .inr
  obtain ⟨hnone, hsome⟩ := h
  simp only [IsEarliest, hmem]
  exact ⟨hnone, hsome⟩

/-- The earliest of `start` and `instant`, as the loop keeps it. -/
def earlier (start : Option BSPInstant) (instant : BSPInstant) : Option BSPInstant :=
  match start with
  | some e => if instant < e then some instant else some e
  | none => some instant

theorem IsEarliest.cons_time {start e : Option BSPInstant} {ws : List WaitFor} {instant : BSPInstant}
    (h : IsEarliest (earlier start instant) ws e) : IsEarliest start (.Time instant :: ws) e := by
  obtain ⟨hnone, hsome⟩ := h
  -- the loop's `earlier` is never `none`, and no later than either time
  have hne : earlier start instant ≠ none := by
    unfold earlier
    split
    · split_ifs <;> simp
    · simp
  have hle : ∀ t, earlier start instant = some t →
      (start = some t ∨ t = instant) ∧ (∀ s, start = some s → t ≤ s) ∧ t ≤ instant := by
    intro t ht
    unfold earlier at ht
    split at ht
    case h_1 e =>
      split_ifs at ht with hlt
      · cases ht
        exact ⟨.inr rfl, (fun s hs => by cases hs; exact Nat.le_of_lt hlt), BSPInstant.le_refl _⟩
      · cases ht
        exact ⟨.inl rfl, (fun s hs => by cases hs; exact BSPInstant.le_refl _), BSPInstant.not_lt.mp hlt⟩
    case h_2 =>
      cases ht
      exact ⟨.inr rfl, (fun s hs => by cases hs), BSPInstant.le_refl _⟩
  refine ⟨⟨fun he => absurd (hnone.mp he).1 hne, fun ⟨_, hw⟩ => absurd List.mem_cons_self (hw instant)⟩,
    fun t ht => ?_⟩
  obtain ⟨hfrom, hles, hlew⟩ := hsome t ht
  refine ⟨?_, fun s hs => ?_, fun u hu => ?_⟩
  · rcases hfrom with hs | hw
    · rcases (hle t hs).1 with h' | rfl
      · exact .inl h'
      · exact .inr List.mem_cons_self
    · exact .inr (List.mem_cons_of_mem _ hw)
  · obtain ⟨e', he'⟩ := Option.ne_none_iff_exists'.mp hne
    exact BSPInstant.le_trans (hles e' he') ((hle e' he').2.1 s hs)
  · obtain ⟨e', he'⟩ := Option.ne_none_iff_exists'.mp hne
    rcases List.mem_cons.mp hu with hu | hu
    · cases hu
      exact BSPInstant.le_trans (hles e' he') (hle e' he').2.2
    · exact hlew u hu

/-- A member that is neither a time, `None` nor a `FirstOf` is appended as it is. -/
theorem reduceLoop_cons_other {w : WaitFor} (hw : w.isAtom = true) (ht : w.isTime = false)
    (ws acc : List WaitFor) (start : Option BSPInstant) :
    reduceLoop (w :: ws) acc start = reduceLoop ws (acc ++ [w]) start := by
  cases w with
  | Process p => rfl
  | Event e => rfl
  | Time _ => cases ht
  | None => cases hw
  | FirstOf _ => cases hw

/-- **The loop of `reduce`**: over members that are neither `None` nor a `FirstOf`
it never panics, appends the other members in their order, and ends with the
earliest time. -/
theorem reduceLoop_spec : ∀ (ws acc : List WaitFor) (start : Option BSPInstant), (∀ w ∈ ws, w.isAtom = true) →
    ∃ e, reduceLoop ws acc start = .ok (acc ++ ws.filter (fun w => !w.isTime), e) ∧ IsEarliest start ws e
  | [], acc, start, _ => ⟨start, by rw [reduceLoop, List.filter_nil, List.append_nil], isEarliest_nil start⟩
  | w :: ws, acc, start, hatoms => by
    have hrest : ∀ w ∈ ws, w.isAtom = true := fun w hw => hatoms w (List.mem_cons_of_mem _ hw)
    cases ht : w.isTime
    case true =>
      -- a time member moves the earliest time and is not appended
      cases w with
      | Time instant =>
        obtain ⟨e, hloop, he⟩ := reduceLoop_spec ws acc (earlier start instant) hrest
        exact ⟨e, hloop, he.cons_time⟩
      | _ => cases ht
    case false =>
      obtain ⟨e, hloop, he⟩ := reduceLoop_spec ws (acc ++ [w]) start hrest
      refine ⟨e, ?_, he.cons_of_not_time ht⟩
      rw [reduceLoop_cons_other (hatoms w List.mem_cons_self) ht, hloop,
        List.filter_cons_of_pos (by simp [ht]), List.append_assoc, List.singleton_append]

/-- **What `reduce` does to a `FirstOf`** of members that are neither `None` nor a
`FirstOf`: it keeps the other members and the earliest time, and then gives
`None` for nothing kept, the one member kept, or the `FirstOf` of them. -/
theorem reduce_firstOf {ws : List WaitFor} (hatoms : ∀ w ∈ ws, w.isAtom = true) :
    ∃ e, IsEarliest none ws e ∧ (WaitFor.FirstOf ws).reduce = .ok (firstOfOrSingle (keptMembers ws e)) := by
  obtain ⟨e, hloop, he⟩ := reduceLoop_spec ws [] none hatoms
  refine ⟨e, he, ?_⟩
  rw [WaitFor.reduce, hloop, Except.ok_bind, List.nil_append, keptMembers]
  -- the last `match` of `reduce` is `firstOfOrSingle`, shape by shape
  generalize List.filter (fun w => !w.isTime) ws = others
  cases e with
  | none =>
    rw [Option.toList_none, List.map_nil, List.append_nil]
    rcases others with _ | ⟨w, _ | ⟨w', others⟩⟩ <;> rfl
  | some t =>
    rw [Option.toList_some, List.map_singleton]
    rcases others with _ | ⟨w, _ | ⟨w', others⟩⟩ <;> rfl

/-- Something is kept from a `FirstOf` with a member. -/
theorem keptMembers_ne_nil {ws : List WaitFor} {e : Option BSPInstant} (hws : ws ≠ [])
    (he : IsEarliest none ws e) : keptMembers ws e ≠ [] := by
  obtain ⟨w, hw⟩ := List.exists_mem_of_ne_nil ws hws
  intro hnil
  cases hwt : w.isTime
  case false =>
    have : w ∈ keptMembers ws e := List.mem_append_left _ (List.mem_filter.mpr ⟨hw, by simp [hwt]⟩)
    rw [hnil] at this
    exact List.not_mem_nil this
  case true =>
    -- a time member makes the earliest time exist
    cases w with
    | Time t =>
      have hsome : e ≠ none := fun h => (he.1.mp h).2 t hw
      obtain ⟨u, rfl⟩ := Option.ne_none_iff_exists'.mp hsome
      rw [keptMembers, Option.toList_some, List.map_singleton] at hnil
      exact List.append_ne_nil_of_right_ne_nil _ (List.cons_ne_nil _ _) hnil
    | _ => cases hwt

/-! ## `reduce_queues` -/

/-- A condition `reduce` accepts and that means something: a `FirstOf` holds at
least one member, and none that is `None` or a `FirstOf`. -/
def WaitFor.WellFormed : WaitFor → Prop
  | .FirstOf ws => ws ≠ [] ∧ ∀ w ∈ ws, w.isAtom = true
  | _ => True

/-- A member waits for a completed process. -/
def WaitFor.waitsForDone (qs : Queues) (current : ProcessId) : WaitFor → Bool
  | .Process p => qs.processDone current p
  | _ => false

theorem reduceQueues_firstOf (qs : Queues) (current : ProcessId) (ws : List WaitFor) :
    (WaitFor.FirstOf ws).reduceQueues qs current =
      if ws.any (WaitFor.waitsForDone qs current) then .ok .None else (WaitFor.FirstOf ws).reduce := by
  -- the test of `reduce_queues` is `waitsForDone`, member by member
  rw [WaitFor.reduceQueues]
  rfl

/-- **`reduce_queues` keeps when a process wakes.** For a well-formed condition it
never panics, and the condition it gives lets the process run in exactly the
futures the original does. -/
theorem reduceQueues_satisfied (qs : Queues) (current : ProcessId) {s : WaitFor} (hs : s.WellFormed) :
    ∃ s', s.reduceQueues qs current = .ok s' ∧
      ∀ f, s'.Satisfied qs current f ↔ s.Satisfied qs current f := by
  cases s with
  | None => exact ⟨_, rfl, fun _ => Iff.rfl⟩
  | Time t => exact ⟨_, rfl, fun _ => Iff.rfl⟩
  | Event e => exact ⟨_, rfl, fun _ => Iff.rfl⟩
  | Process p =>
    by_cases hdone : qs.processDone current p = true
    · -- a completed process lets the process run at once
      refine ⟨.None, by rw [WaitFor.reduceQueues, if_pos hdone], fun f => ?_⟩
      simp only [WaitFor.Satisfied, hdone, or_true]
    · refine ⟨.Process p, by rw [WaitFor.reduceQueues, if_neg hdone]; rfl, fun _ => Iff.rfl⟩
  | FirstOf ws =>
    obtain ⟨hne, hatoms⟩ := hs
    rw [reduceQueues_firstOf]
    by_cases hdone : ws.any (WaitFor.waitsForDone qs current) = true
    · refine ⟨.None, by rw [if_pos hdone], fun f => ?_⟩
      obtain ⟨w, hw, hwd⟩ := List.any_eq_true.mp hdone
      cases w with
      | Process p =>
        rw [WaitFor.satisfied_firstOf]
        exact ⟨fun _ => ⟨_, hw, .inr hwd⟩, fun _ => trivial⟩
      | _ => cases hwd
    · rw [if_neg hdone]
      obtain ⟨e, he, hreduce⟩ := reduce_firstOf hatoms
      refine ⟨_, hreduce, fun f => ?_⟩
      rw [satisfied_firstOfOrSingle (keptMembers_ne_nil hne he), satisfied_keptMembers he,
        WaitFor.satisfied_firstOf]

/-- **`reduce_queues` keeps when a process wakes, and how it reduces.** For every
condition whose `FirstOf` holds at least one member and none that is `None` or a
`FirstOf`, the reduced condition lets the process run in exactly the same
futures. A `FirstOf` of such members, none waiting for a completed process, keeps
every member that is no time and only the earliest time, in that order, and
becomes `None` when nothing is kept and the member itself when one is. -/
theorem reduce_queues_keeps_wakeups :
    (∀ (qs : Queues) (current : ProcessId) (s : WaitFor), s.WellFormed →
      ∃ s', s.reduceQueues qs current = .ok s' ∧
        ∀ f, s'.Satisfied qs current f ↔ s.Satisfied qs current f) ∧
    ∀ (qs : Queues) (current : ProcessId) (ws : List WaitFor), (∀ w ∈ ws, w.isAtom = true) →
      ws.any (WaitFor.waitsForDone qs current) = false →
      ∃ e, IsEarliest none ws e ∧
        (WaitFor.FirstOf ws).reduceQueues qs current = .ok (firstOfOrSingle (keptMembers ws e)) := by
  refine ⟨fun qs current _ hs => reduceQueues_satisfied qs current hs, fun qs current ws hatoms hdone => ?_⟩
  obtain ⟨e, he, hreduce⟩ := reduce_firstOf hatoms
  refine ⟨e, he, ?_⟩
  rw [reduceQueues_firstOf, if_neg (by rw [hdone]; exact Bool.false_ne_true), hreduce]

/-- **An empty `FirstOf` is not kept.** It never lets a process run, but
`reduce_queues` turns it into `None`, which lets it run at once. -/
theorem reduce_queues_empty_firstOf :
    (WaitFor.FirstOf []).reduceQueues Queues.new ProcessId.first = .ok .None ∧
      ∀ f, WaitFor.None.Satisfied Queues.new ProcessId.first f ∧
        ¬ (WaitFor.FirstOf []).Satisfied Queues.new ProcessId.first f := by
  refine ⟨rfl, fun f => ⟨trivial, ?_⟩⟩
  simp

end D7os

import Mathlib.Data.List.Dedup
import Mathlib.Data.List.Pairwise
import D7os.Ipc.Topic

/-!
# The subscription list and its exclusion invariant

`src/ipc/list.rs`. The list keeps `(filter, reliable, subscription_id)` triples,
sorted so that `binary_search` finds an insertion point. `insert` refuses a filter
that `conflicts` with a stored one, `remove` retains every other triple, and
`find_all` collects the ids of the triples whose filter matches a topic.

The invariant `Exclusive` says that no two stored triples overlap when one of them
is reliable. It holds of every list reachable from `new` (`reachable_exclusive`),
and from it `Manager::deliver`'s assertion `count == 1` follows: a topic with a
reliable subscriber has exactly that one subscriber
(`reliable_subscription_exclusive`).
-/

namespace D7os.Ipc

/-- `SubscriptionId(u64)`. Ids come from a counter that would need 2^64
subscriptions to overflow, so the model counts in `Nat`. -/
structure SubscriptionId where
  val : Nat
  deriving DecidableEq, Repr

instance : Ord SubscriptionId := ⟨fun a b => compare a.val b.val⟩

/-- `SubscriptionId::next`. -/
def SubscriptionId.next (s : SubscriptionId) : SubscriptionId := ⟨s.val + 1⟩

/-- One stored subscription: `(filter, reliable, subscription_id)`. -/
abbrev Target := TopicFilter × Bool × SubscriptionId

/-- The derived lexicographic `Ord` of the Rust tuple. -/
def Target.cmp (a b : Target) : Ordering :=
  (compare a.1 b.1).then ((compare a.2.1 b.2.1).then (compare a.2.2 b.2.2))

/-- `slice::binary_search` on a sorted slice, with `Ok i` as `.ok i` and `Err i` as
`.error i`. The index is the lower bound: the position of the first element that
is not smaller, one of the answers the documented contract allows. -/
def binarySearch {α : Type} (cmp : α → α → Ordering) (xs : List α) (v : α) : Except Nat Nat :=
  let i := (xs.takeWhile fun x => cmp x v == .lt).length
  match xs[i]? with
  | some x => if cmp x v == .eq then .ok i else .error i
  | none => .error i

/-- Both answers of `binarySearch` carry the lower bound. -/
theorem binarySearch_cases {α : Type} (cmp : α → α → Ordering) (xs : List α) (v : α) :
    binarySearch cmp xs v = .ok (xs.takeWhile fun x => cmp x v == .lt).length ∨
      binarySearch cmp xs v = .error (xs.takeWhile fun x => cmp x v == .lt).length := by
  simp only [binarySearch]
  split
  · split
    · exact .inl rfl
    · exact .inr rfl
  · exact .inr rfl

/-- The insertion index `Vec::insert` receives is in bounds, so it never panics. -/
theorem binarySearch_le_length {α : Type} (cmp : α → α → Ordering) (xs : List α) (v : α) :
    (match binarySearch cmp xs v with | .ok i => i | .error i => i) ≤ xs.length := by
  have h := (List.takeWhile_sublist (fun x => cmp x v == .lt) (l := xs)).length_le
  rcases binarySearch_cases cmp xs v with he | he <;> rw [he] <;> exact h

/-- `struct SubscriptionList`. -/
structure SubscriptionList where
  /-- Tuples of (filter, reliable, subscription_id), kept sorted -/
  targets : List Target
  /-- Next free subscription id -/
  nextSubscriptionId : SubscriptionId

namespace SubscriptionList

/-- `SubscriptionList::new`. -/
def new : SubscriptionList := ⟨[], ⟨0⟩⟩

/-- `SubscriptionList::conflicts`: the linear scan for an exclusion conflict. -/
def conflicts (l : SubscriptionList) (filter : TopicFilter) (reliable : Bool) : Bool :=
  l.targets.any fun (f, r, _) => (reliable && filter.containsFilter f) || (r && f.containsFilter filter)

/-- `SubscriptionList::insert`: the list after the call, and the new id, or `None`
on an exclusion conflict (the list is then unchanged). -/
def insert (l : SubscriptionList) (filter : TopicFilter) (reliable : Bool) :
    SubscriptionList × Option SubscriptionId :=
  if l.conflicts filter reliable then (l, none)
  else
    let id := l.nextSubscriptionId
    let value : Target := (filter, reliable, id)
    let index := match binarySearch Target.cmp l.targets value with
      | .ok i => i
      | .error i => i
    ({ targets := l.targets.insertIdx index value, nextSubscriptionId := id.next }, some id)

/-- `SubscriptionList::remove`: `retain` every triple with another id. -/
def remove (l : SubscriptionList) (subscription : SubscriptionId) : SubscriptionList :=
  { l with targets := l.targets.filter fun (_, _, id) => subscription != id }

/-- `SubscriptionList::find_all`. The `HashSet` it collects into is a list without
duplicates, in the order of the scan. -/
def findAll (l : SubscriptionList) (topic : Topic) (reliable : Bool) : List SubscriptionId :=
  (l.targets.filterMap fun (f, r, id) =>
    if r == reliable && f.matches topic then some id else none).dedup

/-- Lists reachable from `new` by `insert` and `remove` calls. -/
inductive Reachable : SubscriptionList → Prop
  | new : Reachable new
  | insert {l : SubscriptionList} (filter : TopicFilter) (reliable : Bool) :
      Reachable l → Reachable (l.insert filter reliable).1
  | remove {l : SubscriptionList} (subscription : SubscriptionId) :
      Reachable l → Reachable (l.remove subscription)

theorem conflicts_iff (l : SubscriptionList) (filter : TopicFilter) (reliable : Bool) :
    l.conflicts filter reliable = true ↔
      ∃ f r id, (f, r, id) ∈ l.targets ∧ (reliable = true ∨ r = true) ∧ filter.Overlaps f := by
  simp only [conflicts, List.any_eq_true, Bool.or_eq_true, Bool.and_eq_true]
  constructor
  · rintro ⟨⟨f, r, id⟩, hmem, h⟩
    refine ⟨f, r, id, hmem, ?_⟩
    rcases h with ⟨hr, hc⟩ | ⟨hr, hc⟩
    · exact ⟨.inl hr, (containsFilter_iff_overlap _ _).mp hc⟩
    · rw [containsFilter_comm] at hc
      exact ⟨.inr hr, (containsFilter_iff_overlap _ _).mp hc⟩
  · rintro ⟨f, r, id, hmem, hr, ho⟩
    refine ⟨(f, r, id), hmem, ?_⟩
    have hc := (containsFilter_iff_overlap _ _).mpr ho
    rcases hr with hr | hr
    · exact .inl ⟨hr, hc⟩
    · rw [containsFilter_comm] at hc
      exact .inr ⟨hr, hc⟩

theorem insert_of_conflicts {l : SubscriptionList} {filter : TopicFilter} {reliable : Bool}
    (h : l.conflicts filter reliable = true) : l.insert filter reliable = (l, none) := by
  simp [insert, h]

/-- Without a conflict, `insert` stores a permutation of the old triples and the new one. -/
theorem insert_targets_perm {l : SubscriptionList} {filter : TopicFilter} {reliable : Bool}
    (h : l.conflicts filter reliable = false) :
    (l.insert filter reliable).1.targets.Perm ((filter, reliable, l.nextSubscriptionId) :: l.targets) ∧
      (l.insert filter reliable).2 = some l.nextSubscriptionId := by
  unfold insert
  rw [if_neg (by simp [h])]
  exact ⟨List.perm_insertIdx _ _ (binarySearch_le_length _ _ _), rfl⟩

/-- Without a conflict, `insert` stores the triple of the next id and moves the
counter past it. -/
theorem insert_of_not_conflicts {l : SubscriptionList} {filter : TopicFilter} {reliable : Bool}
    (h : l.conflicts filter reliable = false) :
    ∃ targets, l.insert filter reliable =
        (⟨targets, l.nextSubscriptionId.next⟩, some l.nextSubscriptionId) ∧
      targets.Perm ((filter, reliable, l.nextSubscriptionId) :: l.targets) := by
  unfold insert
  rw [if_neg (by simp [h])]
  exact ⟨_, rfl, List.perm_insertIdx _ _ (binarySearch_le_length _ _ _)⟩

theorem insert_eq_none_iff (l : SubscriptionList) (filter : TopicFilter) (reliable : Bool) :
    (l.insert filter reliable).2 = none ↔ l.conflicts filter reliable = true := by
  cases h : l.conflicts filter reliable
  · simp [(insert_targets_perm h).2]
  · simp [insert_of_conflicts h]

/-- Two stored triples are compatible when neither is reliable or their filters
share no topic. -/
def Compatible (a b : Target) : Prop :=
  (a.2.1 = true ∨ b.2.1 = true) → ¬ a.1.Overlaps b.1

instance : Std.Symm Compatible where
  symm _ _ h hr ho := h (Or.symm hr) (TopicFilter.overlaps_comm.mp ho)

/-- The exclusion invariant: the stored triples are pairwise compatible. -/
def Exclusive (l : SubscriptionList) : Prop :=
  l.targets.Pairwise Compatible

theorem exclusive_new : new.Exclusive := List.Pairwise.nil

theorem exclusive_insert {l : SubscriptionList} (hl : l.Exclusive)
    (filter : TopicFilter) (reliable : Bool) : (l.insert filter reliable).1.Exclusive := by
  cases h : l.conflicts filter reliable
  · obtain ⟨hperm, -⟩ := insert_targets_perm h
    apply List.Pairwise.perm _ hperm.symm (fun {a b} hab => Std.Symm.symm a b hab)
    refine List.Pairwise.cons ?_ hl
    -- no stored triple conflicts with the new one
    rintro ⟨f, r, id⟩ hmem hr ho
    have hc : l.conflicts filter reliable = true :=
      (conflicts_iff l filter reliable).mpr ⟨f, r, id, hmem, hr, ho⟩
    rw [h] at hc
    exact Bool.false_ne_true hc
  · rw [insert_of_conflicts h]
    exact hl

theorem exclusive_remove {l : SubscriptionList} (hl : l.Exclusive) (subscription : SubscriptionId) :
    (l.remove subscription).Exclusive :=
  List.Pairwise.filter _ hl

theorem reachable_exclusive {l : SubscriptionList} (hl : l.Reachable) : l.Exclusive := by
  induction hl with
  | new => exact exclusive_new
  | insert filter reliable _ ih => exact exclusive_insert ih filter reliable
  | remove subscription _ ih => exact exclusive_remove ih subscription

theorem mem_findAll {l : SubscriptionList} {topic : Topic} {reliable : Bool}
    {id : SubscriptionId} :
    id ∈ l.findAll topic reliable ↔
      ∃ f, (f, reliable, id) ∈ l.targets ∧ f.matches topic = true := by
  simp only [findAll, List.mem_dedup, List.mem_filterMap, Option.ite_none_right_eq_some,
    Option.some.injEq, Bool.and_eq_true, beq_iff_eq]
  constructor
  · rintro ⟨⟨f, r, id'⟩, hmem, ⟨hr, hm⟩, rfl⟩
    subst hr
    exact ⟨f, hmem, hm⟩
  · rintro ⟨f, hmem, hm⟩
    exact ⟨(f, reliable, id), hmem, ⟨rfl, hm⟩, rfl⟩

/-- In an exclusive list, a reliable triple matching a topic is the only triple
matching it. -/
theorem unique_of_reliable {l : SubscriptionList} (hl : l.Exclusive) {topic : Topic}
    {f : TopicFilter} {id : SubscriptionId} (hmem : (f, true, id) ∈ l.targets)
    (hm : f.matches topic = true) :
    ∀ e ∈ l.targets, e.1.matches topic = true → e = (f, true, id) := by
  intro e he hme
  by_contra hne
  have hc : Compatible (f, true, id) e := List.Pairwise.forall hl hmem he (Ne.symm hne)
  exact hc (.inl rfl) ⟨topic, hm, hme⟩

/-- A nonempty list without duplicates whose elements all equal `a` is `[a]`. -/
theorem eq_singleton_of_nodup {α : Type} {l : List α} {a : α} (hnd : l.Nodup) (ha : a ∈ l)
    (hall : ∀ b ∈ l, b = a) : l = [a] := by
  have hrep := List.eq_replicate_of_mem hall
  have hlen : l.length ≤ 1 := by
    rw [hrep] at hnd
    exact List.nodup_replicate.mp hnd
  have hpos : 0 < l.length := List.length_pos_of_mem ha
  rw [hrep, show l.length = 1 by omega, List.replicate_one]

/-- The exclusion invariant at one topic: a reliable match is the only match. -/
theorem findAll_of_exclusive {l : SubscriptionList} (hl : l.Exclusive) (topic : Topic)
    (hne : l.findAll topic true ≠ []) :
    l.findAll topic true = [(l.findAll topic true).head hne] ∧ l.findAll topic false = [] := by
  obtain ⟨f, hmem, hm⟩ := mem_findAll.mp (List.head_mem hne)
  have huniq := unique_of_reliable hl hmem hm
  constructor
  · apply eq_singleton_of_nodup (List.nodup_dedup _) (List.head_mem hne)
    intro b hb
    obtain ⟨g, hgmem, hgm⟩ := mem_findAll.mp hb
    have he := huniq _ hgmem hgm
    simp only [Prod.mk.injEq] at he
    exact he.2.2
  · apply List.eq_nil_iff_forall_not_mem.mpr
    intro b hb
    obtain ⟨g, hgmem, hgm⟩ := mem_findAll.mp hb
    have he := huniq _ hgmem hgm
    simp at he

end SubscriptionList

open SubscriptionList in
/-- **Reliable-subscription exclusion.** In every list reachable from `new`, a topic
with a reliable subscriber has exactly one reliable subscriber and no unreliable
one; and `insert` refuses a filter exactly when it shares a topic with a stored
filter and one of the two is reliable. -/
theorem reliable_subscription_exclusive {l : SubscriptionList} (hl : l.Reachable) :
    (∀ topic : Topic, l.findAll topic true ≠ [] →
      (l.findAll topic true).length = 1 ∧ l.findAll topic false = []) ∧
    ∀ (filter : TopicFilter) (reliable : Bool),
      (l.insert filter reliable).2 = none ↔
        ∃ f r id, (f, r, id) ∈ l.targets ∧ (reliable = true ∨ r = true) ∧
          ∃ t : Topic, filter.matches t = true ∧ f.matches t = true := by
  constructor
  · intro topic hne
    obtain ⟨hone, hnone⟩ := findAll_of_exclusive (reachable_exclusive hl) topic hne
    refine ⟨?_, hnone⟩
    rw [hone]
    rfl
  · intro filter reliable
    rw [insert_eq_none_iff, conflicts_iff]
    rfl

/-- The list after one reliable subscription to the topic `a`. -/
theorem reliable_subscription_exclusive_at_a :
    (SubscriptionList.new.insert (.Exact ⟨['a'], by decide⟩) true).1.Reachable ∧
    ((∀ topic : Topic,
      (SubscriptionList.new.insert (.Exact ⟨['a'], by decide⟩) true).1.findAll topic true ≠ [] →
      ((SubscriptionList.new.insert (.Exact ⟨['a'], by decide⟩) true).1.findAll topic true).length = 1 ∧
        (SubscriptionList.new.insert (.Exact ⟨['a'], by decide⟩) true).1.findAll topic false = []) ∧
    ∀ (filter : TopicFilter) (reliable : Bool),
      ((SubscriptionList.new.insert (.Exact ⟨['a'], by decide⟩) true).1.insert filter reliable).2 = none ↔
        ∃ f r id, (f, r, id) ∈ (SubscriptionList.new.insert (.Exact ⟨['a'], by decide⟩) true).1.targets ∧
          (reliable = true ∨ r = true) ∧
          ∃ t : Topic, filter.matches t = true ∧ f.matches t = true) :=
  ⟨.insert _ _ .new, reliable_subscription_exclusive (.insert _ _ .new)⟩

end D7os.Ipc

import Mathlib.Data.List.AList

/-!
# Collecting over the entries of an association list

A hash map of the code is modelled by an `AList` with a constant value type; its
iteration order is the order of `entries`, which the code leaves unspecified.
Quantities that collect something from every entry (every message of every
mailbox) change under `insert` and `erase` only at the key that is written: the
lemmas below say so, up to permutation of the collected list, and describe a
loop that rewrites every value in place. A map collected from a list of records
by inserting each under its key (`collect()` of `(key, record)` pairs) holds each
record under its key when the keys are distinct, and in general the record
inserted last under it. A `retain` on the values keeps
a key's value exactly when it passes.
-/

namespace AList

variable {α β γ : Type*} [DecidableEq α]

theorem mem_flatMap_entries {s : AList (fun _ : α => β)} {g : α → β → List γ} {x : γ} :
    x ∈ s.entries.flatMap (fun e => g e.1 e.2) ↔ ∃ k v, s.lookup k = some v ∧ x ∈ g k v := by
  simp only [List.mem_flatMap]
  constructor
  · rintro ⟨⟨k, v⟩, hmem, hx⟩
    exact ⟨k, v, mem_lookup_iff.mpr hmem, hx⟩
  · rintro ⟨k, v, hk, hx⟩
    exact ⟨⟨k, v⟩, mem_lookup_iff.mp hk, hx⟩

/-- The entry at a present key can be collected first. -/
theorem flatMap_entries_perm {s : AList (fun _ : α => β)} {k : α} {v : β}
    (h : s.lookup k = some v) (g : α → β → List γ) :
    (s.entries.flatMap fun e => g e.1 e.2).Perm
      (g k v ++ (s.erase k).entries.flatMap fun e => g e.1 e.2) := by
  have hk : k ∈ s.entries.keys := (mem_keys.mp (lookup_isSome.mp (by simp [h])))
  obtain ⟨b, l₁, l₂, -, hs, he⟩ := List.exists_of_kerase hk
  have hb : b = v := by
    have hmem : (⟨k, b⟩ : Σ _ : α, β) ∈ s.entries := by rw [hs]; simp
    exact Option.some.inj ((mem_lookup_iff.mpr hmem).symm.trans h)
  subst hb
  have herase : (s.erase k).entries = l₁ ++ l₂ := he
  rw [herase, hs]
  simp only [List.flatMap_append, List.flatMap_cons]
  rw [← List.append_assoc, ← List.append_assoc]
  exact List.perm_append_comm.append_right _

theorem flatMap_entries_insert (s : AList (fun _ : α => β)) (k : α) (v : β)
    (g : α → β → List γ) :
    ((s.insert k v).entries.flatMap fun e => g e.1 e.2) =
      g k v ++ (s.erase k).entries.flatMap fun e => g e.1 e.2 := by
  rw [entries_insert, List.flatMap_cons]
  rfl

theorem erase_of_lookup_none {s : AList (fun _ : α => β)} {k : α} (h : s.lookup k = none) :
    s.erase k = s :=
  ext (List.kerase_of_notMem_keys (mem_keys.not.mp (lookup_eq_none.mp h)))

theorem lookup_of_lookup_erase {s : AList (fun _ : α => β)} {k k' : α} {v : β}
    (h : (s.erase k').lookup k = some v) : k ≠ k' ∧ s.lookup k = some v := by
  by_cases hk : k = k'
  · subst hk
    rw [lookup_erase] at h
    cases h
  · rw [lookup_erase_ne hk] at h
    exact ⟨hk, h⟩

/-- A loop that rewrites every value in place, `for (k, v) in map.iter_mut()`:
keys and iteration order stay as they were. -/
def updateAll (s : AList (fun _ : α => β)) (f : α → β → β) : AList (fun _ : α => β) :=
  ⟨s.entries.map (.map id f), List.NodupKeys.map₂ f _ s.nodupKeys⟩

@[simp] theorem lookup_updateAll (s : AList (fun _ : α => β)) (f : α → β → β) (k : α) :
    (s.updateAll f).lookup k = (s.lookup k).map (f k) :=
  List.dlookup_map₂ k

theorem mem_updateAll {s : AList (fun _ : α => β)} {f : α → β → β} {k : α} :
    k ∈ s.updateAll f ↔ k ∈ s := by
  rw [← lookup_isSome, ← lookup_isSome, lookup_updateAll, Option.isSome_map]

omit [DecidableEq α] in
theorem flatMap_entries_updateAll (s : AList (fun _ : α => β)) (f : α → β → β)
    (g : α → β → List γ) :
    ((s.updateAll f).entries.flatMap fun e => g e.1 e.2) =
      s.entries.flatMap fun e => g e.1 (f e.1 e.2) := by
  simp only [updateAll, List.flatMap_map]
  rfl

/-- `map.retain(|_, v| keep(v))`, or a `drain_filter` whose drained entries are
dropped: the entries whose value passes, in their order. -/
def filterValues (s : AList (fun _ : α => β)) (keep : β → Bool) : AList (fun _ : α => β) :=
  ⟨s.entries.filter fun e => keep e.2, s.nodupKeys.sublist List.filter_sublist⟩

@[simp] theorem lookup_filterValues (s : AList (fun _ : α => β)) (keep : β → Bool) (k : α) :
    (s.filterValues keep).lookup k = (s.lookup k).filter keep := by
  ext v
  rw [Option.filter_eq_some_iff, ← Option.mem_def, mem_lookup_iff, ← Option.mem_def, mem_lookup_iff]
  exact List.mem_filter

/-! ## The values, counted with multiplicity

`map.values()`, a value once for every key that holds it. Erasing a present key
takes its value out once; inserting puts the new value in and drops the value it
replaces, if any. -/

/-- The values of the entries, in iteration order. -/
def values (s : AList (fun _ : α => β)) : List β := s.entries.map Sigma.snd

omit [DecidableEq α] in
@[simp] theorem values_empty : (∅ : AList (fun _ : α => β)).values = [] := rfl

theorem values_perm_erase {s : AList (fun _ : α => β)} {k : α} {v : β} (h : s.lookup k = some v) :
    s.values.Perm (v :: (s.erase k).values) := by
  have hp := flatMap_entries_perm h fun _ v => [v]
  rwa [← List.map_eq_flatMap, ← List.map_eq_flatMap, List.singleton_append] at hp

theorem values_erase_sublist (s : AList (fun _ : α => β)) (k : α) : (s.erase k).values.Sublist s.values :=
  (List.kerase_sublist k s.entries).map _

theorem values_insert_subperm (s : AList (fun _ : α => β)) (k : α) (v : β) :
    (s.insert k v).values.Subperm (v :: s.values) := by
  rw [values, entries_insert, List.map_cons]
  exact (List.subperm_cons v).mpr (values_erase_sublist s k).subperm

/-- Inserting at an absent key adds the value and keeps the others. -/
theorem values_insert_of_lookup_none {s : AList (fun _ : α => β)} {k : α} (h : s.lookup k = none)
    (v : β) : (s.insert k v).values = v :: s.values := by
  have he : List.kerase k s.entries = s.entries := congrArg entries (erase_of_lookup_none h)
  rw [values, entries_insert, List.map_cons, he]
  rfl

section Collect

variable {δ : Type*} (key : δ → α) (val : δ → β)

/-- Inserting records under other keys leaves a key's value as it was. -/
theorem lookup_foldl_insert_of_not_mem :
    ∀ (l : List δ) (m : AList (fun _ : α => β)) {a : α}, a ∉ l.map key →
      (l.foldl (fun m x => m.insert (key x) (val x)) m).lookup a = m.lookup a := by
  intro l
  induction l with
  | nil => exact fun m _ _ => rfl
  | cons x xs ih =>
    intro m a ha
    rw [List.map_cons, List.mem_cons, not_or] at ha
    rw [List.foldl_cons, ih _ ha.2, lookup_insert_ne ha.1]

/-- **A collected map holds each record under its key**, when the keys are distinct. -/
theorem lookup_foldl_insert_of_mem :
    ∀ (l : List δ) (m : AList (fun _ : α => β)) {x : δ}, (l.map key).Nodup → x ∈ l →
      (l.foldl (fun m x => m.insert (key x) (val x)) m).lookup (key x) = some (val x) := by
  intro l
  induction l with
  | nil => exact fun m x _ hx => absurd hx List.not_mem_nil
  | cons y ys ih =>
    intro m x hnd hx
    rw [List.map_cons, List.nodup_cons] at hnd
    rw [List.foldl_cons]
    rcases List.mem_cons.mp hx with rfl | hx
    · rw [lookup_foldl_insert_of_not_mem key val ys _ hnd.1, lookup_insert]
    · exact ih _ hnd.2 hx

/-- **A collected map holds the record inserted last under a key**, or the value
the map held before when no record has that key. -/
theorem lookup_foldl_insert :
    ∀ (l : List δ) (m : AList (fun _ : α => β)) (a : α),
      (l.foldl (fun m x => m.insert (key x) (val x)) m).lookup a =
        ((l.reverse.find? fun x => key x = a).map val).or (m.lookup a) := by
  intro l
  induction l with
  | nil => intro m a; rfl
  | cons x xs ih =>
    intro m a
    rw [List.foldl_cons, ih, List.reverse_cons, List.find?_append]
    -- the last record under `a` is among `xs`, or it is `x`, or there is none
    rcases xs.reverse.find? (fun x => key x = a) with _ | y
    · by_cases hx : key x = a
      · subst hx
        simp [lookup_insert]
      · simp [hx, lookup_insert_ne (Ne.symm hx)]
    · rfl

end Collect

end AList

import Mathlib.Data.List.Basic
import Mathlib.Data.List.Induction

/-!
# Writing at the seam of an appended list

`List.modify` and `List.insertIdx` at the length of a prefix act on the first
element of the suffix, so code that edits a list at a position it searched for is
proved about by splitting the list there. A search for the first element failing
a test stops at the end of the longest prefix passing it, which in a list sorted
for the test is every element passing it. Removing collected positions one by
one, the last first, removes exactly those elements and keeps the others in
order. A lookup tried on candidates in turn is the search for the first one found.
-/

namespace List

variable {α : Type*}

theorem modify_append_length (l₁ l₂ : List α) (a : α) (f : α → α) :
    (l₁ ++ a :: l₂).modify l₁.length f = l₁ ++ f a :: l₂ := by
  induction l₁ with
  | nil => rfl
  | cons x xs ih =>
    rw [cons_append, length_cons, modify_cons, if_neg (Nat.succ_ne_zero _), Nat.add_sub_cancel, ih]
    rfl

theorem set_append_length (l₁ l₂ : List α) (a b : α) :
    (l₁ ++ b :: l₂).set l₁.length a = l₁ ++ a :: l₂ := by
  induction l₁ with
  | nil => rfl
  | cons x xs ih =>
    rw [cons_append, length_cons, set_cons_succ, ih]
    rfl

theorem drop_append_length_add (l₁ l₂ : List α) (i : Nat) :
    (l₁ ++ l₂).drop (l₁.length + i) = l₂.drop i := by
  induction l₁ with
  | nil => rw [nil_append, length_nil, Nat.zero_add]
  | cons x xs ih => rw [cons_append, length_cons, Nat.add_right_comm, drop_succ_cons, ih]

/-- A list joined with a separator: the first, then each of the rest after the separator. -/
theorem intercalate_cons_eq_flatMap (sep : List α) :
    ∀ (l : List α) (ls : List (List α)), sep.intercalate (l :: ls) = l ++ ls.flatMap (sep ++ ·) := by
  intro l ls
  induction ls generalizing l with
  | nil => simp
  | cons l' ls ih =>
    rw [intercalate_cons_cons, ih l', flatMap_cons]
    simp

theorem insertIdx_append_length (l₁ l₂ : List α) (x : α) :
    (l₁ ++ l₂).insertIdx l₁.length x = l₁ ++ x :: l₂ := by
  induction l₁ with
  | nil => cases l₂ <;> rfl
  | cons y ys ih =>
    rw [cons_append, length_cons, insertIdx_succ_cons, ih]
    rfl

theorem Pairwise.rel_of_mem_erase [BEq α] [LawfulBEq α] {R : α → α → Prop} {l : List α} {x y : α}
    (h : l.Pairwise R) (hx : x ∈ l) (hy : y ∈ l.erase x) : R x y ∨ R y x := by
  induction l with
  | nil => cases hx
  | cons z t ih =>
    rw [pairwise_cons] at h
    by_cases hz : z = x
    · subst hz
      rw [erase_cons_head] at hy
      exact .inl (h.1 y hy)
    · rw [erase_cons_tail (by simpa using hz)] at hy
      have hxt : x ∈ t := (mem_cons.mp hx).resolve_left (Ne.symm hz)
      rcases mem_cons.mp hy with rfl | hy
      · exact .inr (h.1 x hxt)
      · exact ih h.2 hxt hy

theorem findIdx_eq_length_takeWhile (p : α → Bool) :
    ∀ l : List α, l.findIdx p = (l.takeWhile fun a => !p a).length
  | [] => rfl
  | a :: l => by
    rw [findIdx_cons]
    cases h : p a
    · rw [takeWhile_cons_of_pos (by simp [h]), length_cons, findIdx_eq_length_takeWhile p l]
      rfl
    · rw [takeWhile_cons_of_neg (by simp [h])]
      rfl

theorem findSome?_cons_eq_or {β : Type*} (f : α → Option β) (a : α) (l : List α) :
    (a :: l).findSome? f = (f a).or (l.findSome? f) := by
  rw [findSome?_cons]
  cases f a <;> rfl

section Sorted

variable {R : α → α → Prop} {p : α → Bool}

/-- **A test closed downwards along a sorted list holds on a prefix**: the longest
prefix passing it is every element passing it. -/
theorem takeWhile_eq_filter_of_pairwise (hmono : ∀ a b, R a b → p b = true → p a = true) :
    ∀ {l : List α}, l.Pairwise R → l.takeWhile p = l.filter p
  | [], _ => rfl
  | a :: l, hl => by
    rw [pairwise_cons] at hl
    by_cases ha : p a = true
    · rw [takeWhile_cons_of_pos ha, filter_cons_of_pos ha, takeWhile_eq_filter_of_pairwise hmono hl.2]
    · -- nothing after `a` passes, since `a` would pass with it
      have hnone : l.filter p = [] :=
        filter_eq_nil_iff.mpr fun b hb hpb => ha (hmono a b (hl.1 b hb) hpb)
      rw [takeWhile_cons_of_neg ha, filter_cons_of_neg ha, hnone]

/-- The rest of a sorted list after that prefix is every element failing the test. -/
theorem dropWhile_eq_filter_of_pairwise (hmono : ∀ a b, R a b → p b = true → p a = true) :
    ∀ {l : List α}, l.Pairwise R → l.dropWhile p = l.filter fun a => !p a
  | [], _ => rfl
  | a :: l, hl => by
    rw [pairwise_cons] at hl
    by_cases ha : p a = true
    · rw [dropWhile_cons_of_pos ha, filter_cons_of_neg (by simp [ha]),
        dropWhile_eq_filter_of_pairwise hmono hl.2]
    · have hall : l.filter (fun a => !p a) = l :=
        filter_eq_self.mpr fun b hb => by simpa using fun hpb => ha (hmono a b (hl.1 b hb) hpb)
      rw [dropWhile_cons_of_neg ha, filter_cons_of_pos (by simpa using ha), hall]

end Sorted

section RemoveIndices

/-- `while let Some(i) = indices.pop() { removed.push(v.remove(i)) }`, the
indices in the order they are popped: what is left and what was removed, or
`none` at an index past the end. -/
def removeIndices : List α → List Nat → Option (List α × List α)
  | v, [] => some (v, [])
  | v, i :: is => v[i]?.bind fun x => (removeIndices (v.eraseIdx i) is).map fun r => (r.1, x :: r.2)

/-- Removal at positions of a prefix ignores what follows it. -/
theorem removeIndices_append : ∀ {u : List α} {is : List Nat} {r d : List α},
    removeIndices u is = some (r, d) → ∀ w, removeIndices (u ++ w) is = some (r ++ w, d)
  | u, [], r, d, h, w => by
    simp only [removeIndices, Option.some.injEq, Prod.mk.injEq] at h
    obtain ⟨rfl, rfl⟩ := h
    rfl
  | u, i :: is, r, d, h, w => by
    simp only [removeIndices, Option.bind_eq_some_iff, Option.map_eq_some_iff] at h
    obtain ⟨x, hx, ⟨r', d'⟩, hrest, hrd⟩ := h
    simp only [Prod.mk.injEq] at hrd
    obtain ⟨rfl, rfl⟩ := hrd
    have hi : i < u.length := (getElem?_eq_some_iff.mp hx).1
    rw [removeIndices, getElem?_append_left hi, hx, Option.bind_some, eraseIdx_append_of_lt_length hi,
      removeIndices_append hrest w]
    rfl

/-- **Removing the marked positions from the back** removes the elements passing
the test, the last first, and keeps the others in order. -/
theorem removeIndices_findIdxs (p : α → Bool) (v : List α) :
    removeIndices v (v.findIdxs p).reverse = some (v.filter (fun a => !p a), (v.filter p).reverse) := by
  induction v using List.reverseRecOn with
  | nil => rfl
  | append_singleton u a ih =>
    rw [findIdxs_append, findIdxs_singleton, Nat.zero_add, filter_append, filter_append]
    cases hp : p a
    case false =>
      -- `a` stays, after the elements left of `u`
      rw [if_neg (by simp), List.append_nil, removeIndices_append ih [a]]
      simp [hp]
    case true =>
      -- the last position is `a`'s, and removing it leaves `u`
      rw [if_pos rfl, reverse_append, reverse_singleton, singleton_append, removeIndices,
        getElem?_concat_length, Option.bind_some,
        eraseIdx_append_of_length_le (Nat.le_refl _), Nat.sub_self, eraseIdx_zero, tail_cons,
        List.append_nil, ih]
      simp [hp]

end RemoveIndices

end List

import Mathlib.Data.List.DropRight

/-!
# Text as rows, and a window on the last rows

A text written element by element grows at its end. Cut at a separator, it is
a list of lines whose last line grows, or which gains an empty line when the
separator comes; each line, cut into rows of a fixed width, is a list of rows
whose last row grows, or which gains a new row once the last is full. A screen
that keeps only the last `n` rows (`rtake n`) sees a new row replace the oldest
once it is full, and an edit of the last row as that edit.

These are the facts a console proof needs to relate a byte-at-a-time writer to
the rows of the text it was given.
-/

namespace List

variable {α : Type*}

/-! ## Lines: splitting at a separator -/

/-- An element other than the separator extends the last line. -/
theorem splitOn_append_singleton_of_ne [BEq α] [LawfulBEq α] {a b : α} (hb : b ≠ a) :
    ∀ l : List α, ∃ init last, l.splitOn a = init ++ [last] ∧
      (l ++ [b]).splitOn a = init ++ [last ++ [b]]
  | [] => ⟨[], [], splitOn_nil a, splitOn_eq_singleton (by simpa using hb.symm)⟩
  | x :: xs => by
    obtain ⟨init, last, h₁, h₂⟩ := splitOn_append_singleton_of_ne hb xs
    rw [cons_append, splitOn_cons_eq_if_modifyHead, splitOn_cons_eq_if_modifyHead, h₁, h₂]
    by_cases hx : (x == a) = true
    · exact ⟨[] :: init, last, by rw [if_pos hx]; rfl, by rw [if_pos hx]; rfl⟩
    · rw [if_neg hx, if_neg hx]
      cases init with
      | nil => exact ⟨[], x :: last, rfl, rfl⟩
      | cons i is => exact ⟨(x :: i) :: is, last, rfl, rfl⟩

/-- The separator starts a new, empty line. -/
theorem splitOn_append_singleton_self [BEq α] [ReflBEq α] (a : α) (l : List α) :
    (l ++ [a]).splitOn a = l.splitOn a ++ [[]] :=
  splitOn_append_cons_self l []

/-! ## Rows of a bounded width -/

/-- `l` cut into rows of `width` elements, the last row possibly shorter; an
empty `l` is one empty row. -/
def wrapRows (width : Nat) (l : List α) : List (List α) :=
  if l.length ≤ width ∨ width = 0 then [l]
  else l.take width :: wrapRows width (l.drop width)
termination_by l.length
decreasing_by
  simp only [length_drop]
  omega

theorem wrapRows_of_length_le {width : Nat} {l : List α} (h : l.length ≤ width) : l.wrapRows width = [l] := by
  rw [wrapRows, if_pos (.inl h)]

theorem wrapRows_of_lt {width : Nat} {l : List α} (hw : 0 < width) (h : width < l.length) :
    l.wrapRows width = l.take width :: (l.drop width).wrapRows width := by
  rw [wrapRows, if_neg (by omega)]

/-- **An element extends the last row, or starts a new one once it is full.** -/
theorem wrapRows_append_singleton {width : Nat} (hw : 0 < width) (b : α) (l : List α) :
    ∃ init last, l.wrapRows width = init ++ [last] ∧ last.length ≤ width ∧
      (l ++ [b]).wrapRows width =
        if last.length = width then init ++ [last, [b]] else init ++ [last ++ [b]] := by
  fun_induction wrapRows width l with
  | case1 l hl =>
    have hle : l.length ≤ width := hl.resolve_right (by omega)
    refine ⟨[], l, rfl, hle, ?_⟩
    by_cases he : l.length = width
    · -- a full row: the new element is cut off into a row of its own
      rw [if_pos he, wrapRows_of_lt hw (by simp only [length_append, length_singleton]; omega),
        take_left' he, drop_left' he, wrapRows_of_length_le (by simp only [length_singleton]; omega)]
      rfl
    · rw [if_neg he, wrapRows_of_length_le (by simp only [length_append, length_singleton]; omega)]
      rfl
  | case2 l hl ih =>
    obtain ⟨init, last, h₁, h₂, h₃⟩ := ih
    refine ⟨l.take width :: init, last, by rw [h₁]; rfl, h₂, ?_⟩
    rw [wrapRows_of_lt hw (by simp only [length_append, length_singleton]; omega),
      take_append_of_le_length (by omega), drop_append_of_le_length (by omega), h₃]
    split <;> rfl

theorem length_le_of_mem_wrapRows {width : Nat} (hw : 0 < width) {l r : List α} (hr : r ∈ l.wrapRows width) :
    r.length ≤ width := by
  fun_induction wrapRows width l with
  | case1 l hl =>
    rw [mem_singleton] at hr
    subst hr
    exact hl.resolve_right (by omega)
  | case2 l hl ih =>
    rcases mem_cons.mp hr with rfl | hr
    · exact length_take_le width l
    · exact ih hr

theorem wrapRows_ne_nil (width : Nat) (l : List α) : l.wrapRows width ≠ [] := by
  rw [wrapRows]
  split <;> simp

/-! ## A window on the last rows -/

theorem rtake_of_length_le {n : Nat} {l : List α} (h : l.length ≤ n) : l.rtake n = l := by
  rw [rtake, Nat.sub_eq_zero_of_le h, drop_zero]

theorem length_rtake (l : List α) (n : Nat) : (l.rtake n).length = min n l.length := by
  rw [rtake, length_drop]
  omega

theorem getLast?_rtake {n : Nat} (hn : 0 < n) (l : List α) : (l.rtake n).getLast? = l.getLast? := by
  rcases eq_nil_or_concat' l with rfl | ⟨init, last, rfl⟩
  · rw [rtake_nil]
  · obtain ⟨m, rfl⟩ : ∃ m, n = m + 1 := ⟨n - 1, by omega⟩
    rw [rtake_concat_succ, getLast?_concat, getLast?_concat]

/-- A full window drops its oldest row when a row is added. -/
theorem rtake_append_singleton {n : Nat} (hn : 0 < n) (l : List α) (x : α) :
    (l ++ [x]).rtake n =
      if n < (l.rtake n ++ [x]).length then (l.rtake n ++ [x]).tail else l.rtake n ++ [x] := by
  obtain ⟨m, rfl⟩ : ∃ m, n = m + 1 := ⟨n - 1, by omega⟩
  rw [rtake_concat_succ, length_append, length_rtake, length_singleton]
  by_cases hl : l.length ≤ m
  · rw [if_neg (by omega), rtake_of_length_le hl, rtake_of_length_le (by omega)]
  · rw [if_pos (by omega), rtake, rtake, tail_append_of_ne_nil (by simp; omega), tail_drop]
    congr 2
    omega

end List

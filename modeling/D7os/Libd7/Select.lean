import D7os.Multitasking.WaitFor

/-!
# Dispatch of `select!`

`src/libs/libd7/src/ipc/select.rs`: `select_inner!` with `one` arms and `any`
groups pushes the `one` subscriptions, then each group's, into `subs`; the
index `ipc_select` answers is matched to its arm by a chain of comparisons with
a running offset `i`. Each subscription is tagged here with its arm.

The `one` arms, the first group and every element of a group past its first are
found right. The first element of a later group is not: a group is taken when
`index <= i + len`, where `index < i + len` is meant, so the group before it takes
the index, one past its own end. In `driver_ata_pio` a write to drive 0 runs the
read arm with `i = drive_count`.
-/

namespace D7os.Libd7

/-- An arm of the expansion: the `j`-th `one`, or the `g`-th `any` group with its
variable bound to `var`. -/
inductive Alternative
  | one (j : Nat)
  | any (g : Nat) (var : Nat)
  deriving DecidableEq

/-- The `subs.extend(...)` of the `any` groups from the `g`-th on. -/
def anySubs : Nat → List Nat → List Alternative
  | _, [] => []
  | g, len :: lens => (List.range len).map (.any g) ++ anySubs (g + 1) lens

/-- The `subs` vector the expansion passes to `ipc_select`. -/
def subs (k : Nat) (groups : List Nat) : List Alternative :=
  (List.range k).map .one ++ anySubs 0 groups

/-- The chain of `any` comparisons, from group `g` at running offset `i`. -/
def dispatchAny (index : Nat) : Nat → Nat → List Nat → Except Panic Alternative
  | _, _, [] => .error "internal error: entered unreachable code: Select returned unknown alternative"
  | g, i, len :: lens =>
    if index ≤ i + len then .ok (.any g (index - i)) else dispatchAny index (g + 1) (i + len) lens

/-- The chain of `one` comparisons, with `n` arms left at running offset `i`. -/
def dispatchOne (index : Nat) (groups : List Nat) : Nat → Nat → Except Panic Alternative
  | i, 0 => dispatchAny index 0 i groups
  | i, n + 1 => if index = i then .ok (.one i) else dispatchOne index groups (i + 1) n

/-- The `Ok(index)` arm of the expansion. -/
def dispatch (k : Nat) (groups : List Nat) (index : Nat) : Except Panic Alternative :=
  dispatchOne index groups 0 k

/-! ## The `subs` vector -/

section Subs

variable {g len p h q : Nat} {lens : List Nat}

theorem anySubs_getElem?_of_lt (hp : p < len) : (anySubs g (len :: lens))[p]? = some (.any g p) := by
  rw [anySubs, List.getElem?_append_left (by simpa using hp), List.getElem?_map, List.getElem?_range hp]
  rfl

theorem anySubs_getElem?_of_le (hp : len ≤ p) :
    (anySubs g (len :: lens))[p]? = (anySubs (g + 1) lens)[p - len]? := by
  rw [anySubs, List.getElem?_append_right (by simpa using hp), List.length_map, List.length_range]

/-- Every entry of the groups from the `g`-th on belongs to one of them. -/
theorem anySubs_mem : ∀ {g : Nat} {lens : List Nat} {a : Alternative}, a ∈ anySubs g lens →
    ∃ h q, a = .any h q ∧ g ≤ h
  | _, [], _, ha => by cases ha
  | g, len :: lens, a, ha => by
    rcases List.mem_append.mp ha with ha | ha
    · obtain ⟨q, -, rfl⟩ := List.mem_map.mp ha
      exact ⟨g, q, rfl, Nat.le_refl g⟩
    · obtain ⟨h, q, rfl, hh⟩ := anySubs_mem ha
      exact ⟨h, q, rfl, by omega⟩

theorem anySubs_group_ge (hp : (anySubs g lens)[p]? = some (.any h q)) : g ≤ h := by
  obtain ⟨h', q', he, hh⟩ := anySubs_mem (List.mem_of_getElem? hp)
  cases he
  exact hh

/-- An entry of the first group sits at its own position. -/
theorem anySubs_first_group : ∀ {g p q : Nat} {lens : List Nat},
    (anySubs g lens)[p]? = some (.any g q) → q = p
  | _, _, _, [], hp => by cases hp
  | g, p, q, len :: lens, hp => by
    rcases Nat.lt_or_ge p len with hlt | hle
    · rw [anySubs_getElem?_of_lt hlt] at hp
      cases hp
      rfl
    · -- the later groups have greater numbers
      rw [anySubs_getElem?_of_le hle] at hp
      have := anySubs_group_ge hp
      omega

/-- The first entry of the groups is the first of a group. -/
theorem anySubs_getElem?_zero : ∀ {g h q : Nat} {lens : List Nat},
    (anySubs g lens)[0]? = some (.any h q) → q = 0
  | _, _, _, [], hp => by cases hp
  | g, h, q, len :: lens, hp => by
    rcases Nat.eq_zero_or_pos len with rfl | hpos
    · rw [anySubs_getElem?_of_le (Nat.le_refl 0)] at hp
      exact anySubs_getElem?_zero hp
    · rw [anySubs_getElem?_of_lt hpos] at hp
      cases hp
      rfl

theorem subs_getElem? (k : Nat) (groups : List Nat) (index : Nat) :
    (subs k groups)[index]? = if index < k then some (.one index) else (anySubs 0 groups)[index - k]? := by
  unfold subs
  split
  · rename_i hk
    rw [List.getElem?_append_left (by simpa using hk), List.getElem?_map, List.getElem?_range hk]
    rfl
  · rename_i hk
    rw [List.getElem?_append_right (by simpa using hk), List.length_map, List.length_range]

end Subs

/-! ## The comparison chains -/

section Dispatch

variable {index : Nat}

/-- The `one` chain takes the indices of its arms and leaves the others to the
`any` chain, at the offset past them. -/
theorem dispatchOne_eq (groups : List Nat) : ∀ (n : Nat) {i : Nat}, i ≤ index →
    dispatchOne index groups i n =
      if index < i + n then .ok (.one index) else dispatchAny index 0 (i + n) groups
  | 0, i, hi => by rw [dispatchOne, if_neg (by omega), Nat.add_zero]
  | n + 1, i, hi => by
    by_cases he : index = i
    · subst he
      rw [dispatchOne, if_pos rfl, if_pos (by omega)]
    · rw [dispatchOne, if_neg he, dispatchOne_eq groups n (by omega), show i + 1 + n = i + (n + 1) by omega]

theorem dispatch_eq (k : Nat) (groups : List Nat) (index : Nat) :
    dispatch k groups index = if index < k then .ok (.one index) else dispatchAny index 0 k groups := by
  rw [dispatch, dispatchOne_eq groups k (Nat.zero_le index), Nat.zero_add]

/-- **Where the `any` chain is right**: an entry past the first of its group, or
in the group the chain starts at, is found with its own group and position. -/
theorem dispatchAny_of_getElem? : ∀ {lens : List Nat} {g i h q : Nat}, i ≤ index →
    (anySubs g lens)[index - i]? = some (.any h q) → q ≠ 0 ∨ h = g →
      dispatchAny index g i lens = .ok (.any h q)
  | [], _, _, _, _, _, hp, _ => by cases hp
  | len :: lens, g, i, h, q, hi, hp, hq => by
    rcases Nat.lt_or_ge (index - i) len with hlt | hle
    · -- in the group at hand
      rw [anySubs_getElem?_of_lt hlt] at hp
      simp only [Option.some.injEq, Alternative.any.injEq] at hp
      obtain ⟨rfl, rfl⟩ := hp
      rw [dispatchAny, if_pos (by omega)]
    · rw [anySubs_getElem?_of_le hle] at hp
      have hh := anySubs_group_ge hp
      have hq : q ≠ 0 := hq.resolve_right (by omega)
      rcases Nat.eq_or_lt_of_le hle with heq | hgt
      · -- the first entry after the group is the first of a later group
        rw [← heq, Nat.sub_self] at hp
        exact absurd (anySubs_getElem?_zero hp) hq
      · rw [dispatchAny, if_neg (by omega)]
        exact dispatchAny_of_getElem? (by omega) (by rwa [Nat.sub_add_eq]) (.inl hq)

/-- **Where the `any` chain is wrong**: the first entry of a later group is taken
by a group before it, with the variable equal to that group's length. -/
theorem dispatchAny_of_first : ∀ {lens : List Nat} {g i h : Nat}, i ≤ index →
    (anySubs g lens)[index - i]? = some (.any h 0) → g < h →
      ∃ j len, g + j < h ∧ lens[j]? = some len ∧ dispatchAny index g i lens = .ok (.any (g + j) len)
  | [], _, _, _, _, hp, _ => by cases hp
  | len :: lens, g, i, h, hi, hp, hgh => by
    rcases Nat.lt_or_ge (index - i) len with hlt | hle
    · rw [anySubs_getElem?_of_lt hlt] at hp
      simp only [Option.some.injEq, Alternative.any.injEq] at hp
      omega
    · rw [anySubs_getElem?_of_le hle] at hp
      rcases Nat.eq_or_lt_of_le hle with heq | hgt
      · -- the index one past this group: `index <= i + len` still holds
        refine ⟨0, len, by omega, rfl, ?_⟩
        rw [dispatchAny, if_pos (by omega), show index - i = len by omega, Nat.add_zero]
      · -- a first entry further on, of a group after the next
        have hnext : g + 1 < h := by
          rcases Nat.eq_or_lt_of_le (anySubs_group_ge hp) with hh | hh
          · subst hh
            have := anySubs_first_group hp
            omega
          · exact hh
        obtain ⟨j, len', hj, hlen, hd⟩ :=
          dispatchAny_of_first (i := i + len) (by omega) (by rwa [Nat.sub_add_eq]) hnext
        refine ⟨j + 1, len', by omega, hlen, ?_⟩
        rw [dispatchAny, if_neg (by omega), hd, show g + 1 + j = g + (j + 1) by omega]

end Dispatch

/-- **`select!` dispatch.** An index into `subs` runs the arm that owns it,
with the position in its group, unless it is the first of a group after the
first; such an index runs an earlier group's arm with the variable equal to that
group's length, one past its end. In `driver_ata_pio` with one drive (`one` arm
`info`, groups read and write of one each) the write of drive 0 runs the read arm
with `i = 1`. -/
theorem select_dispatch_misses_group_starts :
    (∀ k groups index a, (subs k groups)[index]? = some a → (∀ g, a ≠ .any (g + 1) 0) →
      dispatch k groups index = .ok a) ∧
    (∀ k groups index g, (subs k groups)[index]? = some (.any (g + 1) 0) →
      ∃ g' len, g' ≤ g ∧ groups[g']? = some len ∧ dispatch k groups index = .ok (.any g' len)) ∧
    (subs 1 [1, 1])[2]? = some (.any 1 0) ∧ dispatch 1 [1, 1] 2 = .ok (.any 0 1) := by
  refine ⟨fun k groups index a ha hfirst => ?_, fun k groups index g ha => ?_, rfl, rfl⟩
  · rw [subs_getElem?] at ha
    rw [dispatch_eq]
    split
    · rename_i hk
      rw [if_pos hk] at ha
      cases ha
      rfl
    · rename_i hk
      rw [if_neg hk] at ha
      obtain ⟨h, q, rfl, -⟩ := anySubs_mem (List.mem_of_getElem? ha)
      -- not the first of a later group: past the first, or in the first group
      have hq : q ≠ 0 ∨ h = 0 := by
        cases h with
        | zero => exact .inr rfl
        | succ g => exact .inl fun hq => hfirst g (by rw [hq])
      exact dispatchAny_of_getElem? (by omega) ha hq
  · rw [subs_getElem?] at ha
    split at ha
    · cases ha
    · rename_i hk
      rw [dispatch_eq, if_neg hk]
      obtain ⟨j, len, hj, hlen, hd⟩ := dispatchAny_of_first (by omega) ha (Nat.succ_pos g)
      exact ⟨j, len, by omega, hlen, by rw [hd, Nat.zero_add]⟩

end D7os.Libd7

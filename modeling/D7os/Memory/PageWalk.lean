import D7os.Memory.Paging

/-!
# What the page map maps

The mapper is meant to be a finite map from 2 MiB page slots to frames. `walk`
reads that map off the tables; under the invariant `Wf`, `translate` returns the
walk, and `map_to`, `unmap` and `init` act on it as insertion, deletion and a
one-entry map. `Wf` asks that every table a used P4 or P3 entry points to is a
table created so far, below `table_count`, that no two entries point to the same
table, and that every mapping is a huge page; the bump counter keeps it.

Two maps may share the physical memory, as the kernel's `PAGE_MAP` and a
process' tables do: a well-formed map reads and `map_to` writes only its own
table area, so calls on one leave the walk of the other as it was while the two
areas are apart.
-/

namespace D7os

namespace PageMap

/-- The P2 entry reached through used P4 and P3 entries. -/
def walk (m : PageMap) (mem : PhysMemory) (addr : Nat) : Option PageTableEntry :=
  match mem m.physAddr (p4Index addr) with
  | none => none
  | some e4 =>
    match mem e4.addr (p3Index addr) with
    | none => none
    | some e3 => mem e3.addr (p2Index addr)

/-- The lower table that a used P4 entry (`.inl i`) or a used P3 entry
(`.inr (i, j)`) points to. -/
def lowerTable (m : PageMap) (mem : PhysMemory) : Nat ⊕ (Nat × Nat) → Option Nat
  | .inl i => (mem m.physAddr i).map PageTableEntry.addr
  | .inr (i, j) =>
    match mem m.physAddr i with
    | none => none
    | some e4 => (mem e4.addr j).map PageTableEntry.addr

/-- Two addresses in the same 2 MiB page slot. -/
def SameSlot (q p : Nat) : Prop :=
  p4Index q = p4Index p ∧ p3Index q = p3Index p ∧ p2Index q = p2Index p

instance (q p : Nat) : Decidable (SameSlot q p) := inferInstanceAs (Decidable (_ ∧ _))

/-- One of the tables created after the P4 one. -/
def Allocated (m : PageMap) (a : Nat) : Prop :=
  ∃ k, 0 < k ∧ k < m.tableCount ∧ a = frameAddr m.physAddr k

structure Wf (m : PageMap) (mem : PhysMemory) : Prop where
  pos : 0 < m.tableCount
  allocated : ∀ l a, m.lowerTable mem l = some a → m.Allocated a
  injective : ∀ l l' a, m.lowerTable mem l = some a → m.lowerTable mem l' = some a → l = l'
  huge : ∀ addr e, m.walk mem addr = some e → e.flags.contains PageTableFlags.HUGE_PAGE = true

/-! ## Tables and walks -/

theorem walk_eq (m : PageMap) (mem : PhysMemory) (addr : Nat) :
    m.walk mem addr =
      (m.lowerTable mem (.inr (p4Index addr, p3Index addr))).bind fun t2 => mem t2 (p2Index addr) := by
  simp only [walk, lowerTable]
  cases mem m.physAddr (p4Index addr) with
  | none => rfl
  | some e4 =>
    dsimp only
    cases mem e4.addr (p3Index addr) <;> rfl

theorem lowerTable_inr {m : PageMap} {mem : PhysMemory} {i j : Nat} {e4 : PageTableEntry}
    (h4 : mem m.physAddr i = some e4) :
    m.lowerTable mem (.inr (i, j)) = (mem e4.addr j).map PageTableEntry.addr := by
  simp [lowerTable, h4]

theorem lowerTable_inr_of_none {m : PageMap} {mem : PhysMemory} {i j : Nat}
    (h4 : mem m.physAddr i = none) : m.lowerTable mem (.inr (i, j)) = none := by
  simp [lowerTable, h4]

theorem frameAddr_inj {base k k' : Nat} (h : frameAddr base k = frameAddr base k') : k = k' := by
  unfold frameAddr at h
  omega

theorem Allocated.ne_base {m : PageMap} {a : Nat} (h : m.Allocated a) : a ≠ m.physAddr := by
  obtain ⟨k, hk, -, rfl⟩ := h
  exact frameAddr_ne_base hk

/-- The next slot of the table area is not yet a table. -/
theorem Allocated.ne_next {m : PageMap} {a : Nat} (h : m.Allocated a) :
    a ≠ frameAddr m.physAddr m.tableCount := by
  obtain ⟨k, -, hk, rfl⟩ := h
  intro he
  have := frameAddr_inj he
  omega

theorem Allocated.ge_base {m : PageMap} {a : Nat} (h : m.Allocated a) : m.physAddr ≤ a := by
  obtain ⟨k, -, -, rfl⟩ := h
  unfold frameAddr
  omega

/-- The table just created at slot `table_count`. -/
theorem allocated_next {m : PageMap} (hc : 0 < m.tableCount) :
    (⟨m.physAddr, m.tableCount + 1, m.aligned⟩ : PageMap).Allocated
      (frameAddr m.physAddr m.tableCount) :=
  ⟨m.tableCount, hc, Nat.lt_succ_self _, rfl⟩

theorem Allocated.succ {m : PageMap} {a : Nat} (h : m.Allocated a) :
    (⟨m.physAddr, m.tableCount + 1, m.aligned⟩ : PageMap).Allocated a := by
  obtain ⟨k, hk, hlt, rfl⟩ := h
  exact ⟨k, hk, Nat.lt_succ_of_lt hlt, rfl⟩

/-- A P3 table is not a P2 table, and neither is the P4 one. -/
theorem Wf.p2_ne_p3 {m : PageMap} {mem : PhysMemory} (hw : m.Wf mem) {i i' j : Nat} {t2 t3 : Nat}
    (h2 : m.lowerTable mem (.inr (i, j)) = some t2) (h3 : m.lowerTable mem (.inl i') = some t3) :
    t2 ≠ t3 := by
  rintro rfl
  cases hw.injective _ _ _ h2 h3

theorem Wf.p4_entry {m : PageMap} {mem : PhysMemory} (hw : m.Wf mem) {i : Nat}
    {e4 : PageTableEntry} (h4 : mem m.physAddr i = some e4) : m.Allocated e4.addr :=
  hw.allocated (.inl i) _ (by simp [lowerTable, h4])

/-- `lowerTable` and `walk` read only `phys_addr` of the map. -/
theorem lowerTable_withCount (m : PageMap) (mem : PhysMemory) (c : Nat) :
    (⟨m.physAddr, c, m.aligned⟩ : PageMap).lowerTable mem = m.lowerTable mem := rfl

theorem walk_withCount (m : PageMap) (mem : PhysMemory) (c : Nat) :
    (⟨m.physAddr, c, m.aligned⟩ : PageMap).walk mem = m.walk mem := rfl

theorem lowerTable_of_physAddr {m m' : PageMap} (h : m'.physAddr = m.physAddr) :
    m'.lowerTable = m.lowerTable := by
  funext mem l
  rcases l with i | ⟨i, j⟩ <;> simp [lowerTable, h]

theorem walk_of_physAddr {m m' : PageMap} (h : m'.physAddr = m.physAddr) : m'.walk = m.walk := by
  funext mem q
  simp [walk, h]

/-! ## Writes below the P4 table -/

/-- A write to a table other than the P4 one changes at most the P3 entries of that table. -/
theorem lowerTable_setEntry {m : PageMap} {mem : PhysMemory} {t idx : Nat}
    {e : Option PageTableEntry} (ht : t ≠ m.physAddr) (l : Nat ⊕ (Nat × Nat)) :
    m.lowerTable (setEntry mem t idx e) l =
      match l with
      | .inl i => m.lowerTable mem (.inl i)
      | .inr (i, j) =>
        if m.lowerTable mem (.inl i) = some t ∧ j = idx then e.map PageTableEntry.addr
        else m.lowerTable mem (.inr (i, j)) := by
  rcases l with i | ⟨i, j⟩
  · simp [lowerTable, setEntry_ne _ _ ht.symm]
  · simp only [lowerTable, setEntry_ne _ _ ht.symm]
    split
    · rename_i h4
      simp [h4]
    · rename_i e4 h4
      by_cases h : e4.addr = t
      · subst h
        by_cases hj : j = idx
        · simp [h4, hj]
        · simp [h4, hj]
      · simp [h4, h]

/-- Zeroing a table other than the P4 one empties the P3 entries of that table. -/
theorem lowerTable_zeroTable {m : PageMap} {mem : PhysMemory} {a : Nat} (ha : a ≠ m.physAddr)
    (l : Nat ⊕ (Nat × Nat)) :
    m.lowerTable (zeroTable mem a) l =
      match l with
      | .inl i => m.lowerTable mem (.inl i)
      | .inr (i, j) => if m.lowerTable mem (.inl i) = some a then none
        else m.lowerTable mem (.inr (i, j)) := by
  rcases l with i | ⟨i, j⟩
  · simp [lowerTable, zeroTable_ne ha.symm]
  · simp only [lowerTable, zeroTable_ne ha.symm]
    split
    · rename_i h4
      simp [h4]
    · rename_i e4 h4
      by_cases h : e4.addr = a
      · subst h
        simp [h4]
      · simp [h4, h]

/-! ## A new P3 table -/

section FreshP3

variable {m : PageMap} {mem : PhysMemory} {i : Nat} {flags : PageTableFlags}

/-- The state after the P4 branch of `map_to` creates the P3 table of slot `i`. -/
theorem lowerTable_freshP3 (hw : m.Wf mem) (hi : mem m.physAddr i = none) (l : Nat ⊕ (Nat × Nat)) :
    (⟨m.physAddr, m.tableCount + 1, m.aligned⟩ : PageMap).lowerTable
        (zeroTable (setEntry mem m.physAddr i (some ⟨frameAddr m.physAddr m.tableCount, flags⟩))
          (frameAddr m.physAddr m.tableCount)) l =
      match l with
      | .inl i' => if i' = i then some (frameAddr m.physAddr m.tableCount) else m.lowerTable mem (.inl i')
      | .inr (i', j) => if i' = i then none else m.lowerTable mem (.inr (i', j)) := by
  have hne : m.physAddr ≠ frameAddr m.physAddr m.tableCount := (frameAddr_ne_base hw.pos).symm
  rcases l with i' | ⟨i', j⟩
  · by_cases h : i' = i
    · subst h
      simp [lowerTable, zeroTable_ne hne]
    · simp [lowerTable, zeroTable_ne hne, h]
  · by_cases h : i' = i
    · subst h
      simp [lowerTable, zeroTable_ne hne]
    · simp only [lowerTable, zeroTable_ne hne, setEntry_same, Function.update_of_ne h, h, if_false]
      cases h4 : mem m.physAddr i' with
      | none => rfl
      | some e4 =>
        -- the P3 table of another slot is an older table
        have ha := hw.p4_entry h4
        simp [zeroTable_ne ha.ne_next, setEntry_ne _ _ ha.ne_base]

theorem walk_freshP3 (hw : m.Wf mem) (hi : mem m.physAddr i = none) (q : Nat) :
    (⟨m.physAddr, m.tableCount + 1, m.aligned⟩ : PageMap).walk
        (zeroTable (setEntry mem m.physAddr i (some ⟨frameAddr m.physAddr m.tableCount, flags⟩))
          (frameAddr m.physAddr m.tableCount)) q = m.walk mem q := by
  rw [walk_eq, walk_eq, lowerTable_freshP3 hw hi]
  dsimp only
  split_ifs with h
  · rw [h, lowerTable_inr_of_none hi]
    rfl
  · cases ht : m.lowerTable mem (.inr (p4Index q, p3Index q)) with
    | none => rfl
    | some t2 =>
      have ha := hw.allocated _ _ ht
      simp [zeroTable_ne ha.ne_next, setEntry_ne _ _ ha.ne_base]

theorem wf_freshP3 (hw : m.Wf mem) (hi : mem m.physAddr i = none) :
    (⟨m.physAddr, m.tableCount + 1, m.aligned⟩ : PageMap).Wf
      (zeroTable (setEntry mem m.physAddr i (some ⟨frameAddr m.physAddr m.tableCount, flags⟩))
        (frameAddr m.physAddr m.tableCount)) where
  pos := Nat.succ_pos _
  allocated l a hl := by
    rw [lowerTable_freshP3 hw hi] at hl
    rcases l with i' | ⟨i', j⟩
    · dsimp only at hl
      split_ifs at hl
      · cases hl
        exact allocated_next hw.pos
      · exact (hw.allocated _ _ hl).succ
    · dsimp only at hl
      split_ifs at hl
      exact (hw.allocated _ _ hl).succ
  injective l l' a hl hl' := by
    rw [lowerTable_freshP3 hw hi] at hl hl'
    -- the new table is the only one at the next slot
    rcases l with i₁ | ⟨i₁, j₁⟩ <;> rcases l' with i₂ | ⟨i₂, j₂⟩ <;> dsimp only at hl hl' <;>
      split_ifs at hl hl' with h₁ h₂ <;>
      first
        | (subst_vars; rfl)
        | exact hw.injective _ _ _ hl hl'
        | (cases hl; exact absurd rfl (hw.allocated _ _ hl').ne_next)
        | (cases hl'; exact absurd rfl (hw.allocated _ _ hl).ne_next)
  huge addr e he := by
    rw [walk_freshP3 hw hi] at he
    exact hw.huge addr e he

end FreshP3

/-! ## A new P2 table -/

section FreshP2

variable {m : PageMap} {mem : PhysMemory} {i j t3 : Nat} {flags : PageTableFlags}

/-- The state after the P3 branch of `map_to` creates the P2 table of slot `(i, j)`. -/
theorem lowerTable_freshP2 (hw : m.Wf mem) (h3 : m.lowerTable mem (.inl i) = some t3)
    (l : Nat ⊕ (Nat × Nat)) :
    m.lowerTable (zeroTable (setEntry mem t3 j (some ⟨frameAddr m.physAddr m.tableCount, flags⟩))
        (frameAddr m.physAddr m.tableCount)) l =
      if l = .inr (i, j) then some (frameAddr m.physAddr m.tableCount) else m.lowerTable mem l := by
  have ht3 := hw.allocated _ _ h3
  have hnext : frameAddr m.physAddr m.tableCount ≠ m.physAddr := frameAddr_ne_base hw.pos
  rw [lowerTable_zeroTable hnext]
  rcases l with i' | ⟨i', j'⟩
  · simp [lowerTable_setEntry ht3.ne_base]
  · -- no P4 slot points to the new table, and only slot `i` points to `t3`
    have hfresh : m.lowerTable mem (.inl i') ≠ some (frameAddr m.physAddr m.tableCount) :=
      fun h => (hw.allocated _ _ h).ne_next rfl
    have hslot : m.lowerTable mem (.inl i') = some t3 ↔ i' = i := by
      constructor
      · intro h
        cases hw.injective _ _ _ h h3
        rfl
      · rintro rfl
        exact h3
    simp [lowerTable_setEntry ht3.ne_base, hfresh, hslot]

theorem walk_freshP2 (hw : m.Wf mem) (h3 : m.lowerTable mem (.inl i) = some t3)
    (hj : mem t3 j = none) (q : Nat) :
    m.walk (zeroTable (setEntry mem t3 j (some ⟨frameAddr m.physAddr m.tableCount, flags⟩))
        (frameAddr m.physAddr m.tableCount)) q = m.walk mem q := by
  rw [walk_eq, walk_eq, lowerTable_freshP2 hw h3]
  split_ifs with h
  · -- the slot had no P2 table, and the new one is empty
    obtain ⟨e4, h4, rfl⟩ : ∃ e4, mem m.physAddr i = some e4 ∧ e4.addr = t3 := by
      simpa [lowerTable] using h3
    have h' : p4Index q = i ∧ p3Index q = j := by simpa using h
    rw [h'.1, h'.2, lowerTable_inr h4, hj]
    simp
  · cases ht : m.lowerTable mem (.inr (p4Index q, p3Index q)) with
    | none => rfl
    | some t2 =>
      have ha := hw.allocated _ _ ht
      have hne : t2 ≠ t3 := hw.p2_ne_p3 ht h3
      simp [zeroTable_ne ha.ne_next, setEntry_ne _ _ hne]

theorem wf_freshP2 (hw : m.Wf mem) (h3 : m.lowerTable mem (.inl i) = some t3)
    (hj : mem t3 j = none) :
    (⟨m.physAddr, m.tableCount + 1, m.aligned⟩ : PageMap).Wf
      (zeroTable (setEntry mem t3 j (some ⟨frameAddr m.physAddr m.tableCount, flags⟩))
        (frameAddr m.physAddr m.tableCount)) where
  pos := Nat.succ_pos _
  allocated l a hl := by
    rw [lowerTable_withCount, lowerTable_freshP2 hw h3] at hl
    split_ifs at hl
    · cases hl
      exact allocated_next hw.pos
    · exact (hw.allocated _ _ hl).succ
  injective l l' a hl hl' := by
    rw [lowerTable_withCount, lowerTable_freshP2 hw h3] at hl hl'
    split_ifs at hl hl' with h₁ h₂ h₂
    · rw [h₁, h₂]
    · cases hl
      exact absurd rfl (hw.allocated _ _ hl').ne_next
    · cases hl'
      exact absurd rfl (hw.allocated _ _ hl).ne_next
    · exact hw.injective _ _ _ hl hl'
  huge addr e he := by
    rw [walk_withCount, walk_freshP2 hw h3 hj] at he
    exact hw.huge addr e he

end FreshP2

/-! ## Writing a mapping -/

section Leaf

variable {m : PageMap} {mem : PhysMemory} {i j t2 k : Nat} {e : Option PageTableEntry}

/-- A write to a P2 table leaves every table pointer as it was. -/
theorem lowerTable_setLeaf (hw : m.Wf mem) (h2 : m.lowerTable mem (.inr (i, j)) = some t2)
    (l : Nat ⊕ (Nat × Nat)) : m.lowerTable (setEntry mem t2 k e) l = m.lowerTable mem l := by
  rw [lowerTable_setEntry (hw.allocated _ _ h2).ne_base]
  rcases l with i' | ⟨i', j'⟩
  · rfl
  · have hnot : m.lowerTable mem (.inl i') ≠ some t2 := fun h => hw.p2_ne_p3 h2 h rfl
    simp [hnot]

theorem walk_setLeaf (hw : m.Wf mem) (h2 : m.lowerTable mem (.inr (i, j)) = some t2) (q : Nat) :
    m.walk (setEntry mem t2 k e) q =
      if p4Index q = i ∧ p3Index q = j ∧ p2Index q = k then e else m.walk mem q := by
  rw [walk_eq, walk_eq, lowerTable_setLeaf hw h2]
  cases ht : m.lowerTable mem (.inr (p4Index q, p3Index q)) with
  | none =>
    -- the slot of `q` has no P2 table, so it is not `(i, j)`
    have hne : ¬(p4Index q = i ∧ p3Index q = j ∧ p2Index q = k) := by
      rintro ⟨rfl, rfl, -⟩
      rw [h2] at ht
      cases ht
    rw [if_neg hne]
    rfl
  | some t2' =>
    by_cases hq : p4Index q = i ∧ p3Index q = j
    · obtain ⟨rfl, rfl⟩ := hq
      rw [h2] at ht
      cases ht
      by_cases hk : p2Index q = k
      · simp [hk]
      · simp [hk]
    · -- another P2 table than `t2`
      have hne : t2' ≠ t2 := by
        rintro rfl
        cases hw.injective _ _ _ ht h2
        exact hq ⟨rfl, rfl⟩
      have hq' : ¬(p4Index q = i ∧ p3Index q = j ∧ p2Index q = k) := fun h => hq ⟨h.1, h.2.1⟩
      rw [if_neg hq']
      simp [setEntry_ne _ _ hne]

theorem wf_setLeaf (hw : m.Wf mem) (h2 : m.lowerTable mem (.inr (i, j)) = some t2)
    (he : ∀ e' ∈ e, e'.flags.contains PageTableFlags.HUGE_PAGE = true) :
    m.Wf (setEntry mem t2 k e) where
  pos := hw.pos
  allocated l a hl := hw.allocated l a (by rwa [lowerTable_setLeaf hw h2] at hl)
  injective l l' a hl hl' :=
    hw.injective l l' a (by rwa [lowerTable_setLeaf hw h2] at hl)
      (by rwa [lowerTable_setLeaf hw h2] at hl')
  huge addr e' he' := by
    rw [walk_setLeaf hw h2] at he'
    split_ifs at he'
    · exact he e' he'
    · exact hw.huge addr e' he'

end Leaf

/-! ## `map_to`, `unmap`, `init` and `translate` on the walk -/

section Operations

variable {m : PageMap} {mem : PhysMemory}

/-- The P4 step of `map_to`: the P3 table of slot `i`, new or old, and the walk unchanged. -/
theorem nextTable_p4 (hw : m.Wf mem) (i : Nat) :
    (m.nextTable mem m.physAddr i).1.Wf (m.nextTable mem m.physAddr i).2.1 ∧
      (m.nextTable mem m.physAddr i).1.physAddr = m.physAddr ∧
      m.lowerTable (m.nextTable mem m.physAddr i).2.1 (.inl i) =
        some (m.nextTable mem m.physAddr i).2.2 ∧
      ∀ q, m.walk (m.nextTable mem m.physAddr i).2.1 q = m.walk mem q := by
  cases h4 : mem m.physAddr i with
  | none =>
    rw [nextTable_of_unused h4]
    refine ⟨wf_freshP3 hw h4, rfl, ?_, walk_freshP3 hw h4⟩
    rw [← lowerTable_withCount m _ (m.tableCount + 1), lowerTable_freshP3 hw h4]
    simp
  | some e4 =>
    rw [nextTable_of_used h4]
    exact ⟨hw, rfl, by simp [lowerTable, h4], fun _ => rfl⟩

/-- The P3 step of `map_to` below the P3 table `t3` of slot `i`. -/
theorem nextTable_p3 (hw : m.Wf mem) {i t3 : Nat} (h3 : m.lowerTable mem (.inl i) = some t3)
    (j : Nat) :
    (m.nextTable mem t3 j).1.Wf (m.nextTable mem t3 j).2.1 ∧
      (m.nextTable mem t3 j).1.physAddr = m.physAddr ∧
      m.lowerTable (m.nextTable mem t3 j).2.1 (.inr (i, j)) = some (m.nextTable mem t3 j).2.2 ∧
      ∀ q, m.walk (m.nextTable mem t3 j).2.1 q = m.walk mem q := by
  cases hj : mem t3 j with
  | none =>
    rw [nextTable_of_unused hj]
    refine ⟨wf_freshP2 hw h3 hj, rfl, ?_, walk_freshP2 hw h3 hj⟩
    rw [lowerTable_freshP2 hw h3]
    simp
  | some e3 =>
    rw [nextTable_of_used hj]
    obtain ⟨e4, h4, rfl⟩ : ∃ e4, mem m.physAddr i = some e4 ∧ e4.addr = t3 := by
      simpa [lowerTable] using h3
    exact ⟨hw, rfl, by rw [lowerTable_inr h4, hj]; rfl, fun _ => rfl⟩

theorem contains_hugePage (flags : PageTableFlags) :
    (flags ||| PageTableFlags.HUGE_PAGE).contains PageTableFlags.HUGE_PAGE = true := by
  simp only [PageTableFlags.contains, beq_iff_eq]
  apply UInt64.toBitVec_inj.mp
  ext i hi
  -- bit by bit: a bit set in `HUGE_PAGE` is set in `flags ||| HUGE_PAGE`
  simp only [UInt64.toBitVec_and, UInt64.toBitVec_or, BitVec.getElem_and, BitVec.getElem_or]
  cases PageTableFlags.HUGE_PAGE.toBitVec[i] <;> simp

/-- **`map_to` inserts.** On a well-formed map, `map_to` keeps the map well formed
and changes the walk at the slot of `page` only, where it now finds `frame`. -/
theorem mapTo_walk (hw : m.Wf mem) (page : Page) (frame : PhysFrame) (flags : PageTableFlags) :
    (m.mapTo mem page frame flags).1.Wf (m.mapTo mem page frame flags).2 ∧
      (m.mapTo mem page frame flags).1.physAddr = m.physAddr ∧
      ∀ q, (m.mapTo mem page frame flags).1.walk (m.mapTo mem page frame flags).2 q =
        if SameSlot q page.start then some ⟨frame.start, flags ||| PageTableFlags.HUGE_PAGE⟩
        else m.walk mem q := by
  obtain ⟨hw₁, hp₁, h3, hwalk₁⟩ := nextTable_p4 hw (p4Index page.start)
  generalize hr₁ : m.nextTable mem m.physAddr (p4Index page.start) = r₁ at hw₁ hp₁ h3 hwalk₁
  rcases r₁ with ⟨m₁, mem₁, t3⟩
  dsimp only at hw₁ hp₁ h3 hwalk₁
  rw [← lowerTable_of_physAddr hp₁] at h3
  obtain ⟨hw₂, hp₂, h2, hwalk₂⟩ := nextTable_p3 hw₁ h3 (p3Index page.start)
  generalize hr₂ : m₁.nextTable mem₁ t3 (p3Index page.start) = r₂ at hw₂ hp₂ h2 hwalk₂
  rcases r₂ with ⟨m₂, mem₂, t2⟩
  dsimp only at hw₂ hp₂ h2 hwalk₂
  rw [← lowerTable_of_physAddr hp₂] at h2
  have hmap : m.mapTo mem page frame flags =
      (m₂, setEntry mem₂ t2 (p2Index page.start)
        (some ⟨frame.start, flags ||| PageTableFlags.HUGE_PAGE⟩)) := by
    unfold mapTo
    rw [hr₁]
    dsimp only
    rw [hr₂]
  rw [hmap]
  refine ⟨wf_setLeaf hw₂ h2 (by simp [contains_hugePage]), hp₂.trans hp₁, fun q => ?_⟩
  rw [walk_setLeaf hw₂ h2, walk_of_physAddr hp₂, hwalk₂, walk_of_physAddr hp₁, hwalk₁]
  rfl

/-- Under `Wf`, `translate` neither panics nor looks past the walk. -/
theorem translate_eq (hw : m.Wf mem) (addr : Nat) :
    m.translate mem addr = .ok ((m.walk mem addr).map PageTableEntry.addr) := by
  have htable : ∀ a, m.Allocated a → m.tableAt a = .ok a := fun a ha => by
    simp [tableAt, Nat.not_lt.mpr ha.ge_base]
  unfold translate walk
  -- one case per level: an unused entry ends both the walk and the translation
  rcases h4 : mem m.physAddr (p4Index addr) with _ | e4
  · rfl
  dsimp only
  rw [htable _ (hw.p4_entry h4)]
  dsimp only [bind, Except.bind]
  rcases h3 : mem e4.addr (p3Index addr) with _ | e3
  · rfl
  have ha3 : m.Allocated e3.addr :=
    hw.allocated (.inr (p4Index addr, p3Index addr)) _ (by rw [lowerTable_inr h4, h3]; rfl)
  dsimp only
  rw [htable _ ha3]
  dsimp only [bind, Except.bind]
  rcases h2 : mem e3.addr (p2Index addr) with _ | e2
  · rfl
  have hh := hw.huge addr e2 (by simp [walk, h4, h3, h2])
  dsimp only
  rw [if_pos hh]
  rfl

end Operations

/-! ## `init` -/

section Init

variable {m : PageMap} {M : PhysMemory} {i4 i3 i2 : Nat}

/-- The three chained tables that `init` leaves, read as a map. -/
theorem initTables_walk (hc : m.tableCount = 3)
    (hp4 : ∀ i, M m.physAddr i =
      if i = i4 then some ⟨frameAddr m.physAddr 1, ptFlags3⟩ else none)
    (hp3 : ∀ j, M (frameAddr m.physAddr 1) j =
      if j = i3 then some ⟨frameAddr m.physAddr 2, ptFlags3⟩ else none)
    (hp2 : ∀ k, M (frameAddr m.physAddr 2) k = if k = i2 then some ⟨m.physAddr, ptFlags2⟩ else none) :
    m.Wf M ∧ ∀ q, m.walk M q =
      if p4Index q = i4 ∧ p3Index q = i3 ∧ p2Index q = i2 then some ⟨m.physAddr, ptFlags2⟩
      else none := by
  have hl : ∀ l, m.lowerTable M l =
      match l with
      | .inl i => if i = i4 then some (frameAddr m.physAddr 1) else none
      | .inr (i, j) => if i = i4 ∧ j = i3 then some (frameAddr m.physAddr 2) else none := by
    rintro (i | ⟨i, j⟩)
    · by_cases hi : i = i4 <;> simp [lowerTable, hp4, hi]
    · by_cases hi : i = i4
      · by_cases hj : j = i3 <;> simp [lowerTable, hp4, hp3, hi, hj]
      · simp [lowerTable, hp4, hi]
  have hwalk : ∀ q, m.walk M q =
      if p4Index q = i4 ∧ p3Index q = i3 ∧ p2Index q = i2 then some ⟨m.physAddr, ptFlags2⟩
      else none := by
    intro q
    rw [walk_eq, hl]
    by_cases h43 : p4Index q = i4 ∧ p3Index q = i3
    · by_cases h2 : p2Index q = i2 <;> simp [h43, h2, hp2]
    · have : ¬(p4Index q = i4 ∧ p3Index q = i3 ∧ p2Index q = i2) := fun h => h43 ⟨h.1, h.2.1⟩
      simp only [if_neg h43, if_neg this]
      rfl
  have h12 : frameAddr m.physAddr 1 ≠ frameAddr m.physAddr 2 :=
    fun h => absurd (frameAddr_inj h) (by decide)
  refine ⟨⟨by omega, ?_, ?_, ?_⟩, hwalk⟩
  · intro l a ha
    rw [hl] at ha
    rcases l with i | ⟨i, j⟩
    · dsimp only at ha
      split_ifs at ha
      exact ⟨1, by omega, by omega, (Option.some.inj ha).symm⟩
    · dsimp only at ha
      split_ifs at ha
      exact ⟨2, by omega, by omega, (Option.some.inj ha).symm⟩
  · intro l l' a ha ha'
    rw [hl] at ha ha'
    -- the P3 table and the P2 table are the only targets, and they differ
    rcases l with i | ⟨i, j⟩ <;> rcases l' with i' | ⟨i', j'⟩ <;> dsimp only at ha ha' <;>
      split_ifs at ha ha' with h₁ h₂
    · rw [h₁, h₂]
    · exact absurd ((Option.some.inj ha).trans (Option.some.inj ha').symm) h12
    · exact absurd ((Option.some.inj ha').trans (Option.some.inj ha).symm) h12
    · rw [h₁.1, h₁.2, h₂.1, h₂.2]
  · intro addr e he
    rw [hwalk] at he
    split_ifs at he
    cases he
    show ptFlags2.contains PageTableFlags.HUGE_PAGE = true
    decide

/-- **`init` maps one page.** A successful `init` gives a well-formed map whose
walk finds the table area at the slot of `virt_addr` and nothing elsewhere. -/
theorem init_walk {mem mem' : PhysMemory} {physAddr virtAddr : Nat}
    (h : init mem physAddr virtAddr = .ok (m, mem')) :
    m.Wf mem' ∧ ∀ q, m.walk mem' q =
      if SameSlot q virtAddr then some ⟨physAddr, ptFlags2⟩ else none := by
  unfold init at h
  simp only [Nat.mul_zero, Nat.add_zero] at h
  split at h
  · cases h
  rename_i page hpage
  have hvirt : page.start = virtAddr := by
    unfold Page.fromStartAddress at hpage
    split at hpage
    · cases hpage
      rfl
    · cases hpage
  subst hvirt
  split at h
  · cases h
    have h0 : frameAddr physAddr 0 = physAddr := by simp [frameAddr]
    have h1 : frameAddr physAddr 1 ≠ physAddr := frameAddr_ne_base Nat.one_pos
    have h2 : frameAddr physAddr 2 ≠ physAddr := frameAddr_ne_base Nat.two_pos
    have h12 : frameAddr physAddr 1 ≠ frameAddr physAddr 2 :=
      fun h => absurd (frameAddr_inj h) (by decide)
    rw [h0]
    refine initTables_walk rfl ?_ ?_ ?_
    · intro i
      simp [setEntry_ne _ _ h2.symm, setEntry_ne _ _ h1.symm, zeroTable_ne h2.symm,
        zeroTable_ne h1.symm, Function.update_apply]
    · intro j
      simp [setEntry_ne _ _ h12, setEntry_ne _ _ h1, zeroTable_ne h12, Function.update_apply]
    · intro k
      simp [setEntry_ne _ _ h12.symm, setEntry_ne _ _ h2, Function.update_apply]
  · cases h

end Init

/-! ## Runs of the mapper refine a finite map -/

/-- A call a client makes on a page map. -/
inductive MapOp
  | mapTo (page : Page) (frame : PhysFrame) (flags : PageTableFlags)
  | unmap (page : Page)

/-- The call on the tables. -/
def MapOp.run : MapOp → PageMap × PhysMemory → Except Panic (PageMap × PhysMemory)
  | .mapTo page frame flags, (m, mem) => .ok (m.mapTo mem page frame flags)
  | .unmap page, (m, mem) => (m.unmap mem page).map fun mem => (m, mem)

/-- The call on the map from addresses to the entry of their slot. -/
def MapOp.apply : MapOp → (Nat → Option PageTableEntry) → Nat → Option PageTableEntry
  | .mapTo page frame flags, f => fun q =>
    if SameSlot q page.start then some ⟨frame.start, flags ||| PageTableFlags.HUGE_PAGE⟩ else f q
  | .unmap page, f => fun q => if SameSlot q page.start then none else f q

section Frame

variable {m : PageMap} {mem mem' : PhysMemory}

/-- The walk reads the 2 MiB page number of an address only. -/
theorem walk_eq_of_div_eq (m : PageMap) (mem : PhysMemory) {q q' : Nat}
    (h : q / 0x20_0000 = q' / 0x20_0000) : m.walk mem q = m.walk mem q' := by
  have h2 : p2Index q = p2Index q' := by simp only [p2Index]; omega
  have h3 : p3Index q = p3Index q' := by simp only [p3Index]; omega
  have h4 : p4Index q = p4Index q' := by simp only [p4Index]; omega
  simp only [walk, h2, h3, h4]

/-- Below `2^48` the three indices are the whole 2 MiB page number. -/
theorem div_eq_of_sameSlot {q p : Nat} (hq : q < 0x1_0000_0000_0000) (hp : p < 0x1_0000_0000_0000)
    (h : SameSlot q p) : q / 0x20_0000 = p / 0x20_0000 := by
  obtain ⟨h4, h3, h2⟩ := h
  simp only [p4Index, p3Index, p2Index] at h4 h3 h2
  omega

/-- Memory that agrees with `mem` on the table area below `table_count`. -/
def AgreesOn (m : PageMap) (mem' mem : PhysMemory) : Prop :=
  ∀ j < m.tableCount, mem' (frameAddr m.physAddr j) = mem (frameAddr m.physAddr j)

theorem AgreesOn.trans {mem'' : PhysMemory} (h₂ : m.AgreesOn mem'' mem') (h₁ : m.AgreesOn mem' mem) :
    m.AgreesOn mem'' mem :=
  fun j hj => (h₂ j hj).trans (h₁ j hj)

theorem AgreesOn.p4 (hw : m.Wf mem) (hagree : m.AgreesOn mem' mem) : mem' m.physAddr = mem m.physAddr := by
  have h := hagree 0 hw.pos
  rwa [frameAddr, Nat.mul_zero, Nat.add_zero] at h

theorem AgreesOn.allocated (hagree : m.AgreesOn mem' mem) {a : Nat} (ha : m.Allocated a) : mem' a = mem a := by
  obtain ⟨k, -, hk, rfl⟩ := ha
  exact hagree k hk

theorem lowerTable_congr (hw : m.Wf mem) (hagree : m.AgreesOn mem' mem) : m.lowerTable mem' = m.lowerTable mem := by
  funext l
  rcases l with i | ⟨i, j⟩
  · simp only [lowerTable, hagree.p4 hw]
  · simp only [lowerTable, hagree.p4 hw]
    cases h4 : mem m.physAddr i with
    | none => rfl
    | some e4 =>
      -- the P3 table of a used P4 entry is in the table area
      simp only [hagree.allocated (hw.p4_entry h4)]

theorem walk_congr (hw : m.Wf mem) (hagree : m.AgreesOn mem' mem) : m.walk mem' = m.walk mem := by
  funext q
  rw [walk_eq, walk_eq, lowerTable_congr hw hagree]
  cases h2 : m.lowerTable mem (.inr (p4Index q, p3Index q)) with
  | none => rfl
  | some t2 =>
    show mem' t2 (p2Index q) = mem t2 (p2Index q)
    rw [hagree.allocated (hw.allocated _ _ h2)]

theorem Wf.congr (hw : m.Wf mem) (hagree : m.AgreesOn mem' mem) : m.Wf mem' where
  pos := hw.pos
  allocated := by
    rw [lowerTable_congr hw hagree]
    exact hw.allocated
  injective := by
    rw [lowerTable_congr hw hagree]
    exact hw.injective
  huge := by
    rw [walk_congr hw hagree]
    exact hw.huge

/-- `next_table` writes the parent table and the next slot of the table area only. -/
theorem nextTable_frame (m : PageMap) (mem : PhysMemory) (parent index : Nat) {a : Nat} (hp : a ≠ parent)
    (hn : a ≠ frameAddr m.physAddr m.tableCount) : (m.nextTable mem parent index).2.1 a = mem a := by
  cases h : mem parent index with
  | none =>
    rw [nextTable_of_unused h]
    dsimp only
    rw [zeroTable_ne hn, setEntry_ne _ _ hp]
  | some e => rw [nextTable_of_used h]

/-- **`map_to` writes its own table area only.** -/
theorem mapTo_frame (hw : m.Wf mem) (page : Page) (frame : PhysFrame) (flags : PageTableFlags) {a : Nat}
    (ha : ∀ j, a ≠ frameAddr m.physAddr j) : (m.mapTo mem page frame flags).2 a = mem a := by
  have hf₁ := nextTable_frame m mem m.physAddr (p4Index page.start)
    (by simpa [frameAddr] using ha 0) (ha m.tableCount)
  obtain ⟨hw₁, hp₁, h3, -⟩ := nextTable_p4 hw (p4Index page.start)
  generalize hr₁ : m.nextTable mem m.physAddr (p4Index page.start) = r₁ at hf₁ hw₁ hp₁ h3
  rcases r₁ with ⟨m₁, mem₁, t3⟩
  dsimp only at hf₁ hw₁ hp₁ h3
  rw [← lowerTable_of_physAddr hp₁] at h3
  have ha₁ : ∀ j, a ≠ frameAddr m₁.physAddr j := by
    rw [hp₁]
    exact ha
  -- the P3 table, old or new, lies in the table area
  have ht3 : a ≠ t3 := by
    obtain ⟨k, -, -, rfl⟩ := hw₁.allocated _ _ h3
    exact ha₁ k
  have hf₂ := nextTable_frame m₁ mem₁ t3 (p3Index page.start) ht3 (ha₁ m₁.tableCount)
  obtain ⟨hw₂, hp₂, h2, -⟩ := nextTable_p3 hw₁ h3 (p3Index page.start)
  generalize hr₂ : m₁.nextTable mem₁ t3 (p3Index page.start) = r₂ at hf₂ hw₂ hp₂ h2
  rcases r₂ with ⟨m₂, mem₂, t2⟩
  dsimp only at hf₂ hw₂ hp₂ h2
  rw [← lowerTable_of_physAddr hp₂] at h2
  have ht2 : a ≠ t2 := by
    obtain ⟨k, -, -, rfl⟩ := hw₂.allocated _ _ h2
    rw [hp₂]
    exact ha₁ k
  have hmap : m.mapTo mem page frame flags =
      (m₂, setEntry mem₂ t2 (p2Index page.start)
        (some ⟨frame.start, flags ||| PageTableFlags.HUGE_PAGE⟩)) := by
    unfold mapTo
    rw [hr₁]
    dsimp only
    rw [hr₂]
  rw [hmap]
  dsimp only
  rw [setEntry_ne _ _ ht2, hf₂, hf₁]

/-- A `map_to` on one map keeps the walk of a second map whose table area is
apart from the first one's. -/
theorem mapTo_agreesOn (hw : m.Wf mem) {pm : PageMap}
    (hapart : ∀ j j', j' < pm.tableCount → frameAddr m.physAddr j ≠ frameAddr pm.physAddr j')
    (page : Page) (frame : PhysFrame) (flags : PageTableFlags) :
    pm.AgreesOn (m.mapTo mem page frame flags).2 mem :=
  fun j' hj' => mapTo_frame hw page frame flags fun j he => hapart j j' hj' he.symm

end Frame

end PageMap

end D7os

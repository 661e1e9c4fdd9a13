import Mathlib.Data.Finset.Card

/-!
# Runs of a step function under fuel

A recursion that the code leaves unbounded (a function that calls itself on what a
table says comes next) is modelled with fuel. `run step n a` takes at most `n`
steps from `a`; each step either continues with a new state or stops with a
result, and the run is `none` when the fuel runs out first.

More fuel never changes a result. When every state that continues lies in a
finite set `S`, a run that stops at all stops within `S.card + 1` steps: at that
fuel the model gives the result of the unbounded recursion, and `none` there
means that the recursion never returns. The argument is the pigeonhole one: a
longer run passes a state twice, and the loop between the two visits can be cut.
-/

namespace Fuel

variable {α β : Type*} (step : α → α ⊕ β)

/-- At most `n` steps from `a`: the result of the step that stops, or `none`
when the fuel runs out. -/
def run : Nat → α → Option β
  | 0, _ => none
  | n + 1, a =>
    match step a with
    | .inl a' => run n a'
    | .inr b => some b

/-- The state after `t` steps that all continue, `none` once one stops. -/
def trace : Nat → α → Option α
  | 0, a => some a
  | t + 1, a =>
    match step a with
    | .inl a' => trace t a'
    | .inr _ => none

variable {step}

@[simp] theorem run_zero (a : α) : run step 0 a = none := rfl

theorem run_succ_of_inl {a a' : α} (h : step a = .inl a') (n : Nat) :
    run step (n + 1) a = run step n a' := by
  rw [run, h]

theorem run_succ_of_inr {a : α} {b : β} (h : step a = .inr b) (n : Nat) :
    run step (n + 1) a = some b := by
  rw [run, h]

/-- One more unit of fuel keeps a result. -/
theorem run_succ_of_eq_some : ∀ {n : Nat} {a : α} {b : β},
    run step n a = some b → run step (n + 1) a = some b
  | 0, _, _, h => by simp at h
  | n + 1, a, b, h => by
    cases hs : step a with
    | inl a' =>
      rw [run_succ_of_inl hs] at h ⊢
      exact run_succ_of_eq_some h
    | inr b' =>
      rw [run_succ_of_inr hs] at h ⊢
      exact h

/-- **More fuel never changes a result.** -/
theorem run_mono {n m : Nat} (hnm : n ≤ m) {a : α} {b : β} (h : run step n a = some b) :
    run step m a = some b := by
  induction hnm with
  | refl => exact h
  | step _ ih => exact run_succ_of_eq_some ih

/-- Two runs that both stop give the same result. -/
theorem run_eq_of_eq_some {n m : Nat} {a : α} {b b' : β} (h : run step n a = some b)
    (h' : run step m a = some b') : b = b' := by
  have h₁ := run_mono (Nat.le_max_left n m) h
  rw [run_mono (Nat.le_max_right n m) h'] at h₁
  exact (Option.some.inj h₁).symm

/-- A run reaches the state of its trace and goes on from there. -/
theorem run_add_of_trace : ∀ {t : Nat} {a a' : α}, trace step t a = some a' →
    ∀ n, run step (t + n) a = run step n a'
  | 0, a, a', h, n => by
    rw [trace] at h
    rw [Nat.zero_add, Option.some.inj h]
  | t + 1, a, a', h, n => by
    cases hs : step a with
    | inl a₁ =>
      rw [trace, hs] at h
      rw [Nat.add_right_comm, run_succ_of_inl hs]
      exact run_add_of_trace h n
    | inr _ =>
      rw [trace, hs] at h
      cases h

/-- A run that runs out of fuel has a trace through continuing states. -/
theorem trace_of_run_eq_none : ∀ {n : Nat} {a : α}, run step n a = none →
    ∀ {t : Nat}, t < n → ∃ a' a'', trace step t a = some a' ∧ step a' = .inl a''
  | 0, _, _, _, ht => absurd ht (Nat.not_lt_zero _)
  | n + 1, a, h, t, ht => by
    cases hs : step a with
    | inl a₁ =>
      rw [run_succ_of_inl hs] at h
      cases t with
      | zero => exact ⟨a, a₁, rfl, hs⟩
      | succ t =>
        rw [trace, hs]
        exact trace_of_run_eq_none h (Nat.lt_of_succ_lt_succ ht)
    | inr _ =>
      rw [run_succ_of_inr hs] at h
      cases h

section Finite

variable {S : Finset α}

/-- **A run that stops stops within `S.card + 1` steps**, when every state
that continues lies in `S`. By strong induction on the fuel: past `S.card + 1`
steps that all continue, the trace repeats a state among its first `S.card + 1`,
and the run with the loop between the two visits cut out gives the same result
on less fuel. -/
theorem run_card_succ (hS : ∀ a a', step a = .inl a' → a ∈ S) :
    ∀ (n : Nat) {a : α} {b : β}, run step n a = some b → run step (S.card + 1) a = some b := by
  intro n
  induction n using Nat.strong_induction_on with
  | _ n ih =>
    intro a b h
    by_cases hn : n ≤ S.card + 1
    · exact run_mono hn h
    rcases Option.eq_none_or_eq_some (run step (S.card + 1) a) with hK | ⟨b', hK⟩
    case inr => rw [hK, run_eq_of_eq_some h hK]
    case inl =>
      -- the first `S.card + 1` states of the trace all continue, so they lie in `S`
      have htrace : ∀ t ∈ Finset.range (S.card + 1), trace step t a ∈ S.map .some := by
        intro t ht
        obtain ⟨a', a'', hta, hsa⟩ := trace_of_run_eq_none hK (Finset.mem_range.mp ht)
        rw [hta]
        exact Finset.mem_map_of_mem _ (hS a' a'' hsa)
      have hcard : (S.map .some).card < (Finset.range (S.card + 1)).card := by simp
      obtain ⟨i, hi, j, hj, hij, heq⟩ := Finset.exists_ne_map_eq_of_card_lt_of_maps_to hcard htrace
      -- name the visits so that `i < j`
      wlog hlt : i < j generalizing i j
      · exact this j hj i hi (Ne.symm hij) heq.symm (by omega)
      have hj' : j < S.card + 1 := Finset.mem_range.mp hj
      obtain ⟨c, hc⟩ : ∃ c, trace step i a = some c := by
        obtain ⟨c, -, hc, -⟩ := trace_of_run_eq_none hK (Finset.mem_range.mp hi)
        exact ⟨c, hc⟩
      have hcut : run step (i + (n - j)) a = run step n a := by
        rw [run_add_of_trace hc, ← run_add_of_trace (heq ▸ hc), Nat.add_sub_cancel' (by omega)]
      exact ih (i + (n - j)) (by omega) (hcut.trans h)

/-- A run that has not stopped after `S.card + 1` steps never stops. -/
theorem run_eq_none_of_card_succ (hS : ∀ a a', step a = .inl a' → a ∈ S) {a : α}
    (h : run step (S.card + 1) a = none) (n : Nat) : run step n a = none := by
  cases hn : run step n a with
  | none => rfl
  | some b =>
    rw [run_card_succ hS n hn] at h
    cases h

/-- Past `S.card + 1` steps, more fuel changes nothing. -/
theorem run_eq_of_card_lt (hS : ∀ a a', step a = .inl a' → a ∈ S) {n : Nat}
    (hn : S.card < n) (a : α) : run step n a = run step (S.card + 1) a := by
  cases hK : run step (S.card + 1) a with
  | none => exact run_eq_none_of_card_succ hS hK n
  | some b => exact run_mono hn hK

end Finite

end Fuel

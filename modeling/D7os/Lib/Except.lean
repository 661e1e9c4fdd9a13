import Mathlib.Logic.Basic

/-!
# Peeling a step off an `Except` computation

A sequence of fallible steps written in `do` notation is a chain of binds. A
result `.ok b` of the chain comes from a successful first step and a successful
rest: `bind_eq_ok` says so, and the proofs peel one step after the other with
`obtain`, without unfolding the bind. Forward, `ok_bind` and `error_bind` run one
step by rewriting; `simp` on the unfolded bind would also rewrite inside the
continuation. A step whose error is lifted into a larger error type (`mapError`)
succeeds with the same result. A loop of such steps is a `foldlM`, and `foldlM_invariant` carries
an invariant through it from the step lemma; `foldlM_error` bounds the errors it
can end with by those of a step taken from a state in the invariant, and
`foldlM_ok_mem` finds a successful step at every element of a successful run. A
loop that appends the pieces its steps give holds each piece (`foldlM_append_mem`).
-/

namespace Except

universe u v

variable {ε : Type u} {α β : Type v}

theorem bind_eq_ok {x : Except ε α} {f : α → Except ε β} {b : β} :
    x >>= f = .ok b ↔ ∃ a, x = .ok a ∧ f a = .ok b := by
  cases x with
  | error e => simp [bind, Except.bind]
  | ok a => simp [bind, Except.bind]

theorem ok_bind (a : α) (f : α → Except ε β) : (Except.ok a >>= f) = f a := rfl

theorem error_bind (e : ε) (f : α → Except ε β) : (Except.error e >>= f) = .error e := rfl

theorem map_eq_ok {x : Except ε α} {f : α → β} {b : β} :
    x.map f = .ok b ↔ ∃ a, x = .ok a ∧ f a = b := by
  cases x with
  | error e => simp [Except.map]
  | ok a => simp [Except.map]

theorem map_eq_error {x : Except ε α} {f : α → β} {e : ε} : x.map f = .error e ↔ x = .error e := by
  cases x with
  | error e => simp [Except.map]
  | ok a => simp [Except.map]

theorem mapError_ok {ε' : Type u} (a : α) (f : ε → ε') : (Except.ok a : Except ε α).mapError f = .ok a :=
  rfl

theorem mapError_error {ε' : Type u} (e : ε) (f : ε → ε') :
    (Except.error e : Except ε α).mapError f = .error (f e) :=
  rfl

theorem mapError_eq_ok {ε' : Type u} {x : Except ε α} {f : ε → ε'} {b : α} :
    x.mapError f = .ok b ↔ x = .ok b := by
  cases x <;> simp [mapError_ok, mapError_error]

theorem mapError_eq_error {ε' : Type u} {x : Except ε α} {f : ε → ε'} {e' : ε'} :
    x.mapError f = .error e' ↔ ∃ e, x = .error e ∧ f e = e' := by
  cases x <;> simp [mapError_ok, mapError_error]

/-- **The run rule**: what every successful step keeps holds after every
successful run of steps. -/
theorem foldlM_invariant {γ : Type*} {P : α → Prop} {f : α → γ → Except ε α}
    (hstep : ∀ a x b, P a → f a x = .ok b → P b) :
    ∀ (l : List γ) {a b : α}, P a → l.foldlM f a = .ok b → P b
  | [], a, _, ha, h => by
    obtain rfl : a = _ := Except.ok.inj h
    exact ha
  | x :: l, a, _, ha, h => by
    rw [List.foldlM_cons] at h
    obtain ⟨a₁, h₁, h₂⟩ := bind_eq_ok.mp h
    exact foldlM_invariant hstep l (hstep a x a₁ ha h₁) h₂

/-- **The error rule**: a run of steps taken from `l`, each keeping `P` and
failing only with an error in `Q` from a state in `P`, fails only with an error
in `Q`. -/
theorem foldlM_error {γ : Type*} {P : α → Prop} {Q : ε → Prop} {f : α → γ → Except ε α} :
    ∀ (l : List γ), (∀ a x b, x ∈ l → P a → f a x = .ok b → P b) →
      (∀ a x e, x ∈ l → P a → f a x = .error e → Q e) → ∀ {a : α} {e : ε}, P a → l.foldlM f a = .error e → Q e
  | [], _, _, _, _, _, h => by cases h
  | x :: l, hstep, herror, a, e, ha, h => by
    rw [List.foldlM_cons] at h
    cases hx : f a x with
    | error e' =>
      rw [hx, error_bind] at h
      cases h
      exact herror a x _ List.mem_cons_self ha hx
    | ok b =>
      rw [hx, ok_bind] at h
      -- the rest of the run starts from the state the first step left
      exact foldlM_error l (fun a y b hy => hstep a y b (List.mem_cons_of_mem x hy))
        (fun a y e hy => herror a y e (List.mem_cons_of_mem x hy)) (hstep a x b List.mem_cons_self ha hx) h

/-- **The collecting loop**: a run that appends the piece `f` gives for each
element holds what it started from and every element's piece. -/
theorem foldlM_append_mem {γ : Type*} {f : γ → Except ε (List α)} :
    ∀ (l : List γ) (acc w : List α), l.foldlM (fun acc x => (f x).map (acc ++ ·)) acc = .ok w →
      (∀ y ∈ acc, y ∈ w) ∧ ∀ x ∈ l, ∃ ws, f x = .ok ws ∧ ∀ y ∈ ws, y ∈ w
  | [], acc, w, h => by
    obtain rfl : acc = w := Except.ok.inj h
    exact ⟨fun _ hy => hy, fun _ hx => absurd hx List.not_mem_nil⟩
  | x :: l, acc, w, h => by
    rw [List.foldlM_cons] at h
    obtain ⟨acc', hx, hrest⟩ := bind_eq_ok.mp h
    obtain ⟨ws, hf, rfl⟩ := map_eq_ok.mp hx
    obtain ⟨hacc, hl⟩ := foldlM_append_mem l _ w hrest
    refine ⟨fun y hy => hacc y (List.mem_append_left _ hy), fun x' hx' => ?_⟩
    rcases List.mem_cons.mp hx' with rfl | hx'
    · exact ⟨ws, hf, fun y hy => hacc y (List.mem_append_right _ hy)⟩
    · exact hl x' hx'

/-- **The step rule**: a successful run took a successful step at each element. -/
theorem foldlM_ok_mem {γ : Type*} {f : α → γ → Except ε α} :
    ∀ {l : List γ} {a b : α}, l.foldlM f a = .ok b → ∀ x ∈ l, ∃ a' b', f a' x = .ok b'
  | [], _, _, _, _, hx => absurd hx List.not_mem_nil
  | y :: l, a, _, h, x, hx => by
    rw [List.foldlM_cons] at h
    obtain ⟨a₁, h₁, h₂⟩ := bind_eq_ok.mp h
    rcases List.mem_cons.mp hx with rfl | hx
    · exact ⟨a, a₁, h₁⟩
    · exact foldlM_ok_mem h₂ x hx

end Except

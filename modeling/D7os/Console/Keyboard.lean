import Mathlib.Data.List.AList
import Mathlib.Data.List.Find
import Mathlib.Data.Finset.Card
import D7os.Lib.Fuel
import D7os.Driver.Ps2

/-!
# The console's keyboard: key codes, modifiers and the key map

`libs/d7keymap/src/lib.rs` and `modules/daemon_console/src/keyboard.rs`. Each key
code is named by a symbol (`keycodes.json`); a modifier symbol is added to the
pressed set on a press and taken out on a release, and a press of any other key
is looked up in the key map under the pressed modifiers by `process_keysym_press`,
whose `Remap` recurses with no bound.

The maps are `HashMap`s, association lists in an unspecified order. A
`Combination` hashes by its main key but compares by both parts, so what a press
means depends on the map's content and not on its order. The recursion runs on
fuel (`D7os.Lib.Fuel`): one call more than the map has entries is as deep as a
returning press goes, and a cycle of remaps never returns. The JSON parsing of
the maps is not modelled.
-/

namespace D7os

namespace Console

/-- `d7keymap::KeySymbol`. -/
abbrev KeySymbol := String

/-- `d7keymap::KeyCode`. -/
abbrev KeyCode := UInt16

/-- `d7keymap::KeyAction`. -/
inductive KeyAction
  /-- Produce text (prefixed by the dead-key buffer, if any, and normalized). -/
  | text (s : String)
  /-- Insert into the dead-key buffer. -/
  | buffer (s : String)
  /-- Remap to another key symbol. -/
  | remap (target : KeySymbol)
  /-- Ignore this key press. -/
  | ignore
  deriving DecidableEq, Repr

/-- `d7keymap::Combination`. Its `PartialEq` compares both fields. -/
structure Combination where
  modifiers : Finset KeySymbol
  main : KeySymbol
  deriving DecidableEq

def Combination.matches (c : Combination) (current : KeySymbol) (pressed : Finset KeySymbol) : Bool :=
  c.modifiers == pressed && c.main == current

/-- The `HashMap<Combination, KeyAction>` of a key map. -/
abbrev Mapping := AList (fun _ : Combination => KeyAction)

/-- `d7keymap::KeyMap`: only `modifiers` can be used as modifiers. -/
structure KeyMap where
  modifiers : Finset KeySymbol
  mapping : Mapping

/-- `d7keymap::KeyCodes`, the `HashMap<KeyCode, KeySymbol>` of `keycodes.json`. -/
abbrev KeyCodes := AList (fun _ : KeyCode => KeySymbol)

/-- `keyboard::Keyboard`. -/
structure Keyboard where
  keycodes : KeyCodes
  keymap : KeyMap
  pressedModifiers : Finset KeySymbol

/-- `Keyboard::new`, with the maps it reads from the initrd. -/
def Keyboard.new (keycodes : KeyCodes) (keymap : KeyMap) : Keyboard := ⟨keycodes, keymap, ∅⟩

/-- `keyboard::EventAction`. -/
inductive EventAction
  | keyAction (action : KeyAction)
  | unmatched (symbol : KeySymbol) (modifiers : Finset KeySymbol)
  | ignore
  | noSuchSymbol
  deriving DecidableEq

/-- One call of `process_keysym_press`: the first entry of the map, in its
iteration order, whose combination matches; a `Remap` calls again on its target
(`inl`), any other action is the result, and no match is `None`. -/
def pressStep (mapping : Mapping) (pressed : Finset KeySymbol) (keysym : KeySymbol) :
    KeySymbol ⊕ Option KeyAction :=
  match mapping.entries.find? (fun e => e.1.matches keysym pressed) with
  | some ⟨_, .remap target⟩ => .inl target
  | some ⟨_, v⟩ => .inr (some v)
  | none => .inr none

/-- `Keyboard::process_keysym_press`, with at most `fuel` nested calls; `none`
when the recursion goes deeper (the `?` of the recursive call passes an inner
`None` up). -/
def processKeysymPress (mapping : Mapping) (pressed : Finset KeySymbol) (fuel : Nat)
    (keysym : KeySymbol) : Option (Option KeyAction) :=
  Fuel.run (pressStep mapping pressed) fuel keysym

/-- The depth of `process_keysym_press` that the model allows: one call more than
the map has entries, as deep as a press that returns ever goes
(`processKeysymPress_eq_of_length_lt`). -/
def KeyMap.pressFuel (km : KeyMap) : Nat := km.mapping.entries.length + 1

/-- `Keyboard::process_event`; `none` when the key's chain of remaps never ends. -/
def Keyboard.processEvent (kb : Keyboard) (event : Ps2.KeyboardEvent) :
    Option (EventAction × Keyboard) :=
  match kb.keycodes.lookup event.keycode with
  | some keysym =>
    if keysym ∈ kb.keymap.modifiers then
      let pressed :=
        if event.release then kb.pressedModifiers.erase keysym
        else insert keysym kb.pressedModifiers
      some (.ignore, { kb with pressedModifiers := pressed })
    else if !event.release then
      (processKeysymPress kb.keymap.mapping kb.pressedModifiers kb.keymap.pressFuel keysym).map
        fun
          | some action => (.keyAction action, kb)
          | none => (.unmatched keysym kb.pressedModifiers, kb)
    else some (.ignore, kb)
  | none => some (.noSuchSymbol, kb)

/-! ## What a press means -/

/-- A press of `keysym` under the modifiers `pressed`, by the map's content: the
action stored under the combination, through its remaps; `none` when a
combination on the way has no entry. -/
inductive Resolves (mapping : Mapping) (pressed : Finset KeySymbol) :
    KeySymbol → Option KeyAction → Prop
  | unmapped {keysym : KeySymbol} :
      mapping.lookup ⟨pressed, keysym⟩ = none → Resolves mapping pressed keysym none
  | action {keysym : KeySymbol} {v : KeyAction} :
      mapping.lookup ⟨pressed, keysym⟩ = some v → (∀ target, v ≠ .remap target) →
        Resolves mapping pressed keysym (some v)
  | remap {keysym target : KeySymbol} {r : Option KeyAction} :
      mapping.lookup ⟨pressed, keysym⟩ = some (.remap target) → Resolves mapping pressed target r →
        Resolves mapping pressed keysym r

section Press

variable {mapping : Mapping} {pressed : Finset KeySymbol}

theorem matches_eq (c : Combination) (keysym : KeySymbol) (pressed : Finset KeySymbol) :
    c.matches keysym pressed = decide ((⟨pressed, keysym⟩ : Combination) = c) := by
  rcases c with ⟨modifiers, main⟩
  apply Bool.eq_iff_iff.mpr
  simp only [Combination.matches, Bool.and_eq_true, beq_iff_eq, decide_eq_true_eq,
    Combination.mk.injEq]
  exact and_congr eq_comm eq_comm

/-- **The entry that matches is the one stored under the combination**: the
first match in iteration order is the lookup of the key with the pressed
modifiers. -/
theorem find?_matches (mapping : Mapping) (pressed : Finset KeySymbol) (keysym : KeySymbol) :
    mapping.entries.find? (fun e => e.1.matches keysym pressed) =
      (mapping.lookup ⟨pressed, keysym⟩).map (Sigma.mk ⟨pressed, keysym⟩) := by
  rw [AList.lookup, List.map_dlookup_eq_find]
  exact List.find?_congr fun e _ => matches_eq e.1 keysym pressed

theorem pressStep_eq (mapping : Mapping) (pressed : Finset KeySymbol) (keysym : KeySymbol) :
    pressStep mapping pressed keysym =
      match mapping.lookup ⟨pressed, keysym⟩ with
      | some (.remap target) => .inl target
      | some v => .inr (some v)
      | none => .inr none := by
  rw [pressStep, find?_matches]
  generalize mapping.lookup ⟨pressed, keysym⟩ = v
  rcases v with _ | (_ | _ | _ | _) <;> rfl

/-- A symbol whose press calls again is the main key of a combination in the map. -/
theorem mem_mains_of_pressStep {keysym target : KeySymbol}
    (h : pressStep mapping pressed keysym = .inl target) :
    keysym ∈ (mapping.keys.map Combination.main).toFinset := by
  rw [pressStep_eq] at h
  have hmem : (⟨pressed, keysym⟩ : Combination) ∈ mapping := by
    rw [← AList.lookup_isSome]
    split at h <;> simp_all
  rw [List.mem_toFinset, List.mem_map]
  exact ⟨_, AList.mem_keys.mp hmem, rfl⟩

theorem card_mains_le (mapping : Mapping) :
    (mapping.keys.map Combination.main).toFinset.card ≤ mapping.entries.length := by
  calc (mapping.keys.map Combination.main).toFinset.card
      ≤ (mapping.keys.map Combination.main).length := List.toFinset_card_le _
    _ = mapping.entries.length := by simp [AList.keys, List.keys]

/-- **`pressFuel` is enough**: past as many calls as the map has entries, more
fuel changes nothing. -/
theorem processKeysymPress_eq_of_length_lt {fuel : Nat} (hfuel : mapping.entries.length < fuel)
    (keysym : KeySymbol) :
    processKeysymPress mapping pressed fuel keysym =
      processKeysymPress mapping pressed (mapping.entries.length + 1) keysym := by
  have hS : ∀ a a', pressStep mapping pressed a = .inl a' →
      a ∈ (mapping.keys.map Combination.main).toFinset :=
    fun _ _ h => mem_mains_of_pressStep h
  have hcard := card_mains_le mapping
  unfold processKeysymPress
  rw [Fuel.run_eq_of_card_lt hS (by omega), Fuel.run_eq_of_card_lt hS (n := mapping.entries.length + 1)
    (by omega)]

/-- The order of the entries does not matter: two maps with the same entries
take the same steps. -/
theorem pressStep_perm {mapping' : Mapping} (hp : mapping.entries.Perm mapping'.entries)
    (keysym : KeySymbol) : pressStep mapping pressed keysym = pressStep mapping' pressed keysym := by
  rw [pressStep_eq, pressStep_eq, AList.perm_lookup hp]

theorem processKeysymPress_perm {mapping' : Mapping} (hp : mapping.entries.Perm mapping'.entries)
    (fuel : Nat) (keysym : KeySymbol) :
    processKeysymPress mapping pressed fuel keysym = processKeysymPress mapping' pressed fuel keysym := by
  have hstep : pressStep mapping pressed = pressStep mapping' pressed := funext (pressStep_perm hp)
  unfold processKeysymPress
  rw [hstep]

/-- A result of the code is what the press means. By induction on the fuel,
one call of `process_keysym_press` per constructor of `Resolves`. -/
theorem resolves_of_processKeysymPress :
    ∀ {fuel : Nat} {keysym : KeySymbol} {r : Option KeyAction},
      processKeysymPress mapping pressed fuel keysym = some r → Resolves mapping pressed keysym r
  | 0, _, _, h => by simp [processKeysymPress] at h
  | fuel + 1, keysym, r, h => by
    unfold processKeysymPress at h
    cases hs : pressStep mapping pressed keysym with
    | inl target =>
      rw [Fuel.run_succ_of_inl hs] at h
      have hl : mapping.lookup ⟨pressed, keysym⟩ = some (.remap target) := by
        rw [pressStep_eq] at hs
        split at hs <;> simp_all
      exact .remap hl (resolves_of_processKeysymPress h)
    | inr r' =>
      rw [Fuel.run_succ_of_inr hs, Option.some.injEq] at h
      subst h
      rw [pressStep_eq] at hs
      split at hs
      · cases hs
      · rename_i v hv hl
        cases hs
        exact .action hl hv
      · cases hs
        exact .unmapped (by assumption)

/-- What a press means is found with enough fuel. -/
theorem exists_processKeysymPress_of_resolves {keysym : KeySymbol} {r : Option KeyAction}
    (h : Resolves mapping pressed keysym r) : ∃ fuel, processKeysymPress mapping pressed fuel keysym = some r := by
  induction h with
  | unmapped hl =>
    refine ⟨1, Fuel.run_succ_of_inr ?_ 0⟩
    rw [pressStep_eq, hl]
  | @action keysym v hl hv =>
    refine ⟨1, Fuel.run_succ_of_inr ?_ 0⟩
    rw [pressStep_eq, hl]
    cases v with
    | remap target => exact absurd rfl (hv target)
    | text _ | buffer _ | ignore => rfl
  | remap hl _ ih =>
    obtain ⟨fuel, hf⟩ := ih
    refine ⟨fuel + 1, ?_⟩
    unfold processKeysymPress
    rw [Fuel.run_succ_of_inl (by rw [pressStep_eq, hl])]
    exact hf

theorem resolves_iff {keysym : KeySymbol} {r : Option KeyAction} :
    Resolves mapping pressed keysym r ↔
      processKeysymPress mapping pressed (mapping.entries.length + 1) keysym = some r := by
  constructor
  · intro h
    obtain ⟨fuel, hf⟩ := exists_processKeysymPress_of_resolves h
    rcases Nat.lt_or_ge mapping.entries.length fuel with hlt | hge
    · rw [← processKeysymPress_eq_of_length_lt hlt]
      exact hf
    · exact Fuel.run_mono (by omega) hf
  · exact resolves_of_processKeysymPress

/-- A press never means a `Remap`: the recursion follows every one. -/
theorem Resolves.ne_remap {keysym : KeySymbol} {r : Option KeyAction}
    (h : Resolves mapping pressed keysym r) (target : KeySymbol) : r ≠ some (.remap target) := by
  induction h with
  | unmapped _ => simp
  | action _ hv => exact fun he => hv target (Option.some.inj he)
  | remap _ _ ih => exact ih

/-- **`process_keysym_press` computes what a press means.** With one call more
than the map has entries it returns exactly what the press means by the map's
content, and no fuel gives another result: the recursion returns when the press
means something, with that, and never returns otherwise. The result is the same
in every iteration order of the map, and it is never a `Remap`. -/
theorem key_press_resolves (mapping : Mapping) (pressed : Finset KeySymbol) (keysym : KeySymbol) :
    (∀ r, Resolves mapping pressed keysym r ↔
      processKeysymPress mapping pressed (mapping.entries.length + 1) keysym = some r) ∧
    (∀ fuel, processKeysymPress mapping pressed fuel keysym = none ∨
      processKeysymPress mapping pressed fuel keysym =
        processKeysymPress mapping pressed (mapping.entries.length + 1) keysym) ∧
    (∀ mapping' : Mapping, mapping.entries.Perm mapping'.entries → ∀ fuel,
      processKeysymPress mapping' pressed fuel keysym = processKeysymPress mapping pressed fuel keysym) ∧
    (∀ fuel target, processKeysymPress mapping pressed fuel keysym ≠ some (some (.remap target))) := by
  refine ⟨fun r => resolves_iff, ?_, ?_, ?_⟩
  · intro fuel
    cases h : processKeysymPress mapping pressed fuel keysym with
    | none => exact .inl rfl
    | some r => exact .inr (resolves_iff.mp (resolves_of_processKeysymPress h)).symm
  · intro mapping' hp fuel
    exact (processKeysymPress_perm hp fuel keysym).symm
  · intro fuel target h
    exact (resolves_of_processKeysymPress h).ne_remap target rfl

/-- Two symbols remapped to each other. -/
def remapCycle : Mapping :=
  ((∅ : Mapping).insert ⟨∅, "A"⟩ (.remap "B")).insert ⟨∅, "B"⟩ (.remap "A")

/-- A press in a cycle of remaps never returns. -/
theorem key_press_remap_cycle_diverges :
    ∀ fuel, processKeysymPress remapCycle ∅ fuel "A" = none := by
  intro fuel
  rcases (key_press_resolves remapCycle ∅ "A").2.1 fuel with h | h
  · exact h
  · rw [h]
    decide

end Press

/-! ## Events -/

/-- The modifiers held after a sequence of key events: those modifiers whose
last event, through the key codes, is a press. -/
def HeldAfter (keycodes : KeyCodes) (modifiers : Finset KeySymbol) (events : List Ps2.KeyboardEvent)
    (s : KeySymbol) : Prop :=
  s ∈ modifiers ∧ ∃ pre e post, events = pre ++ e :: post ∧ keycodes.lookup e.keycode = some s ∧
    e.release = false ∧ ∀ e' ∈ post, keycodes.lookup e'.keycode ≠ some s

section Held

variable {keycodes : KeyCodes} {modifiers : Finset KeySymbol} {s : KeySymbol}

theorem not_heldAfter_nil : ¬ HeldAfter keycodes modifiers [] s := by
  rintro ⟨-, pre, e, post, h, -⟩
  simp at h

/-- An event split out of a sequence with one more event at its end is that
last event, or the split leaves the last event in the rest. -/
theorem append_singleton_eq_append_cons {events pre post : List Ps2.KeyboardEvent}
    {e e₀ : Ps2.KeyboardEvent} (h : events ++ [e] = pre ++ e₀ :: post) :
    (post = [] ∧ events = pre ∧ e = e₀) ∨ ∃ post', post = post' ++ [e] ∧ events = pre ++ e₀ :: post' := by
  rcases List.eq_nil_or_concat' post with rfl | ⟨post', e₁, rfl⟩
  · obtain ⟨hpre, he⟩ := List.append_inj' h rfl
    exact .inl ⟨rfl, hpre, List.singleton_inj.mp he⟩
  · rw [← List.cons_append, ← List.append_assoc] at h
    obtain ⟨hpre, he⟩ := List.append_inj' h rfl
    obtain rfl := List.singleton_inj.mp he
    exact .inr ⟨post', rfl, hpre⟩

/-- One more event decides for its own symbol and leaves the others as they were. -/
theorem heldAfter_append_singleton (events : List Ps2.KeyboardEvent) (e : Ps2.KeyboardEvent) :
    HeldAfter keycodes modifiers (events ++ [e]) s ↔
      if keycodes.lookup e.keycode = some s then s ∈ modifiers ∧ e.release = false
      else HeldAfter keycodes modifiers events s := by
  split
  · rename_i he
    constructor
    · rintro ⟨hs, pre, e₀, post, hsplit, -, hrel, hpost⟩
      rcases append_singleton_eq_append_cons hsplit with ⟨-, -, rfl⟩ | ⟨post', rfl, -⟩
      · exact ⟨hs, hrel⟩
      · exact absurd he (hpost e (by simp))
    · rintro ⟨hs, hrel⟩
      exact ⟨hs, events, e, [], rfl, he, hrel, by simp⟩
  · rename_i he
    constructor
    · rintro ⟨hs, pre, e₀, post, hsplit, hlook, hrel, hpost⟩
      rcases append_singleton_eq_append_cons hsplit with ⟨-, -, rfl⟩ | ⟨post', rfl, hevents⟩
      · exact absurd hlook he
      · exact ⟨hs, pre, e₀, post', hevents, hlook, hrel, fun e' he' => hpost e' (by simp [he'])⟩
    · rintro ⟨hs, pre, e₀, post, rfl, hlook, hrel, hpost⟩
      refine ⟨hs, pre, e₀, post ++ [e], by simp, hlook, hrel, ?_⟩
      intro e' he'
      rcases List.mem_append.mp he' with he' | he'
      · exact hpost e' he'
      · rw [List.mem_singleton.mp he']
        exact he

theorem HeldAfter.mem {events : List Ps2.KeyboardEvent} (h : HeldAfter keycodes modifiers events s) :
    s ∈ modifiers :=
  h.1

end Held

section Event

variable {kb kb' : Keyboard} {event : Ps2.KeyboardEvent} {action : EventAction}

/-- The action of a press, from what it means. -/
def pressAction (keysym : KeySymbol) (pressed : Finset KeySymbol) : Option KeyAction → EventAction
  | some a => .keyAction a
  | none => .unmatched keysym pressed

/-- **What `process_event` can do**: name no symbol; change the pressed modifiers
at a modifier's event; ignore a release; or answer a press with what it means. -/
theorem processEvent_cases (h : kb.processEvent event = some (action, kb')) :
    (kb.keycodes.lookup event.keycode = none ∧ action = .noSuchSymbol ∧ kb' = kb) ∨
    (∃ s, kb.keycodes.lookup event.keycode = some s ∧ s ∈ kb.keymap.modifiers ∧ action = .ignore ∧
      kb' = { kb with pressedModifiers :=
        if event.release then kb.pressedModifiers.erase s else insert s kb.pressedModifiers }) ∨
    (∃ s, kb.keycodes.lookup event.keycode = some s ∧ s ∉ kb.keymap.modifiers ∧
      event.release = true ∧ action = .ignore ∧ kb' = kb) ∨
    (∃ s r, kb.keycodes.lookup event.keycode = some s ∧ s ∉ kb.keymap.modifiers ∧
      event.release = false ∧ Resolves kb.keymap.mapping kb.pressedModifiers s r ∧
      action = pressAction s kb.pressedModifiers r ∧ kb' = kb) := by
  unfold Keyboard.processEvent at h
  split at h
  · rename_i s hl
    by_cases hm : s ∈ kb.keymap.modifiers
    · rw [if_pos hm] at h
      cases h
      exact .inr (.inl ⟨s, hl, hm, rfl, rfl⟩)
    rw [if_neg hm] at h
    cases hrel : event.release
    · rw [hrel, if_pos (show (!false) = true from rfl)] at h
      obtain ⟨r, hr, hf⟩ := Option.map_eq_some_iff.mp h
      have hres : Resolves kb.keymap.mapping kb.pressedModifiers s r := resolves_iff.mpr hr
      refine .inr (.inr (.inr ⟨s, r, hl, hm, rfl, hres, ?_⟩))
      cases r <;> simp only [Prod.mk.injEq] at hf <;> exact ⟨hf.1.symm, hf.2.symm⟩
    · rw [hrel, if_neg (show ¬ (!true) = true by decide)] at h
      cases h
      exact .inr (.inr (.inl ⟨s, hl, hm, rfl, rfl, rfl⟩))
  · rename_i hl
    cases h
    exact .inl ⟨hl, rfl, rfl⟩

/-- `process_event` stops only at a press that means nothing: its chain of
remaps never ends. -/
theorem processEvent_eq_none (h : kb.processEvent event = none) :
    ∃ s, kb.keycodes.lookup event.keycode = some s ∧ s ∉ kb.keymap.modifiers ∧
      event.release = false ∧ ∀ r, ¬ Resolves kb.keymap.mapping kb.pressedModifiers s r := by
  unfold Keyboard.processEvent at h
  split at h
  · rename_i s hl
    by_cases hm : s ∈ kb.keymap.modifiers
    · rw [if_pos hm] at h
      cases h
    rw [if_neg hm] at h
    cases hrel : event.release
    · rw [hrel, if_pos (show (!false) = true from rfl), Option.map_eq_none_iff] at h
      refine ⟨s, hl, hm, rfl, fun r hres => ?_⟩
      have hr := resolves_iff.mp hres
      rw [KeyMap.pressFuel] at h
      rw [h] at hr
      cases hr
    · rw [hrel, if_neg (show ¬ (!true) = true by decide)] at h
      cases h
  · cases h

/-- The keyboard keeps its maps and changes the pressed modifiers only at a
modifier's own event. -/
theorem processEvent_keyboard (h : kb.processEvent event = some (action, kb')) :
    kb'.keycodes = kb.keycodes ∧ kb'.keymap = kb.keymap ∧
      ∀ s, s ∈ kb'.pressedModifiers ↔
        if kb.keycodes.lookup event.keycode = some s ∧ s ∈ kb.keymap.modifiers then event.release = false
        else s ∈ kb.pressedModifiers := by
  rcases processEvent_cases h with ⟨hl, -, rfl⟩ | ⟨s₀, hl, hm, -, rfl⟩ | ⟨s₀, hl, hm, -, -, rfl⟩ |
      ⟨s₀, r, hl, hm, -, -, -, rfl⟩
  · refine ⟨rfl, rfl, fun s => ?_⟩
    simp [hl]
  · refine ⟨rfl, rfl, fun s => ?_⟩
    by_cases hs : s₀ = s
    · subst hs
      cases event.release <;> simp [hl, hm]
    · have hne : s ≠ s₀ := Ne.symm hs
      cases event.release <;> simp [hl, hs, hne]
  -- a key that is no modifier leaves the pressed modifiers as they were
  all_goals
    refine ⟨rfl, rfl, fun s => ?_⟩
    by_cases hs : s₀ = s
    · subst hs
      simp [hl, hm]
    · simp [hl, hs]

/-- An `Unmatched` action names the symbol of the event's key code. -/
theorem processEvent_unmatched {k : KeySymbol} {mods : Finset KeySymbol}
    (h : kb.processEvent event = some (.unmatched k mods, kb')) :
    kb.keycodes.lookup event.keycode = some k := by
  rcases processEvent_cases h with ⟨-, h', -⟩ | ⟨s, -, -, h', -⟩ | ⟨s, -, -, -, h', -⟩ |
      ⟨s, r, hl, -, -, -, h', -⟩
  · cases h'
  · cases h'
  · cases h'
  · cases r with
    | some a => cases h'
    | none =>
      cases h'
      exact hl

/-- The keyboard never hands over a `Remap`. -/
theorem processEvent_ne_remap (h : kb.processEvent event = some (action, kb')) (target : KeySymbol) :
    action ≠ .keyAction (.remap target) := by
  rcases processEvent_cases h with ⟨-, rfl, -⟩ | ⟨s, -, -, rfl, -⟩ | ⟨s, -, -, -, rfl, -⟩ |
      ⟨s, r, -, -, -, hres, rfl, -⟩
  · simp
  · simp
  · simp
  · cases r with
    | some a =>
      intro he
      cases he
      exact hres.ne_remap target rfl
    | none => simp [pressAction]

end Event

end Console

end D7os

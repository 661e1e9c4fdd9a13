import D7os.Lib.List
import D7os.Lib.Except
import D7os.Multitasking.WaitFor

/-!
# The service daemon

`src/modules/daemon_service/src/lib.rs`: `Services` starts the services of its
start queue once those they require are registered, keeps the registry of
running services, and acknowledges the waiters for all or any of a set of names
once their condition holds. Each handler runs to the end, so a run is a sequence
of events. The kernel is a parameter (`Kernel`: the spawned process, and whether
an acknowledgement goes through); hash sets are lists.

No waiter is left whose condition holds, each is acknowledged once, positively
and only when its condition holds, and every request is answered once or still
waits. A name registered twice is refused, and each entry of the start queue is
started at most once, when what it requires is registered.
-/

namespace D7os.Serviced

/-- `ServiceName(String)`. -/
abbrev ServiceName := List Char

/-- `ServiceDefinition`, without its description. -/
structure ServiceDefinition where
  name : ServiceName
  requires : List ServiceName
  fromInitrd : Bool
  executable : List Char

structure Registration where
  name : ServiceName
  oneshot : Bool

/-- `ProcessResult`, with the error of a failed process left out. -/
inductive ProcessResult
  | Completed (code : Nat)
  | Failed
  deriving DecidableEq

structure ProcessTerminated where
  pid : ProcessId
  result : ProcessResult

/-- An `AcknowledgeContext`, named by the transaction it answers. -/
structure AcknowledgeContext where
  id : Nat
  deriving DecidableEq

/-- What the kernel answers to the daemon. -/
structure Kernel where
  /-- the process `Process::spawn(executable, &[])` creates, or its error -/
  spawn : List Char → Option ProcessId
  /-- whether `ipc_acknowledge` of the context, positive or not, succeeds -/
  acknowledge : AcknowledgeContext → Bool → Bool

/-- A waiter: the names it waits for, and the request to acknowledge. -/
abbrev Waiter := List ServiceName × AcknowledgeContext

structure Services where
  definitions : List ServiceDefinition
  startQueue : List ServiceName
  /-- the process of each running managed service, by its pid -/
  managed : HashMap ProcessId ServiceName
  /-- the registered services, with their oneshot flag -/
  discovery : HashMap ServiceName Bool
  waitingForAll : List Waiter
  waitingForAny : List Waiter

/-- `Services::new` over the definitions read from the InitRD. -/
def Services.new (definitions : List ServiceDefinition) : Services :=
  ⟨definitions, definitions.map (·.name), ∅, ∅, [], []⟩

namespace Services

def definitionByName (s : Services) (name : ServiceName) : Option ServiceDefinition :=
  s.definitions.find? (·.name == name)

def isRegistered (s : Services) (name : ServiceName) : Bool := (s.discovery.lookup name).isSome

def areRequirementsUp (s : Services) (d : ServiceDefinition) : Bool := d.requires.all s.isRegistered

end Services

/-- `.unwrap()` of an `Option`. -/
def unwrapOption {α : Type} : Option α → Except Panic α
  | some a => .ok a
  | none => .error "called `Option::unwrap()` on a `None` value"

/-- `ack_ctx.ack().unwrap()` or `ack_ctx.nack().unwrap()`. -/
def ack (k : Kernel) (ctx : AcknowledgeContext) (positive : Bool) : Except Panic Unit :=
  if k.acknowledge ctx positive then .ok () else .error "called `Result::unwrap()` on an `Err` value"

/-- `Vec::remove(i)`: the element at `i` and what is left. -/
def removeAt {α : Type} (v : List α) (i : Nat) : Except Panic (α × List α) :=
  match v[i]? with
  | some x => .ok (x, v.eraseIdx i)
  | none => .error ("removal index (is " ++ toString i ++ ") should be < len (is " ++ toString v.length ++ ")")

/-- `while let Some(i) = indices.pop() { let x = v.remove(i); f(x) }`, the indices
in the order they are popped: the state after `f` on each removed element, what
is left of `v`, and the removed elements in order. -/
def popRemove {σ α : Type} (f : σ → α → Except Panic σ) :
    σ → List α → List Nat → Except Panic (σ × List α × List α)
  | st, v, [] => .ok (st, v, [])
  | st, v, i :: is => do
    let (x, v) ← removeAt v i
    let st ← f st x
    let (st, v, removed) ← popRemove f st v is
    pure (st, v, x :: removed)

namespace Services

/-- `start(def)`. -/
def start (k : Kernel) (s : Services) (d : ServiceDefinition) : Except Panic Services :=
  if !d.fromInitrd then .error "Non-initrd executables are not supported yet"
  else
    match k.spawn d.executable with
    | none => .error "called `Result::unwrap()` on an `Err` value"
    | some pid => .ok { s with managed := s.managed.insert pid d.name }

/-- The first loop of `step`: from position `i` of the start queue, the positions
of the services whose requirements are up. -/
def startIndicesFrom (s : Services) : List ServiceName → Nat → Except Panic (List Nat)
  | [], _ => .ok []
  | name :: rest, i => do
    let d ← unwrapOption (s.definitionByName name)
    let indices ← s.startIndicesFrom rest (i + 1)
    pure (if s.areRequirementsUp d then i :: indices else indices)

/-- `step()`: the services after it and the names started, in order. -/
def step (k : Kernel) (s : Services) : Except Panic (Services × List ServiceName) := do
  let startIndices ← s.startIndicesFrom s.startQueue 0
  let (s', queue, started) ← popRemove (fun s name => do s.start k (← unwrapOption (s.definitionByName name)))
    s s.startQueue startIndices.reverse
  pure ({ s' with startQueue := queue }, started)

/-- A loop of `on_register` over one waiting list: the waiters whose condition
now holds are removed, the last first, and acknowledged. -/
def release (k : Kernel) (holds : List ServiceName → Bool) (waiting : List Waiter) :
    Except Panic (List Waiter × List AcknowledgeContext) := do
  let ((), rest, released) ← popRemove (fun () (w : Waiter) => ack k w.2 true) () waiting
    (waiting.findIdxs fun w => holds w.1).reverse
  pure (rest, released.map (·.2))

/-- `on_register((ack_ctx, reg))`: the services after it and the acknowledgements made. -/
def onRegister (k : Kernel) (s : Services) (ctx : AcknowledgeContext) (reg : Registration) :
    Except Panic (Services × List (AcknowledgeContext × Bool)) :=
  if s.isRegistered reg.name then do
    ack k ctx false
    pure (s, [(ctx, false)])
  else do
    let s := { s with discovery := s.discovery.insert reg.name reg.oneshot }
    ack k ctx true
    let (waitingForAll, wokenAll) ← release k (fun set => set.all s.isRegistered) s.waitingForAll
    let (waitingForAny, wokenAny) ← release k (fun set => set.any s.isRegistered) s.waitingForAny
    pure ({ s with waitingForAll, waitingForAny }, (ctx, true) :: (wokenAll ++ wokenAny).map (·, true))

/-- `on_waitfor_any` and `on_waitfor_all`: acknowledge at once when the condition
holds, and otherwise wait in `waiting`. -/
def onWaitfor (k : Kernel) (s : Services) (holds : Bool) (waiting : Services) (ctx : AcknowledgeContext) :
    Except Panic (Services × List (AcknowledgeContext × Bool)) :=
  if holds then do
    ack k ctx true
    pure (s, [(ctx, true)])
  else .ok (waiting, [])

def onWaitforAny (k : Kernel) (s : Services) (ctx : AcknowledgeContext) (names : List ServiceName) :
    Except Panic (Services × List (AcknowledgeContext × Bool)) :=
  s.onWaitfor k (names.any s.isRegistered) { s with waitingForAny := s.waitingForAny ++ [(names, ctx)] } ctx

def onWaitforAll (k : Kernel) (s : Services) (ctx : AcknowledgeContext) (names : List ServiceName) :
    Except Panic (Services × List (AcknowledgeContext × Bool)) :=
  s.onWaitfor k (names.all s.isRegistered) { s with waitingForAll := s.waitingForAll ++ [(names, ctx)] } ctx

/-- `on_process_completed(terminated)`: a managed service that ends leaves the
registry, unless it is oneshot and completed with code 0. -/
def onProcessCompleted (s : Services) (terminated : ProcessTerminated) : Services :=
  match s.managed.lookup terminated.pid with
  | none => s
  | some name =>
    let s := { s with managed := s.managed.erase terminated.pid }
    match s.discovery.lookup name with
    | some oneshot =>
      if !(oneshot && terminated.result == .Completed 0) then { s with discovery := s.discovery.erase name }
      else s
    | none => s

end Services

/-- What reaches the daemon: its own `step`, or a message on one of its four
subscriptions. -/
inductive Event
  | step
  | processCompleted (terminated : ProcessTerminated)
  | register (ctx : AcknowledgeContext) (reg : Registration)
  | waitforAny (ctx : AcknowledgeContext) (names : List ServiceName)
  | waitforAll (ctx : AcknowledgeContext) (names : List ServiceName)

/-- The request an event carries, to be acknowledged. -/
def Event.ctx : Event → Option AcknowledgeContext
  | .register ctx _ | .waitforAny ctx _ | .waitforAll ctx _ => some ctx
  | .step | .processCompleted _ => none

namespace Services

/-- One event: the services after it, the acknowledgements made and the services
started. -/
def handle (k : Kernel) (s : Services) :
    Event → Except Panic (Services × List (AcknowledgeContext × Bool) × List ServiceName)
  | .step => (s.step k).map fun (s, started) => (s, [], started)
  | .processCompleted terminated => .ok (s.onProcessCompleted terminated, [], [])
  | .register ctx reg => (s.onRegister k ctx reg).map fun (s, acks) => (s, acks, [])
  | .waitforAny ctx names => (s.onWaitforAny k ctx names).map fun (s, acks) => (s, acks, [])
  | .waitforAll ctx names => (s.onWaitforAll k ctx names).map fun (s, acks) => (s, acks, [])

/-- A run of events, stopped by the first panic. -/
def run (k : Kernel) : Services → List Event →
    Except Panic (Services × List (AcknowledgeContext × Bool) × List ServiceName)
  | s, [] => .ok (s, [], [])
  | s, ev :: evs => do
    let (s, acks, started) ← s.handle k ev
    let (s, acks', started') ← run k s evs
    pure (s, acks ++ acks', started ++ started')

/-- The requests still waiting. -/
def waitingCtxs (s : Services) : List AcknowledgeContext := (s.waitingForAll ++ s.waitingForAny).map (·.2)

/-- Whether `step` starts the queue entry `name`: its definition exists and what
it requires is registered. -/
def canStart (s : Services) (name : ServiceName) : Bool := (s.definitionByName name).any s.areRequirementsUp

/-- No waiter is left whose condition holds. -/
structure Inv (s : Services) : Prop where
  all_waiting : ∀ w ∈ s.waitingForAll, w.1.all s.isRegistered = false
  any_waiting : ∀ w ∈ s.waitingForAny, w.1.any s.isRegistered = false

end Services

/-- Whether the request an event carries is granted in the state it reaches: the
name is free to register, or the names waited for are up. -/
def Event.holds (s : Services) : Event → Bool
  | .register _ reg => !s.isRegistered reg.name
  | .waitforAny _ names => names.any s.isRegistered
  | .waitforAll _ names => names.all s.isRegistered
  | .step | .processCompleted _ => false

/-! ## Removing from the back -/

section PopRemove

variable {σ α : Type}

/-- **What the removal loop does**: it removes what `removeIndices` removes, and
keeps what every call of `f` keeps. -/
theorem popRemove_ok {f : σ → α → Except Panic σ} {P : σ → Prop}
    (hf : ∀ st x st', P st → f st x = .ok st' → P st') :
    ∀ (is : List Nat) {st : σ} {v : List α} {st' : σ} {rest removed : List α}, P st →
      popRemove f st v is = .ok (st', rest, removed) → P st' ∧ v.removeIndices is = some (rest, removed)
  | [], st, v, st', rest, removed, hP, h => by
    cases h
    exact ⟨hP, rfl⟩
  | i :: is, st, v, st', rest, removed, hP, h => by
    rw [popRemove] at h
    obtain ⟨⟨x, v₁⟩, hx, h⟩ := Except.bind_eq_ok.mp h
    obtain ⟨st₁, hst₁, h⟩ := Except.bind_eq_ok.mp h
    obtain ⟨⟨st₂, v₂, removed₂⟩, hrest, h⟩ := Except.bind_eq_ok.mp h
    cases h
    have hget : v[i]? = some x ∧ v.eraseIdx i = v₁ := by
      unfold removeAt at hx
      split at hx
      · cases hx
        exact ⟨by assumption, rfl⟩
      · cases hx
    obtain ⟨hP', hrem⟩ := popRemove_ok hf is (hf _ _ _ hP hst₁) hrest
    refine ⟨hP', ?_⟩
    rw [List.removeIndices, hget.1, Option.bind_some, hget.2, hrem]
    rfl

end PopRemove

namespace Services

variable {k : Kernel} {s s' : Services}

/-! ## Releasing waiters -/

/-- **What a release loop does**: it removes the waiters whose condition holds,
keeping the others in order, and acknowledges the removed ones, the last first. -/
theorem release_ok {holds : List ServiceName → Bool} {waiting rest : List Waiter}
    {woken : List AcknowledgeContext} (h : release k holds waiting = .ok (rest, woken)) :
    rest = waiting.filter (fun w => !holds w.1) ∧ woken = ((waiting.filter fun w => holds w.1).reverse).map (·.2) := by
  unfold release at h
  obtain ⟨⟨_, rest₁, released⟩, hloop, h⟩ := Except.bind_eq_ok.mp h
  cases h
  obtain ⟨-, hrem⟩ := popRemove_ok (P := fun (_ : Unit) => True) (fun _ _ _ _ _ => trivial) _ trivial hloop
  rw [List.removeIndices_findIdxs] at hrem
  simp only [Option.some.injEq, Prod.mk.injEq] at hrem
  exact ⟨hrem.1.symm, by rw [← hrem.2]⟩

/-- The requests a release removes are acknowledged: those left and those woken
are the requests that waited. -/
theorem release_perm {holds : List ServiceName → Bool} {waiting rest : List Waiter}
    {woken : List AcknowledgeContext} (h : release k holds waiting = .ok (rest, woken)) :
    (rest.map (·.2) ++ woken).Perm (waiting.map (·.2)) := by
  obtain ⟨rfl, rfl⟩ := release_ok h
  rw [← List.map_append]
  apply List.Perm.map
  calc List.Perm _ (waiting.filter (fun w => !holds w.1) ++ waiting.filter (fun w => holds w.1)) :=
        (List.reverse_perm _).append_left _
    List.Perm _ (waiting.filter (fun w => holds w.1) ++ waiting.filter (fun w => !holds w.1)) :=
        List.perm_append_comm
    List.Perm _ waiting := List.filter_append_perm _ _

/-- A waiter a release leaves still waits: its condition fails. -/
theorem release_rest {holds : List ServiceName → Bool} {waiting rest : List Waiter}
    {woken : List AcknowledgeContext} (h : release k holds waiting = .ok (rest, woken)) :
    ∀ w ∈ rest, holds w.1 = false := by
  obtain ⟨rfl, -⟩ := release_ok h
  intro w hw
  simpa using (List.mem_filter.mp hw).2

/-- A request a release acknowledges waited, and its condition holds. -/
theorem release_woken {holds : List ServiceName → Bool} {waiting rest : List Waiter}
    {woken : List AcknowledgeContext} (h : release k holds waiting = .ok (rest, woken)) :
    ∀ c ∈ woken, ∃ names, (names, c) ∈ waiting ∧ holds names = true := by
  obtain ⟨-, rfl⟩ := release_ok h
  intro c hc
  obtain ⟨w, hw, rfl⟩ := List.mem_map.mp hc
  obtain ⟨hmem, hholds⟩ := List.mem_filter.mp (List.mem_reverse.mp hw)
  exact ⟨w.1, hmem, hholds⟩

/-! ## The handlers -/

theorem unwrapOption_ok {α : Type} {o : Option α} {a : α} (h : unwrapOption o = .ok a) : o = some a := by
  cases o with
  | none => cases h
  | some b => cases h; rfl

/-- `start` spawns the executable and records only the new process. -/
theorem start_ok {d : ServiceDefinition} (h : s.start k d = .ok s') :
    ∃ pid, d.fromInitrd = true ∧ k.spawn d.executable = some pid ∧
      s' = { s with managed := s.managed.insert pid d.name } := by
  unfold start at h
  split at h
  · cases h
  · rename_i hinitrd
    cases hspawn : k.spawn d.executable with
    | none => rw [hspawn] at h; cases h
    | some pid =>
      rw [hspawn] at h
      cases h
      exact ⟨pid, by simpa using hinitrd, rfl, rfl⟩

/-- The first loop of `step` collects the positions `canStart` marks. -/
theorem startIndicesFrom_ok : ∀ {q : List ServiceName} {i : Nat} {is : List Nat},
    s.startIndicesFrom q i = .ok is → is = q.findIdxs s.canStart i
  | [], _, _, h => by cases h; rfl
  | name :: rest, i, is, h => by
    rw [startIndicesFrom] at h
    obtain ⟨d, hd, h⟩ := Except.bind_eq_ok.mp h
    obtain ⟨is', his', h⟩ := Except.bind_eq_ok.mp h
    cases h
    have hc : s.canStart name = s.areRequirementsUp d := by rw [canStart, unwrapOption_ok hd]; rfl
    rw [List.findIdxs_cons, hc, ← startIndicesFrom_ok his']

/-- **What `step` does**: it starts the queue entries `canStart` marks, the last
first, leaves the others queued in order, and changes nothing else but
`managed`. -/
theorem step_ok {started : List ServiceName} (h : s.step k = .ok (s', started)) :
    (∃ managed, s' = { s with managed, startQueue := s.startQueue.filter fun n => !s.canStart n }) ∧
      started = (s.startQueue.filter s.canStart).reverse := by
  unfold step at h
  obtain ⟨is, his, h⟩ := Except.bind_eq_ok.mp h
  obtain ⟨⟨s₁, queue, started₁⟩, hloop, h⟩ := Except.bind_eq_ok.mp h
  cases h
  -- the loop keeps every field but `managed`, since `start` writes only that one
  have hstart : ∀ st name st', (∃ m, st = { s with managed := m }) →
      (do st.start k (← unwrapOption (st.definitionByName name))) = Except.ok st' →
        ∃ m, st' = { s with managed := m } := by
    rintro st name st' ⟨m, rfl⟩ hst
    obtain ⟨d, -, hst⟩ := Except.bind_eq_ok.mp hst
    obtain ⟨pid, -, -, rfl⟩ := start_ok hst
    exact ⟨_, rfl⟩
  rw [startIndicesFrom_ok his] at hloop
  obtain ⟨⟨m, rfl⟩, hrem⟩ := popRemove_ok hstart _ ⟨s.managed, rfl⟩ hloop
  rw [List.removeIndices_findIdxs] at hrem
  simp only [Option.some.injEq, Prod.mk.injEq] at hrem
  obtain ⟨rfl, rfl⟩ := hrem
  exact ⟨⟨m, rfl⟩, rfl⟩

/-- A name already registered is refused and nothing changes. -/
theorem onRegister_of_registered {ctx : AcknowledgeContext} {reg : Registration}
    {acks : List (AcknowledgeContext × Bool)} (hreg : s.isRegistered reg.name = true)
    (h : s.onRegister k ctx reg = .ok (s', acks)) : s' = s ∧ acks = [(ctx, false)] := by
  unfold onRegister at h
  rw [if_pos hreg] at h
  obtain ⟨_, -, h⟩ := Except.bind_eq_ok.mp h
  cases h
  exact ⟨rfl, rfl⟩

/-- A free name is registered and acknowledged, and both waiting lists are
released under the registry that includes it. -/
theorem onRegister_of_free {ctx : AcknowledgeContext} {reg : Registration}
    {acks : List (AcknowledgeContext × Bool)} (hreg : s.isRegistered reg.name = false)
    (h : s.onRegister k ctx reg = .ok (s', acks)) :
    ∃ restAll wokenAll restAny wokenAny,
      release k (fun set => set.all s'.isRegistered) s.waitingForAll = .ok (restAll, wokenAll) ∧
      release k (fun set => set.any s'.isRegistered) s.waitingForAny = .ok (restAny, wokenAny) ∧
      s' = { s with
        discovery := s.discovery.insert reg.name reg.oneshot, waitingForAll := restAll, waitingForAny := restAny } ∧
      acks = (ctx, true) :: (wokenAll ++ wokenAny).map (·, true) := by
  unfold onRegister at h
  rw [if_neg (by rw [hreg]; exact Bool.false_ne_true)] at h
  dsimp only at h
  obtain ⟨_, -, h⟩ := Except.bind_eq_ok.mp h
  obtain ⟨⟨restAll, wokenAll⟩, hall, h⟩ := Except.bind_eq_ok.mp h
  obtain ⟨⟨restAny, wokenAny⟩, hany, h⟩ := Except.bind_eq_ok.mp h
  cases h
  exact ⟨restAll, wokenAll, restAny, wokenAny, hall, hany, rfl, rfl⟩

theorem onWaitfor_ok {holds : Bool} {waiting : Services} {ctx : AcknowledgeContext}
    {acks : List (AcknowledgeContext × Bool)} (h : s.onWaitfor k holds waiting ctx = .ok (s', acks)) :
    holds = true ∧ s' = s ∧ acks = [(ctx, true)] ∨ holds = false ∧ s' = waiting ∧ acks = [] := by
  unfold onWaitfor at h
  split at h
  · rename_i hholds
    obtain ⟨_, -, h⟩ := Except.bind_eq_ok.mp h
    cases h
    exact .inl ⟨hholds, rfl, rfl⟩
  · rename_i hholds
    cases h
    exact .inr ⟨by simpa using hholds, rfl, rfl⟩

/-- A process that ends changes only `managed` and `discovery`, and registers
nothing new. -/
theorem onProcessCompleted_shrinks (s : Services) (terminated : ProcessTerminated) :
    ∃ managed discovery, s.onProcessCompleted terminated = { s with managed, discovery } ∧
      ∀ n, (discovery.lookup n).isSome = true → s.isRegistered n = true := by
  unfold onProcessCompleted
  cases s.managed.lookup terminated.pid with
  | none => exact ⟨s.managed, s.discovery, rfl, fun _ h => h⟩
  | some name =>
    dsimp only
    cases s.discovery.lookup name with
    | none => exact ⟨_, s.discovery, rfl, fun _ h => h⟩
    | some oneshot =>
      dsimp only
      split
      · -- the service leaves the registry
        refine ⟨_, s.discovery.erase name, rfl, fun n h => ?_⟩
        by_cases hn : n = name
        · subst hn
          simp [AList.lookup_erase] at h
        · rwa [AList.lookup_erase_ne hn] at h
      · exact ⟨_, s.discovery, rfl, fun _ h => h⟩

/-! ## One event -/

/-- The invariant survives a state with the same waiters and no more registered
names: a condition that fails still fails. -/
theorem Inv.of_registered_le (hinv : s.Inv) (hall : s'.waitingForAll = s.waitingForAll)
    (hany : s'.waitingForAny = s.waitingForAny) (hreg : ∀ n, s'.isRegistered n = true → s.isRegistered n = true) :
    s'.Inv where
  all_waiting w hw := by
    refine Bool.eq_false_iff.mpr fun hs => ?_
    have hs : w.1.all s.isRegistered = true := List.all_eq_true.mpr fun n hn => hreg n (List.all_eq_true.mp hs n hn)
    rw [hinv.all_waiting w (hall ▸ hw)] at hs
    exact Bool.false_ne_true hs
  any_waiting w hw := by
    refine Bool.eq_false_iff.mpr fun hs => ?_
    obtain ⟨n, hn, hr⟩ := List.any_eq_true.mp hs
    have hs : w.1.any s.isRegistered = true := List.any_eq_true.mpr ⟨n, hn, hreg n hr⟩
    rw [hinv.any_waiting w (hany ▸ hw)] at hs
    exact Bool.false_ne_true hs

variable {ev : Event} {acks : List (AcknowledgeContext × Bool)} {started : List ServiceName}

theorem handle_inv (hinv : s.Inv) (h : s.handle k ev = .ok (s', acks, started)) : s'.Inv := by
  cases ev with
  | step =>
    obtain ⟨⟨s₁, started₁⟩, hs, h⟩ := Except.map_eq_ok.mp h
    cases h
    obtain ⟨⟨m, rfl⟩, -⟩ := step_ok hs
    exact hinv.of_registered_le rfl rfl fun _ h => h
  | processCompleted t =>
    cases h
    obtain ⟨m, d, heq, hreg⟩ := onProcessCompleted_shrinks s t
    rw [heq]
    exact hinv.of_registered_le rfl rfl hreg
  | register ctx reg =>
    obtain ⟨⟨s₁, acks₁⟩, hs, h⟩ := Except.map_eq_ok.mp h
    cases h
    cases hreg : s.isRegistered reg.name
    case true =>
      obtain ⟨rfl, -⟩ := onRegister_of_registered hreg hs
      exact hinv
    case false =>
      -- the waiters left are those whose condition fails under the new registry
      obtain ⟨rA, wA, rY, wY, hA, hY, rfl, -⟩ := onRegister_of_free hreg hs
      exact ⟨release_rest hA, release_rest hY⟩
  | waitforAny ctx names =>
    obtain ⟨⟨s₁, acks₁⟩, hs, h⟩ := Except.map_eq_ok.mp h
    cases h
    rcases onWaitfor_ok hs with ⟨-, rfl, -⟩ | ⟨hholds, rfl, -⟩
    · exact hinv
    · refine ⟨hinv.all_waiting, fun w hw => ?_⟩
      rcases List.mem_append.mp hw with hw | hw
      · exact hinv.any_waiting w hw
      · rw [List.mem_singleton.mp hw]
        exact hholds
  | waitforAll ctx names =>
    obtain ⟨⟨s₁, acks₁⟩, hs, h⟩ := Except.map_eq_ok.mp h
    cases h
    rcases onWaitfor_ok hs with ⟨-, rfl, -⟩ | ⟨hholds, rfl, -⟩
    · exact hinv
    · refine ⟨fun w hw => ?_, hinv.any_waiting⟩
      rcases List.mem_append.mp hw with hw | hw
      · exact hinv.all_waiting w hw
      · rw [List.mem_singleton.mp hw]
        exact hholds

/-- **No request is lost or answered twice**: what waits after an event and what
the event acknowledges are what waited before and the event's own request. -/
theorem handle_perm (h : s.handle k ev = .ok (s', acks, started)) :
    (s'.waitingCtxs ++ acks.map (·.1)).Perm (s.waitingCtxs ++ ev.ctx.toList) := by
  cases ev with
  | step =>
    obtain ⟨⟨s₁, started₁⟩, hs, h⟩ := Except.map_eq_ok.mp h
    cases h
    obtain ⟨⟨m, rfl⟩, -⟩ := step_ok hs
    exact List.Perm.refl _
  | processCompleted t =>
    cases h
    obtain ⟨m, d, heq, -⟩ := onProcessCompleted_shrinks s t
    rw [heq]
    exact List.Perm.refl _
  | register ctx reg =>
    obtain ⟨⟨s₁, acks₁⟩, hs, h⟩ := Except.map_eq_ok.mp h
    cases h
    cases hreg : s.isRegistered reg.name
    case true =>
      obtain ⟨rfl, rfl⟩ := onRegister_of_registered hreg hs
      exact List.Perm.refl _
    case false =>
      -- each release moves its woken requests from the waiters to the acknowledgements
      obtain ⟨rA, wA, rY, wY, hA, hY, rfl, rfl⟩ := onRegister_of_free hreg hs
      have hA := List.perm_iff_count.mp (release_perm hA)
      have hY := List.perm_iff_count.mp (release_perm hY)
      refine List.perm_iff_count.mpr fun c => ?_
      have hAc := hA c
      have hYc := hY c
      simp only [waitingCtxs, Event.ctx, List.map_append, List.map_cons, List.map_map, Function.comp_def,
        List.map_id', Option.toList_some, List.count_append, List.count_cons, List.count_nil] at hAc hYc ⊢
      omega
  | waitforAny ctx names =>
    obtain ⟨⟨s₁, acks₁⟩, hs, h⟩ := Except.map_eq_ok.mp h
    cases h
    rcases onWaitfor_ok hs with ⟨-, rfl, rfl⟩ | ⟨-, rfl, rfl⟩
    · exact List.Perm.refl _
    · simp [waitingCtxs, Event.ctx]
  | waitforAll ctx names =>
    obtain ⟨⟨s₁, acks₁⟩, hs, h⟩ := Except.map_eq_ok.mp h
    cases h
    rcases onWaitfor_ok hs with ⟨-, rfl, rfl⟩ | ⟨-, rfl, rfl⟩
    · exact List.Perm.refl _
    · -- the new waiter goes to the end of the first list
      simpa [waitingCtxs, Event.ctx] using
        (@List.perm_append_comm _ [ctx] (s.waitingForAny.map (·.2))).append_left (s.waitingForAll.map (·.2))

/-- Only `step` takes names off the start queue, and each name it takes is
started. -/
theorem handle_queue (h : s.handle k ev = .ok (s', acks, started)) : (started ++ s'.startQueue).Perm s.startQueue := by
  cases ev with
  | step =>
    obtain ⟨⟨s₁, started₁⟩, hs, h⟩ := Except.map_eq_ok.mp h
    cases h
    obtain ⟨⟨m, rfl⟩, rfl⟩ := step_ok hs
    exact ((List.reverse_perm _).append_right _).trans (List.filter_append_perm _ _)
  | processCompleted t =>
    cases h
    obtain ⟨m, d, heq, -⟩ := onProcessCompleted_shrinks s t
    rw [heq]
    exact List.Perm.refl _
  | register ctx reg =>
    obtain ⟨⟨s₁, acks₁⟩, hs, h⟩ := Except.map_eq_ok.mp h
    cases h
    cases hreg : s.isRegistered reg.name
    case true =>
      obtain ⟨rfl, -⟩ := onRegister_of_registered hreg hs
      exact List.Perm.refl _
    case false =>
      obtain ⟨rA, wA, rY, wY, hA, hY, rfl, -⟩ := onRegister_of_free hreg hs
      exact List.Perm.refl _
  | waitforAny ctx names | waitforAll ctx names =>
    obtain ⟨⟨s₁, acks₁⟩, hs, h⟩ := Except.map_eq_ok.mp h
    cases h
    rcases onWaitfor_ok hs with ⟨-, rfl, -⟩ | ⟨-, rfl, -⟩ <;> exact List.Perm.refl _

/-- **Acknowledgements are deserved**: an event acknowledges its own request,
positively exactly when it is granted, or a waiter it releases, whose condition
holds in the state after it. -/
theorem handle_acks (h : s.handle k ev = .ok (s', acks, started)) {c : AcknowledgeContext} {b : Bool}
    (hc : (c, b) ∈ acks) :
    (ev.ctx = some c ∧ b = ev.holds s) ∨
      (b = true ∧ ((∃ names, (names, c) ∈ s.waitingForAll ∧ names.all s'.isRegistered = true) ∨
        (∃ names, (names, c) ∈ s.waitingForAny ∧ names.any s'.isRegistered = true))) := by
  cases ev with
  | step =>
    obtain ⟨⟨s₁, started₁⟩, -, h⟩ := Except.map_eq_ok.mp h
    cases h
    cases hc
  | processCompleted t =>
    cases h
    cases hc
  | register ctx reg =>
    obtain ⟨⟨s₁, acks₁⟩, hs, h⟩ := Except.map_eq_ok.mp h
    cases h
    cases hreg : s.isRegistered reg.name
    case true =>
      obtain ⟨rfl, rfl⟩ := onRegister_of_registered hreg hs
      obtain ⟨rfl, rfl⟩ := Prod.mk.inj (List.mem_singleton.mp hc)
      exact .inl ⟨rfl, by simp [Event.holds, hreg]⟩
    case false =>
      obtain ⟨rA, wA, rY, wY, hA, hY, rfl, rfl⟩ := onRegister_of_free hreg hs
      rcases List.mem_cons.mp hc with hc | hc
      · -- the registration itself
        obtain ⟨rfl, rfl⟩ := Prod.mk.inj hc
        exact .inl ⟨rfl, by simp [Event.holds, hreg]⟩
      · -- a released waiter
        obtain ⟨c', hc', heq⟩ := List.mem_map.mp hc
        obtain ⟨rfl, rfl⟩ := Prod.mk.inj heq
        rcases List.mem_append.mp hc' with hc' | hc'
        · exact .inr ⟨rfl, .inl (release_woken hA c' hc')⟩
        · exact .inr ⟨rfl, .inr (release_woken hY c' hc')⟩
  | waitforAny ctx names | waitforAll ctx names =>
    obtain ⟨⟨s₁, acks₁⟩, hs, h⟩ := Except.map_eq_ok.mp h
    cases h
    rcases onWaitfor_ok hs with ⟨hholds, rfl, rfl⟩ | ⟨-, rfl, rfl⟩
    · obtain ⟨rfl, rfl⟩ := Prod.mk.inj (List.mem_singleton.mp hc)
      exact .inl ⟨rfl, hholds.symm⟩
    · cases hc

/-- `step` acknowledges nothing, leaves the registry alone, and starts a name only
when its definition's requirements are registered. -/
theorem handle_step (h : s.handle k .step = .ok (s', acks, started)) :
    acks = [] ∧ s'.discovery = s.discovery ∧
      ∀ name ∈ started, ∃ d, s.definitionByName name = some d ∧ s.areRequirementsUp d = true := by
  obtain ⟨⟨s₁, started₁⟩, hs, h⟩ := Except.map_eq_ok.mp h
  cases h
  obtain ⟨⟨m, rfl⟩, rfl⟩ := step_ok hs
  refine ⟨rfl, rfl, fun name hname => ?_⟩
  exact (Option.any_eq_true _ _).mp (List.mem_filter.mp (List.mem_reverse.mp hname)).2

/-! ## Runs -/

/-- The requests a run of events carries. -/
def requests (evs : List Event) : List AcknowledgeContext := evs.flatMap fun ev => ev.ctx.toList

/-- **The run lemma**: over any run from a state with no releasable waiter, none
is left, every request is acknowledged once or still waits, and every start
queue entry is started once or still queued. -/
theorem run_spec : ∀ {evs : List Event} {s s' : Services} {acks : List (AcknowledgeContext × Bool)}
    {started : List ServiceName}, s.Inv → s.run k evs = .ok (s', acks, started) →
      s'.Inv ∧ (s'.waitingCtxs ++ acks.map (·.1)).Perm (s.waitingCtxs ++ requests evs) ∧
        (started ++ s'.startQueue).Perm s.startQueue
  | [], s, s', acks, started, hinv, h => by
    cases h
    exact ⟨hinv, by simp [requests], List.Perm.refl _⟩
  | ev :: evs, s, s', acks, started, hinv, h => by
    rw [run] at h
    obtain ⟨⟨s₁, acks₁, started₁⟩, hstep, h⟩ := Except.bind_eq_ok.mp h
    obtain ⟨⟨s₂, acks₂, started₂⟩, hrun, h⟩ := Except.bind_eq_ok.mp h
    cases h
    obtain ⟨hinv₂, hctx₂, hq₂⟩ := run_spec (handle_inv hinv hstep) hrun
    refine ⟨hinv₂, List.perm_iff_count.mpr fun c => ?_, ?_⟩
    · -- count each request through the event, then through the rest of the run
      have h₁ := List.perm_iff_count.mp (handle_perm hstep) c
      have h₂ := List.perm_iff_count.mp hctx₂ c
      simp only [requests, List.flatMap_cons, List.map_append, List.count_append] at h₁ h₂ ⊢
      omega
    · rw [List.append_assoc]
      exact (hq₂.append_left _).trans (handle_queue hstep)

theorem inv_new (definitions : List ServiceDefinition) : (Services.new definitions).Inv :=
  ⟨(fun _ h => by cases h), (fun _ h => by cases h)⟩

/-- A waiter for a name registered later is woken by the registration, after
the registration's own acknowledgement, and a second registration is refused. -/
example : (((Services.new []).run ⟨fun _ => some ⟨2⟩, fun _ _ => true⟩
    [.waitforAll ⟨1⟩ ["net".toList], .register ⟨2⟩ ⟨"net".toList, false⟩,
      .register ⟨3⟩ ⟨"net".toList, true⟩]).map (·.2.1)).toOption =
    some [(⟨2⟩, true), (⟨1⟩, true), (⟨3⟩, false)] := by decide

/-- **The service daemon answers its waiters as it should.** Over every run from
`Services::new`, no waiter is left whose condition holds, and every request is
acknowledged once or still waits, as every start queue entry is started once or
still queued. An event acknowledges its own request, positively exactly when
it is granted, or releases a waiter whose condition holds after it. A
registration of a registered name is refused and changes nothing, and `step`
starts a service only when what it requires is registered. -/
theorem services_release_waiters (k : Kernel) :
    (∀ definitions evs s acks started, (Services.new definitions).run k evs = .ok (s, acks, started) →
      s.Inv ∧ (s.waitingCtxs ++ acks.map (·.1)).Perm (requests evs) ∧
        (started ++ s.startQueue).Perm (definitions.map (·.name))) ∧
    (∀ (s : Services) ev s' acks started, s.handle k ev = .ok (s', acks, started) → ∀ c b, (c, b) ∈ acks →
      (ev.ctx = some c ∧ b = ev.holds s) ∨
        (b = true ∧ ((∃ names, (names, c) ∈ s.waitingForAll ∧ names.all s'.isRegistered = true) ∨
          (∃ names, (names, c) ∈ s.waitingForAny ∧ names.any s'.isRegistered = true)))) ∧
    (∀ (s : Services) ctx (reg : Registration) s' acks started, s.isRegistered reg.name = true →
      s.handle k (.register ctx reg) = .ok (s', acks, started) → s' = s ∧ acks = [(ctx, false)]) ∧
    (∀ (s : Services) s' acks started, s.handle k .step = .ok (s', acks, started) →
      acks = [] ∧ s'.discovery = s.discovery ∧
        ∀ name ∈ started, ∃ d, s.definitionByName name = some d ∧ s.areRequirementsUp d = true) := by
  refine ⟨fun definitions evs s acks started h => ?_, fun s ev s' acks started h c b hc => handle_acks h hc,
    fun s ctx reg s' acks started hreg h => ?_, fun s s' acks started h => handle_step h⟩
  · -- `Services::new` has no waiter, and queues every definition
    obtain ⟨hinv, hctx, hqueue⟩ := run_spec (inv_new definitions) h
    exact ⟨hinv, hctx, hqueue⟩
  · obtain ⟨⟨s₁, acks₁⟩, hs, h⟩ := Except.map_eq_ok.mp h
    cases h
    exact onRegister_of_registered hreg hs

end Services

end D7os.Serviced

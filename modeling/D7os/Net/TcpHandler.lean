import D7os.Net.Dhcp
import D7os.Lib.AList
import D7os.Lib.List

/-!
# The TCP binding table of netd

`modules/daemon_net/src/tcp_handler.rs`: `TcpHandler` keeps the sockets by id and
the bindings from addresses to socket ids. `new_user_socket` binds a socket to
`match_any(port)`, `Remove` drops a socket with its bindings, `Accept` binds the
accepted socket to its remote address, and `socket_for` tries the bindings from
the most specific to the least. A `tcpstate` socket is opaque (`TcpMachine`);
the handler's `SocketData`, with its suspended and ready events, is modelled.

Every binding names a live socket and every record is sound, so no `expect` on
a socket or an event fires. But `new_user_socket` binds an explicit port without
asking whether it is in use: `BindError::AlreadyInUse` is never returned, and the
socket that held the port is left with no binding.
-/

namespace D7os.Netd

open D7os.Dhcp

inductive IpAddr
  | V4 (addr : Ipv4Addr)
  | V6 (addr : Octets 16)
  deriving DecidableEq

structure SocketAddr where
  host : IpAddr
  port : Nat
  deriving DecidableEq

/-- `SocketId(u64)`. -/
abbrev SocketId := Nat

structure Binding where
  «local» : SocketAddr
  remote : Option SocketAddr
  deriving DecidableEq

/-- Anything as long as the port matches -/
def Binding.matchAny (localPort : Nat) : Binding := ⟨⟨.V4 Ipv4Addr.ZERO, localPort⟩, none⟩

inductive BindError
  | AlreadyInUse
  | NotAcceptable
  | NoPortsAvailable
  | PermissionDenied
  deriving DecidableEq

/-- `socket_ipc_protocol::Request`, without the keys and values of the options. -/
inductive Request
  | GetState
  | GetOption
  | SetOption
  | Connect («to» : SocketAddr)
  | Listen (backlog : Nat)
  | Shutdown
  | Close
  | Abort
  | Send (data : List UInt8)
  | Recv (n : Nat)
  | Remove
  | Accept
  deriving DecidableEq

/-- The `tcp::state::SegmentMeta` that `handle_packet` builds from a segment. -/
structure SegmentMeta where
  seqn : Nat
  ackn : Nat
  window : Nat
  flags : Nat
  data : List UInt8

/-- `tcp::state::Cookie`: names an event a socket call waits for. -/
abbrev Cookie := Nat

/-- `SuspendMode`: what to do when the event of a suspended request comes. -/
inductive SuspendMode
  | Continue
  | Retry (request : Request)
  deriving DecidableEq

/-- What a call of a `tcpstate` socket answers: a reply, or
`Err(RetryAfter(cookie))` or `Err(ContinueAfter(cookie))`. -/
inductive CallOutcome
  | reply
  | retryAfter (cookie : Cookie)
  | continueAfter (cookie : Cookie)
  deriving DecidableEq

/-- The cookie a call waits for. -/
def CallOutcome.cookies : CallOutcome → List Cookie
  | .reply => []
  | .retryAfter c => [c]
  | .continueAfter c => [c]

/-- A socket of the `tcpstate` crate, which is not part of the repository. Its
`pending` cookies are those of the events it waits for; what the crate is
relied on for is that it signals, through `UserData::event`, only events it
waits for, each once. -/
structure TcpMachine (σ : Type) where
  /-- `Socket::new` -/
  new : σ
  /-- `send_error.is_some()`, which `UserData::send` sets when a send fails -/
  sendError : σ → Bool
  /-- `send_error.take()` -/
  takeSendError : σ → σ
  /-- `call_accept`: the listening socket after it, and the remote address and
  the accepted socket, or the answer of the call -/
  callAccept : σ → σ × Except CallOutcome (SocketAddr × σ)
  /-- `socket.remote()` -/
  remote : σ → SocketAddr
  /-- Every other call -/
  call : Request → σ → σ × CallOutcome
  /-- `on_segment`, with the events it signals, in order, each with whether it
  succeeded -/
  onSegment : SocketAddr → SegmentMeta → σ → σ × List (Cookie × Bool)
  pending : σ → List Cookie
  pending_new : pending new = []
  pending_takeSendError : ∀ st, pending (takeSendError st) = pending st
  pending_call : ∀ r st, pending (call r st).1 = (call r st).2.cookies ++ pending st
  pending_callAccept : ∀ st, pending (callAccept st).1 =
    (match (callAccept st).2 with | .error o => o.cookies | .ok _ => []) ++ pending st
  pending_accepted : ∀ st addr child, (callAccept st).2 = .ok (addr, child) → pending child = []
  signals_pending : ∀ a seg st, ((onSegment a seg st).2.map Prod.fst).Nodup ∧
    ∀ c ∈ (onSegment a seg st).2.map Prod.fst, c ∈ pending st
  pending_onSegment : ∀ a seg st, pending (onSegment a seg st).1 =
    (pending st).filter fun c => c ∉ (onSegment a seg st).2.map Prod.fst

/-- `SocketData` with its `tcpstate` socket: the handler's record of the
socket's suspended and ready events. -/
structure SocketData (σ : Type) where
  socket : σ
  localPort : Nat
  eventsSuspended : HashMap Cookie SuspendMode
  eventsReady : List (SuspendMode × Bool)

namespace SocketData

variable {σ : Type}

def new (socket : σ) (localPort : Nat) : SocketData σ := ⟨socket, localPort, ∅, []⟩

/-- The end of `user_socket_event_inner`: a call that waits for an event is
suspended under its cookie, to be retried or continued. -/
def afterCall (sd : SocketData σ) (request : Request) : CallOutcome → SocketData σ
  | .reply => sd
  | .retryAfter c => { sd with eventsSuspended := sd.eventsSuspended.insert c (.Retry request) }
  | .continueAfter c => { sd with eventsSuspended := sd.eventsSuspended.insert c .Continue }

/-- `UserData::event(cookie, result)`: the suspended event becomes ready. -/
def event (sd : SocketData σ) (cookie : Cookie) (ok : Bool) : Except Panic (SocketData σ) :=
  match sd.eventsSuspended.lookup cookie with
  | none => .error "No such event"
  | some mode => .ok { sd with
      eventsSuspended := sd.eventsSuspended.erase cookie, eventsReady := sd.eventsReady ++ [(mode, ok)] }

end SocketData

structure TcpHandler (σ : Type) where
  bindings : HashMap Binding SocketId
  sockets : HashMap SocketId (SocketData σ)
  /-- `NEXT_SOCKET_ID` -/
  nextSocketId : Nat

def randomDynamicPort (v : UInt16) : Nat := 49152 + v.toNat % 16384

namespace TcpHandler

variable {σ : Type} (M : TcpMachine σ)

def new : TcpHandler σ := ⟨∅, ∅, 0⟩

/-- The bindings `socket_for` tries, in its order. -/
def candidates (binding : Binding) : List Binding :=
  let anyLocal : SocketAddr := ⟨.V4 Ipv4Addr.ZERO, binding.local.port⟩
  binding :: (if binding.remote.isSome then [{ binding with remote := none }] else []) ++
    [⟨anyLocal, binding.remote⟩, ⟨anyLocal, none⟩]

def socketFor (self : TcpHandler σ) (binding : Binding) : Option SocketId :=
  let remote := binding.remote
  let anyLocal : SocketAddr := ⟨.V4 Ipv4Addr.ZERO, binding.local.port⟩
  -- Prefer exact address match
  (self.bindings.lookup binding).or <|
    -- If no exact match is found, try without a fixed remote
    (if remote.isSome then self.bindings.lookup { binding with remote := none } else none).or <|
      -- Then with a fixed remote but any local ip, then without remote and any local ip
      (self.bindings.lookup ⟨anyLocal, remote⟩).or (self.bindings.lookup ⟨anyLocal, none⟩)

/-- `pick_free_port`, with the values `random::fast_arr` gives the ten random tries. -/
def pickFreePort (self : TcpHandler σ) (rnd : List UInt16) : Option Nat :=
  let free := fun port => (self.socketFor (.matchAny port)).isNone
  (((rnd.take 10).map randomDynamicPort).find? free).or ((List.range' 49152 16384).find? free)

/-- `new_user_socket(port)`: the handler after it, and the reply, with `topic` the
random number that names the socket's topic. -/
def newUserSocket (self : TcpHandler σ) (rnd : List UInt16) (topic : Nat) (port : Nat) :
    TcpHandler σ × Except BindError String :=
  let id := self.nextSocketId
  let self := { self with nextSocketId := id + 1 }
  match (if port ≠ 0 then some port else self.pickFreePort rnd) with
  | none => (self, .error .NoPortsAvailable)
  | some localPort =>
    ({ self with
        sockets := self.sockets.insert id (.new M.new localPort),
        bindings := self.bindings.insert (.matchAny localPort) id },
      .ok ("netd/tcp/socket/" ++ toString topic))

/-- `user_socket_event_inner`: the handler after it, and whether to process events. -/
def userSocketEventInner (self : TcpHandler σ) (socketId : SocketId) (request : Request) :
    Except Panic (TcpHandler σ × Bool) :=
  match self.sockets.lookup socketId with
  | none => .error "Socket has been removed incorrectly"
  | some sd =>
    if M.sendError sd.socket ∧ request ≠ .Remove then
      .ok ({ self with sockets := self.sockets.insert socketId { sd with socket := M.takeSendError sd.socket } },
        true)
    else
      match request with
      | .Remove =>
        .ok ({ self with
            sockets := self.sockets.erase socketId,
            bindings := self.bindings.filterValues (· ≠ socketId) }, false)
      | .Accept =>
        match M.callAccept sd.socket with
        | (st, .error outcome) =>
          .ok ({ self with sockets := self.sockets.insert socketId (SocketData.afterCall { sd with socket := st } .Accept outcome) },
            true)
        | (st, .ok (_, child)) =>
          let newId := self.nextSocketId
          .ok ({ self with
              nextSocketId := newId + 1,
              bindings := self.bindings.insert ⟨⟨.V4 Ipv4Addr.ZERO, sd.localPort⟩, some (M.remote child)⟩ newId,
              sockets := (self.sockets.insert socketId { sd with socket := st }).insert newId
                (.new child sd.localPort) }, true)
      | .GetOption => .error "not yet implemented: GetOption"
      | .SetOption => .error "not yet implemented: SetOption"
      | request =>
        let call := M.call request sd.socket
        let sd' := SocketData.afterCall { sd with socket := call.1 } request call.2
        .ok ({ self with sockets := self.sockets.insert socketId sd' }, true)

/-- The step of `process_events` for one ready event: a retry whose event
succeeded runs its request again, its events not checked; every other event is
answered. -/
def processEvent (socketId : SocketId) (self : TcpHandler σ) : SuspendMode × Bool → Except Panic (TcpHandler σ)
  | (.Retry request, true) => (self.userSocketEventInner M socketId request).map (·.1)
  | _ => .ok self

/-- `process_events(socket_id)`: the ready events are taken; with a send error
each is answered with it, and otherwise each is processed in turn. -/
def processEvents (self : TcpHandler σ) (socketId : SocketId) : Except Panic (TcpHandler σ) :=
  match self.sockets.lookup socketId with
  | none => .error "Socket has been removed incorrectly"
  | some sd =>
    if sd.eventsReady = [] then .ok self
    else if M.sendError sd.socket then
      .ok { self with
        sockets := self.sockets.insert socketId { sd with socket := M.takeSendError sd.socket, eventsReady := [] } }
    else
      sd.eventsReady.foldlM (processEvent M socketId)
        { self with sockets := self.sockets.insert socketId { sd with eventsReady := [] } }

/-- `user_socket_event(socket_id)`, for the request the socket's subscription
received. -/
def userSocketEvent (self : TcpHandler σ) (socketId : SocketId) (request : Request) :
    Except Panic (TcpHandler σ) :=
  match self.sockets.lookup socketId with
  | none => .error "Socket has been removed incorrectly"
  | some _ => do
    let (self, checkEvents) ← self.userSocketEventInner M socketId request
    if checkEvents then self.processEvents M socketId else pure self

/-- `handle_packet` of a segment from `src` to `dst`: `on_segment` signals
its events to the socket's `SocketData`, which are then processed. -/
def handlePacket (self : TcpHandler σ) (dst src : SocketAddr) (seg : SegmentMeta) : Except Panic (TcpHandler σ) :=
  match self.socketFor ⟨dst, some src⟩ with
  -- the reply to a closed port is not sent yet
  | none => .ok self
  | some socketId =>
    match self.sockets.lookup socketId with
    | none => .error "Socket for SocketId not available"
    | some sd => do
      let segment := M.onSegment src seg sd.socket
      let sd' ← segment.2.foldlM (fun sd e => sd.event e.1 e.2) { sd with socket := segment.1 }
      processEvents M { self with sockets := self.sockets.insert socketId sd' } socketId

end TcpHandler

/-- What reaches the handler: a bind request, a request on a socket's
subscription, or a TCP segment. -/
inductive Event
  | newUserSocket (port : Nat) (rnd : List UInt16) (topic : Nat)
  | userSocketEvent (socketId : SocketId) (request : Request)
  | handlePacket (dst src : SocketAddr) (seg : SegmentMeta)

namespace TcpHandler

variable {σ : Type} (M : TcpMachine σ)

def step (self : TcpHandler σ) : Event → Except Panic (TcpHandler σ)
  | .newUserSocket port rnd topic => .ok (self.newUserSocket M rnd topic port).1
  | .userSocketEvent socketId request => self.userSocketEvent M socketId request
  | .handlePacket dst src seg => self.handlePacket M dst src seg

def run (self : TcpHandler σ) (evs : List Event) : Except Panic (TcpHandler σ) := evs.foldlM (step M) self

/-- Every binding names a live socket. -/
def BindingsLive (self : TcpHandler σ) : Prop :=
  ∀ b id, self.bindings.lookup b = some id → (self.sockets.lookup id).isSome

/-- The panics of a request `todo!` leaves unimplemented. -/
def Unimplemented (e : Panic) : Prop :=
  e = "not yet implemented: GetOption" ∨ e = "not yet implemented: SetOption"

/-! ## The order of `socket_for` -/

variable {M} {self self' : TcpHandler σ}

/-- `socket_for` takes the first of its candidates that is bound. -/
theorem socketFor_eq (self : TcpHandler σ) (binding : Binding) :
    self.socketFor binding = (candidates binding).findSome? self.bindings.lookup := by
  simp only [socketFor, candidates]
  by_cases hr : binding.remote.isSome
  · simp only [hr, ↓reduceIte, List.cons_append, List.nil_append, List.findSome?_cons_eq_or, List.findSome?_nil,
      Option.or_none]
  · simp only [hr, Bool.false_eq_true, ↓reduceIte, List.cons_append, List.nil_append, List.findSome?_cons_eq_or,
      List.findSome?_nil, Option.or_none, Option.none_or]

/-! ## Every binding names a live socket -/

theorem BindingsLive.new : (new : TcpHandler σ).BindingsLive := fun _ _ h => by cases h

/-- Writing a socket keeps every socket there. -/
theorem BindingsLive.insert_socket (hlive : self.BindingsLive) (id : SocketId) (sd : SocketData σ) :
    ({ self with sockets := self.sockets.insert id sd } : TcpHandler σ).BindingsLive := by
  intro b id' hb
  by_cases hid : id' = id
  · subst hid
    simp
  · rw [AList.lookup_insert_ne hid]
    exact hlive b id' hb

/-- A binding to a live socket keeps every binding live. -/
theorem BindingsLive.insert_binding (hlive : self.BindingsLive) (b : Binding) {id : SocketId}
    (hid : (self.sockets.lookup id).isSome) :
    ({ self with bindings := self.bindings.insert b id } : TcpHandler σ).BindingsLive := by
  intro b' id' hb'
  by_cases hb : b' = b
  · subst hb
    rw [AList.lookup_insert] at hb'
    cases hb'
    exact hid
  · rw [AList.lookup_insert_ne hb] at hb'
    exact hlive b' id' hb'

/-- `Remove` drops the socket with every binding to it. -/
theorem BindingsLive.remove (hlive : self.BindingsLive) (id : SocketId) :
    ({ self with sockets := self.sockets.erase id, bindings := self.bindings.filterValues (· ≠ id) } :
      TcpHandler σ).BindingsLive := by
  intro b id' hb
  simp only [AList.lookup_filterValues, Option.filter_eq_some_iff, decide_eq_true_eq] at hb
  rw [AList.lookup_erase_ne hb.2]
  exact hlive b id' hb.1

/-- **What a request does to the tables**: it changes a live socket's record, or
removes the socket and its bindings, or adds an accepted socket with a binding. -/
theorem userSocketEventInner_cases {socketId : SocketId} {request : Request} {b : Bool}
    (h : self.userSocketEventInner M socketId request = .ok (self', b)) :
    ∃ sd, self.sockets.lookup socketId = some sd ∧
      ((∃ sd', self' = { self with sockets := self.sockets.insert socketId sd' }) ∨
       (request = .Remove ∧ self' = { self with
          sockets := self.sockets.erase socketId, bindings := self.bindings.filterValues (· ≠ socketId) }) ∨
       (∃ sd' child addr, self' = { self with
          nextSocketId := self.nextSocketId + 1,
          bindings := self.bindings.insert addr self.nextSocketId,
          sockets := (self.sockets.insert socketId sd').insert self.nextSocketId child })) := by
  unfold userSocketEventInner at h
  split at h
  · cases h
  · rename_i sd hlook
    refine ⟨sd, hlook, ?_⟩
    split at h
    · cases h
      exact .inl ⟨_, rfl⟩
    · split at h
      · cases h
        exact .inr (.inl ⟨rfl, rfl⟩)
      · split at h
        · cases h
          exact .inl ⟨_, rfl⟩
        · cases h
          exact .inr (.inr ⟨_, _, _, rfl⟩)
      · cases h
      · cases h
      · cases h
        exact .inl ⟨_, rfl⟩

theorem userSocketEventInner_live {socketId : SocketId} {request : Request} {b : Bool} (hlive : self.BindingsLive)
    (h : self.userSocketEventInner M socketId request = .ok (self', b)) : self'.BindingsLive := by
  obtain ⟨sd, hlook, ⟨sd', rfl⟩ | ⟨-, rfl⟩ | ⟨sd', child, addr, rfl⟩⟩ := userSocketEventInner_cases h
  · exact hlive.insert_socket _ _
  · exact hlive.remove _
  · -- the accepted socket is written before its binding is read
    have hlive' := (hlive.insert_socket socketId sd').insert_socket self.nextSocketId child
    exact hlive'.insert_binding addr (by simp)

/-- A request other than `Remove` keeps its socket. -/
theorem userSocketEventInner_keeps {socketId : SocketId} {request : Request} {b : Bool} (hr : request ≠ .Remove)
    (h : self.userSocketEventInner M socketId request = .ok (self', b)) : (self'.sockets.lookup socketId).isSome := by
  obtain ⟨sd, hlook, ⟨sd', rfl⟩ | ⟨hrem, -⟩ | ⟨sd', child, addr, rfl⟩⟩ := userSocketEventInner_cases h
  · simp
  · exact absurd hrem hr
  · by_cases hid : socketId = self.nextSocketId
    · rw [hid]
      simp
    · show ((AList.insert _ _ _).lookup socketId).isSome
      rw [AList.lookup_insert_ne hid]
      simp

/-- On a socket that is there, a request fails only at a `todo!`. -/
theorem userSocketEventInner_error {socketId : SocketId} {request : Request} {e : Panic}
    (hsock : (self.sockets.lookup socketId).isSome) (h : self.userSocketEventInner M socketId request = .error e) :
    Unimplemented e := by
  unfold userSocketEventInner at h
  split at h
  · rename_i hnone
    rw [hnone] at hsock
    cases hsock
  · split at h
    · cases h
    · split at h
      · cases h
      · split at h <;> cases h
      · cases h
        exact .inl rfl
      · cases h
        exact .inr rfl
      · cases h

theorem processEvent_live {socketId : SocketId} {e : SuspendMode × Bool} (hlive : self.BindingsLive)
    (h : processEvent M socketId self e = .ok self') : self'.BindingsLive := by
  unfold processEvent at h
  split at h
  · obtain ⟨⟨s, b⟩, hs, rfl⟩ := Except.map_eq_ok.mp h
    exact userSocketEventInner_live hlive hs
  · cases h
    exact hlive

theorem processEvents_live {socketId : SocketId} (hlive : self.BindingsLive)
    (h : self.processEvents M socketId = .ok self') : self'.BindingsLive := by
  unfold processEvents at h
  split at h
  · cases h
  · split_ifs at h
    · cases h
      exact hlive
    · cases h
      exact hlive.insert_socket _ _
    · exact Except.foldlM_invariant (P := BindingsLive) (fun _ _ _ hP h => processEvent_live hP h) _
        (hlive.insert_socket _ _) h

/-! ## The handler's record of each socket

A request waits in `events_suspended` under the cookie of the event its call
waits for, and the event moves it to `events_ready`. The handler suspends a
request only after the call it made, which `Remove` never reaches; and it
suspends every call that waits, so each event a socket signals finds its
request. -/

end TcpHandler

namespace SocketData

variable {σ : Type} {M : TcpMachine σ} {sd : SocketData σ}

/-- Every event the socket waits for is suspended, and no suspended or ready
event retries a `Remove`. -/
structure Sound (M : TcpMachine σ) (sd : SocketData σ) : Prop where
  pending_suspended : ∀ c ∈ M.pending sd.socket, (sd.eventsSuspended.lookup c).isSome
  suspended_not_remove : ∀ c, sd.eventsSuspended.lookup c ≠ some (.Retry .Remove)
  ready_not_remove : ∀ ok, (SuspendMode.Retry .Remove, ok) ∉ sd.eventsReady

theorem Sound.of_pending_nil {st : σ} (h : M.pending st = []) (localPort : Nat) :
    (SocketData.new st localPort).Sound M :=
  ⟨(fun c hc => by simp only [new, h] at hc; cases hc), (fun _ h => by cases h), (fun _ h => by cases h)⟩

/-- A socket whose call waits for nothing new keeps its record sound. -/
theorem Sound.with_socket (hsd : sd.Sound M) {st : σ} (hp : M.pending st = M.pending sd.socket) :
    ({ sd with socket := st } : SocketData σ).Sound M :=
  ⟨fun c hc => hsd.pending_suspended c (hp ▸ hc), hsd.suspended_not_remove, hsd.ready_not_remove⟩

theorem Sound.clear_ready (hsd : sd.Sound M) : ({ sd with eventsReady := [] } : SocketData σ).Sound M :=
  ⟨hsd.pending_suspended, hsd.suspended_not_remove, fun _ h => by cases h⟩

/-- Suspending a request other than `Remove` under its call's cookie keeps the
record sound. -/
theorem Sound.afterCall (hsd : sd.Sound M) {request : Request} (hr : request ≠ .Remove) {st : σ} {o : CallOutcome}
    (hp : M.pending st = o.cookies ++ M.pending sd.socket) :
    (SocketData.afterCall { sd with socket := st } request o).Sound M := by
  -- the suspended entry is a retry of `request` or a continuation
  have hins : ∀ (c : Cookie) (mode : SuspendMode), mode ≠ .Retry .Remove →
      (∀ c' ∈ M.pending st, c' = c ∨ c' ∈ M.pending sd.socket) →
      ({ sd with socket := st, eventsSuspended := sd.eventsSuspended.insert c mode } : SocketData σ).Sound M := by
    intro c mode hmode hpend
    refine ⟨fun c' hc' => ?_, fun c' => ?_, hsd.ready_not_remove⟩
    · by_cases hcc : c' = c
      · subst hcc
        simp
      · rw [AList.lookup_insert_ne hcc]
        exact hsd.pending_suspended c' ((hpend c' hc').resolve_left hcc)
    · by_cases hcc : c' = c
      · subst hcc
        rw [AList.lookup_insert]
        exact fun h => hmode (Option.some.inj h)
      · rw [AList.lookup_insert_ne hcc]
        exact hsd.suspended_not_remove c'
  cases o with
  | reply => exact hsd.with_socket hp
  | retryAfter c =>
    refine hins c _ (fun h => hr (SuspendMode.Retry.inj h)) fun c' hc' => ?_
    rw [hp] at hc'
    simpa [CallOutcome.cookies] using hc'
  | continueAfter c =>
    refine hins c _ (fun h => by cases h) fun c' hc' => ?_
    rw [hp] at hc'
    simpa [CallOutcome.cookies] using hc'

/-- **The events a socket signals** become ready one after the other when each is
suspended and none comes twice; the suspended events left keep their entries. -/
theorem foldlM_event : ∀ (evs : List (Cookie × Bool)) (sd : SocketData σ) (K : List Cookie),
    (evs.map Prod.fst).Nodup → (∀ c ∈ evs.map Prod.fst, (sd.eventsSuspended.lookup c).isSome) →
    (∀ c ∈ K, c ∉ evs.map Prod.fst ∧ (sd.eventsSuspended.lookup c).isSome) →
    (∀ c, sd.eventsSuspended.lookup c ≠ some (.Retry .Remove)) →
    (∀ ok, (SuspendMode.Retry .Remove, ok) ∉ sd.eventsReady) →
    ∃ sd', evs.foldlM (fun sd e => sd.event e.1 e.2) sd = .ok sd' ∧ sd'.socket = sd.socket ∧
      (∀ c ∈ K, (sd'.eventsSuspended.lookup c).isSome) ∧
      (∀ c, sd'.eventsSuspended.lookup c ≠ some (.Retry .Remove)) ∧
      ∀ ok, (SuspendMode.Retry .Remove, ok) ∉ sd'.eventsReady
  | [], sd, _, _, _, hK, hs, hr => ⟨sd, rfl, rfl, fun c hc => (hK c hc).2, hs, hr⟩
  | (c, ok) :: evs, sd, K, hnd, hev, hK, hs, hr => by
    obtain ⟨hc, hnd⟩ := List.nodup_cons.mp hnd
    obtain ⟨mode, hmode⟩ := Option.isSome_iff_exists.mp (hev c List.mem_cons_self)
    have hstep : sd.event c ok = .ok { sd with
        eventsSuspended := sd.eventsSuspended.erase c, eventsReady := sd.eventsReady ++ [(mode, ok)] } := by
      rw [event, hmode]
    -- the other cookies keep their entries once `c` is erased
    have herase : ∀ c', c' ≠ c → (sd.eventsSuspended.erase c).lookup c' = sd.eventsSuspended.lookup c' :=
      fun c' hne => AList.lookup_erase_ne hne
    obtain ⟨sd', hfold, hsock, hK', hs', hr'⟩ := foldlM_event evs { sd with
        eventsSuspended := sd.eventsSuspended.erase c, eventsReady := sd.eventsReady ++ [(mode, ok)] } K hnd
      (fun c' hc' => by
        rw [herase c' fun he => hc (he ▸ hc')]
        exact hev c' (List.mem_cons_of_mem _ hc'))
      (fun c' hc' => by
        obtain ⟨hnot, hsome⟩ := hK c' hc'
        refine ⟨fun h => hnot (List.mem_cons_of_mem _ h), ?_⟩
        rw [herase c' fun he => hnot (he ▸ List.mem_cons_self)]
        exact hsome)
      (fun c' => by
        by_cases hcc : c' = c
        · subst hcc
          rw [AList.lookup_erase]
          exact fun h => by cases h
        · rw [herase c' hcc]
          exact hs c')
      (fun ok' h => by
        rcases List.mem_append.mp h with h | h
        · exact hr ok' h
        · -- the new ready event is the suspended mode of `c`
          obtain ⟨rfl, -⟩ := Prod.mk.inj (List.mem_singleton.mp h)
          exact hs c hmode)
    refine ⟨sd', ?_, hsock, hK', hs', hr'⟩
    rw [List.foldlM_cons, hstep, Except.ok_bind]
    exact hfold

end SocketData

namespace TcpHandler

variable {σ : Type} {M : TcpMachine σ} {self self' : TcpHandler σ}

/-- Every socket's record is sound. -/
def SocketsSound (M : TcpMachine σ) (self : TcpHandler σ) : Prop :=
  ∀ id sd, self.sockets.lookup id = some sd → sd.Sound M

theorem SocketsSound.new : (new : TcpHandler σ).SocketsSound M := fun _ _ h => by cases h

theorem SocketsSound.insert (hs : self.SocketsSound M) (id : SocketId) {sd : SocketData σ} (hsd : sd.Sound M) :
    ({ self with sockets := self.sockets.insert id sd } : TcpHandler σ).SocketsSound M := by
  intro id' sd' h
  by_cases hid : id' = id
  · subst hid
    rw [AList.lookup_insert] at h
    cases h
    exact hsd
  · rw [AList.lookup_insert_ne hid] at h
    exact hs id' sd' h

/-- `Remove` drops a socket with its record. -/
theorem SocketsSound.remove (hs : self.SocketsSound M) (id : SocketId) (keep : SocketId → Bool) :
    ({ self with sockets := self.sockets.erase id, bindings := self.bindings.filterValues keep } :
      TcpHandler σ).SocketsSound M := by
  intro id' sd' h
  by_cases hid : id' = id
  · subst hid
    rw [AList.lookup_erase] at h
    cases h
  · rw [AList.lookup_erase_ne hid] at h
    exact hs id' sd' h

theorem newUserSocket_sound (hs : self.SocketsSound M) (rnd : List UInt16) (topic port : Nat) :
    (self.newUserSocket M rnd topic port).1.SocketsSound M := by
  simp only [newUserSocket]
  split
  · exact hs
  · exact hs.insert _ (SocketData.Sound.of_pending_nil M.pending_new _)

theorem userSocketEventInner_sound {socketId : SocketId} {request : Request} {b : Bool} (hs : self.SocketsSound M)
    (h : self.userSocketEventInner M socketId request = .ok (self', b)) : self'.SocketsSound M := by
  unfold userSocketEventInner at h
  split at h
  · cases h
  · rename_i sd hlook
    have hsd := hs socketId sd hlook
    split at h
    · cases h
      exact hs.insert _ (hsd.with_socket (M.pending_takeSendError _))
    · split at h
      · cases h
        exact hs.remove _ _
      · split at h
        · rename_i st outcome hacc
          cases h
          have hp := M.pending_callAccept sd.socket
          rw [hacc] at hp
          exact hs.insert _ (hsd.afterCall (fun h => by cases h) hp)
        · rename_i st addr child hacc
          cases h
          have hp := M.pending_callAccept sd.socket
          rw [hacc] at hp
          exact (hs.insert _ (hsd.with_socket hp)).insert _
            (SocketData.Sound.of_pending_nil (M.pending_accepted sd.socket addr child (by rw [hacc])) _)
      · cases h
      · cases h
      · rename_i hrem _ _ _
        cases h
        exact hs.insert _ (hsd.afterCall hrem (M.pending_call _ sd.socket))

theorem processEvent_sound {socketId : SocketId} {e : SuspendMode × Bool} (hs : self.SocketsSound M)
    (h : processEvent M socketId self e = .ok self') : self'.SocketsSound M := by
  unfold processEvent at h
  split at h
  · obtain ⟨⟨s, b⟩, hs', rfl⟩ := Except.map_eq_ok.mp h
    exact userSocketEventInner_sound hs hs'
  · cases h
    exact hs

theorem processEvents_sound {socketId : SocketId} (hs : self.SocketsSound M)
    (h : self.processEvents M socketId = .ok self') : self'.SocketsSound M := by
  unfold processEvents at h
  split at h
  · cases h
  · rename_i sd hlook
    have hsd := hs socketId sd hlook
    split_ifs at h
    · cases h
      exact hs
    · cases h
      exact hs.insert _ ((hsd.with_socket (M.pending_takeSendError _)).clear_ready)
    · exact Except.foldlM_invariant (P := SocketsSound M) (fun _ _ _ hP h => processEvent_sound hP h) _
        (hs.insert _ hsd.clear_ready) h

/-- The ready events of a sound record are processed failing only at a `todo!`:
none retries a `Remove`, so the socket stays through them. -/
theorem processEvents_error {socketId : SocketId} {e : Panic} (hs : self.SocketsSound M)
    (hsock : (self.sockets.lookup socketId).isSome) (h : self.processEvents M socketId = .error e) :
    Unimplemented e := by
  unfold processEvents at h
  split at h
  · rename_i hnone
    rw [hnone] at hsock
    cases hsock
  · rename_i sd hlook
    have hsd := hs socketId sd hlook
    split_ifs at h
    refine Except.foldlM_error (P := fun s : TcpHandler σ => (s.sockets.lookup socketId).isSome) _
      (fun s ev s' hev hs' h => ?_) (fun s ev e hev hs' h => ?_) (by simp) h
    · unfold processEvent at h
      split at h
      · rename_i request
        obtain ⟨⟨t, b⟩, hinner, rfl⟩ := Except.map_eq_ok.mp h
        exact userSocketEventInner_keeps (fun he => hsd.ready_not_remove true (he ▸ hev)) hinner
      · cases h
        exact hs'
    · unfold processEvent at h
      split at h
      · exact userSocketEventInner_error hs' (Except.map_eq_error.mp h)
      · cases h

theorem newUserSocket_live (hlive : self.BindingsLive) (rnd : List UInt16) (topic port : Nat) :
    (self.newUserSocket M rnd topic port).1.BindingsLive := by
  simp only [newUserSocket]
  split
  · exact hlive
  · rename_i localPort _
    exact (hlive.insert_socket self.nextSocketId (.new M.new localPort)).insert_binding (.matchAny localPort) (by simp)

/-- What `handle_packet` does on a live socket with a sound record: the events the
segment signals all find their requests. -/
theorem handlePacket_events {sd : SocketData σ} (hsd : sd.Sound M) (src : SocketAddr)
    (seg : SegmentMeta) :
    ∃ sd', (M.onSegment src seg sd.socket).2.foldlM (fun sd e => sd.event e.1 e.2)
      { sd with socket := (M.onSegment src seg sd.socket).1 } = .ok sd' ∧ sd'.Sound M := by
  obtain ⟨hnd, hsub⟩ := M.signals_pending src seg sd.socket
  have hpend := M.pending_onSegment src seg sd.socket
  obtain ⟨sd', hfold, hsock, hK, hs', hr'⟩ := SocketData.foldlM_event _ { sd with socket := (M.onSegment src seg sd.socket).1 }
    (M.pending (M.onSegment src seg sd.socket).1) hnd
    (fun c hc => hsd.pending_suspended c (hsub c hc))
    (fun c hc => by
      rw [hpend, List.mem_filter] at hc
      exact ⟨of_decide_eq_true hc.2, hsd.pending_suspended c hc.1⟩)
    hsd.suspended_not_remove hsd.ready_not_remove
  refine ⟨sd', hfold, ⟨?_, hs', hr'⟩⟩
  rw [hsock]
  exact hK

theorem step_inv {ev : Event} (hinv : self.BindingsLive ∧ self.SocketsSound M) (h : self.step M ev = .ok self') :
    self'.BindingsLive ∧ self'.SocketsSound M := by
  obtain ⟨hlive, hs⟩ := hinv
  cases ev with
  | newUserSocket port rnd topic =>
    simp only [step, Except.ok.injEq] at h
    exact h ▸ ⟨newUserSocket_live hlive rnd topic port, newUserSocket_sound hs rnd topic port⟩
  | userSocketEvent socketId request =>
    simp only [step, userSocketEvent] at h
    split at h
    · cases h
    · obtain ⟨⟨s, check⟩, hs₁, h⟩ := Except.bind_eq_ok.mp h
      have hlive₁ := userSocketEventInner_live hlive hs₁
      have hsound₁ := userSocketEventInner_sound hs hs₁
      cases check
      · cases h
        exact ⟨hlive₁, hsound₁⟩
      · exact ⟨processEvents_live hlive₁ h, processEvents_sound hsound₁ h⟩
  | handlePacket dst src seg =>
    simp only [step, handlePacket] at h
    split at h
    · cases h
      exact ⟨hlive, hs⟩
    · rename_i socketId _
      split at h
      · cases h
      · rename_i sd hlook
        obtain ⟨sd', hfold, hsd'⟩ := handlePacket_events (hs socketId sd hlook) src seg
        rw [hfold, Except.ok_bind] at h
        exact ⟨processEvents_live (hlive.insert_socket _ _) h, processEvents_sound (hs.insert _ hsd') h⟩

/-- **No `expect` on a socket fires**: from a state where every binding is live
and every record sound, a packet's socket is there, each event it signals finds
its request, and its events fail only at a `todo!`. -/
theorem handlePacket_error (hlive : self.BindingsLive) (hs : self.SocketsSound M) {dst src : SocketAddr}
    {seg : SegmentMeta} {e : Panic} (h : self.handlePacket M dst src seg = .error e) : Unimplemented e := by
  unfold handlePacket at h
  split at h
  · cases h
  · rename_i socketId hfor
    split at h
    · -- `socket_for` found a binding, and it is live
      rename_i hnone
      obtain ⟨b, hb⟩ : ∃ b, self.bindings.lookup b = some socketId := by
        rw [socketFor_eq] at hfor
        obtain ⟨b, -, hb⟩ := List.exists_of_findSome?_eq_some hfor
        exact ⟨b, hb⟩
      have := hlive b socketId hb
      rw [hnone] at this
      cases this
    · rename_i sd hlook
      obtain ⟨sd', hfold, hsd'⟩ := handlePacket_events (hs socketId sd hlook) src seg
      dsimp only at h
      rw [hfold, Except.ok_bind] at h
      exact processEvents_error (hs.insert _ hsd') (by simp) h

end TcpHandler

/-- **The binding table of netd.** Over every run from `TcpHandler::new`, every
binding names a live socket, and a packet's socket is always found, so its
`expect` does not fire. `socket_for` takes the first bound of its candidates:
the exact binding, then without the remote, then with any local address. But
`new_user_socket` with an explicit port binds it whatever holds it: it answers
`Ok`, and a second socket on a port leaves the first one with no binding. -/
theorem tcp_bind_orphans_listener {σ : Type} (M : TcpMachine σ) :
    (∀ evs (h : TcpHandler σ), TcpHandler.new.run M evs = .ok h →
      h.BindingsLive ∧ ∀ dst src seg e, h.handlePacket M dst src seg = .error e → TcpHandler.Unimplemented e) ∧
    (∀ (h : TcpHandler σ) binding, h.socketFor binding = (TcpHandler.candidates binding).findSome? h.bindings.lookup) ∧
    (∀ (h : TcpHandler σ) rnd topic port, port ≠ 0 →
      (h.newUserSocket M rnd topic port).2 = .ok ("netd/tcp/socket/" ++ toString topic) ∧
        (h.newUserSocket M rnd topic port).1.bindings.lookup (.matchAny port) = some h.nextSocketId) ∧
    (∃ h : TcpHandler σ, TcpHandler.new.run M [.newUserSocket 80 [] 1, .newUserSocket 80 [] 2] = .ok h ∧
      (h.sockets.lookup 0).isSome ∧ ∀ b, h.bindings.lookup b ≠ some 0) := by
  refine ⟨fun evs h hrun => ?_, TcpHandler.socketFor_eq, fun h rnd topic port hport => ?_, ?_⟩
  · -- the run keeps both the bindings live and every socket's record sound
    obtain ⟨hlive, hs⟩ : h.BindingsLive ∧ h.SocketsSound M :=
      Except.foldlM_invariant (P := fun h : TcpHandler σ => h.BindingsLive ∧ h.SocketsSound M)
        (fun _ _ _ hP h => TcpHandler.step_inv hP h) evs ⟨TcpHandler.BindingsLive.new, TcpHandler.SocketsSound.new⟩ hrun
    exact ⟨hlive, fun dst src seg e he => TcpHandler.handlePacket_error hlive hs he⟩
  · simp only [TcpHandler.newUserSocket, if_pos hport, AList.lookup_insert, and_self]
  · refine ⟨_, rfl, rfl, fun b hb => ?_⟩
    -- the only binding is the second socket's
    simp only [TcpHandler.newUserSocket, Nat.succ_ne_zero, ne_eq, not_false_eq_true, if_pos] at hb
    by_cases hbind : b = .matchAny 80
    · subst hbind
      rw [AList.lookup_insert] at hb
      cases hb
    · rw [AList.lookup_insert_ne hbind, AList.lookup_insert_ne hbind] at hb
      cases hb

end D7os.Netd

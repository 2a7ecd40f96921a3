/-
# The session task

`Session` (`pathvector-session/src/transport/mod.rs`): the task that drives one state machine. It
waits for the next thing to happen (`wait_for_input`), feeds the state machine and carries out
what it asks for (`execute`), then looks at a second connection the peer may have opened
(`try_resolve_pending_candidate`). A `Phase` says where in this loop the task stands.

Whatever becomes ready while the task waits, and how each write to a connection ends, is chosen
from outside. The source polls its sources in a fixed order; here any of them may come first.
Time is in seconds. Connections are numbers. Three histories are kept that the source does not
have: the messages written, the batches of outputs, and for each UPDATE that is forwarded the
session it was queued in. Codec options and log lines are left out, and so is the case that nobody
reads the event channel any more.
-/
import Pathvector.Session.Event
import Pathvector.Session.Fsm

set_option autoImplicit false

namespace Pathvector

/-! ## Connections -/

inductive ConnectionOrigin where
  | Outbound
  | Inbound
  deriving DecidableEq, Repr

/-- A transport. -/
structure Connection where
  id : ℕ
  origin : ConnectionOrigin
  deriving DecidableEq, Repr

/-- `TcpStream`: either address may be unreadable. -/
structure TcpStream where
  id : ℕ
  local_addr : Option IpAddr
  peer_addr : Option IpAddr
  deriving DecidableEq

structure ConnectionIdentity where
  local_ip : IpAddr
  peer_ip : IpAddr
  origin : ConnectionOrigin
  deriving DecidableEq

/-- `ConnectionIdentity::is_reversed_pair_with`. -/
def ConnectionIdentity.is_reversed_pair_with (a b : ConnectionIdentity) : Bool :=
  a.local_ip == b.local_ip && a.peer_ip == b.peer_ip && a.origin != b.origin

def connection_identity (stream : TcpStream) (origin : ConnectionOrigin) :
    Option ConnectionIdentity :=
  match stream.local_addr, stream.peer_addr with
  | some local_ip, some peer_ip => some ⟨local_ip, peer_ip, origin⟩
  | _, _ => none

/-- The transport made of a stream. -/
def TcpStream.connection (stream : TcpStream) (origin : ConnectionOrigin) : Connection :=
  ⟨stream.id, origin⟩

inductive CollisionPurpose where
  | Collision
  | GracefulRestart
  deriving DecidableEq, Repr

structure CollisionCandidate where
  transport : Connection
  identity : ConnectionIdentity
  open_msg : Option OpenMessage
  purpose : CollisionPurpose
  deriving DecidableEq

/-! ## Received messages -/

/-- `CodecError`; `Other` stands for those that are not answered. -/
inductive CodecError where
  | InvalidMarker
  | InvalidLength (len : UInt16)
  | UnknownMessageType (t : UInt8)
  | UnsupportedOptionalParameter (param_type : UInt8)
  | Other
  deriving DecidableEq

inductive FramingError where
  | Io
  | Codec (e : CodecError)
  deriving DecidableEq

/-- What `recv` returns; `closed` is the end of the stream. -/
inductive Received where
  | message (msg : BgpMessage)
  | failed (e : FramingError)
  | closed
  deriving DecidableEq

def header_error_notification : FramingError → Option NotificationMessage
  | .Io => none
  | .Codec .InvalidMarker => some ⟨.MessageHeader .ConnectionNotSynchronized, []⟩
  | .Codec (.InvalidLength len) => some ⟨.MessageHeader .BadMessageLength, be_bytes 2 len.toNat⟩
  | .Codec (.UnknownMessageType t) => some ⟨.MessageHeader .BadMessageType, [t]⟩
  | .Codec (.UnsupportedOptionalParameter _) =>
    some ⟨.OpenMessage .UnsupportedOptionalParameter, []⟩
  | .Codec .Other => none

def ATTR_MP_UNREACH_NLRI : UInt8 := 15

/-- The attribute announces something. -/
def PathAttribute.announces : PathAttribute → Bool
  | .MpReachNlri mp => !mp.prefixes.isEmpty
  | _ => false

def PathAttribute.is_mp_unreach : PathAttribute → Bool
  | .MpUnreachNlri _ => true
  | _ => false

def is_nlri_less_with_attributes (update : UpdateMessage) (errors : List AttributeDecodeError) :
    Bool :=
  if !update.announced.isEmpty || update.attributes.any PathAttribute.announces then false
  else update.attributes.any (fun a => !a.is_mp_unreach)
    || errors.any fun e => e.type_code != ATTR_MP_UNREACH_NLRI

/-- The withdrawal of what an attribute announces. -/
def PathAttribute.unreach? : PathAttribute → Option PathAttribute
  | .MpReachNlri mp => some (.MpUnreachNlri ⟨mp.afi_safi, mp.prefixes⟩)
  | _ => none

def make_treat_as_withdraw (update : UpdateMessage) : UpdateMessage where
  withdrawn := update.withdrawn ++ update.announced
  attributes := update.attributes.filterMap PathAttribute.unreach?
  announced := []

def AttributeDecodeError.reset? (e : AttributeDecodeError) : Option NotificationMessage :=
  match e.policy with
  | .SessionReset error data => some ⟨error, data⟩
  | _ => none

/-! ## The task -/

/-- `SessionConfig`, without the address to dial. -/
structure SessionConfig where
  local_as : UInt32
  local_bgp_id : Ipv4Addr
  hold_time : UInt16
  connect_retry_time : ℕ
  capabilities : List Capability
  required_capabilities : List Capability
  peer_as : Option UInt32
  confederation_member : Bool
  public_as : UInt32

def SessionConfig.fsm_config (config : SessionConfig) : FsmConfig where
  local_as := config.local_as
  public_as := config.public_as
  local_bgp_id := config.local_bgp_id
  hold_time := config.hold_time
  capabilities := config.capabilities
  required_capabilities := config.required_capabilities
  peer_as := config.peer_as
  confederation_member := config.confederation_member

def COLLISION_CANDIDATE_OPEN_TIMEOUT : ℕ := 240

inductive SessionCommand where
  | Start
  | Stop
  | Notification (msg : NotificationMessage)
  | IncomingConnection (stream : TcpStream)
  | RouteRefresh (rr : RouteRefreshMessage)
  | SetCapabilities (caps : List Capability)
  deriving DecidableEq

/-- Where in its loop the task stands. -/
inductive Phase where
  | Waiting
  | Handling (input : FsmInput)
  | Resolving
  deriving DecidableEq

/-- An UPDATE in the queue, and the session that was open when it was put there. -/
structure Queued where
  update : UpdateMessage
  session : Option ℕ
  deriving DecidableEq

/-- An UPDATE taken from the queue and written: on which connection and in which state, and the
sessions open when it was queued and when it was written. -/
structure Write where
  connection : Connection
  state : FsmState
  queued : Option ℕ
  current : Option ℕ
  deriving DecidableEq

/-- One input of the state machine: the states around it, the outputs it asked for and those
that were carried out. -/
structure Batch where
  before : FsmState
  after : FsmState
  outputs : List FsmOutput
  executed : List FsmOutput
  deriving DecidableEq

structure Session where
  config : SessionConfig
  fsm : Fsm
  hold_deadline : Option ℕ
  keepalive_deadline : Option ℕ
  retry_deadline : Option ℕ
  transport : Option Connection
  pending_transport : Option Connection
  pending_input : Option FsmInput
  connect_task : Bool
  connect_factory : Bool
  local_addr : Option IpAddr
  transport_identity : Option ConnectionIdentity
  pending_collision_candidate : Option CollisionCandidate
  pending_collision_deadline : Option ℕ
  update_rx : List Queued
  termination_reason : TerminationReason
  phase : Phase
  /-- How the next writes end; those after the last of these succeed. -/
  outcomes : List Bool
  /-- What was put on the event channel. -/
  events : List SessionEvent
  /-- What was written successfully. -/
  sent : List (Connection × BgpMessage)
  batches : List Batch
  writes : List Write

namespace Session

def spawn (config : SessionConfig) : Session where
  config := config
  fsm := Fsm.new config.fsm_config
  hold_deadline := none
  keepalive_deadline := none
  retry_deadline := none
  transport := none
  pending_transport := none
  pending_input := none
  connect_task := false
  connect_factory := true
  local_addr := none
  transport_identity := none
  pending_collision_candidate := none
  pending_collision_deadline := none
  update_rx := []
  termination_reason := .Unclean
  phase := .Waiting
  outcomes := []
  events := []
  sent := []
  batches := []
  writes := []

def spawn_with (config : SessionConfig) (transport : Connection) : Session :=
  { spawn config with pending_transport := some transport, connect_factory := false }

/-- A task that has just been started. -/
def Initial (s : Session) : Prop :=
  ∃ config, s = spawn config ∨ ∃ transport, s = spawn_with config transport

def drop_connection (s : Session) : Session :=
  { s with transport := none, transport_identity := none, connect_task := false }

/-- The outcome of the next write. -/
def next_outcome (s : Session) : Bool := s.outcomes.headD true

/-- `BgpTransport::send`. -/
def send (s : Session) (c : Connection) (msg : BgpMessage) : Session × Bool :=
  if s.next_outcome then
    ({ s with outcomes := s.outcomes.tail, sent := s.sent ++ [(c, msg)] }, true)
  else ({ s with outcomes := s.outcomes.tail }, false)

/-- `wait_for_input` returns. -/
def returning (s : Session) (input : FsmInput) : Session := { s with phase := .Handling input }

/-- `SessionEvent` for the event channel. -/
def emit (s : Session) (e : SessionEvent) : Session := { s with events := s.events ++ [e] }

/-! ### Outputs -/

/-- One output of `execute`; `false` if a write failed. -/
def perform (s : Session) (now : ℕ) : FsmOutput → Session × Bool
  | .InitiateTcpConnect =>
    match s.pending_transport with
    | some t =>
      ({ s with pending_transport := none, transport := some t,
                pending_input := some .TcpConnected }, true)
    | none =>
      if s.connect_factory then ({ s with connect_task := true }, true)
      else ({ s with pending_input := some .TcpFailed }, true)
  | .CloseTcpConnection => (s.drop_connection, true)
  | .SendMessage msg =>
    match s.transport with
    | none => (s, true)
    | some c =>
      let r := s.send c msg
      if r.2 then (r.1, true) else (r.1.drop_connection, false)
  | .StartHoldTimer d => ({ s with hold_deadline := some (now + d) }, true)
  | .StopHoldTimer => ({ s with hold_deadline := none }, true)
  | .StartKeepaliveTimer d => ({ s with keepalive_deadline := some (now + d) }, true)
  | .StopKeepaliveTimer => ({ s with keepalive_deadline := none }, true)
  -- the interval the state machine asks for is not the one used
  | .StartConnectRetryTimer _ =>
    ({ s with retry_deadline := some (now + s.config.connect_retry_time) }, true)
  | .StopConnectRetryTimer => ({ s with retry_deadline := none }, true)
  | .SessionEstablished info =>
    (s.emit (.Established ⟨info.peer_bgp_id, info.peer_type, info.peer_capabilities,
      s.local_addr⟩), true)
  | .SessionTerminated => (s.emit (.Terminated s.termination_reason), true)
  | .RouteUpdate update => (s.emit (.RouteUpdate update), true)

/-- `execute`: the rest of the outputs is abandoned at the first write that fails. Returned
are also the outputs carried out. -/
def execute (now : ℕ) : Session → List FsmOutput → Session × List FsmOutput × Bool
  | s, [] => (s, [], true)
  | s, o :: os =>
    let r := s.perform now o
    if r.2 then
      let rest := execute now r.1 os
      (rest.1, o :: rest.2.1, rest.2.2)
    else (r.1, [], false)

/-- `fsm.process` followed by `execute`. -/
def process (s : Session) (now : ℕ) (input : FsmInput) : Session × Bool :=
  let p := s.fsm.process input
  let r := execute now { s with fsm := p.1 } p.2
  ({ r.1 with batches := r.1.batches ++ [⟨s.fsm.state, p.1.state, p.2, r.2.1⟩] }, r.2.2)

/-! ### The loop body after an input -/

/-- Why the session ends, if it does now. -/
def reason_for : FsmInput → TerminationReason
  | .MessageReceived (.Notification n) => .Notification n
  | .ManualStop | .NotificationToSend _ | .ProtocolErrorNotificationToSend _ => .OperatorStop
  | _ => .Unclean

/-- A deliberate stop, after which no connection is wanted. -/
def is_administrative : FsmInput → Bool
  | .ManualStop | .NotificationToSend _ => true
  | _ => false

def drop_candidate (s : Session) : Session :=
  { s with pending_collision_candidate := none, pending_collision_deadline := none }

/-- What `run` notes before the state machine sees the input. -/
def prepare (s : Session) (input : FsmInput) : Session :=
  let s := if s.fsm.is_established then { s with termination_reason := reason_for input } else s
  if is_administrative input && s.pending_collision_candidate.isSome then s.drop_candidate else s

/-- `run`, for one input, up to `try_resolve_pending_candidate`. -/
def handle (s : Session) (now : ℕ) (input : FsmInput) : Session :=
  let r := (s.prepare input).process now input
  let s := if r.2 then r.1 else (r.1.process now .TcpFailed).1
  { s with phase := .Resolving }

/-! ### A second connection -/

section

variable (s : Session) (now : ℕ) (candidate : CollisionCandidate)

/-- Whether a candidate that has sent its OPEN replaces the connection; `none` if that cannot be
told yet. -/
def decide_candidate (purpose : CollisionPurpose) (open_msg : OpenMessage) : Option Bool :=
  match s.fsm.state, purpose with
  | .OpenSent, .Collision => none
  | .OpenConfirm, .Collision =>
    s.fsm.peer_bgp_id.map fun existing_id =>
      existing_id == open_msg.bgp_id && (s.config.local_bgp_id.cmp open_msg.bgp_id == .lt)
  | .Established, .GracefulRestart =>
    some (s.fsm.peer_has_graceful_restart && s.fsm.peer_bgp_id == some open_msg.bgp_id)
  | .Idle, _ | .Connect, _ | .Active, _ => some true
  | _, _ => some false

/-- The connection that is replaced is given up. -/
def displace : Session :=
  match s.fsm.state with
  | .OpenConfirm => (s.process now .CollisionDetected).1
  | .Established => (({ s with termination_reason := .Unclean }).process now .CollisionDetected).1
  | _ => s

/-- The candidate becomes the connection. -/
def install : Session :=
  { s with
    transport := some candidate.transport
    transport_identity := some candidate.identity
    local_addr := some candidate.identity.local_ip }

/-- The second half of `try_resolve_pending_candidate`; how the writes ended is not looked at. -/
def adopt (open_msg : OpenMessage) : Session :=
  let s := (s.displace now).install candidate
  let s := (s.process now .TcpConnected).1
  (s.process now (.MessageReceived (.Open open_msg))).1

/-- The candidate that is adopted in the present state, with its OPEN. -/
def adopted : Option (CollisionCandidate × OpenMessage) :=
  match s.pending_collision_candidate with
  | none => none
  | some candidate =>
    match candidate.open_msg with
    | none => none
    | some open_msg =>
      if s.decide_candidate candidate.purpose open_msg = some true then some (candidate, open_msg)
      else none

def try_resolve_pending_candidate : Session :=
  match s.pending_collision_candidate with
  | none => s
  | some candidate =>
    match candidate.open_msg with
    | none => s
    | some open_msg =>
      match s.decide_candidate candidate.purpose open_msg with
      | none => s
      | some false => { s with pending_collision_candidate := none }
      | some true =>
        ({ s with pending_collision_candidate := none }).adopt now candidate open_msg

def stage_collision_candidate (stream : TcpStream) (purpose : CollisionPurpose) : Session :=
  match connection_identity stream .Inbound with
  | none => s
  | some identity =>
    if s.connect_factory then
      { s with
        pending_collision_candidate := some ⟨stream.connection .Inbound, identity, none, purpose⟩
        pending_collision_deadline := some (now + COLLISION_CANDIDATE_OPEN_TIMEOUT) }
    else s

/-- An incoming connection is taken at once. Without `connect_factory` only its addresses are. -/
def accept (stream : TcpStream) : Session :=
  ({ s with
    local_addr := stream.local_addr
    transport_identity := connection_identity stream .Inbound
    transport := if s.connect_factory then some (stream.connection .Inbound)
      else s.transport }).returning .TcpConnected

def handle_incoming_connection (stream : TcpStream) : Session :=
  if s.pending_collision_candidate.isSome then s
  else match s.fsm.state with
    | .Idle | .Connect | .Active => s.accept stream
    | .OpenSent | .OpenConfirm => s.stage_collision_candidate now stream .Collision
    | .Established =>
      if s.fsm.peer_has_graceful_restart then
        s.stage_collision_candidate now stream .GracefulRestart
      else s

/-- A candidate of purpose `Collision` must run the other way between the same addresses. -/
def is_genuine : Bool :=
  candidate.purpose != .Collision
    || s.transport_identity.any fun e => e.is_reversed_pair_with candidate.identity

/-- `handle_collision_candidate_message`, up to `try_resolve_pending_candidate`. -/
def handle_collision_candidate_message (msg : Received) : Session :=
  let s := s.drop_candidate
  match msg with
  | .message (.Open open_msg) =>
    match s.fsm.validate_open open_msg with
    | .error (error, data) => (s.send candidate.transport (.Notification ⟨error, data⟩)).1
    | .ok _ =>
      if s.is_genuine candidate then
        { s with
          pending_collision_candidate := some { candidate with open_msg := some open_msg }
          phase := .Resolving }
      else s
  | _ => s

end

/-! ### Waiting -/

/-- `handle_malformed_update` (RFC 7606). -/
def handle_malformed_update (s : Session) (m : MalformedUpdate) : Session :=
  if m.session_reset then
    s.returning (.ProtocolErrorNotificationToSend
      ((m.errors.findSome? AttributeDecodeError.reset?).getD
        ⟨.UpdateMessage .MalformedAttributeList, []⟩))
  else if m.treat_as_withdraw && is_nlri_less_with_attributes m.update m.errors then
    s.returning (.ProtocolErrorNotificationToSend ⟨.UpdateMessage .MalformedAttributeList, []⟩)
  else
    s.emit (.RouteUpdate (if m.treat_as_withdraw then make_treat_as_withdraw m.update
      else m.update))

/-- The connection is gone. -/
def lose_connection (s : Session) : Session := s.drop_connection.returning .TcpFailed

/-- A message written while waiting; if that fails the connection is gone. -/
def write (s : Session) (c : Connection) (msg : BgpMessage) : Session :=
  let r := s.send c msg
  if r.2 then r.1 else r.1.lose_connection

def handle_primary_message (s : Session) (c : Connection) : Received → Session
  | .message (.MalformedUpdate m) => s.handle_malformed_update m
  | .message m => s.returning (.MessageReceived m)
  | .failed e =>
    match header_error_notification e with
    | some notif => (s.send c (.Notification notif)).1.lose_connection
    | none => s.lose_connection
  | .closed => s.lose_connection

/-- A command, or the end of the command channel. -/
def on_command (s : Session) (now : ℕ) : Option SessionCommand → Session
  | some .Start => s.returning .ManualStart
  | some .Stop | none => s.returning .ManualStop
  | some (.Notification msg) => s.returning (.NotificationToSend msg)
  | some (.IncomingConnection stream) => s.handle_incoming_connection now stream
  | some (.RouteRefresh rr) =>
    match s.transport with
    | some c => s.write c (.RouteRefresh rr)
    | none => s
  | some (.SetCapabilities caps) =>
    if s.fsm.is_established then s else { s with fsm := s.fsm.set_capabilities caps }

/-- The result of the connect task; the connection there may be is overwritten. -/
def on_connected (s : Session) : Option TcpStream → Session
  | some stream =>
    ({ s with
      connect_task := false
      local_addr := stream.local_addr
      transport_identity := connection_identity stream .Outbound
      transport := some (stream.connection .Outbound) }).returning .TcpConnected
  | none => ({ s with connect_task := false }).returning .TcpFailed

/-- An UPDATE of the queue. Without a connection it is discarded. -/
def forward (s : Session) (u : Queued) : Session :=
  match s.transport with
  | none => s
  | some c =>
    let w : Write := ⟨c, s.fsm.state, u.session, open_session s.events⟩
    ({ s with writes := s.writes ++ [w] }).write c (.Update u.update)

/-- What the task may find ready. -/
inductive Ready where
  | command (c : Option SessionCommand)
  | connected (result : Option TcpStream)
  | message (msg : Received)
  | candidate_message (msg : Received)
  | collision_deadline
  | hold
  | keepalive
  | retry
  | update
  deriving DecidableEq

def due (deadline : Option ℕ) (now : ℕ) : Bool := deadline.any (· ≤ now)

/-- `wait_for_input`, one round; a source that cannot be ready does nothing. -/
def wait_for_input (s : Session) (now : ℕ) (ready : Ready) : Session :=
  match s.pending_input with
  | some input => ({ s with pending_input := none }).returning input
  | none =>
    match ready with
    | .command c => s.on_command now c
    | .connected result => if s.connect_task then s.on_connected result else s
    | .message msg =>
      match s.transport with
      | some c => s.handle_primary_message c msg
      | none => s
    | .candidate_message msg =>
      match s.pending_collision_candidate with
      | some candidate =>
        if candidate.open_msg.isNone then s.handle_collision_candidate_message candidate msg
        else s
      | none => s
    | .collision_deadline =>
      if due s.pending_collision_deadline now then s.drop_candidate else s
    | .hold =>
      if due s.hold_deadline now then
        ({ s with hold_deadline := none }).returning .HoldTimerExpired
      else s
    | .keepalive =>
      if due s.keepalive_deadline now then
        ({ s with keepalive_deadline := none }).returning .KeepaliveTimerExpired
      else s
    | .retry =>
      if due s.retry_deadline now then
        ({ s with retry_deadline := none }).returning .ConnectRetryTimerExpired
      else s
    | .update =>
      match s.update_rx with
      | [] => s
      | u :: rest => ({ s with update_rx := rest }).forward u

/-! ### Runs -/

/-- What may happen next: the daemon queues an UPDATE, or the task goes on. -/
inductive Step where
  | enqueue (update : UpdateMessage)
  | task (now : ℕ) (outcomes : List Bool) (ready : Ready)
  deriving DecidableEq

/-- The task goes on from where it stands. -/
def advance (s : Session) (now : ℕ) (ready : Ready) : Session :=
  match s.phase with
  | .Waiting => s.wait_for_input now ready
  | .Handling input => s.handle now input
  | .Resolving => { s.try_resolve_pending_candidate now with phase := .Waiting }

def step (s : Session) : Step → Session
  | .enqueue update => { s with update_rx := s.update_rx ++ [⟨update, open_session s.events⟩] }
  | .task now outcomes ready => ({ s with outcomes := outcomes }).advance now ready

def run (s : Session) (steps : List Step) : Session := steps.foldl step s

end Session

end Pathvector

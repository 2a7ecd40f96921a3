/-
# The session state machine

`Fsm` (`pathvector-session/src/fsm/mod.rs`), a pure machine: it is fed inputs and returns the
outputs the session task has to carry out, in order. The messages it looks into are those of
`message/mod.rs`, decoded.

Durations are in seconds. The reason strings of decoding errors are only logged and left out.
-/
import Pathvector.Session.Message
import Pathvector.Session.Update

set_option autoImplicit false

namespace Pathvector

/-! ## Messages -/

structure OpenMessage where
  version : UInt8
  my_as : UInt16
  hold_time : UInt16
  bgp_id : Ipv4Addr
  capabilities : List Capability
  deriving DecidableEq

inductive RouteRefreshSubtype where
  | Refresh
  | BeginRefresh
  | EndRefresh
  | Unknown (v : UInt8)
  deriving DecidableEq

structure RouteRefreshMessage where
  afi_safi : AfiSafi
  subtype : RouteRefreshSubtype
  deriving DecidableEq

inductive AttributeErrorPolicy where
  | SessionReset (error : NotificationError) (data : List UInt8)
  | TreatAsWithdraw
  | AttributeDiscard
  deriving DecidableEq

structure AttributeDecodeError where
  type_code : UInt8
  policy : AttributeErrorPolicy
  deriving DecidableEq

/-- `MalformedUpdate`: an UPDATE without its malformed attributes, and what was wrong. -/
structure MalformedUpdate where
  update : UpdateMessage
  errors : List AttributeDecodeError
  treat_as_withdraw : Bool
  session_reset : Bool
  deriving DecidableEq

inductive BgpMessage where
  | Open (open_msg : OpenMessage)
  | Update (update : UpdateMessage)
  | Notification (n : NotificationMessage)
  | Keepalive
  | RouteRefresh (rr : RouteRefreshMessage)
  | MalformedUpdate (m : MalformedUpdate)
  deriving DecidableEq

/-! ## Capabilities -/

/-- `Role::as_wire_value`. -/
def Role.as_wire_value : Role → UInt8
  | .Provider => 0
  | .RouteServer => 1
  | .RsClient => 2
  | .Customer => 3
  | .Peer => 4

/-- `Role::is_compatible_with` (RFC 9234). -/
def Role.is_compatible_with : Role → Role → Bool
  | .Provider, .Customer => true
  | .Customer, .Provider => true
  | .RouteServer, .RsClient => true
  | .RsClient, .RouteServer => true
  | .Peer, .Peer => true
  | _, _ => false

namespace Capability

/-- `Capability::code`. -/
def code : Capability → UInt8
  | .MultiProtocol _ => 1
  | .RouteRefresh => 2
  | .ExtendedMessage => 6
  | .FourByteAsn _ => 65
  | .GracefulRestart _ _ _ => 64
  | .Role _ => 9
  | .Unknown code _ => code

def role? : Capability → Option Pathvector.Role
  | .Role r => some r
  | _ => none

def four_byte_asn? : Capability → Option UInt32
  | .FourByteAsn n => some n
  | _ => none

def is_graceful_restart : Capability → Bool
  | .GracefulRestart _ _ _ => true
  | _ => false

end Capability

def encode_capability_value : Capability → List UInt8
  | .MultiProtocol f => be_bytes 2 f.afi.toNat ++ [0, f.safi]
  | .RouteRefresh => []
  | .ExtendedMessage => []
  | .FourByteAsn asn => put_u32 asn
  | .Role role => [role.as_wire_value]
  | .GracefulRestart restart_flags restart_time families =>
    be_bytes 2 ((restart_flags.toUInt16 <<< 12) ||| (restart_time &&& 0x0FFF)).toNat
      ++ families.flatMap fun fam =>
        be_bytes 2 fam.afi_safi.afi.toNat
          ++ [fam.afi_safi.safi, if fam.forwarding_preserved then 0x80 else 0x00]
  | .Unknown _ value => value

/-- `encode_unsupported_capabilities`; the length field is one octet. -/
def encode_unsupported_capabilities (caps : List Capability) : List UInt8 :=
  caps.flatMap fun cap =>
    let value := encode_capability_value cap
    cap.code :: UInt8.ofNat value.length :: value

/-- `resolve_as`: the four-octet AS number, if the peer announces one. -/
def resolve_as (open_msg : OpenMessage) : UInt32 :=
  (open_msg.capabilities.findSome? Capability.four_byte_asn?).getD open_msg.my_as.toUInt32

/-! ## Inputs and outputs -/

inductive FsmInput where
  | ManualStart
  | ManualStop
  | ConnectRetryTimerExpired
  | HoldTimerExpired
  | KeepaliveTimerExpired
  | TcpConnected
  | TcpFailed
  | CollisionDetected
  | MessageReceived (msg : BgpMessage)
  | NotificationToSend (msg : NotificationMessage)
  | ProtocolErrorNotificationToSend (msg : NotificationMessage)
  deriving DecidableEq

namespace Fsm

/-- `SessionInfo`, as the state machine reports it. -/
structure SessionInfo where
  peer_as : UInt32
  peer_bgp_id : Ipv4Addr
  hold_time : UInt16
  peer_capabilities : List Capability
  peer_type : PeerType
  local_addr : Option IpAddr
  deriving DecidableEq

end Fsm

inductive FsmOutput where
  | InitiateTcpConnect
  | CloseTcpConnection
  | SendMessage (msg : BgpMessage)
  | StartConnectRetryTimer (d : ℕ)
  | StopConnectRetryTimer
  | StartHoldTimer (d : ℕ)
  | StopHoldTimer
  | StartKeepaliveTimer (d : ℕ)
  | StopKeepaliveTimer
  | SessionEstablished (info : Fsm.SessionInfo)
  | SessionTerminated
  | RouteUpdate (update : UpdateMessage)
  deriving DecidableEq

/-- `State`. -/
inductive FsmState where
  | Idle
  | Connect
  | Active
  | OpenSent
  | OpenConfirm
  | Established
  deriving DecidableEq, Repr

structure FsmConfig where
  local_as : UInt32
  public_as : UInt32
  local_bgp_id : Ipv4Addr
  hold_time : UInt16
  capabilities : List Capability
  required_capabilities : List Capability
  peer_as : Option UInt32
  confederation_member : Bool

structure Fsm where
  state : FsmState
  config : FsmConfig
  peer_open : Option OpenMessage
  negotiated_hold_time : UInt16

def AS_TRANS : UInt16 := 23456

def OPEN_HOLD_TIMER : ℕ := 240

def CONNECT_RETRY_INTERVAL : ℕ := 120

def hold_duration (hold_time : UInt16) : ℕ := hold_time.toNat

def keepalive_interval (hold_time : UInt16) : ℕ := hold_time.toNat / 3

def push_timer_actions (negotiated : UInt16) : List FsmOutput :=
  if 0 < negotiated then
    [.StartHoldTimer (hold_duration negotiated),
      .StartKeepaliveTimer (keepalive_interval negotiated)]
  else [.StopHoldTimer, .StopKeepaliveTimer]

namespace Fsm

section

variable (fsm : Fsm) (peer : OpenMessage)

/-- `Fsm::new`. -/
def new (config : FsmConfig) : Fsm :=
  { state := .Idle, config := config, peer_open := none, negotiated_hold_time := 0 }

def is_established : Bool := fsm.state == .Established

/-- `Fsm::set_capabilities`. -/
def set_capabilities (caps : List Capability) : Fsm :=
  { fsm with config := { fsm.config with capabilities := caps } }

def peer_bgp_id : Option Ipv4Addr := fsm.peer_open.map (·.bgp_id)

/-- `Fsm::peer_has_graceful_restart`. -/
def peer_has_graceful_restart : Bool :=
  fsm.peer_open.any fun o => o.capabilities.any Capability.is_graceful_restart

def make_open : OpenMessage where
  version := 4
  my_as := if 65535 < fsm.config.public_as then AS_TRANS else fsm.config.public_as.toUInt16
  hold_time := fsm.config.hold_time
  bgp_id := fsm.config.local_bgp_id
  capabilities := fsm.config.capabilities

/-- The role the peer announces, if any; `none` when it announces different ones. -/
def peer_role : Option (Option Role) :=
  match peer.capabilities.filterMap Capability.role? with
  | [] => some none
  | first :: rest => if rest.all (· == first) then some (some first) else none

/-- `validate_open`: the negotiated hold time, or the error to report. -/
def validate_open :
    Except (NotificationError × List UInt8) UInt16 :=
  if peer.version != 4 then .error (.OpenMessage .UnsupportedVersionNumber, [])
  else if peer.bgp_id.is_unspecified || peer.bgp_id.is_multicast || peer.bgp_id.is_broadcast then
    .error (.OpenMessage .BadBgpIdentifier, [])
  else if resolve_as peer == fsm.config.local_as && peer.bgp_id == fsm.config.local_bgp_id then
    .error (.OpenMessage .BadBgpIdentifier, [])
  else if fsm.config.peer_as.any (· != resolve_as peer) then
    .error (.OpenMessage .BadPeerAs, [])
  else if peer.hold_time == 1 || peer.hold_time == 2 then
    .error (.OpenMessage .UnacceptableHoldTime, [])
  else
    let unsupported := fsm.config.required_capabilities.filter fun req =>
      !peer.capabilities.any fun c => c.code == req.code
    if !unsupported.isEmpty then
      .error (.OpenMessage .UnsupportedCapability, encode_unsupported_capabilities unsupported)
    else
      match peer_role peer with
      | none => .error (.OpenMessage .RoleMismatch, [])
      | some peer_role =>
        let local_role := fsm.config.capabilities.findSome? Capability.role?
        let mismatch := match local_role, peer_role with
          | some l, some p => !l.is_compatible_with p
          | _, _ => false
        if mismatch then .error (.OpenMessage .RoleMismatch, [])
        else .ok (if fsm.config.hold_time == 0 || peer.hold_time == 0 then 0
          else min fsm.config.hold_time peer.hold_time)

def build_session_info : Option SessionInfo :=
  fsm.peer_open.map fun peer =>
    let peer_as := resolve_as peer
    { peer_as := peer_as
      peer_bgp_id := peer.bgp_id
      hold_time := fsm.negotiated_hold_time
      peer_capabilities := peer.capabilities
      peer_type := if peer_as == fsm.config.local_as then .Internal
        else if fsm.config.confederation_member then .ConfedMember else .External
      local_addr := none }

def do_tcp_connected : Fsm × List FsmOutput :=
  ({ fsm with state := .OpenSent },
    [.StopConnectRetryTimer, .SendMessage (.Open fsm.make_open), .StartHoldTimer OPEN_HOLD_TIMER])

def do_stop_pre_open : Fsm × List FsmOutput :=
  ({ fsm with state := .Idle }, [.StopConnectRetryTimer, .CloseTcpConnection])

def reset_hold_if_active : List FsmOutput :=
  if 0 < fsm.negotiated_hold_time then [.StartHoldTimer (hold_duration fsm.negotiated_hold_time)]
  else []

/-- The keepalive timer, started again after each KEEPALIVE. -/
def restart_keepalive : List FsmOutput :=
  if 0 < fsm.negotiated_hold_time then
    [.StartKeepaliveTimer (keepalive_interval fsm.negotiated_hold_time)]
  else []

/-- A NOTIFICATION with the given error and no data. -/
def notify (error : NotificationError) : FsmOutput := .SendMessage (.Notification ⟨error, []⟩)

def to_idle : Fsm := { fsm with state := .Idle }

/-- What is known about the peer is forgotten with the connection. -/
def forget (state : FsmState) : Fsm :=
  { fsm with peer_open := none, negotiated_hold_time := 0, state := state }

end

/-! ## The states -/

section

variable (fsm : Fsm)

def on_idle : FsmInput → Fsm × List FsmOutput
  | .ManualStart | .ConnectRetryTimerExpired =>
    ({ fsm with state := .Connect },
      [.StartConnectRetryTimer CONNECT_RETRY_INTERVAL, .InitiateTcpConnect])
  | _ => (fsm, [])

def on_connect : FsmInput → Fsm × List FsmOutput
  | .TcpConnected => fsm.do_tcp_connected
  | .TcpFailed =>
    ({ fsm with state := .Active }, [.StartConnectRetryTimer CONNECT_RETRY_INTERVAL])
  | .ConnectRetryTimerExpired =>
    (fsm, [.InitiateTcpConnect, .StartConnectRetryTimer CONNECT_RETRY_INTERVAL])
  | .ManualStop => fsm.do_stop_pre_open
  | _ => (fsm, [])

def on_active : FsmInput → Fsm × List FsmOutput
  | .TcpConnected => fsm.do_tcp_connected
  | .ConnectRetryTimerExpired =>
    ({ fsm with state := .Connect },
      [.InitiateTcpConnect, .StartConnectRetryTimer CONNECT_RETRY_INTERVAL])
  | .ManualStop => fsm.do_stop_pre_open
  | _ => (fsm, [])

def on_open_sent : FsmInput → Fsm × List FsmOutput
  | .MessageReceived (.Open peer_open) =>
    match fsm.validate_open peer_open with
    | .ok negotiated =>
      ({ fsm with
          negotiated_hold_time := negotiated
          peer_open := some peer_open
          state := .OpenConfirm },
        .SendMessage .Keepalive :: push_timer_actions negotiated)
    | .error (err, data) =>
      (fsm.to_idle,
        [.SendMessage (.Notification ⟨err, data⟩), .StopHoldTimer, .CloseTcpConnection])
  | .MessageReceived (.Notification _) =>
    (fsm.to_idle,
      [.StopHoldTimer, .CloseTcpConnection, .StartConnectRetryTimer CONNECT_RETRY_INTERVAL])
  | .TcpFailed =>
    ({ fsm with state := .Active },
      [.StopHoldTimer, .StartConnectRetryTimer CONNECT_RETRY_INTERVAL])
  | .HoldTimerExpired =>
    (fsm.to_idle,
      [notify .HoldTimerExpired, .CloseTcpConnection,
        .StartConnectRetryTimer CONNECT_RETRY_INTERVAL])
  | .ManualStop =>
    (fsm.to_idle,
      [.StopHoldTimer, notify (.Cease .AdministrativeShutdown), .CloseTcpConnection])
  | .CollisionDetected =>
    -- the negotiated hold time is left as it is here
    ({ fsm with peer_open := none, state := .Active },
      [.StopHoldTimer, notify (.Cease .ConnectionCollisionResolution), .CloseTcpConnection])
  | .MessageReceived _ =>
    (fsm.to_idle, [notify .FsmErrorOpenSent, .StopHoldTimer, .CloseTcpConnection])
  | _ => (fsm, [])

def on_open_confirm : FsmInput → Fsm × List FsmOutput
  | .MessageReceived .Keepalive =>
    match fsm.build_session_info with
    | none => (fsm.to_idle, [.StopHoldTimer, .StopKeepaliveTimer, .CloseTcpConnection])
    | some info =>
      ({ fsm with state := .Established },
        .SessionEstablished info ::
          if 0 < fsm.negotiated_hold_time then
            [.StartHoldTimer (hold_duration fsm.negotiated_hold_time),
              .StartKeepaliveTimer (keepalive_interval fsm.negotiated_hold_time)]
          else [])
  | .MessageReceived (.Notification _) | .TcpFailed =>
    (fsm.forget .Idle,
      [.StopHoldTimer, .StopKeepaliveTimer, .CloseTcpConnection, .SessionTerminated,
        .StartConnectRetryTimer CONNECT_RETRY_INTERVAL])
  | .KeepaliveTimerExpired => (fsm, .SendMessage .Keepalive :: fsm.restart_keepalive)
  | .HoldTimerExpired =>
    (fsm.to_idle,
      [notify .HoldTimerExpired, .StopKeepaliveTimer, .CloseTcpConnection,
        .StartConnectRetryTimer CONNECT_RETRY_INTERVAL])
  | .ManualStop =>
    (fsm.to_idle,
      [.StopHoldTimer, .StopKeepaliveTimer, notify (.Cease .AdministrativeShutdown),
        .CloseTcpConnection])
  | .CollisionDetected =>
    (fsm.forget .Active,
      [.StopHoldTimer, .StopKeepaliveTimer, notify (.Cease .ConnectionCollisionResolution),
        .CloseTcpConnection])
  | .MessageReceived _ =>
    (fsm.to_idle,
      [notify .FsmErrorOpenConfirm, .StopHoldTimer, .StopKeepaliveTimer, .CloseTcpConnection])
  | _ => (fsm, [])

/-- The last part of a teardown from `Established`, for a message that is out of place. -/
def reset_established : Fsm × List FsmOutput :=
  (fsm.to_idle,
    [notify .FsmErrorEstablished, .StopHoldTimer, .StopKeepaliveTimer, .CloseTcpConnection,
      .SessionTerminated])

def on_established : FsmInput → Fsm × List FsmOutput
  | .MessageReceived .Keepalive => (fsm, fsm.reset_hold_if_active)
  | .MessageReceived (.Update update) =>
    (fsm, fsm.reset_hold_if_active ++ [.RouteUpdate update])
  | .MessageReceived (.Notification _) | .TcpFailed =>
    (fsm.forget .Idle,
      [.StopHoldTimer, .StopKeepaliveTimer, .CloseTcpConnection, .SessionTerminated,
        .StartConnectRetryTimer CONNECT_RETRY_INTERVAL])
  | .KeepaliveTimerExpired => (fsm, .SendMessage .Keepalive :: fsm.restart_keepalive)
  | .HoldTimerExpired =>
    (fsm.to_idle,
      [notify .HoldTimerExpired, .StopKeepaliveTimer, .CloseTcpConnection, .SessionTerminated,
        .StartConnectRetryTimer CONNECT_RETRY_INTERVAL])
  | .ManualStop =>
    (fsm.to_idle,
      [.StopHoldTimer, .StopKeepaliveTimer, notify (.Cease .AdministrativeShutdown),
        .CloseTcpConnection, .SessionTerminated])
  | .MessageReceived (.RouteRefresh _) =>
    let negotiated := (fsm.peer_open.any fun o => o.capabilities.contains .RouteRefresh)
      && fsm.config.capabilities.contains .RouteRefresh
    if negotiated then (fsm, []) else fsm.reset_established
  | .MessageReceived _ => fsm.reset_established
  | .CollisionDetected =>
    (fsm.forget .Connect,
      [.StopHoldTimer, .StopKeepaliveTimer, .CloseTcpConnection, .SessionTerminated,
        .StartConnectRetryTimer CONNECT_RETRY_INTERVAL])
  | .NotificationToSend msg =>
    (fsm.to_idle,
      [.StopHoldTimer, .StopKeepaliveTimer, .SendMessage (.Notification msg),
        .CloseTcpConnection, .SessionTerminated])
  | .ProtocolErrorNotificationToSend msg =>
    (fsm.to_idle,
      [.StopHoldTimer, .StopKeepaliveTimer, .SendMessage (.Notification msg),
        .CloseTcpConnection, .SessionTerminated, .StartConnectRetryTimer CONNECT_RETRY_INTERVAL])
  | _ => (fsm, [])

/-- `Fsm::process`. -/
def process (input : FsmInput) : Fsm × List FsmOutput :=
  match fsm.state with
  | .Idle => fsm.on_idle input
  | .Connect => fsm.on_connect input
  | .Active => fsm.on_active input
  | .OpenSent => fsm.on_open_sent input
  | .OpenConfirm => fsm.on_open_confirm input
  | .Established => fsm.on_established input

end

end Fsm

end Pathvector

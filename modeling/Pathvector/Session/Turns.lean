/-
# What an input can do

`Fsm.process` has six states and some forty cases. `Fsm.turn` sorts them by what they come to, and
says of each kind all that is used of it: what becomes of the connection, of the timers and of
the OPEN that was received, and what is reported. The proofs about the session do not look at
the handlers again.
-/
import Pathvector.Session.Fsm

set_option autoImplicit false

namespace Pathvector

namespace FsmState

/-- The state machine has sent its OPEN and relies on a connection. -/
def live : FsmState → Bool
  | .OpenSent | .OpenConfirm | .Established => true
  | _ => false

/-- The peer's OPEN has been accepted. -/
def peered : FsmState → Bool
  | .OpenConfirm | .Established => true
  | _ => false

/-- The state machine has no connection and is not making one. -/
def resting : FsmState → Bool
  | .Idle | .Active => true
  | _ => false

end FsmState

namespace FsmOutput

/-- The output neither asks for a connection, nor closes it, nor sends an OPEN. -/
def quiet : FsmOutput → Bool
  | .InitiateTcpConnect | .CloseTcpConnection | .SendMessage (.Open _) => false
  | _ => true

/-- The output writes to the connection. -/
def is_send : FsmOutput → Bool
  | .SendMessage _ => true
  | _ => false

/-- The output starts or stops a timer. -/
def is_timer : FsmOutput → Bool
  | .StartConnectRetryTimer _ | .StopConnectRetryTimer => true
  | .StartHoldTimer _ | .StopHoldTimer => true
  | .StartKeepaliveTimer _ | .StopKeepaliveTimer => true
  | _ => false

/-- The output starts or stops the connect-retry timer. -/
def is_retry : FsmOutput → Bool
  | .StartConnectRetryTimer _ | .StopConnectRetryTimer => true
  | _ => false

/-- The beginning (`true`) or the end (`false`) of a session, if an output reports one. -/
def mark : FsmOutput → Option Bool
  | .SessionEstablished _ => some true
  | .SessionTerminated => some false
  | _ => none

end FsmOutput

/-- The beginnings and ends reported by some outputs. -/
def marks (outputs : List FsmOutput) : List Bool := outputs.filterMap FsmOutput.mark

@[simp]
theorem marks_nil : marks [] = [] := rfl

@[simp]
theorem marks_cons (o : FsmOutput) (os : List FsmOutput) :
    marks (o :: os) = o.mark.toList ++ marks os := by
  unfold marks
  rw [List.filterMap_cons]
  cases o.mark <;> rfl

/-- The session ends with a NOTIFICATION of our own, and is to be tried again. -/
def FsmInput.notifies : FsmInput → Bool
  | .HoldTimerExpired | .ProtocolErrorNotificationToSend _ => true
  | _ => false

/-- The timers that are armed. -/
structure Timers where
  connect_retry : Bool
  hold : Bool
  keepalive : Bool
  deriving DecidableEq

namespace Timers

/-- What an output does to the timers. -/
def output (t : Timers) : FsmOutput → Timers
  | .StartConnectRetryTimer _ => { t with connect_retry := true }
  | .StopConnectRetryTimer => { t with connect_retry := false }
  | .StartHoldTimer _ => { t with hold := true }
  | .StopHoldTimer => { t with hold := false }
  | .StartKeepaliveTimer _ => { t with keepalive := true }
  | .StopKeepaliveTimer => { t with keepalive := false }
  | _ => t

/-- A timer that has fired is not armed any more. -/
def input (t : Timers) : FsmInput → Timers
  | .ConnectRetryTimerExpired => { t with connect_retry := false }
  | .HoldTimerExpired => { t with hold := false }
  | .KeepaliveTimerExpired => { t with keepalive := false }
  | _ => t

end Timers

namespace Fsm

variable {fsm : Fsm}

/-! ## The inputs -/

/-- The inputs after which a connection may be asked for. -/
def asks : FsmInput → Bool
  | .ManualStart | .ConnectRetryTimerExpired => true
  | _ => false

/-- The connection is lost, or the peer gives it up. -/
def loses_connection : FsmInput → Bool
  | .TcpFailed => true
  | .MessageReceived (.Notification _) => true
  | _ => false

/-- The connection is lost, or given up for another one. -/
def loses : FsmInput → Bool
  | .TcpFailed | .CollisionDetected | .MessageReceived (.Notification _) => true
  | _ => false

/-- The connection is lost in `OpenConfirm`. -/
def LostHandshake (fsm : Fsm) (input : FsmInput) : Prop :=
  fsm.state = .OpenConfirm ∧ loses_connection input = true
deriving Decidable

/-- ROUTE-REFRESH was agreed on. -/
def refreshes (fsm : Fsm) : Bool :=
  (fsm.peer_open.any fun o => o.capabilities.contains .RouteRefresh)
    && fsm.config.capabilities.contains .RouteRefresh

theorem on_established_refresh (rr : RouteRefreshMessage) :
    fsm.on_established (.MessageReceived (.RouteRefresh rr))
      = if fsm.refreshes then (fsm, []) else fsm.reset_established := rfl

/-- The inputs that end a session with a message to the peer. -/
def ends_with_message (fsm : Fsm) : FsmInput → Bool
  | .HoldTimerExpired | .ManualStop => true
  | .NotificationToSend _ | .ProtocolErrorNotificationToSend _ => true
  | .MessageReceived (.Open _) | .MessageReceived (.MalformedUpdate _) => true
  | .MessageReceived (.RouteRefresh _) => !fsm.refreshes
  | _ => false

/-- The message has its place in the state; what comes before there is a connection is ignored. -/
def expects (fsm : Fsm) (msg : BgpMessage) : Bool :=
  match fsm.state, msg with
  | .Idle, _ | .Connect, _ | .Active, _ => true
  | .OpenSent, .Open open_msg => (fsm.validate_open open_msg).isOk
  | .OpenConfirm, .Keepalive => fsm.peer_open.isSome
  | .Established, .Keepalive | .Established, .Update _ => true
  | .Established, .RouteRefresh _ => fsm.refreshes
  | _, .Notification _ => true
  | _, _ => false

/-- The input makes the state machine give up, and not ask for another try. -/
def abandons (fsm : Fsm) : FsmInput → Bool
  | .ManualStop => fsm.state != .Idle
  | .NotificationToSend _ => fsm.state == .Established
  | .CollisionDetected => fsm.state == .OpenSent || fsm.state == .OpenConfirm
  | .MessageReceived msg => !fsm.expects msg
  | _ => false

/-- The input does something in the state. -/
def heeds (fsm : Fsm) : FsmInput → Bool
  | .ManualStart => fsm.state == .Idle
  | .ManualStop => fsm.state != .Idle
  | .ConnectRetryTimerExpired => !fsm.state.live
  | .HoldTimerExpired | .CollisionDetected => fsm.state.live
  | .KeepaliveTimerExpired => fsm.state.peered
  | .TcpConnected => fsm.state == .Connect || fsm.state == .Active
  | .TcpFailed => fsm.state == .Connect || fsm.state.live
  | .MessageReceived (.RouteRefresh _) =>
    fsm.state.live && !(fsm.state == .Established && fsm.refreshes)
  | .MessageReceived _ => fsm.state.live
  | .NotificationToSend _ | .ProtocolErrorNotificationToSend _ => fsm.state == .Established

/-! ## Turns -/

/-- The state machine gives its connection up. -/
structure Leaves (fsm : Fsm) (input : FsmInput) : Prop where
  live : fsm.state.live = true
  after : (fsm.process input).1.state.live = false
  close : .CloseTcpConnection ∈ (fsm.process input).2
  quiet : ∀ o ∈ (fsm.process input).2, o.quiet = true ∨ o = .CloseTcpConnection
  /-- The end of a session is reported, and that of a handshake that is lost. -/
  marks : marks (fsm.process input).2
    = if fsm.state = .Established ∨ fsm.LostHandshake input then [false] else []
  retry : ∀ d, .StartConnectRetryTimer d ∈ (fsm.process input).2 ↔
    fsm.abandons input = false ∧ d = CONNECT_RETRY_INTERVAL
  stop : .StopConnectRetryTimer ∉ (fsm.process input).2
  updates : ∀ u, .RouteUpdate u ∉ (fsm.process input).2
  sends : fsm.abandons input = false → input.notifies = false →
    ∀ o ∈ (fsm.process input).2, o.is_send = false
  hold : ∀ t : Timers, ((fsm.process input).2.foldl Timers.output (t.input input)).hold = false
  keepalive : ∀ t : Timers, ((fsm.process input).2.foldl Timers.output (t.input input)).keepalive
    = (decide (fsm.state = .OpenSent) && t.keepalive)
  /-- The OPEN is forgotten with the connection, if it is the connection that ends it. -/
  peer_open : (fsm.process input).1.peer_open = none ∨
    (fsm.process input).1.peer_open = fsm.peer_open
  forgets : fsm.state.peered = true →
    (fsm.process input).1.peer_open = if loses input then none else fsm.peer_open

/-- What an input makes of the state machine, and what it asks for. -/
inductive Turn (fsm : Fsm) (input : FsmInput) : Prop where
  /-- Nothing. -/
  | ignores (hinput : fsm.heeds input = false) (hproc : fsm.process input = (fsm, []))
  /-- A connection is asked for. -/
  | initiates (hinput : asks input = true) (hlive : fsm.state.live = false)
      (hafter : (fsm.process input).1 = { fsm with state := .Connect })
      (houtputs : ∃ d, (fsm.process input).2 = [.StartConnectRetryTimer d, .InitiateTcpConnect] ∨
        (fsm.process input).2 = [.InitiateTcpConnect, .StartConnectRetryTimer d])
  /-- The connection could not be made. -/
  | waits (hinput : input = .TcpFailed) (hs : fsm.state = .Connect)
      (hproc : fsm.process input
        = ({ fsm with state := .Active }, [.StartConnectRetryTimer CONNECT_RETRY_INTERVAL]))
  /-- There is one, and the OPEN goes out. -/
  | opens (hinput : input = .TcpConnected) (hlive : fsm.state.live = false)
      (hidle : fsm.state ≠ .Idle) (hproc : fsm.process input = fsm.do_tcp_connected)
  /-- There is to be none. -/
  | stops (hinput : input = .ManualStop) (hlive : fsm.state.live = false)
      (hidle : fsm.state ≠ .Idle) (hproc : fsm.process input = fsm.do_stop_pre_open)
  /-- It is lost before the peer has answered. -/
  | gives_up (hinput : input = .TcpFailed) (hs : fsm.state = .OpenSent)
      (hproc : fsm.process input = ({ fsm with state := .Active },
        [.StopHoldTimer, .StartConnectRetryTimer CONNECT_RETRY_INTERVAL]))
  /-- The peer's OPEN is accepted. -/
  | agrees (o : OpenMessage) (negotiated : UInt16) (hinput : input = .MessageReceived (.Open o))
      (hs : fsm.state = .OpenSent)
      (hproc : fsm.process input = ({ fsm with
          negotiated_hold_time := negotiated
          peer_open := some o
          state := .OpenConfirm },
        .SendMessage .Keepalive :: push_timer_actions negotiated))
  /-- The session is up. -/
  | establishes (info : SessionInfo) (hinput : input = .MessageReceived .Keepalive)
      (hs : fsm.state = .OpenConfirm)
      (hproc : fsm.process input = ({ fsm with state := .Established },
        .SessionEstablished info ::
          if 0 < fsm.negotiated_hold_time then
            [.StartHoldTimer (hold_duration fsm.negotiated_hold_time),
              .StartKeepaliveTimer (keepalive_interval fsm.negotiated_hold_time)]
          else []))
  /-- It goes on. -/
  | goes_on (hs : fsm.state.peered = true) (hinput : loses input = false)
      (hafter : (fsm.process input).1 = fsm)
      (houtputs : ∀ o ∈ (fsm.process input).2,
        o.quiet = true ∧ o.is_retry = false ∧ o.mark = none)
      (htimers : ∀ b, b = decide (0 < fsm.negotiated_hold_time) →
        (fsm.process input).2.foldl Timers.output (Timers.input ⟨false, b, b⟩ input)
          = ⟨false, b, b⟩)
      (hupdate : ∀ u, .RouteUpdate u ∈ (fsm.process input).2 →
        fsm.state = .Established ∧ .MessageReceived (.Update u) = input)
  | leaves (h : fsm.Leaves input)

attribute [local simp] FsmState.live FsmState.peered FsmOutput.quiet FsmOutput.is_send
  FsmOutput.is_retry FsmOutput.mark FsmInput.notifies Timers.output Timers.input

theorem turn_of_idle (hs : fsm.state = .Idle) (input : FsmInput) : fsm.Turn input := by
  have hproc : fsm.process input = fsm.on_idle input := by rw [process, hs]
  cases input with
  | ManualStart | ConnectRetryTimerExpired =>
    exact .initiates rfl (by rw [hs]; rfl) (by rw [hproc]; rfl)
      ⟨CONNECT_RETRY_INTERVAL, .inl (by rw [hproc]; rfl)⟩
  | MessageReceived msg => cases msg <;> exact .ignores (by simp [heeds, hs]) hproc
  | _ => exact .ignores (by simp [heeds, hs]) hproc

theorem turn_of_connect (hs : fsm.state = .Connect) (input : FsmInput) : fsm.Turn input := by
  have hproc : fsm.process input = fsm.on_connect input := by rw [process, hs]
  cases input with
  | TcpConnected => exact .opens rfl (by rw [hs]; rfl) (by simp [hs]) hproc
  | TcpFailed => exact .waits rfl hs hproc
  | ConnectRetryTimerExpired =>
    exact .initiates rfl (by rw [hs]; rfl) (by rw [hproc, ← hs]; rfl)
      ⟨CONNECT_RETRY_INTERVAL, .inr (by rw [hproc]; rfl)⟩
  | ManualStop => exact .stops rfl (by rw [hs]; rfl) (by simp [hs]) hproc
  | MessageReceived msg => cases msg <;> exact .ignores (by simp [heeds, hs]) hproc
  | _ => exact .ignores (by simp [heeds, hs]) hproc

theorem turn_of_active (hs : fsm.state = .Active) (input : FsmInput) : fsm.Turn input := by
  have hproc : fsm.process input = fsm.on_active input := by rw [process, hs]
  cases input with
  | TcpConnected => exact .opens rfl (by rw [hs]; rfl) (by simp [hs]) hproc
  | ConnectRetryTimerExpired =>
    exact .initiates rfl (by rw [hs]; rfl) (by rw [hproc]; rfl)
      ⟨CONNECT_RETRY_INTERVAL, .inr (by rw [hproc]; rfl)⟩
  | ManualStop => exact .stops rfl (by rw [hs]; rfl) (by simp [hs]) hproc
  | MessageReceived msg => cases msg <;> exact .ignores (by simp [heeds, hs]) hproc
  | _ => exact .ignores (by simp [heeds, hs]) hproc

theorem turn_of_open_sent (hs : fsm.state = .OpenSent) (input : FsmInput) : fsm.Turn input := by
  have hproc : fsm.process input = fsm.on_open_sent input := by rw [process, hs]
  cases input with
  | MessageReceived msg => cases msg with
    | Open o =>
      cases hv : fsm.validate_open o with
      | ok negotiated =>
        refine .agrees o negotiated rfl hs (hproc.trans ?_)
        simp only [on_open_sent, hv]
      | error e =>
        apply Turn.leaves
        constructor <;>
          simp [hproc, hs, hv, on_open_sent, to_idle, abandons, expects, LostHandshake,
            Except.isOk, Except.toBool]
    | _ =>
      apply Turn.leaves
      constructor <;>
        simp [hproc, hs, on_open_sent, to_idle, notify, abandons, expects, LostHandshake]
  | TcpFailed => exact .gives_up rfl hs hproc
  | HoldTimerExpired | ManualStop | CollisionDetected =>
    apply Turn.leaves
    constructor <;>
      simp [hproc, hs, on_open_sent, to_idle, notify, abandons, LostHandshake]
  | _ => exact .ignores (by simp [heeds, hs]) hproc

theorem turn_of_open_confirm (hs : fsm.state = .OpenConfirm) (input : FsmInput) :
    fsm.Turn input := by
  have hproc : fsm.process input = fsm.on_open_confirm input := by rw [process, hs]
  cases input with
  | MessageReceived msg => cases msg with
    | Keepalive =>
      cases hpeer : fsm.peer_open with
      | none =>
        apply Turn.leaves
        constructor <;>
          simp [hproc, hs, hpeer, on_open_confirm, build_session_info, to_idle, abandons, expects,
            LostHandshake, loses_connection]
      | some peer =>
        obtain ⟨info, hinfo⟩ : ∃ info, fsm.build_session_info = some info := by
          simp [build_session_info, hpeer]
        refine .establishes info rfl hs (hproc.trans ?_)
        simp only [on_open_confirm, hinfo]
    | _ =>
      apply Turn.leaves
      constructor <;>
        simp [hproc, hs, on_open_confirm, to_idle, forget, notify, abandons, expects, LostHandshake,
          loses_connection, loses]
  | KeepaliveTimerExpired =>
    refine .goes_on (by rw [hs]; rfl) rfl (by rw [hproc]; rfl) ?_ ?_ ?_ <;> rw [hproc] <;>
      by_cases hn : 0 < fsm.negotiated_hold_time <;>
      simp [hn, on_open_confirm, restart_keepalive]
  | TcpFailed | HoldTimerExpired | ManualStop | CollisionDetected =>
    apply Turn.leaves
    constructor <;>
      simp [hproc, hs, on_open_confirm, to_idle, forget, notify, abandons, LostHandshake,
        loses_connection, loses]
  | _ => exact .ignores (by simp [heeds, hs]) hproc

theorem turn_of_established (hs : fsm.state = .Established) (input : FsmInput) :
    fsm.Turn input := by
  have hproc : fsm.process input = fsm.on_established input := by rw [process, hs]
  cases input with
  | MessageReceived msg => cases msg with
    | Keepalive | Update update =>
      refine .goes_on (by rw [hs]; rfl) rfl (by rw [hproc]; rfl) ?_ ?_ ?_ <;> rw [hproc] <;>
        by_cases hn : 0 < fsm.negotiated_hold_time <;>
        simp [hn, hs, on_established, reset_hold_if_active]
    | RouteRefresh rr =>
      by_cases hneg : fsm.refreshes = true
      · exact .ignores (by simp [heeds, hs, hneg]) (hproc.trans (if_pos hneg))
      · have hout : fsm.process (.MessageReceived (.RouteRefresh rr)) = fsm.reset_established :=
          hproc.trans (if_neg hneg)
        apply Turn.leaves
        constructor <;>
          simp [hout, hs, hneg, reset_established, to_idle, notify, abandons, expects, loses]
    | _ =>
      apply Turn.leaves
      constructor <;>
        simp [hproc, hs, on_established, reset_established, to_idle, forget, notify, abandons,
          expects, loses]
  | KeepaliveTimerExpired =>
    refine .goes_on (by rw [hs]; rfl) rfl (by rw [hproc]; rfl) ?_ ?_ ?_ <;> rw [hproc] <;>
      by_cases hn : 0 < fsm.negotiated_hold_time <;>
      simp [hn, on_established, restart_keepalive]
  | ManualStart | ConnectRetryTimerExpired | TcpConnected =>
    exact .ignores (by simp [heeds, hs]) hproc
  | _ =>
    apply Turn.leaves
    constructor <;>
      simp [hproc, hs, on_established, to_idle, forget, notify, abandons, loses]

/-- **Every input is one of these.** -/
theorem turn (fsm : Fsm) (input : FsmInput) : fsm.Turn input := by
  cases hs : fsm.state with
  | Idle => exact turn_of_idle hs input
  | Connect => exact turn_of_connect hs input
  | Active => exact turn_of_active hs input
  | OpenSent => exact turn_of_open_sent hs input
  | OpenConfirm => exact turn_of_open_confirm hs input
  | Established => exact turn_of_established hs input

/-- An update is reported where it comes in. -/
theorem update_of_mem {input : FsmInput} {u : UpdateMessage}
    (h : .RouteUpdate u ∈ (fsm.process input).2) :
    fsm.state = .Established ∧ input = .MessageReceived (.Update u) := by
  cases fsm.turn input with
  | goes_on _ _ _ _ _ hupdate => exact (hupdate u h).imp_right Eq.symm
  | leaves hleaves => exact absurd h (hleaves.updates u)
  | initiates _ _ _ houtputs => obtain ⟨d, houtputs | houtputs⟩ := houtputs <;> simp [houtputs] at h
  | ignores _ hproc | waits _ _ hproc | gives_up _ _ hproc => simp [hproc] at h
  | opens _ _ _ hproc => simp [hproc, do_tcp_connected] at h
  | stops _ _ _ hproc => simp [hproc, do_stop_pre_open] at h
  | agrees _ _ _ _ hproc =>
    rw [hproc, push_timer_actions] at h
    split at h <;> simp at h
  | establishes _ _ _ hproc =>
    rw [hproc] at h
    split at h <;> simp at h

end Fsm

end Pathvector

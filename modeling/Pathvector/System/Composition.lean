/-
# The daemon and the sessions of one peer

The event loop (`run_event_loop`), the command processor (`run_command_processor`) and the session
tasks of one peer `p`, as one machine. The tasks are the ones of `Session.Task`, the daemon's state
is the one of `Daemon.EventLoop`, and what lies between them is here: the command channel of a task,
its events that the loop has not taken yet, and the commands the loop and the processor are about
to send. A peer that is removed and added again has a second task, and the first one goes on.

Two things are left open. The capabilities the loop sends after a session, the messages it queues
for one and the configuration of a new task may be any. And the sends of the loop and of the
processor are steps of their own, between which the other may act, though in the source the
loop does not take another event before it has sent its commands.
-/
import Pathvector.Daemon.EventLoop
import Pathvector.Session.Task

set_option autoImplicit false

namespace Pathvector

/-- A session task, the commands in its channel, and how many of its events the loop has taken. -/
structure Actor where
  session : Session
  commands : List SessionCommand
  taken : ℕ

namespace Actor

/-- `spawn_fn` and `start`. -/
def spawn (config : SessionConfig) : Actor := ⟨Session.spawn config, [.Start], 0⟩

/-- The events the loop has not taken yet. -/
def queued (a : Actor) : List SessionEvent := a.session.events.drop a.taken

/-- The task is at its select and takes a command. -/
def take_command (a : Actor) (now : ℕ) (outcomes : List Bool) : Actor :=
  match a.session.phase, a.session.pending_input, a.commands with
  | .Waiting, none, c :: rest =>
    { a with session := a.session.step (.task now outcomes (.command (some c))), commands := rest }
  | _, _, _ => a

/-- The task goes on in any other way. -/
def advance (a : Actor) : Session.Step → Actor
  -- a command comes out of the channel only
  | .task _ _ (.command _) => a
  | e => { a with session := a.session.step e }

end Actor

/-- An event of the daemon that has a step of its own below. -/
def Event.concerns (p : IpAddr) : Event → Bool
  | .Session _ peer_ip _ => peer_ip == p
  | .AddPeer peer _ => peer.address == p
  | .RemovePeer peer_ip => peer_ip == p
  | .TakeStalledPeers => true
  | _ => false

/-- The daemon, and the sessions of one peer. -/
structure System where
  daemon : DaemonState
  /-- The tasks spawned for the peer, the latest first. -/
  actors : List Actor
  /-- `stop_senders` has the channel of the latest. -/
  stop_sender : Bool
  /-- What the event loop is about to send. -/
  outbox : List SessionCommand
  /-- What the command processor is about to send. -/
  processor : Option SessionCommand
  /-- The `Terminated` events the command processor has put into the event channel itself. -/
  injected : ℕ
  /-- The peer's removal was requested, and it was not added since. -/
  removing : Bool

namespace System

section

variable (p : IpAddr) (σ : System)

/-- `build_daemon`; the peer has a session if it is configured. -/
def start (daemon : DaemonState) (config : Option SessionConfig) : System where
  daemon := daemon
  actors := config.toList.map Actor.spawn
  stop_sender := config.isSome
  outbox := []
  processor := none
  injected := 0
  removing := false

/-- The systems that have just been started. -/
def Initial : Prop :=
  ∃ local_as local_bgp_id local_ipv6 cluster_id confederation_id peers update_senders caps config,
    σ = start (DaemonState.new local_as local_bgp_id local_ipv6 cluster_id confederation_id peers
      update_senders caps) config ∧ (config.isSome ↔ p ∈ peers.map PeerConfig.address)

/-- A command into the channel of the latest task. -/
def push (c : SessionCommand) : System :=
  { σ with actors := σ.actors.modify 0 fun a => { a with commands := a.commands ++ [c] } }

/-- A command by way of `stop_senders`. -/
def send (c : SessionCommand) : System := if σ.stop_sender then σ.push c else σ

/-- The commands the event loop answers an event with. It refreshes the capabilities only in the
arm for the first event of an iteration. -/
def replies (s : DaemonState) (p : IpAddr) (clk : Clock) (caps : Option (List Capability)) :
    SessionEvent → List SessionCommand
  | .Established _ => if p ∈ s.max_prefix_idle then [.Stop] else []
  | .Terminated _ => if p ∈ s.pending_removal then [] else (caps.map .SetCapabilities).toList
  | .RouteUpdate msg => ((s.on_route_update clk p msg).2.map .Notification).toList

/-- The event is the end of a peer that waits for its removal. -/
def completes (s : DaemonState) (p : IpAddr) : SessionEvent → Bool
  | .Terminated _ => decide (p ∈ s.pending_removal)
  | _ => false

/-- The event loop takes an event of the peer. -/
def take (clk : Clock) (caps : Option (List Capability)) (event : SessionEvent) :
    System :=
  { σ with
    daemon := (σ.daemon.on_session_event clk p event).1
    outbox := σ.outbox ++ replies σ.daemon p clk caps event
    stop_sender := σ.stop_sender && !completes σ.daemon p event }

/-- The event loop stops the sessions whose channel has overflowed. -/
def stop_stalled : System :=
  { σ with
    daemon := { σ.daemon with stalled_peers := [] }
    outbox := σ.outbox ++ List.replicate (σ.daemon.stalled_peers.count p) .Stop }

/-- The `AddPeer` command. -/
def add (peer : PeerConfig) (update_sender : UpdateSender) (config : SessionConfig) : System :=
  if peer.address ∈ σ.daemon.adj_ribs_in then σ
  else
    { σ with
      daemon := (σ.daemon.add_peer peer update_sender).1
      actors := Actor.spawn config :: σ.actors
      stop_sender := true
      removing := false }

/-- The command that ends a session for good; a shutdown message is sent along. -/
def shutdown_command : Option (List UInt8) → SessionCommand
  | some reason => .Notification ⟨.Cease .AdministrativeShutdown, reason⟩
  | none => .Stop

/-- The `RemovePeer` command, up to the command for the session. -/
def remove (shutdown : Option (List UInt8)) : System :=
  if p ∈ σ.daemon.adj_ribs_in then
    { σ with
      daemon := σ.daemon.request_removal p
      processor := some (shutdown_command shutdown)
      removing := true }
  else σ

/-- The command processor sends its command; without a channel it makes the event up itself. -/
def shut_down : System :=
  match σ.processor with
  | some c =>
    if σ.stop_sender then { σ.push c with processor := none }
    else { σ with processor := none, injected := σ.injected + 1 }
  | none => σ

/-- What can happen. -/
inductive Happening where
  /-- Anything else that happens to the daemon's state. -/
  | daemon (e : Event)
  | stop_stalled
  | take (i : ℕ) (clk : Clock) (caps : Option (List Capability))
  | take_injected (clk : Clock) (caps : Option (List Capability))
  | reply
  | add (peer : PeerConfig) (update_sender : UpdateSender) (config : SessionConfig)
  | remove (shutdown : Option (List UInt8))
  | shut_down
  /-- The listener and the operator's soft reset. -/
  | incoming (stream : TcpStream)
  | refresh (rr : RouteRefreshMessage)
  | command (i : ℕ) (now : ℕ) (outcomes : List Bool)
  | task (i : ℕ) (e : Session.Step)

/-- One step. -/
def step : Happening → System
  | .daemon e => if e.concerns p then σ else { σ with daemon := σ.daemon.step e }
  | .stop_stalled => σ.stop_stalled p
  | .take i clk caps =>
    match (σ.actors[i]?).bind fun a => a.queued.head? with
    | some event =>
      { σ.take p clk caps event with
        actors := σ.actors.modify i fun a => { a with taken := a.taken + 1 } }
    | none => σ
  | .take_injected clk caps =>
    if 0 < σ.injected then
      { σ.take p clk caps (.Terminated .OperatorStop) with injected := σ.injected - 1 }
    else σ
  | .reply =>
    match σ.outbox with
    | c :: rest => { σ.send c with outbox := rest }
    | [] => σ
  -- the command processor does one thing after the other
  | .add peer update_sender config =>
    if peer.address = p ∧ σ.processor = none then σ.add peer update_sender config else σ
  | .remove shutdown => if σ.processor = none then σ.remove p shutdown else σ
  | .shut_down => σ.shut_down
  | .incoming stream => σ.push (.IncomingConnection stream)
  | .refresh rr => σ.send (.RouteRefresh rr)
  | .command i now outcomes =>
    { σ with actors := σ.actors.modify i fun a => a.take_command now outcomes }
  | .task i e => { σ with actors := σ.actors.modify i fun a => a.advance e }

/-- A run. -/
def run (happenings : List Happening) : System :=
  happenings.foldl (step p) σ

/-- No command, event or message is in flight. -/
structure Quiescent : Prop where
  outbox : σ.outbox = []
  processor : σ.processor = none
  injected : σ.injected = 0
  stalled : p ∉ σ.daemon.stalled_peers
  commands : ∀ a ∈ σ.actors, a.commands = []
  queued : ∀ a ∈ σ.actors, a.queued = []
  waiting : ∀ a ∈ σ.actors, a.session.phase = .Waiting ∧ a.session.pending_input = none

end

instance (p : IpAddr) (σ : System) : Decidable (σ.Quiescent p) :=
  decidable_of_iff
    (σ.outbox = [] ∧ σ.processor = none ∧ σ.injected = 0 ∧ p ∉ σ.daemon.stalled_peers ∧
      (∀ a ∈ σ.actors, a.commands = []) ∧ (∀ a ∈ σ.actors, a.queued = []) ∧
      ∀ a ∈ σ.actors, a.session.phase = .Waiting ∧ a.session.pending_input = none)
    ⟨fun ⟨ho, hp, hi, hs, hc, hq, hw⟩ => ⟨ho, hp, hi, hs, hc, hq, hw⟩,
      fun h => ⟨h.outbox, h.processor, h.injected, h.stalled, h.commands, h.queued, h.waiting⟩⟩

end System

end Pathvector

/-
# What an input can do to the connection

The state machine never touches a connection. It asks for one, asks to close it, or sends its
OPEN on it. `Fsm.move` says which inputs do which, by cases that are about states and outputs
only, so that the proofs about the session task need not look at the handlers again.

In `OpenSent`, `OpenConfirm` and `Established` the state machine relies on a connection: these
states are called live.
-/
import Pathvector.Session.Alternation

set_option autoImplicit false

namespace Pathvector

namespace Fsm

variable {fsm : Fsm}

/-! ## The moves -/

/-- What an input does to the connection. -/
inductive Move (fsm : Fsm) (input : FsmInput) : Prop where
  /-- Nothing. -/
  | stays (hlive : (fsm.process input).1.state.live = fsm.state.live)
      (hidle : (fsm.process input).1.state = .Idle → fsm.state = .Idle)
      (hquiet : ∀ o ∈ (fsm.process input).2, o.quiet = true)
  /-- It asks for one. -/
  | initiates (hlive : fsm.state.live = false) (hafter : (fsm.process input).1.state = .Connect)
      (houtputs : ∃ d, (fsm.process input).2 = [.StartConnectRetryTimer d, .InitiateTcpConnect] ∨
        (fsm.process input).2 = [.InitiateTcpConnect, .StartConnectRetryTimer d])
      (hasks : asks input = true)
  /-- There is one, and the OPEN goes out. -/
  | opens (hinput : input = .TcpConnected) (hlive : fsm.state.live = false)
      (hidle : fsm.state ≠ .Idle) (hprocess : fsm.process input = fsm.do_tcp_connected)
  /-- It is closed. -/
  | closes (hafter : (fsm.process input).1.state.live = false)
      (hclose : .CloseTcpConnection ∈ (fsm.process input).2)
      (hquiet : ∀ o ∈ (fsm.process input).2, o.quiet = true ∨ o = .CloseTcpConnection)
  /-- It is lost before the peer has answered, and taken to be gone. -/
  | gives_up (hbefore : fsm.state = .OpenSent) (hinput : input = .TcpFailed)
      (hafter : (fsm.process input).1.state = .Active)
      (hquiet : ∀ o ∈ (fsm.process input).2, o.quiet = true ∧ o.is_send = false)

attribute [local simp] FsmState.live FsmOutput.quiet FsmOutput.is_send

/-- **Every input makes one of these moves.** -/
theorem move (fsm : Fsm) (input : FsmInput) : fsm.Move input := by
  cases fsm.turn input with
  | ignores _ hproc => exact .stays (by rw [hproc]) (by rw [hproc]; exact id) (by simp [hproc])
  | initiates hasks hlive hafter houtputs =>
    exact .initiates hlive (by rw [hafter]) houtputs hasks
  | waits _ hs hproc => apply Move.stays <;> simp [hproc, hs]
  | opens hinput hlive hidle hproc => exact .opens hinput hlive hidle hproc
  | stops _ hlive hidle hproc => apply Move.closes <;> simp [hproc, do_stop_pre_open]
  | gives_up hinput hs hproc => apply Move.gives_up hs hinput <;> simp [hproc]
  | agrees o negotiated _ hs hproc =>
    apply Move.stays <;> simp only [hproc, hs, push_timer_actions] <;> try split
    all_goals simp
  | establishes info _ hs hproc =>
    apply Move.stays <;> simp only [hproc, hs] <;> try split
    all_goals simp
  | goes_on _ _ hafter houtputs _ =>
    exact .stays (by rw [hafter]) (by rw [hafter]; exact id) fun o ho => (houtputs o ho).1
  | leaves h => exact .closes h.after h.close h.quiet

/-! ## Single inputs -/

theorem live_tcp_failed (fsm : Fsm) : (fsm.process .TcpFailed).1.state.live = false := by
  unfold process
  cases hs : fsm.state <;>
    simp [on_idle, on_connect, on_active, on_open_sent, on_open_confirm, on_established, forget, hs]

theorem initiate_tcp_failed (fsm : Fsm) : .InitiateTcpConnect ∉ (fsm.process .TcpFailed).2 := by
  unfold process
  cases hs : fsm.state <;>
    simp [on_idle, on_connect, on_active, on_open_sent, on_open_confirm, on_established]

/-- `Established` is left for no other live state. -/
theorem eq_of_established_live {input : FsmInput} (hs : fsm.state = .Established)
    (hlive : (fsm.process input).1.state.live = true) : (fsm.process input).1 = fsm := by
  cases fsm.turn input with
  | ignores _ hproc => rw [hproc]
  | goes_on _ _ hafter => exact hafter
  | leaves h => cases h.after.symm.trans hlive
  | initiates _ hdown | opens _ hdown | stops _ hdown => simp [hs] at hdown
  | waits _ hs' | gives_up _ hs' | agrees _ _ _ hs' | establishes _ _ hs' =>
    cases hs.symm.trans hs'

/-- A session comes up with a KEEPALIVE. -/
theorem keepalive_of_established {input : FsmInput} (hbefore : fsm.state ≠ .Established)
    (hafter : (fsm.process input).1.state = .Established) :
    input = .MessageReceived .Keepalive := by
  cases fsm.turn input with
  | establishes _ hinput => exact hinput
  | ignores _ hproc | goes_on _ _ hproc =>
    rw [hproc] at hafter
    exact absurd hafter hbefore
  | leaves h =>
    have hdown := h.after
    simp [hafter] at hdown
  | initiates _ _ hproc | waits _ _ hproc | gives_up _ _ hproc | agrees _ _ _ _ hproc =>
    simp [hproc] at hafter
  | opens _ _ _ hproc => simp [hproc, do_tcp_connected] at hafter
  | stops _ _ _ hproc => simp [hproc, do_stop_pre_open] at hafter

end Fsm

end Pathvector

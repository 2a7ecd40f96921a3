/-
# Is the connection in use the one that was opened?

In a live state the connection should be the one our OPEN was written to (`Carried`). Feeding an
input keeps this (`carried_process`), and so does taking or adopting a connection, since the state
machine is not in a live state then. The connect task is the exception: it is not stopped when an
incoming connection is taken in `Connect`, and its result overwrites the connection whatever the
state is (`overtakes`). That is the only exception.
-/
import Pathvector.Lib.Run
import Pathvector.Session.Steps

set_option autoImplicit false

namespace Pathvector

namespace Session

variable (now : ℕ) {s : Session}

/-- In a live state the connection, if there is one, is the one our last OPEN was written to. -/
def Carried (s : Session) : Prop :=
  s.fsm.state.live = true → ∀ c, s.transport = some c → opened s.sent = some c

/-- The connect task returns a connection in a live state. -/
def overtakes (s : Session) : Step → Bool
  | .task _ _ (.connected (some _)) =>
    s.phase == .Waiting && s.pending_input.isNone && s.connect_task && s.fsm.state.live
  | _ => false

theorem carried_of_not_live (h : s.fsm.state.live = false) : s.Carried := by
  intro hlive
  rw [h] at hlive
  cases hlive

theorem carried_of_closed (h : s.Closed) : s.Carried := by
  intro _ c hc
  rw [h.1] at hc
  cases hc

theorem carried_tame {s' : Session} (h : Tame s s') (hlive : s'.fsm.state.live = s.fsm.state.live)
    (hs : s.Carried) : s'.Carried := by
  intro hl c hc
  rw [h.opened]
  exact hs (hlive ▸ hl) c (h.transport_eq hc)

theorem carried_process (input : FsmInput) (hs : s.Carried) : (s.process now input).1.Carried := by
  cases s.fsm.move input with
  | stays hlive _ hquiet =>
    refine carried_tame (tame_process fun o ho => .inl (hquiet o ho)) ?_ hs
    rw [process_fsm, hlive]
  | initiates _ hafter _ =>
    apply carried_of_not_live
    rw [process_fsm, hafter]
    rfl
  | opens _ _ _ hprocess =>
    have hg := process_opens now hprocess
    -- the OPEN goes to the connection there is, or there is none afterwards
    cases ht : s.transport with
    | none =>
      intro _ c hc
      rw [(hg.absent ht).2.1] at hc
      cases hc
    | some d =>
      cases ho : s.next_outcome with
      | true =>
        intro _ c hc
        obtain ⟨-, htransport, hopened, -⟩ := hg.done ht ho
        rw [htransport] at hc
        rw [hopened, hc]
      | false =>
        apply carried_of_closed
        exact (hg.failed (by rw [ht]; simp) ho).2
  | closes _ hclose hquiet => exact carried_of_closed (closed_of_process hquiet hclose)
  | gives_up _ _ hafter _ =>
    apply carried_of_not_live
    rw [process_fsm, hafter]
    rfl

theorem carried_handle (input : FsmInput) (hs : s.Carried) : (s.handle now input).Carried :=
  handle_keeps (fun _ ht => ht) (fun _ _ _ => carried_process now input hs)
    fun _ ht => carried_process now .TcpFailed ht

theorem carried_adopt (candidate : CollisionCandidate) (open_msg : OpenMessage)
    (hs : s.fsm.state ≠ .OpenSent) : (s.adopt now candidate open_msg).Carried := by
  have hinstalled : ((s.displace now).install candidate).Carried :=
    carried_of_not_live (displace_spec now hs).live
  exact carried_process now _ (carried_process now _ hinstalled)

theorem carried_resolve (hs : s.Carried) : (s.try_resolve_pending_candidate now).Carried := by
  rcases resolve_cases s now with ⟨-, heq | heq⟩ | ⟨candidate, open_msg, hadopted, heq⟩
  · rw [heq]
    exact hs
  · rw [heq]
    exact hs
  · have hstate := state_of_adopted hadopted
    rw [heq]
    exact carried_adopt now candidate open_msg hstate

theorem carried_wait {now : ℕ} {ready : Ready} (outcomes : List Bool) (hphase : s.phase = .Waiting)
    (hok : s.overtakes (.task now outcomes ready) = false) (hs : s.Carried) :
    (s.wait_for_input now ready).Carried := by
  have hf := waitFrame s now ready
  have hkeeps : (s.wait_for_input now ready).transport = s.transport →
      (s.wait_for_input now ready).Carried := by
    intro htransport hlive c hc
    rw [hf.opened]
    exact hs (hf.state ▸ hlive) c (htransport ▸ hc)
  cases wait_move hphase now ready with
  | pends _ _ _ htransport _ _ => exact hkeeps htransport
  | stays _ _ htransport _ _ => exact hkeeps htransport
  | loses _ _ hclosed _ => exact carried_of_closed hclosed
  | fails _ _ _ _ htransport _ _ => exact hkeeps htransport
  | connects stream hready hpending _ hrunning _ _ _ =>
    apply carried_of_not_live
    rw [hf.state]
    subst hready
    simpa [overtakes, hphase, hpending, hrunning] using hok
  | accepts _ _ _ _ _ hlive _ _ _ =>
    apply carried_of_not_live
    rw [hf.state]
    exact hlive

theorem carried_step {e : Step} (hok : s.overtakes e = false) (hs : s.Carried) :
    (s.step e).Carried := by
  cases e with
  | enqueue update => exact hs
  | task now outcomes ready =>
    have hgiven : ({ s with outcomes := outcomes } : Session).Carried := hs
    cases hphase : s.phase with
    | Waiting =>
      rw [step_waiting now outcomes ready hphase]
      refine carried_wait outcomes ?_ ?_ hgiven
      · exact hphase
      · exact hok
    | Handling input =>
      rw [step_handling now outcomes ready hphase]
      exact carried_handle now input hgiven
    | Resolving =>
      rw [step_resolving now outcomes ready hphase]
      exact carried_resolve now hgiven

/-- **Every run** in which the connect task returns no connection in a live state: there the
connection in use is the one our OPEN was written to. -/
theorem connection_carried {s : Session} (hinit : s.Initial) {steps : List Step}
    (hrun : Machine.Guarded step (fun s e => s.overtakes e = false) s steps) :
    (s.run steps).Carried := by
  have hstart : s.Carried := by
    obtain ⟨config, rfl | ⟨transport, rfl⟩⟩ := hinit <;> exact carried_of_not_live rfl
  exact Machine.inv_of_guarded (fun s e hok hs => carried_step hok hs) hstart hrun

theorem peer_connects_first_carried :
    ((spawn plain_session).run peer_connects_first).fsm.state = .OpenSent ∧
      ((spawn plain_session).run peer_connects_first).transport = some ⟨2, .Inbound⟩ ∧
      ((spawn plain_session).run peer_connects_first).Carried := by
  refine ⟨by decide +kernel, by decide +kernel, connection_carried ⟨_, .inl rfl⟩ ?_⟩
  decide +kernel

/-- The connect task is still running, and returns a connection on which no OPEN is ever sent. -/
theorem connect_task_overtakes :
    let s := (spawn plain_session).run (peer_connects_first ++ round (.connected (some (stream 1))))
    (spawn plain_session).Initial ∧ s.phase = .Waiting ∧ s.fsm.state = .OpenSent ∧
      s.transport = some ⟨1, .Outbound⟩ ∧ opened s.sent = some ⟨2, .Inbound⟩ ∧ ¬ s.Carried := by
  have hstate : ((spawn plain_session).run
      (peer_connects_first ++ round (.connected (some (stream 1))))).fsm.state = .OpenSent := by
    decide +kernel
  have htransport : ((spawn plain_session).run
      (peer_connects_first ++ round (.connected (some (stream 1))))).transport
        = some ⟨1, .Outbound⟩ := by
    decide +kernel
  have hopened : opened ((spawn plain_session).run
      (peer_connects_first ++ round (.connected (some (stream 1))))).sent = some ⟨2, .Inbound⟩ := by
    decide +kernel
  refine ⟨⟨_, .inl rfl⟩, by decide +kernel, hstate, htransport, hopened, ?_⟩
  intro hcarried
  have hsame := hcarried (by rw [hstate]; rfl) _ htransport
  cases hsame

end Session

end Pathvector

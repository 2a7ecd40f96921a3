/-
# The connect-retry timer

A session that has no connection waits for its connect-retry timer. The state machine starts it
when it loses a connection and stops it when it has one; `Fsm.timing` says which inputs do which,
in the way `Fsm.move` does it for the connection. Some inputs take the state machine to rest with
no timer at all, and these are listed (`Fsm.abandons`): a stop, a NOTIFICATION the daemon wants
sent, a message that is out of place, a collision.

The session task adds that outputs after a failed write are not carried out, and that the timer is
cleared when it fires. `wait_retry` is what waiting can do to it.
-/
import Pathvector.Session.Steps

set_option autoImplicit false

namespace Pathvector

namespace Fsm

/-! ## What an input does to the timer -/

/-- What an input does to the timer. -/
inductive Timing (fsm : Fsm) (input : FsmInput) : Prop where
  /-- Nothing. -/
  | keeps (hlive : (fsm.process input).1.state.live = fsm.state.live)
      (hrest : (fsm.process input).1.state.resting = true →
        (fsm.process input).1.state = fsm.state)
      (hretry : ∀ o ∈ (fsm.process input).2, o.is_retry = false)
  /-- It is started. -/
  | starts (hlive : (fsm.process input).1.state.live = false) (d : ℕ)
      (hstart : .StartConnectRetryTimer d ∈ (fsm.process input).2)
      (hstop : .StopConnectRetryTimer ∉ (fsm.process input).2)
      (hsend : input.notifies = false → ∀ o ∈ (fsm.process input).2, o.is_send = false)
  /-- It is stopped, since there is a connection. -/
  | opens (hinput : input = .TcpConnected) (houtputs : fsm.process input = fsm.do_tcp_connected)
  /-- It is not started, though the state machine comes to rest. -/
  | abandons (hinput : fsm.abandons input = true)
      (hlive : (fsm.process input).1.state.live = false)
      (hstart : ∀ d, .StartConnectRetryTimer d ∉ (fsm.process input).2)

attribute [local simp] FsmState.live FsmState.resting FsmOutput.is_retry FsmOutput.is_send

/-- **Every input does one of these things to the timer.** -/
theorem timing (fsm : Fsm) (input : FsmInput) : fsm.Timing input := by
  cases fsm.turn input with
  | ignores _ hproc => apply Timing.keeps <;> simp [hproc]
  | initiates _ hlive hafter houtputs =>
    obtain ⟨d, h | h⟩ := houtputs <;> apply Timing.starts _ d <;> simp [hafter, h]
  | waits _ hs hproc | gives_up _ hs hproc =>
    apply Timing.starts _ CONNECT_RETRY_INTERVAL <;> simp [hproc]
  | opens hinput _ _ hproc => exact .opens hinput hproc
  | stops hinput _ hidle hproc =>
    subst hinput
    apply Timing.abandons <;> simp [hproc, hidle, abandons, do_stop_pre_open]
  | agrees o negotiated _ hs hproc =>
    apply Timing.keeps <;> simp only [hproc, hs, push_timer_actions] <;> try split
    all_goals simp
  | establishes info _ hs hproc =>
    apply Timing.keeps <;> simp only [hproc, hs] <;> try split
    all_goals simp
  | goes_on _ _ hafter houtputs _ =>
    exact .keeps (by rw [hafter]) (by simp [hafter]) fun o ho => (houtputs o ho).2.1
  | leaves h =>
    cases ha : fsm.abandons input with
    | true =>
      refine .abandons ha h.after fun d hd => ?_
      cases ha.symm.trans ((h.retry d).1 hd).1
    | false =>
      exact .starts h.after CONNECT_RETRY_INTERVAL ((h.retry _).2 ⟨ha, rfl⟩) h.stop (h.sends ha)

end Fsm

namespace Session

/-! ## Carrying it out -/

section

variable {now : ℕ} {s : Session} {os : List FsmOutput}

theorem retry_perform (s : Session) (now : ℕ) {o : FsmOutput} (ho : o.is_retry = false) :
    (s.perform now o).1.retry_deadline = s.retry_deadline := by
  cases o with
  | StartConnectRetryTimer d | StopConnectRetryTimer => cases ho
  | InitiateTcpConnect =>
    rcases s.perform_initiate now with ⟨t, -, h⟩ | ⟨-, ⟨-, h⟩ | ⟨-, h⟩⟩ <;> rw [h]
  | SendMessage msg =>
    rcases s.perform_send now msg with ⟨-, h⟩ | ⟨c, -, ⟨-, h⟩ | ⟨-, h⟩⟩ <;> rw [h]
    rfl
  | _ => rfl

theorem retry_execute_keeps (hos : ∀ o ∈ os, o.is_retry = false) :
    (execute now s os).1.retry_deadline = s.retry_deadline :=
  execute_relates (R := fun s s' => s'.retry_deadline = s.retry_deadline) (fun _ => rfl)
    (fun hst htu => htu.trans hst) (fun s o ho => retry_perform s now (hos o ho)) s

theorem retry_execute_none (hos : ∀ d, .StartConnectRetryTimer d ∉ os)
    (hs : s.retry_deadline = none) : (execute now s os).1.retry_deadline = none := by
  refine execute_keeps (P := fun s => s.retry_deadline = none) (fun s o ho hs => ?_) hs
  cases o with
  | StartConnectRetryTimer d => exact absurd ho (hos d)
  | StopConnectRetryTimer => rfl
  | _ =>
    rw [retry_perform s now rfl]
    exact hs

theorem retry_execute_armed (hos : .StopConnectRetryTimer ∉ os)
    (hs : s.retry_deadline ≠ none) : (execute now s os).1.retry_deadline ≠ none := by
  refine execute_keeps (P := fun s => s.retry_deadline ≠ none) (fun s o ho hs => ?_) hs
  cases o with
  | StartConnectRetryTimer d => exact Option.some_ne_none _
  | StopConnectRetryTimer => exact absurd ho hos
  | _ =>
    rw [retry_perform s now rfl]
    exact hs

/-- A batch that starts the timer has armed it, if it was carried out to its end. -/
theorem retry_execute_starts {d : ℕ} (hstart : .StartConnectRetryTimer d ∈ os)
    (hstop : .StopConnectRetryTimer ∉ os) (hok : (execute now s os).2.2 = true) :
    (execute now s os).1.retry_deadline ≠ none := by
  fun_induction execute now s os with
  | case1 s => cases hstart
  | case2 s o os r h rest ih =>
    have hstop' : .StopConnectRetryTimer ∉ os := fun hmem => hstop (List.mem_cons_of_mem _ hmem)
    rcases List.mem_cons.1 hstart with rfl | hmem
    · exact retry_execute_armed hstop' (Option.some_ne_none _)
    · exact ih hmem hstop' hok
  | case3 s o os r h => cases hok

end

/-- A state machine that relies on a connection has no timer to make another. -/
def Unarmed (s : Session) : Prop := s.fsm.state.live = true → s.retry_deadline = none

theorem unarmed_process {s : Session} (now : ℕ) (input : FsmInput) (hs : s.Unarmed) :
    (s.process now input).1.Unarmed := by
  intro hlive
  rw [process_fsm] at hlive
  cases s.fsm.timing input with
  | keeps hlive' hrest hretry =>
    rw [hlive'] at hlive
    exact (retry_execute_keeps hretry).trans (hs hlive)
  | starts hlive' =>
    rw [hlive'] at hlive
    cases hlive
  | opens hinput houtputs =>
    -- the timer is stopped before the OPEN is written
    have hrest : ∀ d, .StartConnectRetryTimer d ∉
        [FsmOutput.SendMessage (.Open s.fsm.make_open), .StartHoldTimer OPEN_HOLD_TIMER] := by
      simp
    unfold process
    rw [houtputs, Fsm.do_tcp_connected]
    dsimp only
    rw [execute_cons_of_ok _ rfl]
    exact retry_execute_none hrest rfl
  | abandons hinput hlive' =>
    rw [hlive'] at hlive
    cases hlive

/-! ## Messages that are no OPEN -/

/-- Something may have been written since, but no OPEN. -/
def NoOpen (s s' : Session) : Prop :=
  ∃ sent, s'.sent = s.sent ++ sent ∧ ∀ m ∈ sent, m.2.is_open = false

namespace NoOpen

variable {s s' s'' : Session}

theorem of_eq (h : s'.sent = s.sent) : NoOpen s s' := ⟨[], by rw [h, List.append_nil], nofun⟩

theorem trans (h : NoOpen s s') (h' : NoOpen s' s'') : NoOpen s s'' := by
  obtain ⟨sent, hsent, hopen⟩ := h
  obtain ⟨sent', hsent', hopen'⟩ := h'
  refine ⟨sent ++ sent', ?_, List.forall_mem_append.2 ⟨hopen, hopen'⟩⟩
  rw [hsent', hsent, List.append_assoc]

theorem send (s : Session) (c : Connection) {msg : BgpMessage} (hmsg : msg.is_open = false) :
    NoOpen s (s.send c msg).1 := by
  unfold Session.send
  split
  · exact ⟨[(c, msg)], rfl, by simpa using hmsg⟩
  · exact of_eq rfl

end NoOpen

theorem noOpen_perform (s : Session) (now : ℕ) {o : FsmOutput}
    (ho : o.quiet = true ∨ o = .CloseTcpConnection) : NoOpen s (s.perform now o).1 := by
  cases o with
  | InitiateTcpConnect => simp [FsmOutput.quiet] at ho
  | SendMessage msg =>
    have hmsg : msg.is_open = false := by
      cases msg with
      | Open open_msg => simp [FsmOutput.quiet] at ho
      | _ => rfl
    unfold perform
    dsimp only
    split
    · exact .of_eq rfl
    · split
      · exact .send s _ hmsg
      · exact (NoOpen.send s _ hmsg).trans (.of_eq rfl)
  | _ => exact .of_eq rfl

theorem noOpen_execute {now : ℕ} {os : List FsmOutput} (s : Session)
    (hos : ∀ o ∈ os, o.quiet = true ∨ o = .CloseTcpConnection) : NoOpen s (execute now s os).1 :=
  execute_relates (fun _ => .of_eq rfl) .trans (fun s o ho => noOpen_perform s now (hos o ho)) s

/-! ## Waiting -/

/-- The timer is as it was and has not fired, and no OPEN has been sent. -/
structure Undisturbed (s s' : Session) : Prop where
  retry : s'.retry_deadline = s.retry_deadline
  sent : NoOpen s s'
  phase : s'.phase = .Handling .ConnectRetryTimerExpired →
    s.pending_input = some .ConnectRetryTimerExpired

namespace Undisturbed

variable {s s' : Session}

theorem of_eq (hretry : s'.retry_deadline = s.retry_deadline) (hsent : s'.sent = s.sent)
    (hphase : s'.phase ≠ .Handling .ConnectRetryTimerExpired) : Undisturbed s s' :=
  ⟨hretry, .of_eq hsent, fun h => absurd h hphase⟩

theorem lose_connection (h : Undisturbed s s') : Undisturbed s s'.lose_connection :=
  ⟨h.retry, h.sent, nofun⟩

theorem send (h : Undisturbed s s') (c : Connection) {msg : BgpMessage}
    (hmsg : msg.is_open = false) : Undisturbed s (s'.send c msg).1 := by
  have hsent := h.sent.trans (.send s' c hmsg)
  revert hsent
  unfold Session.send
  split <;> intro hsent <;> exact ⟨h.retry, hsent, h.phase⟩

theorem write (h : Undisturbed s s') (c : Connection) {msg : BgpMessage}
    (hmsg : msg.is_open = false) : Undisturbed s (s'.write c msg) := by
  unfold Session.write
  dsimp only
  split
  · exact h.send c hmsg
  · exact (h.send c hmsg).lose_connection

end Undisturbed

/-- **While the task waits, the timer is left alone or fires.** -/
theorem wait_retry {s : Session} (hwait : s.phase = .Waiting) (now : ℕ) (ready : Ready) :
    Undisturbed s (s.wait_for_input now ready) ∨
      s.retry_deadline ≠ none ∧ s.wait_for_input now ready
        = ({ s with retry_deadline := none }).returning .ConnectRetryTimerExpired := by
  have hnoted : ∀ {t : Session}, t.retry_deadline = s.retry_deadline → t.sent = s.sent →
      t.phase = .Waiting → Undisturbed s t := fun hretry hsent hphase =>
    .of_eq hretry hsent (by rw [hphase]; nofun)
  have hself : Undisturbed s s := hnoted rfl rfl hwait
  rcases Option.eq_none_or_eq_some s.pending_input with hp | ⟨input, hp⟩
  · generalize hs' : s.wait_for_input now ready = s'
    cases hs' ▸ waited hp now ready with
    | retries harmed => exact .inr ⟨harmed, rfl⟩
    | idles => exact .inl hself
    | returns _ _ _ hinput hretry =>
      exact .inl (.of_eq rfl rfl fun h => hretry (Phase.Handling.inj h))
    | connects result => cases result <;> exact .inl (.of_eq rfl rfl nofun)
    | loses => exact .inl hself.lose_connection
    | gives_up ready c => exact .inl (hself.send c rfl).lose_connection
    | accepts | hears => exact .inl (.of_eq rfl rfl nofun)
    | stages | drops | learns | reports => exact .inl (hnoted rfl rfl hwait)
    | refuses ready c =>
      have hdrop : Undisturbed s s.drop_candidate := hnoted rfl rfl hwait
      exact .inl (hdrop.send c rfl)
    | writes ready c => exact .inl (hself.write c rfl)
    | forwards u rest =>
      cases s.transport with
      | none => exact .inl (hnoted rfl rfl hwait)
      | some c =>
        refine .inl ?_
        apply Undisturbed.write
        · exact hnoted rfl rfl hwait
        · rfl
  · rw [wait_pending hp]
    refine .inl ⟨rfl, .of_eq rfl, fun hphase => ?_⟩
    rw [hp]
    exact congrArg some (Phase.Handling.inj hphase)

end Session

end Pathvector

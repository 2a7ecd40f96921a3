/-
# Is the end of every session reported?

When the state machine leaves `Established` it asks for the event that says so and for its timers,
along with the last message to the peer. `execute` gives up at the first write that fails, and then
feeds `TcpFailed` to a state machine that is in `Idle` by now and ignores it. So if the last message
cannot be written, the rest of its batch is lost (`swallows`). `terminations_kept_iff` says that
this is the only way to lose it.
-/
import Pathvector.Lib.Run
import Pathvector.Session.Steps

set_option autoImplicit false

namespace Pathvector

namespace Fsm

/-- A batch with one write, and only timers before it. -/
def WritesOnce (outputs : List FsmOutput) : Prop :=
  ∃ before msg after, outputs = before ++ .SendMessage msg :: after ∧
    (∀ o ∈ before, o.is_timer = true) ∧ ∀ o ∈ after, o.is_send = false

theorem outputs_of_leaving {fsm : Fsm} {input : FsmInput} (hs : fsm.state = .Established)
    (hleft : (fsm.process input).1.state ≠ .Established) :
    if fsm.ends_with_message input = true then WritesOnce (fsm.process input).2
    else ∀ o ∈ (fsm.process input).2, o.is_send = false := by
  have hproc : fsm.process input = fsm.on_established input := by rw [process, hs]
  rw [hproc] at hleft ⊢
  cases input with
  | MessageReceived msg => cases msg with
    | Keepalive | Update update => exact absurd hs hleft
    | RouteRefresh rr =>
      by_cases hneg : fsm.refreshes = true
      · have hsame : (fsm.on_established (.MessageReceived (.RouteRefresh rr))).1 = fsm := by
          rw [on_established_refresh, if_pos hneg]
        rw [hsame] at hleft
        exact absurd hs hleft
      · rw [if_pos (by simp only [ends_with_message, Bool.eq_false_iff.2 hneg, Bool.not_false])]
        rw [on_established_refresh, if_neg hneg]
        exact ⟨[], _, _, rfl, List.forall_mem_nil _, by simp [FsmOutput.is_send]⟩
    | Notification n => simp [ends_with_message, on_established, FsmOutput.is_send]
    | _ => exact ⟨[], _, _, rfl, List.forall_mem_nil _, by simp [FsmOutput.is_send]⟩
  | HoldTimerExpired => exact ⟨[], _, _, rfl, List.forall_mem_nil _, by simp [FsmOutput.is_send]⟩
  | ManualStop | NotificationToSend msg | ProtocolErrorNotificationToSend msg =>
    exact ⟨[.StopHoldTimer, .StopKeepaliveTimer], _, _, rfl, by simp [FsmOutput.is_timer],
      by simp [FsmOutput.is_send]⟩
  | TcpFailed | CollisionDetected => simp [ends_with_message, on_established, FsmOutput.is_send]
  | ManualStart | ConnectRetryTimerExpired | KeepaliveTimerExpired | TcpConnected =>
    exact absurd hs hleft

theorem leaves_of_ends {fsm : Fsm} {input : FsmInput} (hs : fsm.state = .Established)
    (h : fsm.ends_with_message input = true) : (fsm.process input).1.state ≠ .Established := by
  have hproc : fsm.process input = fsm.on_established input := by rw [process, hs]
  rw [hproc]
  cases input with
  | MessageReceived msg => cases msg with
    | Keepalive | Update update | Notification n => cases h
    | RouteRefresh rr =>
      have hneg := Bool.eq_false_of_not_eq_true' h
      rw [on_established_refresh, if_neg (by rw [hneg]; exact Bool.false_ne_true)]
      simp [reset_established, to_idle]
    | _ => simp [on_established, reset_established, to_idle]
  | HoldTimerExpired | ManualStop | NotificationToSend msg | ProtocolErrorNotificationToSend msg =>
    simp [on_established, to_idle]
  | _ => cases h

/-- Nothing is written when the connection is gone, nor when a live session is displaced. -/
theorem no_send_tcp_failed (fsm : Fsm) : ∀ o ∈ (fsm.process .TcpFailed).2, o.is_send = false := by
  unfold process
  cases fsm.state <;>
    simp [on_idle, on_connect, on_active, on_open_sent, on_open_confirm, on_established,
      FsmOutput.is_send]

theorem no_send_displaced {fsm : Fsm} (hs : fsm.state = .Established) :
    ∀ o ∈ (fsm.process .CollisionDetected).2, o.is_send = false := by
  unfold process
  rw [hs]
  simp [on_established, FsmOutput.is_send]

end Fsm

namespace Session

variable (s : Session) (now : ℕ) {input : FsmInput} {executed : List FsmOutput} {o : FsmOutput}

/-- A batch that ends a session has reported it once, and has set its timers. -/
def Kept (b : Batch) : Prop :=
  b.executed.count .SessionTerminated = 1 ∧
    b.executed.filter FsmOutput.is_timer = b.outputs.filter FsmOutput.is_timer

/-- Every end of a session is reported once, with its timers; and the event channel holds what
the batches have reported. -/
structure TerminationsKept (s : Session) : Prop where
  channel : event_marks s.events = s.batches.flatMap fun b => marks b.executed
  leaving : ∀ b ∈ s.batches, b.before = .Established → b.after ≠ .Established → Kept b

/-- The session ends with a message to the peer that cannot be written. -/
def swallows (s : Session) : Step → Bool
  | .enqueue _ => false
  | .task _ outcomes _ =>
    match s.phase with
    | .Handling input =>
      s.fsm.state == .Established && s.fsm.ends_with_message input && s.transport.isSome
        && !outcomes.headD true
    | _ => false

/-! ## One batch -/

theorem perform_timer (ho : o.is_timer = true) :
    (s.perform now o).2 = true ∧ (s.perform now o).1.transport = s.transport ∧
      (s.perform now o).1.next_outcome = s.next_outcome := by
  cases o with
  | InitiateTcpConnect | CloseTcpConnection | SendMessage msg | SessionEstablished info
    | SessionTerminated | RouteUpdate update => cases ho
  | _ => exact ⟨rfl, rfl, rfl⟩

theorem execute_writesOnce {outputs : List FsmOutput} (h : Fsm.WritesOnce outputs) :
    (execute now s outputs).2.2 = (s.transport.isNone || s.next_outcome) := by
  obtain ⟨before, msg, after, rfl, hbefore, hafter⟩ := h
  induction before generalizing s with
  | nil =>
    rw [List.nil_append]
    cases hp : (s.perform now (.SendMessage msg)).2 with
    | true =>
      rw [execute_cons_of_ok _ hp]
      rw [execute_ok_of_no_send hafter]
      revert hp
      cases ht : s.transport <;> cases ho : s.next_outcome <;> simp [perform, send, ht, ho]
    | false =>
      rw [execute_cons_of_failed _ hp]
      revert hp
      cases ht : s.transport <;> cases ho : s.next_outcome <;> simp [perform, send, ht, ho]
  | cons o before ih =>
    obtain ⟨ho, hbefore⟩ := List.forall_mem_cons.1 hbefore
    obtain ⟨hok, htransport, hnext⟩ := perform_timer s now ho
    rw [List.cons_append, execute_cons_of_ok _ hok]
    rw [ih _ hbefore, htransport, hnext]

theorem not_terminated_of_part {rest : List FsmOutput} (ho : o.is_send = true)
    (h : Fsm.WritesOnce (executed ++ o :: rest)) : .SessionTerminated ∉ executed := by
  obtain ⟨before, msg, after, heq, hbefore, hafter⟩ := h
  intro hmem
  rcases List.append_eq_append_iff.1 heq with ⟨l, hl, -⟩ | ⟨l, hl, hrest⟩
  · -- the part ends before the write, among the timers
    have ht := hbefore .SessionTerminated (by rw [hl]; exact List.mem_append_left _ hmem)
    cases ht
  · cases l with
    | nil =>
      rw [List.append_nil] at hl
      have ht := hbefore .SessionTerminated (hl ▸ hmem)
      cases ht
    | cons p l =>
      -- a second write would have to follow the first
      have hmem' : o ∈ after := by
        have htail := (List.cons.inj hrest).2
        rw [htail]
        simp
      rw [hafter o hmem'] at ho
      cases ho

/-- In a batch that ends a session: all of it is carried out, or its end is not reported. -/
theorem kept_of_leaving {s : Session} {now : ℕ} (hs : s.fsm.state = .Established)
    (hleft : (s.fsm.process input).1.state ≠ .Established)
    (hexecuted : (s.process now input).2 = true ∧ executed = (s.fsm.process input).2 ∨
      (s.process now input).2 = false ∧ ∃ o rest, o.is_send = true ∧
        (s.fsm.process input).2 = executed ++ o :: rest) :
    Kept ⟨s.fsm.state, (s.fsm.process input).1.state, (s.fsm.process input).2, executed⟩ ↔
      (s.process now input).2 = true := by
  have houtputs := Fsm.outputs_of_leaving hs hleft
  rcases hexecuted with ⟨hok, hall⟩ | ⟨hfailed, o, rest, ho, hpart⟩
  · refine iff_of_true ⟨?_, by rw [hall]⟩ hok
    have hmarks := Fsm.marks_process s.fsm input
    rw [if_pos hs, if_neg hleft] at hmarks
    rw [hall, Fsm.count_eq_count_marks, hmarks]
    rfl
  · refine iff_of_false ?_ (by rw [hfailed]; exact Bool.false_ne_true)
    intro hkept
    split at houtputs
    · rw [hpart] at houtputs
      apply not_terminated_of_part ho houtputs
      exact List.count_pos_iff.1 (by rw [hkept.1]; exact Nat.one_pos)
    · have hmem : o ∈ (s.fsm.process input).2 := by
        rw [hpart]
        simp
      rw [houtputs o hmem] at ho
      cases ho

theorem kept_process (input : FsmInput) :
    (s.process now input).1.TerminationsKept ↔ s.TerminationsKept ∧
      (s.fsm.state = .Established → (s.fsm.process input).1.state ≠ .Established →
        (s.process now input).2 = true) := by
  obtain ⟨executed, hbatches, hevents, hexecuted⟩ := process_report s now input
  have hchannel : event_marks (s.process now input).1.events
        = (s.process now input).1.batches.flatMap (fun b => marks b.executed) ↔
      event_marks s.events = s.batches.flatMap fun b => marks b.executed := by
    rw [hbatches, hevents, List.flatMap_append]
    simp
  have hnew : (∀ b ∈ (s.process now input).1.batches, b.before = .Established →
        b.after ≠ .Established → Kept b) ↔
      (∀ b ∈ s.batches, b.before = .Established → b.after ≠ .Established → Kept b) ∧
        (s.fsm.state = .Established → (s.fsm.process input).1.state ≠ .Established →
          (s.process now input).2 = true) := by
    rw [hbatches, List.forall_mem_append]
    refine and_congr_right fun _ => ?_
    constructor
    · intro h hs hleft
      exact (kept_of_leaving hs hleft hexecuted).1 (h _ (List.mem_singleton.2 rfl) hs hleft)
    · intro h b hb hs hleft
      rw [List.mem_singleton.1 hb] at hs hleft ⊢
      exact (kept_of_leaving hs hleft hexecuted).2 (h hs hleft)
  constructor
  · intro h
    exact ⟨⟨hchannel.1 h.channel, (hnew.1 h.leaving).1⟩, (hnew.1 h.leaving).2⟩
  · rintro ⟨h, hok⟩
    exact ⟨hchannel.2 h.channel, hnew.2 ⟨h.leaving, hok⟩⟩

/-- Outside `Established` no session can end. -/
theorem kept_process_of_not_established {s : Session} (input : FsmInput)
    (hs : s.fsm.state ≠ .Established) :
    (s.process now input).1.TerminationsKept ↔ s.TerminationsKept := by
  rw [kept_process]
  exact and_iff_left fun h => absurd h hs

theorem kept_process_of_no_send {s : Session}
    (h : ∀ o ∈ (s.fsm.process input).2, o.is_send = false) :
    (s.process now input).1.TerminationsKept ↔ s.TerminationsKept := by
  rw [kept_process]
  have hok : (s.process now input).2 = true := execute_ok_of_no_send h
  exact and_iff_left fun _ _ => hok

theorem kept_congr {s s' : Session} (hevents : event_marks s'.events = event_marks s.events)
    (hbatches : s'.batches = s.batches) : s'.TerminationsKept ↔ s.TerminationsKept := by
  constructor
  · intro h
    have hchannel := h.channel
    have hleaving := h.leaving
    rw [hevents, hbatches] at hchannel
    rw [hbatches] at hleaving
    exact ⟨hchannel, hleaving⟩
  · intro h
    refine ⟨?_, ?_⟩
    · rw [hevents, hbatches]
      exact h.channel
    · rw [hbatches]
      exact h.leaving

/-! ## The phases -/

theorem process_ok_iff {s : Session} (hs : s.fsm.state = .Established)
    (hleft : (s.fsm.process input).1.state ≠ .Established) :
    (s.process now input).2 = true ↔
      (s.fsm.ends_with_message input && s.transport.isSome && !s.next_outcome) = false := by
  have houtputs := Fsm.outputs_of_leaving hs hleft
  split at houtputs
  next hends =>
    have hok : (s.process now input).2 = (s.transport.isNone || s.next_outcome) :=
      execute_writesOnce _ now houtputs
    rw [hok, hends]
    cases s.transport <;> cases s.next_outcome <;> simp
  next hends =>
    have hok : (s.process now input).2 = true := execute_ok_of_no_send houtputs
    rw [hok, Bool.eq_false_iff.2 hends]
    simp

theorem kept_handle (hphase : s.phase = .Handling input) (ready : Ready) :
    (s.handle now input).TerminationsKept ↔
      s.TerminationsKept ∧ s.swallows (.task now s.outcomes ready) = false := by
  have hprepare : (s.prepare input).fsm = s.fsm ∧ (s.prepare input).transport = s.transport ∧
      (s.prepare input).next_outcome = s.next_outcome ∧
      ((s.prepare input).TerminationsKept ↔ s.TerminationsKept) := by
    unfold prepare
    dsimp only
    split <;> split <;> exact ⟨rfl, rfl, rfl, kept_congr rfl rfl⟩
  obtain ⟨hfsm, htransport, hnext, hkept⟩ := hprepare
  -- the recovery from a failed write adds nothing to lose
  have hfirst : (s.handle now input).TerminationsKept ↔
      ((s.prepare input).process now input).1.TerminationsKept := by
    unfold handle
    dsimp only
    split
    · exact kept_congr rfl rfl
    · have hrecovery := kept_process_of_no_send (s := ((s.prepare input).process now input).1) now
        (Fsm.no_send_tcp_failed _)
      rw [← hrecovery]
      exact kept_congr rfl rfl
  rw [hfirst, kept_process, hkept]
  refine and_congr_right fun _ => ?_
  simp only [swallows, hphase]
  by_cases hs : s.fsm.state = .Established
  · by_cases hleft : (s.fsm.process input).1.state = .Established
    · have hends : s.fsm.ends_with_message input = false := by
        apply Bool.eq_false_iff.2
        intro hends
        exact Fsm.leaves_of_ends hs hends hleft
      rw [hfsm, hends]
      simp [hleft]
    · have hok := process_ok_iff (s := s.prepare input) now (by rw [hfsm]; exact hs)
        (by rw [hfsm]; exact hleft)
      rw [hfsm, htransport, hnext] at hok
      rw [hfsm]
      simp only [hs, hleft, hok, next_outcome, beq_self_eq_true, Bool.true_and, ne_eq,
        not_false_eq_true, true_implies]
  · rw [hfsm]
    simp [hs]

theorem kept_adopt {s : Session} (candidate : CollisionCandidate) (open_msg : OpenMessage)
    (hstate : s.fsm.state ≠ .OpenSent) :
    (s.adopt now candidate open_msg).TerminationsKept ↔ s.TerminationsKept := by
  have hd := displace_spec now hstate
  have hdisplace : (s.displace now).TerminationsKept ↔ s.TerminationsKept := by
    unfold displace
    split
    next hconf =>
      exact kept_process_of_not_established now _ (by rw [hconf]; simp)
    next hest =>
      exact (kept_process_of_no_send (s := { s with termination_reason := .Unclean }) now
        (Fsm.no_send_displaced hest)).trans (kept_congr rfl rfl)
    · exact Iff.rfl
  have hplace : ((s.displace now).install candidate).TerminationsKept ↔ s.TerminationsKept := by
    rw [← hdisplace]
    exact kept_congr rfl rfl
  have hdown : ((s.displace now).install candidate).fsm.state.live = false := hd.live
  have hfirst : ((s.displace now).install candidate).fsm.state ≠ .Established := by
    intro hest
    rw [hest] at hdown
    cases hdown
  have hsecond : (((s.displace now).install candidate).process now .TcpConnected).1.fsm.state
      ≠ .Established := by
    intro hest
    cases Fsm.keepalive_of_established hfirst ((process_fsm ..) ▸ hest)
  unfold adopt
  rw [kept_process_of_not_established now _ hsecond, kept_process_of_not_established now _ hfirst]
  exact hplace

theorem kept_resolve :
    ({ s.try_resolve_pending_candidate now with phase := .Waiting } : Session).TerminationsKept ↔
      s.TerminationsKept := by
  rcases resolve_cases s now with ⟨-, heq | heq⟩ | ⟨candidate, open_msg, hadopted, heq⟩
  · rw [heq]
    exact kept_congr rfl rfl
  · rw [heq]
    exact kept_congr rfl rfl
  · have hstate := state_of_adopted hadopted
    have hadopt := kept_adopt (s := { s with pending_collision_candidate := none }) now candidate
      open_msg hstate
    have hdropped : ({ s with pending_collision_candidate := none } : Session).TerminationsKept ↔
        s.TerminationsKept := kept_congr rfl rfl
    rw [heq, ← hdropped, ← hadopt]
    exact kept_congr rfl rfl

theorem kept_step (e : Step) :
    (s.step e).TerminationsKept ↔ s.TerminationsKept ∧ s.swallows e = false := by
  cases e with
  | enqueue update =>
    rw [and_iff_left (show s.swallows (.enqueue update) = false from rfl)]
    exact kept_congr rfl rfl
  | task now outcomes ready =>
    have hgiven : ({ s with outcomes := outcomes } : Session).TerminationsKept ↔
        s.TerminationsKept := kept_congr rfl rfl
    cases hphase : s.phase with
    | Waiting =>
      rw [step_waiting now outcomes ready hphase]
      have hf := waitFrame { s with outcomes := outcomes } now ready
      rw [kept_congr hf.event_marks hf.batches, hgiven]
      simp [swallows, hphase]
    | Handling input =>
      rw [step_handling now outcomes ready hphase]
      rw [kept_handle { s with outcomes := outcomes } now hphase ready, hgiven]
      exact Iff.rfl
    | Resolving =>
      rw [step_resolving now outcomes ready hphase]
      rw [kept_resolve, hgiven]
      simp [swallows, hphase]

/-! ## Whole runs -/

/-- **Every run**: the ends of sessions are reported, each once and with its timers, just if none
of them has come with a message that could not be written. -/
theorem terminations_kept_iff {s : Session} (hinit : s.Initial) (steps : List Step) :
    (s.run steps).TerminationsKept ↔
      Machine.Guarded step (fun s e => s.swallows e = false) s steps := by
  have hstart : s.TerminationsKept := by
    obtain ⟨config, rfl | ⟨transport, rfl⟩⟩ := hinit <;> exact ⟨rfl, nofun⟩
  exact (Machine.iff_guarded kept_step).trans (and_iff_right hstart)

/-- The hold timer expires, and the message that says so is written or not. -/
def hold_expires (written : Bool) : List Step :=
  [.task 1000 [] .hold, .task 1000 [written] .update, .task 1000 [] .update]

theorem hold_expires_kept :
    ((spawn plain_session).run (session_up ++ hold_expires true)).TerminationsKept ∧
      event_marks ((spawn plain_session).run (session_up ++ hold_expires true)).events
        = [true, false] := by
  refine ⟨(terminations_kept_iff ⟨_, .inl rfl⟩ _).2 ?_, ?_⟩ <;> decide +kernel

/-- If it is not written, the state machine is in `Idle`, no retry is scheduled, and nobody is
told. -/
theorem hold_expires_swallowed :
    let s := (spawn plain_session).run (session_up ++ hold_expires false)
    (spawn plain_session).Initial ∧ s.phase = .Waiting ∧ s.fsm.state = .Idle ∧
      event_marks s.events = [true] ∧ s.retry_deadline = none ∧ ¬ s.TerminationsKept := by
  refine ⟨⟨_, .inl rfl⟩, by decide +kernel, by decide +kernel, by decide +kernel,
    by decide +kernel, ?_⟩
  intro hkept
  have hlast : (⟨.Established, .Idle, [Fsm.notify .HoldTimerExpired, .StopKeepaliveTimer,
      .CloseTcpConnection, .SessionTerminated, .StartConnectRetryTimer CONNECT_RETRY_INTERVAL],
      []⟩ : Batch) ∈
      ((spawn plain_session).run (session_up ++ hold_expires false)).batches := by
    decide +kernel
  have hcount := (hkept.leaving _ hlast rfl (by simp)).1
  cases hcount

end Session

end Pathvector

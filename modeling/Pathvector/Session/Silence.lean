/-
# Stop means stop

After a Stop the session is to make no connection and send no OPEN until it is started again. In
five of the six states it does: a stop takes the state machine to `Idle` with the connect-retry
timer off, and from there nothing but a start or that timer leads anywhere. Connections that
arrive, results of a connect task and candidates are ignored there (`Halted`).

The sixth state is `Idle` itself. It ignores a stop, and it is also the state in which a session
waits for the timer after a lost connection. A stop that arrives then does not disarm the timer,
which goes on to make a new connection. `silent_after_stop_iff` says that this is the only way.
-/
import Pathvector.Lib.Run
import Pathvector.Session.Retry

set_option autoImplicit false

namespace Pathvector

namespace Fsm

/-- `Idle` ignores all but two inputs. -/
theorem process_of_idle {fsm : Fsm} {input : FsmInput} (hs : fsm.state = .Idle)
    (hstart : input ≠ .ManualStart) (hretry : input ≠ .ConnectRetryTimerExpired) :
    fsm.process input = (fsm, []) := by
  rw [process, hs]
  cases input with
  | ManualStart => exact absurd rfl hstart
  | ConnectRetryTimerExpired => exact absurd rfl hretry
  | _ => rfl

/-- A stop leads to `Idle`. -/
theorem state_manual_stop (fsm : Fsm) : (fsm.process .ManualStop).1.state = .Idle := by
  unfold process
  cases hs : fsm.state with
  | Idle => exact hs
  | _ => rfl

theorem quiet_manual_stop (fsm : Fsm) :
    ∀ o ∈ (fsm.process .ManualStop).2, o.quiet = true ∨ o = .CloseTcpConnection := by
  unfold process
  cases fsm.state <;>
    simp [on_idle, on_connect, on_active, on_open_sent, on_open_confirm, on_established,
      do_stop_pre_open, notify, FsmOutput.quiet]

theorem no_retry_manual_stop (fsm : Fsm) :
    ∀ d, .StartConnectRetryTimer d ∉ (fsm.process .ManualStop).2 := by
  unfold process
  cases fsm.state <;>
    simp [on_idle, on_connect, on_active, on_open_sent, on_open_confirm, on_established,
      do_stop_pre_open, notify]

end Fsm

namespace Session

variable (now : ℕ) {input : FsmInput}

/-! ## Silence -/

/-- Since `s`, no connection was asked for and no OPEN was sent. -/
structure SilentSince (s s' : Session) : Prop where
  batches : ∃ batches, s'.batches = s.batches ++ batches ∧
    ∀ b ∈ batches, .InitiateTcpConnect ∉ b.executed
  sent : NoOpen s s'

namespace SilentSince

variable {s s' s'' : Session}

theorem of_batches (hbatches : s'.batches = s.batches) (hsent : NoOpen s s') : SilentSince s s' :=
  ⟨⟨[], by rw [hbatches, List.append_nil], nofun⟩, hsent⟩

theorem trans (h : SilentSince s s') (h' : SilentSince s' s'') : SilentSince s s'' := by
  obtain ⟨bs, hbs, hsilent⟩ := h.batches
  obtain ⟨bs', hbs', hsilent'⟩ := h'.batches
  refine ⟨⟨bs ++ bs', ?_, List.forall_mem_append.2 ⟨hsilent, hsilent'⟩⟩, h.sent.trans h'.sent⟩
  rw [hbs', hbs, List.append_assoc]

theorem drop_batches (h : SilentSince s s') :
    ∀ b ∈ s'.batches.drop s.batches.length, .InitiateTcpConnect ∉ b.executed := by
  obtain ⟨bs, hbs, hsilent⟩ := h.batches
  rw [hbs, List.drop_left]
  exact hsilent

end SilentSince

theorem silent_process {s : Session} {now : ℕ}
    (h : ∀ o ∈ (s.fsm.process input).2, o.quiet = true ∨ o = .CloseTcpConnection) :
    SilentSince s (s.process now input).1 := by
  refine ⟨?_, noOpen_execute { s with fsm := (s.fsm.process input).1 } h⟩
  obtain ⟨executed, hbatches, -, hpart⟩ := s.process_report now input
  have hsub : ∀ o ∈ executed, o ∈ (s.fsm.process input).2 := by
    rcases hpart with ⟨-, rfl⟩ | ⟨-, o, rest, -, hall⟩
    · exact fun o ho => ho
    · intro o' ho'
      rw [hall]
      exact List.mem_append_left _ ho'
  refine ⟨_, hbatches, ?_⟩
  simp only [List.mem_singleton, forall_eq]
  intro hmem
  rcases h _ (hsub _ hmem) with hquiet | hclose
  · cases hquiet
  · cases hclose

theorem process_ignored {s : Session} (h : s.fsm.process input = (s.fsm, [])) :
    s.process now input
      = ({ s with batches := s.batches ++ [⟨s.fsm.state, s.fsm.state, [], []⟩] }, true) := by
  unfold process
  rw [h]
  rfl

/-! ## A halted session -/

/-- The session is at rest, and nothing will wake it but a start. -/
structure Halted (s : Session) : Prop where
  state : s.fsm.state = .Idle
  retry : s.retry_deadline = none
  pending : s.pending_input = none
  phase : s.phase ≠ .Handling .ConnectRetryTimerExpired

/-- No start is being carried out. -/
def NotStarting (s : Session) : Step → Prop
  | .enqueue _ => True
  | .task _ _ _ => s.phase ≠ .Handling .ManualStart

instance (s : Session) (e : Step) : Decidable (s.NotStarting e) := by
  induction e using Step.casesOn <;> dsimp only [NotStarting] <;> infer_instance

theorem process_halted {s : Session} (input : FsmInput) (hs : s.Halted)
    (hstart : input ≠ .ManualStart) (hretry : input ≠ .ConnectRetryTimerExpired) :
    (s.process now input).2 = true ∧ (s.process now input).1.Halted ∧
      SilentSince s (s.process now input).1 := by
  have hignored := Fsm.process_of_idle hs.state hstart hretry
  refine ⟨?_, ?_, silent_process ?_⟩
  · rw [process_ignored now hignored]
  · rw [process_ignored now hignored]
    exact { hs with }
  · rw [hignored]
    nofun

theorem halted_handle {s : Session} (hs : s.Halted) (hphase : s.phase = .Handling input)
    (hstart : input ≠ .ManualStart) :
    (s.handle now input).Halted ∧ SilentSince s (s.handle now input) := by
  have hretry : input ≠ .ConnectRetryTimerExpired := by
    rintro rfl
    exact hs.phase hphase
  obtain ⟨reason, candidate, deadline, hprepare, -, -⟩ := s.prepare_eq input
  have hprepared : (s.prepare input).Halted := by
    rw [hprepare]
    exact { hs with }
  have hsilent : SilentSince s (s.prepare input) := by
    rw [hprepare]
    exact .of_batches rfl (.of_eq rfl)
  obtain ⟨hok, hhalted, hsilent'⟩ := process_halted now input hprepared hstart hretry
  unfold handle
  dsimp only
  rw [if_pos hok]
  exact ⟨{ hhalted with phase := nofun },
    hsilent.trans (hsilent'.trans (.of_batches rfl (.of_eq rfl)))⟩

/-- A candidate that is taken in `Idle` comes to nothing. -/
theorem halted_resolve {s : Session} (hs : s.Halted) :
    (s.try_resolve_pending_candidate now).Halted ∧
      SilentSince s (s.try_resolve_pending_candidate now) := by
  rcases s.resolve_cases now with ⟨-, heq | heq⟩ | ⟨candidate, open_msg, -, heq⟩
  · rw [heq]
    exact ⟨hs, .of_batches rfl (.of_eq rfl)⟩
  · rw [heq]
    exact ⟨{ hs with }, .of_batches rfl (.of_eq rfl)⟩
  · rw [heq]
    have hdisplace : ({ s with pending_collision_candidate := none } : Session).displace now
        = { s with pending_collision_candidate := none } := by
      simp only [displace, hs.state]
    unfold adopt
    rw [hdisplace]
    set t := install { s with pending_collision_candidate := none } candidate with ht
    have hinstalled : t.Halted := { hs with }
    have hsilent : SilentSince s t := .of_batches rfl (.of_eq rfl)
    obtain ⟨-, hconnected, hsilent'⟩ := process_halted now .TcpConnected hinstalled nofun nofun
    obtain ⟨-, hopened, hsilent''⟩ :=
      process_halted now (.MessageReceived (.Open open_msg)) hconnected nofun nofun
    exact ⟨hopened, hsilent.trans (hsilent'.trans hsilent'')⟩

theorem halted_wait {s : Session} (ready : Ready) (hs : s.Halted) (hwait : s.phase = .Waiting) :
    (s.wait_for_input now ready).Halted ∧ SilentSince s (s.wait_for_input now ready) := by
  have hframe := s.waitFrame now ready
  have hpending' : (s.wait_for_input now ready).pending_input = none := by
    cases wait_move hwait now ready <;> assumption
  rcases wait_retry hwait now ready with hundisturbed | ⟨harmed, -⟩
  · refine ⟨⟨hframe.state.trans hs.state, hundisturbed.retry.trans hs.retry, hpending', ?_⟩,
      .of_batches hframe.batches hundisturbed.sent⟩
    intro hphase
    have hfired := hundisturbed.phase hphase
    rw [hs.pending] at hfired
    cases hfired
  · exact absurd hs.retry harmed

/-- **A halted session stays so until it is started**, and is silent. -/
theorem halted_step {s : Session} (e : Step) (hs : s.Halted) (hok : s.NotStarting e) :
    (s.step e).Halted ∧ SilentSince s (s.step e) := by
  cases e with
  | enqueue update =>
    exact ⟨{ hs with }, .of_batches rfl (.of_eq rfl)⟩
  | task now outcomes ready =>
    have houtcomes : ({ s with outcomes := outcomes } : Session).Halted :=
      { hs with }
    have hsilent : SilentSince s { s with outcomes := outcomes } := .of_batches rfl (.of_eq rfl)
    cases hphase : s.phase with
    | Waiting =>
      rw [step_waiting now outcomes ready hphase]
      obtain ⟨hhalted, hsilent'⟩ := halted_wait now ready houtcomes hphase
      exact ⟨hhalted, hsilent.trans hsilent'⟩
    | Handling input =>
      rw [step_handling now outcomes ready hphase]
      have hstart : input ≠ .ManualStart := by
        rintro rfl
        exact hok hphase
      obtain ⟨hhalted, hsilent'⟩ := halted_handle now houtcomes hphase hstart
      exact ⟨hhalted, hsilent.trans hsilent'⟩
    | Resolving =>
      rw [step_resolving now outcomes ready hphase]
      obtain ⟨hhalted, hsilent'⟩ := halted_resolve now houtcomes
      exact ⟨{ hhalted with phase := nofun },
        hsilent.trans (hsilent'.trans (.of_batches rfl (.of_eq rfl)))⟩

/-! ## Every session -/

/-- What holds of the timer in every run: a live state has none. Of the queued input it holds that
it is taken before the task goes on. -/
structure Steady (s : Session) : Prop where
  unarmed : s.Unarmed
  pending : ∀ input, s.phase = .Handling input → s.pending_input = none

theorem unarmed_resolve {s : Session} (hs : s.Unarmed) :
    (s.try_resolve_pending_candidate now).Unarmed :=
  resolve_keeps hs hs (fun _ ht => ht) (fun _ _ ht => ht)
    fun _ input _ ht => unarmed_process now input ht

theorem unarmed_handle {s : Session} (input : FsmInput) (hs : s.Unarmed) :
    (s.handle now input).Unarmed :=
  handle_keeps (fun _ ht => ht) (fun _ _ _ => unarmed_process now input hs)
    fun _ ht => unarmed_process now .TcpFailed ht

theorem unarmed_wait {s : Session} (ready : Ready) (hwait : s.phase = .Waiting) (hs : s.Unarmed) :
    (s.wait_for_input now ready).Unarmed := by
  intro hlive
  rw [(s.waitFrame now ready).state] at hlive
  rcases wait_retry hwait now ready with hundisturbed | ⟨-, hfired⟩
  · rw [hundisturbed.retry]
    exact hs hlive
  · rw [hfired]
    rfl

theorem steady_step (s : Session) (e : Step) (hs : s.Steady) : (s.step e).Steady := by
  cases e with
  | enqueue update => exact { hs with }
  | task now outcomes ready =>
    cases hphase : s.phase with
    | Waiting =>
      rw [step_waiting now outcomes ready hphase]
      refine ⟨unarmed_wait now ready hphase hs.unarmed, fun _ _ => ?_⟩
      cases wait_move (s := { s with outcomes := outcomes }) hphase now ready <;> assumption
    | Handling input =>
      rw [step_handling now outcomes ready hphase]
      exact ⟨unarmed_handle now input hs.unarmed, nofun⟩
    | Resolving =>
      rw [step_resolving now outcomes ready hphase]
      exact ⟨unarmed_resolve (s := { s with outcomes := outcomes }) now hs.unarmed, nofun⟩

theorem steady_run {s : Session} (hs : s.Initial) (steps : List Step) : (s.run steps).Steady := by
  have hinit : s.Steady := by
    obtain ⟨config, rfl | ⟨transport, rfl⟩⟩ := hs <;> exact ⟨nofun, nofun⟩
  exact List.foldlRecOn steps step hinit fun t ht e _ => steady_step t e ht

/-! ## A stop -/

/-- A stop takes the timer off, unless it arrives in `Idle`. -/
theorem retry_manual_stop {s : Session} (hs : s.Unarmed)
    (hidle : s.fsm.state = .Idle → s.retry_deadline = none) :
    (s.process now .ManualStop).1.retry_deadline = none := by
  -- before there is a connection the timer is the first thing to go
  have hpre : ∀ fsm : Fsm, s.fsm.process .ManualStop = fsm.do_stop_pre_open →
      (s.process now .ManualStop).1.retry_deadline = none := by
    intro fsm hproc
    unfold process
    rw [hproc]
    rfl
  cases hstate : s.fsm.state with
  | Connect => exact hpre s.fsm (by rw [Fsm.process, hstate]; rfl)
  | Active => exact hpre s.fsm (by rw [Fsm.process, hstate]; rfl)
  | Idle => exact retry_execute_none (Fsm.no_retry_manual_stop _) (hidle hstate)
  | _ =>
    apply retry_execute_none (Fsm.no_retry_manual_stop _)
    apply hs
    rw [hstate]
    rfl

theorem halted_stop {s : Session} (hs : s.Steady) (hphase : s.phase = .Handling .ManualStop)
    (hidle : s.fsm.state = .Idle → s.retry_deadline = none) :
    (s.handle now .ManualStop).Halted ∧ SilentSince s (s.handle now .ManualStop) := by
  obtain ⟨reason, candidate, deadline, hprepare, -, -⟩ := s.prepare_eq .ManualStop
  set t := s.prepare .ManualStop with ht
  have hsilent : SilentSince s t := by
    rw [hprepare]
    exact .of_batches rfl (.of_eq rfl)
  have htphase : t.phase = .Handling .ManualStop := by
    rw [hprepare]
    exact hphase
  have htpending : t.pending_input = none := by
    rw [hprepare]
    exact hs.pending _ hphase
  have htretry : (t.process now .ManualStop).1.retry_deadline = none := by
    rw [hprepare]
    exact retry_manual_stop now hs.unarmed hidle
  have hquiet := t.fsm.quiet_manual_stop
  have htame : Tame t (t.process now .ManualStop).1 := tame_process hquiet
  have hstopped : (t.process now .ManualStop).1.Halted := by
    refine ⟨?_, htretry, htame.pending_input.trans htpending, ?_⟩
    · rw [process_fsm]
      exact Fsm.state_manual_stop _
    · rw [(aside_process t now .ManualStop).phase, htphase]
      nofun
  have hsilent' : SilentSince t (t.process now .ManualStop).1 := silent_process hquiet
  unfold handle
  dsimp only
  rw [← ht]
  split
  · exact ⟨{ hstopped with phase := nofun },
      hsilent.trans (hsilent'.trans (.of_batches rfl (.of_eq rfl)))⟩
  -- the CEASE could not be written, and the loss of the connection is ignored
  · obtain ⟨-, hhalted, hsilent''⟩ := process_halted now .TcpFailed hstopped nofun nofun
    exact ⟨{ hhalted with phase := nofun },
      hsilent.trans (hsilent'.trans (hsilent''.trans (.of_batches rfl (.of_eq rfl))))⟩

/-- What a stop makes of a session that waits in `Idle`. -/
theorem handle_stop_idle {s : Session} (hidle : s.fsm.state = .Idle) :
    ∃ reason deadline batch, s.handle now .ManualStop = { s with
      termination_reason := reason
      pending_collision_candidate := none
      pending_collision_deadline := deadline
      batches := s.batches ++ [batch]
      phase := .Resolving } := by
  obtain ⟨reason, candidate, deadline, hprepare, hdropped, -⟩ := s.prepare_eq .ManualStop
  have hidle' : (s.prepare .ManualStop).fsm.state = .Idle := by
    rw [hprepare]
    exact hidle
  have hignored : (s.prepare .ManualStop).fsm.process .ManualStop
      = ((s.prepare .ManualStop).fsm, []) := Fsm.process_of_idle hidle' nofun nofun
  refine ⟨reason, deadline, ⟨s.fsm.state, s.fsm.state, [], []⟩, ?_⟩
  unfold handle
  rw [process_ignored now hignored, hprepare, hdropped rfl]
  rfl

/-- When the timer fires in `Idle`, a connection is made. -/
theorem handle_retry_idle {s : Session} (hidle : s.fsm.state = .Idle) :
    ∃ batch, (s.handle now .ConnectRetryTimerExpired).batches = s.batches ++ [batch] ∧
      .InitiateTcpConnect ∈ batch.executed := by
  obtain ⟨reason, candidate, deadline, hprepare, -, -⟩ := s.prepare_eq .ConnectRetryTimerExpired
  set t := s.prepare .ConnectRetryTimerExpired with ht
  have htbatches : t.batches = s.batches := by rw [hprepare]
  have houtputs : (t.fsm.process .ConnectRetryTimerExpired).2
      = [.StartConnectRetryTimer CONNECT_RETRY_INTERVAL, .InitiateTcpConnect] := by
    rw [hprepare, Fsm.process]
    rw [hidle]
    rfl
  obtain ⟨executed, hbatches, -, hpart⟩ := t.process_report now .ConnectRetryTimerExpired
  have hok : (t.process now .ConnectRetryTimerExpired).2 = true := by
    apply execute_ok_of_no_send
    rw [houtputs]
    simp [FsmOutput.is_send]
  rw [hok, houtputs] at hpart
  obtain rfl : executed
      = [.StartConnectRetryTimer CONNECT_RETRY_INTERVAL, .InitiateTcpConnect] := by
    simpa using hpart
  have hhandle : (s.handle now .ConnectRetryTimerExpired).batches
      = (t.process now .ConnectRetryTimerExpired).1.batches := by
    unfold handle
    dsimp only
    rw [← ht, if_pos hok]
  rw [htbatches] at hbatches
  exact ⟨_, hhandle.trans hbatches, by simp⟩

/-- The timer fires after a stop that did not disarm it. -/
def retry_fires (d : ℕ) : List Step :=
  [.task d [] .retry, .task d [] .retry, .task d [] .retry, .task d [] .retry]

/-- A stop in `Idle` leaves the timer as it is, and a connection is made when it fires. -/
theorem not_silent_of_armed {s : Session} (hs : s.Steady) (hphase : s.phase = .Handling .ManualStop)
    (hidle : s.fsm.state = .Idle) {d : ℕ} (hretry : s.retry_deadline = some d) :
    Machine.Guarded step NotStarting s (retry_fires d) ∧
      ¬ SilentSince s (s.run (retry_fires d)) := by
  have hpending := hs.pending _ hphase
  -- the stop is handled, no candidate is there, the timer fires
  obtain ⟨reason, deadline, batch, hstopped⟩ :=
    handle_stop_idle (s := { s with outcomes := [] }) d hidle
  have hfirst := step_handling d [] .retry hphase
  rw [hstopped] at hfirst
  set s₁ := s.step (.task d [] .retry) with hs₁
  have hsecond : s₁.step (.task d [] .retry) = { s₁ with phase := .Waiting } := by
    rw [hfirst]
    rfl
  set s₂ := s₁.step (.task d [] .retry) with hs₂
  have hthird : s₂.step (.task d [] .retry)
      = ({ s₂ with retry_deadline := none }).returning .ConnectRetryTimerExpired := by
    rw [hsecond, hfirst]
    simp [step, advance, wait_for_input, hpending, due, hretry]
  set s₃ := s₂.step (.task d [] .retry) with hs₃
  have hidle₃ : s₃.fsm.state = .Idle := by
    rw [hthird, hsecond, hfirst]
    exact hidle
  have hphase₃ : s₃.phase = .Handling .ConnectRetryTimerExpired := by
    rw [hthird]
    rfl
  have hbatches₃ : s₃.batches = s.batches ++ [batch] := by rw [hthird, hsecond, hfirst]; rfl
  obtain ⟨batch', hbatches, hdials⟩ :=
    handle_retry_idle (s := { s₃ with outcomes := [] }) d hidle₃
  refine ⟨⟨?_, ?_, ?_, ?_, trivial⟩, ?_⟩
  · rw [NotStarting, hphase]
    rintro ⟨⟩
  · rw [NotStarting, ← hs₁, hfirst]
    rintro ⟨⟩
  · rw [NotStarting, ← hs₁, ← hs₂, hsecond]
    rintro ⟨⟩
  · rw [NotStarting, ← hs₁, ← hs₂, ← hs₃, hphase₃]
    rintro ⟨⟩
  · intro hsilent
    have hfinal : (s.run (retry_fires d)).batches = s.batches ++ [batch, batch'] := by
      have hrun : s.run (retry_fires d) = s₃.step (.task d [] .retry) := rfl
      rw [hrun, step_handling d [] .retry hphase₃, hbatches]
      rw [hbatches₃, List.append_assoc]
      rfl
    have hnone := hsilent.drop_batches batch' (by rw [hfinal, List.drop_left]; simp)
    exact hnone hdials

/-- **Stop means stop**, in every run in which no start follows, just if the stop did not find the
session in `Idle` with its connect-retry timer armed. -/
theorem silent_after_stop_iff {s : Session} (hinit : s.Initial) (steps : List Step)
    (hphase : (s.run steps).phase = .Handling .ManualStop) :
    (∀ rest, Machine.Guarded step NotStarting (s.run steps) rest →
        SilentSince (s.run steps) ((s.run steps).run rest)) ↔
      ((s.run steps).fsm.state = .Idle → (s.run steps).retry_deadline = none) := by
  have hsteady := steady_run hinit steps
  set t := s.run steps with ht
  constructor
  · intro hsilent hidle
    by_contra harmed
    obtain ⟨d, hretry⟩ := Option.ne_none_iff_exists'.1 harmed
    obtain ⟨hguarded, hloud⟩ := not_silent_of_armed hsteady hphase hidle hretry
    exact hloud (hsilent _ hguarded)
  · intro hidle rest hguarded
    have hstep : ∀ u e, NotStarting u e → (u.Halted ∨ u.Steady ∧ u.phase = .Handling .ManualStop ∧
          (u.fsm.state = .Idle → u.retry_deadline = none)) ∧ SilentSince t u →
        ((u.step e).Halted ∨ (u.step e).Steady ∧ (u.step e).phase = .Handling .ManualStop ∧
          ((u.step e).fsm.state = .Idle → (u.step e).retry_deadline = none)) ∧
          SilentSince t (u.step e) := by
      rintro u e hok ⟨hhalted | ⟨hu, huphase, huidle⟩, hsilent⟩
      · obtain ⟨hhalted', hsilent'⟩ := halted_step e hhalted hok
        exact ⟨.inl hhalted', hsilent.trans hsilent'⟩
      · cases e with
        | enqueue update =>
          exact ⟨.inr ⟨{ hu with }, huphase, huidle⟩, hsilent.trans (.of_batches rfl (.of_eq rfl))⟩
        | task now outcomes ready =>
          rw [step_handling now outcomes ready huphase]
          have hu' : ({ u with outcomes := outcomes } : Session).Steady := { hu with }
          obtain ⟨hhalted', hsilent'⟩ := halted_stop now hu' huphase huidle
          exact ⟨.inl hhalted', hsilent.trans { hsilent' with }⟩
    exact (Machine.inv_of_guarded hstep
      ⟨.inr ⟨hsteady, hphase, hidle⟩, .of_batches rfl (.of_eq rfl)⟩ hguarded).2

/-- The session is stopped while it is up. -/
def stopped_established : List Step :=
  session_up ++ [.task 0 [] (.command (some .Stop))]

/-- That session is silent from then on. -/
theorem established_silent :
    ((spawn plain_session).run stopped_established).phase = .Handling .ManualStop ∧
      ∀ rest,
        Machine.Guarded step NotStarting ((spawn plain_session).run stopped_established) rest →
        SilentSince ((spawn plain_session).run stopped_established)
          (((spawn plain_session).run stopped_established).run rest) := by
  refine ⟨by decide, ?_⟩
  apply (silent_after_stop_iff ⟨plain_session, .inl rfl⟩ stopped_established (by decide)).2
  decide

/-- The connection is lost, and the session is stopped while it waits to try again. -/
def stopped_waiting : List Step :=
  session_up ++ round (.message .closed) ++ [.task 0 [] (.command (some .Stop))]

/-- **A stop that is ignored**: the session goes on to make a connection. -/
theorem connects_after_stop :
    ((spawn plain_session).run stopped_waiting).phase = .Handling .ManualStop ∧
      Machine.Guarded step NotStarting ((spawn plain_session).run stopped_waiting)
        (retry_fires 120) ∧
      ¬ SilentSince ((spawn plain_session).run stopped_waiting)
        (((spawn plain_session).run stopped_waiting).run (retry_fires 120)) := by
  refine ⟨by decide, by decide, ?_⟩
  intro hsilent
  exact absurd hsilent.drop_batches (by decide)

end Session

end Pathvector

/-
# A peer that is never tried again

A session that was started is meant to come back by itself: whatever ends it, the connect-retry
timer leads to the next try. The daemon relies on it. It stops a session whose channel has
overflowed, or sends the CEASE of a peer with too many prefixes, and says that the session will
re-establish; it never starts one again.

But a stop, and a NOTIFICATION the daemon wants sent, take the state machine to `Idle` with no
timer, and so do an invalid OPEN and every message that is out of place (`Fsm.abandons`). Nor is
the timer started when the NOTIFICATION that comes first cannot be written. From then on nothing
but an incoming connection happens to the task, and `Idle` ignores that. Without such a step
(`Session.Resumes`) a try is always to come: `not_stranded`.
-/
import Pathvector.Session.Silence
import Pathvector.System.Composition

set_option autoImplicit false

namespace Pathvector

namespace Fsm

theorem state_retry_expired {fsm : Fsm} (h : fsm.state.resting = true) :
    (fsm.process .ConnectRetryTimerExpired).1.state = .Connect := by
  unfold process
  cases hs : fsm.state with
  | Idle | Active => rfl
  | _ =>
    rw [hs] at h
    cases h

theorem validate_open_congr {fsm fsm' : Fsm} (h : fsm'.config = fsm.config)
    (open_msg : OpenMessage) : fsm'.validate_open open_msg = fsm.validate_open open_msg := by
  unfold validate_open
  rw [h]

end Fsm

namespace Session

variable (now : ℕ) (input : FsmInput) {s : Session}

/-! ## One input -/

/-- A session at rest has its timer armed. -/
def Armed (s : Session) : Prop := s.fsm.state.resting = true → s.retry_deadline ≠ none

section

variable
  (hs : (s.fsm.process input).1.state.resting = true → s.fsm.state.resting = true →
    s.retry_deadline ≠ none)
  (habandons : s.fsm.abandons input = false)
include hs habandons

/-- An input that does not make the state machine give up leaves the timer armed, if the
NOTIFICATION that comes before it could be written. -/
theorem armed_process (hok : input.notifies = true → (s.process now input).2 = true) :
    (s.process now input).1.Armed := by
  intro hrest
  rw [process_fsm] at hrest
  cases s.fsm.timing input with
  | keeps hlive hsame hretry =>
    have hstate := hsame hrest
    have hdeadline : (s.process now input).1.retry_deadline = s.retry_deadline :=
      retry_execute_keeps hretry
    rw [hdeadline]
    apply hs hrest
    rw [← hstate]
    exact hrest
  | starts hlive d hstart hstop hsend =>
    have hdone : (s.process now input).2 = true := by
      cases hnotifies : input.notifies with
      | true => exact hok hnotifies
      | false => exact execute_ok_of_no_send (hsend hnotifies)
    exact retry_execute_starts hstart hstop hdone
  | opens hinput houtputs =>
    rw [houtputs] at hrest
    cases hrest
  | abandons hinput =>
    rw [habandons] at hinput
    cases hinput

theorem armed_handle (hok : input.notifies = true → ∀ b ∈ s.outcomes, b = true) :
    (s.handle now input).Armed := by
  refine handle_keeps (fun _ ht => ht) (fun _ _ _ => ?_) fun t ht => ?_
  · refine armed_process now input hs habandons fun hnotifies => ?_
    refine (execute_of_outcomes now _ ?_).1
    exact fun hmem => Bool.false_ne_true (hok hnotifies _ hmem)
  -- the loss of the connection starts the timer, where it is not ignored
  · exact armed_process now .TcpFailed (fun _ => ht) rfl nofun

end

/-! ## A candidate -/

theorem config_displace (s : Session) (now : ℕ) : (s.displace now).fsm.config = s.fsm.config := by
  unfold displace
  split
  next hs =>
    rw [process_fsm, Fsm.process, hs]
    rfl
  next hs =>
    rw [process_fsm, Fsm.process]
    rw [hs]
    rfl
  · rfl

/-- A candidate whose OPEN is still valid is brought to `OpenConfirm`, unless the session is not
wanted at all. -/
theorem armed_adopt (candidate : CollisionCandidate) {open_msg : OpenMessage}
    (hsent : s.fsm.state ≠ .OpenSent) (hs : s.Armed)
    (hvalid : (s.fsm.validate_open open_msg).isOk = true) :
    (s.adopt now candidate open_msg).Armed := by
  cases hidle : decide (s.fsm.state = .Idle) with
  | true =>
    have hstate : s.fsm.state = .Idle := of_decide_eq_true hidle
    have hdisplace : s.displace now = s := by simp only [displace, hstate]
    unfold adopt
    rw [hdisplace]
    apply armed_process
    · intro _
      apply armed_process
      · exact fun _ => hs
      · rfl
      · rintro ⟨⟩
    · rw [process_fsm, Fsm.process]
      simp [install, hstate, Fsm.on_idle, Fsm.abandons, Fsm.expects]
    · rintro ⟨⟩
  | false =>
    have hstate : s.fsm.state ≠ .Idle := of_decide_eq_false hidle
    have hspec := displace_spec now hsent
    have hconfig := s.config_displace now
    set t := s.displace now with ht
    -- what is left of the session waits for a connection
    have hconnect : t.fsm.process .TcpConnected = t.fsm.do_tcp_connected := by
      cases htstate : t.fsm.state with
      | Idle => exact absurd (hspec.idle htstate) hstate
      | Connect | Active =>
        rw [Fsm.process, htstate]
        rfl
      | _ =>
        have hlive := hspec.live
        rw [htstate] at hlive
        cases hlive
    intro hrest
    have hfinal : (s.adopt now candidate open_msg).fsm.state = .OpenConfirm := by
      unfold adopt
      rw [process_fsm, process_fsm, ← ht]
      have hinstall : (t.install candidate).fsm = t.fsm := rfl
      rw [hinstall, hconnect, Fsm.process]
      simp only [Fsm.do_tcp_connected, Fsm.on_open_sent]
      have hsame : Fsm.validate_open { t.fsm with state := .OpenSent } open_msg
          = s.fsm.validate_open open_msg := Fsm.validate_open_congr hconfig open_msg
      rw [hsame]
      cases hv : s.fsm.validate_open open_msg with
      | ok negotiated => rfl
      | error e =>
        rw [hv] at hvalid
        cases hvalid
    rw [hfinal] at hrest
    cases hrest

theorem armed_resolve (hs : s.Armed)
    (hvalid : ∀ c ∈ s.adopted, (s.fsm.validate_open c.2).isOk = true) :
    (s.try_resolve_pending_candidate now).Armed := by
  rcases s.resolve_cases now with ⟨-, heq | heq⟩ | ⟨candidate, open_msg, hadopted, heq⟩
  · rw [heq]
    exact hs
  · rw [heq]
    exact hs
  · have hsent := state_of_adopted hadopted
    rw [heq]
    exact armed_adopt (s := { s with pending_collision_candidate := none }) now candidate hsent hs
      (hvalid _ hadopted)

/-! ## A step of the task -/

/-- The step does not make the session give up: the input has its place, the NOTIFICATION it calls
for is written, and a candidate that is adopted has an OPEN that is still valid. -/
def Resumes (s : Session) : Step → Prop
  | .enqueue _ => True
  | .task _ outcomes _ =>
    match s.phase with
    | .Waiting => True
    | .Handling input =>
      s.fsm.abandons input = false ∧ (input.notifies = true → ∀ b ∈ outcomes, b = true)
    | .Resolving => ∀ c ∈ s.adopted, (s.fsm.validate_open c.2).isOk = true

instance (s : Session) (e : Step) : Decidable (s.Resumes e) := by
  induction e using Step.casesOn with
  | enqueue => dsimp only [Resumes]; infer_instance
  | task =>
    dsimp only [Resumes]
    induction s.phase using Phase.casesOn <;> infer_instance

/-- The session is at rest with its timer armed, or about to fire. -/
def Retrying (s : Session) : Prop :=
  s.fsm.state.resting = true →
    s.retry_deadline ≠ none ∨ s.phase = .Handling .ConnectRetryTimerExpired

theorem retrying_wait (ready : Ready) (hwait : s.phase = .Waiting) (hs : s.Retrying) :
    (s.wait_for_input now ready).Retrying := by
  intro hrest
  rw [(s.waitFrame now ready).state] at hrest
  rcases wait_retry hwait now ready with hundisturbed | ⟨-, hfired⟩
  · rcases hs hrest with harmed | hphase
    · rw [hundisturbed.retry]
      exact .inl harmed
    · rw [hwait] at hphase
      cases hphase
  · rw [hfired]
    exact .inr rfl

theorem retrying_step (e : Step) (hs : s.Retrying) (hok : s.Resumes e) : (s.step e).Retrying := by
  cases e with
  | enqueue update => exact hs
  | task now outcomes ready =>
    unfold Resumes at hok
    cases hphase : s.phase with
    | Waiting =>
      rw [step_waiting now outcomes ready hphase]
      exact retrying_wait (s := { s with outcomes := outcomes }) now ready hphase hs
    | Handling input =>
      rw [hphase] at hok
      rw [step_handling now outcomes ready hphase]
      have harmed : (({ s with outcomes := outcomes } : Session).handle now input).Armed := by
        apply armed_handle (s := { s with outcomes := outcomes }) now input _ hok.1 hok.2
        intro hrest' hrest
        rcases hs hrest with harmed | hfired
        · exact harmed
        -- the timer has fired, and the session is not at rest any more
        · rw [hphase] at hfired
          obtain rfl := Phase.Handling.inj hfired
          rw [Fsm.state_retry_expired hrest] at hrest'
          cases hrest'
      exact fun hrest => .inl (harmed hrest)
    | Resolving =>
      rw [hphase] at hok
      rw [step_resolving now outcomes ready hphase]
      have harmed : s.Armed := by
        intro hrest
        rcases hs hrest with harmed | hfired
        · exact harmed
        · rw [hphase] at hfired
          cases hfired
      have hresolved := armed_resolve (s := { s with outcomes := outcomes }) now harmed hok
      exact fun hrest => .inl (hresolved hrest)

/-! ## Before the start -/

/-- A session that was not started leaves `Idle` only for `Connect`. -/
theorem state_handle_idle (hs : s.fsm.state = .Idle) :
    (s.handle now input).fsm.state = .Connect ∨
      (s.handle now input).fsm.state = .Idle ∧ input ≠ .ManualStart := by
  obtain ⟨reason, candidate, deadline, hprepare, -, -⟩ := s.prepare_eq input
  set t := s.prepare input with ht
  have hstate : t.fsm.state = .Idle := by
    rw [hprepare]
    exact hs
  have hmove : t.fsm.process input = t.fsm.on_idle input := by rw [Fsm.process, hstate]
  have hok : (t.process now input).2 = true := by
    apply execute_ok_of_no_send
    rw [hmove]
    cases input <;> simp [Fsm.on_idle, FsmOutput.is_send]
  have hhandle : (s.handle now input).fsm = (t.fsm.on_idle input).1 := by
    unfold handle
    dsimp only
    rw [← ht, if_pos hok]
    exact (process_fsm t now input).trans (by rw [hmove])
  rw [hhandle]
  cases input with
  | ManualStart | ConnectRetryTimerExpired => exact .inl rfl
  | _ => exact .inr ⟨hstate, FsmInput.noConfusion⟩

theorem state_resolve_idle (hs : s.fsm.state = .Idle) :
    (s.try_resolve_pending_candidate now).fsm.state = .Idle := by
  rcases s.resolve_cases now with ⟨-, heq | heq⟩ | ⟨candidate, open_msg, -, heq⟩
  · rw [heq]
    exact hs
  · rw [heq]
    exact hs
  · have hdisplace : ({ s with pending_collision_candidate := none } : Session).displace now
        = { s with pending_collision_candidate := none } := by
      simp only [displace, hs]
    have hconnect : s.fsm.process .TcpConnected = (s.fsm, []) :=
      Fsm.process_of_idle hs (by simp) (by simp)
    have hopen : s.fsm.process (.MessageReceived (.Open open_msg)) = (s.fsm, []) :=
      Fsm.process_of_idle hs (by simp) (by simp)
    rw [heq, adopt, hdisplace, process_fsm, process_fsm]
    dsimp only [install]
    rw [hconnect, hopen]
    exact hs

end Session

/-! ## A task with its channel -/

namespace Actor

/-- The session is started and tries to connect, or the start is still to come. -/
def Underway (a : Actor) : Prop :=
  a.session.Retrying ∨
    a.session.fsm.state = .Idle ∧ (.Start ∈ a.commands ∨ a.session.phase = .Handling .ManualStart)

theorem underway_spawn (config : SessionConfig) : (spawn config).Underway :=
  .inr ⟨rfl, .inl (List.mem_singleton.2 rfl)⟩

theorem Underway.mono {a b : Actor} (h : a.Underway) (hsession : b.session = a.session)
    (hcommands : a.commands ⊆ b.commands) : b.Underway := by
  unfold Underway
  rw [hsession]
  exact h.imp_right fun hidle => ⟨hidle.1, hidle.2.imp_left fun hstart => hcommands hstart⟩

theorem underway_take_command {a : Actor} (now : ℕ) (outcomes : List Bool) (ha : a.Underway) :
    (a.take_command now outcomes).Underway := by
  unfold take_command
  split
  next c rest hphase hpending hcommands =>
    rcases ha with hretrying | ⟨hidle, hstart⟩
    · refine .inl (Session.retrying_step _ hretrying ?_)
      simp only [Session.Resumes, hphase]
    · have hstep : a.session.step (.task now outcomes (.command (some c)))
          = ({ a.session with outcomes := outcomes }).on_command now (some c) := by
        rw [Session.step_waiting now outcomes _ hphase]
        unfold Session.wait_for_input
        simp only [hpending]
      have hframe := Session.waitFrame_of_waited
        (.command (s := { a.session with outcomes := outcomes }) now (some c))
      refine .inr ⟨?_, ?_⟩
      · rw [hstep, hframe.state]
        exact hidle
      · have hmem : .Start ∈ a.commands := by
          refine hstart.resolve_right fun hhandling => ?_
          rw [hphase] at hhandling
          cases hhandling
        rw [hcommands] at hmem
        rcases List.mem_cons.1 hmem with rfl | hmem
        · refine .inr ?_
          rw [hstep]
          rfl
        · exact .inl hmem
  · exact ha

theorem underway_advance {a : Actor} {e : Session.Step} (ha : a.Underway)
    (hok : a.session.Resumes e) : (a.advance e).Underway := by
  unfold advance
  split
  · exact ha
  · rcases ha with hretrying | ⟨hidle, hstart⟩
    · exact .inl (Session.retrying_step e hretrying hok)
    · cases e with
      | enqueue update => exact .inr ⟨hidle, hstart⟩
      | task now outcomes ready =>
        cases hphase : a.session.phase with
        | Waiting =>
          refine .inr ⟨?_, hstart.imp_right fun hhandling => ?_⟩
          · rw [Session.step_waiting now outcomes ready hphase]
            rw [(Session.waitFrame _ now ready).state]
            exact hidle
          · rw [hphase] at hhandling
            cases hhandling
        | Handling input =>
          rw [Session.step_handling now outcomes ready hphase]
          rcases Session.state_handle_idle (s := { a.session with outcomes := outcomes }) now input
            hidle with hconnect | ⟨hidle', hinput⟩
          · refine .inl fun hrest => ?_
            rw [hconnect] at hrest
            cases hrest
          · refine .inr ⟨hidle', .inl (hstart.resolve_right fun hhandling => ?_)⟩
            rw [hphase] at hhandling
            exact hinput (Phase.Handling.inj hhandling)
        | Resolving =>
          rw [Session.step_resolving now outcomes ready hphase]
          refine .inr ⟨Session.state_resolve_idle now hidle, .inl ?_⟩
          refine hstart.resolve_right fun hhandling => ?_
          rw [hphase] at hhandling
          cases hhandling

end Actor

/-! ## Every run -/

namespace System

/-- No task gives up in this step. -/
def Resumes (σ : System) : Happening → Prop
  | .task i e => ∀ a ∈ σ.actors[i]?, a.session.Resumes e
  | _ => True

instance (σ : System) (h : Happening) : Decidable (σ.Resumes h) := by
  induction h using Happening.casesOn <;> dsimp only [Resumes] <;> infer_instance

/-- The session waits for a connection that nothing will make: no timer, no connect task, no
transport, and nothing in flight. -/
structure Stranded (p : IpAddr) (σ : System) (a : Actor) : Prop where
  state : a.session.fsm.state = .Idle ∨ a.session.fsm.state = .Active
  retry : a.session.retry_deadline = none
  connect_task : a.session.connect_task = false
  transport : a.session.transport = none
  quiescent : σ.Quiescent p

instance (p : IpAddr) (σ : System) (a : Actor) : Decidable (σ.Stranded p a) :=
  decidable_of_iff
    ((a.session.fsm.state = .Idle ∨ a.session.fsm.state = .Active) ∧
      a.session.retry_deadline = none ∧ a.session.connect_task = false ∧
      a.session.transport = none ∧ σ.Quiescent p)
    ⟨fun ⟨hs, hr, hc, ht, hq⟩ => ⟨hs, hr, hc, ht, hq⟩,
      fun h => ⟨h.state, h.retry, h.connect_task, h.transport, h.quiescent⟩⟩

theorem underway_push {σ : System} (c : SessionCommand) (hσ : ∀ a ∈ σ.actors, a.Underway) :
    ∀ a ∈ (σ.push c).actors, a.Underway :=
  Machine.forall_modify hσ fun a ha =>
    (hσ a (List.mem_of_getElem? ha)).mono rfl (List.subset_append_left ..)

theorem underway_send {σ : System} (c : SessionCommand) (hσ : ∀ a ∈ σ.actors, a.Underway) :
    ∀ a ∈ (σ.send c).actors, a.Underway := by
  unfold send
  split
  · exact underway_push c hσ
  · exact hσ

/-- Only the happenings that reach a task can change whether it is under way. -/
theorem underway_step (p : IpAddr) (σ : System) (h : Happening) (hok : σ.Resumes h)
    (hσ : ∀ a ∈ σ.actors, a.Underway) : ∀ a ∈ (σ.step p h).actors, a.Underway := by
  cases h with
  | daemon e =>
    simp only [step]
    split <;> exact hσ
  | stop_stalled => exact hσ
  | take i clk caps =>
    simp only [step]
    split
    · exact Machine.forall_modify hσ fun a ha =>
        (hσ a (List.mem_of_getElem? ha)).mono rfl (List.Subset.refl _)
    · exact hσ
  | take_injected clk caps =>
    simp only [step]
    split <;> exact hσ
  | reply =>
    simp only [step]
    split
    · exact underway_send _ hσ
    · exact hσ
  | add peer update_sender config =>
    simp only [step, add]
    split
    · split
      · exact hσ
      · exact List.forall_mem_cons.2 ⟨Actor.underway_spawn config, hσ⟩
    · exact hσ
  | remove shutdown =>
    simp only [step, remove]
    split
    · split <;> exact hσ
    · exact hσ
  | shut_down =>
    simp only [step, shut_down]
    split
    · split
      · exact underway_push _ hσ
      · exact hσ
    · exact hσ
  | incoming stream => exact underway_push _ hσ
  | refresh rr => exact underway_send _ hσ
  | command i now outcomes =>
    exact Machine.forall_modify hσ fun a ha =>
      Actor.underway_take_command now outcomes (hσ a (List.mem_of_getElem? ha))
  | task i e =>
    exact Machine.forall_modify hσ fun a ha =>
      Actor.underway_advance (hσ a (List.mem_of_getElem? ha)) (hok a ha)

/-- The daemon with one peer, and a channel to it as `spawn` makes it. -/
def small_system : System :=
  start (DaemonState.new 65001 (Ipv4Addr.new 10 0 0 1) none none none [open_peer 2 65002]
    (HashMap.collect [(peer_addr 2, ⟨256, [], []⟩)]) []) (some Session.plain_session)

theorem initial_small_system : small_system.Initial (peer_addr 2) :=
  ⟨_, _, _, _, _, _, _, _, some Session.plain_session, rfl, by simp [open_peer]⟩

/-- The task handles what it has found, and looks for a candidate. -/
def settle : List Happening := [.task 0 (.task 0 [] .update), .task 0 (.task 0 [] .update)]

/-- It takes a command. -/
def obey : List Happening := .command 0 0 [] :: settle

/-- It finds something else ready. -/
def finds (ready : Session.Ready) : List Happening := .task 0 (.task 0 [] ready) :: settle

/-- The session is started, and the first connection cannot be made. -/
def unreachable_peer : List Happening := obey ++ finds (.connected none)

/-- The connection is made, and the peer says that it speaks version 3. It is sent a NOTIFICATION.
-/
def invalid_open : List Happening :=
  obey ++ finds (.connected (some (Session.stream 2)))
    ++ finds (.message (.message (.Open { plain_open with version := 3 })))

end System

end Pathvector

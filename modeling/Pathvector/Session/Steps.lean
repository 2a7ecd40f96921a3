/-
# One round of the task

What a round of the session task can do, said once for all the invariants below: how waiting
ends (`wait_move`), and what becomes of a candidate (`resolve_cases`, `displace_spec`).
-/
import Pathvector.Session.Execution

set_option autoImplicit false

namespace Pathvector

/-- An input that says nothing about the connection. -/
def FsmInput.ordinary : FsmInput → Bool
  | .TcpConnected | .TcpFailed | .CollisionDetected => false
  | _ => true

namespace Session

/-! ## Waiting -/

/-- All that a round of waiting can do to a task with no input queued. -/
inductive Waited (s : Session) : Ready → Session → Prop
  | idles (ready : Ready) : Waited s ready s
  /-- An input for the state machine, which may be that a timer has fired. -/
  | returns (ready : Ready) (hold keepalive : Option ℕ) {input : FsmInput}
      (hinput : input.ordinary = true) (hretry : input ≠ .ConnectRetryTimerExpired) :
      Waited s ready
        (({ s with hold_deadline := hold, keepalive_deadline := keepalive }).returning input)
  | retries (harmed : s.retry_deadline ≠ none) :
      Waited s .retry (({ s with retry_deadline := none }).returning .ConnectRetryTimerExpired)
  /-- The connect task is done. -/
  | connects (result : Option TcpStream) (hrunning : s.connect_task = true) :
      Waited s (.connected result) (s.on_connected result)
  /-- The connection is lost, perhaps with a last message. -/
  | loses (ready : Ready) : Waited s ready s.lose_connection
  | gives_up (ready : Ready) (c : Connection) (notif : NotificationMessage) :
      Waited s ready (s.send c (.Notification notif)).1.lose_connection
  /-- An incoming connection is taken at once, or staged, dropped, refused or heard. -/
  | accepts (stream : TcpStream) (hstaged : s.pending_collision_candidate = none)
      (hlive : s.fsm.state.live = false) :
      Waited s (.command (some (.IncomingConnection stream))) (s.accept stream)
  | stages (ready : Ready) (candidate : CollisionCandidate) (deadline : Option ℕ)
      (hfactory : s.connect_factory = true) (hsilent : candidate.open_msg = none) :
      Waited s ready { s with
        pending_collision_candidate := some candidate
        pending_collision_deadline := deadline }
  | drops (ready : Ready) : Waited s ready s.drop_candidate
  | refuses (ready : Ready) (c : Connection) (notif : NotificationMessage) :
      Waited s ready (s.drop_candidate.send c (.Notification notif)).1
  | hears (ready : Ready) (candidate : CollisionCandidate)
      (hstaged : s.pending_collision_candidate.isSome) :
      Waited s ready { s.drop_candidate with
        pending_collision_candidate := some candidate
        phase := .Resolving }
  /-- Messages are written and reported beside the state machine. -/
  | writes (ready : Ready) (c : Connection) (rr : RouteRefreshMessage) :
      Waited s ready (s.write c (.RouteRefresh rr))
  | forwards (u : Queued) (rest : List Queued) (hqueue : s.update_rx = u :: rest) :
      Waited s .update (({ s with update_rx := rest }).forward u)
  | reports (ready : Ready) (update : UpdateMessage) :
      Waited s ready (s.emit (.RouteUpdate update))
  | learns (ready : Ready) (caps : List Capability) :
      Waited s ready { s with fsm := s.fsm.set_capabilities caps }

namespace Waited

variable {s : Session} (now : ℕ)

theorem returning (s : Session) (ready : Ready) {input : FsmInput} (hinput : input.ordinary = true)
    (hretry : input ≠ .ConnectRetryTimerExpired) : Waited s ready (s.returning input) :=
  .returns ready s.hold_deadline s.keepalive_deadline hinput hretry

theorem primary_message (c : Connection) (msg : Received) :
    Waited s (.message msg) (s.handle_primary_message c msg) := by
  cases msg with
  | message m => cases m with
    | MalformedUpdate m =>
      unfold handle_primary_message handle_malformed_update
      dsimp only
      split
      · exact returning s _ rfl nofun
      · split
        · exact returning s _ rfl nofun
        · exact .reports ..
    | _ => exact returning s _ rfl nofun
  | failed e =>
    unfold handle_primary_message
    dsimp only
    split
    · exact .gives_up ..
    · exact .loses _
  | closed => exact .loses _

theorem stage (ready : Ready) (stream : TcpStream) (purpose : CollisionPurpose) :
    Waited s ready (s.stage_collision_candidate now stream purpose) := by
  unfold stage_collision_candidate
  split
  · exact .idles _
  · split
    next h => exact .stages _ _ _ h rfl
    · exact .idles _

theorem command (c : Option SessionCommand) : Waited s (.command c) (s.on_command now c) := by
  cases c with
  | none => exact returning s _ rfl nofun
  | some c => cases c with
    | Start | Stop | Notification msg => exact returning s _ rfl nofun
    | IncomingConnection stream =>
      unfold on_command handle_incoming_connection
      cases hc : s.pending_collision_candidate with
      | some candidate => exact .idles _
      | none =>
        cases hs : s.fsm.state with
        | Idle | Connect | Active => exact .accepts stream hc (by rw [hs]; rfl)
        | OpenSent | OpenConfirm => exact stage now _ stream _
        | Established =>
          dsimp only
          split
          · exact .idles _
          · split
            · exact stage now _ stream _
            · exact .idles _
    | RouteRefresh rr =>
      unfold on_command
      dsimp only
      split
      · exact .writes ..
      · exact .idles _
    | SetCapabilities caps =>
      unfold on_command
      dsimp only
      split
      · exact .idles _
      · exact .learns ..

theorem candidate_message (candidate : CollisionCandidate)
    (hc : s.pending_collision_candidate = some candidate) (msg : Received) :
    Waited s (.candidate_message msg) (s.handle_collision_candidate_message candidate msg) := by
  unfold handle_collision_candidate_message
  dsimp only
  split
  · split
    · exact .refuses ..
    · split
      · exact .hears _ _ (by rw [hc]; rfl)
      · exact .drops _
  · exact .drops _

end Waited

/-- **What waiting can do.** -/
theorem waited {s : Session} (hpending : s.pending_input = none) (now : ℕ) (ready : Ready) :
    Waited s ready (s.wait_for_input now ready) := by
  unfold wait_for_input
  split
  next input h => cases hpending.symm.trans h
  cases ready with
  | command c => exact .command now c
  | connected result =>
    dsimp only
    split
    next hrunning => exact .connects result hrunning
    · exact .idles _
  | message msg =>
    dsimp only
    split
    · exact .primary_message _ msg
    · exact .idles _
  | candidate_message msg =>
    dsimp only
    split
    next candidate hc =>
      split
      · exact .candidate_message candidate hc msg
      · exact .idles _
    · exact .idles _
  | collision_deadline =>
    dsimp only
    split
    · exact .drops _
    · exact .idles _
  | hold =>
    dsimp only
    split
    · exact .returns _ none s.keepalive_deadline rfl nofun
    · exact .idles _
  | keepalive =>
    dsimp only
    split
    · exact .returns _ s.hold_deadline none rfl nofun
    · exact .idles _
  | retry =>
    dsimp only
    split
    next hdue =>
      -- a timer that fires was running
      refine .retries fun hnone => ?_
      rw [hnone] at hdue
      cases hdue
    · exact .idles _
  | update =>
    dsimp only
    split
    · exact .idles _
    next u rest hqueue => exact .forwards u rest hqueue

/-- What waiting leaves alone. -/
structure WaitFrame (s s' : Session) : Prop where
  state : s'.fsm.state = s.fsm.state
  connect_factory : s'.connect_factory = s.connect_factory
  pending_transport : s'.pending_transport = s.pending_transport
  batches : s'.batches = s.batches
  event_marks : event_marks s'.events = event_marks s.events
  opened : opened s'.sent = opened s.sent
  sent : s.sent ⊆ s'.sent
  candidate : s'.pending_collision_candidate.isSome →
    s.pending_collision_candidate.isSome ∨ s.connect_factory = true
  update_rx : s'.update_rx <:+ s.update_rx
  writes : s'.writes = s.writes ∨ ∃ c, ∃ u ∈ s.update_rx, s.transport = some c ∧
    s'.writes = s.writes ++ [⟨c, s.fsm.state, u.session, open_session s.events⟩]

/-- How a round of waiting ends. -/
inductive WaitMove (s s' : Session) (ready : Ready) : Prop where
  /-- An input was queued. -/
  | pends (input : FsmInput) (hpending : s.pending_input = some input)
      (hpending' : s'.pending_input = none) (htransport : s'.transport = s.transport)
      (htask : s'.connect_task = s.connect_task) (hphase : s'.phase = .Handling input)
  /-- The connection is as it was. -/
  | stays (hpending : s.pending_input = none) (hpending' : s'.pending_input = none)
      (htransport : s'.transport = s.transport) (htask : s'.connect_task = s.connect_task)
      (hphase : s'.phase = .Waiting ∨ s'.phase = .Resolving ∨
        ∃ input, input.ordinary = true ∧ s'.phase = .Handling input)
  /-- The connection is gone. -/
  | loses (hpending : s.pending_input = none) (hpending' : s'.pending_input = none)
      (hclosed : s'.Closed) (hphase : s'.phase = .Handling .TcpFailed)
  /-- The connect task has failed. -/
  | fails (hready : ready = .connected none) (hpending : s.pending_input = none)
      (hpending' : s'.pending_input = none) (hrunning : s.connect_task = true)
      (htransport : s'.transport = s.transport) (htask : s'.connect_task = false)
      (hphase : s'.phase = .Handling .TcpFailed)
  /-- The connect task has made a connection. -/
  | connects (stream : TcpStream) (hready : ready = .connected (some stream))
      (hpending : s.pending_input = none) (hpending' : s'.pending_input = none)
      (hrunning : s.connect_task = true)
      (htransport : s'.transport = some (stream.connection .Outbound))
      (htask : s'.connect_task = false) (hphase : s'.phase = .Handling .TcpConnected)
  /-- An incoming connection is taken. -/
  | accepts (stream : TcpStream) (hready : ready = .command (some (.IncomingConnection stream)))
      (hpending : s.pending_input = none) (hpending' : s'.pending_input = none)
      (hstaged : s.pending_collision_candidate = none) (hlive : s.fsm.state.live = false)
      (htransport : s'.transport
        = if s.connect_factory then some (stream.connection .Inbound) else s.transport)
      (htask : s'.connect_task = s.connect_task) (hphase : s'.phase = .Handling .TcpConnected)

namespace WaitFrame

variable {s s' : Session}

theorem refl (s : Session) : WaitFrame s s where
  state := rfl
  connect_factory := rfl
  pending_transport := rfl
  batches := rfl
  event_marks := rfl
  opened := rfl
  sent := List.Subset.refl _
  candidate := .inl
  update_rx := List.suffix_rfl
  writes := .inl rfl

section

variable {msg : BgpMessage} (h : WaitFrame s s') (c : Connection)
include h

theorem lose_connection : WaitFrame s s'.lose_connection := { h with }

theorem drop_candidate : WaitFrame s s'.drop_candidate :=
  { h with candidate := nofun }

theorem send (hmsg : msg.is_open = false) : WaitFrame s (s'.send c msg).1 := by
  have ht : Tame s' (s'.send c msg).1 := tame_send c hmsg
  have hopened := ht.opened.trans h.opened
  have hsent := List.Subset.trans h.sent ht.sent
  revert hopened hsent
  unfold Session.send
  split <;> intro hopened hsent <;> exact { h with opened := hopened, sent := hsent }

theorem write (hmsg : msg.is_open = false) : WaitFrame s (s'.write c msg) := by
  unfold Session.write
  dsimp only
  split
  · exact h.send c hmsg
  · exact (h.send c hmsg).lose_connection

end

end WaitFrame

theorem waitFrame_of_waited {s s' : Session} {ready : Ready} (h : Waited s ready s') :
    WaitFrame s s' := by
  have hrefl := WaitFrame.refl s
  cases h with
  | idles => exact hrefl
  | returns | retries | accepts | learns => exact { hrefl with }
  | connects result => cases result <;> exact { hrefl with }
  | loses => exact hrefl.lose_connection
  | gives_up ready c => exact (hrefl.send c rfl).lose_connection
  | stages _ _ _ hfactory _ => exact { hrefl with candidate := fun _ => .inr hfactory }
  | drops => exact hrefl.drop_candidate
  | refuses ready c => exact hrefl.drop_candidate.send c rfl
  | hears _ _ hstaged => exact { hrefl with candidate := fun _ => .inl hstaged }
  | writes ready c => exact hrefl.write c rfl
  | reports ready update =>
    exact { hrefl with event_marks := (event_marks_snoc ..).trans (List.append_nil _) }
  | forwards u rest hqueue =>
    have hsuffix : rest <:+ s.update_rx := by
      rw [hqueue]
      exact List.suffix_cons u rest
    cases ht : s.transport with
    | none => exact { hrefl with update_rx := hsuffix }
    | some c =>
      have hmem : u ∈ s.update_rx := by
        rw [hqueue]
        exact List.mem_cons_self ..
      apply WaitFrame.write
      · exact { hrefl with update_rx := hsuffix, writes := .inr ⟨c, u, hmem, ht, rfl⟩ }
      · rfl

theorem wait_pending {s : Session} {input : FsmInput} (hp : s.pending_input = some input) (now : ℕ)
    (ready : Ready) :
    s.wait_for_input now ready = ({ s with pending_input := none }).returning input := by
  unfold wait_for_input
  rw [hp]

theorem waitFrame (s : Session) (now : ℕ) (ready : Ready) :
    WaitFrame s (s.wait_for_input now ready) := by
  cases hp : s.pending_input with
  | none => exact waitFrame_of_waited (waited hp now ready)
  | some input =>
    rw [wait_pending hp]
    exact { WaitFrame.refl s with }

/-- A write while waiting leaves the connection alone, or loses it. -/
theorem move_write {s t : Session} {ready : Ready} (c : Connection) (msg : BgpMessage)
    (hpending : s.pending_input = none) (hpending' : t.pending_input = none)
    (hphase : t.phase = .Waiting) (htransport : t.transport = s.transport)
    (htask : t.connect_task = s.connect_task) : WaitMove s (t.write c msg) ready := by
  unfold write send
  split
  · exact .stays hpending hpending' htransport htask (.inl hphase)
  · exact .loses hpending hpending' ⟨rfl, rfl⟩ rfl

/-- **How waiting ends.** -/
theorem wait_move {s : Session} (hwait : s.phase = .Waiting) (now : ℕ) (ready : Ready) :
    WaitMove s (s.wait_for_input now ready) ready := by
  cases hp : s.pending_input with
  | some input =>
    rw [wait_pending hp]
    exact .pends input hp rfl rfl rfl rfl
  | none =>
    have hsend : ∀ (t : Session) (c : Connection) (msg : BgpMessage),
        (t.send c msg).1.pending_input = t.pending_input ∧ (t.send c msg).1.phase = t.phase ∧
          (t.send c msg).1.transport = t.transport ∧
          (t.send c msg).1.connect_task = t.connect_task := by
      intro t c msg
      unfold send
      split <;> exact ⟨rfl, rfl, rfl, rfl⟩
    generalize hs' : s.wait_for_input now ready = s'
    cases hs' ▸ waited hp now ready with
    | idles | stages | drops | learns | reports => exact .stays hp hp rfl rfl (.inl hwait)
    | returns _ _ _ hinput => exact .stays hp hp rfl rfl (.inr (.inr ⟨_, hinput, rfl⟩))
    | retries => exact .stays hp hp rfl rfl (.inr (.inr ⟨_, rfl, rfl⟩))
    | hears => exact .stays hp hp rfl rfl (.inr (.inl rfl))
    | connects result hrunning =>
      cases result with
      | none => exact .fails rfl hp hp hrunning rfl rfl rfl
      | some stream => exact .connects stream rfl hp hp hrunning rfl rfl rfl
    | loses => exact .loses hp hp ⟨rfl, rfl⟩ rfl
    | gives_up ready c notif => exact .loses hp ((hsend ..).1.trans hp) ⟨rfl, rfl⟩ rfl
    | accepts stream hstaged hlive => exact .accepts stream rfl hp hp hstaged hlive rfl rfl rfl
    | refuses ready c notif =>
      obtain ⟨hp', hphase, ht, htask⟩ := hsend s.drop_candidate c (.Notification notif)
      exact .stays hp (hp'.trans hp) ht htask (.inl (hphase.trans hwait))
    | writes ready c => exact move_write c _ hp hp hwait rfl rfl
    | forwards u rest =>
      cases ht : s.transport with
      | none => exact .stays hp hp ht.symm rfl (.inl hwait)
      | some c => exact move_write c _ hp hp hwait ht.symm rfl

/-! ## Before an input -/

/-- All that is noted before the state machine sees an input: why the session ends, if it does
now, and that a stop leaves no candidate. -/
theorem prepare_eq (s : Session) (input : FsmInput) :
    ∃ reason candidate deadline,
      s.prepare input = { s with
        termination_reason := reason
        pending_collision_candidate := candidate
        pending_collision_deadline := deadline } ∧
      (is_administrative input = true → candidate = none) ∧
      (is_administrative input = false → candidate = s.pending_collision_candidate) := by
  obtain ⟨reason, hreason⟩ : ∃ reason, (if s.fsm.is_established then
      { s with termination_reason := reason_for input } else s)
        = { s with termination_reason := reason } := by
    split
    · exact ⟨_, rfl⟩
    · exact ⟨s.termination_reason, rfl⟩
  unfold prepare
  rw [hreason]
  dsimp only
  split
  next h =>
    refine ⟨reason, none, none, rfl, fun _ => rfl, fun hadmin => ?_⟩
    rw [hadmin] at h
    cases h
  next h =>
    refine ⟨reason, s.pending_collision_candidate, s.pending_collision_deadline, rfl,
      fun hadmin => ?_, fun _ => rfl⟩
    simpa [hadmin] using h

/-- `handle`, as a rule: what the input keeps, and the loss of the connection after a write that
failed. -/
theorem handle_keeps {P : Session → Prop} {s : Session} {now : ℕ} {input : FsmInput}
    (hphase : ∀ t, P t → P { t with phase := .Resolving })
    (h : ∀ reason candidate deadline, P (({ s with
      termination_reason := reason
      pending_collision_candidate := candidate
      pending_collision_deadline := deadline }).process now input).1)
    (hfailed : ∀ t, P t → P (t.process now .TcpFailed).1) : P (s.handle now input) := by
  obtain ⟨reason, candidate, deadline, hprepare, -, -⟩ := s.prepare_eq input
  unfold handle
  rw [hprepare]
  dsimp only
  split
  · exact hphase _ (h reason candidate deadline)
  · exact hphase _ (hfailed _ (h reason candidate deadline))

/-! ## A candidate -/

/-- **What becomes of a candidate**: it is kept, dropped or adopted. -/
theorem resolve_cases (s : Session) (now : ℕ) :
    s.adopted = none ∧ (s.try_resolve_pending_candidate now = s ∨
        s.try_resolve_pending_candidate now = { s with pending_collision_candidate := none }) ∨
      ∃ candidate open_msg, s.adopted = some (candidate, open_msg) ∧
        s.try_resolve_pending_candidate now
          = ({ s with pending_collision_candidate := none }).adopt now candidate open_msg := by
  unfold adopted try_resolve_pending_candidate
  cases hc : s.pending_collision_candidate with
  | none => exact .inl ⟨rfl, .inl rfl⟩
  | some candidate =>
    dsimp only
    cases ho : candidate.open_msg with
    | none => exact .inl ⟨rfl, .inl rfl⟩
    | some open_msg =>
      dsimp only
      cases hd : s.decide_candidate candidate.purpose open_msg with
      | none => exact .inl ⟨rfl, .inl rfl⟩
      | some b => cases b with
        | false => exact .inl ⟨rfl, .inr rfl⟩
        | true => exact .inr ⟨candidate, open_msg, rfl, rfl⟩

/-- `try_resolve_pending_candidate`, as a rule. -/
theorem resolve_keeps {P : Session → Prop} {s : Session} {now : ℕ} (hs : P s)
    (hdropped : P { s with pending_collision_candidate := none })
    (hreason : ∀ t, P t → P { t with termination_reason := .Unclean })
    (hinstall : ∀ t candidate, P t → P (t.install candidate))
    (hprocess : ∀ t input, (∀ u, input ≠ .MessageReceived (.Update u)) → P t →
      P (t.process now input).1) : P (s.try_resolve_pending_candidate now) := by
  rcases resolve_cases s now with ⟨-, heq | heq⟩ | ⟨candidate, open_msg, -, heq⟩
  · rw [heq]
    exact hs
  · rw [heq]
    exact hdropped
  · rw [heq]
    refine hprocess _ _ (by simp) (hprocess _ _ (by simp) (hinstall _ candidate ?_))
    unfold displace
    split
    · exact hprocess _ _ (by simp) hdropped
    · exact hprocess _ _ (by simp) (hreason _ hdropped)
    · exact hdropped

section

variable {s : Session} {candidate : CollisionCandidate} {open_msg : OpenMessage}
  (h : s.adopted = some (candidate, open_msg))
include h

theorem candidate_of_adopted :
    s.pending_collision_candidate = some candidate ∧
      s.decide_candidate candidate.purpose open_msg = some true := by
  unfold adopted at h
  cases hc : s.pending_collision_candidate with
  | none =>
    rw [hc] at h
    cases h
  | some c =>
    rw [hc] at h
    dsimp only at h
    cases ho : c.open_msg with
    | none =>
      rw [ho] at h
      cases h
    | some o =>
      rw [ho] at h
      dsimp only at h
      split at h
      next hd =>
        cases h
        exact ⟨rfl, hd⟩
      · cases h

theorem state_of_adopted : s.fsm.state ≠ .OpenSent := by
  intro hs
  have hd := (candidate_of_adopted h).2
  unfold decide_candidate at hd
  rw [hs] at hd
  cases hp : candidate.purpose <;> rw [hp] at hd <;> cases hd

end

/-- What is left of the connection that a candidate replaces. -/
structure Displaced (s s' : Session) : Prop where
  aside : Aside s s'
  tame : Tame s s'
  live : s'.fsm.state.live = false
  idle : s'.fsm.state = .Idle → s.fsm.state = .Idle
  closed : s.fsm.state.live = true → s'.Closed

/-- OpenSent apart, where nothing is given up. -/
theorem displace_spec {s : Session} (now : ℕ) (hs : s.fsm.state ≠ .OpenSent) :
    Displaced s (s.displace now) := by
  unfold displace
  cases hstate : s.fsm.state with
  | OpenSent => exact absurd hstate hs
  | Idle | Connect | Active =>
    exact ⟨⟨rfl, rfl, rfl, rfl, rfl⟩, Tame.refl s, by rw [hstate]; rfl, id,
      fun hlive => by rw [hstate] at hlive; cases hlive⟩
  | OpenConfirm =>
    have hprocess : s.fsm.process .CollisionDetected = (s.fsm.forget .Active,
        [.StopHoldTimer, .StopKeepaliveTimer, Fsm.notify (.Cease .ConnectionCollisionResolution),
          .CloseTcpConnection]) := by
      rw [Fsm.process, hstate]
      rfl
    have hquiet : ∀ o ∈ (s.fsm.process .CollisionDetected).2,
        o.quiet = true ∨ o = .CloseTcpConnection := by
      rw [hprocess]
      simp [FsmOutput.quiet, Fsm.notify]
    refine ⟨aside_process .., tame_process hquiet, ?_, ?_, fun _ => closed_of_process hquiet ?_⟩
    · rw [process_fsm, hprocess]
      rfl
    · intro hidle
      rw [process_fsm, hprocess] at hidle
      cases hidle
    · rw [hprocess]
      simp
  | Established =>
    have hprocess : s.fsm.process .CollisionDetected = (s.fsm.forget .Connect,
        [.StopHoldTimer, .StopKeepaliveTimer, .CloseTcpConnection, .SessionTerminated,
          .StartConnectRetryTimer CONNECT_RETRY_INTERVAL]) := by
      rw [Fsm.process, hstate]
      rfl
    have hquiet : ∀ o ∈ (s.fsm.process .CollisionDetected).2,
        o.quiet = true ∨ o = .CloseTcpConnection := by
      rw [hprocess]
      simp [FsmOutput.quiet]
    have haside := aside_process { s with termination_reason := .Unclean } now .CollisionDetected
    have htame : Tame { s with termination_reason := .Unclean }
        (Session.process { s with termination_reason := .Unclean } now .CollisionDetected).1 :=
      tame_process hquiet
    refine ⟨{ haside with }, { htame with }, ?_, ?_, fun _ => closed_of_process hquiet ?_⟩
    · rw [process_fsm]
      rw [hprocess]
      rfl
    · intro hidle
      rw [process_fsm] at hidle
      rw [hprocess] at hidle
      cases hidle
    · rw [hprocess]
      simp

/-! ## A step -/

section

variable {s : Session} (now : ℕ) (outcomes : List Bool) (ready : Ready)

theorem step_waiting (h : s.phase = .Waiting) :
    s.step (.task now outcomes ready)
      = ({ s with outcomes := outcomes }).wait_for_input now ready := by
  simp only [step, advance, h]

theorem step_handling {input : FsmInput} (h : s.phase = .Handling input) :
    s.step (.task now outcomes ready) = ({ s with outcomes := outcomes }).handle now input := by
  simp only [step, advance, h]

theorem step_resolving (h : s.phase = .Resolving) :
    s.step (.task now outcomes ready)
      = { ({ s with outcomes := outcomes }).try_resolve_pending_candidate now with
          phase := .Waiting } := by
  simp only [step, advance, h]

end

/-! ## A small session -/

/-- A session without anything special. -/
def plain_session : SessionConfig where
  local_as := 65001
  local_bgp_id := Ipv4Addr.new 10 0 0 1
  hold_time := 90
  connect_retry_time := 120
  capabilities := []
  required_capabilities := []
  peer_as := some 65002
  confederation_member := false
  public_as := 65001

/-- A connection between the two ends of the session. -/
def stream (id : ℕ) : TcpStream :=
  ⟨id, some (.V4 (Ipv4Addr.new 10 0 0 1)), some (.V4 (Ipv4Addr.new 10 0 0 2))⟩

/-- The task finds something ready, handles it and looks for a candidate; every write succeeds. -/
def round (ready : Ready) : List Step :=
  [.task 0 [] ready, .task 0 [] .update, .task 0 [] .update]

/-- The session is started, and the peer connects first. -/
def peer_connects_first : List Step :=
  round (.command (some .Start)) ++ round (.command (some (.IncomingConnection (stream 2))))

/-- The session comes up. -/
def session_up : List Step :=
  peer_connects_first ++ round (.message (.message (.Open plain_open)))
    ++ round (.message (.message .Keepalive))

end Session

end Pathvector

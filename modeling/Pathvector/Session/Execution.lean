/-
# Carrying out a batch

What `execute` leaves of the connection, for each of the moves of the state machine. Most outputs
are tame: they leave the connection alone, or it is closed (`Tame`). What is left are the two
moves that bring a connection into use, which are computed.

`opened` is the connection our last OPEN was written to.
-/
import Pathvector.Session.Moves
import Pathvector.Session.Task

set_option autoImplicit false

namespace Pathvector

def BgpMessage.is_open : BgpMessage → Bool
  | .Open _ => true
  | _ => false

/-- The connection our last OPEN was written to. -/
def opened (sent : List (Connection × BgpMessage)) : Option Connection :=
  sent.foldl (fun last m => if m.2.is_open then some m.1 else last) none

theorem opened_snoc (sent : List (Connection × BgpMessage)) (c : Connection) (msg : BgpMessage) :
    opened (sent ++ [(c, msg)]) = if msg.is_open then some c else opened sent := by
  rw [opened, List.foldl_append]
  rfl

theorem mem_sent_of_opened {sent : List (Connection × BgpMessage)} {c : Connection}
    (h : opened sent = some c) : ∃ open_msg, (c, .Open open_msg) ∈ sent := by
  induction sent using List.reverseRecOn with
  | nil => cases h
  | append_singleton sent m ih =>
    obtain ⟨d, msg⟩ := m
    rw [opened_snoc] at h
    cases msg with
    | Open open_msg =>
      cases h
      exact ⟨open_msg, by simp⟩
    | _ =>
      obtain ⟨open_msg, hmem⟩ := ih h
      exact ⟨open_msg, List.mem_append_left _ hmem⟩

/-! ## The event channel -/

theorem event_marks_snoc (events : List SessionEvent) (e : SessionEvent) :
    event_marks (events ++ [e]) = event_marks events ++ e.mark.toList := by
  rw [event_marks, List.filterMap_append]
  cases e <;> rfl

namespace Session

variable {s s' a b c : Session} {now : ℕ} {os : List FsmOutput} {input : FsmInput} {o : FsmOutput}

/-! ## One output -/

/-- All that asking for a connection can come to. -/
theorem perform_initiate (s : Session) (now : ℕ) :
    (∃ t, s.pending_transport = some t ∧ s.perform now .InitiateTcpConnect = ({ s with
        pending_transport := none, transport := some t, pending_input := some .TcpConnected },
        true)) ∨
      s.pending_transport = none ∧
        (s.connect_factory = true ∧
            s.perform now .InitiateTcpConnect = ({ s with connect_task := true }, true) ∨
          s.connect_factory = false ∧
            s.perform now .InitiateTcpConnect
              = ({ s with pending_input := some .TcpFailed }, true)) := by
  cases hp : s.pending_transport with
  | some t => exact .inl ⟨t, rfl, by simp only [perform, hp]⟩
  | none => cases hf : s.connect_factory <;> simp [perform, hp, hf]

/-- All that writing a message can come to. -/
theorem perform_send (s : Session) (now : ℕ) (msg : BgpMessage) :
    s.transport = none ∧ s.perform now (.SendMessage msg) = (s, true) ∨
      ∃ c, s.transport = some c ∧
        (s.next_outcome = true ∧ s.perform now (.SendMessage msg) = ({ s with
            outcomes := s.outcomes.tail, sent := s.sent ++ [(c, msg)] }, true) ∨
          s.next_outcome = false ∧ s.perform now (.SendMessage msg)
            = (({ s with outcomes := s.outcomes.tail }).drop_connection, false)) := by
  cases ht : s.transport with
  | none => exact .inl ⟨rfl, by simp only [perform, ht]⟩
  | some c => cases ho : s.next_outcome <;> simp [perform, send, ht, ho]

/-! ## Frames -/

/-- What carrying out outputs leaves alone. -/
structure Frame (s s' : Session) : Prop where
  fsm : s'.fsm = s.fsm
  connect_factory : s'.connect_factory = s.connect_factory
  candidate : s'.pending_collision_candidate = s.pending_collision_candidate
  update_rx : s'.update_rx = s.update_rx
  phase : s'.phase = s.phase
  batches : s'.batches = s.batches
  writes : s'.writes = s.writes

theorem Frame.refl (s : Session) : Frame s s := ⟨rfl, rfl, rfl, rfl, rfl, rfl, rfl⟩

theorem Frame.trans (h : Frame a b) (h' : Frame b c) : Frame a c where
  fsm := h'.fsm.trans h.fsm
  connect_factory := h'.connect_factory.trans h.connect_factory
  candidate := h'.candidate.trans h.candidate
  update_rx := h'.update_rx.trans h.update_rx
  phase := h'.phase.trans h.phase
  batches := h'.batches.trans h.batches
  writes := h'.writes.trans h.writes

theorem frame_perform (s : Session) (now : ℕ) (o : FsmOutput) : Frame s (s.perform now o).1 := by
  cases o with
  | InitiateTcpConnect =>
    rcases s.perform_initiate now with ⟨t, -, h⟩ | ⟨-, ⟨-, h⟩ | ⟨-, h⟩⟩ <;> rw [h] <;>
      exact ⟨rfl, rfl, rfl, rfl, rfl, rfl, rfl⟩
  | SendMessage msg =>
    rcases s.perform_send now msg with ⟨-, h⟩ | ⟨c, -, ⟨-, h⟩ | ⟨-, h⟩⟩ <;> rw [h] <;>
      exact ⟨rfl, rfl, rfl, rfl, rfl, rfl, rfl⟩
  | _ => exact ⟨rfl, rfl, rfl, rfl, rfl, rfl, rfl⟩

theorem execute_cons_of_ok (os : List FsmOutput) (h : (s.perform now o).2 = true) :
    execute now s (o :: os) = ((execute now (s.perform now o).1 os).1,
      o :: (execute now (s.perform now o).1 os).2.1, (execute now (s.perform now o).1 os).2.2) := by
  exact if_pos h

theorem execute_cons_of_failed (os : List FsmOutput) (h : (s.perform now o).2 = false) :
    execute now s (o :: os) = ((s.perform now o).1, [], false) := by
  exact if_neg (by rw [h]; exact Bool.false_ne_true)

/-- What holds across every single output holds across a batch, however far it is carried out. -/
theorem execute_relates {R : Session → Session → Prop} (hrefl : ∀ s, R s s)
    (htrans : ∀ {s t u}, R s t → R t u → R s u) (h : ∀ s, ∀ o ∈ os, R s (s.perform now o).1)
    (s : Session) : R s (execute now s os).1 := by
  fun_induction execute now s os with
  | case1 s => exact hrefl s
  | case2 s o os r hok rest ih =>
    exact htrans (h s o (List.mem_cons_self ..))
      (ih fun s o ho => h s o (List.mem_cons_of_mem _ ho))
  | case3 s o os r hok => exact h s o (List.mem_cons_self ..)

theorem execute_keeps {P : Session → Prop} (h : ∀ s, ∀ o ∈ os, P s → P (s.perform now o).1)
    (hs : P s) : P (execute now s os).1 :=
  execute_relates (R := fun s s' => P s → P s') (fun _ => id) (fun hst htu => htu ∘ hst) h s hs

theorem frame_execute (now : ℕ) (s : Session) (os : List FsmOutput) :
    Frame s (execute now s os).1 :=
  execute_relates Frame.refl Frame.trans (fun s o _ => frame_perform s now o) s

/-! ## Tame outputs -/

/-- There is no connection, and none is being made. -/
def Closed (s : Session) : Prop := s.transport = none ∧ s.connect_task = false

/-- The connection is left alone or closed, and no OPEN is sent. -/
structure Tame (s s' : Session) : Prop where
  pending_transport : s'.pending_transport = s.pending_transport
  pending_input : s'.pending_input = s.pending_input
  opened : opened s'.sent = opened s.sent
  sent : s.sent ⊆ s'.sent
  connection : (s'.transport = s.transport ∧ s'.connect_task = s.connect_task) ∨ s'.Closed

theorem Tame.refl (s : Session) : Tame s s := ⟨rfl, rfl, rfl, List.Subset.refl _, .inl ⟨rfl, rfl⟩⟩

theorem Tame.trans (h : Tame a b) (h' : Tame b c) : Tame a c where
  pending_transport := h'.pending_transport.trans h.pending_transport
  pending_input := h'.pending_input.trans h.pending_input
  opened := h'.opened.trans h.opened
  sent := List.Subset.trans h.sent h'.sent
  connection := by
    rcases h'.connection with ⟨htransport, htask⟩ | hclosed
    · rcases h.connection with ⟨htransport', htask'⟩ | hclosed
      · exact .inl ⟨htransport.trans htransport', htask.trans htask'⟩
      · exact .inr ⟨htransport.trans hclosed.1, htask.trans hclosed.2⟩
    · exact .inr hclosed

theorem Tame.closed (h : Tame s s') (hs : s.Closed) : s'.Closed := by
  rcases h.connection with ⟨htransport, htask⟩ | hclosed
  · exact ⟨htransport.trans hs.1, htask.trans hs.2⟩
  · exact hclosed

theorem Tame.transport_eq (h : Tame s s') {c : Connection} (hc : s'.transport = some c) :
    s.transport = some c := by
  rcases h.connection with ⟨htransport, -⟩ | ⟨hnone, -⟩
  · rw [← htransport, hc]
  · rw [hnone] at hc
    cases hc

theorem tame_send (c : Connection) {msg : BgpMessage} (hmsg : msg.is_open = false) :
    Tame s (s.send c msg).1 := by
  unfold send
  split
  · refine ⟨rfl, rfl, ?_, List.subset_append_left .., .inl ⟨rfl, rfl⟩⟩
    rw [opened_snoc, hmsg]
    rfl
  · exact ⟨rfl, rfl, rfl, List.Subset.refl _, .inl ⟨rfl, rfl⟩⟩

theorem tame_drop (s : Session) : Tame s s.drop_connection :=
  ⟨rfl, rfl, rfl, List.Subset.refl _, .inr ⟨rfl, rfl⟩⟩

/-- Only a write fails, and then the connection is gone. -/
theorem of_perform_failed (h : (s.perform now o).2 = false) :
    o.is_send = true ∧ (s.perform now o).1.Closed := by
  cases o with
  | SendMessage msg =>
    rcases s.perform_send now msg with ⟨-, heq⟩ | ⟨c, -, ⟨-, heq⟩ | ⟨-, heq⟩⟩ <;> rw [heq] at h ⊢
    · cases h
    · cases h
    · exact ⟨rfl, rfl, rfl⟩
  | InitiateTcpConnect =>
    rcases s.perform_initiate now with ⟨t, -, heq⟩ | ⟨-, ⟨-, heq⟩ | ⟨-, heq⟩⟩ <;> rw [heq] at h <;>
      cases h
  | _ => cases h

theorem tame_perform (s : Session) (now : ℕ) (ho : o.quiet = true ∨ o = .CloseTcpConnection) :
    Tame s (s.perform now o).1 := by
  cases o with
  | InitiateTcpConnect => simp [FsmOutput.quiet] at ho
  | CloseTcpConnection => exact tame_drop s
  | SendMessage msg =>
    have hmsg : msg.is_open = false := by
      cases msg with
      | Open open_msg => simp [FsmOutput.quiet] at ho
      | _ => rfl
    unfold perform
    dsimp only
    split
    · exact Tame.refl s
    · split
      · exact tame_send _ hmsg
      · exact (tame_send _ hmsg).trans (tame_drop _)
  | _ => exact ⟨rfl, rfl, rfl, List.Subset.refl _, .inl ⟨rfl, rfl⟩⟩

theorem perform_quiet (ho : o.quiet = true) (hok : (s.perform now o).2 = true) :
    (s.perform now o).1.transport = s.transport ∧
      (s.perform now o).1.connect_task = s.connect_task := by
  cases o with
  | InitiateTcpConnect | CloseTcpConnection => cases ho
  | SendMessage msg =>
    rcases s.perform_send now msg with ⟨-, h⟩ | ⟨c, -, ⟨-, h⟩ | ⟨-, h⟩⟩ <;> rw [h] at hok ⊢
    · exact ⟨rfl, rfl⟩
    · exact ⟨rfl, rfl⟩
    · cases hok
  | _ => exact ⟨rfl, rfl⟩

theorem tame_execute (s : Session) (hos : ∀ o ∈ os, o.quiet = true ∨ o = .CloseTcpConnection) :
    Tame s (execute now s os).1 :=
  execute_relates Tame.refl Tame.trans (fun s o ho => tame_perform s now (hos o ho)) s

theorem closed_of_execute_failed (h : (execute now s os).2.2 = false) :
    (execute now s os).1.Closed := by
  fun_induction execute now s os with
  | case1 s => cases h
  | case2 s o os r hok rest ih => exact ih h
  | case3 s o os r hok => exact (of_perform_failed (Bool.eq_false_of_not_eq_true hok)).2

theorem execute_quiet (hos : ∀ o ∈ os, o.quiet = true) (hok : (execute now s os).2.2 = true) :
    (execute now s os).1.transport = s.transport ∧
      (execute now s os).1.connect_task = s.connect_task := by
  fun_induction execute now s os with
  | case1 s => exact ⟨rfl, rfl⟩
  | case2 s o os r h rest ih =>
    obtain ⟨ho, hos⟩ := List.forall_mem_cons.1 hos
    obtain ⟨htransport, htask⟩ := ih hos hok
    obtain ⟨htransport', htask'⟩ := perform_quiet ho h
    exact ⟨htransport.trans htransport', htask.trans htask'⟩
  | case3 s o os r h => cases hok

/-- Whether or not the batch is carried out to its end, it closes the connection. -/
theorem closed_of_close_mem (hos : ∀ o ∈ os, o.quiet = true ∨ o = .CloseTcpConnection)
    (hclose : .CloseTcpConnection ∈ os) : (execute now s os).1.Closed := by
  fun_induction execute now s os with
  | case1 s => cases hclose
  | case2 s o os r h rest ih =>
    obtain ⟨ho, hos⟩ := List.forall_mem_cons.1 hos
    rcases List.mem_cons.1 hclose with rfl | hclose
    · exact (tame_execute s.drop_connection hos).closed ⟨rfl, rfl⟩
    · exact ih hos hclose
  | case3 s o os r h => exact (of_perform_failed (Bool.eq_false_of_not_eq_true h)).2

/-! ## Reports -/

/-- The event an output stands for. -/
def event_of (s : Session) : FsmOutput → Option SessionEvent
  | .SessionEstablished info =>
    some (.Established ⟨info.peer_bgp_id, info.peer_type, info.peer_capabilities, s.local_addr⟩)
  | .SessionTerminated => some (.Terminated s.termination_reason)
  | .RouteUpdate update => some (.RouteUpdate update)
  | _ => none

/-- One output: the event it stands for, and the data of later events as they were. -/
theorem events_perform (s : Session) (now : ℕ) (o : FsmOutput) :
    (s.perform now o).1.events
        = s.events ++ (if (s.perform now o).2 = true then (s.event_of o).toList else [])
      ∧ (s.perform now o).1.event_of = s.event_of := by
  cases o with
  | InitiateTcpConnect =>
    rcases s.perform_initiate now with ⟨t, -, h⟩ | ⟨-, ⟨-, h⟩ | ⟨-, h⟩⟩ <;> rw [h] <;>
      exact ⟨(List.append_nil _).symm, rfl⟩
  | SendMessage msg =>
    rcases s.perform_send now msg with ⟨-, h⟩ | ⟨c, -, ⟨-, h⟩ | ⟨-, h⟩⟩ <;> rw [h] <;>
      exact ⟨(List.append_nil _).symm, rfl⟩
  | SessionEstablished info | SessionTerminated | RouteUpdate update => exact ⟨rfl, rfl⟩
  | _ => exact ⟨(List.append_nil _).symm, rfl⟩

theorem events_execute (now : ℕ) (s : Session) (os : List FsmOutput) :
    (execute now s os).1.events = s.events ++ (execute now s os).2.1.filterMap s.event_of := by
  fun_induction execute now s os with
  | case1 s => exact (List.append_nil _).symm
  | case2 s o os r h rest ih =>
    obtain ⟨hevents, hof⟩ := events_perform s now o
    rw [if_pos h] at hevents
    rw [ih, hevents, hof, List.filterMap_cons, List.append_assoc]
    cases s.event_of o <;> rfl
  | case3 s o os r h =>
    have hevents := (events_perform s now o).1
    rwa [if_neg h] at hevents

theorem event_marks_execute (now : ℕ) (s : Session) (os : List FsmOutput) :
    event_marks (execute now s os).1.events
      = event_marks s.events ++ marks (execute now s os).2.1 := by
  have hmark : ∀ o, (s.event_of o).bind SessionEvent.mark = o.mark := by
    intro o
    cases o <;> rfl
  rw [events_execute, event_marks, List.filterMap_append, List.filterMap_filterMap]
  simp only [hmark]
  rfl

theorem execute_executed (now : ℕ) (s : Session) (os : List FsmOutput) :
    (execute now s os).2.2 = true ∧ (execute now s os).2.1 = os ∨
      (execute now s os).2.2 = false ∧ ∃ o rest, o.is_send = true ∧
        os = (execute now s os).2.1 ++ o :: rest := by
  fun_induction execute now s os with
  | case1 s => exact .inl ⟨rfl, rfl⟩
  | case2 s o os r h rest ih =>
    rcases ih with ⟨hok, hall⟩ | ⟨hfail, o', rest', ho', hpart⟩
    · exact .inl ⟨hok, congrArg _ hall⟩
    · exact .inr ⟨hfail, o', rest', ho', congrArg _ hpart⟩
  | case3 s o os r h =>
    exact .inr ⟨rfl, o, os, (of_perform_failed (Bool.eq_false_of_not_eq_true h)).1, rfl⟩

theorem execute_ok_of_no_send (hos : ∀ o ∈ os, o.is_send = false) :
    (execute now s os).2.2 = true := by
  rcases execute_executed now s os with ⟨hok, -⟩ | ⟨-, o, rest, ho, hpart⟩
  · exact hok
  · have hmem : o ∈ os := by
      rw [hpart]
      simp
    rw [hos o hmem] at ho
    cases ho

theorem perform_of_outcomes (now : ℕ) (o : FsmOutput) (h : false ∉ s.outcomes) :
    (s.perform now o).2 = true ∧ false ∉ (s.perform now o).1.outcomes := by
  have hnext : s.next_outcome = true := by
    unfold next_outcome
    cases ho : s.outcomes with
    | nil => rfl
    | cons b rest =>
      cases b with
      | true => rfl
      | false => simp [ho] at h
  have htail : false ∉ s.outcomes.tail := fun hmem => h (List.mem_of_mem_tail hmem)
  cases o with
  | InitiateTcpConnect =>
    rcases s.perform_initiate now with ⟨t, -, heq⟩ | ⟨-, ⟨-, heq⟩ | ⟨-, heq⟩⟩ <;> rw [heq] <;>
      exact ⟨rfl, h⟩
  | SendMessage msg =>
    rcases s.perform_send now msg with ⟨-, heq⟩ | ⟨c, -, ⟨-, heq⟩ | ⟨hfail, -⟩⟩
    · rw [heq]
      exact ⟨rfl, h⟩
    · rw [heq]
      exact ⟨rfl, htail⟩
    · cases hfail.symm.trans hnext
  | _ => exact ⟨rfl, h⟩

theorem execute_of_outcomes (now : ℕ) (os : List FsmOutput) (h : false ∉ s.outcomes) :
    (execute now s os).2.2 = true ∧ false ∉ (execute now s os).1.outcomes := by
  fun_induction execute now s os with
  | case1 s => exact ⟨rfl, h⟩
  | case2 s o os r hok rest ih => exact ih (perform_of_outcomes now o h).2
  | case3 s o os r hok => exact absurd (perform_of_outcomes now o h).1 hok

/-! ## One input -/

@[simp]
theorem process_fsm (s : Session) (now : ℕ) (input : FsmInput) :
    (s.process now input).1.fsm = (s.fsm.process input).1 :=
  (frame_execute now { s with fsm := (s.fsm.process input).1 } (s.fsm.process input).2).fsm

/-- What feeding an input leaves alone. -/
structure Aside (s s' : Session) : Prop where
  connect_factory : s'.connect_factory = s.connect_factory
  candidate : s'.pending_collision_candidate = s.pending_collision_candidate
  update_rx : s'.update_rx = s.update_rx
  phase : s'.phase = s.phase
  writes : s'.writes = s.writes

theorem aside_process (s : Session) (now : ℕ) (input : FsmInput) :
    Aside s (s.process now input).1 :=
  have h := frame_execute now { s with fsm := (s.fsm.process input).1 } (s.fsm.process input).2
  ⟨h.connect_factory, h.candidate, h.update_rx, h.phase, h.writes⟩

/-- What an input adds to the histories: its batch, as far as it was carried out, and on the
event channel what that part reports. -/
theorem process_report (s : Session) (now : ℕ) (input : FsmInput) :
    ∃ executed, (s.process now input).1.batches
        = s.batches ++ [⟨s.fsm.state, (s.fsm.process input).1.state, (s.fsm.process input).2,
          executed⟩] ∧
      event_marks (s.process now input).1.events = event_marks s.events ++ marks executed ∧
      ((s.process now input).2 = true ∧ executed = (s.fsm.process input).2 ∨
        (s.process now input).2 = false ∧ ∃ o rest, o.is_send = true ∧
          (s.fsm.process input).2 = executed ++ o :: rest) := by
  have hframe := frame_execute now { s with fsm := (s.fsm.process input).1 } (s.fsm.process input).2
  refine ⟨(execute now { s with fsm := (s.fsm.process input).1 } (s.fsm.process input).2).2.1,
    ?_, event_marks_execute .., execute_executed ..⟩
  exact congrArg (· ++ _) hframe.batches

/-- What an input adds to the channel: the events of its outputs, or of those before a write that
failed. -/
theorem events_process (s : Session) (now : ℕ) (input : FsmInput) :
    ∃ executed, (s.process now input).1.events = s.events ++ executed.filterMap s.event_of ∧
      ((s.process now input).2 = true ∧ executed = (s.fsm.process input).2 ∨
        (s.process now input).2 = false ∧ ∃ o rest, o.is_send = true ∧
          (s.fsm.process input).2 = executed ++ o :: rest) := by
  refine ⟨(execute now { s with fsm := (s.fsm.process input).1 } (s.fsm.process input).2).2.1,
    ?_, execute_executed ..⟩
  exact events_execute now { s with fsm := (s.fsm.process input).1 } (s.fsm.process input).2

theorem mem_events_process (s : Session) (now : ℕ) (input : FsmInput) :
    ∃ evs, (s.process now input).1.events = s.events ++ evs ∧
      ∀ e ∈ evs, ∃ o ∈ (s.fsm.process input).2, s.event_of o = some e := by
  obtain ⟨executed, hevents, hpart⟩ := events_process s now input
  refine ⟨_, hevents, ?_⟩
  intro e he
  obtain ⟨o, ho, heq⟩ := List.mem_filterMap.1 he
  refine ⟨o, ?_, heq⟩
  rcases hpart with ⟨-, rfl⟩ | ⟨-, o', rest, -, hall⟩
  · exact ho
  · rw [hall]
    exact List.mem_append_left _ ho

theorem closed_of_process_failed (h : (s.process now input).2 = false) :
    (s.process now input).1.Closed :=
  closed_of_execute_failed h

theorem tame_process (h : ∀ o ∈ (s.fsm.process input).2, o.quiet = true ∨ o = .CloseTcpConnection) :
    Tame s (s.process now input).1 :=
  have ht : Tame { s with fsm := (s.fsm.process input).1 }
      (execute now { s with fsm := (s.fsm.process input).1 } (s.fsm.process input).2).1 :=
    tame_execute _ h
  { ht with }

theorem process_quiet (h : ∀ o ∈ (s.fsm.process input).2, o.quiet = true)
    (hok : (s.process now input).2 = true) :
    (s.process now input).1.transport = s.transport ∧
      (s.process now input).1.connect_task = s.connect_task :=
  execute_quiet h hok

theorem closed_of_process
    (h : ∀ o ∈ (s.fsm.process input).2, o.quiet = true ∨ o = .CloseTcpConnection)
    (hclose : .CloseTcpConnection ∈ (s.fsm.process input).2) : (s.process now input).1.Closed :=
  closed_of_close_mem h hclose

/-- The move that asks for a connection: an injected one is there at once. -/
structure Initiated (s s' : Session) : Prop where
  sent : s'.sent = s.sent
  pending_transport : s'.pending_transport = none
  injected : ∀ {t}, s.pending_transport = some t → s'.transport = some t ∧
    s'.pending_input = some .TcpConnected ∧ s'.connect_task = s.connect_task
  dialled : s.pending_transport = none → s.connect_factory = true → s'.transport = s.transport ∧
    s'.pending_input = s.pending_input ∧ s'.connect_task = true
  refused : s.pending_transport = none → s.connect_factory = false → s'.transport = s.transport ∧
    s'.pending_input = some .TcpFailed ∧ s'.connect_task = s.connect_task

theorem initiated_perform (s : Session) (now : ℕ) :
    (s.perform now .InitiateTcpConnect).2 = true ∧
      Initiated s (s.perform now .InitiateTcpConnect).1 := by
  rcases s.perform_initiate now with ⟨t, hp, h⟩ | ⟨hp, ⟨hf, h⟩ | ⟨hf, h⟩⟩ <;> rw [h] <;>
    refine ⟨rfl, ?_⟩ <;> constructor <;> simp [*]

theorem execute_initiates (s : Session) (now d : ℕ)
    (hos : os = [.StartConnectRetryTimer d, .InitiateTcpConnect] ∨
      os = [.InitiateTcpConnect, .StartConnectRetryTimer d]) :
    (execute now s os).2.2 = true ∧ Initiated s (execute now s os).1 := by
  rcases hos with rfl | rfl
  · have hi := initiated_perform (s.perform now (.StartConnectRetryTimer d)).1 now
    rw [execute_cons_of_ok _ rfl, execute_cons_of_ok _ hi.1]
    exact ⟨rfl, { hi.2 with }⟩
  · have hi := initiated_perform s now
    rw [execute_cons_of_ok _ hi.1, execute_cons_of_ok _ rfl]
    exact ⟨rfl, { hi.2 with }⟩

theorem process_initiates (now : ℕ)
    (h : ∃ d, (s.fsm.process input).2 = [.StartConnectRetryTimer d, .InitiateTcpConnect] ∨
      (s.fsm.process input).2 = [.InitiateTcpConnect, .StartConnectRetryTimer d]) :
    (s.process now input).2 = true ∧ Initiated s (s.process now input).1 := by
  obtain ⟨d, h⟩ := h
  obtain ⟨hok, hi⟩ := execute_initiates { s with fsm := (s.fsm.process input).1 } now d h
  exact ⟨hok, { hi with }⟩

/-- The move that sends our OPEN: on the connection there is, which is lost if that fails. -/
structure Greeted (s s' : Session) (ok : Bool) : Prop where
  pending_transport : s'.pending_transport = s.pending_transport
  pending_input : s'.pending_input = s.pending_input
  sent : s.sent ⊆ s'.sent
  absent : s.transport = none → ok = true ∧ s'.transport = none ∧ s'.connect_task = s.connect_task
  done : ∀ {c}, s.transport = some c → s.next_outcome = true →
    ok = true ∧ s'.transport = some c ∧ opened s'.sent = some c ∧ s'.connect_task = s.connect_task
  failed : s.transport ≠ none → s.next_outcome = false → ok = false ∧ s'.Closed

theorem greeted_perform (s : Session) (now : ℕ) (open_msg : OpenMessage) :
    Greeted s (s.perform now (.SendMessage (.Open open_msg))).1
      (s.perform now (.SendMessage (.Open open_msg))).2 := by
  rcases s.perform_send now (.Open open_msg) with ⟨ht, h⟩ | ⟨c, ht, ⟨ho, h⟩ | ⟨ho, h⟩⟩ <;>
    rw [h] <;>
    constructor <;> simp [*, opened_snoc, BgpMessage.is_open, Closed, drop_connection]

theorem execute_greeting (s : Session) (now : ℕ) (open_msg : OpenMessage)
    (hos : os = [.StopConnectRetryTimer, .SendMessage (.Open open_msg),
      .StartHoldTimer OPEN_HOLD_TIMER]) :
    Greeted s (execute now s os).1 (execute now s os).2.2 := by
  subst hos
  have hg := greeted_perform (s.perform now .StopConnectRetryTimer).1 now open_msg
  rw [execute_cons_of_ok _ rfl]
  cases hok : ((s.perform now .StopConnectRetryTimer).1.perform now
      (.SendMessage (.Open open_msg))).2 with
  | true =>
    rw [execute_cons_of_ok _ hok, execute_cons_of_ok _ rfl]
    rw [hok] at hg
    exact { hg with }
  | false =>
    rw [execute_cons_of_failed _ hok]
    rw [hok] at hg
    exact { hg with }

theorem process_opens (now : ℕ) (h : s.fsm.process input = s.fsm.do_tcp_connected) :
    Greeted s (s.process now input).1 (s.process now input).2 := by
  have hg := execute_greeting { s with fsm := (s.fsm.process input).1 } now s.fsm.make_open
    (congrArg Prod.snd h)
  exact { hg with }

end Session

end Pathvector

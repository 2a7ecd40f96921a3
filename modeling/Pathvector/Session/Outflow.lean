/-
# Are UPDATEs sent in the session they belong to?

The daemon queues UPDATEs for the session task, which writes them to the connection there is. An
UPDATE should only be written in `Established`, in the session it was queued in (`InSession`). The
task looks at neither: it writes whenever there is a connection. So what is needed is that an
UPDATE never waits in the queue beside a connection that is not its own (`misplaces`): it is not
queued before the session is up, and nothing is left in the queue when a connection comes.
-/
import Pathvector.Lib.Run
import Pathvector.Session.Steps

set_option autoImplicit false

namespace Pathvector

namespace Fsm

/-- Nothing is sent on the way into `Established`. -/
theorem no_send_on_entry {fsm : Fsm} {input : FsmInput} (hbefore : fsm.state ≠ .Established)
    (hafter : (fsm.process input).1.state = .Established) :
    ∀ o ∈ (fsm.process input).2, o.is_send = false := by
  cases fsm.turn input with
  | establishes info _ _ hproc =>
    rw [hproc]
    split <;> simp [FsmOutput.is_send]
  | ignores _ hproc =>
    rw [hproc] at hafter
    exact absurd hafter hbefore
  | goes_on _ _ hsame =>
    rw [hsame] at hafter
    exact absurd hafter hbefore
  | leaves h =>
    have hdown := h.after
    rw [hafter] at hdown
    cases hdown
  | initiates _ _ hconnect _ =>
    rw [hconnect] at hafter
    cases hafter
  | waits _ _ hproc | opens _ _ _ hproc | stops _ _ _ hproc | gives_up _ _ hproc
    | agrees _ _ _ _ hproc =>
    rw [hproc] at hafter
    cases hafter

end Fsm

namespace Session

variable (outcomes : List Bool) {s : Session} {now : ℕ} {input : FsmInput}

/-- Every UPDATE of the queue was written in `Established`, and in the session that was open when
it was queued. -/
def InSession (s : Session) : Prop :=
  ∀ w ∈ s.writes, w.state = .Established ∧ w.queued.isSome ∧ w.queued = w.current

/-- The steps that leave an UPDATE waiting beside a connection that is not its own. -/
def misplaces (s : Session) : Step → Bool
  | .enqueue _ => s.transport.isSome && s.fsm.state != .Established
  | .task _ _ ready =>
    !s.update_rx.isEmpty && match s.phase with
      | .Waiting =>
        s.pending_input.isNone && match ready with
          | .command (some (.IncomingConnection _)) =>
            s.pending_collision_candidate.isNone && !s.fsm.state.live && s.connect_factory
          | .connected (some _) => s.connect_task
          | _ => false
      | .Handling input => s.pending_transport.isSome && !s.fsm.state.live && Fsm.asks input
      | .Resolving => s.adopted.isSome

/-- The invariant: what waits beside a connection belongs to the open session. -/
structure InOrder (s : Session) : Prop where
  queue : s.update_rx ≠ [] → s.transport = none ∨
    s.fsm.state = .Established ∧ ∀ u ∈ s.update_rx, u.session = open_session s.events
  session : s.fsm.state = .Established → (open_session s.events).isSome
  written : s.InSession

/-! ## One input -/

theorem open_session_congr {events events' : List SessionEvent}
    (h : event_marks events' = event_marks events) :
    open_session events' = open_session events := by
  unfold open_session
  rw [h]

/-- In `Established` an input that does not end the session reports nothing. -/
theorem marks_of_staying (hbefore : s.fsm.state = .Established)
    (hafter : (s.fsm.process input).1.state = .Established) :
    event_marks (s.process now input).1.events = event_marks s.events := by
  have hmarks : marks (s.fsm.process input).2 = [] := by
    rw [Fsm.marks_process, if_pos hbefore, if_pos hafter]
  obtain ⟨executed, -, hevents, ⟨-, hall⟩ | ⟨-, o, rest, -, hpart⟩⟩ := process_report s now input
  · rw [hevents, hall, hmarks, List.append_nil]
  · rw [hpart, Fsm.marks_append] at hmarks
    rw [hevents, (List.append_eq_nil_iff.1 hmarks).1, List.append_nil]

/-- On the way into `Established` the beginning of a session is reported. -/
theorem session_of_entry (hbefore : s.fsm.state ≠ .Established)
    (hafter : (s.fsm.process input).1.state = .Established) :
    (open_session (s.process now input).1.events).isSome := by
  have hmarks : marks (s.fsm.process input).2 = [true] := by
    rw [Fsm.marks_process, if_neg hbefore, if_pos hafter]
  obtain ⟨executed, -, hevents, ⟨-, hall⟩ | ⟨-, o, rest, ho, hpart⟩⟩ := process_report s now input
  · unfold open_session
    rw [hevents, hall, hmarks]
    simp
  · have hmem : o ∈ (s.fsm.process input).2 := by
      rw [hpart]
      simp
    rw [Fsm.no_send_on_entry hbefore hafter o hmem] at ho
    cases ho

/-- A connection that is there after an input, was there before and is left alone, unless it is
an injected one. -/
theorem transport_of_process {c : Connection}
    (hinject : s.pending_transport = none ∨ s.fsm.state.live = true ∨ Fsm.asks input = false)
    (hc : (s.process now input).1.transport = some c) :
    s.transport = some c ∧
      (s.fsm.state.live = true → (s.process now input).1.fsm.state.live = false →
        s.fsm.state = .OpenSent) := by
  cases s.fsm.move input with
  | stays hlive _ hquiet =>
    refine ⟨(tame_process fun o ho => .inl (hquiet o ho)).transport_eq hc, ?_⟩
    intro hl hdown
    rw [process_fsm, hlive, hl] at hdown
    cases hdown
  | closes _ hclose hquiet =>
    rw [(closed_of_process hquiet hclose).1] at hc
    cases hc
  | gives_up hbefore _ _ hquiet =>
    exact ⟨(tame_process fun o ho => .inl (hquiet o ho).1).transport_eq hc, fun _ _ => hbefore⟩
  | opens _ hlive _ hprocess =>
    have hg := process_opens now hprocess
    refine ⟨?_, fun hl => by rw [hlive] at hl; cases hl⟩
    cases ht : s.transport with
    | none =>
      rw [(hg.absent ht).2.1] at hc
      cases hc
    | some d =>
      cases ho : s.next_outcome with
      | true => rw [← hc, (hg.done ht ho).2.1]
      | false =>
        rw [(hg.failed (by rw [ht]; simp) ho).2.1] at hc
        cases hc
  | initiates hlive _ houtputs hasks =>
    obtain ⟨-, hi⟩ := process_initiates now houtputs
    refine ⟨?_, fun hl => by rw [hlive] at hl; cases hl⟩
    have hnone : s.pending_transport = none := by
      rcases hinject with h | h | h
      · exact h
      · rw [hlive] at h
        cases h
      · rw [hasks] at h
        cases h
    cases hf : s.connect_factory with
    | true => rw [← hc, (hi.dialled hnone hf).1]
    | false => rw [← hc, (hi.refused hnone hf).1]

theorem inOrder_process (now : ℕ) (input : FsmInput) (hs : s.InOrder)
    (hinject : s.update_rx = [] ∨ s.pending_transport = none ∨ s.fsm.state.live = true ∨
      Fsm.asks input = false) : (s.process now input).1.InOrder := by
  have ha := aside_process s now input
  refine ⟨?_, ?_, ?_⟩
  · intro hne
    rw [ha.update_rx] at hne ⊢
    have hinject := hinject.resolve_left hne
    by_cases hgone : (s.process now input).1.transport = none
    · exact .inl hgone
    obtain ⟨c, hc⟩ := Option.ne_none_iff_exists'.1 hgone
    obtain ⟨ht, hleaves⟩ := transport_of_process hinject hc
    rcases hs.queue hne with hnone | ⟨hest, hown⟩
    · rw [hnone] at ht
      cases ht
    -- the session goes on: otherwise the connection would be gone
    have hlive : (s.process now input).1.fsm.state.live = true := by
      by_contra hdown
      have hsent := hleaves (by rw [hest]; rfl) (Bool.eq_false_iff.2 hdown)
      rw [hest] at hsent
      cases hsent
    rw [process_fsm] at hlive ⊢
    have hsame := Fsm.eq_of_established_live hest hlive
    have hafter : (s.fsm.process input).1.state = .Established := by rw [hsame, hest]
    refine .inr ⟨hafter, ?_⟩
    intro u hu
    rw [open_session_congr (marks_of_staying hest hafter)]
    exact hown u hu
  · intro hafter
    rw [process_fsm] at hafter
    by_cases hest : s.fsm.state = .Established
    · rw [open_session_congr (marks_of_staying hest hafter)]
      exact hs.session hest
    · exact session_of_entry hest hafter
  · intro w hw
    rw [ha.writes] at hw
    exact hs.written w hw

/-! ## The phases -/

theorem inOrder_handle (ready : Ready) (hphase : s.phase = .Handling input)
    (hok : s.misplaces (.task now outcomes ready) = false) (hs : s.InOrder) :
    (s.handle now input).InOrder := by
  have hinject : s.update_rx = [] ∨ s.pending_transport = none ∨ s.fsm.state.live = true ∨
      Fsm.asks input = false := by
    by_contra hbad
    simp only [not_or, Bool.not_eq_true, Bool.not_eq_false] at hbad
    obtain ⟨hne, hpt, hlive, hasks⟩ := hbad
    have hsome : s.pending_transport.isSome = true := Option.isSome_iff_ne_none.2 hpt
    simp [misplaces, hphase, hne, hsome, hlive, hasks] at hok
  refine handle_keeps (fun _ ht => { ht with }) (fun reason candidate deadline => ?_) fun t ht => ?_
  · exact inOrder_process (s := { s with
      termination_reason := reason
      pending_collision_candidate := candidate
      pending_collision_deadline := deadline }) now input { hs with } hinject
  · exact inOrder_process now .TcpFailed ht (.inr (.inr (.inr rfl)))

theorem inOrder_wait {ready : Ready} (hphase : s.phase = .Waiting)
    (hok : s.misplaces (.task now outcomes ready) = false) (hs : s.InOrder) :
    (s.wait_for_input now ready).InOrder := by
  have hf := waitFrame s now ready
  have hopen := open_session_congr hf.event_marks
  -- what is left in the queue was there before
  have hqueue : (s.wait_for_input now ready).transport = s.transport ∨
      (s.wait_for_input now ready).transport = none ∨ s.update_rx = [] →
      (s.wait_for_input now ready).InOrder := by
    intro hcases
    refine ⟨?_, ?_, ?_⟩
    · intro hne
      have hne' : s.update_rx ≠ [] := fun h => hne (List.suffix_nil.1 (h ▸ hf.update_rx))
      rcases hcases with hsame | hnone | hempty
      · rw [hsame, hf.state, hopen]
        rcases hs.queue hne' with h | ⟨hest, hown⟩
        · exact .inl h
        · exact .inr ⟨hest, fun u hu => hown u (hf.update_rx.subset hu)⟩
      · exact .inl hnone
      · exact absurd hempty hne'
    · intro hest
      rw [hf.state] at hest
      rw [hopen]
      exact hs.session hest
    · intro w hw
      rcases hf.writes with hsame | ⟨c, u, hu, hc, hsnoc⟩
      · rw [hsame] at hw
        exact hs.written w hw
      · rw [hsnoc] at hw
        rcases List.mem_append.1 hw with hw | hw
        · exact hs.written w hw
        · -- the UPDATE just written waited beside the connection
          rw [List.mem_singleton.1 hw]
          rcases hs.queue (List.ne_nil_of_mem hu) with h | ⟨hest, hown⟩
          · rw [h] at hc
            cases hc
          · exact ⟨hest, by rw [hown u hu]; exact hs.session hest, hown u hu⟩
  cases wait_move hphase now ready with
  | pends _ _ _ htransport _ _ => exact hqueue (.inl htransport)
  | stays _ _ htransport _ _ => exact hqueue (.inl htransport)
  | loses _ _ hclosed _ => exact hqueue (.inr (.inl hclosed.1))
  | fails _ _ _ _ htransport _ _ => exact hqueue (.inl htransport)
  | connects stream hready hpending _ hrunning _ _ _ =>
    subst hready
    apply hqueue
    simpa [misplaces, hphase, hpending, hrunning] using Or.inr (Or.inr hok)
  | accepts stream hready hpending _ hstaged hlive htransport _ _ =>
    apply hqueue
    cases hfac : s.connect_factory with
    | true =>
      subst hready
      refine .inr (.inr ?_)
      simpa [misplaces, hphase, hpending, hstaged, hlive, hfac] using hok
    | false =>
      rw [hfac] at htransport
      exact .inl htransport

theorem inOrder_adopt (now : ℕ) (candidate : CollisionCandidate) (open_msg : OpenMessage)
    (hstate : s.fsm.state ≠ .OpenSent) (hempty : s.update_rx = []) (hs : s.InOrder) :
    (s.adopt now candidate open_msg).InOrder := by
  have hd := displace_spec now hstate
  have hempty' : (s.displace now).update_rx = [] := hd.aside.update_rx.trans hempty
  have hplace : ((s.displace now).install candidate).InOrder := by
    refine ⟨fun hne => absurd hempty' hne, ?_, ?_⟩
    · intro hest
      have hlive : (s.displace now).fsm.state.live = true := by
        rw [show (s.displace now).fsm.state = .Established from hest]
        rfl
      rw [hd.live] at hlive
      cases hlive
    · intro w hw
      exact hs.written w (hd.aside.writes ▸ hw)
  have hgreeted := inOrder_process now .TcpConnected hplace (.inr (.inr (.inr rfl)))
  exact inOrder_process now _ hgreeted (.inr (.inr (.inr rfl)))

theorem inOrder_resolve (ready : Ready) (hphase : s.phase = .Resolving)
    (hok : s.misplaces (.task now outcomes ready) = false) (hs : s.InOrder) :
    ({ s.try_resolve_pending_candidate now with phase := .Waiting } : Session).InOrder := by
  rcases resolve_cases s now with ⟨-, heq | heq⟩ | ⟨candidate, open_msg, hadopted, heq⟩
  · rw [heq]
    exact { hs with }
  · rw [heq]
    exact { hs with }
  · have hempty : s.update_rx = [] := by
      simpa [misplaces, hphase, hadopted] using hok
    have hstate := state_of_adopted hadopted
    have hdropped : ({ s with pending_collision_candidate := none } : Session).InOrder :=
      { hs with }
    have hadopt := inOrder_adopt (s := { s with pending_collision_candidate := none }) now candidate
      open_msg hstate hempty hdropped
    rw [heq]
    exact { hadopt with }

/-! ## Whole runs -/

theorem inOrder_step {e : Step} (hok : s.misplaces e = false) (hs : s.InOrder) :
    (s.step e).InOrder := by
  cases e with
  | enqueue update =>
    refine ⟨?_, hs.session, hs.written⟩
    intro _
    by_cases ht : s.transport = none
    · exact .inl ht
    have hsome : s.transport.isSome = true := Option.isSome_iff_ne_none.2 ht
    have hest : s.fsm.state = .Established := by
      simpa [misplaces, hsome] using hok
    refine .inr ⟨hest, ?_⟩
    intro u hu
    rcases List.mem_append.1 hu with hu | hu
    · rcases hs.queue (List.ne_nil_of_mem hu) with h | ⟨-, hown⟩
      · exact absurd h ht
      · exact hown u hu
    · rw [List.mem_singleton.1 hu]
      rfl
  | task now outcomes ready =>
    have hgiven : ({ s with outcomes := outcomes } : Session).InOrder :=
      { hs with }
    cases hphase : s.phase with
    | Waiting =>
      rw [step_waiting now outcomes ready hphase]
      refine inOrder_wait outcomes ?_ ?_ hgiven
      · exact hphase
      · exact hok
    | Handling input =>
      rw [step_handling now outcomes ready hphase]
      refine inOrder_handle outcomes ready ?_ ?_ hgiven
      · exact hphase
      · exact hok
    | Resolving =>
      rw [step_resolving now outcomes ready hphase]
      refine inOrder_resolve outcomes ready ?_ ?_ hgiven
      · exact hphase
      · exact hok

/-- **Every run** without such a step: an UPDATE is only written in `Established`, and in the
session that was open when it was queued. -/
theorem updates_in_session {s : Session} (hinit : s.Initial) {steps : List Step}
    (hrun : Machine.Guarded step (fun s e => s.misplaces e = false) s steps) :
    (s.run steps).InSession := by
  have hstart : s.InOrder := by
    obtain ⟨config, rfl | ⟨transport, rfl⟩⟩ := hinit <;>
    exact ⟨fun hne => absurd rfl hne, nofun, nofun⟩
  have hend : (s.run steps).InOrder :=
    Machine.inv_of_guarded (fun s e hok hs => inOrder_step hok hs) hstart hrun
  exact hend.written

/-- An UPDATE that says nothing. -/
def empty_update : UpdateMessage := ⟨[], [], []⟩

/-- The session comes up, and the daemon queues an UPDATE, which is sent. -/
def update_when_up : List Step :=
  session_up ++ [.enqueue empty_update, .task 0 [] .update]

theorem update_when_up_in_session :
    ((spawn plain_session).run update_when_up).writes
        = [⟨⟨2, .Inbound⟩, .Established, some 1, some 1⟩] ∧
      ((spawn plain_session).run update_when_up).InSession := by
  refine ⟨by decide +kernel, updates_in_session ⟨_, .inl rfl⟩ ?_⟩
  decide +kernel

/-- An UPDATE that is queued as soon as there is a connection, say by a daemon that has not yet
heard of the end of the session before. -/
def update_too_early : List Step :=
  peer_connects_first ++ [.enqueue empty_update, .task 0 [] .update]

/-- It is written right after our OPEN, before the peer has sent its own. -/
theorem update_too_early_written :
    (spawn plain_session).Initial ∧
      ((spawn plain_session).run update_too_early).writes
        = [⟨⟨2, .Inbound⟩, .OpenSent, none, none⟩] ∧
      ¬ ((spawn plain_session).run update_too_early).InSession := by
  have hwrites : ((spawn plain_session).run update_too_early).writes
      = [⟨⟨2, .Inbound⟩, .OpenSent, none, none⟩] := by
    decide +kernel
  refine ⟨⟨_, .inl rfl⟩, hwrites, ?_⟩
  intro hin
  have hest := (hin ⟨⟨2, .Inbound⟩, .OpenSent, none, none⟩ (by rw [hwrites]; simp)).1
  cases hest

end Session

end Pathvector

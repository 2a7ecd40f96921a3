/-
# Does the state machine have the connection it relies on?

Whenever the task waits there should be a connection just in the live states, and on an incoming
one our OPEN should have been sent (`Present`). The task does not see to this in one place, so the
invariant (`Matched`) says for each phase what the next one relies on (`Fits`).

Four things break it (`mismatches`): an incoming connection is taken in `Idle`, where the state
machine ignores it, or in a session that has no use for it; a candidate is adopted in `Idle`; a
write fails while a candidate is adopted, which nobody looks at; and the connect task fails in
`OpenSent`, which the state machine takes for the loss of the connection it has.
-/
import Pathvector.Lib.Run
import Pathvector.Session.Steps

set_option autoImplicit false

namespace Pathvector

/-- `TcpConnected` is for the states that wait for it. -/
theorem Fsm.tcp_connected_cases {fsm : Fsm} (h : fsm.state ≠ .Idle) :
    fsm.state.live = true ∧ fsm.process .TcpConnected = (fsm, []) ∨
      fsm.state.live = false ∧ fsm.process .TcpConnected = fsm.do_tcp_connected := by
  unfold Fsm.process
  cases hs : fsm.state with
  | Idle => exact absurd hs h
  | Connect | Active => exact .inr ⟨rfl, rfl⟩
  | _ => exact .inl ⟨rfl, rfl⟩

namespace Session

variable (now : ℕ) {s s' : Session} {input : FsmInput}

/-- What should hold whenever the task waits with nothing queued. -/
def Present (s : Session) : Prop :=
  s.phase = .Waiting → s.pending_input = none →
    s.transport.isSome = s.fsm.state.live ∧
      ∀ c, s.transport = some c → c.origin = .Inbound → ∃ open_msg, (c, .Open open_msg) ∈ s.sent

/-- The steps after which it does not. -/
def mismatches (s : Session) : Step → Bool
  | .enqueue _ => false
  | .task _ outcomes ready =>
    match s.phase with
    | .Waiting =>
      s.pending_input.isNone && match ready with
        | .command (some (.IncomingConnection _)) =>
          s.pending_collision_candidate.isNone && !s.fsm.state.live
            && (s.fsm.state == .Idle || !s.connect_factory)
        | .connected none => s.connect_task && s.fsm.state == .OpenSent
        | _ => false
    | .Handling _ => false
    | .Resolving => s.adopted.isSome && (s.fsm.state == .Idle || outcomes.contains false)

/-! ## The invariant -/

/-- What holds in every phase. -/
structure Core (s : Session) : Prop where
  /-- A task that dials has no injected connection, and no input queued for it. -/
  dials : s.connect_factory = true → s.pending_transport = none ∧ s.pending_input = none
  /-- A task with an injected connection neither dials nor stages a candidate. -/
  injected : s.connect_factory = false →
    s.pending_collision_candidate = none ∧ s.connect_task = false
  idle : s.fsm.state = .Idle → s.connect_task = false
  greeted : s.fsm.state.live = true → ∀ c, s.transport = some c → c.origin = .Inbound →
    ∃ open_msg, (c, .Open open_msg) ∈ s.sent

/-- The connection is there just in the live states, or an input is queued that says so. -/
def Settled (s : Session) : Prop :=
  match s.pending_input with
  | none => s.transport.isSome = s.fsm.state.live
  | some input => s.fsm.state = .Connect ∧
      (input = .TcpConnected ∧ s.transport ≠ none ∨ input = .TcpFailed ∧ s.transport = none)

/-- What handling an input relies on. -/
def Expects (s : Session) : FsmInput → Prop
  | .TcpConnected => s.transport ≠ none ∧ s.fsm.state ≠ .Idle
  | .TcpFailed => s.transport = none ∨ s.fsm.state.live = true ∧ s.fsm.state ≠ .OpenSent
  | input => input.ordinary = true ∧ s.transport.isSome = s.fsm.state.live

/-- What the present phase relies on. -/
def Fits (s : Session) : Prop :=
  match s.phase with
  | .Handling input => s.pending_input = none ∧ s.Expects input
  | _ => s.Settled

/-- The invariant. -/
structure Matched (s : Session) : Prop where
  core : s.Core
  fits : s.Fits

theorem settled_of_none (hp : s.pending_input = none) (h : s.transport.isSome = s.fsm.state.live) :
    s.Settled := by
  unfold Settled
  rw [hp]
  exact h

theorem transport_eq_of_settled (hp : s.pending_input = none) (h : s.Settled) :
    s.transport.isSome = s.fsm.state.live := by
  unfold Settled at h
  rw [hp] at h
  exact h

theorem settled_of_down (hp : s.pending_input = none) (ht : s.transport = none)
    (hlive : s.fsm.state.live = false) : s.Settled := by
  apply settled_of_none hp
  rw [ht, hlive]
  rfl

theorem expects_ordinary (hinput : input.ordinary = true)
    (h : s.transport.isSome = s.fsm.state.live) : s.Expects input := by
  cases input with
  | TcpConnected | TcpFailed => cases hinput
  | _ => exact ⟨hinput, h⟩

theorem Expects.transport_eq (hconnected : input ≠ .TcpConnected) (hfailed : input ≠ .TcpFailed)
    (h : s.Expects input) : s.transport.isSome = s.fsm.state.live := by
  cases input with
  | TcpConnected => exact absurd rfl hconnected
  | TcpFailed => exact absurd rfl hfailed
  | _ => exact h.2

theorem Matched.settled (hs : s.Matched) (h : s.phase = .Waiting ∨ s.phase = .Resolving) :
    s.Settled := by
  have hfits := hs.fits
  unfold Fits at hfits
  rcases h with h | h <;> rwa [h] at hfits

/-- Nothing depends on a candidate being there. -/
theorem Core.drop_candidate (hs : s.Core) :
    ({ s with pending_collision_candidate := none } : Session).Core :=
  ⟨hs.dials, fun hf => ⟨rfl, (hs.injected hf).2⟩, hs.idle, hs.greeted⟩

/-! ## One input -/

/-- The connect task is left alone or stopped, unless a connection is asked for. -/
theorem Tame.task_false (h : Tame s s') (hs : s.connect_task = false) :
    s'.connect_task = false := by
  rcases h.connection with ⟨-, htask⟩ | hclosed
  · exact htask.trans hs
  · exact hclosed.2

theorem core_tame (hs : s.Core) (h : Tame s s') (ha : Aside s s')
    (hlive : s'.fsm.state.live = true → s.fsm.state.live = true)
    (hidle : s'.fsm.state = .Idle → s'.connect_task = false) : s'.Core where
  dials hf := by
    rw [h.pending_transport, h.pending_input]
    exact hs.dials (ha.connect_factory ▸ hf)
  injected hf := by
    obtain ⟨hcandidate, htask⟩ := hs.injected (ha.connect_factory ▸ hf)
    exact ⟨ha.candidate.trans hcandidate, h.task_false htask⟩
  idle := hidle
  greeted hl c hc horigin := by
    obtain ⟨open_msg, hmem⟩ := hs.greeted (hlive hl) c (h.transport_eq hc) horigin
    exact ⟨open_msg, h.sent hmem⟩

theorem core_process (input : FsmInput) (hs : s.Core) : (s.process now input).1.Core := by
  have ha := aside_process s now input
  cases s.fsm.move input with
  | stays hlive hidle hquiet =>
    have ht : Tame s (s.process now input).1 := tame_process fun o ho => .inl (hquiet o ho)
    apply core_tame hs ht ha
    · rw [process_fsm, hlive]
      exact id
    · intro hi
      rw [process_fsm] at hi
      exact ht.task_false (hs.idle (hidle hi))
  | closes hafter hclose hquiet =>
    apply core_tame hs (tame_process hquiet) ha
    · intro hl
      rw [process_fsm, hafter] at hl
      cases hl
    · intro _
      exact (closed_of_process hquiet hclose).2
  | gives_up _ _ hafter hquiet =>
    apply core_tame hs (tame_process fun o ho => .inl (hquiet o ho).1) ha
    · intro hl
      rw [process_fsm, hafter] at hl
      cases hl
    · intro hi
      rw [process_fsm, hafter] at hi
      cases hi
  | initiates _ hafter houtputs =>
    obtain ⟨-, hi⟩ := process_initiates now houtputs
    refine ⟨?_, ?_, ?_, ?_⟩
    · intro hf
      rw [ha.connect_factory] at hf
      obtain ⟨htransport, hinput⟩ := hs.dials hf
      exact ⟨hi.pending_transport, (hi.dialled htransport hf).2.1.trans hinput⟩
    · intro hf
      rw [ha.connect_factory] at hf
      obtain ⟨hcandidate, htask⟩ := hs.injected hf
      refine ⟨ha.candidate.trans hcandidate, ?_⟩
      cases hp : s.pending_transport with
      | some t => exact (hi.injected hp).2.2.trans htask
      | none => exact (hi.refused hp hf).2.2.trans htask
    · intro hidle
      rw [process_fsm, hafter] at hidle
      cases hidle
    · intro hl
      rw [process_fsm, hafter] at hl
      cases hl
  | opens _ _ _ hprocess =>
    have hg := process_opens now hprocess
    -- the three ways the greeting can go
    have hway : (s.process now input).1.connect_task = s.connect_task ∧
          (∀ c, (s.process now input).1.transport = some c →
            opened (s.process now input).1.sent = some c) ∨
        (s.process now input).1.Closed := by
      cases ht : s.transport with
      | none =>
        obtain ⟨-, hnone, htask⟩ := hg.absent ht
        refine .inl ⟨htask, ?_⟩
        intro c hc
        rw [hnone] at hc
        cases hc
      | some d =>
        cases ho : s.next_outcome with
        | true =>
          obtain ⟨-, htransport, hopened, htask⟩ := hg.done ht ho
          refine .inl ⟨htask, ?_⟩
          intro c hc
          rw [hopened, ← htransport, hc]
        | false => exact .inr (hg.failed (by rw [ht]; simp) ho).2
    refine ⟨?_, ?_, ?_, ?_⟩
    · intro hf
      rw [ha.connect_factory] at hf
      rw [hg.pending_transport, hg.pending_input]
      exact hs.dials hf
    · intro hf
      rw [ha.connect_factory] at hf
      obtain ⟨hcandidate, htask⟩ := hs.injected hf
      refine ⟨ha.candidate.trans hcandidate, ?_⟩
      rcases hway with ⟨hsame, -⟩ | hclosed
      · exact hsame.trans htask
      · exact hclosed.2
    · intro hidle
      rw [process_fsm, hprocess] at hidle
      cases hidle
    · intro _ c hc _
      rcases hway with ⟨-, hopened⟩ | hclosed
      · exact mem_sent_of_opened (hopened c hc)
      · rw [hclosed.1] at hc
        cases hc

theorem pending_of_failed {now : ℕ} (h : (s.process now input).2 = false) :
    (s.process now input).1.pending_input = s.pending_input := by
  cases s.fsm.move input with
  | stays _ _ hquiet => exact (tame_process fun o ho => .inl (hquiet o ho)).pending_input
  | closes _ _ hquiet => exact (tame_process hquiet).pending_input
  | gives_up _ _ _ hquiet => exact (tame_process fun o ho => .inl (hquiet o ho).1).pending_input
  | opens _ _ _ hprocess => exact (process_opens now hprocess).pending_input
  | initiates _ _ houtputs =>
    rw [(process_initiates now houtputs).1] at h
    cases h

theorem settled_tcp_failed (hp : s.pending_input = none) (ht : s.transport = none) :
    (s.process now .TcpFailed).1.Settled := by
  have hlive : (s.process now .TcpFailed).1.fsm.state.live = false := by
    rw [process_fsm]
    exact s.fsm.live_tcp_failed
  have htame : Tame s (s.process now .TcpFailed).1 := by
    cases s.fsm.move .TcpFailed with
    | stays _ _ hquiet => exact tame_process fun o ho => .inl (hquiet o ho)
    | closes _ _ hquiet => exact tame_process hquiet
    | gives_up _ _ _ hquiet => exact tame_process fun o ho => .inl (hquiet o ho).1
    | opens hinput _ _ _ => cases hinput
    | initiates _ _ houtputs =>
      obtain ⟨d, h | h⟩ := houtputs <;>
      · have hnot := s.fsm.initiate_tcp_failed
        rw [h] at hnot
        simp at hnot
  refine settled_of_down (htame.pending_input.trans hp) ?_ hlive
  rcases htame.connection with ⟨hsame, -⟩ | hclosed
  · exact hsame.trans ht
  · exact hclosed.1

theorem settled_process {now : ℕ} (hp : s.pending_input = none) (hexpects : s.Expects input)
    (hok : (s.process now input).2 = true) : (s.process now input).1.Settled := by
  by_cases hconnected : input = .TcpConnected
  · subst hconnected
    obtain ⟨ht, hidle⟩ := hexpects
    rcases Fsm.tcp_connected_cases hidle with ⟨hlive, hprocess⟩ | ⟨hlive, hprocess⟩
    · have hquiet : ∀ o ∈ (s.fsm.process .TcpConnected).2, o.quiet = true := by
        rw [hprocess]
        simp
      have htame : Tame s (s.process now .TcpConnected).1 :=
        tame_process fun o ho => .inl (hquiet o ho)
      apply settled_of_none (htame.pending_input.trans hp)
      rw [(process_quiet hquiet hok).1, process_fsm, hprocess, hlive]
      exact Option.isSome_iff_ne_none.2 ht
    · have hg := process_opens now hprocess
      obtain ⟨c, hc⟩ := Option.ne_none_iff_exists'.1 ht
      cases ho : s.next_outcome with
      | true =>
        apply settled_of_none (hg.pending_input.trans hp)
        rw [(hg.done hc ho).2.1, process_fsm, hprocess]
        rfl
      | false =>
        rw [(hg.failed ht ho).1] at hok
        cases hok
  · cases s.fsm.move input with
    | opens hinput _ _ _ => exact absurd hinput hconnected
    | closes hafter hclose hquiet =>
      apply settled_of_down ((tame_process hquiet).pending_input.trans hp)
      · exact (closed_of_process hquiet hclose).1
      · rw [process_fsm, hafter]
    | gives_up hbefore hinput hafter hquiet =>
      -- here the connection must be gone already
      subst hinput
      have ht : s.transport = none := by
        rcases hexpects with ht | ⟨-, hne⟩
        · exact ht
        · exact absurd hbefore hne
      exact settled_tcp_failed now hp ht
    | stays hlive _ hquiet =>
      by_cases hfailed : input = .TcpFailed
      · subst hfailed
        rcases hexpects with ht | ⟨hl, -⟩
        · exact settled_tcp_failed now hp ht
        · rw [s.fsm.live_tcp_failed, hl] at hlive
          cases hlive
      · have hfits := hexpects.transport_eq hconnected hfailed
        have htame : Tame s (s.process now input).1 :=
          tame_process fun o ho => .inl (hquiet o ho)
        apply settled_of_none (htame.pending_input.trans hp)
        rw [(process_quiet hquiet hok).1, process_fsm, hlive, hfits]
    | initiates hlive hafter houtputs =>
      have ht : s.transport = none := by
        by_cases hfailed : input = .TcpFailed
        · subst hfailed
          rcases hexpects with ht | ⟨hl, -⟩
          · exact ht
          · rw [hlive] at hl
            cases hl
        · have hfits := hexpects.transport_eq hconnected hfailed
          rwa [hlive, Option.isSome_eq_false_iff, Option.isNone_iff_eq_none] at hfits
      obtain ⟨-, hi⟩ := process_initiates now houtputs
      have hconnect : (s.process now input).1.fsm.state = .Connect := by
        rw [process_fsm, hafter]
      cases hpt : s.pending_transport with
      | some t =>
        obtain ⟨htransport, hinput, -⟩ := hi.injected hpt
        unfold Settled
        rw [hinput]
        exact ⟨hconnect, .inl ⟨rfl, by rw [htransport]; simp⟩⟩
      | none =>
        cases hf : s.connect_factory with
        | true =>
          obtain ⟨htransport, hinput, -⟩ := hi.dialled hpt hf
          apply settled_of_none (hinput.trans hp)
          rw [htransport, ht, hconnect]
          rfl
        | false =>
          obtain ⟨htransport, hinput, -⟩ := hi.refused hpt hf
          unfold Settled
          rw [hinput]
          exact ⟨hconnect, .inr ⟨rfl, htransport.trans ht⟩⟩

/-! ## The phases -/

theorem core_prepare (input : FsmInput) (hs : s.Core) : (s.prepare input).Core := by
  unfold prepare
  dsimp only
  have hreason : ∀ reason, ({ s with termination_reason := reason } : Session).Core := fun _ =>
    { hs with }
  split
  · split
    · exact { (hreason _).drop_candidate with }
    · exact hreason _
  · split
    · exact { hs.drop_candidate with }
    · exact hs

theorem matched_handle (hphase : s.phase = .Handling input) (hs : s.Matched) :
    (s.handle now input).Matched := by
  have hfits := hs.fits
  unfold Fits at hfits
  rw [hphase] at hfits
  obtain ⟨hp, hexpects⟩ := hfits
  have hcore := core_prepare input hs.core
  obtain ⟨_, _, _, hprepare, -, -⟩ := s.prepare_eq input
  have hp' : (s.prepare input).pending_input = none := by
    rw [hprepare]
    exact hp
  have hexpects' : (s.prepare input).Expects input := by
    rw [hprepare]
    exact hexpects
  have hfed := core_process now input hcore
  unfold handle
  dsimp only
  split
  next hok =>
    have hsettled := settled_process hp' hexpects' hok
    exact ⟨{ hfed with }, hsettled⟩
  next hfailed =>
    have hfailed' := Bool.eq_false_iff.2 hfailed
    have hcore' := core_process now .TcpFailed hfed
    have hsettled := settled_tcp_failed now ((pending_of_failed hfailed').trans hp')
      (closed_of_process_failed hfailed').1
    exact ⟨{ hcore' with }, hsettled⟩

theorem core_wait (ready : Ready) (hs : s.Core)
    (hpending : (s.wait_for_input now ready).pending_input = none)
    (htask : (s.wait_for_input now ready).connect_task = s.connect_task ∨
      (s.wait_for_input now ready).connect_task = false)
    (htransport : s.fsm.state.live = true → ∀ c, (s.wait_for_input now ready).transport = some c →
      c.origin = .Inbound → s.transport = some c) : (s.wait_for_input now ready).Core := by
  have hf := waitFrame s now ready
  have htask' : s.connect_task = false → (s.wait_for_input now ready).connect_task = false := by
    intro h
    rcases htask with hsame | hfalse
    · exact hsame.trans h
    · exact hfalse
  refine ⟨?_, ?_, ?_, ?_⟩
  · intro hfac
    rw [hf.pending_transport]
    exact ⟨(hs.dials (hf.connect_factory ▸ hfac)).1, hpending⟩
  · intro hfac
    rw [hf.connect_factory] at hfac
    obtain ⟨hnone, hidle⟩ := hs.injected hfac
    refine ⟨?_, htask' hidle⟩
    by_contra hsome
    rcases hf.candidate (Option.isSome_iff_ne_none.2 hsome) with h | h
    · rw [hnone] at h
      cases h
    · rw [hfac] at h
      cases h
  · intro hidle
    rw [hf.state] at hidle
    exact htask' (hs.idle hidle)
  · intro hlive c hc horigin
    rw [hf.state] at hlive
    obtain ⟨open_msg, hmem⟩ := hs.greeted hlive c (htransport hlive c hc horigin) horigin
    exact ⟨open_msg, hf.sent hmem⟩

theorem matched_wait {now : ℕ} {ready : Ready} (outcomes : List Bool) (hphase : s.phase = .Waiting)
    (hok : s.mismatches (.task now outcomes ready) = false) (hs : s.Matched) :
    (s.wait_for_input now ready).Matched := by
  have hf := waitFrame s now ready
  have hsettled := hs.settled (.inl hphase)
  have hcore := core_wait now ready hs.core
  cases wait_move hphase now ready with
  | pends input hpending hpending' htransport htask hphase' =>
    refine ⟨hcore hpending' (.inl htask) fun _ c hc _ => htransport ▸ hc, ?_⟩
    unfold Settled at hsettled
    rw [hpending] at hsettled
    obtain ⟨hconnect, ⟨rfl, ht⟩ | ⟨rfl, ht⟩⟩ := hsettled
    · unfold Fits
      rw [hphase']
      exact ⟨hpending', by rw [htransport]; exact ht, by rw [hf.state, hconnect]; simp⟩
    · unfold Fits
      rw [hphase']
      exact ⟨hpending', .inl (htransport.trans ht)⟩
  | stays hpending hpending' htransport htask hphase' =>
    refine ⟨hcore hpending' (.inl htask) fun _ c hc _ => htransport ▸ hc, ?_⟩
    have hfits : (s.wait_for_input now ready).transport.isSome
        = (s.wait_for_input now ready).fsm.state.live := by
      rw [htransport, hf.state]
      exact transport_eq_of_settled hpending hsettled
    unfold Fits
    rcases hphase' with h | h | ⟨input, hinput, h⟩
    · rw [h]
      exact settled_of_none hpending' hfits
    · rw [h]
      exact settled_of_none hpending' hfits
    · rw [h]
      exact ⟨hpending', expects_ordinary hinput hfits⟩
  | loses hpending hpending' hclosed hphase' =>
    refine ⟨hcore hpending' (.inr hclosed.2) ?_, ?_⟩
    · intro _ c hc _
      rw [hclosed.1] at hc
      cases hc
    · unfold Fits
      rw [hphase']
      exact ⟨hpending', .inl hclosed.1⟩
  | fails hready hpending hpending' hrunning htransport htask hphase' =>
    refine ⟨hcore hpending' (.inr htask) fun _ c hc _ => htransport ▸ hc, ?_⟩
    have hne : s.fsm.state ≠ .OpenSent := by
      subst hready
      simpa [mismatches, hphase, hpending, hrunning] using hok
    have hfits := transport_eq_of_settled hpending hsettled
    unfold Fits
    rw [hphase']
    refine ⟨hpending', ?_⟩
    cases hlive : s.fsm.state.live with
    | true => exact .inr ⟨by rw [hf.state, hlive], by rw [hf.state]; exact hne⟩
    | false =>
      rw [hlive, Option.isSome_eq_false_iff, Option.isNone_iff_eq_none] at hfits
      exact .inl (htransport.trans hfits)
  | connects stream hready hpending hpending' hrunning htransport htask hphase' =>
    refine ⟨hcore hpending' (.inr htask) ?_, ?_⟩
    · intro _ c hc horigin
      rw [htransport] at hc
      cases hc
      cases horigin
    · unfold Fits
      rw [hphase']
      refine ⟨hpending', by rw [htransport]; simp, ?_⟩
      -- in `Idle` no connect task is running
      intro hidle
      rw [hf.state] at hidle
      rw [hs.core.idle hidle] at hrunning
      cases hrunning
  | accepts stream hready hpending hpending' hstaged hlive htransport htask hphase' =>
    have hgood : s.fsm.state ≠ .Idle ∧ s.connect_factory = true := by
      subst hready
      simpa [mismatches, hphase, hpending, hstaged, hlive] using hok
    rw [if_pos hgood.2] at htransport
    refine ⟨hcore hpending' (.inl htask) ?_, ?_⟩
    · intro hl
      rw [hlive] at hl
      cases hl
    · unfold Fits
      rw [hphase']
      exact ⟨hpending', by rw [htransport]; simp, by rw [hf.state]; exact hgood.1⟩

/-! ## Adoption -/

theorem process_of_outcomes (input : FsmInput) (h : false ∉ s.outcomes) :
    (s.process now input).2 = true ∧ false ∉ (s.process now input).1.outcomes :=
  execute_of_outcomes now _ h

theorem displace_of_outcomes (h : false ∉ s.outcomes) : false ∉ (s.displace now).outcomes := by
  unfold displace
  split
  · exact (process_of_outcomes now _ h).2
  · have hreason : false ∉ ({ s with termination_reason := .Unclean } : Session).outcomes := h
    exact (process_of_outcomes now _ hreason).2
  · exact h

/-- A candidate that takes the place of a connection: if no write fails, it ends up with our OPEN
on it, or it is closed again. -/
theorem matched_adopt (candidate : CollisionCandidate) (open_msg : OpenMessage)
    (hstate : s.fsm.state ≠ .OpenSent) (hidle : s.fsm.state ≠ .Idle) (hcore : s.Core)
    (hp : s.pending_input = none) (hout : false ∉ s.outcomes) :
    (s.adopt now candidate open_msg).Core ∧ (s.adopt now candidate open_msg).Settled := by
  have hd := displace_spec now hstate
  have hplace : ((s.displace now).install candidate).Core := by
    have hc : (s.displace now).Core := by
      apply core_tame hcore hd.tame hd.aside
      · intro hl
        rw [hd.live] at hl
        cases hl
      · intro hi
        exact absurd (hd.idle hi) hidle
    refine ⟨hc.dials, hc.injected, hc.idle, ?_⟩
    intro hl
    rw [show ((s.displace now).install candidate).fsm.state.live = false from hd.live] at hl
    cases hl
  have hp1 : ((s.displace now).install candidate).pending_input = none :=
    hd.tame.pending_input.trans hp
  have hexpects : ((s.displace now).install candidate).Expects .TcpConnected :=
    ⟨by simp [install], fun hi => hidle (hd.idle hi)⟩
  obtain ⟨hok, hout'⟩ : (((s.displace now).install candidate).process now .TcpConnected).2 = true ∧
      false ∉ (((s.displace now).install candidate).process now .TcpConnected).1.outcomes :=
    process_of_outcomes now _ (displace_of_outcomes now hout)
  have hgreeted := settled_process hp1 hexpects hok
  have hcore' := core_process now .TcpConnected hplace
  have hp2 : (((s.displace now).install candidate).process now .TcpConnected).1.pending_input
      = none := by
    rcases Fsm.tcp_connected_cases hexpects.2 with ⟨hl, -⟩ | ⟨-, hprocess⟩
    · rw [show ((s.displace now).install candidate).fsm.state.live = false from hd.live] at hl
      cases hl
    · exact (process_opens now hprocess).pending_input.trans hp1
  have hfits := transport_eq_of_settled hp2 hgreeted
  obtain ⟨hok', -⟩ := process_of_outcomes now (.MessageReceived (.Open open_msg)) hout'
  exact ⟨core_process now _ hcore', settled_process hp2 ⟨rfl, hfits⟩ hok'⟩

theorem matched_resolve {now : ℕ} (ready : Ready) (hphase : s.phase = .Resolving)
    (hok : s.mismatches (.task now s.outcomes ready) = false) (hs : s.Matched) :
    ({ s.try_resolve_pending_candidate now with phase := .Waiting } : Session).Matched := by
  have hsettled := hs.settled (.inr hphase)
  have hcore := hs.core
  rcases resolve_cases s now with ⟨-, heq | heq⟩ | ⟨candidate, open_msg, hadopted, heq⟩
  · rw [heq]
    exact ⟨{ hcore with }, hsettled⟩
  · rw [heq]
    exact ⟨{ hcore.drop_candidate with }, hsettled⟩
  · have hgood : s.fsm.state ≠ .Idle ∧ false ∉ s.outcomes := by
      simpa [mismatches, hphase, hadopted] using hok
    have hstate := state_of_adopted hadopted
    -- only a task that dials has candidates, and that has no input queued
    have hp : s.pending_input = none := by
      cases hf : s.connect_factory with
      | true => exact (hcore.dials hf).2
      | false =>
        have hnone := (hcore.injected hf).1
        rw [(candidate_of_adopted hadopted).1] at hnone
        cases hnone
    obtain ⟨hcore', hsettled'⟩ :=
      matched_adopt (s := { s with pending_collision_candidate := none })
      now candidate open_msg hstate hgood.1 hcore.drop_candidate hp hgood.2
    rw [heq]
    exact ⟨{ hcore' with }, hsettled'⟩

/-! ## Whole runs -/

theorem matched_step {e : Step} (hok : s.mismatches e = false) (hs : s.Matched) :
    (s.step e).Matched := by
  have hcore := hs.core
  cases e with
  | enqueue update => exact ⟨{ hcore with }, hs.fits⟩
  | task now outcomes ready =>
    have hgiven : ({ s with outcomes := outcomes } : Session).Matched :=
      ⟨{ hcore with }, hs.fits⟩
    cases hphase : s.phase with
    | Waiting =>
      rw [step_waiting now outcomes ready hphase]
      refine matched_wait outcomes ?_ ?_ hgiven
      · exact hphase
      · exact hok
    | Handling input =>
      rw [step_handling now outcomes ready hphase]
      refine matched_handle now ?_ hgiven
      exact hphase
    | Resolving =>
      rw [step_resolving now outcomes ready hphase]
      refine matched_resolve ready ?_ ?_ hgiven
      · exact hphase
      · exact hok

theorem matched_initial (h : s.Initial) : s.Matched := by
  obtain ⟨config, rfl | ⟨transport, rfl⟩⟩ := h
  · exact ⟨⟨fun _ => ⟨rfl, rfl⟩, nofun, fun _ => rfl, nofun⟩, rfl⟩
  · exact ⟨⟨nofun, fun _ => ⟨rfl, rfl⟩, fun _ => rfl, nofun⟩, rfl⟩

/-- **Every run** without such a step: whenever the task waits with nothing queued, there is a
connection just in the live states, and on an incoming one our OPEN was sent. -/
theorem connection_present {s : Session} (hinit : s.Initial) {steps : List Step}
    (hrun : Machine.Guarded step (fun s e => s.mismatches e = false) s steps) :
    (s.run steps).Present := by
  have hmatched : (s.run steps).Matched :=
    Machine.inv_of_guarded (fun s e hok hs => matched_step hok hs) (matched_initial hinit) hrun
  intro hphase hp
  have hlive := transport_eq_of_settled hp (hmatched.settled (.inl hphase))
  refine ⟨hlive, ?_⟩
  intro c hc horigin
  apply hmatched.core.greeted _ c hc horigin
  rw [← hlive, hc]
  rfl

theorem peer_connects_first_present :
    Machine.Guarded step (fun s e => s.mismatches e = false) (spawn plain_session)
        peer_connects_first ∧ ((spawn plain_session).run peer_connects_first).Present := by
  have hrun : Machine.Guarded step (fun s e => s.mismatches e = false) (spawn plain_session)
      peer_connects_first := by
    decide +kernel
  exact ⟨hrun, connection_present ⟨_, .inl rfl⟩ hrun⟩

/-- We connect, the peer connects as well and sends its OPEN there, and our connection is lost.
The write of our OPEN to the peer's connection fails. -/
def adoption_fails : List Step :=
  round (.command (some .Start)) ++ round (.connected (some (stream 1)))
    ++ [.task 0 [] (.command (some (.IncomingConnection (stream 2))))]
    ++ [.task 0 [] (.candidate_message (.message (.Open plain_open))), .task 0 [] .update]
    ++ [.task 0 [] (.message .closed), .task 0 [] .update, .task 0 [false] .update]

/-- A connection that comes in before the session is started is kept, and no OPEN is sent on it.
A candidate that is lost while it is adopted leaves the state machine without a connection. -/
theorem unstarted_and_lost_mismatch :
    (spawn plain_session).Initial ∧
      ¬ ((spawn plain_session).run
          (round (.command (some (.IncomingConnection (stream 2)))))).Present ∧
      ((spawn plain_session).run adoption_fails).fsm.state = .OpenConfirm ∧
      ((spawn plain_session).run adoption_fails).transport = none ∧
      ¬ ((spawn plain_session).run adoption_fails).Present := by
  have hstate : ((spawn plain_session).run adoption_fails).fsm.state = .OpenConfirm := by
    decide +kernel
  have htransport : ((spawn plain_session).run adoption_fails).transport = none := by
    decide +kernel
  refine ⟨⟨_, .inl rfl⟩, ?_, hstate, htransport, ?_⟩
  · intro hpresent
    have hlive := (hpresent (by decide +kernel) (by decide +kernel)).1
    revert hlive
    decide +kernel
  · intro hpresent
    have hlive := (hpresent (by decide +kernel) (by decide +kernel)).1
    cases hlive

end Session

end Pathvector

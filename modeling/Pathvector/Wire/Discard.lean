/-
# An UPDATE without the attributes that are discarded

The mildest answer to a malformed attribute is to leave it out (RFC 7606), and the rest of the
UPDATE should be treated like any other. It is not: the task hands it to the daemon on its own,
and the state machine never sees it. So nobody asks in which state it comes, and the hold timer
runs on. `discard_like_clean_iff` says when neither can be noticed.
-/
import Pathvector.Session.Outflow
import Pathvector.Wire.Delivery

set_option autoImplicit false

namespace Pathvector

def SessionEvent.update? : SessionEvent → Option UpdateMessage
  | .RouteUpdate u => some u
  | _ => none

namespace Session

variable {s : Session} {now : ℕ} {c : Connection} {u : UpdateMessage} {m : MalformedUpdate}
  {errors : List Wire.AttributeError}

/-- The task takes a message, handles it, and looks at the candidate there may be. -/
def hear (s : Session) (now : ℕ) (msg : Received) : Session :=
  let t := s.receive now msg
  if t.phase = .Resolving then { t.try_resolve_pending_candidate now with phase := .Waiting } else t

/-- The same can be seen of two sessions: the messages written, the events delivered, the state,
and when the hold timer expires. -/
structure SameBehaviour (s s' : Session) : Prop where
  sent : s.sent = s'.sent
  events : s.events = s'.events
  state : s.fsm.state = s'.fsm.state
  hold_deadline : s.hold_deadline = s'.hold_deadline

/-- The updates delivered so far. -/
def updates (s : Session) : List UpdateMessage := s.events.filterMap SessionEvent.update?

section

variable {input : FsmInput}
  (h : ∀ u, s.fsm.state = .Established → input ≠ .MessageReceived (.Update u))
include h

theorem updates_process : (s.process now input).1.updates = s.updates := by
  obtain ⟨evs, hevs, hof⟩ := mem_events_process s now input
  have hnone : ∀ e ∈ evs, e.update? = none := by
    intro e he
    obtain ⟨o, ho, heq⟩ := hof e he
    cases o with
    | RouteUpdate u =>
      obtain ⟨hs, hinput⟩ := Fsm.update_of_mem ho
      exact absurd hinput (h u hs)
    | SessionEstablished info | SessionTerminated =>
      cases heq
      rfl
    | _ => cases heq
  rw [updates, hevs, List.filterMap_append, List.filterMap_eq_nil_iff.2 hnone, List.append_nil]
  rfl

theorem updates_handle : (s.handle now input).updates = s.updates := by
  refine handle_keeps (P := fun t => t.updates = s.updates) (fun _ ht => ht) (fun _ _ _ => ?_)
    fun t ht => ?_
  · exact updates_process h
  · exact (updates_process (by simp)).trans ht

end

theorem updates_resolve : (s.try_resolve_pending_candidate now).updates = s.updates :=
  resolve_keeps (P := fun t => t.updates = s.updates) rfl rfl (fun _ ht => ht) (fun _ _ ht => ht)
    fun _ _ hinput ht => (updates_process fun u _ => hinput u).trans ht

/-! ## No candidate is due

A candidate is looked at after every input and after its OPEN, before the task waits again. Nothing
that happens while it waits makes one ready. -/

/-- While the task waits, no candidate is about to be adopted. -/
def NoneDue (s : Session) : Prop := s.phase = .Waiting → s.adopted = none

theorem adopted_of_no_candidate (h : s.pending_collision_candidate = none) : s.adopted = none := by
  rw [adopted, h]

theorem send_adopted (c : Connection) (msg : BgpMessage) :
    (s.send c msg).1.adopted = s.adopted := by
  unfold send
  split <;> rfl

theorem noneDue_write (hs : s.NoneDue) (c : Connection) (msg : BgpMessage) :
    (s.write c msg).NoneDue := by
  unfold write
  dsimp only
  split
  · intro hphase
    rw [send_adopted]
    refine hs ?_
    unfold send at hphase
    split at hphase <;> exact hphase
  · exact fun hphase => nomatch hphase

theorem noneDue_wait (hs : s.NoneDue) (now : ℕ) (ready : Ready) :
    (s.wait_for_input now ready).NoneDue := by
  cases hpending : s.pending_input with
  | some input =>
    unfold wait_for_input
    rw [hpending]
    exact fun hphase => nomatch hphase
  | none =>
    have hwaited := waited hpending now ready
    generalize s.wait_for_input now ready = s' at hwaited
    cases hwaited with
    | idles | reports | learns => exact hs
    | stages _ candidate deadline hfactory hsilent =>
      -- it has not sent its OPEN
      intro _
      simp only [adopted, hsilent]
    | drops => exact fun _ => rfl
    | refuses _ c notif =>
      intro _
      rw [send_adopted]
      rfl
    | writes _ c rr => exact noneDue_write hs c _
    | forwards u rest =>
      unfold forward
      split
      · exact hs
      · exact noneDue_write (s := { s with update_rx := rest, writes := _ }) hs _ _
    | connects result =>
      cases result <;> exact fun hphase => nomatch hphase
    | _ => exact fun hphase => nomatch hphase

theorem noneDue_resolve (s : Session) (now : ℕ) :
    NoneDue { s.try_resolve_pending_candidate now with phase := .Waiting } := by
  intro _
  rcases resolve_cases s now with ⟨hnone, heq | heq⟩ | ⟨candidate, open_msg, hadopted, heq⟩
  · rw [heq]
    exact hnone
  · rw [heq]
    rfl
  · -- the candidate is taken, and no input brings another
    have hstate := state_of_adopted hadopted
    rw [heq]
    refine adopted_of_no_candidate ?_
    refine (aside_process ..).candidate.trans ((aside_process ..).candidate.trans ?_)
    exact (displace_spec (s := { s with pending_collision_candidate := none }) now
      hstate).aside.candidate

theorem noneDue_step (hs : s.NoneDue) (step : Step) : (s.step step).NoneDue := by
  cases step with
  | enqueue update => exact hs
  | task now outcomes ready =>
    change (({ s with outcomes := outcomes } : Session).advance now ready).NoneDue
    unfold advance
    split
    · exact noneDue_wait (s := { s with outcomes := outcomes }) hs now ready
    · exact fun hphase => nomatch hphase
    · exact noneDue_resolve _ now

/-- **No candidate is due while a task waits**, from its start. -/
theorem noneDue_run (config : SessionConfig) (steps : List Step) :
    ((spawn config).run steps).NoneDue :=
  List.foldl_invariant step NoneDue steps (spawn config) (fun _ => rfl) fun _ step _ hs =>
    noneDue_step hs step

/-! ## The comparison -/

/-- Nothing is noticed of a candidate that is not adopted. -/
theorem sameBehaviour_resolve (now : ℕ) (h : s.adopted = none) :
    SameBehaviour { s.try_resolve_pending_candidate now with phase := .Waiting } s := by
  rcases resolve_cases s now with ⟨-, heq | heq⟩ | ⟨candidate, open_msg, hadopted, -⟩
  · rw [heq]
    exact ⟨rfl, rfl, rfl, rfl⟩
  · rw [heq]
    exact ⟨rfl, rfl, rfl, rfl⟩
  · cases h.symm.trans hadopted

/-- An UPDATE with attributes to discard goes to the daemon, whatever the state. -/
theorem hear_malformed (hphase : s.phase = .Waiting) (hpending : s.pending_input = none)
    (htransport : s.transport = some c)
    (hm : BgpMessage.of_update (u.classify errors) = .MalformedUpdate m)
    (hdiscard : ∀ e ∈ errors, e.policy = .AttributeDiscard) :
    s.hear now (.message (.MalformedUpdate m)) = s.emit (.RouteUpdate u) := by
  have hmild : m.update = u ∧ m.treat_as_withdraw = false ∧ m.session_reset = false := by
    unfold UpdateMessage.classify at hm
    split at hm
    · cases hm
    · cases hm
      refine ⟨rfl, ?_, ?_⟩ <;>
      · rw [List.any_eq_false]
        intro e he
        rw [hdiscard e he]
        decide
  obtain ⟨hu, htreat, hreset⟩ := hmild
  have hwait : s.wait_for_input now (.message (.message (.MalformedUpdate m)))
      = s.emit (.RouteUpdate u) := by
    simp [wait_for_input, hpending, htransport, handle_primary_message, handle_malformed_update,
      htreat, hreset, hu]
  have hstill : (s.emit (.RouteUpdate u)).phase = .Waiting := hphase
  have hreceive : s.receive now (.message (.MalformedUpdate m)) = s.emit (.RouteUpdate u) := by
    simp only [receive, hwait, hstill]
  simp [hear, hreceive, hstill]

theorem hear_update (hpending : s.pending_input = none) (htransport : s.transport = some c) :
    s.hear now (.message (.Update u))
      = { ((s.returning (.MessageReceived (.Update u))).handle now
          (.MessageReceived (.Update u))).try_resolve_pending_candidate now with
        phase := .Waiting } := by
  have hreceive : s.receive now (.message (.Update u))
      = (s.returning (.MessageReceived (.Update u))).handle now (.MessageReceived (.Update u)) := by
    simp only [receive, wait_for_input, hpending, htransport, handle_primary_message]
    rfl
  simp only [hear, hreceive]
  exact if_pos rfl

/-- **A discard-only UPDATE behaves like the clean one** exactly in `Established`, and when the
restart of the hold timer would not be noticed. No candidate takes over meanwhile: none is due
while the task waits (`noneDue_run`). -/
theorem discard_like_clean_iff (hphase : s.phase = .Waiting) (hpending : s.pending_input = none)
    (htransport : s.transport = some c) (hdue : s.NoneDue)
    (hm : BgpMessage.of_update (u.classify errors) = .MalformedUpdate m)
    (hdiscard : ∀ e ∈ errors, e.policy = .AttributeDiscard) :
    SameBehaviour (s.hear now (.message (.MalformedUpdate m)))
        (s.hear now (.message (.Update u))) ↔
      s.fsm.state = .Established ∧ (s.fsm.negotiated_hold_time = 0 ∨
        s.hold_deadline = some (now + hold_duration s.fsm.negotiated_hold_time)) := by
  rw [hear_malformed hphase hpending htransport hm hdiscard, hear_update hpending htransport]
  by_cases hs : s.fsm.state = .Established
  · obtain ⟨batch, hhandle⟩ := handle_update
      (s := s.returning (.MessageReceived (.Update u))) now u hs
    have hidle : ((s.returning (.MessageReceived (.Update u))).handle now
        (.MessageReceived (.Update u))).adopted = none := by
      rw [hhandle]
      exact hdue hphase
    have hrest := sameBehaviour_resolve now hidle
    rw [hhandle] at hrest ⊢
    have hhold : s.hold_deadline = (if 0 < s.fsm.negotiated_hold_time then
          some (now + hold_duration s.fsm.negotiated_hold_time) else s.hold_deadline) ↔
        s.fsm.negotiated_hold_time = 0 ∨
          s.hold_deadline = some (now + hold_duration s.fsm.negotiated_hold_time) := by
      by_cases hn : s.fsm.negotiated_hold_time = 0 <;> simp [hn, UInt16.pos_iff_ne_zero]
    rw [and_iff_right hs, ← hhold]
    constructor
    · intro h
      exact h.hold_deadline.trans hrest.hold_deadline
    · intro h
      exact ⟨hrest.sent.symm, hrest.events.symm, hrest.state.symm, h.trans hrest.hold_deadline.symm⟩
  · refine iff_of_false (fun h => ?_) (fun h => hs h.1)
    have hsame : (s.emit (.RouteUpdate u)).updates = s.updates := by
      rw [updates, h.events]
      exact updates_resolve.trans (updates_handle fun _ hest => absurd hest hs)
    simp [updates, emit, SessionEvent.update?] at hsame

/-- COMMUNITIES of a wrong length. -/
def wrong_communities : Wire.AttributeError :=
  ⟨⟨8, .AttributeDiscard⟩, "COMMUNITY length must be a multiple of 4"⟩

/-- What is left of an UPDATE that had nothing else. -/
def emptied : MalformedUpdate := ⟨empty_update, [⟨8, .AttributeDiscard⟩], false, false⟩

/-- Without a hold time there is nothing to restart. -/
theorem discard_like_clean_without_hold :
    let s := (spawn { plain_session with hold_time := 0 }).run session_up
    s.fsm.state = .Established ∧ SameBehaviour (s.hear 10 (.message (.MalformedUpdate emptied)))
      (s.hear 10 (.message (.Update empty_update))) := by
  refine ⟨by decide +kernel, ?_⟩
  have hm : BgpMessage.of_update (empty_update.classify [wrong_communities])
      = .MalformedUpdate emptied := by decide +kernel
  refine (discard_like_clean_iff (c := ⟨2, .Inbound⟩) ?_ ?_ ?_ (noneDue_run _ _) hm ?_).2
    ⟨?_, ?_⟩ <;> decide +kernel

/-- In `Established` the clean UPDATE restarts the hold timer and the other one does not, and in
`OpenSent` the other one is delivered. -/
theorem discard_unlike_clean :
    let up := (spawn plain_session).run session_up
    let early := (spawn plain_session).run peer_connects_first
    (up.hear 10 (.message (.MalformedUpdate emptied))).hold_deadline = some 90 ∧
      (up.hear 10 (.message (.Update empty_update))).hold_deadline = some 100 ∧
      early.fsm.state = .OpenSent ∧
      (early.hear 10 (.message (.MalformedUpdate emptied))).events = [.RouteUpdate empty_update] ∧
      (early.hear 10 (.message (.Update empty_update))).events = [] := by
  decide +kernel

end Session

end Pathvector

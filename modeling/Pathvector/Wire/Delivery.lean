/-
# From the wire to the daemon

What one message does on its way: the codec of the connection decodes it, the session task
handles it in `Established`, and the daemon handles the events the task puts on its channel. A
message has at most one update for the daemon: the UPDATE itself, or what the task makes of a
malformed one (`forwarded`). Everything else it may lead to is the end of the session.
-/
import Pathvector.Inbound.Withdrawal
import Pathvector.Session.Steps
import Pathvector.Wire.Framing

set_option autoImplicit false

namespace Pathvector

namespace Wire

/-- The codec of a connection, after what was negotiated. -/
def BgpCodec.negotiated (extended four_byte_asn : Bool) : BgpCodec :=
  ⟨if extended then MAX_LEN_EXTENDED else MAX_LEN, four_byte_asn⟩

/-- A message as the codec decodes it. -/
def BgpCodec.decode_message (codec : BgpCodec) (buf : List UInt8) : Except CodecError BgpMessage :=
  BgpMessage.decode_with_limit_and_caps buf codec.max_msg_len codec.four_byte_asn_negotiated

/-- What `recv` returns for a message. -/
def BgpCodec.received (codec : BgpCodec) (buf : List UInt8) : Received :=
  match codec.decode_message buf with
  | .ok msg => .message msg
  | .error e => .failed (.Codec e.reported)

end Wire

/-- What `handle_malformed_update` hands on; `none` when the session is reset instead. -/
def forwarded (m : MalformedUpdate) : Option UpdateMessage :=
  if m.session_reset then none
  else if m.treat_as_withdraw && is_nlri_less_with_attributes m.update m.errors then none
  else some (if m.treat_as_withdraw then make_treat_as_withdraw m.update else m.update)

/-- The update a message has for the daemon, if the session stays up. -/
def Received.update? : Received → Option UpdateMessage
  | .message (.Update u) => some u
  | .message (.MalformedUpdate m) => forwarded m
  | _ => none

/-- The output reports at most the end of the session. -/
def FsmOutput.ends : FsmOutput → Bool
  | .SessionEstablished _ | .RouteUpdate _ => false
  | _ => true

theorem Fsm.ends_of_marks {fsm : Fsm} {input : FsmInput}
    (hinput : ∀ u, input ≠ .MessageReceived (.Update u)) (h : true ∉ marks (fsm.process input).2) :
    ∀ o ∈ (fsm.process input).2, o.ends = true := by
  intro o ho
  cases o with
  | RouteUpdate u => exact absurd (update_of_mem ho).2 (hinput u)
  | SessionEstablished info =>
    exact absurd (List.mem_filterMap.2 ⟨.SessionEstablished info, ho, rfl⟩ : true ∈ marks _) h
  | _ => rfl

/-- In `Established`, an input that is not an UPDATE is reported at most as the end of the
session. -/
theorem Fsm.ends_of_established {fsm : Fsm} (hs : fsm.state = .Established) {input : FsmInput}
    (hinput : ∀ u, input ≠ .MessageReceived (.Update u)) :
    ∀ o ∈ (fsm.process input).2, o.ends = true := by
  apply ends_of_marks hinput
  rw [marks_process, if_pos hs]
  split <;> simp

/-- The loss of the connection is reported at most as the end of the session. -/
theorem Fsm.ends_tcp_failed (fsm : Fsm) : ∀ o ∈ (fsm.process .TcpFailed).2, o.ends = true := by
  apply ends_of_marks (by simp)
  have hdown := live_tcp_failed fsm
  rw [marks_process]
  split_ifs <;> simp_all [FsmState.live]

namespace Session

/-- The task waits in `Established`, with nothing else to do first. -/
structure Listening (s : Session) (c : Connection) : Prop where
  phase : s.phase = .Waiting
  pending_input : s.pending_input = none
  transport : s.transport = some c
  established : s.fsm.state = .Established

/-- The task takes a message and handles it. -/
def receive (s : Session) (now : ℕ) (msg : Received) : Session :=
  match (s.wait_for_input now (.message msg)).phase with
  | .Handling input => (s.wait_for_input now (.message msg)).handle now input
  | _ => s.wait_for_input now (.message msg)

/-- The events that brings about. -/
def delivered (s : Session) (now : ℕ) (msg : Received) : List SessionEvent :=
  (s.receive now msg).events.drop s.events.length

/-! ## Events -/

/-- The events of `s'` are those of `s` and ends of the session. -/
def OnlyEnds (s s' : Session) : Prop :=
  ∃ evs, s'.events = s.events ++ evs ∧ ∀ e ∈ evs, ∃ reason, e = SessionEvent.Terminated reason

theorem onlyEnds_of_eq {s s' : Session} (h : s'.events = s.events) : OnlyEnds s s' :=
  ⟨[], by rw [h, List.append_nil], by simp⟩

theorem OnlyEnds.trans {a b c : Session} (h : OnlyEnds a b) (h' : OnlyEnds b c) : OnlyEnds a c := by
  obtain ⟨evs, hevs, hends⟩ := h
  obtain ⟨evs', hevs', hends'⟩ := h'
  refine ⟨evs ++ evs', ?_, ?_⟩
  · rw [hevs', hevs, List.append_assoc]
  · intro e he
    rcases List.mem_append.1 he with he | he
    · exact hends e he
    · exact hends' e he

theorem onlyEnds_process {s : Session} {now : ℕ} {input : FsmInput}
    (h : ∀ o ∈ (s.fsm.process input).2, o.ends = true) : OnlyEnds s (s.process now input).1 := by
  obtain ⟨evs, hevs, hof⟩ := mem_events_process s now input
  refine ⟨evs, hevs, ?_⟩
  intro e he
  obtain ⟨o, ho, heq⟩ := hof e he
  have hends := h o ho
  cases o with
  | SessionEstablished info => cases hends
  | RouteUpdate u => cases hends
  | SessionTerminated => exact ⟨_, (Option.some.inj heq).symm⟩
  | _ => cases heq

/-- An input in `Established` that is not an UPDATE leads at most to the end of the session. -/
theorem onlyEnds_handle {s : Session} (now : ℕ) {input : FsmInput}
    (hs : s.fsm.state = .Established) (hinput : ∀ u, input ≠ .MessageReceived (.Update u)) :
    OnlyEnds s (s.handle now input) := by
  refine handle_keeps (fun _ ht => ht) (fun _ _ _ => ?_) fun t ht => ?_
  · exact onlyEnds_process (Fsm.ends_of_established hs hinput)
  · exact ht.trans (onlyEnds_process (Fsm.ends_tcp_failed _))

/-- An UPDATE in `Established` is reported, and the hold timer restarted. -/
theorem handle_update {s : Session} (now : ℕ) (u : UpdateMessage)
    (hs : s.fsm.state = .Established) :
    ∃ batch, s.handle now (.MessageReceived (.Update u)) = { s with
      termination_reason := .Unclean
      hold_deadline := if 0 < s.fsm.negotiated_hold_time then
          some (now + hold_duration s.fsm.negotiated_hold_time)
        else s.hold_deadline
      events := s.events ++ [.RouteUpdate u]
      batches := s.batches ++ [batch]
      phase := .Resolving } := by
  have hproc : s.fsm.process (.MessageReceived (.Update u))
      = (s.fsm, s.fsm.reset_hold_if_active ++ [.RouteUpdate u]) := by
    rw [Fsm.process, hs]
    rfl
  have hprep : s.prepare (.MessageReceived (.Update u))
      = { s with termination_reason := .Unclean } := by
    simp [prepare, Fsm.is_established, hs, is_administrative, reason_for]
  let outputs := s.fsm.reset_hold_if_active ++ [.RouteUpdate u]
  refine ⟨⟨s.fsm.state, s.fsm.state, outputs, outputs⟩, ?_⟩
  unfold handle process
  by_cases hn : 0 < s.fsm.negotiated_hold_time <;>
    simp [outputs, hprep, hproc, Fsm.reset_hold_if_active, hn, execute, perform, emit]

/-! ## One message -/

variable {s : Session} {c : Connection}

theorem wait_for_message (h : s.Listening c) (now : ℕ) (msg : Received) :
    s.wait_for_input now (.message msg) = s.handle_primary_message c msg := by
  simp only [wait_for_input, h.pending_input, h.transport]

/-- Where a message has no update for the daemon, the task is about to handle an input that is not
an UPDATE, and nothing was reported yet. A malformed UPDATE calls for a NOTIFICATION. -/
theorem handle_primary_message_turn (s : Session) (c : Connection) {msg : Received}
    (hmsg : msg.update? = none) :
    ∃ input, (s.handle_primary_message c msg).phase = .Handling input
      ∧ (∀ u, input ≠ .MessageReceived (.Update u))
      ∧ (s.handle_primary_message c msg).events = s.events
      ∧ (s.handle_primary_message c msg).fsm = s.fsm
      ∧ ∀ m, msg = .message (.MalformedUpdate m) →
        ∃ n, input = .ProtocolErrorNotificationToSend n := by
  have hsend (m : BgpMessage) :
      (s.send c m).1.events = s.events ∧ (s.send c m).1.fsm = s.fsm := by
    unfold send
    split <;> exact ⟨rfl, rfl⟩
  cases msg with
  | message m =>
    cases m with
    | Update u => cases hmsg
    | MalformedUpdate m =>
      have hforward : forwarded m = none := hmsg
      unfold forwarded at hforward
      unfold handle_primary_message handle_malformed_update
      dsimp only
      split at hforward
      · rw [if_pos ‹_›]
        exact ⟨_, rfl, by simp, rfl, rfl, fun _ _ => ⟨_, rfl⟩⟩
      · rw [if_neg ‹_›]
        split at hforward
        · rw [if_pos ‹_›]
          exact ⟨_, rfl, by simp, rfl, rfl, fun _ _ => ⟨_, rfl⟩⟩
        · cases hforward
    | _ => exact ⟨_, rfl, by simp, rfl, rfl, by simp⟩
  | failed e =>
    unfold handle_primary_message
    dsimp only
    split
    · exact ⟨_, rfl, by simp, (hsend _).1, (hsend _).2, by simp⟩
    · exact ⟨_, rfl, by simp, rfl, rfl, by simp⟩
  | closed => exact ⟨_, rfl, by simp, rfl, rfl, by simp⟩

/-- A message that has no update for the daemon leads at most to the end of the session. -/
theorem receive_ends (h : s.Listening c) (now : ℕ) {msg : Received} (hmsg : msg.update? = none) :
    OnlyEnds s (s.receive now msg) := by
  obtain ⟨input, hphase, hinput, hevents, hfsm, -⟩ := s.handle_primary_message_turn c hmsg
  unfold receive
  rw [wait_for_message h, hphase]
  refine (onlyEnds_of_eq hevents).trans (onlyEnds_handle now ?_ hinput)
  rw [hfsm]
  exact h.established

theorem receive_update (h : s.Listening c) (now : ℕ) {msg : Received} {u : UpdateMessage}
    (hmsg : msg.update? = some u) : (s.receive now msg).events = s.events ++ [.RouteUpdate u] := by
  unfold receive
  rw [wait_for_message h]
  cases msg with
  | message m =>
    cases m with
    | Update u' =>
      cases hmsg
      obtain ⟨batch, heq⟩ := handle_update (s := s.returning (.MessageReceived (.Update u))) now u
        h.established
      exact congrArg Session.events heq
    | MalformedUpdate m =>
      have hforward : forwarded m = some u := hmsg
      unfold forwarded at hforward
      split at hforward
      · cases hforward
      · split at hforward
        · cases hforward
        · rename_i hreset hless
          have hwait : s.handle_primary_message c (.message (.MalformedUpdate m))
              = s.emit (.RouteUpdate u) := by
            unfold handle_primary_message handle_malformed_update
            dsimp only
            rw [if_neg hreset, if_neg hless, Option.some.inj hforward]
          have hphase : (s.emit (.RouteUpdate u)).phase = .Waiting := h.phase
          rw [hwait, hphase]
          rfl
    | _ => cases hmsg
  | _ => cases hmsg

/-- **One message, one update at most.** -/
theorem delivered_cases (h : s.Listening c) (now : ℕ) (msg : Received) :
    (∃ u, msg.update? = some u ∧ s.delivered now msg = [.RouteUpdate u]) ∨
      (msg.update? = none ∧ ∀ e ∈ s.delivered now msg, ∃ reason, e = .Terminated reason) := by
  cases hmsg : msg.update? with
  | some u =>
    refine .inl ⟨u, rfl, ?_⟩
    rw [delivered, receive_update h now hmsg, List.drop_left]
  | none =>
    obtain ⟨evs, hevs, hends⟩ := receive_ends h now hmsg
    refine .inr ⟨rfl, ?_⟩
    rw [delivered, hevs, List.drop_left]
    exact hends

end Session

namespace DaemonState

/-- The daemon handles the events of a session, in order. -/
def deliver (d : DaemonState) (clk : Clock) (peer_ip : IpAddr) (events : List SessionEvent) :
    DaemonState :=
  events.foldl (fun d e => (d.on_session_event clk peer_ip e).1) d

end DaemonState

end Pathvector

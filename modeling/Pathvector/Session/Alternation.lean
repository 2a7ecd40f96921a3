/-
# Do sessions begin and end in turn?

What the state machine tells the daemon about a session is `SessionEstablished` and
`SessionTerminated`. `marks_process` says when an input makes it say either: on the way into
`Established` and on the way out, and in one more case. A connection that is lost in
`OpenConfirm`, before there was a session, is reported as the end of one (`LostHandshake`).

`alternation_iff` says that this is the only way in which the two get out of turn.
-/
import Pathvector.Session.Turns
import Mathlib.Data.List.Chain

set_option autoImplicit false

namespace Pathvector

namespace Fsm

/-! ## One input -/

attribute [local simp] FsmState.live FsmOutput.mark

theorem not_lost_of_not_loses {fsm : Fsm} {input : FsmInput} (h : loses input = false) :
    ¬fsm.LostHandshake input := by
  rintro ⟨-, hlost⟩
  cases input with
  | MessageReceived msg => cases msg <;> simp_all [loses, loses_connection]
  | _ => simp_all [loses, loses_connection]

/-- **One input**: what it reports, by the states before and after. -/
theorem marks_process (fsm : Fsm) (input : FsmInput) :
    marks (fsm.process input).2 =
      if fsm.state = .Established then
        if (fsm.process input).1.state = .Established then [] else [false]
      else if (fsm.process input).1.state = .Established then [true]
      else if fsm.LostHandshake input then [false] else [] := by
  cases fsm.turn input with
  | ignores hinput hproc =>
    have hkept : ¬fsm.LostHandshake input := by
      rintro ⟨hs, hlost⟩
      cases input with
      | MessageReceived msg => cases msg <;> simp_all [heeds]
      | _ => simp_all [heeds, loses_connection]
    by_cases hest : fsm.state = .Established <;> simp [hproc, hest, hkept]
  | initiates _ hlive hafter houtputs =>
    obtain ⟨d, h | h⟩ := houtputs <;> cases hs : fsm.state <;> simp_all [LostHandshake]
  | waits _ hs hproc | gives_up _ hs hproc => simp [hproc, hs, LostHandshake]
  | opens _ hlive _ hproc | stops _ hlive _ hproc =>
    cases hs : fsm.state <;> simp_all [LostHandshake, do_tcp_connected, do_stop_pre_open]
  | agrees o negotiated _ hs hproc =>
    simp only [hproc, hs, LostHandshake, push_timer_actions]
    split <;> simp
  | establishes info _ hs hproc =>
    simp only [hproc, hs]
    split <;> simp
  | goes_on _ hinput hafter houtputs _ =>
    have hnone : marks (fsm.process input).2 = [] :=
      List.filterMap_eq_nil_iff.2 fun o ho => (houtputs o ho).2.2
    by_cases hest : fsm.state = .Established <;>
      simp [hnone, hafter, hest, not_lost_of_not_loses hinput]
  | leaves h =>
    have hleft : (fsm.process input).1.state ≠ .Established := fun hest => by
      simpa [hest] using h.after
    by_cases hest : fsm.state = .Established <;> simp [h.marks, hleft, hest]

/-- A connection lost in `OpenConfirm` is reported as the end of a session. -/
theorem marks_of_lost {fsm : Fsm} {input : FsmInput} (h : fsm.LostHandshake input) :
    marks (fsm.process input).2 = [false] := by
  obtain ⟨hs, hlost⟩ := h
  rw [process, hs]
  cases input with
  | TcpFailed => rfl
  | MessageReceived msg => cases msg with
    | Notification n => rfl
    | _ => cases hlost
  | _ => cases hlost

/-! ## Whole runs -/

/-- The outputs of a sequence of inputs, from a given state. -/
def feed (fsm : Fsm) (inputs : List FsmInput) : Fsm × List FsmOutput :=
  inputs.foldl (fun acc input => ((acc.1.process input).1, acc.2 ++ (acc.1.process input).2))
    (fsm, [])

theorem feed_snoc (fsm : Fsm) (inputs : List FsmInput) (input : FsmInput) :
    fsm.feed (inputs ++ [input])
      = (((fsm.feed inputs).1.process input).1,
        (fsm.feed inputs).2 ++ ((fsm.feed inputs).1.process input).2) := by
  unfold feed
  rw [List.foldl_append]
  rfl

/-- Beginnings and ends come in turn, the first being a beginning; an end is reported only on
the way out of `Established`, and on every way out exactly one is. -/
structure InTurn (fsm : Fsm) (inputs : List FsmInput) : Prop where
  alternate : (marks (fsm.feed inputs).2).IsChain (· ≠ ·)
  first : (marks (fsm.feed inputs).2).head? ≠ some false
  only_leaving : ∀ done input, done ++ [input] <+: inputs →
    .SessionTerminated ∈ ((fsm.feed done).1.process input).2 →
      (fsm.feed done).1.state = .Established ∧
        ((fsm.feed done).1.process input).1.state ≠ .Established
  once : ∀ done input, done ++ [input] <+: inputs →
    (fsm.feed done).1.state = .Established →
    ((fsm.feed done).1.process input).1.state ≠ .Established →
      ((fsm.feed done).1.process input).2.count .SessionTerminated = 1

theorem count_eq_count_marks (outputs : List FsmOutput) :
    outputs.count .SessionTerminated = (marks outputs).count false := by
  induction outputs with
  | nil => rfl
  | cons o outputs ih =>
    cases o <;> simp [marks, FsmOutput.mark, List.filterMap_cons] at * <;> exact ih

theorem marks_append (a b : List FsmOutput) : marks (a ++ b) = marks a ++ marks b :=
  List.filterMap_append ..

theorem inTurn_snoc {l : List Bool} {b : Bool} (hl : l.IsChain (· ≠ ·))
    (hfirst : l.head? ≠ some false) (hlast : l.getLast? = some true ↔ b = false) :
    (l ++ [b]).IsChain (· ≠ ·) ∧ (l ++ [b]).head? ≠ some false := by
  constructor
  · refine List.isChain_append.2 ⟨hl, List.isChain_singleton b, ?_⟩
    intro x hx y hy
    rw [List.head?_cons, Option.mem_some_iff] at hy
    rw [← hy]
    cases x with
    | true =>
      rw [hlast.1 hx]
      decide
    | false =>
      cases b with
      | true => decide
      | false => exact absurd (hx.symm.trans (hlast.2 rfl)) (by decide)
  · cases l with
    | nil =>
      cases b with
      | true => decide
      | false => exact absurd (hlast.2 rfl) (by decide)
    | cons x xs => exact hfirst

theorem alternate_feed {inputs : List FsmInput} (config : FsmConfig)
    (h : ∀ done input, done ++ [input] <+: inputs →
      ¬((Fsm.new config).feed done).1.LostHandshake input) :
    (marks ((Fsm.new config).feed inputs).2).IsChain (· ≠ ·) ∧
      (marks ((Fsm.new config).feed inputs).2).head? ≠ some false ∧
      ((marks ((Fsm.new config).feed inputs).2).getLast? = some true ↔
        ((Fsm.new config).feed inputs).1.state = .Established) := by
  induction inputs using List.reverseRecOn with
  | nil => exact ⟨.nil, by simp [feed, marks], by simp [feed, marks, Fsm.new]⟩
  | append_singleton inputs input ih =>
    obtain ⟨hchain, hfirst, hlast⟩ :=
      ih fun done x hpre => h done x (hpre.trans (List.prefix_append inputs [input]))
    have hkept := h inputs input List.prefix_rfl
    have hmarks := marks_process ((Fsm.new config).feed inputs).1 input
    rw [feed_snoc, marks_append]
    generalize (Fsm.new config).feed inputs = r at *
    -- by the states before and after the input
    by_cases hbefore : r.1.state = .Established
    · rw [if_pos hbefore] at hmarks
      by_cases hafter : (r.1.process input).1.state = .Established
      · rw [if_pos hafter] at hmarks
        rw [hmarks, List.append_nil]
        exact ⟨hchain, hfirst, hlast.trans (iff_of_true hbefore hafter)⟩
      · rw [if_neg hafter] at hmarks
        rw [hmarks]
        obtain ⟨hchain', hfirst'⟩ :=
          inTurn_snoc hchain hfirst (hlast.trans (iff_of_true hbefore rfl))
        exact ⟨hchain', hfirst', by simp [hafter]⟩
    · rw [if_neg hbefore] at hmarks
      by_cases hafter : (r.1.process input).1.state = .Established
      · rw [if_pos hafter] at hmarks
        rw [hmarks]
        obtain ⟨hchain', hfirst'⟩ :=
          inTurn_snoc hchain hfirst (hlast.trans (iff_of_false hbefore Bool.true_eq_false_eq_False))
        exact ⟨hchain', hfirst', by simp [hafter]⟩
      · rw [if_neg hafter, if_neg hkept] at hmarks
        rw [hmarks, List.append_nil]
        exact ⟨hchain, hfirst, hlast.trans (iff_of_false hbefore hafter)⟩

theorem mem_terminated_iff (outputs : List FsmOutput) :
    .SessionTerminated ∈ outputs ↔ false ∈ marks outputs := by
  rw [← List.count_pos_iff, ← List.count_pos_iff, count_eq_count_marks]

/-- **When sessions begin and end in turn**: exactly when no connection is lost in
`OpenConfirm`. -/
theorem alternation_iff (config : FsmConfig) (inputs : List FsmInput) :
    (Fsm.new config).InTurn inputs ↔
      ∀ done input, done ++ [input] <+: inputs →
        ¬((Fsm.new config).feed done).1.LostHandshake input := by
  constructor
  · intro h done input hpre hlost
    have hnot : ((Fsm.new config).feed done).1.state ≠ .Established := by
      rw [hlost.1]
      decide
    refine hnot (h.only_leaving done input hpre ?_).1
    rw [mem_terminated_iff, marks_of_lost hlost]
    exact List.mem_singleton_self _
  · intro h
    obtain ⟨hchain, hfirst, -⟩ := alternate_feed config h
    refine ⟨hchain, hfirst, ?_, ?_⟩
    · intro done input hpre hmem
      have hmarks := marks_process ((Fsm.new config).feed done).1 input
      rw [mem_terminated_iff, hmarks] at hmem
      by_cases hbefore : ((Fsm.new config).feed done).1.state = .Established
      · rw [if_pos hbefore] at hmem
        refine ⟨hbefore, fun hafter => ?_⟩
        rw [if_pos hafter] at hmem
        cases hmem
      · rw [if_neg hbefore, if_neg (h done input hpre)] at hmem
        split at hmem
        · exact absurd hmem (by decide)
        · cases hmem
    · intro done input _ hbefore hafter
      have hmarks := marks_process ((Fsm.new config).feed done).1 input
      rw [if_pos hbefore, if_neg hafter] at hmarks
      rw [count_eq_count_marks, hmarks]
      rfl

end Fsm

/-- AS 65001, hold time 90 seconds, for a peer in AS 65002. -/
def plain_config : FsmConfig where
  local_as := 65001
  public_as := 65001
  local_bgp_id := Ipv4Addr.new 10 0 0 1
  hold_time := 90
  capabilities := [.FourByteAsn 65001]
  required_capabilities := []
  peer_as := some 65002
  confederation_member := false

/-- The OPEN of that peer. -/
def plain_open : OpenMessage where
  version := 4
  my_as := 65002
  hold_time := 90
  bgp_id := Ipv4Addr.new 10 0 0 2
  capabilities := [.FourByteAsn 65002]

/-- The connection fails after the OPENs and before the first KEEPALIVE: the end of a session
is reported that never began. -/
theorem lost_handshake_out_of_turn :
    ¬(Fsm.new plain_config).InTurn
      [.ManualStart, .TcpConnected, .MessageReceived (.Open plain_open), .TcpFailed] :=
  fun h => h.first (by decide +kernel)

end Pathvector

/-
# Timers, and what is remembered of the peer

The state machine has no timers of its own: it asks for them to be started and stopped. `Timed`
keeps the set of armed timers beside it, as the outputs change it, and `timers_disciplined` says
which are armed in which state. The hold time that two of them depend on is negotiated
(`negotiated_legal_iff`), with no lower bound on our own side.

`Watched` keeps the OPEN of the current connection beside the state machine. The state machine
has that OPEN in `OpenConfirm` and `Established`, but not every way out of these states forgets
it (`remembers_iff`).
-/
import Pathvector.Lib.Run
import Pathvector.Session.Alternation

set_option autoImplicit false

namespace Pathvector

/-! ## The armed timers -/

namespace Timers

/-- Only an armed timer fires. -/
def Fires (t : Timers) : FsmInput → Prop
  | .ConnectRetryTimerExpired => t.connect_retry = true
  | .HoldTimerExpired => t.hold = true
  | .KeepaliveTimerExpired => t.keepalive = true
  | _ => True

instance (t : Timers) (input : FsmInput) : Decidable (t.Fires input) := by
  induction input using FsmInput.casesOn <;> dsimp only [Fires] <;> infer_instance

end Timers

namespace Fsm

variable {fsm : Fsm}

/-- The timers that are armed in a state. -/
def Fit (fsm : Fsm) (t : Timers) : Prop :=
  match fsm.state with
  | .Idle | .Connect | .Active => t.hold = false ∧ t.keepalive = false
  | .OpenSent => t = ⟨false, true, false⟩
  | .OpenConfirm | .Established =>
    t = ⟨false, decide (0 < fsm.negotiated_hold_time), decide (0 < fsm.negotiated_hold_time)⟩

attribute [local simp] FsmState.live FsmState.peered Timers.output Timers.input

theorem fit_of_not_live {t : Timers} (hs : fsm.state.live = false) :
    fsm.Fit t ↔ t.hold = false ∧ t.keepalive = false := by
  unfold Fit
  cases h : fsm.state <;> simp_all

theorem fit_of_peered {t : Timers} (hs : fsm.state.peered = true) :
    fsm.Fit t ↔ t
      = ⟨false, decide (0 < fsm.negotiated_hold_time), decide (0 < fsm.negotiated_hold_time)⟩ := by
  unfold Fit
  cases h : fsm.state <;> simp_all

theorem fit_process {t : Timers} (input : FsmInput) (hf : t.Fires input) (h : fsm.Fit t) :
    (fsm.process input).1.Fit ((fsm.process input).2.foldl Timers.output (t.input input)) := by
  cases fsm.turn input with
  | ignores hinput hproc =>
    cases input <;> cases hs : fsm.state <;> simp_all [Fit, heeds, Timers.Fires]
  | initiates hinput hlive hafter houtputs =>
    rw [fit_of_not_live hlive] at h
    rw [fit_of_not_live (by rw [hafter]; rfl)]
    obtain ⟨d, ho | ho⟩ := houtputs <;> cases input <;> simp_all [asks]
  | waits hinput hs hproc | gives_up hinput hs hproc => simp_all [Fit]
  | opens hinput hlive _ hproc | stops hinput hlive _ hproc =>
    rw [fit_of_not_live hlive] at h
    rw [hproc, hinput]
    simp [do_tcp_connected, do_stop_pre_open, Fit, h]
  | agrees o negotiated hinput hs hproc =>
    rw [hproc, fit_of_peered rfl]
    simp only [Fit, hs] at h
    by_cases hn : 0 < negotiated <;> simp [push_timer_actions, hinput, hn, h]
  | establishes info hinput hs hproc =>
    rw [fit_of_peered (by rw [hs]; rfl)] at h
    rw [hproc, fit_of_peered rfl]
    by_cases hn : 0 < fsm.negotiated_hold_time <;> simp [hinput, hn, h]
  | goes_on hs hinput hafter houtputs htimers =>
    rw [fit_of_peered hs] at h
    rw [hafter, fit_of_peered hs, h]
    exact htimers _ rfl
  | leaves h' =>
    refine (fit_of_not_live h'.after).2 ⟨h'.hold t, (h'.keepalive t).trans ?_⟩
    unfold Fit at h
    cases hs : fsm.state <;> simp_all

end Fsm

/-- A state machine and its timers. -/
structure Timed where
  fsm : Fsm
  timers : Timers

namespace Timed

def new (config : FsmConfig) : Timed := ⟨.new config, ⟨false, false, false⟩⟩

def step (s : Timed) (input : FsmInput) : Timed where
  fsm := (s.fsm.process input).1
  timers := (s.fsm.process input).2.foldl Timers.output (s.timers.input input)

/-- Which timers are armed in which state. -/
structure Disciplined (s : Timed) : Prop where
  keepalive : s.timers.keepalive = true → s.fsm.state.peered = true
  hold : s.timers.hold = true → s.fsm.state = .OpenSent ∨ s.fsm.state.peered = true
  connect_retry : s.timers.connect_retry = true →
    s.fsm.state = .Idle ∨ s.fsm.state = .Connect ∨ s.fsm.state = .Active
  open_sent : s.fsm.state = .OpenSent → s.timers.hold = true
  peered : s.fsm.state.peered = true →
    if 0 < s.fsm.negotiated_hold_time then s.timers.hold = true ∧ s.timers.keepalive = true
    else s.timers.hold = false ∧ s.timers.keepalive = false

theorem disciplined_iff (s : Timed) : s.Disciplined ↔ s.fsm.Fit s.timers := by
  unfold Fsm.Fit
  obtain ⟨⟨state, config, peer_open, negotiated⟩, ⟨retry, hold, keepalive⟩⟩ := s
  constructor
  · rintro ⟨h1, h2, h3, h4, h5⟩
    cases state <;> simp_all [FsmState.peered] <;> split at h5 <;> simp_all
  · intro h
    cases state <;> constructor <;> simp_all [FsmState.peered]

/-- **Timer discipline**: in every run in which only armed timers fire, the keepalive timer is
armed in `OpenConfirm` and `Established` at most, the hold timer there and in `OpenSent`, the
connect-retry timer only without a connection; and they are armed when they have to be. -/
theorem timers_disciplined (config : FsmConfig) (inputs : List FsmInput)
    (h : Machine.Guarded step (fun s input => s.timers.Fires input) (new config) inputs) :
    (inputs.foldl step (new config)).Disciplined := by
  refine Machine.inv_of_guarded (fun s input hf hs => ?_) ?_ h
  · rw [disciplined_iff] at hs ⊢
    exact s.fsm.fit_process input hf hs
  · rw [disciplined_iff]
    exact ⟨rfl, rfl⟩

end Timed

/-- The session comes up, the keepalive timer fires, and then the hold timer. -/
theorem timers_of_plain_session :
    ([.ManualStart, .TcpConnected, .MessageReceived (.Open plain_open),
      .MessageReceived .Keepalive, .KeepaliveTimerExpired, .HoldTimerExpired].foldl Timed.step
        (.new plain_config)).Disciplined :=
  Timed.timers_disciplined plain_config _ (by decide)

/-! ## The negotiated hold time -/

/-- The hold time of a `SessionConfig`: the peer's own, or that of the daemon. The parser takes
every `u16` for either. -/
def session_hold_time (peer : Option UInt16) (daemon : UInt16) : UInt16 := peer.getD daemon

/-- What RFC 4271 asks of the hold time agreed on and the interval of KEEPALIVEs. -/
structure LegalTimers (ours theirs negotiated : UInt16) : Prop where
  hold : negotiated = 0 ∨ 3 ≤ negotiated
  theirs : negotiated ≤ theirs
  ours : negotiated ≤ ours
  keepalive : 0 < negotiated → 1 ≤ keepalive_interval negotiated ∧
    keepalive_interval negotiated < hold_duration negotiated

theorem legalTimers_iff (ours theirs n : UInt16) : LegalTimers ours theirs n ↔
    (n.toNat = 0 ∨ 3 ≤ n.toNat) ∧ n.toNat ≤ theirs.toNat ∧ n.toNat ≤ ours.toNat ∧
      (0 < n.toNat → 1 ≤ n.toNat / 3 ∧ n.toNat / 3 < n.toNat) := by
  have hhold : (n.toNat = 0 ∨ 3 ≤ n.toNat) ↔ (n = 0 ∨ 3 ≤ n) := by
    rw [← UInt16.toNat_inj, UInt16.le_iff_toNat_le]
    rfl
  rw [hhold]
  exact ⟨fun ⟨h1, h2, h3, h4⟩ => ⟨h1, h2, h3, h4⟩, fun ⟨h1, h2, h3, h4⟩ => ⟨h1, h2, h3, h4⟩⟩

/-- The hold time that an accepted OPEN leads to. -/
theorem negotiated_of_ok {fsm : Fsm} {o : OpenMessage} {negotiated : UInt16}
    (h : fsm.validate_open o = .ok negotiated) :
    (o.hold_time ≠ 1 ∧ o.hold_time ≠ 2) ∧
      negotiated.toNat = if fsm.config.hold_time = 0 ∨ o.hold_time = 0 then 0
        else min fsm.config.hold_time.toNat o.hold_time.toNat := by
  have hcases : (o.hold_time ≠ 1 ∧ o.hold_time ≠ 2) ∧ negotiated
      = if fsm.config.hold_time = 0 ∨ o.hold_time = 0 then 0
        else if fsm.config.hold_time ≤ o.hold_time then fsm.config.hold_time
        else o.hold_time := by
    unfold Fsm.validate_open at h
    dsimp only at h
    repeat' split at h
    all_goals cases h
    all_goals simp_all [UInt16.min_def]
  refine ⟨hcases.1, ?_⟩
  rw [hcases.2]
  split
  · rfl
  · rw [Nat.min_def]
    split <;> simp_all [UInt16.le_iff_toNat_le]

/-- **Legal timers, exactly**: the agreed hold time and the keepalive interval are what they have
to be, unless a hold time of one or two seconds is configured and the peer asks for one at all. -/
theorem negotiated_legal_iff (fsm : Fsm) (peer : Option UInt16) (daemon : UInt16)
    (hconfig : fsm.config.hold_time = session_hold_time peer daemon) (o : OpenMessage)
    (negotiated : UInt16) (h : fsm.validate_open o = .ok negotiated) :
    LegalTimers (session_hold_time peer daemon) o.hold_time negotiated ↔
      (session_hold_time peer daemon ≠ 1 ∧ session_hold_time peer daemon ≠ 2) ∨
        o.hold_time = 0 := by
  obtain ⟨⟨h1, h2⟩, hneg⟩ := negotiated_of_ok h
  rw [hconfig] at hneg
  rw [legalTimers_iff, hneg]
  generalize session_hold_time peer daemon = ours at *
  generalize o.hold_time = theirs at *
  have hnat : ∀ x : UInt16, (x = 0 ↔ x.toNat = 0) ∧ (x = 1 ↔ x.toNat = 1) ∧ (x = 2 ↔ x.toNat = 2) :=
    fun x => ⟨UInt16.toNat_inj.symm, UInt16.toNat_inj.symm, UInt16.toNat_inj.symm⟩
  simp only [ne_eq, (hnat _).1, (hnat _).2.1, (hnat _).2.2] at *
  split <;> omega

theorem plain_timers_legal : LegalTimers 90 90 90 :=
  (negotiated_legal_iff (.new plain_config) none 90 rfl plain_open 90 (by decide)).2
    (.inl ⟨by decide, by decide⟩)

/-- Our own hold time is one second. The peer's OPEN is accepted, and the session is to expire
after a second without a message, with no time between two KEEPALIVEs. -/
theorem one_second_hold_time :
    (Fsm.new { plain_config with hold_time := session_hold_time (some 1) 90 }).validate_open
        plain_open = .ok 1 ∧
      keepalive_interval 1 = 0 ∧ ¬LegalTimers (session_hold_time (some 1) 90) 90 1 := by
  refine ⟨by decide, rfl, fun h => ?_⟩
  rcases h.hold with h | h <;> exact absurd h (by decide)

/-! ## The peer's OPEN -/

namespace Fsm

variable {fsm : Fsm}

attribute [local simp] FsmState.live FsmState.peered

theorem unpeered_of_not_live {state : FsmState} (h : state.live = false) :
    state.peered = false := by
  cases state <;> simp_all

theorem peer_open_of_peered (hs : fsm.state.peered = true) (input : FsmInput) :
    (fsm.process input).1.peer_open = (if loses input then none else fsm.peer_open) ∧
      (loses input = true → (fsm.process input).1.state.peered = false) := by
  cases fsm.turn input with
  | ignores hinput hproc =>
    have hkept : loses input = false := by
      cases input with
      | MessageReceived msg =>
        cases msg <;> cases h : fsm.state <;> simp_all [heeds, loses]
      | _ => cases h : fsm.state <;> simp_all [heeds, loses]
    simp [hproc, hkept]
  | initiates _ hlive | opens _ hlive | stops _ hlive =>
    cases (unpeered_of_not_live hlive).symm.trans hs
  | waits _ h | gives_up _ h | agrees _ _ _ h =>
    rw [h] at hs
    cases hs
  | establishes info hinput _ hproc =>
    rw [hproc, hinput]
    exact ⟨rfl, fun h => by cases h⟩
  | goes_on _ hinput hafter => simp [hafter, hinput]
  | leaves h => exact ⟨h.forgets hs, fun _ => unpeered_of_not_live h.after⟩

/-- The inputs that end a handshake or a session and leave its OPEN behind. -/
def keeps_open (fsm : Fsm) (input : FsmInput) : Bool :=
  match fsm.state, input with
  | .OpenConfirm, .HoldTimerExpired | .OpenConfirm, .ManualStop => true
  | .OpenConfirm, .MessageReceived msg =>
    match msg with
    | .Keepalive | .Notification _ => false
    | _ => true
  | .Established, input => fsm.ends_with_message input
  | _, _ => false

/-- They are those that end it without losing the connection. -/
theorem keeps_open_iff (hs : fsm.state.peered = true) (hopen : fsm.peer_open.isSome)
    (input : FsmInput) : fsm.keeps_open input = true ↔
      (fsm.process input).1.state.peered = false ∧ loses input = false := by
  obtain ⟨o, ho⟩ := Option.isSome_iff_exists.1 hopen
  cases hstate : fsm.state with
  | OpenConfirm =>
    have hproc : fsm.process input = fsm.on_open_confirm input := by rw [process, hstate]
    rw [hproc]
    cases input with
    | MessageReceived msg =>
      cases msg <;> simp [keeps_open, on_open_confirm, build_session_info, ho, hstate, loses,
        forget, to_idle]
    | _ => simp [keeps_open, on_open_confirm, hstate, loses, forget, to_idle]
  | Established =>
    have hproc : fsm.process input = fsm.on_established input := by rw [process, hstate]
    rw [hproc]
    cases input with
    | MessageReceived msg =>
      cases msg with
      | RouteRefresh rr =>
        rw [on_established_refresh]
        cases hneg : fsm.refreshes <;>
          simp [keeps_open, ends_with_message, hstate, hneg, loses, reset_established, to_idle]
      | _ => simp [keeps_open, ends_with_message, on_established, hstate, loses, forget,
          reset_established, to_idle]
    | _ => simp [keeps_open, ends_with_message, on_established, hstate, loses, forget, to_idle]
  | _ =>
    rw [hstate] at hs
    cases hs

theorem peer_open_of_unpeered (hs : fsm.state.peered = false) (input : FsmInput) :
    ((fsm.process input).1.state.peered = false ∧
        ((fsm.process input).1.peer_open = none ∨
          (fsm.process input).1.peer_open = fsm.peer_open)) ∨
      ∃ o, fsm.state = .OpenSent ∧ input = .MessageReceived (.Open o) ∧
        (fsm.process input).1.peer_open = some o ∧ (fsm.process input).1.state = .OpenConfirm := by
  cases fsm.turn input with
  | agrees o _ hinput h hproc => exact .inr ⟨o, h, hinput, by rw [hproc], by rw [hproc]⟩
  | ignores _ hproc =>
    rw [hproc]
    exact .inl ⟨hs, .inr rfl⟩
  | initiates _ _ hafter =>
    rw [hafter]
    exact .inl ⟨rfl, .inr rfl⟩
  | waits _ _ hproc | opens _ _ _ hproc | stops _ _ _ hproc | gives_up _ _ hproc =>
    rw [hproc]
    exact .inl ⟨rfl, .inr rfl⟩
  | establishes _ _ h =>
    rw [h] at hs
    cases hs
  | goes_on h => cases h.symm.trans hs
  | leaves h => exact .inl ⟨unpeered_of_not_live h.after, h.peer_open⟩

end Fsm

/-- The state machine, with the OPEN received on its current connection. -/
structure Watched where
  fsm : Fsm
  current : Option OpenMessage

namespace Watched

def new (config : FsmConfig) : Watched := ⟨.new config, none⟩

def step (s : Watched) (input : FsmInput) : Watched where
  fsm := (s.fsm.process input).1
  current :=
    match s.fsm.state, input with
    | .Connect, .TcpConnected | .Active, .TcpConnected => none
    | .OpenSent, .MessageReceived (.Open o) => some o
    | _, _ => s.current

/-- What is known of the peer is what the OPEN of the current connection says, and nothing is
known when none has been accepted. -/
structure Remembers (s : Watched) : Prop where
  known : s.fsm.state.peered = true → ∃ o, s.current = some o ∧ s.fsm.peer_bgp_id = some o.bgp_id ∧
    s.fsm.peer_has_graceful_restart = o.capabilities.any Capability.is_graceful_restart
  unknown : s.fsm.state.peered = false →
    s.fsm.peer_bgp_id = none ∧ s.fsm.peer_has_graceful_restart = false

/-- If the input ends an agreement, the OPEN is forgotten with it. -/
def Forgets (s : Watched) (input : FsmInput) : Prop := s.fsm.keeps_open input = false
deriving Decidable

theorem current_of_peered {s : Watched} (hs : s.fsm.state.peered = true) (input : FsmInput) :
    (s.step input).current = s.current := by
  unfold step
  cases h : s.fsm.state <;> first | rfl | cases h ▸ hs

theorem remembers_step {s : Watched} (input : FsmInput) (hs : s.Remembers) :
    (s.step input).Remembers ↔ s.Forgets input := by
  cases hpeered : s.fsm.state.peered with
  | true =>
    obtain ⟨o, ho, hid, hgr⟩ := hs.known hpeered
    obtain ⟨hopen, hlost⟩ := Fsm.peer_open_of_peered hpeered input
    have hsome : s.fsm.peer_open.isSome := by
      rw [← Option.isSome_map (f := (·.bgp_id))]
      exact Option.isSome_of_eq_some hid
    unfold Forgets
    rw [Bool.eq_false_iff, Ne, Fsm.keeps_open_iff hpeered hsome, not_and, Bool.not_eq_false]
    constructor
    · intro h hleft
      by_contra hkept
      -- the OPEN is still there
      have hnone : (s.fsm.process input).1.peer_bgp_id = none := (h.unknown hleft).1
      rw [Fsm.peer_bgp_id, hopen, if_neg hkept] at hnone
      cases hid.symm.trans hnone
    · intro h
      refine ⟨fun hafter => ⟨o, (current_of_peered hpeered input).trans ho, ?_⟩, fun hleft => ?_⟩
      · have hkept : ¬Fsm.loses input = true := fun hl => by cases (hlost hl).symm.trans hafter
        unfold step Fsm.peer_bgp_id Fsm.peer_has_graceful_restart
        rw [hopen, if_neg hkept]
        exact ⟨hid, hgr⟩
      · unfold step Fsm.peer_bgp_id Fsm.peer_has_graceful_restart
        rw [hopen, if_pos (h hleft)]
        exact ⟨rfl, rfl⟩
  | false =>
    have hnone : s.fsm.peer_open = none := Option.map_eq_none_iff.1 (hs.unknown hpeered).1
    have hforgets : s.Forgets input := by
      unfold Forgets Fsm.keeps_open
      cases hstate : s.fsm.state <;> simp_all [FsmState.peered]
    refine iff_of_true ?_ hforgets
    rcases Fsm.peer_open_of_unpeered hpeered input with
      ⟨hafter, hopen⟩ | ⟨o, hsent, rfl, hopen, hafter⟩
    · refine ⟨fun h => by simp [step, hafter] at h, fun _ => ?_⟩
      rw [hnone, or_self] at hopen
      simp [step, Fsm.peer_bgp_id, Fsm.peer_has_graceful_restart, hopen]
    · refine ⟨fun _ => ⟨o, ?_, ?_⟩, fun h => by simp [step, hafter, FsmState.peered] at h⟩
      · simp [step, hsent]
      · simp [step, Fsm.peer_bgp_id, Fsm.peer_has_graceful_restart, hopen]

/-- **The peer's OPEN is remembered exactly while it is valid**, throughout a run, just if no
session or handshake of it ends by one of the inputs that leave it behind. -/
theorem remembers_iff (config : FsmConfig) (inputs : List FsmInput) :
    (∀ done, done <+: inputs → (done.foldl step (new config)).Remembers) ↔
      Machine.Guarded step Forgets (new config) inputs :=
  Machine.forall_prefix_iff_guarded (fun _ input => remembers_step input)
    ⟨nofun, fun _ => ⟨rfl, rfl⟩⟩

end Watched

/-- The session comes up and its hold timer expires. The state machine is in `Idle`, and still
has the identifier of the peer. -/
theorem expired_peer_remembered :
    let s := [.ManualStart, .TcpConnected, .MessageReceived (.Open plain_open),
      .MessageReceived .Keepalive, .HoldTimerExpired].foldl Watched.step (.new plain_config)
    s.fsm.state = .Idle ∧ s.fsm.peer_bgp_id = some (Ipv4Addr.new 10 0 0 2) ∧ ¬s.Remembers := by
  refine ⟨by decide, by decide, fun h => ?_⟩
  exact absurd (h.unknown (by decide)).1 (by decide)

end Pathvector

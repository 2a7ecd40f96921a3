/-
# Whose routes an event touches

A peer's Adj-RIB-In, its candidates and its stale prefixes change with its own session, the end of
its restart window, its configuration and a new judgement by its import policy. No neighbour can
change or take back what another one announced.
-/
import Pathvector.Restart.Accounting

set_option autoImplicit false

namespace Pathvector

/-- The event may write the routes of the peer. -/
def Event.touches (s : DaemonState) (q : IpAddr) : Event → Bool
  | .Session _ ip _ | .SetImportDefault _ ip _ => ip = q
  | .AddPeer peer _ => peer.address = q
  | .GrDeadlines clk => q ∈ s.expired clk.instant
  | .ReevaluateImport _ => true
  | .OriginateRoutes _ _ | .OriginateRoutesV6 _ | .WithdrawOriginated _ _
  | .WithdrawOriginatedV6 _ => q = LOCAL_ORIGIN_PEER
  | _ => false

namespace DaemonState

variable (s : DaemonState) {q : IpAddr}

theorem peer_of_session (clk : Clock) (ip : IpAddr) (event : SessionEvent) :
    (∀ m ∈ s.session_moves_v4 clk ip event, m.peer? = some ip) ∧
      ∀ m ∈ s.session_moves_v6 clk ip event, m.peer? = some ip := by
  cases event with
  | Established info =>
    simp only [session_moves_v4, session_moves_v6, established_moves_v4, established_moves_v6]
    constructor <;> intro m hm <;> split_ifs at hm <;> simp_all [Move.peer?]
  | Terminated reason => exact ⟨fun _ => peer_of_handled, fun _ => peer_of_handled⟩
  | RouteUpdate msg =>
    simp only [session_moves_v4, session_moves_v6, update_moves_v4, update_moves_v6]
    cases s.rr_inbound ip msg <;> dsimp only [message_moves_v4, message_moves_v6] <;>
      constructor <;> intro m hm <;> split_ifs at hm <;>
        first | exact peer_of_eor hm | simp_all [Move.peer?]

/-- Every move of an event is about a peer that it touches. -/
theorem touches_of_move (e : Event) :
    (∀ m ∈ s.moves_v4 e, m.peer? = some q → e.touches s q = true) ∧
      ∀ m ∈ s.moves_v6 e, m.peer? = some q → e.touches s q = true := by
  cases e with
  | Session clk ip event =>
    obtain ⟨h4, h6⟩ := s.peer_of_session clk ip event
    exact ⟨fun m hm hp => decide_eq_true (Option.some.inj ((h4 m hm).symm.trans hp)),
      fun m hm hp => decide_eq_true (Option.some.inj ((h6 m hm).symm.trans hp))⟩
  | GrDeadlines clk =>
    constructor <;> intro m hm hp <;> obtain ⟨p, hl, hm⟩ := List.mem_flatMap.1 hm <;>
      simp only [List.mem_cons, List.not_mem_nil, or_false] at hm <;>
        rcases hm with rfl | rfl | rfl <;> cases hp <;> exact decide_eq_true hl
  | AddPeer | SetImportDefault =>
    dsimp only [moves_v4, moves_v6]
    constructor <;> intro m hm hp <;> split_ifs at hm <;>
      simp_all [mem_reevaluate_moves, Move.peer?, Event.touches]
  | ReevaluateImport clk => exact ⟨fun _ _ _ => rfl, fun _ _ _ => rfl⟩
  | _ => simp_all [moves_v4, moves_v6, Move.peer?, Event.touches, eq_comm]

/-- **Routes are confined to their peers**: a run that does not touch a peer leaves its routes as
they are, in either family. -/
theorem routes_confined (s : DaemonState) (q : IpAddr) (events : List Event)
    (h : Machine.Guarded step (fun s e => e.touches s q = false) s events) :
    s.tables_v4.SameEntries (s.run events).tables_v4 q ∧
      s.tables_v6.SameEntries (s.run events).tables_v6 q := by
  induction events generalizing s with
  | nil => constructor <;> exact ⟨fun _ => rfl, fun _ => rfl, fun _ => .rfl⟩
  | cons e events ih =>
    obtain ⟨he, hes⟩ := h
    obtain ⟨h4, h6⟩ := s.touches_of_move (q := q) e
    obtain ⟨ih4, ih6⟩ := ih (s.step e) hes
    rw [he] at h4 h6
    rw [(s.tables_step e).1] at ih4
    rw [(s.tables_step e).2] at ih6
    exact ⟨(Tables.sameEntries_moves (fun m hm hp => Bool.noConfusion (h4 m hm hp)) _).trans ih4,
      (Tables.sameEntries_moves (fun m hm hp => Bool.noConfusion (h6 m hm hp)) _).trans ih6⟩

end DaemonState

/-- A second neighbour announces a prefix that the first one has announced. -/
theorem rival_confined :
    let s := (small_daemon [open_peer 2 65002, open_peer 3 65003] none []).run
      [session_up 2 .External [], session_up 3 .External [],
        update_from 2 0 (announcement [65002] [Nlri.v4 10 0 0 0 8])]
    let events := [update_from 3 0 (announcement [65003] [Nlri.v4 10 0 0 0 8])]
    (s.tables_v4.held (peer_addr 2) (Nlri.v4 10 0 0 0 8)).isSome = true ∧
      s.tables_v4.SameEntries (s.run events).tables_v4 (peer_addr 2) ∧
        s.tables_v6.SameEntries (s.run events).tables_v6 (peer_addr 2) :=
  ⟨by decide +kernel, DaemonState.routes_confined _ _ _ ⟨by decide, trivial⟩⟩

end Pathvector

/-
# BLACKHOLE announcements and the kernel

Over the daemon: in every state of a run whose events spare the null routes (`SparesNullRoutes`),
the kernel has a null route for just the prefixes that some Adj-RIB-In holds with the BLACKHOLE
community. Two peers that announce the same prefix so are enough for an event that does not.
-/
import Pathvector.Fib.NullRoutes
import Pathvector.Tables.Peers

set_option autoImplicit false

namespace Pathvector

/-! ## The condition can be checked -/

namespace Tables

variable {A : Type} [IpAddress A] [DecidableEq A]

instance (gateway : Option NextHop → Option A) (t : Tables A) (m : Move A) (peer : IpAddr)
    (ops : List (ImportOp A)) (reported : Bool) (n : Nlri A) :
    Decidable (t.HearSpares gateway m peer ops reported n) := by
  delta HearSpares
  infer_instance

instance (gateway : Option NextHop → Option A) (t : Tables A) (m : Move A) :
    Decidable (t.Spares gateway m) := by
  induction m using Move.casesOn <;> dsimp only [Spares] <;> infer_instance

end Tables

namespace DaemonState

/-! ## Steps -/

/-- **Null routes match BLACKHOLE announcements**, in both families. -/
def NullRoutesMatch (s : DaemonState) : Prop :=
  (∀ n, s.kernel.v4 n = some .Blackhole ↔ ∃ p, s.tables_v4.tagged p n = true) ∧
    ∀ n, s.kernel.v6 n = some .Blackhole ↔ ∃ p, s.tables_v6.tagged p n = true

/-- The moves of the event spare the null routes, one after the other. -/
def SparesNullRoutes (s : DaemonState) (e : Event) : Prop :=
  Machine.Guarded Tables.move (Tables.Spares gateway_v4) s.tables_v4 (s.moves_v4 e) ∧
    Machine.Guarded Tables.move (Tables.Spares gateway_v6) s.tables_v6 (s.moves_v6 e)
deriving Decidable

theorem nullRoutesMatch_iff (s : DaemonState) :
    s.NullRoutesMatch ↔ s.tables_v4.NullRoutes gateway_v4 ∧ s.tables_v6.NullRoutes gateway_v6 := by
  unfold NullRoutesMatch
  rw [s.kernel_families.1, s.kernel_families.2]
  rfl

section

variable {A : Type} [IpAddress A] [DecidableEq A] {gateway : Option NextHop → Option A}

theorem nullRoutes_moves {t : Tables A} (ht : t.NullRoutes gateway) {ms : List (Move A)}
    (hhear : ∀ q policy rtr ops refreshed reported,
      .Hear q policy rtr ops refreshed reported ∈ ms →
        ms = [.Hear q policy rtr ops refreshed reported] ∧ Orderly ops ∧ q ∈ t.adj_ribs_in)
    (hms : Machine.Guarded Tables.move (Tables.Spares gateway) t ms) :
    (t.moves ms).NullRoutes gateway := by
  by_cases hmsg : ∃ q policy rtr ops refreshed reported,
      .Hear q policy rtr ops refreshed reported ∈ ms
  · obtain ⟨q, policy, rtr, ops, refreshed, reported, hmem⟩ := hmsg
    obtain ⟨rfl, hproper⟩ := hhear q policy rtr ops refreshed reported hmem
    exact Tables.nullRoutes_move ht (m := .Hear ..) hproper hms.1
  · have hproper : ∀ m ∈ ms, ∀ u : Tables A, u.Proper m := by
      intro m hm u
      cases m with
      | Hear q policy rtr ops refreshed reported => exact absurd ⟨_, _, _, _, _, _, hm⟩ hmsg
      | _ => exact trivial
    clear hmsg hhear
    induction ms generalizing t with
    | nil => exact ht
    | cons m ms ih =>
      have hfirst := Tables.nullRoutes_move ht (hproper m (List.mem_cons_self ..) t) hms.1
      exact ih hfirst hms.2 fun m' hm' => hproper m' (List.mem_cons_of_mem _ hm')

end

/-- What the steps keep: the null routes, and that a configured peer has both Adj-RIBs-In. -/
structure BlackholesKept (s : DaemonState) : Prop where
  v4 : s.tables_v4.NullRoutes gateway_v4
  v6 : s.tables_v6.NullRoutes gateway_v6
  paired : ∀ p ∈ s.adj_ribs_in, p ∈ s.adj_ribs_in_v6

theorem blackholesKept_step {s : DaemonState} (hs : s.BlackholesKept) {e : Event}
    (hok : s.SparesNullRoutes e) : (s.step e).BlackholesKept := by
  obtain ⟨h4, h6⟩ := s.tables_step e
  refine ⟨?_, ?_, paired_step hs.paired e⟩
  · rw [h4]
    refine nullRoutes_moves hs.v4 (fun q policy rtr ops refreshed reported hm => ?_) hok.1
    obtain ⟨hconf, hmoves, env, msg, rfl, -⟩ := (s.movesOf_v4 e).hear hm
    exact ⟨hmoves, orderly_intake_v4 env msg, hconf.2.2⟩
  · rw [h6]
    refine nullRoutes_moves hs.v6 (fun q policy rtr ops refreshed reported hm => ?_) hok.2
    obtain ⟨hconf, hmoves, env, msg, rfl, -⟩ := (s.movesOf_v6 e).hear hm
    exact ⟨hmoves, orderly_intake_v6 env msg, hs.paired q hconf.2.2⟩

theorem Tables.Empty.nullRoutes {A : Type} [IpAddress A] [DecidableEq A] {t : Tables A}
    (h : t.Empty) (gateway : Option NextHop → Option A) : t.NullRoutes gateway := by
  intro n
  rw [Tables.kernel_of_none gateway h.calls]
  refine iff_of_false (fun h => nomatch h) ?_
  rintro ⟨p, hp⟩
  rw [Tables.tagged, h.held] at hp
  cases hp

/-- **Null routes over runs.** -/
theorem null_routes_match (local_as : Asn) (local_bgp_id : Ipv4Addr)
    (local_ipv6 : Option Ipv6Addr) (cluster_id : Option UInt32) (confederation_id : Option Asn)
    (peers : List PeerConfig) (update_senders : HashMap IpAddr UpdateSender)
    (caps : List Capability) (events : List Event)
    (hrun : Machine.Guarded step SparesNullRoutes (new local_as local_bgp_id local_ipv6 cluster_id
      confederation_id peers update_senders caps) events) :
    ((new local_as local_bgp_id local_ipv6 cluster_id confederation_id peers update_senders
      caps).run events).NullRoutesMatch := by
  obtain ⟨h4, h6⟩ := empty_tables_new local_as local_bgp_id local_ipv6 cluster_id confederation_id
    peers update_senders caps
  have hnew : (new local_as local_bgp_id local_ipv6 cluster_id confederation_id peers
      update_senders caps).BlackholesKept :=
    ⟨Tables.Empty.nullRoutes h4 _, Tables.Empty.nullRoutes h6 _, paired_new _ _ _ _ _ _ _ _⟩
  have hstep : ∀ s e, SparesNullRoutes s e → BlackholesKept s → (s.step e).BlackholesKept :=
    fun s e hok hs => blackholesKept_step hs hok
  have hend := Machine.inv_of_guarded hstep hnew hrun
  exact (nullRoutesMatch_iff _).2 ⟨hend.v4, hend.v6⟩

end DaemonState

/-! ## Two peers and one prefix -/

/-- An UPDATE that announces the prefixes with the BLACKHOLE community. -/
def blackhole_announcement (asns : List Asn) (nlris : List (Nlri Ipv4Addr)) : UpdateMessage :=
  ⟨[], (announcement asns nlris).attributes ++ [.Communities [Community.BLACKHOLE]], nlris⟩

/-- A daemon with a kernel layer, and sessions with 10.0.0.2 and 10.0.0.3. -/
def two_up : List Event :=
  [.SetFibManager, session_up 2 .External [], session_up 3 .External []]

/-- 10.0.0.2 announces a prefix with the community, withdraws it and announces it without. -/
theorem lone_blackhole_matched :
    Machine.Guarded DaemonState.step DaemonState.SparesNullRoutes
        (small_daemon [open_peer 2 65002, open_peer 3 65003] none [])
        (two_up ++ [update_from 2 0 (blackhole_announcement [65002] [Nlri.v4 10 2 0 0 16]),
          update_from 2 1 ⟨[Nlri.v4 10 2 0 0 16], [], []⟩,
          update_from 2 2 (announcement [65002] [Nlri.v4 10 2 0 0 16])]) ∧
      ((small_daemon [open_peer 2 65002, open_peer 3 65003] none []).run
        (two_up ++ [update_from 2 0 (blackhole_announcement [65002] [Nlri.v4 10 2 0 0 16]),
          update_from 2 1 ⟨[Nlri.v4 10 2 0 0 16], [], []⟩,
          update_from 2 2 (announcement [65002] [Nlri.v4 10 2 0 0 16])])).NullRoutesMatch := by
  have hrun : Machine.Guarded DaemonState.step DaemonState.SparesNullRoutes
      (small_daemon [open_peer 2 65002, open_peer 3 65003] none [])
      (two_up ++ [update_from 2 0 (blackhole_announcement [65002] [Nlri.v4 10 2 0 0 16]),
        update_from 2 1 ⟨[Nlri.v4 10 2 0 0 16], [], []⟩,
        update_from 2 2 (announcement [65002] [Nlri.v4 10 2 0 0 16])]) := by
    decide +kernel
  exact ⟨hrun, DaemonState.null_routes_match _ _ _ _ _ _ _ _ _ hrun⟩

/-- Both peers announce the prefix with the community. When one of them withdraws it, the null
route is gone, and 10.0.0.3 still announces it. -/
def one_of_two_withdraws : List Event :=
  two_up ++ [update_from 2 0 (blackhole_announcement [65002] [Nlri.v4 10 2 0 0 16]),
    update_from 3 1 (blackhole_announcement [65003] [Nlri.v4 10 2 0 0 16]),
    update_from 2 2 ⟨[Nlri.v4 10 2 0 0 16], [], []⟩]

theorem null_route_lost :
    ((small_daemon [open_peer 2 65002, open_peer 3 65003] none []).run
        one_of_two_withdraws).Reachable ∧
      ¬((small_daemon [open_peer 2 65002, open_peer 3 65003] none []).run
        one_of_two_withdraws).NullRoutesMatch := by
  refine ⟨reachable_small_daemon .., fun h => ?_⟩
  have hnull := (h.1 (Nlri.v4 10 2 0 0 16)).2 ⟨peer_addr 3, by decide +kernel⟩
  revert hnull
  decide +kernel

end Pathvector

/-
# The kernel mirrors the Loc-RIB

Over the daemon: as long as every event is faithful (`Faithful`), the kernel that the calls add up
to has, for every prefix of either family, the next hop of the best route if that is one of the
family, and nothing otherwise. The condition is about three things that the source leaves open:
IPv4 origination does not call the kernel layer, a best route without a usable next hop does not
take the entry of its predecessor away, and neither does an insertion that leaves no best route.
-/
import Pathvector.Fib.Mirror
import Pathvector.Tables.Peers

set_option autoImplicit false

namespace Pathvector

variable {A : Type} [IpAddress A] [DecidableEq A]

/-! ## Without BLACKHOLE routes -/

/-- An Adj-RIB-In without BLACKHOLE routes that hears of none calls for no null route. -/
theorem ImportState.no_blackholes_take_all (peer : PeerId) (oracle : NextHopOracle)
    (policy : Policy A) (rtr : RtrHandle A) {ops : List (ImportOp A)}
    (hops : ∀ raw, .Announce raw ∈ ops → raw.is_blackhole = false) (st : ImportState A)
    (hst : ∀ n raw, st.adj_rib_in.get n = some raw → raw.is_blackhole = false)
    (hann : st.blackhole_announced = []) (hwd : st.blackhole_withdrawn = []) :
    (st.take_all peer oracle policy rtr ops).blackhole_announced = [] ∧
      (st.take_all peer oracle policy rtr ops).blackhole_withdrawn = [] := by
  -- over the operations, with the Adj-RIB-In as it then is
  induction ops generalizing st with
  | nil => exact ⟨hann, hwd⟩
  | cons op ops ih =>
    refine ih (fun raw hraw => hops raw (List.mem_cons_of_mem _ hraw))
      (st.take peer oracle policy rtr op) (fun n raw hraw => ?_) ?_ ?_
    · rw [(st.take_tables peer oracle policy rtr op).1] at hraw
      cases op with
      | Withdraw m =>
        rw [AdjRibIn.hear, AdjRibIn.get_withdraw] at hraw
        split at hraw
        · cases hraw
        · exact hst n raw hraw
      | Announce raw' =>
        rw [AdjRibIn.hear, AdjRibIn.get_insert] at hraw
        split at hraw
        · cases hraw
          exact hops raw (List.mem_cons_self ..)
        · exact hst n raw hraw
    · cases op with
      | Withdraw m => exact hann
      | Announce raw =>
        have hb := hops raw (List.mem_cons_self ..)
        change (st.announce peer oracle policy rtr raw).blackhole_announced = []
        unfold announce
        rw [if_neg (by rw [hb]; exact Bool.false_ne_true)]
        generalize policy.evaluate rtr raw = d
        rcases d with ⟨_ | _ | _, route⟩ <;> exact hann
    · cases op with
      | Withdraw m =>
        have hget : (st.adj_rib_in.get m).any Route.is_blackhole = false := by
          cases hm : st.adj_rib_in.get m with
          | none => rfl
          | some raw => exact hst m raw hm
        change (if (st.adj_rib_in.get m).any Route.is_blackhole
          then st.blackhole_withdrawn ++ [m] else st.blackhole_withdrawn) = []
        rw [hget]
        exact hwd
      | Announce raw =>
        change (st.announce peer oracle policy rtr raw).blackhole_withdrawn = []
        unfold announce
        split
        · exact hwd
        · generalize policy.evaluate rtr raw = d
          rcases d with ⟨_ | _ | _, route⟩ <;> exact hwd

/-! ## Moves -/

namespace Tables

variable (gateway : Option NextHop → Option A)
variable {t : Tables A} {m : Move A}

/-- Each change of the batch keeps the entries of the kernel, if there is one. -/
def Batches (t : Tables A) (peer : PeerId) (ops : List (RibOp A)) : Prop :=
  t.calls.isSome = true → Machine.Guarded (LocRib.op_step peer t.oracle)
    (fun acc => acc.1.Keeps gateway peer t.oracle) (t.loc_rib, []) ops
deriving Decidable

/-- What a move must meet for the kernel to stay a mirror. -/
def Faithful (t : Tables A) : Move A → Prop
  | .Hear peer policy rtr ops _ reported => reported = true ∧
      (∀ op ∈ ops, op.nlri.Canonical ∧ ∀ raw ∈ op.route?, raw.is_blackhole = false) ∧
      t.Batches gateway peer (ops.filterMap (ImportOp.rib_op policy rtr))
  | .Prune peer nlris => t.Batches gateway peer (nlris.map .Drop)
  | .Leave peer => t.Batches gateway peer ((t.loc_rib.prefixes_of peer).map .Drop)
  | .Restale peer => t.Batches gateway peer
      ((announced { t with adj_ribs_in := t.adj_ribs_in.modify peer AdjRibIn.mark_all_stale }
        peer).map .Put)
  | .Reapply peer policy rtr =>
      t.Batches gateway peer ((t.announced peer).map (policy.reapplied rtr))
  | .Originate route reported => route.nlri.Canonical ∧
      if reported then t.Batches gateway LOCAL_ORIGIN_PEER [.Put route]
      -- nobody is told, so nothing may change
      else t.calls.isSome = true → kernel_entry gateway
        ((t.loc_rib.insert LOCAL_ORIGIN_PEER route t.oracle).1.best route.nlri)
          = kernel_entry gateway (t.loc_rib.best route.nlri)
  | .Unoriginate nlri => t.Batches gateway LOCAL_ORIGIN_PEER [.Drop nlri]
  | .Reselect => t.calls.isSome = true → t.loc_rib.Reselects gateway t.oracle
  | .AttachKernel => ∀ n ∈ t.loc_rib.peer_index.keys,
      kernel_entry gateway (t.loc_rib.best n) = none
  | _ => True

/-- A mirror, and what it takes to stay one: only networks, and no BLACKHOLE route. -/
structure Reflected (t : Tables A) : Prop where
  networks : t.loc_rib.Networks
  held : ∀ p n raw, t.held p n = some raw → raw.nlri.Canonical ∧ raw.is_blackhole = false
  mirrors : t.calls.isSome = true → Mirrors gateway (t.kernel gateway) t.loc_rib

variable {gateway}

section

variable (ht : t.Reflected gateway) (p : IpAddr)
include ht

theorem Reflected.batch (hm : m ≠ .AttachKernel) {peer : PeerId} {ops : List (RibOp A)}
    (hops : ∀ op ∈ ops, ∀ r, op.route? = some r → r.nlri.Canonical)
    (hrib : (t.move m).loc_rib = (t.loc_rib.run_ops peer t.oracle ops).1)
    (hcalls : t.calls_of m = (t.loc_rib.run_ops peer t.oracle ops).2.map .Apply)
    (hheld : ∀ p n raw, (t.move m).held p n = some raw →
      raw.nlri.Canonical ∧ raw.is_blackhole = false) (hkeep : t.Batches gateway peer ops) :
    (t.move m).Reflected gateway := by
  refine ⟨?_, hheld, fun hsome => ?_⟩
  · rw [hrib]
    exact LocRib.networks_run_ops ht.networks peer t.oracle hops
  · rw [calls_move t hm, Option.isSome_map] at hsome
    rw [kernel_move gateway hm hsome, hrib, hcalls]
    exact (ht.mirrors hsome).run_ops ht.networks hops (hkeep hsome)

theorem Reflected.quiet (hm : m ≠ .AttachKernel) (hrib : (t.move m).loc_rib = t.loc_rib)
    (hcalls : t.calls_of m = [])
    (hheld : ∀ p n raw, (t.move m).held p n = some raw →
      raw.nlri.Canonical ∧ raw.is_blackhole = false) : (t.move m).Reflected gateway := by
  refine ⟨?_, hheld, fun hsome => ?_⟩
  · rw [hrib]
    exact ht.networks
  · rw [calls_move t hm, Option.isSome_map] at hsome
    rw [kernel_move gateway hm hsome, hrib, hcalls]
    exact ht.mirrors hsome

theorem Reflected.not_tagged (n : Nlri A) : (t.held p n).any Route.is_blackhole = false := by
  cases h : t.held p n with
  | none => rfl
  | some raw => exact (ht.held p n raw h).2

theorem Reflected.hear {peer : IpAddr} {policy : Policy A} {rtr : RtrHandle A}
    {ops : List (ImportOp A)} {refreshed : List (Nlri A)} {reported : Bool}
    (hok : t.Faithful gateway (.Hear peer policy rtr ops refreshed reported))
    (hheld : ∀ p n raw,
      (t.move (.Hear peer policy rtr ops refreshed reported)).held p n = some raw →
      raw.nlri.Canonical ∧ raw.is_blackhole = false) :
    (t.move (.Hear peer policy rtr ops refreshed reported)).Reflected gateway := by
  obtain ⟨rfl, hops, hkeep⟩ := hok
  have htables := (ImportState.take_all_tables peer t.oracle policy rtr
    (ImportState.start ((t.adj_ribs_in.lookup peer).getD (AdjRibIn.new peer)) t.loc_rib) ops).2.1
  have hget : ∀ n, ((t.adj_ribs_in.lookup peer).getD (AdjRibIn.new peer)).get n
      = t.held peer n := by
    intro n
    unfold Tables.held
    cases t.adj_ribs_in.lookup peer <;> rfl
  obtain ⟨hann, hwd⟩ := ImportState.no_blackholes_take_all peer t.oracle policy rtr
    (fun raw hraw => (hops _ hraw).2 raw rfl)
    (ImportState.start ((t.adj_ribs_in.lookup peer).getD (AdjRibIn.new peer)) t.loc_rib)
    (fun n raw hraw => (ht.held peer n raw ((hget n).symm.trans hraw)).2) rfl rfl
  refine ht.batch (by simp) (fun op hop r hr => ?_) (congrArg Prod.fst htables) ?_ hheld hkeep
  · obtain ⟨iop, hiop, hrop⟩ := List.mem_filterMap.1 hop
    have hn := ImportOp.nlri_rib_op hrop
    cases op with
    | Put r' =>
      cases hr
      rw [show r.nlri = iop.nlri from hn]
      exact (hops iop hiop).1
    | Drop n => cases hr
  · have hreports : (t.intake peer policy rtr ops).fib_changes
        = (t.loc_rib.run_ops peer t.oracle (ops.filterMap (ImportOp.rib_op policy rtr))).2 :=
      congrArg Prod.snd htables
    simp only [calls_of, if_true, update_calls, hreports]
    rw [show (t.intake peer policy rtr ops).blackhole_announced = [] from hann,
      show (t.intake peer policy rtr ops).blackhole_withdrawn = [] from hwd]
    simp

theorem Reflected.originate_unreported {route : Route A} (hcan : route.nlri.Canonical)
    (hsame : t.calls.isSome = true → kernel_entry gateway
      ((t.loc_rib.insert LOCAL_ORIGIN_PEER route t.oracle).1.best route.nlri)
        = kernel_entry gateway (t.loc_rib.best route.nlri)) :
    (t.move (.Originate route false)).Reflected gateway := by
  have hnet := ht.networks.insert LOCAL_ORIGIN_PEER hcan t.oracle
  refine ⟨hnet, ht.held, fun hsome => ?_⟩
  rw [calls_move t (by simp), Option.isSome_map] at hsome
  rw [kernel_move gateway (by simp) hsome]
  intro n
  refine (ht.mirrors hsome n).trans ?_
  change _ = kernel_entry gateway ((t.loc_rib.insert LOCAL_ORIGIN_PEER route t.oracle).1.best n)
  by_cases hn : n = route.nlri
  · rw [hn, hsame hsome]
  · by_cases hmask : n.masked = route.nlri.masked
    · have hhost : ¬n.Canonical := fun h => hn ((h.masked_inj hcan).1 hmask)
      rw [ht.networks.best hhost, hnet.best hhost]
    · rw [LocRib.best_insert_of_ne _ _ _ _ hmask]

/-- **The mirror over a move.** -/
theorem reflected_move (hok : t.Faithful gateway m) : (t.move m).Reflected gateway := by
  have hheld : ∀ p n raw, (t.move m).held p n = some raw →
      raw.nlri.Canonical ∧ raw.is_blackhole = false := by
    refine forall_held_move (fun raw h => h)
      (fun q policy rtr ops refreshed reported hm raw hraw => ?_)
      ht.held
    subst hm
    exact ⟨(hok.2.1 _ hraw).1, (hok.2.1 _ hraw).2 raw rfl⟩
  have hdrops : ∀ (l : List (Nlri A)), ∀ op ∈ l.map RibOp.Drop, ∀ r, op.route? = some r →
      r.nlri.Canonical := by
    intro l op hop r hr
    obtain ⟨n, -, rfl⟩ := List.mem_map.1 hop
    cases hr
  cases m with
  | Hear peer policy rtr ops refreshed reported => exact ht.hear hok hheld
  | Prune peer nlris =>
    refine ht.batch (by simp) (hdrops nlris) rfl ?_ hheld hok
    have hlifted : t.lifted (.Prune peer nlris) = [] := by
      rw [lifted, List.filter_eq_nil_iff]
      intro n _
      rw [ht.not_tagged]
      exact Bool.false_ne_true
    rw [calls_of, hlifted]
    rfl
  | Clear peer =>
    refine ht.quiet (by simp) rfl ?_ hheld
    rw [calls_of, lifted, List.map_eq_nil_iff, List.map_eq_nil_iff, List.filter_eq_nil_iff]
    intro raw hraw
    rw [(ht.held _ _ _ ((t.mem_announced_iff peer raw).1 hraw)).2]
    exact Bool.false_ne_true
  | Leave peer => exact ht.batch (by simp) (hdrops _) rfl rfl hheld hok
  | Restale peer =>
    refine ht.batch (by simp) (fun op hop r hr => ?_) rfl rfl hheld hok
    obtain ⟨raw, hraw, rfl⟩ := List.mem_map.1 hop
    cases hr
    exact (hheld peer r.nlri r ((mem_announced_iff _ peer r).1 hraw)).1
  | Reapply peer policy rtr =>
    refine ht.batch (by simp) (fun op hop r hr => ?_) rfl rfl hheld hok
    obtain ⟨raw, hraw, rfl⟩ := List.mem_map.1 hop
    have hn := nlri_reapplied policy rtr raw
    generalize policy.reapplied rtr raw = op at hr hn
    cases op with
    | Put r' =>
      cases hr
      rw [show r.nlri = raw.nlri from hn]
      exact (ht.held _ _ _ ((t.mem_announced_iff peer raw).1 hraw)).1
    | Drop n => cases hr
  | Originate route reported =>
    obtain ⟨hcan, hok⟩ := hok
    cases reported with
    | false => exact ht.originate_unreported hcan hok
    | true =>
      refine ht.batch (by simp) (fun op hop r hr => ?_) rfl rfl hheld hok
      cases List.mem_singleton.1 hop
      cases hr
      exact hcan
  | Unoriginate nlri =>
    exact ht.batch (by simp) (hdrops [nlri]) rfl rfl hheld hok
  | Reselect =>
    refine ⟨?_, ht.held, fun hsome => ?_⟩
    · exact (LocRib.followed_recompute_all ht.networks (fun _ => rfl) t.oracle).1
    · rw [calls_move t (by simp), Option.isSome_map] at hsome
      rw [kernel_move gateway (by simp) hsome]
      exact (ht.mirrors hsome).recompute_all ht.networks (hok hsome)
  | AttachKernel =>
    refine ⟨ht.networks, ht.held, fun _ n => ?_⟩
    symm
    by_cases hn : n ∈ t.loc_rib.peer_index.keys
    · exact hok n hn
    · -- a prefix that is not in the table has no best route
      have hnone : t.loc_rib.best n = none := by
        unfold LocRib.best
        cases t.loc_rib.best_peer n with
        | none => rfl
        | some p =>
          rw [Option.bind_some, ← Option.not_isSome_iff_eq_none, ← LocRib.mem_candidates_iff,
            ← t.loc_rib.mem_index]
          rw [AList.lookup_eq_none.2 fun h => hn (AList.mem_keys.1 h)]
          exact List.not_mem_nil
      change kernel_entry gateway (t.loc_rib.best n) = none
      rw [hnone]
      rfl
  | NewAdjRibIn | MarkStale | DropStale | Forget | SetOracle =>
    exact ht.quiet (by simp) rfl rfl hheld

theorem reflected_moves {ms : List (Move A)} (hms : Machine.Guarded move (Faithful gateway) t ms) :
    (t.moves ms).Reflected gateway := by
  have hmove : ∀ u m, Faithful gateway u m → Reflected gateway u → (u.move m).Reflected gateway :=
    fun u m hm hu => reflected_move hu hm
  exact Machine.inv_of_guarded hmove ht hms

end

instance (gateway : Option NextHop → Option A) (t : Tables A) (m : Move A) :
    Decidable (t.Faithful gateway m) := by
  induction m using Move.casesOn <;> dsimp only [Faithful] <;> infer_instance

end Tables

/-! ## Runs of the daemon -/

namespace DaemonState

/-- **The kernel mirrors the Loc-RIB**, in both families. -/
def KernelMirrors (s : DaemonState) : Prop :=
  s.fib_manager.isSome = true →
    (∀ n, s.kernel.v4 n = kernel_entry gateway_v4 (s.rib.loc_rib.best n)) ∧
      ∀ n, s.kernel.v6 n = kernel_entry gateway_v6 (s.rib.loc_rib_v6.best n)

/-- The moves of the event are faithful, one after the other. -/
def FaithfulToKernel (s : DaemonState) (e : Event) : Prop :=
  Machine.Guarded Tables.move (Tables.Faithful gateway_v4) s.tables_v4 (s.moves_v4 e) ∧
    Machine.Guarded Tables.move (Tables.Faithful gateway_v6) s.tables_v6 (s.moves_v6 e)
deriving Decidable

theorem reflected_step {s : DaemonState}
    (hs : s.tables_v4.Reflected gateway_v4 ∧ s.tables_v6.Reflected gateway_v6) {e : Event}
    (hok : s.FaithfulToKernel e) :
    (s.step e).tables_v4.Reflected gateway_v4 ∧ (s.step e).tables_v6.Reflected gateway_v6 := by
  obtain ⟨h4, h6⟩ := s.tables_step e
  rw [h4, h6]
  exact ⟨Tables.reflected_moves hs.1 hok.1, Tables.reflected_moves hs.2 hok.2⟩

theorem kernelMirrors_of_reflected {s : DaemonState} (h4 : s.tables_v4.Reflected gateway_v4)
    (h6 : s.tables_v6.Reflected gateway_v6) : s.KernelMirrors := by
  intro hsome
  rw [s.kernel_families.1, s.kernel_families.2]
  exact ⟨h4.mirrors ((Option.isSome_map ..).trans hsome),
    h6.mirrors ((Option.isSome_map ..).trans hsome)⟩

/-- **The kernel over runs.** -/
theorem kernel_mirrors (local_as : Asn) (local_bgp_id : Ipv4Addr) (local_ipv6 : Option Ipv6Addr)
    (cluster_id : Option UInt32) (confederation_id : Option Asn) (peers : List PeerConfig)
    (update_senders : HashMap IpAddr UpdateSender) (caps : List Capability) (events : List Event)
    (hrun : Machine.Guarded step FaithfulToKernel (new local_as local_bgp_id local_ipv6 cluster_id
      confederation_id peers update_senders caps) events) :
    ((new local_as local_bgp_id local_ipv6 cluster_id confederation_id peers update_senders
      caps).run events).KernelMirrors := by
  obtain ⟨h4, h6⟩ := empty_tables_new local_as local_bgp_id local_ipv6 cluster_id confederation_id
    peers update_senders caps
  have hstep : ∀ s e, FaithfulToKernel s e →
      (s.tables_v4.Reflected gateway_v4 ∧ s.tables_v6.Reflected gateway_v6) →
      (s.step e).tables_v4.Reflected gateway_v4 ∧ (s.step e).tables_v6.Reflected gateway_v6 :=
    fun s e hok hs => reflected_step hs hok
  have hend := Machine.inv_of_guarded hstep ⟨?_, ?_⟩ hrun
  · exact kernelMirrors_of_reflected hend.1 hend.2
  · refine ⟨LocRib.networks_new, fun p n raw h => ?_, fun h => ?_⟩
    · rw [h4.held] at h
      cases h
    · cases h
  · refine ⟨LocRib.networks_new, fun p n raw h => ?_, fun h => ?_⟩
    · rw [h6.held] at h
      cases h
    · cases h

end DaemonState

/-! ## A route of our own -/

/-- A peer announces a prefix, withdraws it and announces it again, and the session breaks. -/
def mirrored_events : List Event :=
  [.SetFibManager, session_up 2 .External [],
    update_from 2 0 (announcement [65002] [Nlri.v4 10 2 0 0 16]),
    update_from 2 1 ⟨[Nlri.v4 10 2 0 0 16], [], []⟩,
    update_from 2 2 (announcement [65002] [Nlri.v4 10 2 0 0 16]),
    .Session ⟨3, 0⟩ (peer_addr 2) (.Terminated .Unclean)]

theorem mirrored_events_mirrored :
    Machine.Guarded DaemonState.step DaemonState.FaithfulToKernel
        (small_daemon [open_peer 2 65002] none []) mirrored_events ∧
      ((small_daemon [open_peer 2 65002] none []).run mirrored_events).KernelMirrors := by
  have hrun : Machine.Guarded DaemonState.step DaemonState.FaithfulToKernel
      (small_daemon [open_peer 2 65002] none []) mirrored_events := by
    decide +kernel
  exact ⟨hrun, DaemonState.kernel_mirrors _ _ _ _ _ _ _ _ _ hrun⟩

/-- An IPv4 route of our own, via 192.0.2.1. -/
def own_route : Route Ipv4Addr :=
  { nlri := Nlri.v4 10 1 0 0 16, origin := .Igp, as_path := AsPath.from_sequence [],
    next_hop := some (.V4 (Ipv4Addr.new 192 0 2 1)), local_pref := none, med := none,
    peer_type := .Internal, received_at := 0, peer_bgp_id := Ipv4Addr.new 0 0 0 0, rare := none,
    stale := false }

/-- It is the best route of its prefix, and never gets into the kernel. -/
theorem own_route_not_mirrored :
    ((small_daemon [] none []).run
        [.SetFibManager, .OriginateRoutes ⟨0, 0⟩ [own_route]]).Reachable ∧
      ¬((small_daemon [] none []).run
        [.SetFibManager, .OriginateRoutes ⟨0, 0⟩ [own_route]]).KernelMirrors := by
  refine ⟨reachable_small_daemon .., fun h => ?_⟩
  have hentry := (h (by decide +kernel)).1 (Nlri.v4 10 1 0 0 16)
  revert hentry
  decide +kernel

end Pathvector

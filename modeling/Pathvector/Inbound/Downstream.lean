/-
# Downstream of an UPDATE

After an UPDATE the other peers and the kernel layer should have what the Loc-RIB says. First
the import rewrites the Loc-RIB; then the prefix limits are checked, and a message that goes
over a limit ends there, before anyone is told. The session is then stopped, and its loss is
handled as any other.
-/
import Pathvector.Teardown.Stop

set_option autoImplicit false

namespace Pathvector

namespace DaemonState

variable {peer_ip ip : IpAddr} {s : DaemonState} {msg : UpdateMessage} {clk : Clock}

/-! ## The message -/

section

variable {A : Type} [IpAddress A] [DecidableEq A]

/-- A kernel table that is the table of best routes stays it through a batch. When the changes
are reported, no route may be left behind, and a prefix with host bits, which no report names,
must keep its best route; when they are not, every prefix must. -/
def KernelKept (rib : LocRib A) (peer : PeerId) (oracle : NextHopOracle) (reported : Bool)
    (ops : List (RibOp A)) : Prop :=
  ∀ n, if reported ∧ n.Canonical then ¬rib.LeftInKernel peer oracle ops n
    else (rib.best_after peer oracle ops n).map Prod.snd = rib.best n

section

variable {peer : PeerId} {reported : Bool} {ops : List (RibOp A)}
  (hops : ∀ op ∈ ops, op.nlri.Canonical)
include hops

theorem kernelKept_iff {rib : LocRib A} {oracle : NextHopOracle}
    {before after : Nlri A → Option (Route A)} (hb : ∀ n, before n = rib.best n)
    (hf : Followed reported before after (rib.run_ops peer oracle ops)) :
    (∀ n, after n = (rib.run_ops peer oracle ops).1.best n) ↔
      KernelKept rib peer oracle reported ops := by
  refine forall_congr' fun n => ?_
  cases reported with
  | false =>
    have hsame : after = before := hf
    rw [if_neg fun h => Bool.false_ne_true h.1, hsame, hb, rib.best_run_ops peer oracle hops]
    exact eq_comm
  | true =>
    obtain ⟨fallback, hcanon, hafter⟩ := hf
    by_cases hn : n.Canonical
    · rw [if_pos ⟨rfl, hn⟩, hafter n]
      by_cases hfall : n ∈ fallback ∧ ((rib.run_ops peer oracle ops).1.best n).isSome
      · -- a prefix that falls back has a best route, so nothing is left behind
        rw [if_pos hfall]
        refine iff_of_true rfl fun hleft => ?_
        obtain ⟨pre, r, post, rfl, -, -, hnone, -⟩ := hleft
        rw [rib.best_run_ops peer oracle hops, LocRib.best_after,
          hnone post (List.prefix_refl _)] at hfall
        cases hfall.2
      · rw [if_neg hfall]
        exact rib.follow_run_ops_iff peer oracle hops hn (hb n)
    · rw [if_neg fun h => hn h.2, hafter n, if_neg fun h => hn (hcanon n h.1),
        rib.follow_run_ops_of_host_bits peer oracle hops hn, hb,
        rib.best_run_ops peer oracle hops]
      exact eq_comm

theorem inKernel_iff {t t' : Tables A} (ht : t.InKernel) (h : t.Batched t' peer ops reported) :
    t'.InKernel ↔ (t.calls.isSome → KernelKept t.loc_rib peer t.oracle reported ops) := by
  obtain ⟨hrib, more, hcalls, hmore⟩ := h
  unfold Tables.InKernel at ht ⊢
  rw [hcalls, hrib]
  cases hc : t.calls with
  | none => simp
  | some calls =>
    have hiff := kernelKept_iff hops (ht calls hc) (hmore _)
    simpa using hiff

end

end

/-- What a message has the daemon do is enough: nothing has to be told to a peer that it is
not told, and the kernel layer follows. -/
structure Sufficient (s : DaemonState) (peer_ip : IpAddr) (i : Intake) : Prop where
  v4 : ∀ q ∈ s.rib.peer_types, q ≠ peer_ip → ∀ n, ¬i.told_v4 q n →
    s.export_of_v4 q (s.rib.loc_rib.best_after peer_ip s.oracle_v4 i.v4 n) = s.export_v4 q n
  v6 : ∀ q ∈ s.rib.peer_types, q ≠ peer_ip → q ∈ s.ipv6_capable_peers → ∀ n, ¬i.told_v6 q n →
    s.export_of_v6 q (s.rib.loc_rib_v6.best_after peer_ip s.oracle_v6 i.v6 n) = s.export_v6 q n
  kernel : s.fib_manager.isSome →
    KernelKept s.rib.loc_rib peer_ip s.oracle_v4 i.reported i.v4 ∧
      KernelKept s.rib.loc_rib_v6 peer_ip s.oracle_v6 i.reported i.v6

/-- The loss of the peer after the message is handled well enough: IPv4 is decided again for
the prefixes in network form that have a best route, IPv6 is not, and neither the peers nor
the kernel layer miss anything. -/
structure LossSufficient (s : DaemonState) (peer_ip : IpAddr) (i : Intake) : Prop where
  v4 : ∀ q ∈ s.rib.peer_types, q ≠ peer_ip → ∀ n,
    ¬(s.Spoken_v4 q ∧ n.Canonical
      ∧ (s.rib.loc_rib.best_after peer_ip s.oracle_v4 i.v4 n).isSome) →
    s.export_of_v4 q (s.rib.loc_rib.best_after peer_ip s.oracle_v4 i.v4 n)
      = s.export_of_v4 q (s.rib.loc_rib.best_cut peer_ip s.oracle_v4 i.v4 n)
  v6 : ∀ q ∈ s.rib.peer_types, q ≠ peer_ip → q ∈ s.ipv6_capable_peers → ∀ n,
    s.export_of_v6 q (s.rib.loc_rib_v6.best_after peer_ip s.oracle_v6 i.v6 n)
      = s.export_of_v6 q (s.rib.loc_rib_v6.best_cut peer_ip s.oracle_v6 i.v6 n)
  kernel : s.fib_manager.isSome →
    (∀ n, ¬n.Canonical → (s.rib.loc_rib.best_after peer_ip s.oracle_v4 i.v4 n).map Prod.snd
        = (s.rib.loc_rib.best_cut peer_ip s.oracle_v4 i.v4 n).map Prod.snd) ∧
      ∀ n, ¬n.Canonical → (s.rib.loc_rib_v6.best_after peer_ip s.oracle_v6 i.v6 n).map Prod.snd
        = (s.rib.loc_rib_v6.best_cut peer_ip s.oracle_v6 i.v6 n).map Prod.snd

theorem sufficient_iff {w : DaemonState} {i : Intake} (hops4 : ∀ op ∈ i.v4, op.nlri.Canonical)
    (hops6 : ∀ op ∈ i.v6, op.nlri.Canonical) (hs : s.OthersInSync ip) (hf : s.FibInSync)
    (h : TakenIn s w ip i) (hb4 : s.tables_v4.Batched w.tables_v4 ip i.v4 i.reported)
    (hb6 : s.tables_v6.Batched w.tables_v6 ip i.v6 i.reported) :
    (w.OthersInSync ip ∧ w.FibInSync) ↔ s.Sufficient ip i := by
  obtain ⟨t, hrw, htold⟩ := h
  have hrib4 : t.rib.loc_rib = (s.rib.loc_rib.run_ops ip s.oracle_v4 i.v4).1 :=
    htold.rib ▸ hb4.1
  have hrib6 : t.rib.loc_rib_v6 = (s.rib.loc_rib_v6.run_ops ip s.oracle_v6 i.v6).1 :=
    htold.rib ▸ hb6.1
  have hest : w.rib.peer_types = s.rib.peer_types := by rw [htold.rib, hrw.established]
  have hcap : w.ipv6_capable_peers = s.ipv6_capable_peers := htold.capable.trans hrw.capable
  have hexp4 : ∀ q n, t.export_v4 q n
      = s.export_of_v4 q (s.rib.loc_rib.best_after ip s.oracle_v4 i.v4 n) := by
    intro q n
    rw [export_v4, hrw.export_v4, hrib4, LocRib.best_entry_run_ops _ _ _ hops4]
  have hexp6 : ∀ q n, t.export_v6 q n
      = s.export_of_v6 q (s.rib.loc_rib_v6.best_after ip s.oracle_v6 i.v6 n) := by
    intro q n
    rw [export_v6, hrw.export_v6, hrib6, LocRib.best_entry_run_ops _ _ _ hops6]
  have hexpw4 : ∀ q n, w.export_v4 q n = t.export_v4 q n := by
    intro q n
    rw [export_v4, htold.export_v4, htold.rib]
    rfl
  have hexpw6 : ∀ q n, w.export_v6 q n = t.export_v6 q n := by
    intro q n
    rw [export_v6, htold.export_v6, htold.rib]
    rfl
  -- a peer that is told has the export; one that is not has what it had
  have hv4 : ∀ q ∈ s.rib.peer_types, q ≠ ip →
      ((∀ n, w.adj_out_v4 q n = w.export_v4 q n) ↔ ∀ n, ¬i.told_v4 q n →
        s.export_of_v4 q (s.rib.loc_rib.best_after ip s.oracle_v4 i.v4 n)
          = s.export_v4 q n) := by
    intro q hq hne
    refine forall_congr' fun n => ?_
    by_cases ht : i.told_v4 q n
    · exact iff_of_true ((htold.told_v4 q hne n ht).trans (hexpw4 q n).symm) fun h => absurd ht h
    · rw [htold.untold_v4 q hne n ht, hrw.out_v4, (hs q hq hne).1 n, hexpw4, hexp4]
      exact ⟨fun h _ => h.symm, fun h => (h ht).symm⟩
  have hv6 : ∀ q ∈ s.rib.peer_types, q ≠ ip → q ∈ s.ipv6_capable_peers →
      ((∀ n, w.adj_out_v6 q n = w.export_v6 q n) ↔ ∀ n, ¬i.told_v6 q n →
        s.export_of_v6 q (s.rib.loc_rib_v6.best_after ip s.oracle_v6 i.v6 n)
          = s.export_v6 q n) := by
    intro q hq hne hc
    refine forall_congr' fun n => ?_
    by_cases ht : i.told_v6 q n
    · exact iff_of_true ((htold.told_v6 q hne n ht).trans (hexpw6 q n).symm) fun h => absurd ht h
    · rw [htold.untold_v6 q hne n ht, hrw.out_v6, (hs q hq hne).2 hc n, hexpw6, hexp6]
      exact ⟨fun h _ => h.symm, fun h => (h ht).symm⟩
  have hkernel : w.FibInSync ↔ (s.fib_manager.isSome →
      KernelKept s.rib.loc_rib ip s.oracle_v4 i.reported i.v4 ∧
        KernelKept s.rib.loc_rib_v6 ip s.oracle_v6 i.reported i.v6) := by
    rw [fibInSync_iff_tables] at hf ⊢
    rw [inKernel_iff hops4 hf.1 hb4, inKernel_iff hops6 hf.2 hb6, tables_v4, tables_v6,
      Option.isSome_map, Option.isSome_map, ← forall_and]
  rw [hkernel]
  unfold OthersInSync InSync
  rw [hest, hcap]
  constructor
  · rintro ⟨ho, hk⟩
    exact ⟨fun q hq hne => (hv4 q hq hne).1 (ho q hq hne).1,
      fun q hq hne hc => (hv6 q hq hne hc).1 ((ho q hq hne).2 hc), hk⟩
  · rintro ⟨h4, h6, hk⟩
    exact ⟨fun q hq hne => ⟨(hv4 q hq hne).2 (h4 q hq hne),
      fun hc => (hv6 q hq hne hc).2 (h6 q hq hne hc)⟩, hk⟩

/-- A message that goes over a limit leaves everything but the tables as it was. -/
theorem over_limit_frame (hrr : s.is_rr = false) (h : s.Overflows clk ip msg) :
    ∃ u idle, (s.on_route_update clk ip msg).1
      = { s.imported ip msg u with max_prefix_idle := idle } := by
  obtain ⟨⟨heor4, heor6, hc⟩, hover⟩ := h
  have hlim : (s.imported ip msg (s.update_of clk ip msg)).exceeds_limit ip
      (s.update_of clk ip msg) = true := (s.exceeds_limit_update_of clk ip msg).trans hover
  unfold on_route_update
  rw [heor4, heor6, if_neg Bool.false_ne_true, if_neg Bool.false_ne_true, rr_inbound_of_not_rr hrr]
  dsimp only
  unfold on_update_message
  rw [handled_of_configured hc]
  dsimp only
  rw [if_pos hlim]
  unfold idle_hold
  split
  · exact ⟨_, _, rfl⟩
  · exact ⟨_, _, rfl⟩

/-- The session is stopped after a message over a limit, and the message itself went by
unnoticed. -/
theorem lossSufficient_iff (clk' : Clock) (hrr : s.is_rr = false)
    (hd4 : s.selection_deferral.v4_deferred = false)
    (hd6 : s.selection_deferral.v6_deferred = false) (hheard : s.HeardInNetworkForm ip)
    (hops4 : ∀ op ∈ (s.taken clk ip msg).v4, op.nlri.Canonical)
    (hops6 : ∀ op ∈ (s.taken clk ip msg).v6, op.nlri.Canonical) (hover : s.Overflows clk ip msg)
    (hb4 : s.tables_v4.Batched (s.on_route_update clk ip msg).1.tables_v4 ip
      (s.taken clk ip msg).v4 (s.taken clk ip msg).reported)
    (hb6 : s.tables_v6.Batched (s.on_route_update clk ip msg).1.tables_v6 ip
      (s.taken clk ip msg).v6 (s.taken clk ip msg).reported)
    (hs : (s.on_route_update clk ip msg).1.OthersInSync ip)
    (hf : (s.on_route_update clk ip msg).1.FibInSync) :
    let v := (s.on_route_update clk ip msg).1.step
      (.Session clk' ip (.Terminated .OperatorStop))
    (v.OthersInSync ip ∧ v.FibInSync ↔ s.LossSufficient ip (s.taken clk ip msg)) ∧
      (∀ n, v.rib.loc_rib.candidate n ip = none) ∧
      ∀ n, v.rib.loc_rib_v6.candidate n ip = none := by
  generalize s.taken clk ip msg = i at *
  obtain ⟨u, idle, hw⟩ := over_limit_frame hrr hover
  generalize (s.on_route_update clk ip msg).1 = w at *
  have hor4 : w.oracle_v4 = s.oracle_v4 := by rw [hw]; rfl
  have hor6 : w.oracle_v6 = s.oracle_v6 := by rw [hw]; rfl
  have hdef : w.selection_deferral = s.selection_deferral := by rw [hw]; rfl
  have hspoken : ∀ q, w.Spoken_v4 q ↔ s.Spoken_v4 q := fun q => by rw [hw]; exact Iff.rfl
  have hest : w.rib.peer_types = s.rib.peer_types := by rw [hw]; rfl
  have hcap : w.ipv6_capable_peers = s.ipv6_capable_peers := by rw [hw]; rfl
  have hfib : w.fib_manager = s.fib_manager := by rw [hw]; rfl
  have hexp4 : w.export_of_v4 = s.export_of_v4 := by rw [hw]; rfl
  have hexp6 : w.export_of_v6 = s.export_of_v6 := by rw [hw]; rfl
  have hrib4 : w.rib.loc_rib = (s.rib.loc_rib.run_ops ip s.oracle_v4 i.v4).1 := hb4.1
  have hrib6 : w.rib.loc_rib_v6 = (s.rib.loc_rib_v6.run_ops ip s.oracle_v6 i.v6).1 := hb6.1
  have hc4 : ∀ n, (w.rib.loc_rib.candidate n ip).isSome → n.Canonical := by
    intro n hn
    rw [hrib4, LocRib.candidate_run_ops, LocRib.candidate_of_after, if_pos rfl] at hn
    exact LocRib.canonical_of_after _ _ hops4 hheard.candidate_v4 hn
  have hc6 : ∀ n, (w.rib.loc_rib_v6.candidate n ip).isSome → n.Canonical := by
    intro n hn
    rw [hrib6, LocRib.candidate_run_ops, LocRib.candidate_of_after, if_pos rfl] at hn
    exact LocRib.canonical_of_after _ _ hops6 hheard.candidate_v6 hn
  obtain ⟨hpeers, hkernel, hgone4, hgone6⟩ :=
    stop_downstream (t := w) clk' (by rw [hdef]; exact hd4)
    (by rw [hdef]; exact hd6) hc4 hc6 hs hf
  refine ⟨?_, hgone4, hgone6⟩
  -- the winners after the message, with and without the peer, in terms of the tables before it
  have hafter4 := fun n => s.rib.loc_rib.best_entry_run_ops ip s.oracle_v4 hops4 n
  have hafter6 := fun n => s.rib.loc_rib_v6.best_entry_run_ops ip s.oracle_v6 hops6 n
  have hcut4 := fun n =>
    s.rib.loc_rib.best_without_run_ops ip s.oracle_v4 hops4 hheard.candidate_v4 n
  have hcut6 := fun n =>
    s.rib.loc_rib_v6.best_without_run_ops ip s.oracle_v6 hops6 hheard.candidate_v6 n
  unfold CoveredByTermination Redecided_v4 LossHidden_v4 LossHidden_v6 at hpeers
  unfold HostBitsKept at hkernel
  simp only [hspoken, hest, hcap, hexp4, hexp6, hrib4, hrib6, hor4, hor6, hafter4, hafter6, hcut4,
    hcut6] at hpeers
  simp only [hfib, hrib4, hrib6, hor4, hor6, LocRib.best_eq_best_entry, hafter4, hafter6, hcut4,
    hcut6] at hkernel
  rw [hpeers, hkernel]
  constructor
  · rintro ⟨ho, hk⟩
    exact ⟨fun q hq hne => (ho q hq hne).1, fun q hq hne => (ho q hq hne).2, hk⟩
  · rintro ⟨h4, h6, hk⟩
    exact ⟨fun q hq hne => ⟨h4 q hq hne, h6 q hq hne⟩, hk⟩

theorem taken_canonical (clk : Clock) (hheard : s.HeardInNetworkForm ip)
    (hmsg4 : ∀ n ∈ msg.affected, n.Canonical) (hmsg6 : ∀ n ∈ msg.affected_v6, n.Canonical) :
    (∀ op ∈ (s.taken clk ip msg).v4, op.nlri.Canonical) ∧
      ∀ op ∈ (s.taken clk ip msg).v6, op.nlri.Canonical := by
  have hops4 : ∀ op ∈ s.message_ops_v4 clk ip msg, op.nlri.Canonical := by
    intro op hop
    obtain ⟨o, ho, hro⟩ := List.mem_filterMap.1 hop
    rw [ImportOp.nlri_rib_op hro]
    exact hmsg4 _ (intake_v4_affected ho)
  have hops6 : ∀ op ∈ s.message_ops_v6 clk ip msg, op.nlri.Canonical := by
    intro op hop
    obtain ⟨o, ho, hro⟩ := List.mem_filterMap.1 hop
    rw [ImportOp.nlri_rib_op hro]
    exact hmsg6 _ (intake_v6_affected ho)
  have hnil : ∀ {A : Type} [IpAddress A], ∀ op ∈ ([] : List (RibOp A)), op.nlri.Canonical :=
    fun op hop => absurd hop List.not_mem_nil
  unfold taken
  split
  · refine ⟨fun op hop => ?_, hnil⟩
    obtain ⟨n, hn, rfl⟩ := List.mem_map.1 hop
    exact hheard.stale_v4 n hn
  split
  · refine ⟨hnil, fun op hop => ?_⟩
    obtain ⟨n, hn, rfl⟩ := List.mem_map.1 hop
    exact hheard.stale_v6 n hn
  split
  · exact ⟨hnil, hnil⟩
  split
  · exact ⟨hops4, hops6⟩
  · exact ⟨hops4, hops6⟩

/-- The message as a batch, in each family. -/
theorem batched_taken (clk : Clock) (ip : IpAddr) (hrr : s.is_rr = false)
    (hmsg4 : ∀ n ∈ msg.affected, n.Canonical) (hmsg6 : ∀ n ∈ msg.affected_v6, n.Canonical) :
    s.tables_v4.Batched (s.on_route_update clk ip msg).1.tables_v4 ip
        (s.taken clk ip msg).v4 (s.taken clk ip msg).reported ∧
      s.tables_v6.Batched (s.on_route_update clk ip msg).1.tables_v6 ip
        (s.taken clk ip msg).v6 (s.taken clk ip msg).reported := by
  obtain ⟨h4, h6⟩ := s.moved_on_route_update clk ip msg
  rw [h4, h6, update_moves_v4, update_moves_v6, rr_inbound_of_not_rr hrr]
  dsimp only
  unfold taken message_moves_v4 message_moves_v6
  split
  · exact ⟨s.tables_v4.batched_eor ip, s.tables_v6.batched_nil ip⟩
  split
  · exact ⟨s.tables_v4.batched_nil ip, s.tables_v6.batched_eor ip⟩
  by_cases hc : s.Configured ip
  · rw [if_pos hc, if_pos hc, if_neg (not_not.2 hc)]
    cases s.overflows clk ip msg <;>
      exact ⟨s.tables_v4.batched_hear _ _ (fun op hop => hmsg4 _ (intake_v4_affected hop)) _ _,
        s.tables_v6.batched_hear _ _ (fun op hop => hmsg6 _ (intake_v6_affected hop)) _ _⟩
  · rw [if_neg hc, if_neg hc, if_pos hc]
    exact ⟨s.tables_v4.batched_nil ip, s.tables_v6.batched_nil ip⟩

/-- Everyone downstream of a message is in sync: the other peers and the kernel layer after
it, and again after the end of the session, when the message is answered with the CEASE for too
many prefixes. Then no route of the peer is left either. -/
structure KeepsDownstream (s : DaemonState) (clk clk' : Clock) (peer_ip : IpAddr)
    (msg : UpdateMessage) : Prop where
  others : (s.on_route_update clk peer_ip msg).1.OthersInSync peer_ip
  kernel : (s.on_route_update clk peer_ip msg).1.FibInSync
  stopped : (s.on_route_update clk peer_ip msg).2
      = some ⟨.Cease .MaximumNumberOfPrefixesReached, []⟩ →
    let v := (s.on_route_update clk peer_ip msg).1.step
      (.Session clk' peer_ip (.Terminated .OperatorStop))
    (v.OthersInSync peer_ip ∧ v.FibInSync) ∧ (∀ n, v.rib.loc_rib.candidate n peer_ip = none) ∧
      ∀ n, v.rib.loc_rib_v6.candidate n peer_ip = none

/-- **An UPDATE and everyone downstream, exactly.** -/
theorem keepsDownstream_iff (s : DaemonState) (clk clk' : Clock) (peer_ip : IpAddr)
    (msg : UpdateMessage) (hrr : s.is_rr = false) (hd4 : s.selection_deferral.v4_deferred = false)
    (hd6 : s.selection_deferral.v6_deferred = false) (hheard : s.HeardInNetworkForm peer_ip)
    (hmsg4 : ∀ n ∈ msg.affected, n.Canonical) (hmsg6 : ∀ n ∈ msg.affected_v6, n.Canonical)
    (hs : s.OthersInSync peer_ip) (hf : s.FibInSync) :
    s.KeepsDownstream clk clk' peer_ip msg ↔
      s.Sufficient peer_ip (s.taken clk peer_ip msg) ∧
        (s.Overflows clk peer_ip msg → s.LossSufficient peer_ip (s.taken clk peer_ip msg)) := by
  obtain ⟨hops4, hops6⟩ := taken_canonical clk hheard hmsg4 hmsg6
  obtain ⟨htaken, hcease⟩ := takenIn_on_route_update clk peer_ip msg hrr hd4 hd6
  obtain ⟨hb4, hb6⟩ := batched_taken clk peer_ip hrr hmsg4 hmsg6
  have hsuff := sufficient_iff hops4 hops6 hs hf htaken hb4 hb6
  constructor
  · intro h
    refine ⟨hsuff.1 ⟨h.others, h.kernel⟩, fun hover => ?_⟩
    exact (lossSufficient_iff clk' hrr hd4 hd6 hheard hops4 hops6 hover hb4 hb6 h.others
      h.kernel).1.1 (h.stopped (hcease.2 hover)).1
  · rintro ⟨h, hloss⟩
    obtain ⟨ho, hk⟩ := hsuff.2 h
    refine ⟨ho, hk, fun hc => ?_⟩
    have hover := hcease.1 hc
    obtain ⟨hiff, hgone⟩ := lossSufficient_iff clk' hrr hd4 hd6 hheard hops4 hops6 hover hb4 hb6 ho
      hk
    exact ⟨hiff.2 (hloss hover), hgone⟩

end DaemonState

/-- A kernel layer, and 10.0.0.2, which may announce one prefix, has announced 10.0.0.0/8 to
us and 10.0.0.3. -/
def one_prefix_daemon : DaemonState :=
  (small_daemon [{ open_peer 2 65002 with max_prefixes_v4 := some 1 }, open_peer 3 65003] none
    []).run
    [.SetFibManager, session_up 2 .External [], session_up 3 .External [],
      update_from 2 0 (announcement [65002] [Nlri.v4 10 0 0 0 8])]

/-- The prefix goes, and two others come. -/
def two_for_one : UpdateMessage :=
  { announcement [65002] [Nlri.v4 172 16 0 0 12, Nlri.v4 192 168 0 0 16] with
    withdrawn := [Nlri.v4 10 0 0 0 8] }

/-- A new path for the prefix reaches everyone. -/
theorem one_prefix_replaced :
    one_prefix_daemon.KeepsDownstream ⟨0, 0⟩ ⟨0, 0⟩ (peer_addr 2)
        (announcement [65002, 65009] [Nlri.v4 10 0 0 0 8]) ∧
      one_prefix_daemon.Sufficient (peer_addr 2) (one_prefix_daemon.taken ⟨0, 0⟩ (peer_addr 2)
        (announcement [65002, 65009] [Nlri.v4 10 0 0 0 8])) := by
  have hkeeps : one_prefix_daemon.KeepsDownstream ⟨0, 0⟩ ⟨0, 0⟩ (peer_addr 2)
      (announcement [65002, 65009] [Nlri.v4 10 0 0 0 8]) :=
    ⟨by decide +kernel, by decide +kernel, fun h => absurd h (by decide +kernel)⟩
  have hform : one_prefix_daemon.InNetworkForm :=
    DaemonState.inNetworkForm_run (DaemonState.inNetworkForm_new ..) (by decide +kernel)
  exact ⟨hkeeps, ((DaemonState.keepsDownstream_iff one_prefix_daemon ⟨0, 0⟩ ⟨0, 0⟩ (peer_addr 2)
    (announcement [65002, 65009] [Nlri.v4 10 0 0 0 8]) (by decide +kernel) (by decide +kernel)
    (by decide +kernel) (hform.heard _) (by decide +kernel) (by decide +kernel) (by decide +kernel)
    (by decide +kernel)).1 hkeeps).1⟩

/-- The message that goes over the limit takes 10.0.0.0/8 out of the Loc-RIB. Neither 10.0.0.3
nor the kernel layer is told, and the end of the session does not tell them either. -/
theorem two_for_one_unnoticed :
    one_prefix_daemon.Reachable ∧ one_prefix_daemon.is_rr = false ∧
      one_prefix_daemon.selection_deferral = .disabled ∧
      (∀ q ∈ one_prefix_daemon.rib.peer_types.keys, one_prefix_daemon.InSync q) ∧
      one_prefix_daemon.FibInSync ∧
      (one_prefix_daemon.on_route_update ⟨0, 0⟩ (peer_addr 2) two_for_one).2
        = some ⟨.Cease .MaximumNumberOfPrefixesReached, []⟩ ∧
      ¬(one_prefix_daemon.on_route_update ⟨0, 0⟩ (peer_addr 2) two_for_one).1.OthersInSync
        (peer_addr 2) ∧
      ¬(one_prefix_daemon.on_route_update ⟨0, 0⟩ (peer_addr 2) two_for_one).1.FibInSync ∧
      ¬((one_prefix_daemon.on_route_update ⟨0, 0⟩ (peer_addr 2) two_for_one).1.step
        (.Session ⟨0, 0⟩ (peer_addr 2) (.Terminated .OperatorStop))).OthersInSync (peer_addr 2) ∧
      ¬((one_prefix_daemon.on_route_update ⟨0, 0⟩ (peer_addr 2) two_for_one).1.step
        (.Session ⟨0, 0⟩ (peer_addr 2) (.Terminated .OperatorStop))).FibInSync :=
  ⟨reachable_small_daemon .., by decide +kernel, by decide +kernel, by decide +kernel,
    by decide +kernel, by decide +kernel, by decide +kernel, by decide +kernel,
    by decide +kernel, by decide +kernel⟩

end Pathvector

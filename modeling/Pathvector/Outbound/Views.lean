/-
# What each peer is told

The Adj-RIB-Out of a peer against the export of the Loc-RIB, for the daemon as a whole. The
loops of the daemon over its peers are read one peer at a time: `direct_v4` and
`propagate_step` write what belongs to their own peer, and a step for another peer does not
show.
-/
import Pathvector.Daemon.Frame
import Pathvector.Outbound.Export

set_option autoImplicit false

namespace Pathvector

namespace DaemonState

variable (s : DaemonState) (peer_ip ip : IpAddr) (nlris : List (Nlri Ipv4Addr)) (q : IpAddr)
  {r : IpAddr}

/-! ## Adj-RIB-Out and export -/

/-- What a peer's IPv4 Adj-RIB-Out holds for a prefix. -/
def adj_out_v4 (n : Nlri Ipv4Addr) : Option (Route Ipv4Addr) :=
  (s.adj_ribs_out.lookup q).bind (·.get n)

def adj_out_v6 (n : Nlri Ipv6Addr) : Option (Route Ipv6Addr) :=
  (s.adj_ribs_out_v6.lookup q).bind (·.get n)

/-- The session of a peer's IPv4 Adj-RIB-Out. -/
def session_v4 : Option OutSession :=
  (s.adj_ribs_out.lookup q).map AdjRibOut.session

def session_v6 : Option OutSession :=
  (s.adj_ribs_out_v6.lookup q).map AdjRibOut.session

/-- The outbound transformation for a peer. -/
def prepare_v4 (r : Route Ipv4Addr) : Route Ipv4Addr :=
  prepare_outbound r (s.peer_type q) s.rib.local_as s.public_as (s.local_next_hop q)
    (decide (q ∈ s.rib.next_hop_self_peers))

def prepare_v6 (r : Route Ipv6Addr) : Route Ipv6Addr :=
  prepare_outbound_v6 r (s.peer_type q) s.rib.local_as s.public_as s.rib.local_ipv6
    (decide (q ∈ s.rib.next_hop_self_peers))

/-- A peer is told about IPv6 routes at all. -/
def can_announce_v6 : Bool :=
  s.peer_type q ≠ .External || s.rib.local_ipv6.isSome

/-- What a winner is exported as to a peer; nothing to a peer without an export policy or
an Adj-RIB-Out. -/
def export_of_v4 (best : Option (PeerId × Route Ipv4Addr)) : Option (Route Ipv4Addr) :=
  match s.export_policies.lookup q, s.session_v4 q with
  | some export_policy, some session =>
    exported (s.prepare_v4 q) s.rpki_v4 export_policy (s.peer_type q) session best
  | _, _ => none

def export_of_v6 (best : Option (PeerId × Route Ipv6Addr)) : Option (Route Ipv6Addr) :=
  match s.export_policies_v6.lookup q, s.session_v6 q with
  | some export_policy, some session =>
    exported (s.prepare_v6 q) s.rpki_v6 export_policy (s.peer_type q) session
      (if s.can_announce_v6 q then best else none)
  | _, _ => none

/-- The export of the Loc-RIB to a peer. -/
def export_v4 (n : Nlri Ipv4Addr) : Option (Route Ipv4Addr) :=
  s.export_of_v4 q (s.rib.loc_rib.best_entry n)

def export_v6 (n : Nlri Ipv6Addr) : Option (Route Ipv6Addr) :=
  s.export_of_v6 q (s.rib.loc_rib_v6.best_entry n)

section

variable {s t : DaemonState} {q : IpAddr} (h : DirectFrame s t)
include h

theorem DirectFrame.export_of_v4 (hs : t.session_v4 q = s.session_v4 q) :
    t.export_of_v4 q = s.export_of_v4 q := by
  unfold DaemonState.export_of_v4
  rw [hs]
  obtain ⟨_, _, _, _, rfl⟩ := h
  rfl

theorem DirectFrame.export_of_v6 (hs : t.session_v6 q = s.session_v6 q) :
    t.export_of_v6 q = s.export_of_v6 q := by
  unfold DaemonState.export_of_v6
  rw [hs]
  obtain ⟨_, _, _, _, rfl⟩ := h
  rfl

end

/-! ## Deciding for one peer -/

section

variable (deferred : Bool)

/-- The loop of `propagate_prefix` calls for one peer. -/
theorem decide_all_propagate_v4 (export_policy : Policy Ipv4Addr) :
    SetsListed (s.propagate_v4 q export_policy (s.local_next_hop q) deferred) (fun _ => deferred)
      fun m session => exported (s.prepare_v4 q) s.rpki_v4 export_policy (s.peer_type q) session
        (s.rib.loc_rib.best_entry m) := by
  refine setsListed ?_ ?_
  · rintro n out rfl
    exact ⟨rfl, fun _ => rfl⟩
  · rintro n out rfl
    exact setsEntry_propagate_prefix ..

theorem decide_all_checked_v4 (export_policy : Policy Ipv4Addr) :
    SetsListed (s.checked_v4 q export_policy deferred)
      (fun m => deferred || s.rr_suppressed q (s.rib.loc_rib.best_peer m))
      fun m session => exported (s.prepare_v4 q) s.rpki_v4 export_policy (s.peer_type q) session
        (s.rib.loc_rib.best_entry m) := by
  refine setsListed_checked (fun m => s.rr_suppressed q (s.rib.loc_rib.best_peer m)) ?_ ?_
  · rintro rfl n out
    exact ⟨rfl, fun _ => rfl⟩
  · rintro rfl n out
    exact setsEntry_propagate_prefix ..

theorem decide_all_propagate_v6 (export_policy : Policy Ipv6Addr) :
    SetsListed (s.propagate_v6 q export_policy deferred) (fun _ => deferred)
      fun m session => exported (s.prepare_v6 q) s.rpki_v6 export_policy (s.peer_type q) session
        (if s.can_announce_v6 q then s.rib.loc_rib_v6.best_entry m else none) := by
  refine setsListed ?_ ?_
  · rintro n out rfl
    exact ⟨rfl, fun _ => rfl⟩
  · rintro n out rfl
    exact setsEntry_propagate_prefix_v6 ..

theorem decide_all_checked_v6 (export_policy : Policy Ipv6Addr) :
    SetsListed (s.checked_v6 q export_policy deferred)
      (fun m => deferred || s.rr_suppressed q (s.rib.loc_rib_v6.best_peer m))
      fun m session => exported (s.prepare_v6 q) s.rpki_v6 export_policy (s.peer_type q) session
        (if s.can_announce_v6 q then s.rib.loc_rib_v6.best_entry m else none) := by
  refine setsListed_checked (fun m => s.rr_suppressed q (s.rib.loc_rib_v6.best_peer m)) ?_ ?_
  · rintro rfl n out
    exact ⟨rfl, fun _ => rfl⟩
  · rintro rfl n out
    exact setsEntry_propagate_prefix_v6 ..

end

/-! ## The direct path, peer by peer -/

/-- What the direct path makes of a peer's Adj-RIB-Out and channel. -/
def direct_line_v4 (local_next_hop : Ipv4Addr) (q : IpAddr)
    (l : Option (AdjRibOut Ipv4Addr) × Option UpdateSender) :
    Option (AdjRibOut Ipv4Addr) × Option UpdateSender :=
  match s.export_policies.lookup q, l.1, l.2 with
  | some export_policy, some out, some tx =>
    let r := decide_all
      (s.propagate_v4 q export_policy local_next_hop s.selection_deferral.v4_deferred) nlris out
    (some r.1, some (flush_updates r.2 (s.max_len q) tx (s.peer_type q)
      (decide (q ∈ s.four_byte_peers))).2)
  | _, _, _ => l

def direct_line_v6 (nlris : List (Nlri Ipv6Addr)) (q : IpAddr)
    (l : Option (AdjRibOut Ipv6Addr) × Option UpdateSender) :
    Option (AdjRibOut Ipv6Addr) × Option UpdateSender :=
  if q ∈ s.ipv6_capable_peers then
    match s.export_policies_v6.lookup q, l.1, l.2 with
    | some export_policy, some out, some tx =>
      let r := decide_all
        (s.propagate_v6 q export_policy s.selection_deferral.v6_deferred) nlris out
      (some r.1, some (flush_updates_v6 r.2 (s.max_len q) tx (s.peer_type q)
        (decide (q ∈ s.four_byte_peers))).2)
    | _, _, _ => l
  else l

/-- A peer's IPv4 Adj-RIB-Out and channel. -/
def line_v4 : Option (AdjRibOut Ipv4Addr) × Option UpdateSender :=
  (s.adj_ribs_out.lookup q, s.update_senders.lookup q)

def line_v6 : Option (AdjRibOut Ipv6Addr) × Option UpdateSender :=
  (s.adj_ribs_out_v6.lookup q, s.update_senders.lookup q)

theorem line_direct_v4_self (next_hop : DaemonState → IpAddr → Ipv4Addr) (s : DaemonState)
    (q : IpAddr) :
    (direct_v4 nlris next_hop s q).line_v4 q
      = s.direct_line_v4 nlris (next_hop s q) q (s.line_v4 q) := by
  unfold direct_v4 direct_line_v4 line_v4
  rcases s.export_policies.lookup q with _ | policy
  · rfl
  · rcases hout : s.adj_ribs_out.lookup q with _ | out
    · simp only [hout]
    · rcases htx : s.update_senders.lookup q with _ | tx
      · simp only [hout, htx]
      · simp only [after_flush, AList.lookup_insert]

theorem line_direct_v4_of_ne (next_hop : DaemonState → IpAddr → Ipv4Addr) (s : DaemonState)
    {q : IpAddr} (hq : q ≠ r) : (direct_v4 nlris next_hop s r).line_v4 q = s.line_v4 q := by
  unfold direct_v4
  split
  · simp only [line_v4, after_flush, AList.lookup_insert_ne hq]
  · rfl

theorem line_direct_v6_self (nlris : List (Nlri Ipv6Addr)) (s : DaemonState) (q : IpAddr) :
    (direct_v6 nlris s q).line_v6 q = s.direct_line_v6 nlris q (s.line_v6 q) := by
  unfold direct_v6 direct_line_v6 line_v6
  by_cases hcap : q ∈ s.ipv6_capable_peers
  · simp only [if_pos hcap]
    rcases s.export_policies_v6.lookup q with _ | policy
    · rfl
    · rcases hout : s.adj_ribs_out_v6.lookup q with _ | out
      · simp only [hout]
      · rcases htx : s.update_senders.lookup q with _ | tx
        · simp only [hout, htx]
        · simp only [after_flush, AList.lookup_insert]
  · simp only [if_neg hcap]

theorem line_direct_v6_of_ne (nlris : List (Nlri Ipv6Addr)) (s : DaemonState) {q : IpAddr}
    (hq : q ≠ r) : (direct_v6 nlris s r).line_v6 q = s.line_v6 q := by
  unfold direct_v6
  split
  · split
    · simp only [line_v6, after_flush, AList.lookup_insert_ne hq]
    · rfl
  · rfl

theorem mem_other_peers : q ∈ s.other_peers ip ↔ q ∈ s.rib.peer_types ∧ q ≠ ip := by
  simp [other_peers, AList.mem_keys]

theorem nodup_other_peers : (s.other_peers ip).Nodup :=
  s.rib.peer_types.keys_nodup.filter _

/-- **The direct loop, read at one peer.** -/
theorem line_direct_others_v4 :
    (s.direct_others_v4 ip nlris).line_v4 q = if q ∈ s.rib.peer_types ∧ q ≠ ip
      then s.direct_line_v4 nlris (s.local_next_hop q) q (s.line_v4 q) else s.line_v4 q := by
  have h := List.foldl_pointwise line_v4 (direct_v4 nlris local_next_hop)
    (fun r => s.direct_line_v4 nlris (s.local_next_hop r) r) (DirectFrame s)
    (fun s' r hs => hs.trans (direct_v4_frame nlris local_next_hop s' r)) ?_ ?_
    (s.other_peers ip) (s.nodup_other_peers ip) s (.refl s) q
  · rw [direct_others_v4, h]
    simp only [mem_other_peers]
  · rintro s' r ⟨_, _, _, _, rfl⟩
    rw [line_direct_v4_self]
    rfl
  · intro s' r q' _ hne
    exact line_direct_v4_of_ne nlris local_next_hop s' hne

theorem line_direct_others_v6 (nlris : List (Nlri Ipv6Addr)) (q : IpAddr) :
    (s.direct_others_v6 ip nlris).line_v6 q = if q ∈ s.rib.peer_types ∧ q ≠ ip
      then s.direct_line_v6 nlris q (s.line_v6 q) else s.line_v6 q := by
  have h := List.foldl_pointwise line_v6 (direct_v6 nlris)
    (fun r => s.direct_line_v6 nlris r) (DirectFrame s)
    (fun s' r hs => hs.trans (direct_v6_frame nlris s' r)) ?_ ?_
    (s.other_peers ip) (s.nodup_other_peers ip) s (.refl s) q
  · rw [direct_others_v6, h]
    simp only [mem_other_peers]
  · rintro s' r ⟨_, _, _, _, rfl⟩
    rw [line_direct_v6_self]
    rfl
  · intro s' r q' _ hne
    exact line_direct_v6_of_ne nlris s' hne

/-- The direct path has all it needs to speak to a peer. -/
def Spoken_v4 : Prop :=
  q ∈ s.rib.peer_types ∧ q ∈ s.export_policies ∧ q ∈ s.update_senders
deriving Decidable

def Spoken_v6 : Prop :=
  q ∈ s.rib.peer_types ∧ q ∈ s.ipv6_capable_peers ∧ q ∈ s.export_policies_v6
    ∧ q ∈ s.update_senders
deriving Decidable

/-- **What the direct loop leaves**: the export for the prefixes it decided, and the old
entry for the rest. The sessions stay. -/
theorem direct_others_v4_spec :
    (s.direct_others_v4 ip nlris).session_v4 q = s.session_v4 q ∧
      ∀ n, (s.direct_others_v4 ip nlris).adj_out_v4 q n
        = if (s.Spoken_v4 q ∧ q ≠ ip) ∧ n ∈ nlris
            ∧ s.selection_deferral.v4_deferred = false
          then s.export_v4 q n else s.adj_out_v4 q n := by
  have hline := congrArg Prod.fst (s.line_direct_others_v4 ip nlris q)
  by_cases hq : q ∈ s.rib.peer_types ∧ q ≠ ip
  · rw [if_pos hq] at hline
    unfold session_v4 adj_out_v4 export_v4 export_of_v4 Spoken_v4
    rw [show (s.direct_others_v4 ip nlris).adj_ribs_out.lookup q = _ from hline]
    unfold direct_line_v4 line_v4 session_v4
    simp only [← AList.lookup_isSome]
    rcases s.export_policies.lookup q with _ | policy
    · simp
    · rcases s.adj_ribs_out.lookup q with _ | out
      · simp
      · rcases s.update_senders.lookup q with _ | tx
        · simp
        · obtain ⟨hsess, hget⟩ :=
            s.decide_all_propagate_v4 q s.selection_deferral.v4_deferred policy nlris out
          refine ⟨congrArg some hsess, fun n => ?_⟩
          have hpt : (s.rib.peer_types.lookup q).isSome = true := AList.lookup_isSome.2 hq.1
          simp only [Option.bind_some, hget, hpt, Option.isSome_some, Option.map_some, hq.2, ne_eq,
            not_false_eq_true, true_and]
  · rw [if_neg hq] at hline
    have hout : (s.direct_others_v4 ip nlris).adj_ribs_out.lookup q
        = s.adj_ribs_out.lookup q := hline
    refine ⟨congrArg (Option.map AdjRibOut.session) hout, fun n => ?_⟩
    rw [if_neg fun h => hq ⟨h.1.1.1, h.1.2⟩]
    exact congrArg (fun o => o.bind fun out => out.get n) hout

theorem direct_others_v6_spec (nlris : List (Nlri Ipv6Addr)) (q : IpAddr) :
    (s.direct_others_v6 ip nlris).session_v6 q = s.session_v6 q ∧
      ∀ n, (s.direct_others_v6 ip nlris).adj_out_v6 q n
        = if (s.Spoken_v6 q ∧ q ≠ ip) ∧ n ∈ nlris
            ∧ s.selection_deferral.v6_deferred = false
          then s.export_v6 q n else s.adj_out_v6 q n := by
  have hline := congrArg Prod.fst (s.line_direct_others_v6 ip nlris q)
  by_cases hq : (q ∈ s.rib.peer_types ∧ q ≠ ip) ∧ q ∈ s.ipv6_capable_peers
  · rw [if_pos hq.1] at hline
    unfold session_v6 adj_out_v6 export_v6 export_of_v6 Spoken_v6
    rw [show (s.direct_others_v6 ip nlris).adj_ribs_out_v6.lookup q = _ from hline]
    unfold direct_line_v6 line_v6 session_v6
    rw [if_pos hq.2]
    simp only [← AList.lookup_isSome]
    rcases s.export_policies_v6.lookup q with _ | policy
    · simp
    · rcases s.adj_ribs_out_v6.lookup q with _ | out
      · simp
      · rcases s.update_senders.lookup q with _ | tx
        · simp
        · obtain ⟨hsess, hget⟩ :=
            s.decide_all_propagate_v6 q s.selection_deferral.v6_deferred policy nlris out
          refine ⟨congrArg some hsess, fun n => ?_⟩
          have hpt : (s.rib.peer_types.lookup q).isSome = true := AList.lookup_isSome.2 hq.1.1
          have hcap : (s.ipv6_capable_peers.lookup q).isSome = true := AList.lookup_isSome.2 hq.2
          simp only [Option.bind_some, hget, hpt, hcap, Option.isSome_some, Option.map_some,
            hq.1.2, ne_eq, not_false_eq_true, true_and]
  · have hout : (s.direct_others_v6 ip nlris).adj_ribs_out_v6.lookup q
        = s.adj_ribs_out_v6.lookup q := by
      refine hline.trans ?_
      split
      · rename_i hq'
        unfold direct_line_v6
        rw [if_neg fun h => hq ⟨hq', h⟩]
        rfl
      · rfl
    refine ⟨congrArg (Option.map AdjRibOut.session) hout, fun n => ?_⟩
    rw [if_neg fun h => hq ⟨⟨h.1.1.1, h.1.2⟩, h.1.1.2.1⟩]
    exact congrArg (fun o => o.bind fun out => out.get n) hout

/-! ## In sync -/

/-- A peer's Adj-RIBs-Out are the export of the Loc-RIB: the IPv4 one, and the IPv6 one for
a peer that negotiated IPv6. -/
def InSync : Prop :=
  (∀ n, s.adj_out_v4 q n = s.export_v4 q n) ∧
    (q ∈ s.ipv6_capable_peers → ∀ n, s.adj_out_v6 q n = s.export_v6 q n)

/-- Every established peer other than one is in sync. -/
def OthersInSync : Prop :=
  ∀ q ∈ s.rib.peer_types, q ≠ peer_ip → s.InSync q

theorem export_of_v4_none : s.export_of_v4 q none = none := by
  unfold export_of_v4
  split <;> rfl

theorem export_of_v6_none : s.export_of_v6 q none = none := by
  unfold export_of_v6
  split
  · split <;> rfl
  · rfl

/-! Both sides are empty for a prefix that is neither in the Adj-RIB-Out nor a candidate, so
being in sync is a matter of finitely many prefixes. -/

section

variable {A : Type} [IpAddress A] [DecidableEq A]
variable {out : Option (AdjRibOut A)} {rib : LocRib A} {n : Nlri A}

/-- The prefixes an Adj-RIB-Out or a Loc-RIB knows. -/
def known (out : Option (AdjRibOut A)) (rib : LocRib A) : List (Nlri A) :=
  (out.elim [] (·.routes.keys)) ++ rib.candidates.keys.map Prod.fst

theorem adj_out_of_not_known (h : n ∉ known out rib) : out.bind (·.get n) = none := by
  cases out with
  | none => rfl
  | some out =>
    refine AList.lookup_eq_none.2 fun hmem => h ?_
    exact List.mem_append_left _ (AList.mem_keys.1 hmem)

theorem candidate_of_not_known (h : n ∉ known out rib) (p : PeerId) : rib.candidate n p = none := by
  refine AList.lookup_eq_none.2 fun hmem => h ?_
  exact List.mem_append_right _ (List.mem_map.2 ⟨(n, p), AList.mem_keys.1 hmem, rfl⟩)

theorem best_entry_of_not_known (h : n ∉ known out rib) : rib.best_entry n = none := by
  unfold LocRib.best_entry
  cases rib.best_peer n with
  | none => rfl
  | some p =>
    rw [Option.bind_some, candidate_of_not_known h p]
    rfl

theorem best_without_of_not_known (h : n ∉ known out rib) (peer : PeerId) (oracle : NextHopOracle) :
    rib.best_without peer oracle n = none := by
  unfold LocRib.best_without
  cases rib.winner_without peer oracle n with
  | none => rfl
  | some p =>
    rw [Option.bind_some, candidate_of_not_known h p]
    split <;> rfl

end

theorem inSync_iff_known :
    s.InSync q ↔
      (∀ n ∈ known (s.adj_ribs_out.lookup q) s.rib.loc_rib, s.adj_out_v4 q n = s.export_v4 q n) ∧
        (q ∈ s.ipv6_capable_peers →
          ∀ n ∈ known (s.adj_ribs_out_v6.lookup q) s.rib.loc_rib_v6,
            s.adj_out_v6 q n = s.export_v6 q n) := by
  refine and_congr ⟨fun h n _ => h n, fun h n => ?_⟩
    (imp_congr_right fun _ => ⟨fun h n _ => h n, fun h n => ?_⟩)
  · by_cases hn : n ∈ known (s.adj_ribs_out.lookup q) s.rib.loc_rib
    · exact h n hn
    · rw [export_v4, best_entry_of_not_known hn, export_of_v4_none]
      exact adj_out_of_not_known hn
  · by_cases hn : n ∈ known (s.adj_ribs_out_v6.lookup q) s.rib.loc_rib_v6
    · exact h n hn
    · rw [export_v6, best_entry_of_not_known hn, export_of_v6_none]
      exact adj_out_of_not_known hn

instance (s : DaemonState) (q : IpAddr) : Decidable (s.InSync q) :=
  decidable_of_iff' _ (s.inSync_iff_known q)

instance (s : DaemonState) (peer_ip : IpAddr) : Decidable (s.OthersInSync peer_ip) :=
  inferInstanceAs (Decidable (∀ q ∈ s.rib.peer_types.keys, q ≠ peer_ip → s.InSync q))

end DaemonState

end Pathvector

/-
# Entering helper mode

A session that goes down may come back (RFC 4724): `on_terminated` then keeps the peer's
routes and marks them stale. The purpose is that nothing else about them changes.

The daemon does not mark its Loc-RIB candidates. It marks the Adj-RIB-In and inserts what
it finds there, which is what the peer sent before import policy. So the tables below are
read one candidate at a time: `candidate_insert_adj_rib_in` says what the insertion leaves,
and `enter_helper_mode_iff` for which states before that is the old candidate with a stale mark.
-/
import Pathvector.Daemon.Frame

set_option autoImplicit false

namespace Pathvector

/-! ## The stale mark -/

section

variable {A : Type} [IpAddress A]

/-- The route with its stale mark set. -/
def Route.as_stale (r : Route A) : Route A := { r with stale := true }

theorem Route.as_stale_eq_self {r : Route A} : r.as_stale = r ↔ r.stale = true := by
  constructor
  · intro h
    rw [← h]
    rfl
  · intro h
    cases r
    cases h
    rfl

variable [DecidableEq A]

namespace LocRib

/-- A loop of insertions for one peer, of routes that a table `f` files under their own
prefixes: each listed prefix gets the peer's entry in `f`. -/
theorem candidate_insert_fold (peer : PeerId) (oracle : NextHopOracle)
    (f : Nlri A → Option (Route A)) (l : List (Route A)) (hl : ∀ r ∈ l, f r.nlri = some r)
    (acc : LocRib A × List (BestPathChange A)) (m : Nlri A) (q : PeerId) :
    (l.foldl (insert_step peer oracle) acc).1.candidate m q
      = if q = peer ∧ m ∈ l.map Route.nlri then f m else acc.1.candidate m q := by
  induction l generalizing acc with
  | nil => simp
  | cons r l ih =>
    rw [List.foldl_cons, ih (fun r' hr' => hl r' (List.mem_cons_of_mem _ hr'))]
    have hstep : (insert_step peer oracle acc r).1.candidate m q
        = if m = r.nlri ∧ q = peer then some r else acc.1.candidate m q :=
      candidate_insert ..
    have hr := hl r (List.mem_cons_self ..)
    rw [hstep]
    by_cases hq : q = peer
    · by_cases hm : m = r.nlri
      · simp [hq, hm, hr]
      · simp [hq, hm]
    · simp [hq]

/-- Inserting a whole Adj-RIB-In: its routes become the peer's candidates, and where it has
none the candidate stays. -/
theorem candidate_insert_adj_rib_in (ari : AdjRibIn A) (rib : LocRib A) (peer : PeerId)
    (oracle : NextHopOracle) (m : Nlri A) (q : PeerId) :
    (ari.routes.values.foldl (insert_step peer oracle) (rib, [])).1.candidate m q
      = if q = peer then (ari.get m).or (rib.candidate m q) else rib.candidate m q := by
  have hfiled : ∀ r ∈ ari.routes.values, ari.get r.nlri = some r := by
    intro r hr
    obtain ⟨n, hn⟩ := HashMap.mem_values_iff.1 hr
    rw [ari.nlri_eq n r hn]
    exact hn
  rw [candidate_insert_fold peer oracle ari.get _ hfiled]
  by_cases hq : q = peer
  · by_cases hm : m ∈ ari.routes.values.map Route.nlri
    · rw [if_pos ⟨hq, hm⟩, if_pos hq]
      obtain ⟨r, hr, rfl⟩ := List.mem_map.1 hm
      rw [hfiled r hr]
      rfl
    · rw [if_neg (fun h => hm h.2), if_pos hq]
      have hnone : ari.get m = none := by
        cases hget : ari.get m with
        | none => rfl
        | some r =>
          refine absurd (List.mem_map.2 ⟨r, HashMap.mem_values_iff.2 ⟨m, hget⟩, ?_⟩) hm
          exact ari.nlri_eq m r hget
      rw [hnone]
      rfl
  · simp [hq]

end LocRib

section

variable (ari : Option (AdjRibIn A)) (rib : LocRib A) (peer : PeerId) (oracle : NextHopOracle)
  (n : Nlri A) (q : PeerId)

/-- What a peer announced for a prefix; nothing when it has no Adj-RIB-In. -/
def announced_in : Option (Route A) :=
  ari.bind (·.get n)

/-- What marking a family stale makes of a candidate: the announced route, marked, for the
peer itself where it announced one. -/
def restaled : Option (Route A) :=
  if q = peer then ((announced_in ari n).map Route.as_stale).or (rib.candidate n q)
  else rib.candidate n q

/-- The insertion loop of `mark_stale_and_repropagate`, over the Adj-RIB-In after
`mark_all_stale`. -/
theorem candidate_insert_stale :
    ((stale_routes (ari.map AdjRibIn.mark_all_stale)).foldl
        (LocRib.insert_step peer oracle) (rib, [])).1.candidate n q
      = restaled ari rib peer n q := by
  cases ari with
  | none =>
    show rib.candidate n q = restaled none rib peer n q
    unfold restaled
    split <;> rfl
  | some ari =>
    have h := LocRib.candidate_insert_adj_rib_in ari.mark_all_stale rib peer oracle n q
    rw [AdjRibIn.get_mark_all_stale] at h
    exact h

end

end

/-! ## The two families -/

namespace DaemonState

section

variable (s : DaemonState) (clk : Clock) (ip : IpAddr)

/-- Marking IPv4 stale rewrites the IPv4 Loc-RIB, candidate by candidate, and stays away
from IPv6. -/
theorem candidate_mark_stale_v4 :
    (∀ n q, (s.mark_stale_v4 ip).rib.loc_rib.candidate n q
      = restaled (s.adj_ribs_in.lookup ip) s.rib.loc_rib ip n q) ∧
    (s.mark_stale_v4 ip).rib.loc_rib_v6 = s.rib.loc_rib_v6 ∧
    (s.mark_stale_v4 ip).adj_ribs_in_v6 = s.adj_ribs_in_v6 := by
  have hins := candidate_insert_stale (s.adj_ribs_in.lookup ip) s.rib.loc_rib ip s.oracle_v4
  unfold mark_stale_v4
  dsimp only
  rw [HashMap.lookup_modify, if_pos rfl]
  generalize stale_routes ((s.adj_ribs_in.lookup ip).map AdjRibIn.mark_all_stale) = stale
    at hins ⊢
  split
  · rename_i hnil
    rw [List.isEmpty_iff] at hnil
    subst hnil
    exact ⟨hins, rfl, rfl⟩
  · obtain ⟨_, _, _, _, hd⟩ := direct_others_v4_frame _ ip _
    rw [hd]
    exact ⟨hins, rfl, rfl⟩

theorem candidate_mark_stale_v6 :
    (∀ n q, (s.mark_stale_v6 ip).rib.loc_rib_v6.candidate n q
      = restaled (s.adj_ribs_in_v6.lookup ip) s.rib.loc_rib_v6 ip n q) ∧
    (s.mark_stale_v6 ip).rib.loc_rib = s.rib.loc_rib := by
  have hins := candidate_insert_stale (s.adj_ribs_in_v6.lookup ip) s.rib.loc_rib_v6 ip s.oracle_v6
  unfold mark_stale_v6
  dsimp only
  rw [HashMap.lookup_modify, if_pos rfl]
  generalize stale_routes ((s.adj_ribs_in_v6.lookup ip).map AdjRibIn.mark_all_stale) = stale
    at hins ⊢
  split
  · rename_i hnil
    rw [List.isEmpty_iff] at hnil
    subst hnil
    exact ⟨hins, rfl⟩
  · obtain ⟨_, _, _, _, hd⟩ := direct_others_v6_frame _ ip _
    rw [hd]
    exact ⟨hins, rfl⟩

/-- `mark_stale_and_repropagate`, candidate by candidate. -/
theorem candidate_mark_stale (do_v4 do_v6 : Bool) :
    (∀ n q, (s.mark_stale_and_repropagate ip do_v4 do_v6).rib.loc_rib.candidate n q
      = if do_v4 then restaled (s.adj_ribs_in.lookup ip) s.rib.loc_rib ip n q
        else s.rib.loc_rib.candidate n q) ∧
    (∀ n q, (s.mark_stale_and_repropagate ip do_v4 do_v6).rib.loc_rib_v6.candidate n q
      = if do_v6 then restaled (s.adj_ribs_in_v6.lookup ip) s.rib.loc_rib_v6 ip n q
        else s.rib.loc_rib_v6.candidate n q) := by
  unfold mark_stale_and_repropagate
  obtain ⟨h4, h6, hin⟩ := s.candidate_mark_stale_v4 ip
  cases do_v4 <;> cases do_v6
  · exact ⟨fun _ _ => rfl, fun _ _ => rfl⟩
  · obtain ⟨h6', h4'⟩ := s.candidate_mark_stale_v6 ip
    exact ⟨fun n q => congrArg (LocRib.candidate · n q) h4', h6'⟩
  · exact ⟨h4, fun n q => congrArg (LocRib.candidate · n q) h6⟩
  · -- IPv4 goes first and leaves what IPv6 reads alone
    obtain ⟨h6', h4'⟩ := (s.mark_stale_v4 ip).candidate_mark_stale_v6 ip
    rw [h6, hin] at h6'
    exact ⟨fun n q => (congrArg (LocRib.candidate · n q) h4').trans (h4 n q), h6'⟩

/-- The families of a peer's Graceful Restart capability. -/
def gr_covers (peer_ip : IpAddr) (family : AfiSafi) : Bool :=
  covers (s.gr.peer_families.lookup peer_ip) family

/-- The candidates after a termination into helper mode. A family that the capability does
not list keeps its candidates as they are. -/
theorem candidate_on_terminated_gr (reason : TerminationReason)
    (hgr : s.enter_gr ip reason = true) :
    (∀ n q, (s.on_terminated clk ip reason).rib.loc_rib.candidate n q
      = if s.gr_covers ip .IPV4_UNICAST
        then restaled (s.adj_ribs_in.lookup ip) s.rib.loc_rib ip n q
        else s.rib.loc_rib.candidate n q) ∧
    (∀ n q, (s.on_terminated clk ip reason).rib.loc_rib_v6.candidate n q
      = if s.gr_covers ip .IPV6_UNICAST
        then restaled (s.adj_ribs_in_v6.lookup ip) s.rib.loc_rib_v6 ip n q
        else s.rib.loc_rib_v6.candidate n q) := by
  rw [on_terminated, if_pos hgr, terminate_gr]
  dsimp only
  have hfam : covers ((s.close_session ip).gr.peer_families.lookup ip) = s.gr_covers ip := rfl
  rw [hfam]
  -- clearing a family that is not listed does not show: its Adj-RIB-In is not read again
  cases s.gr_covers ip .IPV4_UNICAST <;> cases s.gr_covers ip .IPV6_UNICAST <;>
    exact candidate_mark_stale _ ip _ _

end

end DaemonState

/-! ## Nothing but the stale mark -/

section

variable {A : Type} [IpAddress A] [DecidableEq A]

section

variable (covered : Bool) (ari : Option (AdjRibIn A)) (rib : LocRib A) (peer : PeerId)

/-- What helper mode should make of a candidate of the peer itself. -/
def kept_stale (c : Option (Route A)) : Option (Route A) :=
  if covered then c.map Route.as_stale else none

/-- **The tables agree for a family.** Every announced route is the peer's candidate, up to
the stale mark, and what is a candidate without being announced is stale already. A family
that is not covered has no candidates. -/
def AnnouncedAsImported : Prop :=
  if covered then
    ∀ n, (∀ r, announced_in ari n = some r →
        (rib.candidate n peer).map Route.as_stale = some r.as_stale) ∧
      (announced_in ari n = none → ∀ r, rib.candidate n peer = some r → r.stale = true)
  else ∀ n, rib.candidate n peer = none

theorem restaled_eq_kept_iff (n : Nlri A) :
    restaled ari rib peer n peer = kept_stale true (rib.candidate n peer) ↔
      (∀ r, announced_in ari n = some r →
        (rib.candidate n peer).map Route.as_stale = some r.as_stale) ∧
      (announced_in ari n = none → ∀ r, rib.candidate n peer = some r → r.stale = true) := by
  rw [restaled, if_pos rfl, kept_stale, if_pos rfl]
  rcases announced_in ari n with _ | r
  · rcases rib.candidate n peer with _ | c
    · simp
    · simp only [Option.map_none, Option.none_or, Option.map_some, Option.some.injEq, reduceCtorEq,
        false_implies, implies_true, true_and, forall_const, forall_eq']
      rw [eq_comm]
      exact Route.as_stale_eq_self
  · simp only [Option.map_some, Option.some_or, Option.some.injEq, forall_eq', reduceCtorEq,
      false_implies, and_true]
    exact eq_comm

theorem kept_stale_iff :
    (∀ n q, (if covered then restaled ari rib peer n q else rib.candidate n q)
      = if q = peer then kept_stale covered (rib.candidate n peer) else rib.candidate n q) ↔
      AnnouncedAsImported covered ari rib peer := by
  have hother : ∀ n q, q ≠ peer →
      (if covered then restaled ari rib peer n q else rib.candidate n q) = rib.candidate n q := by
    intro n q hq
    simp [restaled, hq]
  have hself : (∀ n q, (if covered then restaled ari rib peer n q else rib.candidate n q)
      = if q = peer then kept_stale covered (rib.candidate n peer) else rib.candidate n q) ↔
      ∀ n, (if covered then restaled ari rib peer n peer else rib.candidate n peer)
        = kept_stale covered (rib.candidate n peer) := by
    constructor
    · intro h n
      rw [h n peer, if_pos rfl]
    · intro h n q
      by_cases hq : q = peer
      · subst hq
        rw [h n, if_pos rfl]
      · rw [hother n q hq, if_neg hq]
  rw [hself, AnnouncedAsImported]
  cases covered with
  | true => exact forall_congr' fun n => restaled_eq_kept_iff ari rib peer n
  | false => exact Iff.rfl

end

end

namespace DaemonState

/-- After entering helper mode the candidates are those from before: the peer's own marked
stale, in the families of its capability, and everyone else's as they were. -/
def OnlyStaler (s s' : DaemonState) (peer_ip : IpAddr) : Prop :=
  (∀ n q, s'.rib.loc_rib.candidate n q = if q = peer_ip
    then kept_stale (s.gr_covers peer_ip .IPV4_UNICAST) (s.rib.loc_rib.candidate n peer_ip)
    else s.rib.loc_rib.candidate n q) ∧
  (∀ n q, s'.rib.loc_rib_v6.candidate n q = if q = peer_ip
    then kept_stale (s.gr_covers peer_ip .IPV6_UNICAST) (s.rib.loc_rib_v6.candidate n peer_ip)
    else s.rib.loc_rib_v6.candidate n q)

/-- **Entering helper mode, exactly.** It changes staleness and nothing else if and only if
Adj-RIB-In and Loc-RIB agreed about the peer before. -/
theorem enter_helper_mode_iff (s : DaemonState) (clk : Clock) (peer_ip : IpAddr)
    (reason : TerminationReason) (hgr : s.enter_gr peer_ip reason = true) :
    s.OnlyStaler (s.on_terminated clk peer_ip reason) peer_ip ↔
      AnnouncedAsImported (s.gr_covers peer_ip .IPV4_UNICAST) (s.adj_ribs_in.lookup peer_ip)
          s.rib.loc_rib peer_ip ∧
        AnnouncedAsImported (s.gr_covers peer_ip .IPV6_UNICAST)
          (s.adj_ribs_in_v6.lookup peer_ip) s.rib.loc_rib_v6 peer_ip := by
  obtain ⟨h4, h6⟩ := s.candidate_on_terminated_gr clk peer_ip reason hgr
  simp only [OnlyStaler, h4, h6]
  exact and_congr (kept_stale_iff ..) (kept_stale_iff ..)

end DaemonState

/-- 10.0.0.2 can restart gracefully, for IPv4, and has announced 10.0.0.0/8. Its import
policy is the given default. -/
def before_restart (import_default : DefaultAction) : DaemonState :=
  (small_daemon [{ open_peer 2 65002 with import_default := some import_default }] none []).run
    [session_up 2 .External [.GracefulRestart 0 120 [⟨.IPV4_UNICAST, true⟩]],
      update_from 2 0 (announcement [65002] [Nlri.v4 10 0 0 0 8])]

/-- An accepted route keeps everything but its mark. -/
theorem helper_mode_keeps_accepted :
    (before_restart .Accept).OnlyStaler
      ((before_restart .Accept).on_terminated ⟨0, 0⟩ (peer_addr 2) .Unclean) (peer_addr 2) := by
  refine (DaemonState.enter_helper_mode_iff (before_restart .Accept) ⟨0, 0⟩ (peer_addr 2)
    .Unclean (by decide +kernel)).2 ⟨?_, ?_⟩
  · have hcov : (before_restart .Accept).gr_covers (peer_addr 2) .IPV4_UNICAST = true := by
      decide +kernel
    rw [hcov, AnnouncedAsImported, if_pos rfl]
    intro n
    -- 10.0.0.0/8 is the only key of either table
    have hin : ((before_restart .Accept).adj_ribs_in.lookup (peer_addr 2)).map (·.routes.keys)
        = some [Nlri.v4 10 0 0 0 8] := by decide +kernel
    have hcand : (before_restart .Accept).rib.loc_rib.candidates.keys
        = [(Nlri.v4 10 0 0 0 8, peer_addr 2)] := by decide +kernel
    by_cases hn : n = Nlri.v4 10 0 0 0 8
    · subst hn
      have hsame : ((before_restart .Accept).rib.loc_rib.candidate (Nlri.v4 10 0 0 0 8)
            (peer_addr 2)).map Route.as_stale
          = (announced_in ((before_restart .Accept).adj_ribs_in.lookup (peer_addr 2))
            (Nlri.v4 10 0 0 0 8)).map Route.as_stale := by decide +kernel
      have hsome : announced_in ((before_restart .Accept).adj_ribs_in.lookup (peer_addr 2))
          (Nlri.v4 10 0 0 0 8) ≠ none := by decide +kernel
      refine ⟨fun r hr => ?_, fun h => absurd h hsome⟩
      rw [hsame, hr]
      rfl
    · have hnone : announced_in ((before_restart .Accept).adj_ribs_in.lookup (peer_addr 2)) n
          = none := by
        obtain ⟨ari, hari, hkeys⟩ := Option.map_eq_some_iff.1 hin
        rw [hari]
        refine AList.lookup_eq_none.2 fun hmem => hn ?_
        rw [AList.mem_keys, hkeys] at hmem
        exact List.mem_singleton.1 hmem
      refine ⟨fun r hr => ?_, fun _ r hr => ?_⟩
      · rw [hnone] at hr
        cases hr
      · have hmem := HashMap.mem_of_lookup hr
        rw [AList.mem_keys, hcand, List.mem_singleton, Prod.mk.injEq] at hmem
        exact absurd hmem.1 hn
  · have hcov : (before_restart .Accept).gr_covers (peer_addr 2) .IPV6_UNICAST = false := by
      decide +kernel
    have hcand : (before_restart .Accept).rib.loc_rib_v6.candidates.keys = [] := by
      decide +kernel
    rw [hcov, AnnouncedAsImported, if_neg Bool.false_ne_true]
    intro n
    refine AList.lookup_eq_none.2 fun hmem => ?_
    rw [AList.mem_keys, hcand] at hmem
    cases hmem

/-- A route the import policy had rejected becomes a candidate. -/
theorem helper_mode_admits_rejected :
    (before_restart .Reject).Reachable ∧
      (before_restart .Reject).enter_gr (peer_addr 2) .Unclean = true ∧
      ¬(before_restart .Reject).OnlyStaler
        ((before_restart .Reject).on_terminated ⟨0, 0⟩ (peer_addr 2) .Unclean) (peer_addr 2) := by
  refine ⟨reachable_small_daemon .., by decide +kernel, fun h => ?_⟩
  have hbefore : (before_restart .Reject).rib.loc_rib.candidate (Nlri.v4 10 0 0 0 8)
      (peer_addr 2) = none := by decide +kernel
  have hafter : ((before_restart .Reject).on_terminated ⟨0, 0⟩ (peer_addr 2)
      .Unclean).rib.loc_rib.candidate (Nlri.v4 10 0 0 0 8) (peer_addr 2) ≠ none := by
    decide +kernel
  apply hafter
  rw [h.1, if_pos rfl, hbefore]
  unfold kept_stale
  split <;> rfl

end Pathvector

/-
# What a message comes to

`on_route_update` has five outcomes: the two End-of-RIB markers, a peer that is not
configured, a message over a prefix limit, and a message that is taken in and passed on. Each
is read here as a batch of changes to the two Loc-RIBs (`Intake`), with what the other peers
and the kernel layer are told about it. The daemon reflects no routes and defers none.
-/
import Pathvector.Inbound.Intake
import Pathvector.Outbound.Propagation
import Pathvector.Teardown.Removal

set_option autoImplicit false

namespace Pathvector

/-- What one message comes to: the changes to the Loc-RIBs, the prefixes decided for which
peer, and whether the kernel layer hears about the changes. -/
structure Intake where
  v4 : List (RibOp Ipv4Addr)
  v6 : List (RibOp Ipv6Addr)
  told_v4 : IpAddr → Nlri Ipv4Addr → Prop
  told_v6 : IpAddr → Nlri Ipv6Addr → Prop
  reported : Bool

namespace DaemonState

variable (s t : DaemonState) (peer_ip ip : IpAddr) {msg : UpdateMessage}
  {u : PendingUpdate} {clk : Clock}

/-- The message is an UPDATE from a configured peer, and no End-of-RIB marker. -/
def Ordinary (msg : UpdateMessage) : Prop :=
  msg.is_eor_v4 = false ∧ msg.is_eor_v6 = false ∧ s.Configured peer_ip
deriving Decidable

/-- With the message in its Adj-RIBs-In, the peer is over one of its limits. -/
def overflows (clk : Clock) (peer_ip : IpAddr) (msg : UpdateMessage) : Bool :=
  let env := s.env_of clk peer_ip
  ((s.peer_max_prefixes_v4.lookup peer_ip).any fun lim => lim <
      ((intake_v4 env msg).foldl AdjRibIn.hear
        ((s.adj_ribs_in.lookup peer_ip).getD (AdjRibIn.new peer_ip))).len)
    || (s.peer_max_prefixes_v6.lookup peer_ip).any fun lim => lim <
      ((intake_v6 env msg).foldl AdjRibIn.hear
        ((s.adj_ribs_in_v6.lookup peer_ip).getD (AdjRibIn.new peer_ip))).len

/-- The message goes over a prefix limit. -/
def Overflows (clk : Clock) (peer_ip : IpAddr) (msg : UpdateMessage) : Prop :=
  s.Ordinary peer_ip msg ∧ s.overflows clk peer_ip msg = true
deriving Decidable

/-- The changes an ordinary message makes to the IPv4 Loc-RIB. -/
def message_ops_v4 (clk : Clock) (peer_ip : IpAddr) (msg : UpdateMessage) : List (RibOp Ipv4Addr) :=
  let env := s.env_of clk peer_ip
  (intake_v4 env msg).filterMap (ImportOp.rib_op env.policy env.rpki_v4)

def message_ops_v6 (clk : Clock) (peer_ip : IpAddr) (msg : UpdateMessage) : List (RibOp Ipv6Addr) :=
  let env := s.env_of clk peer_ip
  (intake_v6 env msg).filterMap (ImportOp.rib_op env.policy_v6 env.rpki_v6)

/-- What a message comes to in a daemon that reflects no routes and defers none. -/
def taken (clk : Clock) (peer_ip : IpAddr) (msg : UpdateMessage) : Intake :=
  if msg.is_eor_v4 then
    ⟨(s.stale_prefixes peer_ip).map .Drop, [],
      fun q n => n ∈ s.stale_prefixes peer_ip ∧ s.Spoken_v4 q,
      fun _ _ => False, true⟩
  else if msg.is_eor_v6 then
    ⟨[], (s.stale_prefixes_v6 peer_ip).map .Drop, fun _ _ => False,
      fun q n => n ∈ s.stale_prefixes_v6 peer_ip ∧ s.Spoken_v6 q, true⟩
  else if ¬s.Configured peer_ip then ⟨[], [], fun _ _ => False, fun _ _ => False, true⟩
  else if s.overflows clk peer_ip msg then
    ⟨s.message_ops_v4 clk peer_ip msg, s.message_ops_v6 clk peer_ip msg, fun _ _ => False,
      fun _ _ => False, false⟩
  else
    ⟨s.message_ops_v4 clk peer_ip msg, s.message_ops_v6 clk peer_ip msg,
      fun q n => n ∈ msg.affected ∧ q ∈ s.rib.peer_types ∧ q ∈ s.export_policies,
      fun q n => n ∈ msg.affected_v6 ∧ q ∈ s.rib.peer_types ∧ q ∈ s.ipv6_capable_peers
        ∧ q ∈ s.export_policies_v6, true⟩

/-- The first half of a message, which writes the tables, shows nothing to the peers. -/
structure Rewritten (s t : DaemonState) : Prop where
  established : t.rib.peer_types = s.rib.peer_types
  capable : t.ipv6_capable_peers = s.ipv6_capable_peers
  export_v4 : t.export_of_v4 = s.export_of_v4
  export_v6 : t.export_of_v6 = s.export_of_v6
  out_v4 : t.adj_out_v4 = s.adj_out_v4
  out_v6 : t.adj_out_v6 = s.adj_out_v6

/-- The second half: the other peers. -/
structure Told (t w : DaemonState) (peer_ip : IpAddr) (i : Intake) : Prop where
  rib : w.rib = t.rib
  capable : w.ipv6_capable_peers = t.ipv6_capable_peers
  export_v4 : ∀ q, w.export_of_v4 q = t.export_of_v4 q
  export_v6 : ∀ q, w.export_of_v6 q = t.export_of_v6 q
  told_v4 : ∀ q ≠ peer_ip, ∀ n, i.told_v4 q n → w.adj_out_v4 q n = t.export_v4 q n
  untold_v4 : ∀ q ≠ peer_ip, ∀ n, ¬i.told_v4 q n → w.adj_out_v4 q n = t.adj_out_v4 q n
  told_v6 : ∀ q ≠ peer_ip, ∀ n, i.told_v6 q n → w.adj_out_v6 q n = t.export_v6 q n
  untold_v6 : ∀ q ≠ peer_ip, ∀ n, ¬i.told_v6 q n → w.adj_out_v6 q n = t.adj_out_v6 q n

/-- A message is taken in: the tables are rewritten, and then the peers are told. -/
def TakenIn (w : DaemonState) (peer_ip : IpAddr) (i : Intake) : Prop :=
  ∃ t, Rewritten s t ∧ Told t w peer_ip i

theorem told_nobody {i : Intake} (h4 : ∀ q n, ¬i.told_v4 q n) (h6 : ∀ q n, ¬i.told_v6 q n) :
    Told t t ip i where
  rib := rfl
  capable := rfl
  export_v4 _ := rfl
  export_v6 _ := rfl
  told_v4 q _ n h := absurd h (h4 q n)
  untold_v4 _ _ _ _ := rfl
  told_v6 q _ n h := absurd h (h6 q n)
  untold_v6 _ _ _ _ := rfl

/-! ### Pruning -/

/-- The calls about the BLACKHOLE prefixes that a prune takes out. -/
def prune_blackholes_v4 (stale : List (Nlri Ipv4Addr)) : List FibCall :=
  (match s.adj_ribs_in.lookup peer_ip with
    | some ari => stale.filter fun n => (ari.get n).any Route.is_blackhole
    | none => []).map .withdraw_blackhole_v4

/-- The state a prune leaves before anyone is told. -/
def pruned_v4 (stale : List (Nlri Ipv4Addr)) : DaemonState :=
  let r := s.rib.loc_rib.run_ops peer_ip s.oracle_v4 (stale.map .Drop)
  (({ s.fib_apply (s.prune_blackholes_v4 peer_ip stale) with
      adj_ribs_in := s.adj_ribs_in.modify peer_ip fun ari => stale.foldl AdjRibIn.withdraw ari
    } : DaemonState).set_loc_rib r.1).fib_apply (r.2.map .apply_v4)

theorem prune_stale_nlri_eq (stale : List (Nlri Ipv4Addr)) :
    s.prune_stale_nlri ip stale
      = ((s.pruned_v4 ip stale).direct_others_v4 ip stale).emit_route_events
        s.best_prefixes_v4 := by
  unfold pruned_v4 LocRib.run_ops
  rw [List.foldl_map]
  rfl

theorem told_direct_others_v4 {t : DaemonState} (nlris : List (Nlri Ipv4Addr))
    (events : List (Nlri Ipv4Addr)) (v4 : List (RibOp Ipv4Addr)) (v6 : List (RibOp Ipv6Addr))
    (reported : Bool) (hd : t.selection_deferral.v4_deferred = false) :
    Told t ((t.direct_others_v4 ip nlris).emit_route_events events) ip
      ⟨v4, v6, fun q n => n ∈ nlris ∧ t.Spoken_v4 q, fun _ _ => False, reported⟩ := by
  have hdirect := fun q => (t.direct_others_v4_spec ip nlris q).2
  have hexport := fun q => t.direct_others_v4_export ip q nlris
  obtain ⟨_, _, _, hf⟩ := t.direct_others_v4_eq ip nlris
  rw [hf] at hdirect hexport ⊢
  refine ⟨rfl, rfl, fun q => (hexport q).1, fun q => (hexport q).2, ?_, ?_,
    fun q hq n h => h.elim, fun _ _ _ _ => rfl⟩
  · rintro q hq n ⟨hn, hs⟩
    exact (hdirect q n).trans (if_pos ⟨⟨hs, hq⟩, hn, hd⟩)
  · intro q hq n hn
    exact (hdirect q n).trans (if_neg fun h => hn ⟨h.2.1, h.1.1⟩)

def prune_blackholes_v6 (stale : List (Nlri Ipv6Addr)) : List FibCall :=
  (match s.adj_ribs_in_v6.lookup peer_ip with
    | some ari => stale.filter fun n => (ari.get n).any Route.is_blackhole
    | none => []).map .withdraw_blackhole_v6

def pruned_v6 (stale : List (Nlri Ipv6Addr)) : DaemonState :=
  let r := s.rib.loc_rib_v6.run_ops peer_ip s.oracle_v6 (stale.map .Drop)
  (({ s.fib_apply (s.prune_blackholes_v6 peer_ip stale) with
      adj_ribs_in_v6 :=
        s.adj_ribs_in_v6.modify peer_ip fun ari => stale.foldl AdjRibIn.withdraw ari
    } : DaemonState).set_loc_rib_v6 r.1).fib_apply (r.2.map .apply_v6)

theorem prune_stale_nlri_v6_eq (stale : List (Nlri Ipv6Addr)) :
    s.prune_stale_nlri_v6 ip stale = (s.pruned_v6 ip stale).direct_others_v6 ip stale := by
  unfold pruned_v6 LocRib.run_ops
  rw [List.foldl_map]
  rfl

theorem told_direct_others_v6 {t : DaemonState} (nlris : List (Nlri Ipv6Addr))
    (v4 : List (RibOp Ipv4Addr)) (v6 : List (RibOp Ipv6Addr)) (reported : Bool)
    (hd : t.selection_deferral.v6_deferred = false) :
    Told t (t.direct_others_v6 ip nlris) ip
      ⟨v4, v6, fun _ _ => False, fun q n => n ∈ nlris ∧ t.Spoken_v6 q, reported⟩ := by
  have hdirect := fun q => t.direct_others_v6_spec ip nlris q
  have hframe := t.direct_others_v6_frame ip nlris
  have hkeep4 := t.direct_others_v6_out_v4 ip nlris
  generalize t.direct_others_v6 ip nlris = w at *
  have hrest : w.rib = t.rib ∧ w.ipv6_capable_peers = t.ipv6_capable_peers ∧
      w.export_of_v4 = t.export_of_v4 := by
    obtain ⟨out, _, _, _, rfl⟩ := hframe
    obtain rfl : out = t.adj_ribs_out := hkeep4
    exact ⟨rfl, rfl, rfl⟩
  refine ⟨hrest.1, hrest.2.1, fun q => congrFun hrest.2.2 q,
    fun q => hframe.export_of_v6 (hdirect q).1, fun q hq n h => h.elim, ?_, ?_, ?_⟩
  · intro q hq n _
    exact congrArg (fun m => (m.lookup q).bind (·.get n)) hkeep4
  · rintro q hq n ⟨hn, hs⟩
    exact ((hdirect q).2 n).trans (if_pos ⟨⟨hs, hq⟩, hn, hd⟩)
  · intro q hq n hn
    exact ((hdirect q).2 n).trans (if_neg fun h => hn ⟨h.2.1, h.1.1⟩)

theorem recompute_of_not_deferred {v : DaemonState} (hd4 : v.selection_deferral.v4_deferred = false)
    (hd6 : v.selection_deferral.v6_deferred = false) : v.recompute_selection_deferral = v := by
  unfold recompute_selection_deferral
  simp only [hd4, hd6, Bool.false_and, Bool.or_false]
  rfl

theorem takenIn_recompute {s t w : DaemonState} {i : Intake} (hw : Told t w ip i)
    (hs : Rewritten s t) (hd4 : w.selection_deferral.v4_deferred = false)
    (hd6 : w.selection_deferral.v6_deferred = false) :
    TakenIn s w.recompute_selection_deferral ip i := by
  rw [recompute_of_not_deferred hd4 hd6]
  exact ⟨t, hs, hw⟩

theorem takenIn_on_eor_v4 {s : DaemonState} (hd4 : s.selection_deferral.v4_deferred = false)
    (hd6 : s.selection_deferral.v6_deferred = false) :
    TakenIn s (s.on_eor_v4 ip) ip
      ⟨(s.stale_prefixes ip).map .Drop, [], fun q n => n ∈ s.stale_prefixes ip ∧ s.Spoken_v4 q,
        fun _ _ => False, true⟩ := by
  have heor : s.on_eor_v4 ip = (if (s.stale_prefixes ip).isEmpty then s.eor_noted_v4 ip
      else (s.eor_noted_v4 ip).prune_stale_nlri ip
        (s.stale_prefixes ip)).recompute_selection_deferral := rfl
  rw [heor]
  by_cases hnil : (s.stale_prefixes ip).isEmpty = true
  · rw [if_pos hnil, recompute_of_not_deferred (v := s.eor_noted_v4 ip) hd4 hd6,
      List.isEmpty_iff.1 hnil]
    exact ⟨s.eor_noted_v4 ip, ⟨rfl, rfl, rfl, rfl, rfl, rfl⟩,
      told_nobody _ ip (fun q n h => List.not_mem_nil h.1) fun _ _ => id⟩
  · rw [if_neg hnil, prune_stale_nlri_eq]
    have htold := told_direct_others_v4 (t := (s.eor_noted_v4 ip).pruned_v4 ip
      (s.stale_prefixes ip)) ip (s.stale_prefixes ip) (s.eor_noted_v4 ip).best_prefixes_v4
      ((s.stale_prefixes ip).map .Drop) [] true hd4
    obtain ⟨_, _, _, _, hf⟩ := ((s.eor_noted_v4 ip).pruned_v4 ip
      (s.stale_prefixes ip)).direct_others_v4_frame ip (s.stale_prefixes ip)
    refine takenIn_recompute ip htold ⟨rfl, rfl, rfl, rfl, rfl, rfl⟩ ?_ ?_
    · rw [hf]
      exact hd4
    · rw [hf]
      exact hd6

theorem takenIn_on_eor_v6 {s : DaemonState} (hd4 : s.selection_deferral.v4_deferred = false)
    (hd6 : s.selection_deferral.v6_deferred = false) :
    TakenIn s (s.on_eor_v6 ip) ip
      ⟨[], (s.stale_prefixes_v6 ip).map .Drop, fun _ _ => False,
        fun q n => n ∈ s.stale_prefixes_v6 ip ∧ s.Spoken_v6 q, true⟩ := by
  have heor : s.on_eor_v6 ip = (if (s.stale_prefixes_v6 ip).isEmpty then s.eor_noted_v6 ip
      else (s.eor_noted_v6 ip).prune_stale_nlri_v6 ip
        (s.stale_prefixes_v6 ip)).recompute_selection_deferral := rfl
  rw [heor]
  by_cases hnil : (s.stale_prefixes_v6 ip).isEmpty = true
  · rw [if_pos hnil, recompute_of_not_deferred (v := s.eor_noted_v6 ip) hd4 hd6,
      List.isEmpty_iff.1 hnil]
    exact ⟨s.eor_noted_v6 ip, ⟨rfl, rfl, rfl, rfl, rfl, rfl⟩,
      told_nobody _ ip (fun _ _ => id) fun q n h => List.not_mem_nil h.1⟩
  · rw [if_neg hnil, prune_stale_nlri_v6_eq]
    have htold := told_direct_others_v6 (t := (s.eor_noted_v6 ip).pruned_v6 ip
      (s.stale_prefixes_v6 ip)) ip (s.stale_prefixes_v6 ip) []
      ((s.stale_prefixes_v6 ip).map .Drop) true
      hd6
    obtain ⟨_, _, _, _, hf⟩ := ((s.eor_noted_v6 ip).pruned_v6 ip
      (s.stale_prefixes_v6 ip)).direct_others_v6_frame ip (s.stale_prefixes_v6 ip)
    refine takenIn_recompute ip htold ⟨rfl, rfl, rfl, rfl, rfl, rfl⟩ ?_ ?_
    · rw [hf]
      exact hd4
    · rw [hf]
      exact hd6

/-! ### An ordinary message -/

theorem exceeds_limit_update_of (clk : Clock) (ip : IpAddr) (msg : UpdateMessage) :
    s.exceeds_limit ip (s.update_of clk ip msg) = s.overflows clk ip msg := by
  unfold exceeds_limit overflows
  rw [(s.tables_update_of ..).1, (s.tables_update_of ..).2, (ImportState.take_all_tables ..).1,
    (ImportState.take_all_tables ..).1]
  rfl

/-- The two loops of `publish_update`. -/
def propagate_both (clk : Clock) (msg : UpdateMessage) : DaemonState :=
  let t := t.propagate_to_all_peers clk msg.affected
  (if msg.affected_v6.isEmpty then t else t.propagate_to_all_peers_v6 msg.affected_v6
    ).emit_route_events msg.affected

theorem propagate_both_v6 (clk : Clock) (msg : UpdateMessage) (q : IpAddr) :
    (t.propagate_both clk msg).session_v6 q
        = (t.propagate_to_all_peers clk msg.affected).session_v6 q ∧
      ∀ n, (t.propagate_both clk msg).adj_out_v6 q n
        = if n ∈ msg.affected_v6 ∧ (t.propagate_to_all_peers clk msg.affected).Decided_v6 q n
          then (t.propagate_to_all_peers clk msg.affected).export_v6 q n
          else (t.propagate_to_all_peers clk msg.affected).adj_out_v6 q n := by
  unfold propagate_both
  generalize t.propagate_to_all_peers clk msg.affected = w
  split
  · rename_i hnil
    rw [List.isEmpty_iff.1 hnil]
    exact ⟨rfl, fun n => (if_neg fun h => List.not_mem_nil h.1).symm⟩
  · exact w.propagate_to_all_peers_v6_spec msg.affected_v6 q

theorem rr_suppressed_of_not_rr {t : DaemonState} (h : t.is_rr = false) (q : IpAddr)
    (src : Option PeerId) : t.rr_suppressed q src = false := by
  unfold rr_suppressed
  rw [h]
  rfl

/-- **The buffered loops tell everyone with an export policy**, when nothing is reflected or
deferred. -/
theorem told_propagate_both {t : DaemonState} (clk : Clock) (ip : IpAddr)
    (msg : UpdateMessage) (v4 : List (RibOp Ipv4Addr)) (v6 : List (RibOp Ipv6Addr))
    (hrr : t.is_rr = false) (hd4 : t.selection_deferral.v4_deferred = false)
    (hd6 : t.selection_deferral.v6_deferred = false) :
    Told t (t.propagate_both clk msg) ip
      ⟨v4, v6, fun q n => n ∈ msg.affected ∧ q ∈ t.rib.peer_types ∧ q ∈ t.export_policies,
        fun q n => n ∈ msg.affected_v6 ∧ q ∈ t.rib.peer_types ∧ q ∈ t.ipv6_capable_peers
          ∧ q ∈ t.export_policies_v6, true⟩ := by
  have hframe4 := t.propagate_to_all_peers_frame clk msg.affected
  have hspec4 := t.propagate_to_all_peers_spec clk msg.affected
  have hspec6 := t.propagate_both_v6 clk msg
  have hboth : ∃ out ds events, t.propagate_both clk msg =
      { t.propagate_to_all_peers clk msg.affected with
        adj_ribs_out_v6 := out, pending_decisions_v6 := ds, route_tx := events } := by
    unfold propagate_both
    dsimp only
    split
    · exact ⟨_, _, _, rfl⟩
    · obtain ⟨_, _, h⟩ := propagate_to_all_peers_v6_frame
        (t.propagate_to_all_peers clk msg.affected) msg.affected_v6
      rw [h]
      exact ⟨_, _, _, rfl⟩
  -- from here on only what the two passes leave alone matters, not how they run
  generalize t.propagate_to_all_peers clk msg.affected = w at *
  generalize t.propagate_both clk msg = x at *
  obtain ⟨out, last_sent, pending, ds, hw⟩ := hframe4
  obtain ⟨out6, ds6, events, hx⟩ := hboth
  have hsess4 : ∀ q, x.session_v4 q = t.session_v4 q := by
    intro q
    rw [hx]
    exact (hspec4 q).1
  have hsess6 : ∀ q, x.session_v6 q = t.session_v6 q := by
    intro q
    rw [(hspec6 q).1, hw]
    rfl
  have hexp4 : ∀ q, x.export_of_v4 q = t.export_of_v4 q := by
    intro q
    unfold export_of_v4
    rw [hsess4, hx, hw]
    rfl
  have hexp6 : ∀ q, x.export_of_v6 q = t.export_of_v6 q := by
    intro q
    unfold export_of_v6
    rw [hsess6, hx, hw]
    rfl
  subst hw hx
  refine ⟨rfl, rfl, hexp4, hexp6, ?_, ?_, ?_, ?_⟩
  · rintro q hq n ⟨hn, hest, hpol⟩
    refine ((hspec4 q).2 n).trans (if_pos ⟨hn, hest, hpol, ?_⟩)
    rw [hd4, Bool.false_or, rr_suppressed_of_not_rr hrr]
  · intro q hq n hn
    exact ((hspec4 q).2 n).trans (if_neg fun h => hn ⟨h.1, h.2.1, h.2.2.1⟩)
  · rintro q hq n ⟨hn, hest, hcap, hpol⟩
    refine ((hspec6 q).2 n).trans (if_pos ⟨hn, hest, hcap, hpol, ?_⟩)
    refine Bool.or_eq_false_iff.2 ⟨hd6, rr_suppressed_of_not_rr ?_ q _⟩
    exact hrr
  · intro q hq n hn
    exact ((hspec6 q).2 n).trans (if_neg fun h => hn ⟨h.1, h.2.1, h.2.2.1, h.2.2.2.1⟩)

end DaemonState

/-- The import stops a session only for an UPDATE Message Error. -/
theorem notification_handle_update {env : ImportEnv} {msg : UpdateMessage}
    {v4 : ImportState Ipv4Addr} {v6 : ImportState Ipv6Addr} {m : NotificationMessage}
    (h : (handle_update env msg v4 v6).notification = some m) :
    ∃ e, m.error = .UpdateMessage e := by
  have hmand : ∀ (a : UpdateAttrs) (u : PendingUpdate), u.notification = none →
      ∀ m, (check_mandatory env msg a u).notification = some m →
        ∃ e, m.error = .UpdateMessage e := by
    intro a u hu m hm
    unfold check_mandatory at hm
    dsimp only at hm
    generalize (missing_path_attr a).or _ = missing at hm
    split at hm
    · split at hm
      · cases hu.symm.trans hm
      · cases hu.symm.trans hm
    · split at hm
      · cases hu.symm.trans hm
      · split at hm
        · split at hm
          · cases hm
            exact ⟨_, rfl⟩
          · cases hu.symm.trans hm
        · cases hu.symm.trans hm
  have hdrop : ∀ (a : UpdateAttrs) (u : PendingUpdate),
      (drop_looped env a u).notification = u.notification := by
    intro a u
    unfold drop_looped
    split <;> rfl
  have hconfed : ∀ (a : UpdateAttrs) (u : PendingUpdate) (m : NotificationMessage),
      (check_confed env msg a u).notification = some m →
        u.notification = some m ∨ ∃ e, m.error = .UpdateMessage e := by
    intro a u m hm
    unfold check_confed at hm
    split at hm
    · split at hm
      · exact .inl hm
      · cases hm
        exact .inr ⟨_, rfl⟩
    · exact .inl hm
  rcases hconfed _ _ m h with h | h
  · rw [hdrop] at h
    exact hmand _ _ rfl m h
  · exact h

namespace DaemonState

/-- **What a message comes to, and when the session is stopped for it.** -/
theorem takenIn_on_route_update {s : DaemonState} (clk : Clock) (ip : IpAddr)
    (msg : UpdateMessage) (hrr : s.is_rr = false) (hd4 : s.selection_deferral.v4_deferred = false)
    (hd6 : s.selection_deferral.v6_deferred = false) :
    TakenIn s (s.on_route_update clk ip msg).1 ip (s.taken clk ip msg) ∧
      ((s.on_route_update clk ip msg).2 = some ⟨.Cease .MaximumNumberOfPrefixesReached, []⟩ ↔
        s.Overflows clk ip msg) := by
  unfold on_route_update taken
  by_cases heor4 : msg.is_eor_v4 = true
  · rw [if_pos heor4, if_pos heor4]
    refine ⟨takenIn_on_eor_v4 ip hd4 hd6, iff_of_false (fun h => by cases h) fun h => ?_⟩
    cases heor4.symm.trans h.1.1
  rw [if_neg heor4, if_neg heor4]
  by_cases heor6 : msg.is_eor_v6 = true
  · rw [if_pos heor6, if_pos heor6]
    refine ⟨takenIn_on_eor_v6 ip hd4 hd6, iff_of_false (fun h => by cases h) fun h => ?_⟩
    cases heor6.symm.trans h.1.2.1
  rw [if_neg heor6, if_neg heor6]
  rw [rr_inbound_of_not_rr hrr]
  by_cases hc : s.Configured ip
  · have hlim : (s.imported ip msg (s.update_of clk ip msg)).exceeds_limit ip
        (s.update_of clk ip msg) = s.overflows clk ip msg :=
      s.exceeds_limit_update_of clk ip msg
    rw [if_neg (not_not.2 hc)]
    dsimp only
    unfold on_update_message
    rw [handled_of_configured hc]
    dsimp only
    rw [hlim]
    generalize hu : s.update_of clk ip msg = u
    by_cases ho : s.overflows clk ip msg = true
    · -- over the limit: the routes are in, but nobody is told
      rw [if_pos ho, if_pos ho]
      have hidle : Rewritten s ((s.imported ip msg u).idle_hold clk ip) := by
        unfold idle_hold
        split <;> exact ⟨rfl, rfl, rfl, rfl, rfl, rfl⟩
      refine ⟨⟨_, hidle, told_nobody _ ip (fun _ _ => id) fun _ _ => id⟩, iff_of_true rfl ?_⟩
      exact ⟨⟨Bool.not_eq_true _ ▸ heor4, Bool.not_eq_true _ ▸ heor6, hc⟩, ho⟩
    · rw [if_neg ho, if_neg ho]
      have htold := told_propagate_both (t := (s.imported ip msg u).fib_apply
        ((s.imported ip msg u).update_calls u)) clk ip msg
        (s.message_ops_v4 clk ip msg) (s.message_ops_v6 clk ip msg) hrr hd4 hd6
      refine ⟨⟨_, ?_, htold⟩, iff_of_false (fun h => ?_) fun h => ho h.2⟩
      · exact ⟨rfl, rfl, rfl, rfl, rfl, rfl⟩
      · -- every other notification reports a malformed UPDATE
        rw [← hu] at h
        obtain ⟨e, he⟩ := notification_handle_update h
        cases he
  · rw [if_pos hc]
    dsimp only
    unfold on_update_message
    rw [handled_of_not_configured hc]
    exact ⟨⟨s, ⟨rfl, rfl, rfl, rfl, rfl, rfl⟩, told_nobody _ ip (fun _ _ => id) fun _ _ => id⟩,
      iff_of_false (fun h => by cases h) fun h => hc h.1.2.2⟩

end DaemonState

end Pathvector

/-
# The two families compared

`handle_update` builds the routes of the two families in two copies of one loop. What of a route is
not about addresses should not depend on the copy: two messages with the same attributes around
their prefixes should have the same stored for an IPv4 and for an IPv6 prefix.

The copies differ in one place. The attributes of reflection, ORIGINATOR_ID and CLUSTER_LIST, are
stored with an IPv4 route only, and `on_route_update` has just added them to every message of an
iBGP peer of a reflector. So the stored routes agree exactly when the message, as it is imported,
has neither (`import_agrees_iff`), and no IPv6 route that is reflected carries them.
-/
import Pathvector.Inbound.Injection

set_option autoImplicit false

namespace Pathvector

/-! ## What is compared -/

/-- The attributes of a route that are not about addresses. -/
structure CommonAttrs where
  origin : Origin
  as_path : AsPath
  local_pref : Option LocalPref
  med : Option Med
  rare : RareAttrs
  deriving DecidableEq

section

variable {A : Type} [IpAddress A]

def Route.common (r : Route A) : CommonAttrs :=
  ⟨r.origin, r.as_path, r.local_pref, r.med, r.rare_or_default⟩

/-- The attributes of reflection that are stored with a route. -/
def Route.reflection (r : Route A) : Option Ipv4Addr × List UInt32 :=
  (r.rare_or_default.originator_id, r.rare_or_default.cluster_list)

end

def PathAttribute.is_reflection : PathAttribute → Bool
  | .OriginatorId _ | .ClusterList _ => true
  | _ => false

/-- The messages carry their prefixes with the same attributes. -/
def UpdateMessage.SameAround (m m' : UpdateMessage) : Prop :=
  around m.attributes = around m'.attributes

/-! ## The attribute loop -/

namespace UpdateAttrs

section

variable (pt : PeerType) (a : UpdateAttrs) (x : PathAttribute)

/-- The attributes without the multiprotocol prefixes. -/
def bare : UpdateAttrs :=
  { a with
    mp_v4_announced := []
    mp_v4_withdrawn := []
    mp_v6_announced := []
    mp_v6_withdrawn := [] }

theorem bare_scan_of_mp (h : x.is_mp = true) : (scan pt a x).bare = a.bare := by
  cases x with
  | MpReachNlri | MpUnreachNlri =>
    simp only [scan]
    split
    · rfl
    · split <;> rfl
  | _ => cases h

theorem bare_scan : (scan pt a x).bare = (scan pt a.bare x).bare := by
  cases x with
  | LocalPref | Unknown =>
    simp only [scan]
    split <;> rfl
  | MpReachNlri | MpUnreachNlri =>
    rw [bare_scan_of_mp pt a _ rfl, bare_scan_of_mp pt a.bare _ rfl]
    rfl
  | _ => rfl

theorem bare_collect {l l' : List PathAttribute} (h : around l = around l') :
    (collect pt l).bare = (collect pt l').bare := by
  have hfilter := fun attrs => foldl_scan_filter pt (v := bare) (bare_scan_of_mp pt) (bare_scan pt)
    attrs (a := {}) (b := {}) rfl
  unfold around at h
  unfold collect
  rw [hfilter l, hfilter l', h]

end

end UpdateAttrs

theorem has_originator_around (l : List PathAttribute) :
    has_originator (around l) = has_originator l := by
  unfold has_originator around
  rw [List.any_filter]
  congr 1
  funext a
  cases a <;> rfl

theorem around_prepend_cluster (c : UInt32) (l : List PathAttribute) :
    around (prepend_cluster c l) = prepend_cluster c (around l) := by
  induction l with
  | nil => rfl
  | cons a l ih =>
    cases a with
    | ClusterList list => rfl
    | MpReachNlri | MpUnreachNlri => exact ih
    | _ => exact congrArg (_ :: ·) ih

theorem UpdateMessage.SameAround.rr_inbound {s : DaemonState} {p : IpAddr}
    {m m' n n' : UpdateMessage} (h : m.SameAround m') (hn : s.rr_inbound p m = some n)
    (hn' : s.rr_inbound p m' = some n') : n.SameAround n' := by
  unfold DaemonState.rr_inbound at hn hn'
  by_cases hrr : (s.is_rr && s.peer_type p == .Internal) = true
  · rw [if_pos hrr] at hn hn'
    split at hn
    · cases hn
    split at hn'
    · cases hn'
    cases hn
    cases hn'
    have horig : has_originator m.attributes = has_originator m'.attributes := by
      rw [← has_originator_around, h, has_originator_around]
    unfold SameAround
    rw [around_prepend_cluster, around_prepend_cluster, horig]
    congr 1
    split
    · exact h
    · unfold SameAround around at h
      unfold around
      rw [List.filter_append, List.filter_append, h]
  · rw [if_neg hrr] at hn hn'
    cases hn
    cases hn'
    exact h

/-! ## The stored routes -/

/-- What the builder stores of the attributes. -/
def UpdateAttrs.common (a : UpdateAttrs) : CommonAttrs :=
  ⟨a.origin, a.as_path, a.local_pref, a.med, a.rare.getD {}⟩

/-- An IPv4 route has the attributes of the builder, and those of reflection. -/
theorem common_raw_route_v4 (env : ImportEnv) (a : UpdateAttrs) (n : Nlri Ipv4Addr)
    (next_hop : Option NextHop) :
    (raw_route_v4 env a n next_hop).common =
      { a.common with
        rare := { a.common.rare with
          originator_id := a.originator_id
          cluster_list := a.cluster_list } } := by
  obtain ⟨hid, hlist⟩ := reflection_raw_route_v4 env a n next_hop
  rw [← hid, ← hlist]
  unfold raw_route_v4
  split <;> rfl

theorem common_raw_route_v6 (env : ImportEnv) (a : UpdateAttrs) (n : Nlri Ipv6Addr)
    (next_hop : NextHop) : (raw_route_v6 env a n next_hop).common = a.common := rfl

theorem reflection_common (a : UpdateAttrs) :
    a.common.rare.originator_id = none ∧ a.common.rare.cluster_list = [] := by
  unfold UpdateAttrs.common UpdateAttrs.rare
  split <;> exact ⟨rfl, rfl⟩

/-! ## What is passed on -/

section

variable {A : Type} [IpAddress A]

theorem Policy.reflection_evaluate (rtr : RtrHandle A) (p : Policy A) (r : Route A) :
    (p.evaluate rtr r).2.reflection = r.reflection := by
  refine keeps_evaluate (P := fun r' => r'.reflection = r.reflection) ⟨?_, ?_, ?_, ?_, ?_, ?_, ?_,
    ?_⟩ rtr p rfl
  all_goals
    intro r' v h
    first
    | exact h
    | simpa only [Route.reflection, Route.rare_set_communities, Route.rare_set_large_communities,
        Route.rare_set_otc] using h

theorem reflection_exported [DecidableEq A] {prepare : Route A → Route A} {rtr : RtrHandle A}
    {policy : Policy A} {peer_type : PeerType} {session : OutSession} {src : PeerId} {r e : Route A}
    (hprepare : (prepare r).reflection = r.reflection)
    (h : exported prepare rtr policy peer_type session (some (src, r)) = some e) :
    e.reflection = r.reflection := by
  have hkeep := policy.reflection_evaluate rtr (prepare r)
  unfold exported at h
  simp only [Option.bind_some] at h
  split at h
  · cases h
  · split at h
    · next route heq =>
      rw [heq] at hkeep
      unfold admitted AdjRibOut.stored at h
      split_ifs at h <;> cases h <;> exact hkeep.trans hprepare
    · cases h

theorem mem_route_to_attributes_reflection {next_hop : List PathAttribute} (r : Route A)
    (four_byte : Bool) {x : PathAttribute} (hx : x.is_reflection = true) (hnh : x ∉ next_hop) :
    x ∈ route_to_attributes_with next_hop r .Internal four_byte ↔
      (∃ id ∈ r.reflection.1, x = .OriginatorId id) ∨
        r.reflection.2 ≠ [] ∧ x = .ClusterList r.reflection.2 := by
  cases x with
  | OriginatorId id =>
    simp [route_to_attributes_with, rare_to_attributes, Route.reflection, hnh]
  | ClusterList l =>
    simp [route_to_attributes_with, rare_to_attributes, Route.reflection, hnh]
  | _ => cases hx

end

deriving instance DecidableEq for ImportOp

namespace DaemonState

/-- A stored route is let in and, as the best of its prefix, goes to an internal peer with these
attributes on the wire. The import and the export may be at different times. -/
def Reflects_v4 (s t : DaemonState) (p q : IpAddr) (raw : Route Ipv4Addr)
    (wire : List PathAttribute) : Prop :=
  t.peer_type q = .Internal ∧ ∃ policy r e four_byte, s.import_policies.lookup p = some policy ∧
    policy.evaluate s.rpki_v4 raw = (.Accept, r) ∧ t.export_of_v4 q (some (p, r)) = some e ∧
    wire = route_to_attributes e (t.peer_type q) four_byte

def Reflects_v6 (s t : DaemonState) (p q : IpAddr) (raw : Route Ipv6Addr)
    (wire : List PathAttribute) : Prop :=
  t.peer_type q = .Internal ∧ ∃ policy r e four_byte, s.import_policies_v6.lookup p = some policy ∧
    policy.evaluate s.rpki_v6 raw = (.Accept, r) ∧ t.export_of_v6 q (some (p, r)) = some e ∧
    wire = (route_v6_to_attributes e (t.peer_type q) four_byte).1

/-- The routes that two messages have stored agree in what is not about addresses, and where both
are reflected, in the attributes of reflection they are sent with. -/
def ImportAgrees (s : DaemonState) (p : IpAddr) (raw_v4 : Route Ipv4Addr)
    (raw_v6 : Route Ipv6Addr) : Prop :=
  raw_v6.common = raw_v4.common ∧
    ∀ t q wire_v4 wire_v6, s.Reflects_v4 t p q raw_v4 wire_v4 → s.Reflects_v6 t p q raw_v6 wire_v6 →
      ∀ x, x.is_reflection = true → (x ∈ wire_v6 ↔ x ∈ wire_v4)

/-- No attribute of reflection is imported with the message: it carries none, and the daemon does
not add one. -/
def Unreflected (s : DaemonState) (p : IpAddr) (msg : UpdateMessage) : Prop :=
  (s.attrs_of p msg).originator_id = none ∧ (s.attrs_of p msg).cluster_list = []
deriving Decidable

section

variable {s t : DaemonState} {p q : IpAddr} {wire : List PathAttribute} {x : PathAttribute}

theorem mem_of_reflects_v4 {raw : Route Ipv4Addr} (h : s.Reflects_v4 t p q raw wire)
    (hx : x.is_reflection = true) :
    x ∈ wire ↔ (∃ id ∈ raw.reflection.1, x = .OriginatorId id) ∨
      raw.reflection.2 ≠ [] ∧ x = .ClusterList raw.reflection.2 := by
  obtain ⟨htype, policy, r, e, four_byte, -, heval, hexp, rfl⟩ := h
  have himport := policy.reflection_evaluate s.rpki_v4 raw
  rw [heval] at himport
  have hexport : e.reflection = r.reflection := by
    unfold export_of_v4 at hexp
    split at hexp
    · refine reflection_exported ?_ hexp
      unfold prepare_v4 prepare_outbound
      rw [htype]
      rfl
    · cases hexp
  rw [htype, route_to_attributes, mem_route_to_attributes_reflection e four_byte hx, hexport,
    himport]
  split
  · rw [List.mem_singleton]
    rintro rfl
    cases hx
  · exact List.not_mem_nil

theorem mem_of_reflects_v6 {raw : Route Ipv6Addr} (h : s.Reflects_v6 t p q raw wire)
    (hx : x.is_reflection = true) :
    x ∈ wire ↔ (∃ id ∈ raw.reflection.1, x = .OriginatorId id) ∨
      raw.reflection.2 ≠ [] ∧ x = .ClusterList raw.reflection.2 := by
  obtain ⟨htype, policy, r, e, four_byte, -, heval, hexp, rfl⟩ := h
  have himport := policy.reflection_evaluate s.rpki_v6 raw
  rw [heval] at himport
  have hexport : e.reflection = r.reflection := by
    unfold export_of_v6 can_announce_v6 at hexp
    rw [htype] at hexp
    split at hexp
    · refine reflection_exported ?_ hexp
      unfold prepare_v6 prepare_outbound_v6
      rw [htype]
      rfl
    · cases hexp
  rw [htype, route_v6_to_attributes, mem_route_to_attributes_reflection e four_byte hx
    List.not_mem_nil, hexport, himport]

end

/-- **The two families agree.** For two messages of a peer that carry their prefixes with the same
attributes, and an IPv4 route stored from one and an IPv6 route stored from the other: these agree,
and so do their reflections, if and only if no attribute of reflection is imported. -/
theorem import_agrees_iff (s : DaemonState) (clk clk' : Clock) (p : IpAddr)
    (msg msg' m m' : UpdateMessage) (hsame : msg.SameAround msg')
    (hm : s.rr_inbound p msg = some m) (hm' : s.rr_inbound p msg' = some m')
    (raw_v4 : Route Ipv4Addr) (raw_v6 : Route Ipv6Addr)
    (h4 : .Announce raw_v4 ∈ intake_v4 (s.env_of clk p) m)
    (h6 : .Announce raw_v6 ∈ intake_v6 (s.env_of clk' p) m') :
    s.ImportAgrees p raw_v4 raw_v6 ↔ s.Unreflected p msg := by
  obtain ⟨-, nh, heq4⟩ := raw_of_intake_v4 h4
  obtain ⟨-, nh', heq6⟩ := raw_of_intake_v6 h6
  rw [← attrs_of_eq clk hm] at heq4
  rw [← attrs_of_eq clk' hm'] at heq6
  have hcommon4 := common_raw_route_v4 (s.env_of clk p) (s.attrs_of p msg) raw_v4.nlri nh
  have hcommon6 := common_raw_route_v6 (s.env_of clk' p) (s.attrs_of p msg') raw_v6.nlri nh'
  rw [← heq4] at hcommon4
  rw [← heq6] at hcommon6
  have hattrs := UpdateAttrs.bare_collect (s.env_of clk p).peer_type (hsame.rr_inbound hm hm')
  rw [← attrs_of_eq clk hm, ← attrs_of_eq clk hm'] at hattrs
  unfold ImportAgrees Unreflected
  generalize s.attrs_of p msg = a at hcommon4 hattrs ⊢
  -- the IPv6 route has what the attribute loop has read, which is the same in both messages
  have hsame6 : (s.attrs_of p msg').common = a.common :=
    (show a.bare.common = (s.attrs_of p msg').bare.common by rw [hattrs]).symm
  rw [hsame6] at hcommon6
  obtain ⟨hid, hlist⟩ := reflection_common a
  constructor
  · rintro ⟨heq, -⟩
    rw [hcommon4, hcommon6] at heq
    have hrare := congrArg CommonAttrs.rare heq
    exact ⟨(congrArg RareAttrs.originator_id hrare).symm.trans hid,
      (congrArg RareAttrs.cluster_list hrare).symm.trans hlist⟩
  · rintro ⟨hnone, hnil⟩
    have heq : raw_v6.common = raw_v4.common := by
      rw [hcommon4, hcommon6, hnone.trans hid.symm, hnil.trans hlist.symm]
    refine ⟨heq, fun t q wire_v4 wire_v6 hw4 hw6 x hx => ?_⟩
    have hrefl : raw_v6.reflection = raw_v4.reflection :=
      congrArg (fun c : CommonAttrs => (c.rare.originator_id, c.rare.cluster_list)) heq
    rw [mem_of_reflects_v6 hw6 hx, mem_of_reflects_v4 hw4 hx, hrefl]

end DaemonState

/-! ## A reflector of both families -/

/-- 2001:db8:2::/48 -/
def documented_v6 : Nlri Ipv6Addr := Nlri.v6 0x20010db8000200000000000000000000 48

/-- An announcement of a prefix of each family, with the same attributes. -/
def in_both_families : UpdateMessage :=
  ⟨[], [.Origin .Igp, .AsPath (AsPath.from_sequence [65002]),
    .MpReachNlri ⟨.IPV4_UNICAST, .V4 (Ipv4Addr.new 192 0 2 1), [.V4 (Nlri.v4 10 2 0 0 16)]⟩,
    .MpReachNlri ⟨.IPV6_UNICAST, .V6 ⟨0x20010db8000000000000000000000001⟩, [.V6 documented_v6]⟩],
    []⟩

/-- From an external peer, the routes agree. -/
theorem external_families_agree :
    let s := DaemonState.border
    let a := s.attrs_of (peer_addr 2) in_both_families
    s.ImportAgrees (peer_addr 2)
      (raw_route_v4 (s.env_of ⟨0, 0⟩ (peer_addr 2)) a (Nlri.v4 10 2 0 0 16)
        (some (.V4 (Ipv4Addr.new 192 0 2 1))))
      (raw_route_v6 (s.env_of ⟨0, 0⟩ (peer_addr 2)) a documented_v6
        (.V6 ⟨0x20010db8000000000000000000000001⟩)) := by
  refine (DaemonState.import_agrees_iff _ ⟨0, 0⟩ ⟨0, 0⟩ _ in_both_families in_both_families
    in_both_families in_both_families rfl ?_ ?_ _ _ ?_ ?_).2 ?_
  all_goals decide +kernel

/-- The reflector's sessions come up, and its client announces a prefix of each family. -/
def reflected_families : List Event :=
  [session_up 2 .Internal [.MultiProtocol .IPV6_UNICAST],
    session_up 4 .Internal [.MultiProtocol .IPV6_UNICAST], update_from 4 0 in_both_families]

/-- What the client announced is reflected in both families, and only the IPv4 route is stored and
sent with ORIGINATOR_ID and CLUSTER_LIST. -/
theorem reflected_v6_bare :
    let s := reflector.run reflected_families
    s.Reachable ∧
      ((s.adj_ribs_in.lookup (peer_addr 4)).bind (·.get (Nlri.v4 10 2 0 0 16))).map Route.common
        ≠ ((s.adj_ribs_in_v6.lookup (peer_addr 4)).bind (·.get documented_v6)).map Route.common ∧
      ((s.adj_out_v4 (peer_addr 2) (Nlri.v4 10 2 0 0 16)).map fun e =>
          (route_to_attributes e .Internal true).filter PathAttribute.is_reflection)
        = some [.OriginatorId (Ipv4Addr.new 10 0 0 4), .ClusterList [s.rib.cluster_id]] ∧
      ((s.adj_out_v6 (peer_addr 2) documented_v6).map fun e =>
          (route_v6_to_attributes e .Internal true).1.filter PathAttribute.is_reflection)
        = some [] := by
  refine ⟨reachable_small_daemon .., ?_, ?_, ?_⟩
  all_goals decide +kernel

end Pathvector

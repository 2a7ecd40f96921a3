/-
# Two ways to configure a peer

`DaemonState::new` builds the per-peer maps of the peers in the configuration file, and
`add_peer` those of a peer that comes later. The two are separate code. This module
compares them: a peer `p` that is added to a running daemon against the same peer listed in
the file, both with RPKI validation.

What the file says about the other peers is never disturbed by `add_peer`, because the one
thing the peers share is whether the daemon is a route reflector, and an added peer does not
change that. What differs is the added peer's own entry. It is never recorded as a
route-reflector client, and its import policies lack the term that
`install_rpki_import_terms` appended to the policies there were at start-up. A missing
term that rejects goes unnoticed exactly if the default rejects as well.
-/
import Pathvector.Daemon.EventLoop

set_option autoImplicit false

namespace Pathvector

namespace Policy

variable {A : Type} [IpAddress A]

/-! ## Policies as functions -/

/-- Two policies decide alike on every route and rewrite it alike, whatever the RPKI table
holds. -/
def Alike (p q : Policy A) : Prop := ∀ rtr r, p.evaluate rtr r = q.evaluate rtr r

theorem Alike.refl (p : Policy A) : p.Alike p := fun _ _ => rfl

/-- The validation state of a route (RFC 6811), as `RoaStateCondition` asks for it. -/
def validity (rtr : RtrHandle A) (local_as : Asn) (r : Route A) : RoaValidity :=
  rtr r.nlri.ip r.nlri.mask ((r.as_path.origin_as local_as).getD 0)

/-- A policy that accepts no route whose validation state is Invalid. -/
def RejectsInvalid (local_as : Asn) (p : Policy A) : Prop :=
  ∀ rtr r, validity rtr local_as r = .Invalid → (p.evaluate rtr r).1 ≠ .Accept

/-- Appending a term that rejects changes nothing in front of a default that rejects. -/
theorem evaluate_add_reject (p : Policy A) (c : Condition A) (hdefault : p.default = .Reject) :
    (p.add_term ⟨c, .Reject⟩).Alike p := by
  intro rtr r
  rw [evaluate, evaluate, add_term, hdefault]
  generalize p.terms = ts
  induction ts generalizing r with
  | nil => simp [evaluate_terms, Action.apply, DefaultAction.to_decision]
  | cons t ts ih =>
    rw [List.cons_append, evaluate_terms, evaluate_terms]
    split
    · split
      · rfl
      · rfl
      · exact ih _
    · exact ih _

theorem validity_set_otc (rtr : RtrHandle A) (local_as : Asn) (r : Route A) (otc : Option Asn) :
    validity rtr local_as (r.set_otc otc) = validity rtr local_as r := by
  unfold validity Route.set_otc
  split <;> rfl

/-- A policy made of terms that reject, or mark a route with ONLY_TO_CUSTOMER. -/
def RejectsOrMarks (p : Policy A) : Prop :=
  ∀ t ∈ p.terms, t.action = .Reject ∨ ∃ asn, t.action = .SetOtc asn

/-- Such a policy with the RPKI term at its end accepts no invalid route: the terms before
it accept nothing and leave prefix and AS path alone. -/
theorem RejectsOrMarks.rejectsInvalid {p : Policy A} (hp : p.RejectsOrMarks) (local_as : Asn) :
    (p.add_term ⟨.RoaState .Invalid local_as, .Reject⟩).RejectsInvalid local_as := by
  intro rtr r hinvalid
  rw [evaluate, add_term]
  unfold RejectsOrMarks at hp
  generalize p.terms = ts at hp ⊢
  induction ts generalizing r with
  | nil =>
    have hmatch : Condition.matches rtr r (.RoaState .Invalid local_as) = true := by
      rw [Condition.matches, beq_iff_eq]
      exact hinvalid
    simp [evaluate_terms, hmatch, Action.apply]
  | cons t ts ih =>
    have hrest : ∀ t ∈ ts, t.action = .Reject ∨ ∃ asn, t.action = .SetOtc asn :=
      fun t ht => hp t (List.mem_cons_of_mem _ ht)
    rw [List.cons_append, evaluate_terms]
    split
    · obtain haction | ⟨asn, haction⟩ := hp t (List.mem_cons_self ..)
      · simp [haction, Action.apply]
      · rw [haction, Action.apply]
        refine ih _ ?_ hrest
        split
        · rw [validity_set_otc, hinvalid]
        · exact hinvalid
    · exact ih r hinvalid hrest

end Policy

section

variable {A : Type} [IpAddress A]
variable (peer : PeerConfig) (local_as : Asn) (role : Option Role) (default : Option DefaultAction)

/-! ## The policies a peer starts with -/

@[simp]
theorem default_initial_import_policy :
    (initial_import_policy peer local_as role default : Policy A).default
      = resolve_import_default default (peer.remote_as ≠ local_as) := by
  cases role with
  | none => rfl
  | some role => cases role <;> rfl

/-- What the import policy of a session makes of a route that carries no
ONLY_TO_CUSTOMER: the OTC terms let it pass. -/
theorem decision_initial_import_policy (rtr : RtrHandle A) (r : Route A) (hotc : r.otc = none) :
    ((initial_import_policy peer local_as role default).evaluate rtr r).1
      = (resolve_import_default default (peer.remote_as ≠ local_as)).to_decision := by
  unfold initial_import_policy
  cases role with
  | none => rfl
  | some role =>
    cases role <;>
      simp [install_otc_import_term, Policy.evaluate, Policy.evaluate_terms, Policy.add_term,
        Policy.new, Condition.matches, Condition.otc_leak, hotc, Action.apply]

theorem rejectsOrMarks_initial_import_policy :
    (initial_import_policy peer local_as role default : Policy A).RejectsOrMarks := by
  intro t ht
  unfold initial_import_policy at ht
  cases role with
  | none => simp [Policy.new] at ht
  | some role =>
    cases role <;> simp [install_otc_import_term, Policy.add_term, Policy.new] at ht <;>
      obtain rfl | rfl := ht <;> simp

/-- The RPKI term of an import policy makes no difference exactly if the default rejects. -/
theorem alike_add_rpki_iff :
    Policy.Alike (initial_import_policy peer local_as role default : Policy A)
        ((initial_import_policy peer local_as role default).add_term
          ⟨.RoaState .Invalid local_as, .Reject⟩)
      ↔ resolve_import_default default (peer.remote_as ≠ local_as) = .Reject := by
  constructor
  · intro halike
    cases hdefault : resolve_import_default default (peer.remote_as ≠ local_as) with
    | Reject => rfl
    | Accept =>
      -- the default route, while the table calls everything invalid
      let rtr : RtrHandle A := fun _ _ _ => .Invalid
      let r : Route A := Route.build ⟨IpAddress.of_bits 0, 0, Nat.zero_le _⟩ .Igp AsPath.new 0
      have haccept := decision_initial_import_policy peer local_as role default rtr r rfl
      have hinvalid := (rejectsOrMarks_initial_import_policy peer local_as role default
        ).rejectsInvalid local_as rtr r rfl
      rw [hdefault] at haccept
      rw [← halike rtr r] at hinvalid
      exact absurd haccept hinvalid
  · intro hdefault rtr r
    refine (Policy.evaluate_add_reject _ _ ?_ rtr r).symm
    rw [default_initial_import_policy, hdefault]

end

namespace DaemonState

/-! ## What the configuration decides -/

/-- The same peers have a policy, and peer by peer the policies are alike. -/
def PoliciesAlike {A : Type} [IpAddress A] (m m' : HashMap IpAddr (Policy A)) : Prop :=
  ∀ ip, Option.Rel Policy.Alike (m.lookup ip) (m'.lookup ip)

theorem option_rel_of_eq {A : Type} [IpAddress A] {p q : Option (Policy A)} (h : p = q) :
    Option.Rel Policy.Alike p q := by
  subst h
  cases p with
  | none => exact .none
  | some policy => exact .some (Policy.Alike.refl policy)

/-- Two daemons are configured alike. -/
structure ConfiguredAlike (s t : DaemonState) : Prop where
  rr_clients : ∀ ip, ip ∈ s.rib.rr_clients ↔ ip ∈ t.rib.rr_clients
  reflects : ∀ ip, (s.adj_ribs_out.lookup ip).map AdjRibOut.reflects
    = (t.adj_ribs_out.lookup ip).map AdjRibOut.reflects
  reflects_v6 : ∀ ip, (s.adj_ribs_out_v6.lookup ip).map AdjRibOut.reflects
    = (t.adj_ribs_out_v6.lookup ip).map AdjRibOut.reflects
  peer_roles : ∀ ip, s.rib.peer_roles.lookup ip = t.rib.peer_roles.lookup ip
  max_prefixes_v4 : ∀ ip, s.peer_max_prefixes_v4.lookup ip = t.peer_max_prefixes_v4.lookup ip
  max_prefixes_v6 : ∀ ip, s.peer_max_prefixes_v6.lookup ip = t.peer_max_prefixes_v6.lookup ip
  max_prefixes_restart : ∀ ip,
    s.peer_max_prefixes_restart.lookup ip = t.peer_max_prefixes_restart.lookup ip
  next_hop_self : ∀ ip, ip ∈ s.rib.next_hop_self_peers ↔ ip ∈ t.rib.next_hop_self_peers
  import_policies : PoliciesAlike s.import_policies t.import_policies
  import_policies_v6 : PoliciesAlike s.import_policies_v6 t.import_policies_v6
  export_policies : PoliciesAlike s.export_policies t.export_policies
  export_policies_v6 : PoliciesAlike s.export_policies_v6 t.export_policies_v6

/-- No peer's import policy accepts an invalid route. -/
def ImportsNoInvalid (s : DaemonState) : Prop :=
  (∀ ip policy, s.import_policies.lookup ip = some policy →
    policy.RejectsInvalid s.rib.local_as) ∧
  ∀ ip policy, s.import_policies_v6.lookup ip = some policy →
    policy.RejectsInvalid s.rib.local_as

end DaemonState

/-! ## The daemon at start-up -/

/-- The configuration file, its peers aside. -/
structure DaemonConfig where
  local_as : Asn
  local_bgp_id : Ipv4Addr
  local_ipv6 : Option Ipv6Addr
  cluster_id : Option UInt32
  confederation_id : Option Asn
  update_senders : HashMap IpAddr UpdateSender
  capabilities : List Capability

namespace DaemonConfig

variable (c : DaemonConfig) (ps₁ ps₂ : List PeerConfig) (p : PeerConfig)

/-- The daemon as it starts with these peers and an RPKI cache. -/
def start (peers : List PeerConfig) : DaemonState :=
  (DaemonState.new c.local_as c.local_bgp_id c.local_ipv6 c.cluster_id c.confederation_id peers
    c.update_senders c.capabilities).install_rpki_import_terms

/-- The peer is configured as a route-reflector client. Only an internal one can be. -/
def client : Bool := p.is_rr_client && p.remote_as == c.local_as

/-- The import default of the peer, for IPv4. -/
def import_default : DefaultAction :=
  resolve_import_default p.import_default (p.remote_as ≠ c.local_as)

def import_default_v6 : DefaultAction :=
  resolve_import_default (p.import_default_v6.or p.import_default) (p.remote_as ≠ c.local_as)

/-- The roles on record, by address. -/
def roles (peers : List PeerConfig) : HashMap IpAddr Role := HashMap.collect
  (peers.filterMap fun q => (effective_role q c.local_as).map (q.address, ·))

/-- The type of a peer's session as the configuration has it. -/
def peer_type : PeerType :=
  config_peer_type c.local_as p.remote_as (p.confederation_member && c.confederation_id.isSome)

/-- The term that RPKI validation puts at the end of every import policy. -/
def rpki_term {A : Type} [IpAddress A] : Term A := ⟨.RoaState .Invalid c.local_as, .Reject⟩

theorem mem_rr_clients_start (peers : List PeerConfig) (ip : IpAddr) :
    ip ∈ (c.start peers).rib.rr_clients ↔ ∃ q ∈ peers, c.client q = true ∧ q.address = ip := by
  have h : ip ∈ (c.start peers).rib.rr_clients
      ↔ ip ∈ (peers.filter fun q => c.client q).map (·.address) := HashSet.mem_ofList
  rw [h, List.mem_map]
  simp [and_assoc]

theorem is_rr_start (peers : List PeerConfig) : (c.start peers).is_rr = peers.any c.client := by
  rw [Bool.eq_iff_iff, List.any_eq_true, DaemonState.is_rr, Bool.not_eq_true',
    List.isEmpty_eq_false_iff_exists_mem]
  constructor
  · rintro ⟨ip, hip⟩
    obtain ⟨q, hq, hclient, -⟩ := (c.mem_rr_clients_start peers ip).1 hip
    exact ⟨q, hq, hclient⟩
  · rintro ⟨q, hq, hclient⟩
    exact ⟨q.address, (c.mem_rr_clients_start peers q.address).2 ⟨q, hq, hclient, rfl⟩⟩

/-! ## The same peer listed in the file

One lemma a map: the entry of `p` is its own, and every other entry is as without `p`. -/

section

variable (hnew : ∀ q ∈ ps₁ ++ ps₂, q.address ≠ p.address)
include hnew

theorem lookup_roles_with (ip : IpAddr) :
    (c.roles (ps₁ ++ p :: ps₂)).lookup ip
      = if ip = p.address then effective_role p c.local_as
        else (c.roles (ps₁ ++ ps₂)).lookup ip :=
  HashMap.lookup_collect_with _ _ _ ps₁ ps₂ p hnew (fun _ _ => rfl) ip

theorem lookup_roles_self :
    (c.roles (ps₁ ++ p :: ps₂)).lookup p.address = effective_role p c.local_as := by
  rw [c.lookup_roles_with ps₁ ps₂ p hnew, if_pos rfl]

/-- The roles of the other peers do not depend on `p`. -/
theorem lookup_roles_other (q : PeerConfig) (hq : q ∈ ps₁ ++ ps₂) :
    (c.roles (ps₁ ++ p :: ps₂)).lookup q.address = (c.roles (ps₁ ++ ps₂)).lookup q.address := by
  rw [c.lookup_roles_with ps₁ ps₂ p hnew, if_neg (hnew q hq)]

theorem lookup_by_role {V : Type} (f : PeerConfig → Option Role → V) (ip : IpAddr) :
    (HashMap.collect ((ps₁ ++ p :: ps₂).map fun q =>
        (q.address, f q ((c.roles (ps₁ ++ p :: ps₂)).lookup q.address)))).lookup ip
      = if ip = p.address then some (f p (effective_role p c.local_as))
        else (HashMap.collect ((ps₁ ++ ps₂).map fun q =>
          (q.address, f q ((c.roles (ps₁ ++ ps₂)).lookup q.address)))).lookup ip := by
  rw [HashMap.lookup_collect_map_with PeerConfig.address _
    (fun q => f q ((c.roles (ps₁ ++ ps₂)).lookup q.address)) ps₁ ps₂ p hnew
    (fun q hq => by rw [c.lookup_roles_other ps₁ ps₂ p hnew q hq]),
    c.lookup_roles_self ps₁ ps₂ p hnew]

/-- A value that a peer may or may not have: `add_peer` stores it under a fresh address as
`new` would have. -/
theorem lookup_optional {V : Type} (f : PeerConfig → Option V) (added : HashMap IpAddr V)
    (hsome : ∀ v, f p = some v → added = (HashMap.collect
      ((ps₁ ++ ps₂).filterMap fun q => (f q).map (q.address, ·))).insert p.address v)
    (hnone : f p = none → added = HashMap.collect
      ((ps₁ ++ ps₂).filterMap fun q => (f q).map (q.address, ·))) (ip : IpAddr) :
    added.lookup ip = (HashMap.collect
      ((ps₁ ++ p :: ps₂).filterMap fun q => (f q).map (q.address, ·))).lookup ip := by
  rw [HashMap.lookup_collect_with PeerConfig.address f f ps₁ ps₂ p hnew (fun _ _ => rfl) ip]
  cases hf : f p with
  | none =>
    have habsent := HashMap.lookup_collect_none PeerConfig.address f (ps₁ ++ ps₂) p.address hnew
    rw [hnone hf]
    split
    · next hip => rw [hip, habsent]
    · rfl
  | some v =>
    rw [hsome v hf]
    exact HashMap.lookup_insert_ite ..

theorem not_mem_start : p.address ∉ (c.start (ps₁ ++ ps₂)).adj_ribs_in := by
  have hnone := HashMap.lookup_collect_none PeerConfig.address
    (fun q => some (AdjRibIn.new q.address : AdjRibIn Ipv4Addr)) (ps₁ ++ ps₂) p.address hnew
  intro hmem
  obtain ⟨ari, hari⟩ := HashMap.lookup_of_mem hmem
  have hlookup : (c.start (ps₁ ++ ps₂)).adj_ribs_in.lookup p.address = none := by
    change (HashMap.collect ((ps₁ ++ ps₂).map fun q => (q.address, AdjRibIn.new q.address))
      ).lookup p.address = none
    simpa using hnone
  rw [hlookup] at hari
  cases hari

end

/-- The daemon started without `p`, which is then added. -/
def start_and_add (update_sender : UpdateSender) : DaemonState :=
  ((c.start (ps₁ ++ ps₂)).add_peer p update_sender).1

/-! ## The comparison -/

section

variable (update_sender : UpdateSender)

theorem local_as_start_and_add :
    (c.start_and_add ps₁ ps₂ p update_sender).rib.local_as = c.local_as := by
  unfold start_and_add DaemonState.add_peer
  split <;> rfl

variable (hnew : ∀ q ∈ ps₁ ++ ps₂, q.address ≠ p.address)
include hnew

/-- The import policies of a family, `default` being its default in the configuration:
those of the other peers are the same in the two daemons, that of `p` lacks the RPKI term. -/
theorem policiesAlike_import_iff {A : Type} [IpAddress A]
    (default : PeerConfig → Option DefaultAction) :
    DaemonState.PoliciesAlike
        ((HashMap.map_values (·.add_term c.rpki_term) (HashMap.collect
          ((ps₁ ++ ps₂).map fun q => (q.address, (initial_import_policy q c.local_as
            ((c.roles (ps₁ ++ ps₂)).lookup q.address) (default q) : Policy A))))).insert p.address
          (initial_import_policy p c.local_as (effective_role p c.local_as) (default p)))
        (HashMap.map_values (·.add_term c.rpki_term) (HashMap.collect
          ((ps₁ ++ p :: ps₂).map fun q => (q.address, initial_import_policy q c.local_as
            ((c.roles (ps₁ ++ p :: ps₂)).lookup q.address) (default q)))))
      ↔ resolve_import_default (default p) (p.remote_as ≠ c.local_as) = .Reject := by
  rw [← alike_add_rpki_iff (A := A) p c.local_as (effective_role p c.local_as) (default p)]
  unfold DaemonState.PoliciesAlike
  simp only [HashMap.lookup_insert_ite, HashMap.lookup_map_values, c.lookup_by_role ps₁ ps₂ p hnew
    (fun q role => (initial_import_policy q c.local_as role (default q) : Policy A))]
  constructor
  · intro h
    have hself := h p.address
    rw [if_pos rfl, if_pos rfl] at hself
    cases hself with
    | some halike => exact halike
  · intro halike ip
    by_cases hip : ip = p.address
    · rw [if_pos hip, if_pos hip]
      exact .some halike
    · rw [if_neg hip, if_neg hip]
      exact DaemonState.option_rel_of_eq rfl

omit hnew in
/-- Whatever the file lists, no import policy it starts with accepts an invalid route. -/
theorem importsNoInvalid_start (peers : List PeerConfig) : (c.start peers).ImportsNoInvalid := by
  constructor <;>
  · intro ip policy hpolicy
    obtain ⟨initial, hinitial, rfl⟩ := Option.map_eq_some_iff.1
      ((HashMap.lookup_map_values ..).symm.trans hpolicy)
    obtain ⟨q, -, hq⟩ := List.mem_map.1 (HashMap.mem_of_lookup_collect hinitial)
    cases hq
    exact Policy.RejectsOrMarks.rejectsInvalid (rejectsOrMarks_initial_import_policy _ _ _ _) _

omit hnew in
theorem is_rr_with (hclient : c.client p = false) :
    (c.start (ps₁ ++ p :: ps₂)).is_rr = (c.start (ps₁ ++ ps₂)).is_rr := by
  rw [is_rr_start, is_rr_start, List.any_append, List.any_append, List.any_cons, hclient,
    Bool.false_or]

/-- The Adj-RIBs-Out of the two daemons are the same if `p` is no client. -/
theorem lookup_out_with {A : Type} [IpAddress A] [DecidableEq A] (hclient : c.client p = false)
    (ip : IpAddr) :
    ((HashMap.collect ((ps₁ ++ ps₂).map fun q => (q.address,
        make_adj_rib_out (A := A) q.address (c.peer_type q) (c.start (ps₁ ++ ps₂)).is_rr))
      ).insert p.address
        (make_adj_rib_out p.address (c.peer_type p) (c.start (ps₁ ++ ps₂)).is_rr)).lookup ip
      = (HashMap.collect ((ps₁ ++ p :: ps₂).map fun q => (q.address,
        make_adj_rib_out q.address (c.peer_type q) (c.start (ps₁ ++ p :: ps₂)).is_rr))
        ).lookup ip := by
  rw [c.is_rr_with ps₁ ps₂ p hclient, HashMap.lookup_insert_ite]
  exact (HashMap.lookup_collect_map_with PeerConfig.address _ _ ps₁ ps₂ p hnew
    (fun _ _ => rfl) ip).symm

theorem lookup_export_with {A : Type} [IpAddress A] (ip : IpAddr) :
    ((HashMap.collect ((ps₁ ++ ps₂).map fun q => (q.address,
        (initial_export_policy q c.local_as ((c.roles (ps₁ ++ ps₂)).lookup q.address) : Policy A)))
      ).insert p.address
        (initial_export_policy p c.local_as (effective_role p c.local_as))).lookup ip
      = (HashMap.collect ((ps₁ ++ p :: ps₂).map fun q => (q.address,
          initial_export_policy q c.local_as ((c.roles (ps₁ ++ p :: ps₂)).lookup q.address)))
        ).lookup ip := by
  rw [HashMap.lookup_insert_ite]
  exact (c.lookup_by_role ps₁ ps₂ p hnew
    (fun q role => initial_export_policy q c.local_as role) ip).symm

omit hnew in
theorem mem_next_hop_self (ip : IpAddr) :
    (ip ∈ if p.next_hop_self
      then (c.start (ps₁ ++ ps₂)).rib.next_hop_self_peers.add p.address
      else (c.start (ps₁ ++ ps₂)).rib.next_hop_self_peers)
      ↔ ip ∈ (c.start (ps₁ ++ p :: ps₂)).rib.next_hop_self_peers := by
  have hmem : ∀ peers, ip ∈ (c.start peers).rib.next_hop_self_peers
      ↔ ip ∈ (peers.filter (·.next_hop_self)).map (·.address) := fun _ => HashSet.mem_ofList
  cases hself : p.next_hop_self with
  | false => simp [hmem, hself]
  | true =>
    simp only [if_true, HashSet.mem_add, hmem, List.filter_append, List.map_append,
      List.mem_append, List.filter_cons, hself, List.map_cons, List.mem_cons]
    tauto

theorem configuredAlike_iff :
    (c.start_and_add ps₁ ps₂ p update_sender).ConfiguredAlike (c.start (ps₁ ++ p :: ps₂))
      ↔ c.client p = false ∧ c.import_default p = .Reject ∧ c.import_default_v6 p = .Reject := by
  have hfresh := c.not_mem_start ps₁ ps₂ p hnew
  have hv4 := c.policiesAlike_import_iff (A := Ipv4Addr) ps₁ ps₂ p hnew (·.import_default)
  have hv6 := c.policiesAlike_import_iff (A := Ipv6Addr) ps₁ ps₂ p hnew
    fun q => q.import_default_v6.or q.import_default
  rw [start_and_add, DaemonState.add_peer, if_neg hfresh]
  constructor
  · intro h
    refine ⟨?_, hv4.1 h.import_policies, hv6.1 h.import_policies_v6⟩
    -- a client would be on record in the one daemon, and is not in the other
    rw [← Bool.not_eq_true]
    intro hclient
    have hwith := (c.mem_rr_clients_start (ps₁ ++ p :: ps₂) p.address).2 ⟨p, by simp, hclient, rfl⟩
    obtain ⟨q, hq, -, haddr⟩ := (c.mem_rr_clients_start _ _).1 ((h.rr_clients p.address).2 hwith)
    exact hnew q hq haddr
  · rintro ⟨hclient, hdefault, hdefault_v6⟩
    constructor
    case rr_clients =>
      intro ip
      have hrr : ip ∈ (c.start (ps₁ ++ ps₂)).rib.rr_clients
          ↔ ip ∈ (c.start (ps₁ ++ p :: ps₂)).rib.rr_clients := by
        rw [mem_rr_clients_start, mem_rr_clients_start]
        simp [or_and_right, exists_or, hclient]
      exact hrr
    case reflects => exact fun ip => congrArg _ (c.lookup_out_with ps₁ ps₂ p hnew hclient ip)
    case reflects_v6 => exact fun ip => congrArg _ (c.lookup_out_with ps₁ ps₂ p hnew hclient ip)
    case peer_roles =>
      have hlocal : (c.start (ps₁ ++ ps₂)).rib.local_as = c.local_as := rfl
      exact lookup_optional ps₁ ps₂ p hnew (effective_role · c.local_as) _
        (fun v hv => by simp only [hlocal, hv]; rfl) (fun hv => by simp only [hlocal, hv]; rfl)
    case max_prefixes_v4 =>
      exact lookup_optional ps₁ ps₂ p hnew (·.max_prefixes_v4) _
        (fun v hv => by simp only [hv]; rfl) (fun hv => by simp only [hv]; rfl)
    case max_prefixes_v6 =>
      exact lookup_optional ps₁ ps₂ p hnew (·.max_prefixes_v6) _
        (fun v hv => by simp only [hv]; rfl) (fun hv => by simp only [hv]; rfl)
    case max_prefixes_restart =>
      refine lookup_optional ps₁ ps₂ p hnew (·.max_prefixes_restart.filter (0 < ·)) _
        (fun v hv => ?_) (fun hv => ?_)
      · rw [hv]
        rfl
      · rw [hv]
        rfl
    case next_hop_self => exact c.mem_next_hop_self ps₁ ps₂ p
    case import_policies => exact hv4.2 hdefault
    case import_policies_v6 => exact hv6.2 hdefault_v6
    case export_policies =>
      intro ip
      exact DaemonState.option_rel_of_eq (c.lookup_export_with ps₁ ps₂ p hnew ip)
    case export_policies_v6 =>
      intro ip
      exact DaemonState.option_rel_of_eq (c.lookup_export_with ps₁ ps₂ p hnew ip)

omit hnew in
/-- Configured like the daemon that lists `p`, the daemon accepts no invalid route. -/
theorem importsNoInvalid_of_alike (halike :
      (c.start_and_add ps₁ ps₂ p update_sender).ConfiguredAlike (c.start (ps₁ ++ p :: ps₂))) :
    (c.start_and_add ps₁ ps₂ p update_sender).ImportsNoInvalid := by
  have hstart := c.importsNoInvalid_start (ps₁ ++ p :: ps₂)
  have hlocal := c.local_as_start_and_add ps₁ ps₂ p update_sender
  constructor
  · intro ip policy hpolicy rtr r hinvalid
    have hrel := halike.import_policies ip
    rw [hpolicy] at hrel
    generalize hother : (c.start (ps₁ ++ p :: ps₂)).import_policies.lookup ip = other at hrel
    cases hrel with
    | some hpq =>
      rw [hpq rtr r]
      rw [hlocal] at hinvalid
      exact hstart.1 ip _ hother rtr r hinvalid
  · intro ip policy hpolicy rtr r hinvalid
    have hrel := halike.import_policies_v6 ip
    rw [hpolicy] at hrel
    generalize hother : (c.start (ps₁ ++ p :: ps₂)).import_policies_v6.lookup ip = other at hrel
    cases hrel with
    | some hpq =>
      rw [hpq rtr r]
      rw [hlocal] at hinvalid
      exact hstart.2 ip _ hother rtr r hinvalid

/-- **An added peer is configured like a listed one if and only if** it is no
route-reflector client and its import defaults reject. Then no import policy of either
daemon accepts an invalid route. -/
theorem start_and_add_like_start_iff :
    ((c.start_and_add ps₁ ps₂ p update_sender).ConfiguredAlike (c.start (ps₁ ++ p :: ps₂)) ∧
        (c.start_and_add ps₁ ps₂ p update_sender).ImportsNoInvalid ∧
        (c.start (ps₁ ++ p :: ps₂)).ImportsNoInvalid)
      ↔ c.client p = false ∧ c.import_default p = .Reject ∧ c.import_default_v6 p = .Reject := by
  rw [← c.configuredAlike_iff ps₁ ps₂ p update_sender hnew]
  constructor
  · rintro ⟨halike, -⟩
    exact halike
  · intro halike
    exact ⟨halike, c.importsNoInvalid_of_alike ps₁ ps₂ p update_sender halike,
      c.importsNoInvalid_start _⟩

end

/-- AS 65001 at 10.0.0.1. -/
def small : DaemonConfig := ⟨65001, Ipv4Addr.new 10 0 0 1, none, none, none, ∅, []⟩

/-- An external peer without any policy, added next to an internal one: default deny
(RFC 8212) makes up for the missing term. -/
theorem silent_peer_like_start :
    (small.start_and_add [open_peer 2 65001] [] ⟨peer_addr 3, 65003, none, none, none, false,
        false, false, none, none, none, none⟩ ⟨100, [], []⟩).ConfiguredAlike
      (small.start [open_peer 2 65001, ⟨peer_addr 3, 65003, none, none, none, false, false, false,
        none, none, none, none⟩]) :=
  ((start_and_add_like_start_iff small [open_peer 2 65001] [] _ ⟨100, [], []⟩
    (by decide)).2 (by decide)).1

/-- An internal peer with the default policies of one, as `AddPeer` can bring it. -/
def late_peer : PeerConfig where
  address := peer_addr 3
  remote_as := 65001

/-- Added to a running daemon, the peer has an import policy that accepts a route which the RPKI
table calls invalid. Listed in the file it has one that rejects the route. -/
theorem late_peer_unlike_start :
    let route := Route.build (Nlri.v4 192 0 2 0 24) .Igp (AsPath.from_sequence [65003]) 0
    (((small.start_and_add [open_peer 2 65001] [] late_peer ⟨256, [], []⟩).import_policies.lookup
        (peer_addr 3)).map fun policy => (policy.evaluate (fun _ _ _ => .Invalid) route).1)
          = some .Accept ∧
      ((small.start [open_peer 2 65001, late_peer]).import_policies.lookup (peer_addr 3)).map
        (fun policy => (policy.evaluate (fun _ _ _ => .Invalid) route).1) = some .Reject := by
  decide +kernel

end DaemonConfig

end Pathvector

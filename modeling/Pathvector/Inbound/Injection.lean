/-
# Attributes from outside

LOCAL_PREF, ORIGINATOR_ID and CLUSTER_LIST have a meaning inside an AS only, and what an external
peer says in them should make no difference. Two messages of such a peer that differ in nothing else
are compared here, with everything the daemon makes of them.

LOCAL_PREF is dropped in the attribute loop. The other two are not looked at either, with one
exception: the IPv4 loop stores them in the route (`raw_route_v4`). From there they go to the
internal peers. So the messages come to the same just if no IPv4 route is taken from them, or they
agree in these two attributes.
-/
import Pathvector.Inbound.Reception

set_option autoImplicit false

namespace Pathvector

/-! ## Messages that differ in internal attributes -/

/-- The attribute has a meaning inside an AS only. -/
def PathAttribute.is_internal : PathAttribute → Bool
  | .LocalPref _ | .OriginatorId _ | .ClusterList _ => true
  | _ => false

/-- The attributes without the internal ones. -/
def external_attributes (attributes : List PathAttribute) : List PathAttribute :=
  attributes.filter fun a => !a.is_internal

namespace UpdateMessage

/-- The messages differ in internal attributes at most. -/
structure SameOutside (m m' : UpdateMessage) : Prop where
  withdrawn : m.withdrawn = m'.withdrawn
  announced : m.announced = m'.announced
  attributes : external_attributes m.attributes = external_attributes m'.attributes

/-- With attributes other than MP_UNREACH_NLRI, ORIGIN and AS_PATH are there (RFC 7606, sections
3(d) and 5.2). More is not asked of a message here. -/
def WellFormed (m : UpdateMessage) : Prop :=
  has_non_unreach_attr m = true →
    (∃ o, .Origin o ∈ m.attributes) ∧ ∃ p, .AsPath p ∈ m.attributes

/-- The attributes of reflection that the daemon reads out of an external peer's message. -/
def reflection (m : UpdateMessage) : Option Ipv4Addr × List UInt32 :=
  let a := UpdateAttrs.collect .External m.attributes
  (a.originator_id, a.cluster_list)

end UpdateMessage

/-! ## The attribute loop -/

namespace UpdateAttrs

/-- The attributes without those of reflection. -/
def plain (a : UpdateAttrs) : UpdateAttrs := { a with originator_id := none, cluster_list := [] }

theorem plain_scan_of_internal (a : UpdateAttrs) {x : PathAttribute} (h : x.is_internal = true) :
    (scan .External a x).plain = a.plain := by
  cases x with
  | LocalPref | OriginatorId | ClusterList => rfl
  | _ => cases h

theorem plain_scan (peer_type : PeerType) (a : UpdateAttrs) (x : PathAttribute) :
    (scan peer_type a x).plain = (scan peer_type a.plain x).plain := by
  cases x with
  | LocalPref | Unknown =>
    simp only [scan]
    split <;> rfl
  | MpReachNlri | MpUnreachNlri =>
    simp only [scan]
    split
    · rfl
    · split <;> rfl
  | _ => rfl

/-- The attribute loop reads the same out of both messages, but for reflection. -/
theorem plain_collect {m m' : UpdateMessage} (h : m.SameOutside m') :
    (collect .External m.attributes).plain = (collect .External m'.attributes).plain := by
  have hfilter := fun attrs => foldl_scan_filter .External (v := plain)
    (fun a x hx => plain_scan_of_internal a hx) (plain_scan .External) attrs (a := {}) (b := {}) rfl
  have hattrs := h.attributes
  unfold external_attributes at hattrs
  unfold collect
  rw [hfilter m.attributes, hfilter m'.attributes, hattrs]

theorem eq_of_plain {a b : UpdateAttrs} (h : a.plain = b.plain)
    (hid : a.originator_id = b.originator_id) (hlist : a.cluster_list = b.cluster_list) :
    a = b := by
  have hback : ∀ a : UpdateAttrs, a = { a.plain with
      originator_id := a.originator_id, cluster_list := a.cluster_list } := fun _ => rfl
  rw [hback a, hback b, h, hid, hlist]

theorem congr_of_plain {β : Type} {a b : UpdateAttrs} (h : a.plain = b.plain) (f : UpdateAttrs → β)
    (hf : ∀ a, f a.plain = f a) : f a = f b := by
  rw [← hf a, h, hf b]

end UpdateAttrs

/-! ## What else is read off the attributes -/

namespace UpdateMessage.SameOutside

variable {m m' : UpdateMessage}

section

variable (h : m.SameOutside m')
include h

theorem flatMap {β : Type} (f : PathAttribute → List β)
    (hf : ∀ a, a.is_internal = true → f a = []) :
    m.attributes.flatMap f = m'.attributes.flatMap f := by
  have hdrop : ∀ l : List PathAttribute, l.flatMap f = (external_attributes l).flatMap f := by
    intro l
    induction l with
    | nil => rfl
    | cons a l ih =>
      unfold external_attributes
      rw [List.flatMap_cons, List.filter_cons, ih]
      cases ha : a.is_internal with
      | true => rw [hf a ha]; rfl
      | false => rfl
  rw [hdrop, h.attributes, ← hdrop]

theorem reached_v4 : m.reached_v4 = m'.reached_v4 :=
  h.flatMap _ fun a ha => by cases a <;> first | rfl | cases ha

theorem reached_v6 : m.reached_v6 = m'.reached_v6 :=
  h.flatMap _ fun a ha => by cases a <;> first | rfl | cases ha

theorem unreached_v4 : m.unreached_v4 = m'.unreached_v4 :=
  h.flatMap _ fun a ha => by cases a <;> first | rfl | cases ha

theorem unreached_v6 : m.unreached_v6 = m'.unreached_v6 :=
  h.flatMap _ fun a ha => by cases a <;> first | rfl | cases ha

theorem affected : m.affected = m'.affected := by
  unfold UpdateMessage.affected
  rw [h.withdrawn, h.announced]
  congr 1
  exact h.flatMap _ fun a ha => by cases a <;> first | rfl | cases ha

theorem affected_v6 : m.affected_v6 = m'.affected_v6 :=
  h.flatMap _ fun a ha => by cases a <;> first | rfl | cases ha

theorem mem {a : PathAttribute} (ha : a ∈ m.attributes) (hex : a.is_internal = false) :
    a ∈ m'.attributes := by
  have hmem : a ∈ external_attributes m.attributes := List.mem_filter.2 ⟨ha, by rw [hex]; rfl⟩
  rw [h.attributes] at hmem
  exact (List.mem_filter.1 hmem).1

theorem reachable : has_reachable_nlri_on_wire m = has_reachable_nlri_on_wire m' := by
  have hany : ∀ {p : PathAttribute → Bool}, (∀ a, p a = true → a.is_internal = false) →
      ∀ {m m' : UpdateMessage}, m.SameOutside m' → m.attributes.any p = true →
        m'.attributes.any p = true := by
    intro p hex m m' h hm
    obtain ⟨a, ha, hp⟩ := List.any_eq_true.1 hm
    exact List.any_eq_true.2 ⟨a, h.mem ha (hex a hp), hp⟩
  have hsymm : m'.SameOutside m := ⟨h.withdrawn.symm, h.announced.symm, h.attributes.symm⟩
  unfold has_reachable_nlri_on_wire
  rw [h.announced]
  congr 1
  refine Bool.eq_iff_iff.2 ⟨hany ?_ h, hany ?_ hsymm⟩
  all_goals
    intro a hp
    cases a <;> first | rfl | cases hp

/-- With both messages well formed, both have attributes other than MP_UNREACH_NLRI or they are the
same message. -/
theorem cases (hm : m.WellFormed) (hm' : m'.WellFormed) :
    m = m' ∨ has_non_unreach_attr m = true ∧ has_non_unreach_attr m' = true := by
  have hsymm : m'.SameOutside m := ⟨h.withdrawn.symm, h.announced.symm, h.attributes.symm⟩
  -- an ORIGIN is not internal, so the other message has it
  have hother : ∀ {m m' : UpdateMessage}, m.SameOutside m' → m.WellFormed →
      has_non_unreach_attr m = true → has_non_unreach_attr m' = true := by
    intro m m' h hm hattr
    obtain ⟨⟨o, ho⟩, -⟩ := hm hattr
    exact List.any_eq_true.2 ⟨_, h.mem ho rfl, rfl⟩
  have hbare : ∀ m : UpdateMessage, has_non_unreach_attr m = false →
      external_attributes m.attributes = m.attributes := by
    intro m hattr
    refine List.filter_eq_self.2 fun a ha => ?_
    have hun := List.any_eq_false.1 hattr a ha
    cases a with
    | MpUnreachNlri mp => rfl
    | _ => exact absurd rfl hun
  cases hattr : has_non_unreach_attr m with
  | true => exact .inr ⟨rfl, hother h hm hattr⟩
  | false =>
    have hattr' : has_non_unreach_attr m' = false := by
      rw [← Bool.not_eq_true]
      intro ht
      rw [hother hsymm hm' ht] at hattr
      cases hattr
    left
    have hattributes : m.attributes = m'.attributes := by
      rw [← hbare m hattr, h.attributes, hbare m' hattr']
    obtain ⟨_, _, _⟩ := m'
    obtain ⟨rfl, rfl, -⟩ := h
    cases hattributes
    rfl

end

end UpdateMessage.SameOutside

/-- A message with attributes other than MP_UNREACH_NLRI is no End-of-RIB marker. -/
theorem not_eor_of_non_unreach {m : UpdateMessage} (h : has_non_unreach_attr m = true) :
    m.is_eor_v4 = false ∧ m.is_eor_v6 = false := by
  rw [← Bool.not_eq_true, ← Bool.not_eq_true, ← not_or]
  intro heor
  obtain ⟨a, ha, hun⟩ := List.any_eq_true.1 h
  rw [(names_of_eor heor).2.2 a ha] at hun
  cases hun

/-! ## The operations of the two messages -/

section

variable (env : ImportEnv) (m : UpdateMessage) (a : UpdateAttrs)

/-- What the IPv4 loop takes in, before the routes are made. -/
def usable_entries : List (Nlri Ipv4Addr × Option NextHop) :=
  if well_formed env m a && !looped env a then
    (m.announced.map (·, a.next_hop) ++ a.mp_v4_announced.map fun e => (e.1, some e.2)).filter
      fun e => !bad_next_hop_v4 env e.2
  else []

/-- The withdrawals of a message. -/
def withdrawals_v4 : List (Nlri Ipv4Addr) :=
  m.withdrawn ++ (treated_v4 env m a ++ m.unreached_v4)

theorem filterMap_usable {α β : Type} (skip : α → Bool) (f : α → β) (l : List α) :
    l.filterMap (fun e => if skip e then none else some (f e))
      = (l.filter fun e => !skip e).map f := by
  induction l with
  | nil => rfl
  | cons e l ih =>
    rw [List.filterMap_cons, List.filter_cons]
    cases skip e with
    | true => exact ih
    | false => exact congrArg (_ :: ·) ih

theorem intake_v4_eq :
    intake_v4 env m =
      (withdrawals_v4 env m (UpdateAttrs.collect env.peer_type m.attributes)).map .Withdraw ++
        (usable_entries env m (UpdateAttrs.collect env.peer_type m.attributes)).map fun e =>
          .Announce
            (raw_route_v4 env (UpdateAttrs.collect env.peer_type m.attributes) e.1 e.2) := by
  unfold intake_v4 withdrawals_v4 usable_entries
  dsimp only
  generalize UpdateAttrs.collect env.peer_type m.attributes = a
  rw [List.map_append, List.map_append, List.append_assoc, List.append_assoc]
  congr 3
  cases hw : well_formed env m a with
  | false => rfl
  | true =>
    cases hl : looped env a with
    | true =>
      rw [routes_v4_of_looped hl]
      rfl
    | false =>
      have hl' : (a.has_loop env.local_as env.confederation_id || a.has_as_zero) = false := by
        rw [Bool.or_comm]
        exact hl
      rw [routes_v4, hl', if_neg Bool.false_ne_true, filterMap_usable, if_pos rfl]
      exact List.map_map

end

section

variable {env : ImportEnv} {m m' : UpdateMessage}

theorem intake_of_sameOutside (hexternal : env.peer_type = .External) (h : m.SameOutside m') :
    intake_v6 env m = intake_v6 env m' ∧
      withdrawals_v4 env m (UpdateAttrs.collect env.peer_type m.attributes)
        = withdrawals_v4 env m' (UpdateAttrs.collect env.peer_type m'.attributes) ∧
      usable_entries env m (UpdateAttrs.collect env.peer_type m.attributes)
        = usable_entries env m' (UpdateAttrs.collect env.peer_type m'.attributes) := by
  have hplain := UpdateAttrs.plain_collect h
  unfold intake_v6 withdrawals_v4 usable_entries treated_v4 treated_v6 well_formed
  rw [hexternal, h.withdrawn, h.announced, h.reached_v4, h.reached_v6, h.unreached_v4,
    h.unreached_v6]
  dsimp only
  generalize UpdateAttrs.collect .External m.attributes = a at *
  generalize UpdateAttrs.collect .External m'.attributes = b at *
  -- each of these functions is the same for an argument without reflection
  have hm : ∀ announced, mandatory_missing announced a = mandatory_missing announced b :=
    fun announced => UpdateAttrs.congr_of_plain hplain (mandatory_missing announced) fun _ => rfl
  have hc := UpdateAttrs.congr_of_plain hplain (confed_error env) fun _ => rfl
  have hl := UpdateAttrs.congr_of_plain hplain (looped env) fun _ => rfl
  have hu := UpdateAttrs.congr_of_plain hplain (usable_v6 env) fun _ => rfl
  have hn := UpdateAttrs.congr_of_plain hplain UpdateAttrs.next_hop fun _ => rfl
  have h4 := UpdateAttrs.congr_of_plain hplain UpdateAttrs.mp_v4_announced fun _ => rfl
  rw [hm, hc, hl, hu, hn, h4]
  exact ⟨rfl, rfl, rfl⟩

theorem notification_of_sameOutside (hexternal : env.peer_type = .External) (h : m.SameOutside m')
    (hm : has_non_unreach_attr m = true) (hm' : has_non_unreach_attr m' = true)
    (v4 : ImportState Ipv4Addr) (v6 : ImportState Ipv6Addr) :
    (handle_update env m v4 v6).notification = (handle_update env m' v4 v6).notification := by
  have hplain := UpdateAttrs.plain_collect h
  unfold handle_update
  rw [hexternal]
  dsimp only
  generalize UpdateAttrs.collect .External m.attributes = a at *
  generalize UpdateAttrs.collect .External m'.attributes = b at *
  have hstart : start_update env m a v4 v6 = start_update env m' b v4 v6 := by
    have h4 := UpdateAttrs.congr_of_plain hplain UpdateAttrs.mp_v4_announced fun _ => rfl
    have h6 := UpdateAttrs.congr_of_plain hplain UpdateAttrs.mp_v6_announced fun _ => rfl
    unfold start_update
    rw [h.withdrawn, h.announced, h4, h6]
  have hmand : ∀ u, check_mandatory env m a u = check_mandatory env m' b u := by
    intro u
    have hmissing := UpdateAttrs.congr_of_plain hplain missing_path_attr fun _ => rfl
    have hn := UpdateAttrs.congr_of_plain hplain UpdateAttrs.next_hop fun _ => rfl
    unfold check_mandatory
    rw [hmissing, hn, h.reachable, hm, hm']
  have hdrop : ∀ u, drop_looped env a u = drop_looped env b u := fun u =>
    UpdateAttrs.congr_of_plain hplain (fun a => drop_looped env a u) fun _ => rfl
  have hconfed : ∀ u, check_confed env m a u = check_confed env m' b u := by
    intro u
    have hpath := UpdateAttrs.congr_of_plain hplain UpdateAttrs.has_as_path fun _ => rfl
    have hmal := UpdateAttrs.congr_of_plain hplain (malformed_confed env) fun _ => rfl
    unfold check_confed
    rw [hpath, hmal, h.reachable]
  unfold check_update
  rw [hstart, hmand, hdrop, hconfed]
  rfl

end

theorem reflection_raw_route_v4 (env : ImportEnv) (a : UpdateAttrs) (n : Nlri Ipv4Addr)
    (next_hop : Option NextHop) :
    (raw_route_v4 env a n next_hop).rare_or_default.originator_id = a.originator_id ∧
      (raw_route_v4 env a n next_hop).rare_or_default.cluster_list = a.cluster_list := by
  unfold raw_route_v4
  split
  · exact ⟨rfl, rfl⟩
  next h =>
    rw [Bool.not_eq_true, Bool.or_eq_false_iff, Bool.not_eq_false', List.isEmpty_iff,
      Option.isSome_eq_false_iff, Option.isNone_iff_eq_none] at h
    rw [h.1, h.2]
    unfold built_route Route.rare_or_default UpdateAttrs.rare
    split <;> exact ⟨rfl, rfl⟩

namespace DaemonState

/-! ## The outcome -/

/-- The daemon is in the same state as far as routes go: what it has heard, what it uses, what it
has told the kernel layer, and what it sends to the peers other than one. -/
structure SameOutcome (t t' : DaemonState) (peer_ip : IpAddr) : Prop where
  adj_ribs_in : t.adj_ribs_in = t'.adj_ribs_in
  adj_ribs_in_v6 : t.adj_ribs_in_v6 = t'.adj_ribs_in_v6
  loc_rib : t.rib.loc_rib = t'.rib.loc_rib
  loc_rib_v6 : t.rib.loc_rib_v6 = t'.rib.loc_rib_v6
  fib : t.fib_manager = t'.fib_manager
  messages : ∀ q, q ≠ peer_ip →
    t.flush_pending.update_senders.lookup q = t'.flush_pending.update_senders.lookup q

/-- An IPv4 route is taken from the message. -/
def TakesRoute (s : DaemonState) (clk : Clock) (peer_ip : IpAddr) (m : UpdateMessage) : Prop :=
  s.Configured peer_ip ∧ ∃ raw, .Announce raw ∈ intake_v4 (s.env_of clk peer_ip) m

section

variable {s : DaemonState} {clk : Clock} {peer_ip ip : IpAddr} {m m' : UpdateMessage}

theorem on_route_update_external (hp : s.peer_type ip = .External)
    (hm : has_non_unreach_attr m = true) :
    s.on_route_update clk ip m = s.on_update_message clk ip m := by
  obtain ⟨h4, h6⟩ := not_eor_of_non_unreach hm
  have hrr : ¬s.Reflected ip := fun h => by cases hp.symm.trans h.2
  unfold on_route_update
  rw [h4, h6, rr_inbound_of_not_reflected hrr]
  rfl

/-- What a message comes to is in the tables and the NOTIFICATION of `handle_update`. -/
theorem on_update_message_congr (h : m.SameOutside m') {u u' : PendingUpdate}
    (hu : s.handled clk ip m = some u) (hu' : s.handled clk ip m' = some u')
    (h4 : u.v4 = u'.v4) (h6 : u.v6 = u'.v6) (hn : u.notification = u'.notification) :
    s.on_update_message clk ip m = s.on_update_message clk ip m' := by
  have himported : s.imported ip m u = s.imported ip m' u' := by
    unfold imported
    rw [h4, h6, h.announced, h.reached_v6]
  have hlimit : ∀ t : DaemonState, t.exceeds_limit ip u = t.exceeds_limit ip u' := by
    intro t
    unfold exceeds_limit
    rw [h4, h6]
  have hpublish : ∀ t : DaemonState, t.publish_update clk m u = t.publish_update clk m' u' := by
    intro t
    unfold publish_update update_calls
    rw [h4, h6, h.affected, h.affected_v6]
  unfold on_update_message
  rw [hu, hu']
  dsimp only
  rw [himported, hlimit, hpublish, hn]

theorem adj_ribs_in_on_update_message {u : PendingUpdate} (hu : s.handled clk ip m = some u) :
    (s.on_update_message clk ip m).1.adj_ribs_in.lookup ip = some u.v4.adj_rib_in := by
  have hlookup : (s.imported ip m u).adj_ribs_in.lookup ip = some u.v4.adj_rib_in :=
    AList.lookup_insert _
  unfold on_update_message
  rw [hu]
  dsimp only
  split
  · unfold idle_hold
    split <;> exact hlookup
  · obtain ⟨_, _, _, _, _, _, _, _, hframe⟩ :=
      publish_update_frame (s.imported ip m u) clk m u
    rw [hframe]
    exact hlookup

/-- **Attributes from outside.** Two well-formed messages of an external peer that differ in
LOCAL_PREF, ORIGINATOR_ID and CLUSTER_LIST only come to the same, if and only if no IPv4 route is
taken from them or they agree in ORIGINATOR_ID and CLUSTER_LIST. -/
theorem internal_attributes_iff (s : DaemonState) (clk : Clock) (peer_ip : IpAddr)
    (m m' : UpdateMessage) (hp : s.peer_type peer_ip = .External) (h : m.SameOutside m')
    (hm : m.WellFormed) (hm' : m'.WellFormed) :
    SameOutcome (s.on_route_update clk peer_ip m).1 (s.on_route_update clk peer_ip m').1 peer_ip ↔
      (s.TakesRoute clk peer_ip m → m.reflection = m'.reflection) := by
  rcases h.cases hm hm' with rfl | ⟨hattr, hattr'⟩
  · exact iff_of_true ⟨rfl, rfl, rfl, rfl, rfl, fun _ _ => rfl⟩ fun _ => rfl
  rw [on_route_update_external hp hattr, on_route_update_external hp hattr']
  by_cases hconf : s.Configured peer_ip
  swap
  · -- nobody listens
    refine iff_of_true ?_ fun ht => absurd ht.1 hconf
    unfold on_update_message
    rw [handled_of_not_configured hconf, handled_of_not_configured hconf]
    exact ⟨rfl, rfl, rfl, rfl, rfl, fun _ _ => rfl⟩
  have hexternal : (s.env_of clk peer_ip).peer_type = .External := hp
  obtain ⟨h6, hwithdraw, hentries⟩ := intake_of_sameOutside hexternal h
  have h4 := intake_v4_eq (s.env_of clk peer_ip) m
  have h4' := intake_v4_eq (s.env_of clk peer_ip) m'
  rw [← hwithdraw, ← hentries] at h4'
  have hu := handled_of_configured hconf clk m
  have hu' := handled_of_configured hconf clk m'
  have heq := s.tables_update_of clk peer_ip
  generalize usable_entries (s.env_of clk peer_ip) m _ = entries at h4 h4'
  generalize withdrawals_v4 (s.env_of clk peer_ip) m _ = withdrawn at h4 h4'
  constructor
  · rintro hsame ⟨-, raw, hraw⟩
    -- the last route of the message is in the Adj-RIB-In, with its attributes of reflection
    have hne : entries ≠ [] := by
      rintro rfl
      rw [h4] at hraw
      simp at hraw
    have hari := hsame.adj_ribs_in
    have hlookup := congrArg (AList.lookup peer_ip) hari
    rw [adj_ribs_in_on_update_message hu, adj_ribs_in_on_update_message hu', Option.some.injEq,
      (heq m).1, (heq m').1, (ImportState.take_all_tables ..).1, (ImportState.take_all_tables ..).1,
      h4, h4', List.foldl_append, List.foldl_append] at hlookup
    obtain ⟨init, e, rfl⟩ := List.eq_nil_or_concat entries |>.resolve_left hne
    rw [List.concat_eq_append, List.map_append, List.map_append, List.foldl_append,
      List.foldl_append] at hlookup
    have hget := congrArg (·.get e.1) hlookup
    simp only [List.map_cons, List.map_nil, List.foldl_cons, List.foldl_nil, AdjRibIn.hear,
      AdjRibIn.get_insert, nlri_raw_route_v4, if_true, Option.some.injEq] at hget
    have hr := reflection_raw_route_v4 (s.env_of clk peer_ip)
      (UpdateAttrs.collect (s.env_of clk peer_ip).peer_type m.attributes) e.1 e.2
    have hr' := reflection_raw_route_v4 (s.env_of clk peer_ip)
      (UpdateAttrs.collect (s.env_of clk peer_ip).peer_type m'.attributes) e.1 e.2
    rw [hget, hr'.1, hr'.2, hexternal] at hr
    exact Prod.ext hr.1.symm hr.2.symm
  · intro hagree
    have hops : intake_v4 (s.env_of clk peer_ip) m = intake_v4 (s.env_of clk peer_ip) m' := by
      rw [h4, h4']
      cases entries with
      | nil => rfl
      | cons e entries =>
        have htakes : s.TakesRoute clk peer_ip m :=
          ⟨hconf, _, by
            rw [h4]
            exact List.mem_append_right _ List.mem_cons_self⟩
        have hreflection := hagree htakes
        have hsame := UpdateAttrs.eq_of_plain (UpdateAttrs.plain_collect h)
          (congrArg Prod.fst hreflection) (congrArg Prod.snd hreflection)
        rw [hexternal, hsame]
    have hstate := on_update_message_congr h hu hu' (by rw [(heq m).1, (heq m').1, hops])
      (by rw [(heq m).2, (heq m').2, h6])
      (notification_of_sameOutside hexternal h hattr hattr' _ _)
    rw [hstate]
    exact ⟨rfl, rfl, rfl, rfl, rfl, fun _ _ => rfl⟩

end

/-! ## An external and an internal peer -/

/-- AS 65001 with an external peer, 10.0.0.2, and an internal one, 10.0.0.3. -/
def border : DaemonState :=
  (small_daemon [open_peer 2 65002, open_peer 3 65001] none []).run
    [session_up 2 .External [], session_up 3 .Internal []]

/-- An announcement of 10.0.0.2, with one attribute more. -/
def announcement_with (extra : List PathAttribute) : UpdateMessage :=
  { announcement [65002] [Nlri.v4 10 2 0 0 16] with
    attributes := (announcement [65002] [Nlri.v4 10 2 0 0 16]).attributes ++ extra }

theorem sameOutside_announcement_with {x : PathAttribute} (h : x.is_internal = true) :
    (announcement_with []).SameOutside (announcement_with [x]) := by
  refine ⟨rfl, rfl, ?_⟩
  simp only [announcement_with, external_attributes, List.filter_append, List.filter_cons, h]
  rfl

theorem wellFormed_announcement_with (extra : List PathAttribute) :
    (announcement_with extra).WellFormed := by
  refine fun _ => ⟨⟨.Igp, ?_⟩, ⟨AsPath.from_sequence [65002], ?_⟩⟩ <;>
  · apply List.mem_append_left
    simp [announcement]

/-- A LOCAL_PREF makes no difference. -/
theorem local_pref_ignored :
    SameOutcome (border.on_route_update ⟨0, 0⟩ (peer_addr 2) (announcement_with [])).1
      (border.on_route_update ⟨0, 0⟩ (peer_addr 2) (announcement_with [.LocalPref 500])).1
      (peer_addr 2) :=
  (internal_attributes_iff border ⟨0, 0⟩ (peer_addr 2) (announcement_with [])
    (announcement_with [.LocalPref 500]) (by decide) (sameOutside_announcement_with rfl)
    (wellFormed_announcement_with _) (wellFormed_announcement_with _)).2 fun _ => rfl

/-- An ORIGINATOR_ID does: the internal peer is sent it. -/
theorem originator_id_injected :
    border.Reachable ∧ border.peer_type (peer_addr 2) = .External ∧
      (announcement_with []).SameOutside
        (announcement_with [.OriginatorId (Ipv4Addr.new 9 9 9 9)]) ∧
      (announcement_with []).WellFormed ∧
      (announcement_with [.OriginatorId (Ipv4Addr.new 9 9 9 9)]).WellFormed ∧
      ¬ SameOutcome (border.on_route_update ⟨0, 0⟩ (peer_addr 2) (announcement_with [])).1
        (border.on_route_update ⟨0, 0⟩ (peer_addr 2)
          (announcement_with [.OriginatorId (Ipv4Addr.new 9 9 9 9)])).1 (peer_addr 2) := by
  refine ⟨reachable_small_daemon .., by decide, sameOutside_announcement_with rfl,
    wellFormed_announcement_with _, wellFormed_announcement_with _, fun h => ?_⟩
  have hsent := congrArg (Option.map UpdateSender.sent) (h.messages (peer_addr 3) (by decide))
  revert hsent
  decide +kernel

end DaemonState

end Pathvector

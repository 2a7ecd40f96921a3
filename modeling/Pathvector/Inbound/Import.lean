/-
# The checks of an import

What `handle_update` collects from the attributes of a message, and what its checks make of the
announcements. A route that is taken in replaces the sender's candidate, takes it out, or leaves
it alone; which of the three is its `verdict`.
-/
import Pathvector.Daemon.Frame

set_option autoImplicit false

namespace Pathvector

namespace ImportState

variable {A : Type} [IpAddress A]

/-- What taking in a route does to the sender's candidate: `some none` takes it out,
`some (some r)` replaces it by `r`, and `none` leaves it alone. -/
def verdict (policy : Policy A) (rtr : RtrHandle A) (raw : Route A) : Option (Option (Route A)) :=
  if raw.is_blackhole then some none
  else
    match policy.evaluate rtr raw with
    | (.Accept, route) => some (some route)
    | _ => none

end ImportState

/-! ## The attributes of a message -/

namespace UpdateAttrs

variable (pt : PeerType)

theorem scan_mp (a : UpdateAttrs) (attr : PathAttribute) :
    (scan pt a attr).mp_v4_announced.map Prod.fst
        = a.mp_v4_announced.map Prod.fst ++ (attr.reach .IPV4_UNICAST).filterMap Prefix.v4?
      ∧ (scan pt a attr).mp_v6_announced.map Prod.fst
        = a.mp_v6_announced.map Prod.fst ++ (attr.reach .IPV6_UNICAST).filterMap Prefix.v6?
      ∧ (scan pt a attr).mp_v4_withdrawn
        = a.mp_v4_withdrawn ++ (attr.unreach .IPV4_UNICAST).filterMap Prefix.v4?
      ∧ (scan pt a attr).mp_v6_withdrawn
        = a.mp_v6_withdrawn ++ (attr.unreach .IPV6_UNICAST).filterMap Prefix.v6? := by
  have hne : AfiSafi.IPV4_UNICAST ≠ AfiSafi.IPV6_UNICAST := by decide
  cases attr with
  | MpReachNlri mp =>
    simp only [scan, PathAttribute.reach, PathAttribute.unreach]
    by_cases h4 : mp.afi_safi = .IPV4_UNICAST
    · simp [h4, hne, Function.comp_def]
    · by_cases h6 : mp.afi_safi = .IPV6_UNICAST
      · simp [h6, hne.symm, Function.comp_def]
      · simp [h4, h6]
  | MpUnreachNlri mp =>
    simp only [scan, PathAttribute.reach, PathAttribute.unreach]
    by_cases h4 : mp.afi_safi = .IPV4_UNICAST
    · simp [h4, hne]
    · by_cases h6 : mp.afi_safi = .IPV6_UNICAST
      · simp [h6, hne.symm]
      · simp [h4, h6]
  | LocalPref lp =>
    simp only [scan]
    split <;> simp [PathAttribute.reach, PathAttribute.unreach]
  | Unknown flags type_code value =>
    simp only [scan]
    split <;> simp [PathAttribute.reach, PathAttribute.unreach]
  | _ => simp [scan, PathAttribute.reach, PathAttribute.unreach]

theorem foldl_scan_mp (attrs : List PathAttribute) (a : UpdateAttrs) :
    (attrs.foldl (scan pt) a).mp_v4_announced.map Prod.fst
        = a.mp_v4_announced.map Prod.fst
          ++ attrs.flatMap (fun x => (x.reach .IPV4_UNICAST).filterMap Prefix.v4?)
      ∧ (attrs.foldl (scan pt) a).mp_v6_announced.map Prod.fst
        = a.mp_v6_announced.map Prod.fst
          ++ attrs.flatMap (fun x => (x.reach .IPV6_UNICAST).filterMap Prefix.v6?)
      ∧ (attrs.foldl (scan pt) a).mp_v4_withdrawn
        = a.mp_v4_withdrawn
          ++ attrs.flatMap (fun x => (x.unreach .IPV4_UNICAST).filterMap Prefix.v4?)
      ∧ (attrs.foldl (scan pt) a).mp_v6_withdrawn
        = a.mp_v6_withdrawn
          ++ attrs.flatMap (fun x => (x.unreach .IPV6_UNICAST).filterMap Prefix.v6?) := by
  induction attrs generalizing a with
  | nil => simp
  | cons x xs ih =>
    obtain ⟨h4, h6, w4, w6⟩ := ih (scan pt a x)
    obtain ⟨s4, s6, t4, t6⟩ := scan_mp pt a x
    rw [List.foldl_cons]
    refine ⟨?_, ?_, ?_, ?_⟩
    · rw [h4, s4, List.flatMap_cons, List.append_assoc]
    · rw [h6, s6, List.flatMap_cons, List.append_assoc]
    · rw [w4, t4, List.flatMap_cons, List.append_assoc]
    · rw [w6, t6, List.flatMap_cons, List.append_assoc]

/-- Attributes that a view of what is collected does not show make no difference to it. -/
theorem foldl_scan_filter {v : UpdateAttrs → UpdateAttrs} {drop : PathAttribute → Bool}
    (hdrop : ∀ a x, drop x = true → v (scan pt a x) = v a)
    (hscan : ∀ a x, v (scan pt a x) = v (scan pt (v a) x)) (attrs : List PathAttribute)
    {a b : UpdateAttrs} (h : v a = v b) :
    v (attrs.foldl (scan pt) a) = v ((attrs.filter fun x => !drop x).foldl (scan pt) b) := by
  induction attrs generalizing a b with
  | nil => exact h
  | cons x attrs ih =>
    rw [List.foldl_cons, List.filter_cons]
    cases hx : drop x with
    | true => exact ih ((hdrop a x hx).trans h)
    | false =>
      refine ih ?_
      rw [hscan a, h, ← hscan b]

variable (msg : UpdateMessage)

theorem collect_reached_v4 :
    (collect pt msg.attributes).mp_v4_announced.map Prod.fst = msg.reached_v4 :=
  (foldl_scan_mp pt msg.attributes {}).1

theorem collect_reached_v6 :
    (collect pt msg.attributes).mp_v6_announced.map Prod.fst = msg.reached_v6 :=
  (foldl_scan_mp pt msg.attributes {}).2.1

theorem collect_unreached_v4 : (collect pt msg.attributes).mp_v4_withdrawn = msg.unreached_v4 :=
  (foldl_scan_mp pt msg.attributes {}).2.2.1

theorem collect_unreached_v6 : (collect pt msg.attributes).mp_v6_withdrawn = msg.unreached_v6 :=
  (foldl_scan_mp pt msg.attributes {}).2.2.2

theorem collect_has_origin (attrs : List PathAttribute) (h : ∀ o, .Origin o ∉ attrs) :
    (collect pt attrs).has_origin = false := by
  refine List.foldl_invariant (scan pt) (fun a => a.has_origin = false) attrs {} rfl ?_
  intro a attr hmem ha
  cases attr with
  | Origin o => exact absurd hmem (h o)
  | LocalPref lp | Unknown flags type_code value =>
    simp only [scan]
    split <;> exact ha
  | MpReachNlri mp | MpUnreachNlri mp =>
    simp only [scan]
    split
    · exact ha
    · split <;> exact ha
  | _ => exact ha

theorem collect_has_as_path (attrs : List PathAttribute) (h : ∀ p, .AsPath p ∉ attrs) :
    (collect pt attrs).has_as_path = false := by
  refine List.foldl_invariant (scan pt) (fun a => a.has_as_path = false) attrs {} rfl ?_
  intro a attr hmem ha
  cases attr with
  | AsPath p => exact absurd hmem (h p)
  | LocalPref lp | Unknown flags type_code value =>
    simp only [scan]
    split <;> exact ha
  | MpReachNlri mp | MpUnreachNlri mp =>
    simp only [scan]
    split
    · exact ha
    · split <;> exact ha
  | _ => exact ha

end UpdateAttrs

/-! ## A message that announces nothing -/

/-- The message has no prefix of a supported family to announce. -/
def UpdateMessage.NothingAnnounced (msg : UpdateMessage) : Prop :=
  msg.announced = [] ∧ msg.reached_v4 = [] ∧ msg.reached_v6 = []

/-- A message with a prefix in an MP_REACH_NLRI has reachable NLRI on the wire. -/
theorem has_reachable_of_reach {msg : UpdateMessage} {family : AfiSafi} {attr : PathAttribute}
    {x : Prefix} (hattr : attr ∈ msg.attributes) (hx : x ∈ attr.reach family) :
    has_reachable_nlri_on_wire msg = true := by
  rw [has_reachable_nlri_on_wire, Bool.or_eq_true, List.any_eq_true]
  refine .inr ⟨attr, hattr, ?_⟩
  cases attr with
  | MpReachNlri mp =>
    simp only [PathAttribute.reach] at hx
    split at hx
    · simp [List.ne_nil_of_mem hx]
    · cases hx
  | _ => cases hx

theorem nothingAnnounced_of_unreachable {msg : UpdateMessage}
    (h : has_reachable_nlri_on_wire msg = false) : msg.NothingAnnounced := by
  have hreach : ∀ family, ∀ a ∈ msg.attributes, a.reach family = [] := by
    intro family a ha
    refine List.eq_nil_iff_forall_not_mem.2 fun x hx => ?_
    rw [has_reachable_of_reach ha hx] at h
    cases h
  refine ⟨?_, List.flatMap_eq_nil_iff.2 fun a ha => ?_, List.flatMap_eq_nil_iff.2 fun a ha => ?_⟩
  · rw [has_reachable_nlri_on_wire, Bool.or_eq_false_iff] at h
    simpa using h.1
  · rw [hreach _ a ha]
    rfl
  · rw [hreach _ a ha]
    rfl

/-- Without announcements the checks of `handle_update` only decide on a NOTIFICATION. -/
theorem check_update_of_nothing (env : ImportEnv) (msg : UpdateMessage) (a : UpdateAttrs)
    (u : PendingUpdate) (ha : u.announced = []) (h4 : u.mp_v4_announced = [])
    (h6 : u.mp_v6_announced = []) :
    ∃ n, check_update env msg a u = { u with notification := n } := by
  have hany : u.any_announced = false := by simp [PendingUpdate.any_announced, ha, h4, h6]
  have hmand : ∃ n, check_mandatory env msg a u = { u with notification := n } := by
    simp only [check_mandatory, hany, Bool.false_eq_true, if_false]
    split
    · exact ⟨_, rfl⟩
    · split
      · split <;> exact ⟨_, rfl⟩
      · exact ⟨_, rfl⟩
  obtain ⟨n, hn⟩ := hmand
  have hdrop : drop_looped env a { u with notification := n } = { u with notification := n } := by
    have hany' : ({ u with notification := n } : PendingUpdate).any_announced = false := hany
    simp [drop_looped, hany']
  rw [check_update, hn, hdrop, check_confed]
  split
  · split
    · -- treat-as-withdraw of nothing
      refine ⟨n, ?_⟩
      simp [PendingUpdate.treat_as_withdraw, ha, h4, h6, ImportState.withdraw_all]
    · exact ⟨_, rfl⟩
  · exact ⟨n, rfl⟩

theorem handle_update_of_nothing (env : ImportEnv) (msg : UpdateMessage)
    (v4 : ImportState Ipv4Addr) (v6 : ImportState Ipv6Addr) (h : msg.NothingAnnounced) :
    (handle_update env msg v4 v6).v4
        = (v4.withdraw_all env.peer env.oracle_v4 msg.withdrawn).withdraw_all env.peer
            env.oracle_v4 msg.unreached_v4
      ∧ (handle_update env msg v4 v6).v6
        = v6.withdraw_all env.peer env.oracle_v6 msg.unreached_v6 := by
  obtain ⟨ha, h4, h6⟩ := h
  rw [← UpdateAttrs.collect_reached_v4 env.peer_type, List.map_eq_nil_iff] at h4
  rw [← UpdateAttrs.collect_reached_v6 env.peer_type, List.map_eq_nil_iff] at h6
  obtain ⟨n, hn⟩ := check_update_of_nothing env msg
    (UpdateAttrs.collect env.peer_type msg.attributes)
    (start_update env msg (UpdateAttrs.collect env.peer_type msg.attributes) v4 v6) ha h4 h6
  rw [handle_update, hn]
  simp only [import_routes, routes_v4, routes_v6, start_update, ha, h4, h6,
    UpdateAttrs.collect_unreached_v4, UpdateAttrs.collect_unreached_v6, List.map_nil,
    List.append_nil, List.filterMap_nil, ite_self]
  exact ⟨rfl, rfl⟩

/-! ## A message that announces something

Before the announcement loops run, a message can lose its announcements in two ways. They
are withdrawn, when a mandatory attribute is missing or the AS_PATH is malformed, or they
are dropped, when the AS_PATH loops. The check for loops comes between the other two and
drops the multiprotocol announcements only, so what it drops is not withdrawn by the last
check. -/

section

variable (env : ImportEnv) (announced : List (Nlri Ipv4Addr)) (a : UpdateAttrs)

/-- A mandatory attribute is missing from a message with announcements. -/
def mandatory_missing : Bool :=
  ((missing_path_attr a).or
    (if !announced.isEmpty && a.next_hop.isNone then some 3 else none)).isSome

/-- The AS_PATH has AS 0 or ourselves in it. -/
def looped : Bool :=
  a.has_as_zero || a.has_loop env.local_as env.confederation_id

/-- The AS_PATH is there and malformed for a confederation. -/
def confed_error : Bool :=
  a.has_as_path && malformed_confed env a

/-- What `drop_looped` leaves of the announcements. -/
def PendingUpdate.dropped (u : PendingUpdate) : PendingUpdate :=
  if looped env a then { u with mp_v4_announced := [], mp_v6_announced := [] } else u

theorem treat_as_withdraw_twice (u : PendingUpdate) :
    (u.treat_as_withdraw env).treat_as_withdraw env = u.treat_as_withdraw env := by
  simp [PendingUpdate.treat_as_withdraw, ImportState.withdraw_all]

/-- The checks of `handle_update` on a message with announcements. -/
theorem check_update_of_announced (msg : UpdateMessage) (a : UpdateAttrs) (u : PendingUpdate)
    (hany : u.any_announced = true) (hreach : has_reachable_nlri_on_wire msg = true)
    (hn : u.notification = none) :
    check_update env msg a u =
      if mandatory_missing u.announced a then u.treat_as_withdraw env
      else if confed_error env a then (u.dropped env a).treat_as_withdraw env
      else u.dropped env a := by
  have hmand : check_mandatory env msg a u
      = if mandatory_missing u.announced a then u.treat_as_withdraw env else u := by
    rw [check_mandatory, if_pos hany]
    rfl
  rw [check_update, hmand]
  by_cases hm : mandatory_missing u.announced a = true
  · -- everything is withdrawn already, and the other checks find nothing
    rw [if_pos hm, if_pos hm]
    have hempty : (u.treat_as_withdraw env).any_announced = false := rfl
    have hdrop : drop_looped env a (u.treat_as_withdraw env) = u.treat_as_withdraw env := by
      rw [drop_looped, hempty, Bool.and_false, if_neg Bool.false_ne_true]
    rw [hdrop, check_confed, if_pos hreach, treat_as_withdraw_twice, ite_self]
  · rw [if_neg hm, if_neg hm]
    have hdrop : drop_looped env a u = u.dropped env a := by
      rw [drop_looped, hany, Bool.and_true]
      rfl
    have hnd : (u.dropped env a).notification = none := by
      unfold PendingUpdate.dropped
      split <;> exact hn
    rw [hdrop, check_confed, if_pos hreach, hnd, Option.isNone_none, Bool.and_true]
    rfl

/-- An announced IPv4 prefix is withdrawn because of an error in the message. -/
def treated_as_withdraw_v4 (p : Nlri Ipv4Addr) : Bool :=
  mandatory_missing announced a
    || (confed_error env a && (decide (p ∈ announced) || !looped env a))

def treated_as_withdraw_v6 : Bool :=
  mandatory_missing announced a || (confed_error env a && !looped env a)

/-- The IPv6 routes the announcement loop takes in when nothing is withdrawn. -/
def usable_v6 : List (Route Ipv6Addr) :=
  if looped env a then [] else routes_v6 env a a.mp_v6_announced

theorem routes_v4_of_looped {env : ImportEnv} {a : UpdateAttrs} (h : looped env a = true)
    (announced : List (Nlri Ipv4Addr)) (mp : List (Nlri Ipv4Addr × NextHop)) :
    routes_v4 env a announced mp = [] := by
  rw [routes_v4, if_pos]
  rw [Bool.or_comm]
  exact h

@[simp]
theorem routes_v4_nil : routes_v4 env a [] [] = [] := by
  simp [routes_v4]

end

end Pathvector

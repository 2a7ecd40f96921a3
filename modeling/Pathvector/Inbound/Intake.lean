/-
# An UPDATE as a list of operations

Whatever checks a message passes or fails, `handle_update` ends up withdrawing some prefixes
and then taking in some routes, in each family. `intake_v4` and `intake_v6` read these
operations off the message, and the theorems here say that `handle_update` runs them and does
nothing else. What an operation does to the Loc-RIB (`rib_op`) depends on the import policy; a
route that the policy does not accept is an operation without effect.
-/
import Pathvector.Inbound.Import
import Pathvector.Rib.Operations

set_option autoImplicit false

namespace Pathvector

/-- What a message has the daemon do with one prefix. -/
inductive ImportOp (A : Type) [IpAddress A] where
  | Withdraw (nlri : Nlri A)
  | Announce (raw : Route A)

section

variable {A : Type} [IpAddress A] [DecidableEq A]

def ImportOp.nlri : ImportOp A → Nlri A
  | .Withdraw n => n
  | .Announce raw => raw.nlri

/-- The change to the Loc-RIB. -/
def ImportOp.rib_op (policy : Policy A) (rtr : RtrHandle A) : ImportOp A → Option (RibOp A)
  | .Withdraw n => some (.Drop n)
  | .Announce raw =>
    match ImportState.verdict policy rtr raw with
    | some (some route) => some (.Put route)
    | some none => some (.Drop raw.nlri)
    | none => none

/-- The change to the Adj-RIB-In, which does not depend on the policy. -/
def AdjRibIn.hear (ari : AdjRibIn A) : ImportOp A → AdjRibIn A
  | .Withdraw n => ari.withdraw n
  | .Announce raw => ari.insert raw

namespace ImportState

variable (peer : PeerId) (oracle : NextHopOracle) (policy : Policy A) (rtr : RtrHandle A)

/-- One operation on the tables of a family. -/
def take (st : ImportState A) : ImportOp A → ImportState A
  | .Withdraw n => st.withdraw peer oracle n
  | .Announce raw => st.announce peer oracle policy rtr raw

/-- The operations of a message on the tables of a family. -/
def take_all (st : ImportState A) (ops : List (ImportOp A)) : ImportState A :=
  ops.foldl (take peer oracle policy rtr) st

section

variable (st : ImportState A) (l : List (Nlri A)) (ops : List (ImportOp A))

theorem take_all_withdraw :
    st.take_all peer oracle policy rtr (l.map .Withdraw ++ ops)
      = (st.withdraw_all peer oracle l).take_all peer oracle policy rtr ops := by
  unfold take_all withdraw_all
  rw [List.foldl_append, List.foldl_map]
  rfl

theorem take_all_announce (raws : List (Route A)) :
    st.take_all peer oracle policy rtr (raws.map .Announce)
      = st.announce_all peer oracle policy rtr raws := by
  unfold take_all announce_all
  rw [List.foldl_map]
  rfl

theorem take_tables (op : ImportOp A) :
    (st.take peer oracle policy rtr op).adj_rib_in = st.adj_rib_in.hear op ∧
      ((st.take peer oracle policy rtr op).loc_rib, (st.take peer oracle policy rtr op).fib_changes)
        = (op.rib_op policy rtr).elim (st.loc_rib, st.fib_changes)
          (LocRib.op_step peer oracle (st.loc_rib, st.fib_changes)) ∧
      ∀ n ∈ (st.take peer oracle policy rtr op).blackhole_withdrawn,
        n ∈ st.blackhole_withdrawn ∨ n = op.nlri := by
  cases op with
  | Withdraw m =>
    refine ⟨rfl, rfl, fun n hn => ?_⟩
    have hn' : n ∈ (if (st.adj_rib_in.get m).any Route.is_blackhole
      then st.blackhole_withdrawn ++ [m] else st.blackhole_withdrawn) := hn
    split at hn'
    · rcases List.mem_append.1 hn' with h | h
      · exact .inl h
      · exact .inr (List.mem_singleton.1 h)
    · exact .inl hn'
  | Announce raw =>
    show (st.announce peer oracle policy rtr raw).adj_rib_in = _ ∧
      ((st.announce peer oracle policy rtr raw).loc_rib,
        (st.announce peer oracle policy rtr raw).fib_changes) = _ ∧ _
    unfold announce take ImportOp.rib_op verdict announce
    by_cases hb : raw.is_blackhole = true
    · simp only [if_pos hb]
      exact ⟨rfl, rfl, fun n hn => .inl hn⟩
    · simp only [if_neg hb]
      generalize policy.evaluate rtr raw = d
      rcases d with ⟨_ | _ | _, route⟩
      · exact ⟨rfl, rfl, fun n hn => .inl hn⟩
      · exact ⟨rfl, rfl, fun n hn => .inl hn⟩
      · exact ⟨rfl, rfl, fun n hn => .inl hn⟩

/-- **The operations of a message, read in the three tables.** -/
theorem take_all_tables :
    (st.take_all peer oracle policy rtr ops).adj_rib_in = ops.foldl AdjRibIn.hear st.adj_rib_in ∧
      ((st.take_all peer oracle policy rtr ops).loc_rib,
          (st.take_all peer oracle policy rtr ops).fib_changes)
        = (ops.filterMap (ImportOp.rib_op policy rtr)).foldl (LocRib.op_step peer oracle)
          (st.loc_rib, st.fib_changes) ∧
      ∀ n ∈ (st.take_all peer oracle policy rtr ops).blackhole_withdrawn,
        n ∈ st.blackhole_withdrawn ∨ ∃ op ∈ ops, op.nlri = n := by
  induction ops generalizing st with
  | nil => exact ⟨rfl, rfl, fun n hn => .inl hn⟩
  | cons op ops ih =>
    obtain ⟨hin, hrib, hbh⟩ := st.take_tables peer oracle policy rtr op
    obtain ⟨ihin, ihrib, ihbh⟩ := ih (st.take peer oracle policy rtr op)
    have hcons : st.take_all peer oracle policy rtr (op :: ops)
        = (st.take peer oracle policy rtr op).take_all peer oracle policy rtr ops := rfl
    rw [hcons]
    refine ⟨?_, ?_, fun n hn => ?_⟩
    · rw [ihin, hin]
      rfl
    · rw [ihrib, hrib, List.filterMap_cons]
      cases op.rib_op policy rtr <;> rfl
    · rcases ihbh n hn with h | ⟨o, ho, h⟩
      · rcases hbh n h with h | h
        · exact .inl h
        · exact .inr ⟨op, List.mem_cons_self .., h.symm⟩
      · exact .inr ⟨o, List.mem_cons_of_mem _ ho, h⟩

end

end ImportState

omit [DecidableEq A] in
/-- An announcement becomes a withdrawal, or the insertion of what the policy makes of it. -/
theorem ImportOp.rib_op_announce_iff {policy : Policy A} {rtr : RtrHandle A} {raw : Route A}
    {op : RibOp A} : (Announce raw).rib_op policy rtr = some op ↔
      raw.is_blackhole = true ∧ .Drop raw.nlri = op ∨ raw.is_blackhole = false ∧
        ∃ route, policy.evaluate rtr raw = (.Accept, route) ∧ .Put route = op := by
  unfold rib_op ImportState.verdict
  cases hb : raw.is_blackhole with
  | true => simp [hb]
  | false => rcases hd : policy.evaluate rtr raw with ⟨_ | _ | _, route⟩ <;> simp [hb, hd]

omit [DecidableEq A] in
theorem ImportOp.nlri_rib_op {policy : Policy A} {rtr : RtrHandle A} {op : ImportOp A}
    {r : RibOp A} (h : op.rib_op policy rtr = some r) : r.nlri = op.nlri := by
  cases op with
  | Withdraw n =>
    cases h
    rfl
  | Announce raw =>
    have hkeep := Policy.nlri_evaluate rtr policy raw
    obtain ⟨-, rfl⟩ | ⟨-, route, heval, rfl⟩ := rib_op_announce_iff.1 h
    · rfl
    · rw [heval] at hkeep
      exact hkeep

end

/-! ## The operations of a message -/

section

variable (env : ImportEnv) (msg : UpdateMessage) (a : UpdateAttrs)

/-- The IPv4 prefixes a message announces but has withdrawn, because of an error in it. -/
def treated_v4 : List (Nlri Ipv4Addr) :=
  if mandatory_missing msg.announced a then msg.announced ++ msg.reached_v4
  else if confed_error env a then
    msg.announced ++ if looped env a then [] else msg.reached_v4
  else []

def treated_v6 : List (Nlri Ipv6Addr) :=
  if mandatory_missing msg.announced a then msg.reached_v6
  else if confed_error env a then if looped env a then [] else msg.reached_v6
  else []

/-- The message is in order as far as its attributes go. -/
def well_formed : Bool :=
  !mandatory_missing msg.announced a && !confed_error env a

/-- The IPv4 operations of a message. -/
def intake_v4 : List (ImportOp Ipv4Addr) :=
  let a := UpdateAttrs.collect env.peer_type msg.attributes
  msg.withdrawn.map .Withdraw ++ ((treated_v4 env msg a).map .Withdraw ++
    (msg.unreached_v4.map .Withdraw ++
      (if well_formed env msg a then routes_v4 env a msg.announced a.mp_v4_announced
        else []).map .Announce))

def intake_v6 : List (ImportOp Ipv6Addr) :=
  let a := UpdateAttrs.collect env.peer_type msg.attributes
  (treated_v6 env msg a).map .Withdraw ++ (msg.unreached_v6.map .Withdraw ++
    (if well_formed env msg a then usable_v6 env a else []).map .Announce)

theorem intake_of_nothing {msg : UpdateMessage} (h : msg.NothingAnnounced) :
    intake_v4 env msg = (msg.withdrawn ++ msg.unreached_v4).map .Withdraw ∧
      intake_v6 env msg = msg.unreached_v6.map .Withdraw := by
  obtain ⟨ha, h4, h6⟩ := h
  have hc4 := UpdateAttrs.collect_reached_v4 env.peer_type msg
  have hc6 := UpdateAttrs.collect_reached_v6 env.peer_type msg
  rw [h4, List.map_eq_nil_iff] at hc4
  rw [h6, List.map_eq_nil_iff] at hc6
  simp [intake_v4, intake_v6, treated_v4, treated_v6, usable_v6, routes_v6, ha, h4, h6, hc4, hc6]

/-- **`handle_update` runs the operations of the message.** -/
theorem handle_update_eq (v4 : ImportState Ipv4Addr) (v6 : ImportState Ipv6Addr) :
    (handle_update env msg v4 v6).v4
        = v4.take_all env.peer env.oracle_v4 env.policy env.rpki_v4 (intake_v4 env msg) ∧
      (handle_update env msg v4 v6).v6
        = v6.take_all env.peer env.oracle_v6 env.policy_v6 env.rpki_v6 (intake_v6 env msg) := by
  by_cases hnothing : msg.NothingAnnounced
  · -- only withdrawals
    rw [(handle_update_of_nothing env msg v4 v6 hnothing).1,
      (handle_update_of_nothing env msg v4 v6 hnothing).2, (intake_of_nothing env hnothing).1,
      (intake_of_nothing env hnothing).2, List.map_append, ImportState.take_all_withdraw]
    unfold ImportState.take_all
    rw [List.foldl_map, List.foldl_map]
    exact ⟨rfl, rfl⟩
  · have hreach4 := UpdateAttrs.collect_reached_v4 env.peer_type msg
    have hreach6 := UpdateAttrs.collect_reached_v6 env.peer_type msg
    have hun4 := UpdateAttrs.collect_unreached_v4 env.peer_type msg
    have hun6 := UpdateAttrs.collect_unreached_v6 env.peer_type msg
    have hreachable : has_reachable_nlri_on_wire msg = true := by
      rw [← Bool.not_eq_false]
      exact fun h => hnothing (nothingAnnounced_of_unreachable h)
    unfold handle_update intake_v4 intake_v6
    generalize UpdateAttrs.collect env.peer_type msg.attributes = a at *
    have hany : (start_update env msg a v4 v6).any_announced = true := by
      by_contra hno
      unfold PendingUpdate.any_announced start_update at hno
      simp only [Bool.or_eq_true, Bool.not_eq_true', List.isEmpty_eq_false_iff, not_or,
        not_not] at hno
      rw [hno.1.2] at hreach4
      rw [hno.2] at hreach6
      exact hnothing ⟨hno.1.1, hreach4.symm, hreach6.symm⟩
    simp only [ImportState.take_all_withdraw, ImportState.take_all_announce]
    rw [check_update_of_announced env msg a _ hany hreachable rfl]
    unfold treated_v4 treated_v6 well_formed import_routes PendingUpdate.dropped usable_v6
    by_cases hm : mandatory_missing msg.announced a = true
    · simp only [hm, if_true, Bool.not_true, Bool.false_and, Bool.false_eq_true, if_false,
        PendingUpdate.treat_as_withdraw, start_update, routes_v4_nil, hreach4, hreach6, hun4, hun6]
      exact ⟨trivial, rfl⟩
    · by_cases hc : confed_error env a = true
      · by_cases hl : looped env a = true
        · simp only [hm, hc, hl, if_true, Bool.not_true, Bool.and_false, Bool.false_eq_true,
            if_false, PendingUpdate.treat_as_withdraw, start_update, routes_v4_nil, hun4, hun6,
            List.map_nil, List.append_nil]
          exact ⟨trivial, rfl⟩
        · simp only [hm, hc, hl, if_true, Bool.not_true, Bool.and_false, Bool.false_eq_true,
            if_false, PendingUpdate.treat_as_withdraw, start_update, routes_v4_nil, hreach4,
            hreach6, hun4, hun6]
          exact ⟨trivial, rfl⟩
      · by_cases hl : looped env a = true
        · simp only [hm, hc, hl, if_true, Bool.not_false, Bool.and_true, Bool.false_eq_true,
            if_false, start_update, routes_v4_of_looped hl, hun4, hun6]
          exact ⟨rfl, rfl⟩
        · simp only [hm, hc, hl, if_true, Bool.not_false, Bool.and_true, Bool.false_eq_true,
            if_false, start_update, hun4, hun6]
          exact ⟨rfl, rfl⟩

end

/-! ## Every operation is about a prefix the message names -/

theorem mp_prefixes_of_reach {family : AfiSafi} {a : PathAttribute} {x : Prefix}
    (h : x ∈ a.reach family) : x ∈ a.mp_prefixes family := by
  cases a with
  | MpReachNlri mp => exact h
  | _ => cases h

theorem mp_prefixes_of_unreach {family : AfiSafi} {a : PathAttribute} {x : Prefix}
    (h : x ∈ a.unreach family) : x ∈ a.mp_prefixes family := by
  cases a with
  | MpUnreachNlri mp => exact h
  | _ => cases h

section

variable {msg : UpdateMessage}
variable {n : Nlri Ipv4Addr} {raw : Route Ipv4Addr} {a : UpdateAttrs}

section

variable {env : ImportEnv}

theorem affected_of_reached (h : n ∈ msg.reached_v4) : n ∈ msg.affected := by
  obtain ⟨a, ha, hn⟩ := List.mem_flatMap.1 h
  obtain ⟨x, hx, hn⟩ := List.mem_filterMap.1 hn
  exact List.mem_append_right _ (List.mem_flatMap.2
    ⟨a, ha, List.mem_filterMap.2 ⟨x, mp_prefixes_of_reach hx, hn⟩⟩)

theorem affected_of_unreached (h : n ∈ msg.unreached_v4) : n ∈ msg.affected := by
  obtain ⟨a, ha, hn⟩ := List.mem_flatMap.1 h
  obtain ⟨x, hx, hn⟩ := List.mem_filterMap.1 hn
  exact List.mem_append_right _ (List.mem_flatMap.2
    ⟨a, ha, List.mem_filterMap.2 ⟨x, mp_prefixes_of_unreach hx, hn⟩⟩)

theorem affected_v6_of_reached {n : Nlri Ipv6Addr} (h : n ∈ msg.reached_v6) :
    n ∈ msg.affected_v6 := by
  obtain ⟨a, ha, hn⟩ := List.mem_flatMap.1 h
  obtain ⟨x, hx, hn⟩ := List.mem_filterMap.1 hn
  exact List.mem_flatMap.2 ⟨a, ha, List.mem_filterMap.2 ⟨x, mp_prefixes_of_reach hx, hn⟩⟩

theorem affected_v6_of_unreached {n : Nlri Ipv6Addr} (h : n ∈ msg.unreached_v6) :
    n ∈ msg.affected_v6 := by
  obtain ⟨a, ha, hn⟩ := List.mem_flatMap.1 h
  obtain ⟨x, hx, hn⟩ := List.mem_filterMap.1 hn
  exact List.mem_flatMap.2 ⟨a, ha, List.mem_filterMap.2 ⟨x, mp_prefixes_of_unreach hx, hn⟩⟩

theorem affected_of_withdrawn (h : n ∈ msg.withdrawn) : n ∈ msg.affected :=
  List.mem_append_left _ (List.mem_append_left _ h)

theorem affected_of_announced (h : n ∈ msg.announced) : n ∈ msg.affected :=
  List.mem_append_left _ (List.mem_append_right _ h)

theorem affected_of_treated (h : n ∈ treated_v4 env msg a) : n ∈ msg.affected := by
  unfold treated_v4 at h
  split at h
  · exact (List.mem_append.1 h).elim affected_of_announced affected_of_reached
  · split at h
    · rcases List.mem_append.1 h with h | h
      · exact affected_of_announced h
      · split at h
        · cases h
        · exact affected_of_reached h
    · cases h

theorem affected_v6_of_treated {n : Nlri Ipv6Addr} (h : n ∈ treated_v6 env msg a) :
    n ∈ msg.affected_v6 := by
  unfold treated_v6 at h
  split at h
  · exact affected_v6_of_reached h
  · split at h
    · split at h
      · cases h
      · exact affected_v6_of_reached h
    · cases h

theorem nlri_raw_route_v4 (env : ImportEnv) (a : UpdateAttrs) (n : Nlri Ipv4Addr)
    (next_hop : Option NextHop) : (raw_route_v4 env a n next_hop).nlri = n := by
  unfold raw_route_v4
  split <;> rfl

theorem routes_of_intake_v4 (h : .Announce raw ∈ intake_v4 env msg) :
    raw ∈ routes_v4 env (UpdateAttrs.collect env.peer_type msg.attributes) msg.announced
      (UpdateAttrs.collect env.peer_type msg.attributes).mp_v4_announced := by
  simp only [intake_v4, List.mem_append, List.mem_map, reduceCtorEq, and_false, exists_false,
    false_or, ImportOp.Announce.injEq, exists_eq_right] at h
  split at h
  · exact h
  · cases h

theorem routes_of_intake_v6 {raw : Route Ipv6Addr} (h : .Announce raw ∈ intake_v6 env msg) :
    raw ∈ usable_v6 env (UpdateAttrs.collect env.peer_type msg.attributes) := by
  simp only [intake_v6, List.mem_append, List.mem_map, reduceCtorEq, and_false, exists_false,
    false_or, ImportOp.Announce.injEq, exists_eq_right] at h
  split at h
  · exact h
  · cases h

/-- What is taken in is announced in the message, and carries its attributes. -/
theorem raw_of_intake_v4 (h : .Announce raw ∈ intake_v4 env msg) :
    raw.nlri ∈ msg.announced ++ msg.reached_v4 ∧ ∃ next_hop, raw = raw_route_v4 env
      (UpdateAttrs.collect env.peer_type msg.attributes) raw.nlri next_hop := by
  have hraw := routes_of_intake_v4 h
  unfold routes_v4 at hraw
  split at hraw
  · cases hraw
  · obtain ⟨e, he, hraw⟩ := List.mem_filterMap.1 hraw
    split at hraw
    · cases hraw
    · cases hraw
      rw [nlri_raw_route_v4]
      refine ⟨?_, _, rfl⟩
      rcases List.mem_append.1 he with he | he
      · obtain ⟨n, hn, rfl⟩ := List.mem_map.1 he
        exact List.mem_append_left _ hn
      · obtain ⟨x, hx, rfl⟩ := List.mem_map.1 he
        apply List.mem_append_right
        rw [← UpdateAttrs.collect_reached_v4 env.peer_type]
        exact List.mem_map.2 ⟨x, hx, rfl⟩

/-- What is taken in over IPv6 is announced in the message, and carries its attributes. -/
theorem raw_of_intake_v6 {raw : Route Ipv6Addr} (h : .Announce raw ∈ intake_v6 env msg) :
    raw.nlri ∈ msg.reached_v6 ∧ ∃ next_hop, raw = raw_route_v6 env
      (UpdateAttrs.collect env.peer_type msg.attributes) raw.nlri next_hop := by
  have hraw := routes_of_intake_v6 h
  unfold usable_v6 at hraw
  split at hraw
  · cases hraw
  · obtain ⟨e, he, hraw⟩ := List.mem_filterMap.1 hraw
    split at hraw
    · cases hraw
    · cases hraw
      refine ⟨?_, e.2, rfl⟩
      rw [← UpdateAttrs.collect_reached_v6 env.peer_type]
      exact List.mem_map.2 ⟨e, he, rfl⟩

theorem fresh_intake_v4 (h : .Announce raw ∈ intake_v4 env msg) : raw.stale = false := by
  obtain ⟨-, next_hop, hraw⟩ := raw_of_intake_v4 h
  rw [hraw, raw_route_v4]
  split <;> rfl

theorem fresh_intake_v6 {raw : Route Ipv6Addr} (h : .Announce raw ∈ intake_v6 env msg) :
    raw.stale = false := by
  obtain ⟨-, next_hop, hraw⟩ := raw_of_intake_v6 h
  rw [hraw]
  rfl

theorem intake_v4_affected {op : ImportOp Ipv4Addr} (h : op ∈ intake_v4 env msg) :
    op.nlri ∈ msg.affected := by
  cases op with
  | Announce raw =>
    exact (List.mem_append.1 (raw_of_intake_v4 h).1).elim affected_of_announced affected_of_reached
  | Withdraw n =>
    simp only [intake_v4, List.mem_append, List.mem_map, ImportOp.Withdraw.injEq,
      exists_eq_right, reduceCtorEq, and_false, exists_false, or_false] at h
    rcases h with h | h | h
    · exact affected_of_withdrawn h
    · exact affected_of_treated h
    · exact affected_of_unreached h

theorem intake_v6_affected {op : ImportOp Ipv6Addr} (h : op ∈ intake_v6 env msg) :
    op.nlri ∈ msg.affected_v6 := by
  cases op with
  | Announce raw => exact affected_v6_of_reached (raw_of_intake_v6 h).1
  | Withdraw n =>
    simp only [intake_v6, List.mem_append, List.mem_map, ImportOp.Withdraw.injEq,
      exists_eq_right, reduceCtorEq, and_false, exists_false, or_false] at h
    rcases h with h | h
    · exact affected_v6_of_treated h
    · exact affected_v6_of_unreached h

end

end

/-! ## End-of-RIB markers -/

/-- A marker has at most the empty MP_UNREACH_NLRI for IPv6 in it. -/
theorem names_of_eor {msg : UpdateMessage} (h : msg.is_eor_v4 = true ∨ msg.is_eor_v6 = true) :
    msg.withdrawn = [] ∧ msg.announced = [] ∧
      ∀ a ∈ msg.attributes, a = .MpUnreachNlri ⟨.IPV6_UNICAST, []⟩ := by
  rcases h with h | h
  · simp only [UpdateMessage.is_eor_v4, Bool.and_eq_true, List.isEmpty_iff] at h
    simp [h]
  · simp only [UpdateMessage.is_eor_v6, Bool.and_eq_true, List.isEmpty_iff] at h
    obtain ⟨⟨hw, ha⟩, h⟩ := h
    split at h
    · next mp hattrs =>
      obtain ⟨afi_safi, prefixes⟩ := mp
      rw [Bool.and_eq_true, beq_iff_eq, List.isEmpty_iff] at h
      obtain ⟨rfl, rfl⟩ : afi_safi = .IPV6_UNICAST ∧ prefixes = [] := h
      rw [hattrs]
      exact ⟨hw, ha, fun a hmem => List.mem_singleton.1 hmem⟩
    · cases h

theorem affected_of_eor {msg : UpdateMessage} (h : msg.is_eor_v4 = true ∨ msg.is_eor_v6 = true) :
    msg.affected = [] ∧ msg.affected_v6 = [] := by
  obtain ⟨hw, ha, hattrs⟩ := names_of_eor h
  have hnil : ∀ family, ∀ a ∈ msg.attributes, a.mp_prefixes family = [] := by
    intro family a hmem
    rw [hattrs a hmem]
    simp [PathAttribute.mp_prefixes]
  constructor
  · rw [UpdateMessage.affected, hw, ha]
    exact List.flatMap_eq_nil_iff.2 fun a hmem => by rw [hnil _ a hmem]; rfl
  · exact List.flatMap_eq_nil_iff.2 fun a hmem => by rw [hnil _ a hmem]; rfl

theorem not_eor_of_affected {msg : UpdateMessage}
    (h : (∃ p, p ∈ msg.affected) ∨ ∃ p, p ∈ msg.affected_v6) :
    msg.is_eor_v4 = false ∧ msg.is_eor_v6 = false := by
  rw [← Bool.not_eq_true, ← Bool.not_eq_true, ← not_or]
  intro heor
  obtain ⟨h4, h6⟩ := affected_of_eor heor
  simp [h4, h6] at h

theorem eor_v6_not_v4 {msg : UpdateMessage} (h : msg.is_eor_v6 = true) : msg.is_eor_v4 = false := by
  unfold UpdateMessage.is_eor_v6 at h
  unfold UpdateMessage.is_eor_v4
  simp only [Bool.and_eq_true] at h
  split at h
  · next mp heq => simp [heq]
  · cases h.2

/-! ## Whose messages are imported -/

/-- The messages name the same prefixes. -/
structure UpdateMessage.SamePrefixes (msg msg' : UpdateMessage) : Prop where
  announced : msg'.announced = msg.announced
  withdrawn : msg'.withdrawn = msg.withdrawn
  reached_v4 : msg'.reached_v4 = msg.reached_v4
  reached_v6 : msg'.reached_v6 = msg.reached_v6
  unreached_v4 : msg'.unreached_v4 = msg.unreached_v4
  unreached_v6 : msg'.unreached_v6 = msg.unreached_v6
  affected : msg'.affected = msg.affected
  affected_v6 : msg'.affected_v6 = msg.affected_v6

/-- An attribute that says nothing in a CLUSTER_LIST is read through the reflector's
addition. -/
theorem flatMap_prepend_cluster {β : Type} (f : PathAttribute → List β)
    (hf : ∀ list, f (.ClusterList list) = []) (c : UInt32) (l : List PathAttribute) :
    (prepend_cluster c l).flatMap f = l.flatMap f := by
  fun_induction prepend_cluster c l with
  | case1 => simp [hf]
  | case2 list rest => simp [hf]
  | case3 x rest hx ih => rw [List.flatMap_cons, List.flatMap_cons, ih]

namespace DaemonState

section

variable (s : DaemonState) (clk : Clock) (peer_ip : IpAddr) (msg : UpdateMessage)

/-- The peer is in the maps `on_route_update` needs. -/
def Configured : Prop :=
  peer_ip ∈ s.import_policies ∧ peer_ip ∈ s.import_policies_v6 ∧ peer_ip ∈ s.adj_ribs_in
deriving Decidable

/-- The messages of the peer go through the reflector's inbound processing. -/
def Reflected : Prop :=
  s.is_rr = true ∧ s.peer_type peer_ip = .Internal

/-- The parameters of the import of a peer's messages. Without a policy nothing is let in. -/
def env_of : ImportEnv :=
  s.import_env clk peer_ip ((s.import_policies.lookup peer_ip).getD (Policy.new .Reject))
    ((s.import_policies_v6.lookup peer_ip).getD (Policy.new .Reject))

/-- The attributes of a message, with those a reflector adds to it. -/
def attrs_of : UpdateAttrs :=
  UpdateAttrs.collect (s.peer_type peer_ip) ((s.rr_inbound peer_ip msg).getD msg).attributes

/-- The message gets as far as the import. -/
def Imports : Prop :=
  s.Configured peer_ip ∧ (s.rr_inbound peer_ip msg).isSome

/-- What the import makes of a message. -/
def update_of : PendingUpdate :=
  handle_update (s.env_of clk peer_ip) msg
    (.start ((s.adj_ribs_in.lookup peer_ip).getD (AdjRibIn.new peer_ip)) s.rib.loc_rib)
    (.start ((s.adj_ribs_in_v6.lookup peer_ip).getD (AdjRibIn.new peer_ip)) s.rib.loc_rib_v6)

end

variable {s : DaemonState} {peer_ip ip : IpAddr} {msg msg' : UpdateMessage}

/-- `handle_update` is called exactly for a configured peer. -/
theorem handled_of_configured (h : s.Configured ip) (clk : Clock) (msg : UpdateMessage) :
    s.handled clk ip msg = some (s.update_of clk ip msg) := by
  obtain ⟨policy, hp⟩ := HashMap.lookup_of_mem h.1
  obtain ⟨policy_v6, hp6⟩ := HashMap.lookup_of_mem h.2.1
  obtain ⟨ari, ha⟩ := HashMap.lookup_of_mem h.2.2
  unfold handled update_of env_of
  rw [hp, hp6, ha]
  rfl

/-- The operations of the message, run on what the peer has. -/
theorem tables_update_of (s : DaemonState) (clk : Clock) (ip : IpAddr) (msg : UpdateMessage) :
    (s.update_of clk ip msg).v4 = (ImportState.start
          ((s.adj_ribs_in.lookup ip).getD (AdjRibIn.new ip)) s.rib.loc_rib).take_all
        ip s.oracle_v4 (s.env_of clk ip).policy s.rpki_v4
        (intake_v4 (s.env_of clk ip) msg) ∧
      (s.update_of clk ip msg).v6 = (ImportState.start
          ((s.adj_ribs_in_v6.lookup ip).getD (AdjRibIn.new ip)) s.rib.loc_rib_v6).take_all
        ip s.oracle_v6 (s.env_of clk ip).policy_v6 s.rpki_v6 (intake_v6 (s.env_of clk ip) msg) :=
  handle_update_eq ..

theorem handled_of_not_configured (h : ¬s.Configured ip) (clk : Clock) (msg : UpdateMessage) :
    s.handled clk ip msg = none := by
  unfold handled
  split
  · rename_i hp hp6 ha
    exact absurd ⟨HashMap.mem_of_lookup hp, HashMap.mem_of_lookup hp6, HashMap.mem_of_lookup ha⟩ h
  · rfl

/-- The reflector's inbound processing does nothing to other peers' messages. -/
theorem rr_inbound_of_not_reflected (h : ¬s.Reflected ip) (msg : UpdateMessage) :
    s.rr_inbound ip msg = some msg := by
  rw [rr_inbound, if_neg]
  rw [Bool.and_eq_true, beq_iff_eq]
  exact h

theorem rr_inbound_of_not_rr (h : s.is_rr = false) : s.rr_inbound ip msg = some msg :=
  rr_inbound_of_not_reflected (fun hr => Bool.false_ne_true (h.symm.trans hr.1)) msg

/-- The reflector's inbound processing leaves the prefixes of a message alone. -/
theorem samePrefixes_rr_inbound (h : s.rr_inbound ip msg = some msg') : msg.SamePrefixes msg' := by
  have hsame : msg'.announced = msg.announced ∧ msg'.withdrawn = msg.withdrawn ∧
      ∀ {β : Type} (f : PathAttribute → List β), (∀ id, f (.OriginatorId id) = []) →
        (∀ list, f (.ClusterList list) = []) →
        msg'.attributes.flatMap f = msg.attributes.flatMap f := by
    unfold rr_inbound at h
    split at h
    · split at h
      · cases h
      · obtain rfl := Option.some.inj h
        refine ⟨rfl, rfl, ?_⟩
        intro β f hid hcl
        rw [flatMap_prepend_cluster f hcl]
        split
        · rfl
        · simp [hid]
    · obtain rfl := Option.some.inj h
      exact ⟨rfl, rfl, fun f _ _ => rfl⟩
  obtain ⟨ha, hw, hlists⟩ := hsame
  refine ⟨ha, hw, ?_, ?_, ?_, ?_, ?_, ?_⟩
  all_goals try exact hlists _ (fun _ => rfl) fun _ => rfl
  unfold UpdateMessage.affected
  rw [ha, hw, hlists _ (fun _ => rfl) fun _ => rfl]

theorem attrs_of_eq (clk : Clock) (h : s.rr_inbound ip msg = some msg') :
    s.attrs_of ip msg = UpdateAttrs.collect (s.env_of clk ip).peer_type msg'.attributes := by
  rw [attrs_of, h]
  rfl

end DaemonState

end Pathvector

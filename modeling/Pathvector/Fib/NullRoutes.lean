/-
# Null routes

A route with the BLACKHOLE community stays out of the Loc-RIB. The daemon puts a null route up
for its prefix, and takes it down when the route goes. So a null route should be in the kernel
for just the prefixes that some peer has announced with the community: `NullRoutes`.

Nobody counts the peers that announced a prefix. A withdrawal takes the null route down for all
of them, and an install for the same prefix replaces it. `Spares` is what a move must not do
for the null routes to stay right, and `nullRoutes_move` says that then they do.
-/
import Pathvector.Fib.Issued
import Pathvector.Rib.Reports

set_option autoImplicit false

namespace Pathvector

variable {A : Type} [IpAddress A] [DecidableEq A]

/-! ## Calls, at one prefix -/

/-- The prefix for which a change of best route installs a gateway. -/
def BestPathChange.installs (gateway : Option NextHop → Option A) :
    BestPathChange A → Option (Nlri A)
  | .Announced nlri route => if (gateway route.next_hop).isSome then some nlri else none
  | _ => none

omit [DecidableEq A] in
theorem BestPathChange.nlri_of_installs {gateway : Option NextHop → Option A}
    {change : BestPathChange A} {n : Nlri A} (h : change.installs gateway = some n) :
    change.nlri? = some n := by
  cases change with
  | Announced m r =>
    simp only [installs] at h
    split at h
    · exact h
    · cases h
  | Withdrawn m => cases h
  | Unchanged => cases h

namespace KernelTable

variable (gateway : Option NextHop → Option A) (k : KernelTable A) (n : Nlri A)

theorem null_change (change : BestPathChange A) :
    k.issue (change.operation gateway) n = some .Blackhole
      ↔ k n = some .Blackhole ∧ change.installs gateway ≠ some n := by
  cases change with
  | Announced m route =>
    cases hgw : gateway route.next_hop with
    | none => simp [BestPathChange.operation, BestPathChange.installs, hgw, issue]
    | some gw =>
      simp only [BestPathChange.operation, BestPathChange.installs, hgw, Option.map_some,
        Option.isSome_some, if_true, issue, Coalesce.issue]
      by_cases h : n = m
      · subst h
        simp [Pending.write]
      · simp [h, Ne.symm h]
  | Withdrawn m =>
    by_cases h : n = m
    · subst h
      simp only [BestPathChange.operation, BestPathChange.installs, issue, Coalesce.issue,
        Function.update_self]
      rcases k n with _ | _ | _ <;> simp [Pending.write]
    · simp [BestPathChange.operation, BestPathChange.installs, issue, Coalesce.issue,
        Function.update_of_ne h]
  | Unchanged => simp [BestPathChange.operation, BestPathChange.installs, issue]

/-- Reports leave the null routes but those in the place of which they install a gateway. -/
theorem null_changes (changes : List (BestPathChange A)) :
    k.issue_all gateway (changes.map .Apply) n = some .Blackhole
      ↔ k n = some .Blackhole ∧ n ∉ changes.filterMap (·.installs gateway) := by
  induction changes generalizing k with
  | nil => simp [issue_all]
  | cons change changes ih =>
    refine (ih (k.issue (change.operation gateway))).trans ?_
    rw [null_change]
    cases h : change.installs gateway with
    | none => simp [h]
    | some m => simp [h, and_assoc, eq_comm]

theorem null_raise (l : List (Nlri A)) :
    k.issue_all gateway (l.map .ApplyBlackhole) n = some .Blackhole
      ↔ k n = some .Blackhole ∨ n ∈ l := by
  induction l generalizing k with
  | nil => simp [issue_all]
  | cons m l ih =>
    refine (ih _).trans ?_
    by_cases h : n = m
    · subst h
      simp [TableCall.operation, issue, Coalesce.issue, Pending.write]
    · simp [TableCall.operation, issue, Coalesce.issue, h]

theorem null_lift_one (m : Nlri A) :
    k.issue (some (m, .WithdrawBlackhole)) n = some .Blackhole ↔ k n = some .Blackhole ∧ n ≠ m := by
  by_cases h : n = m
  · subst h
    simp only [issue, Coalesce.issue, Function.update_self]
    rcases k n with _ | _ | _ <;> simp [Pending.write]
  · simp [issue, Coalesce.issue, h]

theorem null_lift (l : List (Nlri A)) :
    k.issue_all gateway (l.map .WithdrawBlackhole) n = some .Blackhole
      ↔ k n = some .Blackhole ∧ n ∉ l := by
  induction l generalizing k with
  | nil => simp [issue_all]
  | cons m l ih =>
    refine (ih (k.issue (some (m, .WithdrawBlackhole)))).trans ?_
    rw [null_lift_one]
    simp [and_assoc]

theorem null_fall_back (best : Nlri A → Option (Route A)) (l : List (Nlri A)) :
    k.issue_all gateway (l.flatMap fun m =>
        .WithdrawBlackhole m :: ((best m).map fun r => .Apply (.Announced m r)).toList) n
        = some .Blackhole ↔ k n = some .Blackhole ∧ n ∉ l := by
  induction l generalizing k with
  | nil => simp [issue_all]
  | cons m l ih =>
    have hone : ∀ k : KernelTable A, k.issue_all gateway (TableCall.WithdrawBlackhole m ::
        ((best m).map fun r => TableCall.Apply (.Announced m r)).toList) n = some .Blackhole
        ↔ k n = some .Blackhole ∧ n ≠ m := by
      intro k
      rw [← null_lift_one]
      cases best m with
      | none => rfl
      | some r =>
        -- the install is for a prefix that has no null route any more
        refine (null_change gateway (k.issue (some (m, .WithdrawBlackhole))) n
          (.Announced m r)).trans (and_iff_left_of_imp fun h => ?_)
        rw [null_lift_one] at h
        simp [BestPathChange.installs, Ne.symm h.2]
    rw [List.flatMap_cons, issue_all, List.foldl_append]
    refine (ih _).trans ?_
    have h := hone k
    unfold issue_all at h
    rw [h]
    simp [and_assoc]

end KernelTable

namespace Tables

variable (gateway : Option NextHop → Option A)
variable {t : Tables A} {p : IpAddr}

/-- **The null routes after a move.** -/
theorem null_move (t : Tables A) {m : Move A} (hm : m ≠ .AttachKernel) (n : Nlri A) :
    (t.move m).kernel gateway n = some .Blackhole ↔ t.calls.isSome = true ∧
      ((t.kernel gateway n = some .Blackhole ∧ n ∉ (t.told m).filterMap (·.installs gateway))
        ∨ n ∈ t.raised m) ∧ n ∉ t.lifted m := by
  cases hcalls : t.calls.isSome with
  | false =>
    have hnone : (t.move m).calls = none := by
      rw [calls_move t hm, Option.not_isSome_iff_eq_none.1 (Bool.eq_false_iff.1 hcalls)]
      rfl
    rw [kernel_of_none gateway hnone]
    simp
  | true =>
    rw [kernel_move gateway hm hcalls]
    refine Iff.trans ?_ (and_iff_right rfl).symm
    cases m with
    | Hear peer policy rtr ops refreshed reported =>
      cases reported with
      | false => simp [calls_of, told, raised, lifted, KernelTable.issue_all]
      | true =>
        simp only [calls_of, told, raised, lifted, if_true, update_calls,
          KernelTable.issue_all_append]
        rw [KernelTable.null_fall_back, KernelTable.null_raise, KernelTable.null_changes]
    | Prune peer nlris =>
      simp only [calls_of, raised, KernelTable.issue_all_append, List.not_mem_nil, or_false]
      rw [KernelTable.null_changes, KernelTable.null_lift]
      exact and_right_comm
    | Clear peer =>
      refine (KernelTable.null_lift ..).trans ?_
      simp [told, raised]
    | _ =>
      refine (KernelTable.null_changes ..).trans ?_
      simp [raised, lifted]

/-! ## What is announced with the community -/

/-- The peer holds a BLACKHOLE route for the prefix. -/
def tagged (t : Tables A) (p : IpAddr) (n : Nlri A) : Bool := (t.held p n).any Route.is_blackhole

/-- Some peer does. -/
def tagged_any (t : Tables A) (n : Nlri A) : Bool := t.adj_ribs_in.keys.any (t.tagged · n)

/-- A peer besides `p` does. -/
def tagged_else (t : Tables A) (p : IpAddr) (n : Nlri A) : Bool :=
  t.adj_ribs_in.keys.any fun q => q ≠ p && t.tagged q n

theorem tagged_iff {n : Nlri A} :
    t.tagged p n = true ↔ ∃ raw ∈ t.announced p, raw.is_blackhole = true ∧ raw.nlri = n := by
  unfold tagged
  rw [Option.any_eq_true]
  constructor
  · rintro ⟨raw, hraw, hb⟩
    have hn := t.nlri_of_held p n hraw
    refine ⟨raw, (t.mem_announced_iff p raw).2 ?_, hb, hn⟩
    rw [hn]
    exact hraw
  · rintro ⟨raw, hraw, hb, rfl⟩
    exact ⟨raw, (t.mem_announced_iff p raw).1 hraw, hb⟩

theorem mem_of_tagged {n : Nlri A} (h : t.tagged p n = true) : p ∈ t.adj_ribs_in.keys := by
  unfold tagged held at h
  cases hari : t.adj_ribs_in.lookup p with
  | none =>
    rw [hari] at h
    cases h
  | some ari => exact AList.mem_keys.1 (HashMap.mem_of_lookup hari)

theorem tagged_any_iff {n : Nlri A} : t.tagged_any n = true ↔ ∃ p, t.tagged p n = true := by
  unfold tagged_any
  rw [List.any_eq_true]
  exact ⟨fun ⟨p, _, h⟩ => ⟨p, h⟩, fun ⟨p, h⟩ => ⟨p, mem_of_tagged h, h⟩⟩

theorem tagged_else_iff {n : Nlri A} :
    t.tagged_else p n = true ↔ ∃ q, q ≠ p ∧ t.tagged q n = true := by
  unfold tagged_else
  simp only [List.any_eq_true, Bool.and_eq_true, decide_eq_true_eq]
  exact ⟨fun ⟨q, _, h⟩ => ⟨q, h⟩, fun ⟨q, h⟩ => ⟨q, mem_of_tagged h.2, h⟩⟩

/-- A prefix is announced with the community by one given peer or by another. -/
theorem tagged_any_split (t : Tables A) (p : IpAddr) (n : Nlri A) :
    t.tagged_any n = true ↔ t.tagged p n = true ∨ t.tagged_else p n = true := by
  rw [tagged_any_iff, tagged_else_iff]
  constructor
  · rintro ⟨q, hq⟩
    by_cases hp : q = p
    · exact .inl (hp ▸ hq)
    · exact .inr ⟨q, hp, hq⟩
  · rintro (h | ⟨q, -, h⟩)
    · exact ⟨p, h⟩
    · exact ⟨q, h⟩

end Tables

/-! ## The null routes of a message -/

/-- The operation withdraws the prefix. -/
def ImportOp.withdraws (n : Nlri A) : ImportOp A → Bool
  | .Withdraw m => m = n
  | .Announce _ => false

/-- The message leaves the prefix announced with the community. -/
def tags (ops : List (ImportOp A)) (n : Nlri A) : Bool :=
  ((last_op ops n).bind ImportOp.route?).any Route.is_blackhole

/-- Withdrawals come before announcements, and all routes of a message carry the same
communities. -/
def Orderly (ops : List (ImportOp A)) : Prop :=
  ∃ (ws : List (Nlri A)) (raws : List (Route A)) (tag : Bool),
    ops = ws.map .Withdraw ++ raws.map .Announce ∧ ∀ raw ∈ raws, raw.is_blackhole = tag

theorem orderly_intake_v4 (env : ImportEnv) (msg : UpdateMessage) :
    Orderly (intake_v4 env msg) := by
  have hraw : ∀ raw, .Announce raw ∈ intake_v4 env msg → _ := fun raw => raw_of_intake_v4
  unfold intake_v4 at hraw ⊢
  rw [← List.append_assoc, ← List.append_assoc, ← List.map_append, ← List.map_append] at hraw ⊢
  refine ⟨_, _, (((UpdateAttrs.collect env.peer_type msg.attributes).rare.getD
    {}).communities.contains Community.BLACKHOLE), rfl, fun raw hmem => ?_⟩
  obtain ⟨-, next_hop, h⟩ := hraw raw (List.mem_append_right _ (List.mem_map_of_mem hmem))
  rw [h, raw_route_v4]
  split <;> rfl

theorem orderly_intake_v6 (env : ImportEnv) (msg : UpdateMessage) :
    Orderly (intake_v6 env msg) := by
  have hraw : ∀ raw, .Announce raw ∈ intake_v6 env msg → _ := fun raw => raw_of_intake_v6
  unfold intake_v6 at hraw ⊢
  rw [← List.append_assoc, ← List.map_append] at hraw ⊢
  refine ⟨_, _, (((UpdateAttrs.collect env.peer_type msg.attributes).rare.getD
    {}).communities.contains Community.BLACKHOLE), rfl, fun raw hmem => ?_⟩
  obtain ⟨-, next_hop, h⟩ := hraw raw (List.mem_append_right _ (List.mem_map_of_mem hmem))
  rw [h]
  rfl

theorem last_op_append (a b : List (ImportOp A)) (n : Nlri A) :
    last_op (a ++ b) n = (last_op b n).or (last_op a n) := by
  unfold last_op
  rw [List.filter_append, List.getLast?_append]

theorem tags_iff {ws : List (Nlri A)} {raws : List (Route A)} {tag : Bool}
    (h : ∀ raw ∈ raws, raw.is_blackhole = tag) (n : Nlri A) :
    tags (ws.map .Withdraw ++ raws.map .Announce) n = true
      ↔ ∃ raw ∈ raws, raw.is_blackhole = true ∧ raw.nlri = n := by
  unfold tags
  rw [last_op_append]
  cases hlast : last_op (raws.map ImportOp.Announce) n with
  | some op =>
    obtain ⟨hmem, hn⟩ := last_op_mem hlast
    obtain ⟨raw, hraw, rfl⟩ := List.mem_map.1 hmem
    change raw.is_blackhole = true ↔ _
    constructor
    · exact fun htag => ⟨raw, hraw, htag, hn⟩
    · rintro ⟨raw', hraw', htag, -⟩
      rw [h raw hraw, ← h raw' hraw', htag]
  | none =>
    refine iff_of_false ?_ ?_
    · cases hw : last_op (ws.map ImportOp.Withdraw) n with
      | none => simp
      | some op =>
        obtain ⟨m, -, rfl⟩ := List.mem_map.1 (last_op_mem hw).1
        simp [ImportOp.route?]
    · rintro ⟨raw, hraw, -, hn⟩
      exact last_op_eq_none.1 hlast _ (List.mem_map_of_mem hraw) hn

namespace ImportState

variable (peer : PeerId) (oracle : NextHopOracle) (policy : Policy A) (rtr : RtrHandle A)

theorem blackholes_withdraw_all (ws : List (Nlri A)) (st : ImportState A) (n : Nlri A) :
    (st.withdraw_all peer oracle ws).blackhole_announced = st.blackhole_announced ∧
      (n ∈ (st.withdraw_all peer oracle ws).blackhole_withdrawn ↔ n ∈ st.blackhole_withdrawn ∨
        (n ∈ ws ∧ (st.adj_rib_in.get n).any Route.is_blackhole = true)) := by
  induction ws generalizing st with
  | nil => exact ⟨rfl, by simp [withdraw_all]⟩
  | cons m ws ih =>
    obtain ⟨ha, hw⟩ := ih (st.withdraw peer oracle m)
    refine ⟨ha, hw.trans ?_⟩
    have hlist : (st.withdraw peer oracle m).blackhole_withdrawn
        = if (st.adj_rib_in.get m).any Route.is_blackhole then st.blackhole_withdrawn ++ [m]
          else st.blackhole_withdrawn := rfl
    have hget : (st.withdraw peer oracle m).adj_rib_in.get n
        = if n = m then none else st.adj_rib_in.get n := AdjRibIn.get_withdraw ..
    rw [hlist, hget]
    by_cases hn : n = m
    · subst hn
      cases (st.adj_rib_in.get n).any Route.is_blackhole <;> simp
    · cases (st.adj_rib_in.get m).any Route.is_blackhole <;> simp [hn]

theorem blackholes_announce_all (raws : List (Route A)) (st : ImportState A) :
    (st.announce_all peer oracle policy rtr raws).blackhole_announced
        = st.blackhole_announced ++ (raws.filter Route.is_blackhole).map Route.nlri ∧
      (st.announce_all peer oracle policy rtr raws).blackhole_withdrawn
        = st.blackhole_withdrawn := by
  induction raws generalizing st with
  | nil => simp [announce_all]
  | cons raw raws ih =>
    obtain ⟨ha, hw⟩ := ih (st.announce peer oracle policy rtr raw)
    have hcons : st.announce_all peer oracle policy rtr (raw :: raws)
        = (st.announce peer oracle policy rtr raw).announce_all peer oracle policy rtr raws := rfl
    rw [hcons, ha, hw]
    unfold announce
    by_cases hb : raw.is_blackhole = true
    · simp [hb]
    · generalize policy.evaluate rtr raw = d
      rcases d with ⟨_ | _ | _, route⟩ <;> simp [hb]

end ImportState

namespace Tables

variable {t : Tables A} {ops : List (ImportOp A)} {m : Move A} {refreshed : List (Nlri A)}
  {reported : Bool}

/-- The null routes an orderly message asks for: up for what it announces with the community,
down for what it withdraws of the BLACKHOLE routes that the peer held. -/
theorem blackholes_intake (t : Tables A) (peer : IpAddr) (policy : Policy A) (rtr : RtrHandle A)
    (h : Orderly ops) (n : Nlri A) :
    (n ∈ (t.intake peer policy rtr ops).blackhole_announced ↔ tags ops n = true) ∧
      (n ∈ (t.intake peer policy rtr ops).blackhole_withdrawn ↔
        ops.any (·.withdraws n) = true ∧ t.tagged peer n = true) := by
  obtain ⟨ws, raws, tag, rfl, htag⟩ := h
  have hheld : (((t.adj_ribs_in.lookup peer).getD (AdjRibIn.new peer)).get n).any
      Route.is_blackhole = t.tagged peer n := by
    unfold tagged held
    cases t.adj_ribs_in.lookup peer <;> rfl
  unfold intake
  rw [ImportState.take_all_withdraw, ImportState.take_all_announce,
    (ImportState.blackholes_announce_all ..).1, (ImportState.blackholes_announce_all ..).2,
    (ImportState.blackholes_withdraw_all peer t.oracle ws _ n).1,
    (ImportState.blackholes_withdraw_all peer t.oracle ws _ n).2, tags_iff htag]
  constructor
  · simp [ImportState.start, and_assoc]
  · simp only [ImportState.start, List.not_mem_nil, false_or, hheld]
    simp [ImportOp.withdraws]

/-! ## Moves -/

variable (gateway : Option NextHop → Option A)

/-- **What null routes are for.** The kernel has one for just the prefixes that a peer has
announced with the community. -/
def NullRoutes (t : Tables A) : Prop :=
  ∀ n, t.kernel gateway n = some .Blackhole ↔ ∃ p, t.tagged p n = true

/-- What a message must not do to the null route of a prefix that it names. -/
def HearSpares (t : Tables A) (m : Move A) (peer : IpAddr) (ops : List (ImportOp A))
    (reported : Bool) (n : Nlri A) : Prop :=
  if reported then
    if ops.any (·.withdraws n) ∧ t.tagged peer n then
      -- the null route is taken down, after everything else
      tags ops n = false ∧ t.tagged_else peer n = false
    else if tags ops n then t.calls.isSome
    else if n ∈ (t.told m).filterMap (·.installs gateway) then t.tagged_else peer n = false
    -- an untagged route takes the place of the one that is held
    else t.tagged peer n → t.tagged_else peer n
  else t.tagged_else peer n = true ∨ tags ops n = t.tagged peer n

/-- What a move must not do to the null routes. -/
def Spares (t : Tables A) : Move A → Prop
  | .Hear peer policy rtr ops refreshed reported =>
    ∀ op ∈ ops, t.HearSpares gateway (.Hear peer policy rtr ops refreshed reported) peer ops
      reported op.nlri
  | .Prune peer nlris =>
    ∀ n ∈ nlris, (n ∈ t.lifted (.Prune peer nlris) ∨
      n ∈ (t.told (.Prune peer nlris)).filterMap (·.installs gateway)) →
      t.tagged_else peer n = false
  | .Clear peer => ∀ n ∈ t.lifted (.Clear peer), t.tagged_else peer n = false
  | .NewAdjRibIn peer | .Forget peer =>
    ∀ raw ∈ t.announced peer, raw.is_blackhole → t.tagged_else peer raw.nlri
  | .AttachKernel => ∀ p ∈ t.adj_ribs_in.keys, ∀ raw ∈ t.announced p, raw.is_blackhole = false
  | m => ∀ n ∈ (t.told m).filterMap (·.installs gateway), t.tagged_any n = false

/-- A message is in the order in which `handle_update` reads one, from a peer that is there. -/
def Proper (t : Tables A) : Move A → Prop
  | .Hear peer _ _ ops _ _ => Orderly ops ∧ peer ∈ t.adj_ribs_in
  | _ => True

variable {gateway}

section

variable {n : Nlri A} {peer : IpAddr} {policy : Policy A} {rtr : RtrHandle A}

theorem NullRoutes.null_iff (h : t.NullRoutes gateway) (n : Nlri A) :
    t.kernel gateway n = some .Blackhole ↔ t.tagged_any n = true :=
  (h n).trans tagged_any_iff.symm

theorem NullRoutes.isSome_calls (h : t.NullRoutes gateway) (hn : t.tagged_any n = true) :
    t.calls.isSome = true := by
  rw [← h.null_iff] at hn
  by_contra hnone
  rw [kernel_of_none gateway (Option.not_isSome_iff_eq_none.1 hnone)] at hn
  cases hn

theorem tagged_else_move {p : IpAddr} (h : m.peer? = some p) (n : Nlri A) :
    (t.move m).tagged_else p n = t.tagged_else p n := by
  rw [Bool.eq_iff_iff, tagged_else_iff, tagged_else_iff]
  refine exists_congr fun q => and_congr_right fun hq => ?_
  have hsame := (sameEntries_move t m (q := q) (by rw [h]; simpa using hq.symm)).held n
  unfold tagged
  rw [hsame]

/-- A move that leaves everybody's BLACKHOLE routes, and spares their null routes. -/
theorem NullRoutes.of_same (ht : t.NullRoutes gateway) (hm : m ≠ .AttachKernel)
    (hsame : ∀ p n, (t.move m).tagged p n = t.tagged p n) (hraised : t.raised m = [])
    (hlifted : t.lifted m = [])
    (hspares : ∀ n ∈ (t.told m).filterMap (·.installs gateway), t.tagged_any n = false) :
    (t.move m).NullRoutes gateway := by
  intro n
  rw [null_move gateway t hm, hraised, hlifted, ht.null_iff]
  simp only [hsame, List.not_mem_nil, or_false, not_false_iff, and_true]
  rw [← tagged_any_iff]
  constructor
  · exact fun h => h.2.1
  · intro hn
    refine ⟨ht.isSome_calls hn, hn, fun hinst => ?_⟩
    rw [hspares n hinst] at hn
    cases hn

theorem tagged_restale (t : Tables A) (peer p : IpAddr) (n : Nlri A) :
    (t.move (.Restale peer)).tagged p n = t.tagged p n := by
  unfold tagged
  rw [held_restale]
  split
  · cases t.held p n <;> rfl
  · rfl

theorem tagged_hear (hin : peer ∈ t.adj_ribs_in) (policy : Policy A) (rtr : RtrHandle A)
    (ops : List (ImportOp A)) (refreshed : List (Nlri A)) (reported : Bool) (n : Nlri A) :
    (t.move (.Hear peer policy rtr ops refreshed reported)).tagged peer n
      = if ops.any (·.nlri = n) then tags ops n else t.tagged peer n := by
  unfold tagged tags
  rw [held_hear, if_pos ⟨rfl, hin⟩]
  cases hlast : last_op ops n with
  | some op =>
    rw [if_pos]
    · rfl
    · rw [List.any_eq_true]
      exact ⟨op, (last_op_mem hlast).1, decide_eq_true (last_op_mem hlast).2⟩
  | none =>
    rw [if_neg]
    rw [List.any_eq_true]
    rintro ⟨op, hop, hn⟩
    exact last_op_eq_none.1 hlast op hop (of_decide_eq_true hn)

theorem named_of_installed
    (h : n ∈ (t.told (.Hear peer policy rtr ops refreshed reported)).filterMap
      (·.installs gateway)) : ∃ op ∈ ops, op.nlri = n := by
  obtain ⟨change, hchange, hn⟩ := List.mem_filterMap.1 h
  have hnamed := BestPathChange.nlri_of_installs hn
  have hreports : (t.intake peer policy rtr ops).fib_changes
      = (t.loc_rib.run_ops peer t.oracle (ops.filterMap (ImportOp.rib_op policy rtr))).2 :=
    congrArg Prod.snd (ImportState.take_all_tables peer t.oracle policy rtr _ ops).2.1
  cases reported with
  | false => cases hchange
  | true =>
    simp only [told, if_true, hreports] at hchange
    obtain ⟨r, hr, rfl⟩ := LocRib.named_run_ops _ _ _ hchange hnamed
    obtain ⟨op, hop, hrop⟩ := List.mem_filterMap.1 hr
    exact ⟨op, hop, (ImportOp.nlri_rib_op hrop).symm⟩

theorem NullRoutes.hear (ht : t.NullRoutes gateway) (hord : Orderly ops)
    (hin : peer ∈ t.adj_ribs_in)
    (hm : t.Spares gateway (.Hear peer policy rtr ops refreshed reported)) :
    (t.move (.Hear peer policy rtr ops refreshed reported)).NullRoutes gateway := by
  intro n
  obtain ⟨hraised, hlifted⟩ := t.blackholes_intake peer policy rtr hord n
  have hcalls := ht.isSome_calls (n := n)
  rw [null_move gateway t (by simp), ht.null_iff, ← tagged_any_iff, tagged_any_split t peer,
    tagged_any_split (t.move _) peer, tagged_else_move rfl, tagged_hear hin]
  rw [tagged_any_split t peer n] at hcalls
  by_cases hnamed : ∃ op ∈ ops, op.nlri = n
  · obtain ⟨op, hop, rfl⟩ := hnamed
    have hspares := hm op hop
    unfold HearSpares at hspares
    cases reported with
    | false =>
      simp only [told, raised, lifted, Bool.false_eq_true, if_false] at hspares ⊢
      grind
    | true =>
      simp only [raised, lifted, if_true, hraised, hlifted] at hspares ⊢
      grind
  · -- the message says nothing about the prefix
    have hinst : n ∉ (t.told (.Hear peer policy rtr ops refreshed reported)).filterMap
        (·.installs gateway) := fun h => hnamed (named_of_installed h)
    have htags : tags ops n = false := by
      unfold tags
      rw [last_op_eq_none.2 fun op hop hn => hnamed ⟨op, hop, hn⟩]
      rfl
    have hdrop : ops.any (·.withdraws n) = false := by
      rw [List.any_eq_false]
      intro op hop hw
      cases op with
      | Withdraw m => exact hnamed ⟨_, hop, of_decide_eq_true hw⟩
      | Announce raw => cases hw
    cases reported with
    | false =>
      simp only [told, raised, lifted, Bool.false_eq_true, if_false]
      grind
    | true =>
      simp only [raised, lifted, if_true, hraised, hlifted]
      grind

end

section

variable {peer : IpAddr} (ht : t.NullRoutes gateway)
include ht

/-- A move of the peer that takes some of its BLACKHOLE routes away, `gone`, and no others. -/
theorem NullRoutes.of_gone (hm : m ≠ .AttachKernel) (hpeer : m.peer? = some peer)
    (gone : Nlri A → Prop) (hraised : t.raised m = [])
    (hgone : ∀ n, (t.move m).tagged peer n = true ↔ t.tagged peer n = true ∧ ¬gone n)
    (hspares : ∀ n, (n ∈ t.lifted m ∨ n ∈ (t.told m).filterMap (·.installs gateway)) →
      gone n ∧ t.tagged_else peer n = false)
    (hleft : ∀ n, gone n → t.tagged peer n = true → n ∈ t.lifted m ∨ t.tagged_else peer n = true) :
    (t.move m).NullRoutes gateway := by
  intro n
  have hcalls := ht.isSome_calls (n := n)
  rw [null_move gateway t hm, ht.null_iff, ← tagged_any_iff, tagged_any_split t peer,
    tagged_any_split (t.move m) peer, tagged_else_move hpeer, hgone, hraised]
  rw [tagged_any_split t peer n] at hcalls
  grind

theorem NullRoutes.prune {nlris : List (Nlri A)} (hm : t.Spares gateway (.Prune peer nlris)) :
    (t.move (.Prune peer nlris)).NullRoutes gateway := by
  have hinst : ∀ n ∈ (t.told (.Prune peer nlris)).filterMap (·.installs gateway), n ∈ nlris := by
    intro n hn
    obtain ⟨change, hchange, hn⟩ := List.mem_filterMap.1 hn
    obtain ⟨op, hop, rfl⟩ := LocRib.named_run_ops _ _ _ hchange (BestPathChange.nlri_of_installs hn)
    obtain ⟨m, hm, rfl⟩ := List.mem_map.1 hop
    exact hm
  refine ht.of_gone (by simp) rfl (· ∈ nlris) rfl (fun n => ?_) (fun n hn => ?_) fun n hn htag => ?_
  · unfold tagged
    rw [held_prune]
    by_cases hn : n ∈ nlris
    · simp [hn]
    · simp [hn]
  · have hmem : n ∈ nlris := hn.elim (fun h => (List.mem_filter.1 h).1) (hinst n)
    exact ⟨hmem, hm n hmem hn⟩
  · exact .inl (List.mem_filter.2 ⟨hn, htag⟩)

theorem NullRoutes.clear (hm : t.Spares gateway (.Clear peer)) :
    (t.move (.Clear peer)).NullRoutes gateway := by
  refine ht.of_gone (by simp) rfl (fun _ => True) rfl (fun n => ?_) (fun n hn => ?_)
    fun n _ htag => ?_
  · unfold tagged
    rw [held_clear, if_pos rfl]
    simp
  · refine ⟨trivial, hm n (hn.resolve_right ?_)⟩
    exact List.not_mem_nil
  · obtain ⟨raw, hraw, hb, rfl⟩ := tagged_iff.1 htag
    exact .inl (List.mem_map_of_mem (List.mem_filter.2 ⟨hraw, hb⟩))

theorem NullRoutes.dropped (hm : m = .NewAdjRibIn peer ∨ m = .Forget peer)
    (hspares : ∀ raw ∈ t.announced peer, raw.is_blackhole → t.tagged_else peer raw.nlri) :
    (t.move m).NullRoutes gateway := by
  have hempty : ∀ n, (t.move m).held peer n = none := by
    intro n
    rcases hm with rfl | rfl
    · rw [held_newAdjRibIn, if_pos rfl]
    · rw [held_forget, if_pos rfl]
  have hpeer : m.peer? = some peer := by
    rcases hm with rfl | rfl <;> rfl
  have hquiet : t.raised m = [] ∧ t.lifted m = [] ∧ t.told m = [] := by
    rcases hm with rfl | rfl <;> exact ⟨rfl, rfl, rfl⟩
  refine ht.of_gone ?_ hpeer (fun _ => True) hquiet.1 (fun n => ?_) (fun n hn => ?_)
    fun n _ htag => ?_
  · rcases hm with rfl | rfl <;> simp
  · unfold tagged
    rw [hempty]
    simp
  · rw [hquiet.2.1, hquiet.2.2] at hn
    simp at hn
  · obtain ⟨raw, hraw, hb, rfl⟩ := tagged_iff.1 htag
    exact .inr (hspares raw hraw hb)

/-- **The null routes over a move.** -/
theorem nullRoutes_move (hproper : t.Proper m) (hm : t.Spares gateway m) :
    (t.move m).NullRoutes gateway := by
  cases m with
  | Hear peer policy rtr ops refreshed reported => exact ht.hear hproper.1 hproper.2 hm
  | Prune peer nlris => exact ht.prune hm
  | Clear peer => exact ht.clear hm
  | Restale peer => exact ht.of_same (by simp) (t.tagged_restale peer) rfl rfl hm
  | NewAdjRibIn peer => exact ht.dropped (.inl rfl) hm
  | Forget peer => exact ht.dropped (.inr rfl) hm
  | AttachKernel =>
    -- the kernel is empty, and so is what the peers announced with the community
    refine fun n => iff_of_false (fun h => nomatch h) ?_
    rintro ⟨p, hp⟩
    obtain ⟨raw, hraw, hb, -⟩ := tagged_iff.1 hp
    have hclean := hm p (mem_of_tagged hp) raw hraw
    rw [hb] at hclean
    cases hclean
  | _ => exact ht.of_same (by simp) (fun _ _ => rfl) rfl rfl hm

end

end Tables

end Pathvector

/-
# What a move leaves in the tables

A move read at one peer and one prefix: what the peer holds in its Adj-RIB-In (`held`), its
candidate, and whether the prefix is still pending after a restart. One lemma a move and a
table; where a move has no lemma for a table it leaves it alone, by `rfl`.
-/
import Pathvector.Tables.Refinement

set_option autoImplicit false

namespace Pathvector

variable {A : Type} [IpAddress A] [DecidableEq A]

/-! ## Operations at one prefix -/

section

variable {n : Nlri A} (ari : AdjRibIn A) (ops : List (ImportOp A))

/-- The route an operation leaves in the Adj-RIB-In. -/
def ImportOp.route? : ImportOp A → Option (Route A)
  | .Withdraw _ => none
  | .Announce raw => some raw

/-- The last operation of a message on a prefix. -/
def last_op (n : Nlri A) : Option (ImportOp A) :=
  (ops.filter (·.nlri = n)).getLast?

theorem last_op_snoc (op : ImportOp A) (n : Nlri A) :
    last_op (ops ++ [op]) n = if op.nlri = n then some op else last_op ops n := by
  unfold last_op
  by_cases h : op.nlri = n
  · simp [h]
  · simp [h]

theorem last_op_mem {ops : List (ImportOp A)} {op : ImportOp A} (h : last_op ops n = some op) :
    op ∈ ops ∧ op.nlri = n := by
  obtain ⟨hmem, hn⟩ := List.mem_filter.1 (List.mem_of_getLast? h)
  exact ⟨hmem, of_decide_eq_true hn⟩

theorem last_op_eq_none {ops : List (ImportOp A)} :
    last_op ops n = none ↔ ∀ op ∈ ops, op.nlri ≠ n := by
  unfold last_op
  simp

theorem AdjRibIn.get_hear_all (n : Nlri A) :
    (ops.foldl hear ari).get n = match last_op ops n with
      | some op => op.route?
      | none => ari.get n := by
  induction ops using List.reverseRecOn with
  | nil => rfl
  | append_singleton ops op ih =>
    rw [List.foldl_append, List.foldl_cons, List.foldl_nil, last_op_snoc]
    cases op with
    | Withdraw m =>
      rw [hear, get_withdraw, ih]
      by_cases h : n = m
      · rw [if_pos h, if_pos (by exact h.symm)]
        rfl
      · rw [if_neg h, if_neg (by exact fun h' => h h'.symm)]
    | Announce raw =>
      rw [hear, get_insert, ih]
      by_cases h : n = raw.nlri
      · rw [if_pos h, if_pos (by exact h.symm)]
        rfl
      · rw [if_neg h, if_neg (by exact fun h' => h h'.symm)]

theorem LocRib.candidate_after_const (rib : LocRib A) (peer : PeerId) {ops : List (RibOp A)}
    {c : Option (Route A)} (h : ∀ op ∈ ops, op.nlri = n → op.route? = c) :
    rib.candidate_after peer ops n
      = if (∃ op ∈ ops, op.nlri = n) then c else rib.candidate n peer := by
  unfold candidate_after
  cases hlast : (ops.filter (·.nlri = n)).getLast? with
  | some op =>
    obtain ⟨hmem, hn⟩ := List.mem_filter.1 (List.mem_of_getLast? hlast)
    rw [if_pos ⟨op, hmem, of_decide_eq_true hn⟩]
    exact h op hmem (of_decide_eq_true hn)
  | none =>
    rw [List.getLast?_eq_none_iff, List.filter_eq_nil_iff] at hlast
    rw [if_neg]
    rintro ⟨op, hmem, hn⟩
    exact hlast op hmem (decide_eq_true hn)

end

/-! ## The Adj-RIBs-In -/

namespace Tables

variable (t : Tables A) (peer q : IpAddr) (n : Nlri A)

theorem held_modify (f : AdjRibIn A → AdjRibIn A) :
    ({ t with adj_ribs_in := t.adj_ribs_in.modify peer f } : Tables A).held q n
      = if q = peer then (t.adj_ribs_in.lookup peer).bind fun ari => (f ari).get n
        else t.held q n := by
  unfold held
  rw [HashMap.lookup_modify]
  split
  · next h =>
    rw [Option.bind_map]
    rfl
  · rfl

theorem held_hear (policy : Policy A) (rtr : RtrHandle A) (ops : List (ImportOp A))
    (refreshed : List (Nlri A)) (reported : Bool) :
    (t.move (.Hear peer policy rtr ops refreshed reported)).held q n
      = if q = peer ∧ peer ∈ t.adj_ribs_in then
          match last_op ops n with
          | some op => op.route?
          | none => t.held q n
        else t.held q n := by
  have hari : (t.intake peer policy rtr ops).adj_rib_in
      = ops.foldl AdjRibIn.hear ((t.adj_ribs_in.lookup peer).getD (AdjRibIn.new peer)) :=
    (ImportState.take_all_tables ..).1
  refine (t.held_modify peer q n _).trans ?_
  by_cases hq : q = peer
  · subst hq
    cases hlook : t.adj_ribs_in.lookup q with
    | none =>
      have hmem : q ∉ t.adj_ribs_in := AList.lookup_eq_none.1 hlook
      rw [if_pos rfl, if_neg fun h => hmem h.2, held, hlook]
      rfl
    | some ari =>
      rw [if_pos rfl, if_pos ⟨rfl, HashMap.mem_of_lookup hlook⟩, Option.bind_some, hari, hlook,
        Option.getD_some, AdjRibIn.get_hear_all, held, hlook]
      rfl
  · rw [if_neg hq, if_neg fun h => hq h.1]

theorem get_withdraw_fold (nlris : List (Nlri A)) (ari : AdjRibIn A) :
    (nlris.foldl AdjRibIn.withdraw ari).get n = if n ∈ nlris then none else ari.get n := by
  induction nlris generalizing ari with
  | nil => simp
  | cons m nlris ih =>
    rw [List.foldl_cons, ih, AdjRibIn.get_withdraw]
    by_cases hn : n = m
    · simp [hn]
    · simp [hn]

theorem held_prune (nlris : List (Nlri A)) :
    (t.move (.Prune peer nlris)).held q n = if q = peer ∧ n ∈ nlris then none else t.held q n := by
  refine (t.held_modify peer q n _).trans ?_
  by_cases hq : q = peer
  · subst hq
    simp only [get_withdraw_fold, true_and]
    unfold held
    cases t.adj_ribs_in.lookup q with
    | none => simp
    | some ari => rfl
  · rw [if_neg hq, if_neg fun h => hq h.1]

theorem held_clear : (t.move (.Clear peer)).held q n = if q = peer then none else t.held q n := by
  refine (t.held_modify peer q n _).trans ?_
  split
  · cases t.adj_ribs_in.lookup peer <;> rfl
  · rfl

theorem held_restale :
    (t.move (.Restale peer)).held q n
      = if q = peer then (t.held q n).map Route.as_stale else t.held q n := by
  refine (t.held_modify peer q n _).trans ?_
  split
  · next hq =>
    subst hq
    unfold held
    cases t.adj_ribs_in.lookup q with
    | none => rfl
    | some ari => exact AdjRibIn.get_mark_all_stale ari n
  · rfl

theorem held_newAdjRibIn :
    (t.move (.NewAdjRibIn peer)).held q n = if q = peer then none else t.held q n := by
  unfold held move
  rw [HashMap.lookup_insert_ite]
  split <;> rfl

theorem held_forget : (t.move (.Forget peer)).held q n = if q = peer then none else t.held q n := by
  unfold held move
  rw [HashMap.lookup_erase_ite]
  split <;> rfl

theorem mem_announced_iff (raw : Route A) :
    raw ∈ t.announced peer ↔ t.held peer raw.nlri = some raw := by
  unfold announced held stale_routes
  cases t.adj_ribs_in.lookup peer with
  | none => simp
  | some ari =>
    change raw ∈ ari.routes.values ↔ ari.routes.lookup raw.nlri = some raw
    rw [HashMap.mem_values_iff]
    constructor
    · rintro ⟨m, hm⟩
      rw [ari.nlri_eq m raw hm]
      exact hm
    · exact fun h => ⟨_, h⟩

theorem nlri_of_held {raw : Route A} (h : t.held peer n = some raw) : raw.nlri = n := by
  obtain ⟨ari, -, hget⟩ := Option.bind_eq_some_iff.1 h
  exact ari.nlri_eq n raw hget

/-! ## The candidates -/

theorem candidate_batch (ops : List (RibOp A)) (reported : Bool) :
    (t.batch peer ops reported).loc_rib.candidate n q = t.loc_rib.candidate_of_after peer ops n q :=
  t.loc_rib.candidate_run_ops peer t.oracle ops n q

theorem candidate_hear (policy : Policy A) (rtr : RtrHandle A) (ops : List (ImportOp A))
    (refreshed : List (Nlri A)) (reported : Bool) :
    (t.move (.Hear peer policy rtr ops refreshed reported)).loc_rib.candidate n q
      = t.loc_rib.candidate_of_after peer (ops.filterMap (ImportOp.rib_op policy rtr)) n q := by
  have hrib : (t.intake peer policy rtr ops).loc_rib
      = (t.loc_rib.run_ops peer t.oracle (ops.filterMap (ImportOp.rib_op policy rtr))).1 :=
    congrArg Prod.fst (ImportState.take_all_tables peer t.oracle policy rtr _ ops).2.1
  rw [← t.loc_rib.candidate_run_ops peer t.oracle, ← hrib]
  rfl

theorem candidate_of_drops (nlris : List (Nlri A)) :
    t.loc_rib.candidate_of_after peer (nlris.map .Drop) n q
      = if q = peer ∧ n ∈ nlris then none else t.loc_rib.candidate n q := by
  unfold LocRib.candidate_of_after
  by_cases hq : q = peer
  · rw [if_pos hq, LocRib.candidate_after_const (c := none)]
    · subst hq
      simp [RibOp.nlri]
    · intro op hop _
      obtain ⟨m, -, rfl⟩ := List.mem_map.1 hop
      rfl
  · rw [if_neg hq, if_neg fun h => hq h.1]

theorem candidate_prune (nlris : List (Nlri A)) :
    (t.move (.Prune peer nlris)).loc_rib.candidate n q
      = if q = peer ∧ n ∈ nlris then none else t.loc_rib.candidate n q :=
  (candidate_batch ..).trans (candidate_of_drops ..)

theorem candidate_leave :
    (t.move (.Leave peer)).loc_rib.candidate n q
      = if q = peer then none else t.loc_rib.candidate n q := by
  refine (candidate_batch ..).trans ((candidate_of_drops ..).trans ?_)
  by_cases hq : q = peer
  · subst hq
    simp only [true_and, LocRib.mem_prefixes_of, if_true]
    cases t.loc_rib.candidate n q <;> rfl
  · rw [if_neg hq, if_neg fun h => hq h.1]

theorem candidate_of_announced (f : Route A → RibOp A) (hf : ∀ raw, (f raw).nlri = raw.nlri) :
    t.loc_rib.candidate_of_after peer ((t.announced peer).map f) n q
      = if q = peer then
          match t.held peer n with
          | some raw => (f raw).route?
          | none => t.loc_rib.candidate n q
        else t.loc_rib.candidate n q := by
  unfold LocRib.candidate_of_after
  split
  · next hq =>
    subst hq
    have hops : ∀ op ∈ (t.announced q).map f, op.nlri = n →
        ∃ raw, t.held q n = some raw ∧ op = f raw := by
      intro op hop hn
      obtain ⟨raw, hraw, rfl⟩ := List.mem_map.1 hop
      rw [hf] at hn
      subst hn
      exact ⟨raw, (t.mem_announced_iff q raw).1 hraw, rfl⟩
    cases hheld : t.held q n with
    | some raw =>
      have hraw := t.nlri_of_held q n hheld
      rw [LocRib.candidate_after_const (c := (f raw).route?), if_pos]
      · refine ⟨f raw, List.mem_map.2 ⟨raw, ?_, rfl⟩, (hf raw).trans hraw⟩
        rw [mem_announced_iff, hraw]
        exact hheld
      · intro op hop hn
        obtain ⟨raw', hheld', rfl⟩ := hops op hop hn
        rw [hheld] at hheld'
        cases hheld'
        rfl
    | none =>
      rw [LocRib.candidate_after_const (c := none), if_neg]
      · rintro ⟨op, hop, hn⟩
        obtain ⟨raw', hheld', -⟩ := hops op hop hn
        rw [hheld] at hheld'
        cases hheld'
      · intro op hop hn
        obtain ⟨raw', hheld', -⟩ := hops op hop hn
        rw [hheld] at hheld'
        cases hheld'
  · rfl

theorem candidate_restale :
    (t.move (.Restale peer)).loc_rib.candidate n q
      = if q = peer then ((t.held peer n).map Route.as_stale).or (t.loc_rib.candidate n q)
        else t.loc_rib.candidate n q := by
  have hmarked : ({ t with adj_ribs_in := t.adj_ribs_in.modify peer AdjRibIn.mark_all_stale }
      : Tables A).held peer n = (t.held peer n).map Route.as_stale := by
    refine (t.held_restale peer peer n).trans ?_
    rw [if_pos rfl]
  refine (candidate_batch ..).trans ((candidate_of_announced _ peer q n .Put fun _ => rfl).trans ?_)
  rw [hmarked]
  split
  · cases t.held peer n <;> rfl
  · rfl

omit [DecidableEq A] in
theorem nlri_reapplied (policy : Policy A) (rtr : RtrHandle A) (raw : Route A) :
    (policy.reapplied rtr raw).nlri = raw.nlri := by
  have hkeep := Policy.nlri_evaluate rtr policy raw
  unfold Policy.reapplied
  generalize policy.evaluate rtr raw = d at hkeep
  rcases d with ⟨_ | _ | _, route⟩
  · exact hkeep
  · rfl
  · rfl

theorem candidate_reapply (policy : Policy A) (rtr : RtrHandle A) :
    (t.move (.Reapply peer policy rtr)).loc_rib.candidate n q
      = if q = peer then
          match t.held peer n with
          | some raw => (policy.reapplied rtr raw).route?
          | none => t.loc_rib.candidate n q
        else t.loc_rib.candidate n q :=
  (candidate_batch ..).trans (candidate_of_announced _ peer q n _ (nlri_reapplied policy rtr))

theorem candidate_originate (route : Route A) (reported : Bool) :
    (t.move (.Originate route reported)).loc_rib.candidate n q
      = if q = LOCAL_ORIGIN_PEER ∧ n = route.nlri then some route
        else t.loc_rib.candidate n q := by
  refine (LocRib.candidate_insert ..).trans ?_
  simp only [and_comm]

theorem candidate_unoriginate (nlri : Nlri A) :
    (t.move (.Unoriginate nlri)).loc_rib.candidate n q
      = if q = LOCAL_ORIGIN_PEER ∧ n = nlri then none else t.loc_rib.candidate n q := by
  refine (LocRib.candidate_withdraw ..).trans ?_
  simp only [and_comm]

theorem candidate_reselect :
    (t.move .Reselect).loc_rib.candidate n q = t.loc_rib.candidate n q := by
  refine List.foldl_invariant (LocRib.recompute_step t.oracle)
    (fun acc => acc.1.candidate n q = t.loc_rib.candidate n q) _ _ rfl ?_
  intro acc m _ hacc
  have hstep : (LocRib.recompute_step t.oracle acc m).1 = acc.1.recompute_best m t.oracle := by
    unfold LocRib.recompute_step
    dsimp only
    split
    · rfl
    · rfl
    · split <;> rfl
  rw [hstep, LocRib.candidate_recompute_best, hacc]

/-! ## The pending prefixes -/

theorem mem_pending_hear (policy : Policy A) (rtr : RtrHandle A) (ops : List (ImportOp A))
    (refreshed : List (Nlri A)) (reported : Bool) :
    n ∈ (t.move (.Hear peer policy rtr ops refreshed reported)).pending q
      ↔ n ∈ t.pending q ∧ (q = peer → n ∉ refreshed) := by
  have hpending : (t.move (.Hear peer policy rtr ops refreshed reported)).pending q
      = ((t.stale.modify peer fun stale =>
        refreshed.foldl (fun st n => st.erase n) stale).lookup q).getD ∅ := rfl
  rw [hpending, HashMap.lookup_modify]
  unfold pending
  by_cases hq : q = peer
  · subst hq
    cases t.stale.lookup q with
    | none => simp
    | some stale =>
      simp only [Option.map_some, Option.getD_some, true_implies]
      exact HashMap.mem_erase_all refreshed stale
  · simp [hq]

theorem pending_dropStale :
    (t.move (.DropStale peer)).pending q = if q = peer then ∅ else t.pending q := by
  unfold pending move
  rw [HashMap.lookup_erase_ite]
  split <;> rfl

theorem pending_forget :
    (t.move (.Forget peer)).pending q = if q = peer then ∅ else t.pending q := by
  unfold pending move
  rw [HashMap.lookup_erase_ite]
  split <;> rfl

/-- What the peer holds is pending now; a peer that holds nothing keeps what was pending. -/
theorem mem_pending_markStale :
    n ∈ (t.move (.MarkStale peer)).pending q
      ↔ (q = peer ∧ (t.held peer n).isSome) ∨
        ((q = peer → ∀ m, t.held peer m = none) ∧ n ∈ t.pending q) := by
  have hpending : (t.move (.MarkStale peer)).pending q
      = ((DaemonState.mark_stale_set t.stale (t.adj_ribs_in.lookup peer) peer true).lookup q).getD
        ∅ := rfl
  rw [hpending]
  unfold DaemonState.mark_stale_set held pending
  cases hlook : t.adj_ribs_in.lookup peer with
  | none => simp
  | some ari =>
    simp only [Option.bind_some, Bool.true_and, Bool.not_eq_true', List.isEmpty_eq_false_iff]
    by_cases hnil : (HashSet.ofList ari.routes.keys).keys = []
    · -- nothing is held
      have hnone : ∀ m, ari.get m = none := by
        intro m
        rw [AdjRibIn.get, AList.lookup_eq_none]
        intro hm
        have hmem : m ∈ (HashSet.ofList ari.routes.keys).keys :=
          HashSet.mem_ofList.2 (AList.mem_keys.1 hm)
        rw [hnil] at hmem
        cases hmem
      rw [if_neg (not_not_intro hnil)]
      simp [hnone]
    · rw [if_pos hnil, HashMap.lookup_insert_ite]
      by_cases hq : q = peer
      · have hsome : ¬∀ m, ari.get m = none := by
          intro hnone
          refine hnil (List.eq_nil_iff_forall_not_mem.2 fun m hm => ?_)
          have hmem : m ∈ ari.routes := AList.mem_keys.2 (HashSet.mem_ofList.1 hm)
          exact AList.lookup_eq_none.1 (hnone m) hmem
        rw [if_pos hq]
        simp only [Option.getD_some, hq, true_and, true_implies, hsome, false_and, or_false]
        rw [HashSet.mem_ofList, ← AList.mem_keys, AdjRibIn.get, AList.lookup_isSome]
      · simp [hq]

/-! ## The other peers -/

end Tables

/-- The peer whose entries a move writes. -/
def Move.peer? : Move A → Option IpAddr
  | .Hear peer .. | .Prune peer _ | .Clear peer | .Leave peer | .Restale peer | .Reapply peer ..
  | .NewAdjRibIn peer | .MarkStale peer | .DropStale peer | .Forget peer => some peer
  | .Originate .. | .Unoriginate _ => some LOCAL_ORIGIN_PEER
  | .Reselect | .SetOracle _ | .AttachKernel => none

namespace Tables

/-- The same entries of a peer. -/
structure SameEntries (t t' : Tables A) (q : IpAddr) : Prop where
  held : ∀ n, t'.held q n = t.held q n
  candidate : ∀ n, t'.loc_rib.candidate n q = t.loc_rib.candidate n q
  pending : ∀ n, n ∈ t'.pending q ↔ n ∈ t.pending q

/-- A move about one peer touches no entry of another. -/
theorem sameEntries_move (t : Tables A) (m : Move A) {q : IpAddr} (h : m.peer? ≠ some q) :
    SameEntries t (t.move m) q := by
  have hne : ∀ {p : IpAddr}, m.peer? = some p → q ≠ p := fun hp hq => h (hq ▸ hp)
  cases m with
  | Hear peer policy rtr ops refreshed reported =>
    have hq := hne rfl
    refine ⟨fun n => ?_, fun n => ?_, fun n => ?_⟩
    · rw [held_hear, if_neg fun h => hq h.1]
    · rw [candidate_hear, LocRib.candidate_of_after, if_neg hq]
    · simp [mem_pending_hear, hq]
  | Prune peer nlris =>
    have hq := hne rfl
    refine ⟨fun n => ?_, fun n => ?_, fun _ => .rfl⟩
    · rw [held_prune, if_neg fun h => hq h.1]
    · rw [candidate_prune, if_neg fun h => hq h.1]
  | Clear peer =>
    refine ⟨fun n => ?_, fun _ => rfl, fun _ => .rfl⟩
    rw [held_clear, if_neg (hne rfl)]
  | Leave peer =>
    refine ⟨fun _ => rfl, fun n => ?_, fun _ => .rfl⟩
    rw [candidate_leave, if_neg (hne rfl)]
  | Restale peer =>
    refine ⟨fun n => ?_, fun n => ?_, fun _ => .rfl⟩
    · rw [held_restale, if_neg (hne rfl)]
    · rw [candidate_restale, if_neg (hne rfl)]
  | Reapply peer policy rtr =>
    refine ⟨fun _ => rfl, fun n => ?_, fun _ => .rfl⟩
    rw [candidate_reapply, if_neg (hne rfl)]
  | Originate route reported =>
    refine ⟨fun _ => rfl, fun n => ?_, fun _ => .rfl⟩
    rw [candidate_originate, if_neg fun h => hne rfl h.1]
  | Unoriginate nlri =>
    refine ⟨fun _ => rfl, fun n => ?_, fun _ => .rfl⟩
    rw [candidate_unoriginate, if_neg fun h => hne rfl h.1]
  | Reselect => exact ⟨fun _ => rfl, fun n => candidate_reselect t q n, fun _ => .rfl⟩
  | NewAdjRibIn peer =>
    refine ⟨fun n => ?_, fun _ => rfl, fun _ => .rfl⟩
    rw [held_newAdjRibIn, if_neg (hne rfl)]
  | MarkStale peer =>
    refine ⟨fun _ => rfl, fun _ => rfl, fun n => ?_⟩
    simp [mem_pending_markStale, hne (p := peer) rfl]
  | DropStale peer =>
    refine ⟨fun _ => rfl, fun _ => rfl, fun n => ?_⟩
    rw [pending_dropStale, if_neg (hne rfl)]
  | Forget peer =>
    refine ⟨fun n => ?_, fun _ => rfl, fun n => ?_⟩
    · rw [held_forget, if_neg (hne rfl)]
    · rw [pending_forget, if_neg (hne rfl)]
  | SetOracle oracle => exact ⟨fun _ => rfl, fun _ => rfl, fun _ => .rfl⟩
  | AttachKernel => exact ⟨fun _ => rfl, fun _ => rfl, fun _ => .rfl⟩

/-! ## At the start -/

/-- Tables without any route. -/
structure Empty (t : Tables A) : Prop where
  held : ∀ p n, t.held p n = none
  candidate : ∀ n p, t.loc_rib.candidate n p = none
  pending : ∀ p, t.pending p = ∅
  calls : t.calls = none

theorem get_of_collect_new {peers : List PeerConfig} {p : IpAddr} (n : Nlri A) :
    ((HashMap.collect (peers.map fun p => (p.address, AdjRibIn.new p.address))).lookup p).bind
      (·.get n) = (none : Option (Route A)) := by
  cases h : (HashMap.collect (peers.map fun p =>
      (p.address, (AdjRibIn.new p.address : AdjRibIn A)))).lookup p with
  | none => rfl
  | some ari =>
    obtain ⟨q, -, hq⟩ := List.mem_map.1 (HashMap.mem_of_lookup_collect h)
    cases hq
    rfl

end Tables

theorem DaemonState.empty_tables_new (local_as : Asn) (local_bgp_id : Ipv4Addr)
    (local_ipv6 : Option Ipv6Addr) (cluster_id : Option UInt32) (confederation_id : Option Asn)
    (peers : List PeerConfig) (update_senders : HashMap IpAddr UpdateSender)
    (caps : List Capability) :
    let s := new local_as local_bgp_id local_ipv6 cluster_id confederation_id peers update_senders
      caps
    s.tables_v4.Empty ∧ s.tables_v6.Empty :=
  ⟨⟨fun _ n => Tables.get_of_collect_new n, fun _ _ => rfl, fun _ => rfl, rfl⟩,
    ⟨fun _ n => Tables.get_of_collect_new n, fun _ _ => rfl, fun _ => rfl, rfl⟩⟩

end Pathvector

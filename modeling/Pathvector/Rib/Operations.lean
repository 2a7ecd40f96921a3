/-
# A batch of changes to the Loc-RIB

One UPDATE, one End-of-RIB marker or one lost session makes a list of changes to the
candidates of one peer. `LocRib.run_ops` runs such a list, and the definitions say
what is found afterwards in terms of the table before: whose candidate stands
(`candidate_after`), and which route is the best one (`best_after`).
-/
import Pathvector.Rib.Winner

set_option autoImplicit false

namespace Pathvector

/-- A change to the candidates of one peer. -/
inductive RibOp (A : Type) [IpAddress A] where
  | Drop (nlri : Nlri A)
  | Put (route : Route A)

namespace RibOp

variable {A : Type} [IpAddress A]

def nlri : RibOp A → Nlri A
  | .Drop n => n
  | .Put r => r.nlri

/-- The candidate the change leaves. -/
def route? : RibOp A → Option (Route A)
  | .Drop _ => none
  | .Put r => some r

@[simp]
theorem nlri_drop (n : Nlri A) : (Drop n).nlri = n := rfl

@[simp]
theorem nlri_put (r : Route A) : (Put r).nlri = r.nlri := rfl

@[simp]
theorem route_drop (n : Nlri A) : (Drop n).route? = none := rfl

@[simp]
theorem route_put (r : Route A) : (Put r).route? = some r := rfl

end RibOp

namespace LocRib

variable {A : Type} [IpAddress A] [DecidableEq A]
variable {ops : List (RibOp A)} {n : Nlri A}

section

variable (rib : LocRib A) (peer : PeerId) (oracle : NextHopOracle)

/-- One change, with its report. -/
def apply_op :
    RibOp A → LocRib A × BestPathChange A
  | .Drop n => rib.withdraw peer n oracle
  | .Put r => rib.insert peer r oracle

/-- One step of a batch; the reports accumulate. -/
def op_step (acc : LocRib A × List (BestPathChange A)) (op : RibOp A) :
    LocRib A × List (BestPathChange A) :=
  let r := acc.1.apply_op peer oracle op
  (r.1, acc.2 ++ [r.2])

/-- A batch of changes, with their reports. -/
def run_ops (ops : List (RibOp A)) : LocRib A × List (BestPathChange A) :=
  ops.foldl (op_step peer oracle) (rib, [])

theorem run_ops_snoc (ops : List (RibOp A)) (op : RibOp A) :
    rib.run_ops peer oracle (ops ++ [op])
      = op_step peer oracle (rib.run_ops peer oracle ops) op := by
  unfold run_ops
  rw [List.foldl_append]
  rfl

/-- `withdraw_peer` as a batch. -/
theorem withdraw_peer_eq :
    rib.withdraw_peer peer oracle = rib.run_ops peer oracle ((rib.prefixes_of peer).map .Drop) := by
  unfold withdraw_peer run_ops
  rw [List.foldl_map]
  rfl

end

/-! ## The table afterwards -/

/-- The other peers with a candidate for a prefix. -/
def others (rib : LocRib A) (peer : PeerId) (n : Nlri A) : List PeerId :=
  (rib.peers n).filter (· ≠ peer)

variable (rib : LocRib A) (peer : PeerId) (oracle : NextHopOracle)

/-- The peer's candidate for a prefix after a batch: the last change has the last word. -/
def candidate_after (ops : List (RibOp A)) (n : Nlri A) : Option (Route A) :=
  match (ops.filter (·.nlri = n)).getLast? with
  | some op => op.route?
  | none => rib.candidate n peer

/-- A prefix is withdrawn in a batch. -/
def Dropped (ops : List (RibOp A)) (n : Nlri A) : Prop :=
  ∃ op ∈ ops, op.nlri = n ∧ op.route?.isNone

/-- The winner of a prefix is chosen again in a batch: something is announced for it, or a
candidate is withdrawn. -/
def Disturbed (ops : List (RibOp A)) (n : Nlri A) : Prop :=
  (∃ op ∈ ops, op.nlri = n ∧ op.route?.isSome) ∨
    (Dropped ops n ∧ (rib.candidate n peer).isSome)

instance (ops : List (RibOp A)) (n : Nlri A) : Decidable (Dropped ops n) :=
  inferInstanceAs (Decidable (∃ op ∈ ops, _))

instance (ops : List (RibOp A)) (n : Nlri A) : Decidable (rib.Disturbed peer ops n) :=
  inferInstanceAs (Decidable (_ ∨ _))

/-- The index entry of a prefix after a batch. A peer that was taken out and came back stands
at the end. -/
def peers_after (ops : List (RibOp A)) (n : Nlri A) : List PeerId :=
  if (rib.candidate_after peer ops n).isNone then rib.others peer n
  else if ¬Dropped ops n ∧ (rib.candidate n peer).isSome then rib.peers n
  else rib.others peer n ++ [peer]

/-- A candidate of any peer after a batch of one peer. -/
def candidate_of_after (ops : List (RibOp A)) (n : Nlri A) (q : PeerId) : Option (Route A) :=
  if q = peer then rib.candidate_after peer ops n else rib.candidate n q

/-- The candidates of a prefix after a batch. -/
def peer_map_after (ops : List (RibOp A)) (n : Nlri A) : List (PeerId × Route A) :=
  (rib.peers_after peer ops n).filterMap fun q =>
    (rib.candidate_of_after peer ops n q).map (q, ·)

/-- The winner of a prefix after a batch whose prefixes are in network form. -/
def winner_after (ops : List (RibOp A)) (n : Nlri A) : Option PeerId :=
  if rib.Disturbed peer ops n.masked then
    (select_best_with_oracle (rib.peer_map_after peer ops n.masked) oracle).map Prod.fst
  else rib.best_peer n

/-- The best route of a prefix after a batch. -/
def best_after (ops : List (RibOp A)) (n : Nlri A) : Option (PeerId × Route A) :=
  (rib.winner_after peer oracle ops n).bind fun q =>
    (rib.candidate_of_after peer ops n q).map (q, ·)

/-! ## One change more -/

theorem candidate_after_snoc (ops : List (RibOp A)) (op : RibOp A) (n : Nlri A) :
    rib.candidate_after peer (ops ++ [op]) n
      = if op.nlri = n then op.route? else rib.candidate_after peer ops n := by
  unfold candidate_after
  rw [List.filter_append, List.filter_singleton]
  by_cases h : op.nlri = n
  · rw [if_pos h]
    simp [h]
  · rw [if_neg h]
    simp [h]

omit [DecidableEq A] in
theorem dropped_snoc (ops : List (RibOp A)) (op : RibOp A) (n : Nlri A) :
    Dropped (ops ++ [op]) n ↔ Dropped ops n ∨ (op.nlri = n ∧ op.route?.isNone) := by
  unfold Dropped
  simp only [List.mem_append, List.mem_singleton, or_and_right, exists_or, exists_eq_left]

theorem dropped_of_gone (h : rib.candidate_after peer ops n = none)
    (hc : (rib.candidate n peer).isSome) : Dropped ops n := by
  unfold candidate_after at h
  split at h
  · rename_i op hlast
    have hop := List.mem_filter.1 (List.mem_of_getLast? hlast)
    exact ⟨op, hop.1, of_decide_eq_true hop.2, by rw [h]; rfl⟩
  · rw [h] at hc
    cases hc

theorem disturbed_of_there (h : (rib.candidate_after peer ops n).isSome) :
    rib.Disturbed peer ops n ∨ (rib.candidate n peer).isSome := by
  unfold candidate_after at h
  split at h
  · rename_i op hlast
    have hop := List.mem_filter.1 (List.mem_of_getLast? hlast)
    exact .inl (.inl ⟨op, hop.1, of_decide_eq_true hop.2, h⟩)
  · exact .inr h

variable {peer oracle}

theorem mem_peers (t : LocRib A) (n : Nlri A) (q : PeerId) :
    q ∈ t.peers n ↔ (t.candidate n q).isSome := by
  rw [← mem_candidates_iff]
  exact t.mem_index n q

theorem peers_insert (t : LocRib A) (r : Route A) (n : Nlri A) :
    (t.insert peer r oracle).1.peers n = if r.nlri = n then
        if peer ∈ t.peers n then t.peers n else t.peers n ++ [peer]
      else t.peers n := by
  rw [insert_fst]
  show (AList.lookup n (t.peer_index.insert r.nlri _)).getD [] = _
  rw [HashMap.lookup_insert_ite]
  by_cases h : r.nlri = n
  · subst h
    rw [if_pos rfl, if_pos rfl]
    rfl
  · rw [if_neg (Ne.symm h), if_neg h]
    rfl

theorem peers_withdraw (t : LocRib A) (m n : Nlri A) :
    (t.withdraw peer m oracle).1.peers n
      = if m = n then (t.peers n).filter (· ≠ peer) else t.peers n := by
  rw [withdraw_fst]
  by_cases hmem : (m, peer) ∈ t.candidates
  · rw [if_pos hmem]
    exact peers_remove_candidate ..
  · -- the peer is not listed
    rw [if_neg hmem]
    split
    · rename_i h
      subst h
      rw [mem_candidates_iff, ← mem_peers] at hmem
      exact (List.filter_eq_self.2 fun q hq => by
        simpa using fun h : q = peer => hmem (h ▸ hq)).symm
    · rfl

theorem candidate_apply_op (t : LocRib A) (op : RibOp A) (n : Nlri A) (q : PeerId) :
    (t.apply_op peer oracle op).1.candidate n q
      = if op.nlri = n ∧ q = peer then op.route? else t.candidate n q := by
  have hcomm : ∀ m : Nlri A, (n = m ∧ q = peer) = (m = n ∧ q = peer) :=
    fun m => propext (and_congr_left' eq_comm)
  cases op with
  | Drop m =>
    refine (candidate_withdraw ..).trans ?_
    simp only [hcomm m]
    rfl
  | Put r =>
    refine (candidate_insert ..).trans ?_
    simp only [hcomm r.nlri]
    rfl

variable (peer oracle)

/-- **The candidates after a batch.** -/
theorem candidate_run_ops (ops : List (RibOp A)) (n : Nlri A) (q : PeerId) :
    (rib.run_ops peer oracle ops).1.candidate n q = rib.candidate_of_after peer ops n q := by
  induction ops using List.reverseRecOn with
  | nil =>
    show rib.candidate n q = if q = peer then rib.candidate n peer else rib.candidate n q
    split
    · rename_i h
      rw [h]
    · rfl
  | append_singleton ops op ih =>
    rw [run_ops_snoc]
    refine (candidate_apply_op ..).trans ?_
    rw [ih]
    unfold candidate_of_after
    rw [candidate_after_snoc]
    by_cases hq : q = peer
    · simp [hq]
    · simp [hq]

theorem filter_ne_of_not_mem {peer : PeerId} {l : List PeerId} (h : peer ∉ l) :
    l.filter (· ≠ peer) = l := by
  refine List.filter_eq_self.2 fun q hq => ?_
  simpa using fun heq : q = peer => h (heq ▸ hq)

theorem peers_after_nil (n : Nlri A) : rib.peers_after peer [] n = rib.peers n := by
  have hnd : ¬Dropped ([] : List (RibOp A)) n := by
    rintro ⟨op, hop, -⟩
    cases hop
  have hc : rib.candidate_after peer [] n = rib.candidate n peer := rfl
  unfold peers_after
  rw [hc]
  by_cases hsome : (rib.candidate n peer).isSome
  · rw [if_neg (by rw [Option.isNone_iff_eq_none]; exact Option.isSome_iff_ne_none.1 hsome),
      if_pos ⟨hnd, hsome⟩]
  · rw [if_pos (by rw [← Option.not_isSome]; simpa using hsome)]
    exact filter_ne_of_not_mem fun h => hsome ((rib.mem_peers n peer).1 h)

theorem filter_peers_after (ops : List (RibOp A)) (n : Nlri A) :
    (rib.peers_after peer ops n).filter (· ≠ peer) = rib.others peer n := by
  have hothers : (rib.others peer n).filter (· ≠ peer) = rib.others peer n := by
    unfold others
    rw [List.filter_filter]
    simp
  unfold peers_after
  split
  · exact hothers
  · split
    · rfl
    · rw [List.filter_append, hothers]
      simp

theorem peers_after_snoc_of_ne (ops : List (RibOp A)) {op : RibOp A} (h : op.nlri ≠ n) :
    rib.peers_after peer (ops ++ [op]) n = rib.peers_after peer ops n := by
  have hd : Dropped (ops ++ [op]) n ↔ Dropped ops n := by
    rw [dropped_snoc]
    exact or_iff_left fun hop => h hop.1
  unfold peers_after
  rw [candidate_after_snoc, if_neg h]
  simp only [hd]

/-- **The index after a batch.** -/
theorem peers_run_ops (ops : List (RibOp A)) (n : Nlri A) :
    (rib.run_ops peer oracle ops).1.peers n = rib.peers_after peer ops n := by
  induction ops using List.reverseRecOn with
  | nil => exact (rib.peers_after_nil peer n).symm
  | append_singleton ops op ih =>
    have hmem : peer ∈ rib.peers_after peer ops n ↔ (rib.candidate_after peer ops n).isSome := by
      rw [← ih, mem_peers, candidate_run_ops, candidate_of_after, if_pos rfl]
    rw [run_ops_snoc]
    cases op with
    | Drop m =>
      refine (peers_withdraw ..).trans ?_
      rw [ih]
      by_cases h : m = n
      · have hop : (RibOp.Drop m).nlri = n := h
        rw [if_pos h, filter_peers_after, peers_after, candidate_after_snoc, if_pos hop]
        exact (if_pos rfl).symm
      · rw [if_neg h, rib.peers_after_snoc_of_ne peer ops (by exact h)]
    | Put r =>
      refine (peers_insert ..).trans ?_
      rw [ih]
      by_cases h : r.nlri = n
      · have hop : (RibOp.Put r).nlri = n := h
        rw [if_pos h]
        have hd : Dropped (ops ++ [.Put r]) n ↔ Dropped ops n := by
          rw [dropped_snoc]
          exact or_iff_left fun hnone => Bool.false_ne_true hnone.2
        have hafter : rib.peers_after peer (ops ++ [.Put r]) n
            = if ¬Dropped ops n ∧ (rib.candidate n peer).isSome then rib.peers n
              else rib.others peer n ++ [peer] := by
          unfold peers_after
          rw [candidate_after_snoc, if_pos hop]
          refine (if_neg Bool.false_ne_true).trans ?_
          simp only [hd]
        rw [hafter]
        by_cases hthere : (rib.candidate_after peer ops n).isSome
        · -- the peer keeps its place
          rw [if_pos (hmem.2 hthere), peers_after, if_neg]
          rw [Option.isNone_iff_eq_none]
          exact Option.isSome_iff_ne_none.1 hthere
        · rw [if_neg fun hin => hthere (hmem.1 hin)]
          rw [Bool.not_eq_true, Option.isSome_eq_false_iff] at hthere
          have hgone := Option.isNone_iff_eq_none.1 hthere
          rw [if_neg fun hk => hk.1 (dropped_of_gone rib peer hgone hk.2), peers_after,
            if_pos hthere]
      · rw [if_neg h, rib.peers_after_snoc_of_ne peer ops (by exact h)]

theorem disturbed_snoc (ops : List (RibOp A)) (op : RibOp A) (n : Nlri A) :
    rib.Disturbed peer (ops ++ [op]) n ↔ rib.Disturbed peer ops n ∨
      (op.nlri = n ∧ (op.route?.isSome ∨ (rib.candidate n peer).isSome)) := by
  unfold Disturbed
  rw [dropped_snoc]
  simp only [List.mem_append, List.mem_singleton, or_and_right, exists_or, exists_eq_left]
  generalize (∃ x ∈ ops, x.nlri = n ∧ x.route?.isSome = true) = announced
  cases op with
  | Drop m =>
    simp only [RibOp.nlri_drop, RibOp.route_drop, Option.isSome_none, Option.isNone_none,
      Bool.false_eq_true, and_false, or_false, false_or, and_true]
    exact or_assoc.symm
  | Put r =>
    simp only [RibOp.nlri_put, RibOp.route_put, Option.isSome_some, Option.isNone_some,
      Bool.false_eq_true, and_false, false_and, or_false, true_or, and_true]
    exact or_right_comm

theorem winner_apply_op (t : LocRib A) (op : RibOp A) (n : Nlri A) :
    (t.apply_op peer oracle op).1.best_peer n
      = if op.nlri.masked = n.masked ∧ (op.route?.isSome ∨ (t.candidate op.nlri peer).isSome)
        then (select_best_with_oracle ((t.apply_op peer oracle op).1.peer_map op.nlri)
          oracle).map Prod.fst
        else t.best_peer n := by
  cases op with
  | Drop m =>
    show (t.withdraw peer m oracle).1.best_peer n = if m.masked = n.masked ∧ (_ ∨ _) then
      (select_best_with_oracle ((t.withdraw peer m oracle).1.peer_map m) oracle).map _ else _
    rw [withdraw_fst]
    by_cases hmem : (m, peer) ∈ t.candidates
    · have hsome := (t.mem_candidates_iff m peer).1 hmem
      simp only [if_pos hmem, best_peer_recompute_best, eq_comm (a := n.masked)]
      refine if_congr ?_ rfl rfl
      exact (and_iff_left (Or.inr hsome)).symm
    · have hnone := fun h => hmem ((t.mem_candidates_iff m peer).2 h)
      rw [if_neg hmem]
      refine (if_neg ?_).symm
      rintro ⟨-, h | h⟩
      · exact Bool.false_ne_true h
      · exact hnone h
  | Put r =>
    show (t.insert peer r oracle).1.best_peer n = if r.nlri.masked = n.masked ∧ (_ ∨ _) then
      (select_best_with_oracle ((t.insert peer r oracle).1.peer_map r.nlri) oracle).map _ else _
    rw [insert_fst, best_peer_recompute_best]
    refine if_congr ?_ rfl rfl
    rw [eq_comm]
    exact (and_iff_left (Or.inl rfl)).symm

theorem peer_map_run_ops (ops : List (RibOp A)) (n : Nlri A) :
    (rib.run_ops peer oracle ops).1.peer_map n = rib.peer_map_after peer ops n := by
  have hmap : (rib.run_ops peer oracle ops).1.peer_map n
      = ((rib.run_ops peer oracle ops).1.peers n).filterMap fun q =>
        ((rib.run_ops peer oracle ops).1.candidate n q).map (q, ·) := rfl
  rw [hmap, peers_run_ops]
  simp only [candidate_run_ops]
  rfl

/-- **The winners after a batch** whose prefixes are in network form. -/
theorem best_peer_run_ops (hops : ∀ op ∈ ops, op.nlri.Canonical) (n : Nlri A) :
    (rib.run_ops peer oracle ops).1.best_peer n = rib.winner_after peer oracle ops n := by
  induction ops using List.reverseRecOn with
  | nil =>
    have hd : ¬rib.Disturbed peer [] n.masked := by
      rintro (⟨op, hop, -⟩ | ⟨⟨op, hop, -⟩, -⟩)
      · cases hop
      · cases hop
    rw [winner_after, if_neg hd]
    rfl
  | append_singleton ops op ih =>
    have ih := ih fun o ho => hops o (List.mem_append_left _ ho)
    have hop : op.nlri.Canonical := hops op (List.mem_append_right _ (List.mem_singleton_self op))
    have hpm : (op_step peer oracle (rib.run_ops peer oracle ops) op).1.peer_map op.nlri
        = rib.peer_map_after peer (ops ++ [op]) op.nlri := by
      rw [← run_ops_snoc, peer_map_run_ops]
    rw [run_ops_snoc]
    refine (winner_apply_op peer oracle _ op n).trans ?_
    rw [show (apply_op (rib.run_ops peer oracle ops).1 peer oracle op).1.peer_map op.nlri
      = _ from hpm, ih, candidate_run_ops, candidate_of_after, if_pos rfl, hop]
    by_cases hn : op.nlri = n.masked
    · rw [hn]
      by_cases heff : op.route?.isSome ∨ (rib.candidate_after peer ops n.masked).isSome
      · have hd : rib.Disturbed peer (ops ++ [op]) n.masked := by
          rw [disturbed_snoc]
          rcases heff with h | h
          · exact .inr ⟨hn, .inl h⟩
          · rcases rib.disturbed_of_there peer h with h | h
            · exact .inl h
            · exact .inr ⟨hn, .inr h⟩
        rw [if_pos ⟨rfl, heff⟩, winner_after, if_pos hd]
      · -- there was nothing to withdraw
        rw [if_neg fun h => heff h.2]
        rw [not_or] at heff
        have hroute : op.route? = none := by simpa using heff.1
        have hgone : rib.candidate_after peer ops n.masked = none := by simpa using heff.2
        have hd : rib.Disturbed peer (ops ++ [op]) n.masked ↔ rib.Disturbed peer ops n.masked := by
          rw [disturbed_snoc, or_iff_left_iff_imp]
          rintro ⟨-, h | h⟩
          · exact absurd h heff.1
          · exact .inr ⟨rib.dropped_of_gone peer hgone h, h⟩
        have hafter : rib.candidate_after peer (ops ++ [op]) n.masked
            = rib.candidate_after peer ops n.masked := by
          rw [candidate_after_snoc, if_pos hn, hroute, hgone]
        unfold winner_after
        simp only [hd]
        unfold peer_map_after peers_after candidate_of_after
        rw [hafter, hgone]
        rfl
    · -- the change is in another network
      rw [if_neg fun h => hn h.1]
      have hd : rib.Disturbed peer (ops ++ [op]) n.masked ↔ rib.Disturbed peer ops n.masked := by
        rw [disturbed_snoc]
        exact or_iff_left fun h => hn h.1
      unfold winner_after
      simp only [hd]
      unfold peer_map_after candidate_of_after
      rw [rib.peers_after_snoc_of_ne peer ops hn, candidate_after_snoc, if_neg hn]

/-- **The best routes after a batch** whose prefixes are in network form. -/
theorem best_entry_run_ops (hops : ∀ op ∈ ops, op.nlri.Canonical) (n : Nlri A) :
    (rib.run_ops peer oracle ops).1.best_entry n = rib.best_after peer oracle ops n := by
  unfold best_entry best_after
  rw [rib.best_peer_run_ops peer oracle hops]
  simp only [candidate_run_ops]

/-! ## A batch, and then the peer is gone -/

/-- The winner of a prefix when the peer leaves after a batch: once the peer had a say in the
network, the best of the other candidates. -/
def winner_cut (ops : List (RibOp A)) (n : Nlri A) : Option PeerId :=
  if rib.Disturbed peer ops n.masked ∨ (rib.candidate n.masked peer).isSome then
    (select_best_with_oracle ((rib.peer_map n.masked).filter (·.1 ≠ peer)) oracle).map Prod.fst
  else rib.best_peer n

/-- The best route of a prefix when the peer leaves after a batch. -/
def best_cut (ops : List (RibOp A)) (n : Nlri A) : Option (PeerId × Route A) :=
  (rib.winner_cut peer oracle ops n).bind fun q =>
    if q = peer then none else (rib.candidate n q).map (q, ·)

theorem filter_peer_map_after (ops : List (RibOp A)) (n : Nlri A) :
    (rib.peer_map_after peer ops n).filter (·.1 ≠ peer) = (rib.peer_map n).filter (·.1 ≠ peer) := by
  -- both are the list of the other peers with their candidates
  have hmap : rib.peer_map n = (rib.peers n).filterMap fun q => (rib.candidate n q).map (q, ·) :=
    rfl
  rw [hmap, peer_map_after, filter_candidates, filter_candidates, filter_peers_after]
  refine List.filterMap_congr fun q hq => ?_
  have hne : q ≠ peer := by simpa using (List.mem_filter.1 hq).2
  rw [candidate_of_after, if_neg hne]

theorem canonical_of_after (hops : ∀ op ∈ ops, op.nlri.Canonical)
    (hcand : ∀ n, (rib.candidate n peer).isSome → n.Canonical)
    (h : (rib.candidate_after peer ops n).isSome) : n.Canonical := by
  rcases rib.disturbed_of_there peer h with (⟨op, hop, rfl, -⟩ | ⟨-, h⟩) | h
  · exact hops op hop
  · exact hcand n h
  · exact hcand n h

/-- **The best routes after a batch and the loss of the peer**, when everything of the peer is
in network form. -/
theorem best_without_run_ops (hops : ∀ op ∈ ops, op.nlri.Canonical)
    (hcand : ∀ n, (rib.candidate n peer).isSome → n.Canonical) (n : Nlri A) :
    (rib.run_ops peer oracle ops).1.best_without peer oracle n
      = rib.best_cut peer oracle ops n := by
  have hthere : ∀ m, (rib.run_ops peer oracle ops).1.candidate m peer
      = rib.candidate_after peer ops m := by
    intro m
    rw [candidate_run_ops, candidate_of_after, if_pos rfl]
  have hwin : (rib.run_ops peer oracle ops).1.winner_without peer oracle n
      = rib.winner_cut peer oracle ops n := by
    unfold winner_without winner_cut
    cases hlast : (((rib.run_ops peer oracle ops).1.prefixes_of peer).filter
        (·.masked = n.masked)).getLast? with
    | some m =>
      -- all prefixes in sight are in network form, so the last one withdrawn is `n.masked`
      have hm := List.mem_filter.1 (List.mem_of_getLast? hlast)
      rw [mem_prefixes_of, hthere] at hm
      have hmn : m = n.masked :=
        (rib.canonical_of_after peer hops hcand hm.1).symm.trans (of_decide_eq_true hm.2)
      rw [if_pos (hmn ▸ rib.disturbed_of_there peer hm.1)]
      dsimp only
      rw [peer_map_run_ops, filter_peer_map_after, hmn]
    | none =>
      have hgone : rib.candidate_after peer ops n.masked = none := by
        rw [← Option.not_isSome_iff_eq_none, ← hthere, ← mem_prefixes_of]
        intro hmem
        rw [List.getLast?_eq_none_iff, List.filter_eq_nil_iff] at hlast
        exact hlast _ hmem (decide_eq_true n.masked_canonical)
      dsimp only
      rw [rib.best_peer_run_ops peer oracle hops, winner_after]
      refine if_congr ?_ ?_ rfl
      · refine ⟨Or.inl, fun h => h.elim id fun h => ?_⟩
        exact .inr ⟨rib.dropped_of_gone peer hgone h, h⟩
      · have hnot : (rib.peer_map_after peer ops n.masked).filter (·.1 ≠ peer)
            = rib.peer_map_after peer ops n.masked := by
          refine List.filter_eq_self.2 fun e he => ?_
          obtain ⟨q, hq, heq⟩ := List.mem_filterMap.1 he
          obtain ⟨r, hr, rfl⟩ := Option.map_eq_some_iff.1 heq
          simp only [ne_eq, decide_not, Bool.not_eq_true', decide_eq_false_iff_not]
          rintro rfl
          rw [candidate_of_after, if_pos rfl, hgone] at hr
          cases hr
        rw [← hnot, filter_peer_map_after]
  unfold best_without best_cut
  rw [hwin]
  refine Option.bind_congr fun q _ => ?_
  split
  · rfl
  · rename_i hq
    rw [candidate_run_ops, candidate_of_after, if_neg hq]

end LocRib

end Pathvector

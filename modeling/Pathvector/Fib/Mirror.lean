/-
# The kernel as a mirror of the best routes

Where no route carries BLACKHOLE, the kernel should have an entry for just the prefixes whose best
route has a next hop of the family, with that next hop: `Mirrors`. The Loc-RIB reports what becomes
of a best route, and a call installs the next hop that is reported. Two kinds of reports fall short
of it. A best route that takes the place of another and has no usable next hop itself is reported,
but calls for no operation, and the old entry stays. And an insertion that leaves the prefix without
any best route is not reported at all.

`Keeps` rules both out, for one change to the Loc-RIB; `Mirrors.run_ops` and
`Mirrors.recompute_all` are the batches.
-/
import Pathvector.Fib.Issued
import Pathvector.Rib.Completeness

set_option autoImplicit false

namespace Pathvector

variable {A : Type} [IpAddress A] [DecidableEq A] (gateway : Option NextHop → Option A)
variable {k : KernelTable A} {t : LocRib A} {change : BestPathChange A} {oracle : NextHopOracle}

/-- The entry that a best route should have in the kernel. -/
def kernel_entry (best : Option (Route A)) : Option (KernelEntry A) :=
  best.bind fun r => (gateway r.next_hop).map .Unicast

/-- **The kernel mirrors the best routes.** -/
def Mirrors (k : KernelTable A) (rib : LocRib A) : Prop :=
  ∀ n, k n = kernel_entry gateway (rib.best n)

/-- A best route with an entry goes altogether, or gives way to another one with an entry. -/
def KeepsOrGoes (old new : Option (Route A)) : Prop :=
  (kernel_entry gateway old).isSome → new = none ∨ (kernel_entry gateway new).isSome

instance (old new : Option (Route A)) : Decidable (KeepsOrGoes gateway old new) :=
  decidable_of_iff ((kernel_entry gateway old).isSome → new.isNone ∨
    (kernel_entry gateway new).isSome) (by unfold KeepsOrGoes; rw [Option.isNone_iff_eq_none])

variable {gateway}

omit [DecidableEq A] in
theorem KeepsOrGoes.same (r : Option (Route A)) : KeepsOrGoes gateway r r := fun h => .inr h

theorem entry_issue {f : Nlri A → Option (Route A)} {n : Nlri A}
    (hk : k n = kernel_entry gateway (f n))
    (hkeep : KeepsOrGoes gateway (f n) (change.follow f n)) :
    k.issue (change.operation gateway) n = kernel_entry gateway (change.follow f n) := by
  by_cases hn : change.nlri? = some n
  · cases change with
    | Announced m r =>
      cases hn
      simp only [BestPathChange.follow, Function.update_self] at hkeep ⊢
      cases hgw : gateway r.next_hop with
      | some gw =>
        simp [BestPathChange.operation, kernel_entry, KernelTable.issue, Coalesce.issue,
          Pending.write, hgw]
      | none =>
        -- the report calls for no operation, so there must not have been an entry
        have hnone : kernel_entry gateway (some r) = none := by simp [kernel_entry, hgw]
        have hold : kernel_entry gateway (f n) = none := by
          by_contra h
          rcases hkeep (Option.isSome_iff_ne_none.2 h) with h | h
          · cases h
          · rw [hnone] at h
            cases h
        simp [BestPathChange.operation, KernelTable.issue, hgw, hk, hold, hnone]
    | Withdrawn m =>
      cases hn
      simp only [BestPathChange.operation, BestPathChange.follow, KernelTable.issue,
        Coalesce.issue, Function.update_self, hk]
      unfold kernel_entry
      cases f n with
      | none => rfl
      | some r => cases h : gateway r.next_hop <;> simp [h, Pending.write]
    | Unchanged => cases hn
  · rw [follow_of_not_named hn, ← hk]
    cases change with
    | Announced m r =>
      have hm : n ≠ m := fun h => hn (congrArg some h.symm)
      cases hgw : gateway r.next_hop <;>
        simp [BestPathChange.operation, KernelTable.issue, Coalesce.issue, hgw, hm]
    | Withdrawn m =>
      have hm : n ≠ m := fun h => hn (congrArg some h.symm)
      simp [BestPathChange.operation, KernelTable.issue, Coalesce.issue, hm]
    | Unchanged => rfl

theorem Mirrors.issue {u : LocRib A} (hk : Mirrors gateway k t)
    (hfollow : ∀ n, kernel_entry gateway (change.follow t.best n)
      = kernel_entry gateway (u.best n))
    (hkeep : ∀ n, KeepsOrGoes gateway (t.best n) (change.follow t.best n)) :
    Mirrors gateway (k.issue (change.operation gateway)) u := by
  intro n
  rw [entry_issue (hk n) (hkeep n), hfollow]

namespace LocRib

variable (gateway)
variable {t : LocRib A} {oracle : NextHopOracle} {k : KernelTable A} {peer : PeerId}

/-- The change takes no entry of the kernel away without a report that says so. -/
def Keeps (peer : PeerId) (oracle : NextHopOracle) (rib : LocRib A) : RibOp A → Prop
  | .Put r => (kernel_entry gateway (rib.best r.nlri)).isSome →
      (kernel_entry gateway ((rib.insert peer r oracle).1.best r.nlri)).isSome
  | .Drop n => KeepsOrGoes gateway (rib.best n) ((rib.withdraw peer n oracle).1.best n)

instance (peer : PeerId) (oracle : NextHopOracle) (rib : LocRib A) :
    ∀ op : RibOp A, Decidable (rib.Keeps gateway peer oracle op)
  | .Put _ => inferInstanceAs (Decidable (_ → _))
  | .Drop _ => inferInstanceAs (Decidable (KeepsOrGoes ..))

variable {gateway}

theorem mirrors_insert (ht : t.Networks) (hk : Mirrors gateway k t) {r : Route A}
    (hr : r.nlri.Canonical) (hkeep : t.Keeps gateway peer oracle (.Put r)) :
    Mirrors gateway (k.issue ((t.insert peer r oracle).2.operation gateway))
      (t.insert peer r oracle).1 := by
  have hself := t.follow_insert peer r oracle (f := t.best) (.inl rfl)
  have hnone : ¬((t.insert peer r oracle).1.best_peer r.nlri).isSome →
      kernel_entry gateway (t.best r.nlri) = none := by
    intro h
    by_contra hold
    have hnew := hkeep (Option.isSome_iff_ne_none.2 hold)
    rw [best_eq_none_of_best_peer h] at hnew
    cases hnew
  refine hk.issue (fun n => ?_) fun n => ?_
  · by_cases hn : r.nlri = n
    · subst hn
      rw [hself]
      split
      · rfl
      · next h => rw [hnone h, best_eq_none_of_best_peer h]; rfl
    · rw [t.follow_insert_of_ne peer r oracle t.best hn]
      by_cases hnet : n.masked = r.nlri.masked
      · have hhost : ¬n.Canonical := fun hcan => hn ((hcan.masked_inj hr).1 hnet).symm
        rw [ht.best hhost, (ht.insert peer hr oracle).best hhost]
      · rw [t.best_insert_of_ne peer r oracle hnet]
  · by_cases hn : r.nlri = n
    · subst hn
      rw [hself]
      split
      · exact fun h => .inr (hkeep h)
      · exact .same _
    · rw [t.follow_insert_of_ne peer r oracle t.best hn]
      exact .same _

theorem mirrors_withdraw (ht : t.Networks) (hk : Mirrors gateway k t) {n : Nlri A}
    (hkeep : t.Keeps gateway peer oracle (.Drop n)) :
    Mirrors gateway (k.issue ((t.withdraw peer n oracle).2.operation gateway))
      (t.withdraw peer n oracle).1 := by
  by_cases hn : n.Canonical
  · have hfollow := followed_withdraw ht (f := t.best) (fun _ => rfl) peer hn oracle
    refine hk.issue (fun m => congrArg _ (hfollow m)) fun m => ?_
    by_cases hm : n = m
    · subst hm
      rw [hfollow n]
      exact hkeep
    · rw [t.follow_withdraw_of_ne peer n oracle t.best hm]
      exact .same _
  · -- there is no candidate for a prefix with host bits
    have hmem : (n, peer) ∉ t.candidates := by
      rw [mem_candidates_iff, ht.candidate hn]
      exact Bool.false_ne_true
    unfold withdraw
    rw [if_neg hmem]
    exact hk

theorem networks_apply_op (ht : t.Networks) (peer : PeerId) (oracle : NextHopOracle) {op : RibOp A}
    (hop : ∀ r, op.route? = some r → r.nlri.Canonical) :
    (t.apply_op peer oracle op).1.Networks := by
  cases op with
  | Put r => exact ht.insert peer (hop r rfl) oracle
  | Drop n => exact ht.withdraw peer n oracle

theorem networks_run_ops (ht : t.Networks) (peer : PeerId) (oracle : NextHopOracle)
    {ops : List (RibOp A)} (hops : ∀ op ∈ ops, ∀ r, op.route? = some r → r.nlri.Canonical) :
    (t.run_ops peer oracle ops).1.Networks :=
  List.foldl_invariant (op_step peer oracle) (fun acc => acc.1.Networks) ops (t, []) ht
    fun _ op hop h => networks_apply_op h peer oracle (hops op hop)

end LocRib

/-- **A batch of changes is mirrored** if each keeps the entries in its turn. -/
theorem Mirrors.run_ops (ht : t.Networks) (hk : Mirrors gateway k t) {peer : PeerId}
    {ops : List (RibOp A)} (hops : ∀ op ∈ ops, ∀ r, op.route? = some r → r.nlri.Canonical)
    (hkeep : Machine.Guarded (LocRib.op_step peer oracle)
      (fun acc => acc.1.Keeps gateway peer oracle) (t, []) ops) :
    Mirrors gateway (k.issue_all gateway ((t.run_ops peer oracle ops).2.map .Apply))
      (t.run_ops peer oracle ops).1 := by
  -- over the ops still to come, from the table and the reports that the others have left
  have hgen : ∀ (acc : LocRib A × List (BestPathChange A)), acc.1.Networks →
      Mirrors gateway (k.issue_all gateway (acc.2.map .Apply)) acc.1 →
      Machine.Guarded (LocRib.op_step peer oracle)
        (fun acc => acc.1.Keeps gateway peer oracle) acc ops →
      Mirrors gateway
        (k.issue_all gateway ((ops.foldl (LocRib.op_step peer oracle) acc).2.map .Apply))
        (ops.foldl (LocRib.op_step peer oracle) acc).1 := by
    clear hkeep hk ht
    induction ops with
    | nil => exact fun _ _ h _ => h
    | cons op ops ih =>
      intro acc hnet hacc hg
      have hop := hops op (List.mem_cons_self ..)
      refine ih (fun o ho => hops o (List.mem_cons_of_mem _ ho)) _
        (LocRib.networks_apply_op hnet peer oracle hop) ?_ hg.2
      change Mirrors gateway (k.issue_all gateway ((acc.2 ++ [_]).map .Apply)) _
      rw [List.map_append, KernelTable.issue_all_append]
      cases op with
      | Put r => exact LocRib.mirrors_insert hnet hacc (hop r rfl) hg.1
      | Drop n => exact LocRib.mirrors_withdraw hnet hacc hg.1
  exact hgen (t, []) ht hk hkeep

/-! ## A new choice of all winners -/

namespace LocRib

theorem recompute_step_snd (oracle : NextHopOracle) (acc : LocRib A × List (BestPathChange A))
    (n : Nlri A) :
    ∃ report : Option (BestPathChange A), (recompute_step oracle (acc.1, []) n).2 = report.toList ∧
      (recompute_step oracle acc n).2 = acc.2 ++ report.toList := by
  unfold recompute_step
  dsimp only
  split
  · exact ⟨none, rfl, (List.append_nil _).symm⟩
  · exact ⟨some _, rfl, rfl⟩
  · split
    · exact ⟨none, rfl, (List.append_nil _).symm⟩
    · exact ⟨_, rfl, rfl⟩

theorem mirrors_recompute_step {acc : LocRib A × List (BestPathChange A)} (hnet : acc.1.Networks)
    (hk : Mirrors gateway (k.issue_all gateway (acc.2.map .Apply)) acc.1) {n : Nlri A}
    (hn : n.Canonical)
    (hkeep : KeepsOrGoes gateway (acc.1.best n) ((acc.1.recompute_best n oracle).best n)) :
    Mirrors gateway (k.issue_all gateway ((recompute_step oracle acc n).2.map .Apply))
      (recompute_step oracle acc n).1 := by
  obtain ⟨report, hone, hall⟩ := recompute_step_snd oracle acc n
  -- with no reports before it, the step's one report follows the old best routes
  have hfollow := @followed_recompute_step A _ _ acc.1.best n (acc.1, []) hnet (fun _ => rfl) hn
    oracle
  rw [recompute_step_fst, hone] at hfollow
  rw [recompute_step_fst, hall, List.map_append, KernelTable.issue_all_append]
  cases report with
  | none =>
    intro m
    rw [← hfollow m]
    exact hk m
  | some change =>
    refine hk.issue (fun m => congrArg _ (hfollow m)) fun m => ?_
    have hm := hfollow m
    change change.follow acc.1.best m = _ at hm
    rw [hm]
    by_cases hmn : m = n
    · rw [hmn]
      exact hkeep
    · have hsame : (acc.1.recompute_best n oracle).best m = acc.1.best m := by
        by_cases hmask : m.masked = n.masked
        · have hhost : ¬m.Canonical := fun hcan => hmn ((hcan.masked_inj hn).1 hmask)
          rw [hnet.best hhost, (hnet.recompute_best n oracle).best hhost]
        · rw [best, best, best_peer_recompute_best, if_neg hmask]
          rfl
      rw [hsame]
      exact .same _

variable (gateway)

/-- No prefix has a best route with an entry replaced by one without. -/
def Reselects (rib : LocRib A) (oracle : NextHopOracle) : Prop :=
  Machine.Guarded (recompute_step oracle)
    (fun acc n => KeepsOrGoes gateway (acc.1.best n) ((acc.1.recompute_best n oracle).best n))
    (rib, []) rib.peer_index.keys
deriving Decidable

end LocRib

theorem Mirrors.recompute_all (ht : t.Networks) (hk : Mirrors gateway k t)
    (hkeep : t.Reselects gateway oracle) :
    Mirrors gateway (k.issue_all gateway ((t.recompute_all oracle).2.map .Apply))
      (t.recompute_all oracle).1 := by
  have hgen : ∀ (l : List (Nlri A)), (∀ n ∈ l, n.Canonical) →
      ∀ (acc : LocRib A × List (BestPathChange A)), acc.1.Networks →
      Mirrors gateway (k.issue_all gateway (acc.2.map .Apply)) acc.1 →
      Machine.Guarded (LocRib.recompute_step oracle)
        (fun acc n => KeepsOrGoes gateway (acc.1.best n) ((acc.1.recompute_best n oracle).best n))
        acc l →
      Mirrors gateway
        (k.issue_all gateway ((l.foldl (LocRib.recompute_step oracle) acc).2.map .Apply))
        (l.foldl (LocRib.recompute_step oracle) acc).1 := by
    intro l
    induction l with
    | nil => exact fun _ _ _ h _ => h
    | cons n l ih =>
      intro hl acc hnet hacc hg
      have hn := hl n (List.mem_cons_self ..)
      refine ih (fun m hm => hl m (List.mem_cons_of_mem _ hm)) _ ?_ ?_ hg.2
      · rw [LocRib.recompute_step_fst]
        exact hnet.recompute_best n oracle
      · exact LocRib.mirrors_recompute_step hnet hacc hn hg.1
  exact hgen _ (fun n hn => ht n hn) (t, []) ht hk hkeep

end Pathvector

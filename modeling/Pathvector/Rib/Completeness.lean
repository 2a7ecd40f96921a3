/-
# Are the reports complete?

Every operation on the Loc-RIB returns reports of what became of the best routes, and whoever
follows them from an empty table should hold the table of best routes at any time, whatever
the next-hop oracle says from one operation to the next.

`withdraw`, `withdraw_peer` and `recompute_all` report everything. `insert` does not: when a
route takes the place of the last usable one, the prefix loses its best route and nothing is
reported. `KeepsUsable` excludes just that, and `reports_complete_iff` says that nothing else
has to be excluded.

The table of winners is keyed by networks, so the prefixes are in network form throughout.
-/
import Pathvector.Rib.Reports

set_option autoImplicit false

namespace Pathvector

variable {A : Type} [IpAddress A] [DecidableEq A]

/-! ## Histories -/

/-- An operation on a Loc-RIB, with the oracle it is given. -/
inductive LocRibOp (A : Type) [IpAddress A] where
  | insert (peer : PeerId) (route : Route A) (oracle : NextHopOracle)
  | withdraw (peer : PeerId) (nlri : Nlri A) (oracle : NextHopOracle)
  | withdraw_peer (peer : PeerId) (oracle : NextHopOracle)
  | recompute_all (oracle : NextHopOracle)

/-- The oracle of an operation. -/
def LocRibOp.oracle : LocRibOp A → NextHopOracle
  | .insert _ _ oracle => oracle
  | .withdraw _ _ oracle => oracle
  | .withdraw_peer _ oracle => oracle
  | .recompute_all oracle => oracle

/-- The prefix an operation names is in network form. -/
def LocRibOp.Canonical : LocRibOp A → Prop
  | .insert _ route _ => route.nlri.Canonical
  | .withdraw _ nlri _ => nlri.Canonical
  | .withdraw_peer _ _ => True
  | .recompute_all _ => True

instance : (op : LocRibOp A) → Decidable op.Canonical
  | .insert _ route _ => inferInstanceAs (Decidable route.nlri.Canonical)
  | .withdraw _ nlri _ => inferInstanceAs (Decidable nlri.Canonical)
  | .withdraw_peer _ _ => inferInstanceAs (Decidable True)
  | .recompute_all _ => inferInstanceAs (Decidable True)

namespace LocRib

variable (t : LocRib A) (peer : PeerId) (r : Route A) (oracle : NextHopOracle)
  {f : Nlri A → Option (Route A)} {n m : Nlri A} {rib : LocRib A} {op : LocRibOp A}

/-- One operation, with its reports. -/
def perform (rib : LocRib A) : LocRibOp A → LocRib A × List (BestPathChange A)
  | .insert peer route oracle =>
    let r := rib.insert peer route oracle
    (r.1, [r.2])
  | .withdraw peer nlri oracle =>
    let r := rib.withdraw peer nlri oracle
    (r.1, [r.2])
  | .withdraw_peer peer oracle => rib.withdraw_peer peer oracle
  | .recompute_all oracle => rib.recompute_all oracle

/-- A history from the empty table, with all its reports. -/
def history (ops : List (LocRibOp A)) : LocRib A × List (BestPathChange A) :=
  ops.foldl (fun acc op => ((acc.1.perform op).1, acc.2 ++ (acc.1.perform op).2)) (new, [])

theorem history_snoc (ops : List (LocRibOp A)) (op : LocRibOp A) :
    history (ops ++ [op])
      = (((history ops).1.perform op).1, (history ops).2 ++ ((history ops).1.perform op).2) := by
  unfold history
  rw [List.foldl_append]
  rfl

/-! ## Only networks -/

/-- Every prefix in the table is in network form. -/
def Networks (rib : LocRib A) : Prop := ∀ n ∈ rib.peer_index, n.Canonical

theorem Networks.candidate (h : rib.Networks) (hn : ¬n.Canonical) (p : PeerId) :
    rib.candidate n p = none := by
  rw [← Option.not_isSome_iff_eq_none, ← mem_candidates_iff, ← rib.mem_index]
  intro hp
  apply hn
  apply h
  rw [← AList.lookup_isSome]
  cases hl : rib.peer_index.lookup n with
  | none =>
    rw [hl] at hp
    cases hp
  | some peers => rfl

theorem Networks.best (h : rib.Networks) (hn : ¬n.Canonical) : rib.best n = none := by
  unfold LocRib.best
  cases rib.best_peer n with
  | none => rfl
  | some p => exact h.candidate hn p

theorem networks_new : (new : LocRib A).Networks := by
  intro n hn
  cases hn

theorem Networks.recompute_best (h : rib.Networks) (n : Nlri A) (oracle : NextHopOracle) :
    (rib.recompute_best n oracle).Networks := h

theorem Networks.insert (h : rib.Networks) (peer : PeerId) {route : Route A}
    (hr : route.nlri.Canonical) (oracle : NextHopOracle) :
    (rib.insert peer route oracle).1.Networks := by
  rw [insert_fst]
  intro n hn
  have hn' : n ∈ rib.peer_index.insert route.nlri _ := hn
  rcases (AList.mem_insert _).1 hn' with rfl | hn'
  · exact hr
  · exact h n hn'

theorem Networks.withdraw (h : rib.Networks) (peer : PeerId) (m : Nlri A) (oracle : NextHopOracle) :
    (rib.withdraw peer m oracle).1.Networks := by
  rw [withdraw_fst]
  split
  · rename_i hmem
    intro n hn
    have hn' : n ∈ (if rib.others peer m = [] then rib.peer_index.erase m
      else rib.peer_index.insert m (rib.others peer m)) := hn
    have hm : m.Canonical := by
      by_contra hm
      rw [mem_candidates_iff, h.candidate hm] at hmem
      cases hmem
    split at hn'
    · exact h n (AList.mem_erase.1 hn').2
    · rcases (AList.mem_insert _).1 hn' with rfl | hn'
      · exact hm
      · exact h n hn'
  · exact h

/-! ## Following one operation -/

/-- The table `f` is that of the best routes. -/
def Followed (rib : LocRib A) (f : Nlri A → Option (Route A)) : Prop :=
  ∀ n, f n = rib.best n

/-- A change to one network that is followed at its prefix is followed everywhere. -/
theorem Followed.of_network {t u : LocRib A} {g : Nlri A → Option (Route A)} (ht : t.Networks)
    (hu : u.Networks) (hf : t.Followed f) (hn : n.Canonical) (hself : g n = u.best n)
    (hother : ∀ m, n ≠ m → g m = f m) (hbest : ∀ m, m.masked ≠ n.masked → u.best m = t.best m) :
    u.Followed g := by
  intro m
  by_cases hm : n = m
  · rw [← hm, hself]
  · rw [hother m hm, hf m]
    by_cases hnet : m.masked = n.masked
    · -- another prefix of the network has host bits, and no best route
      have hhost : ¬m.Canonical := by
        intro hcan
        exact hm (((hcan.masked_inj hn).1 hnet).symm)
      rw [ht.best hhost, hu.best hhost]
    · exact (hbest m hnet).symm

theorem mem_peer_map (n : Nlri A) (c : PeerId × Route A) :
    c ∈ t.peer_map n ↔ t.candidate n c.1 = some c.2 := by
  unfold peer_map
  rw [List.mem_filterMap]
  constructor
  · rintro ⟨q, -, hq⟩
    obtain ⟨r, hr, rfl⟩ := Option.map_eq_some_iff.1 hq
    exact hr
  · intro h
    refine ⟨c.1, ?_, ?_⟩
    · rw [t.mem_index, mem_candidates_iff, h]
      rfl
    · rw [h]
      rfl

/-- After an insertion the prefix has a winner if the new route is usable, or that of another
peer. -/
theorem best_peer_insert_isSome :
    ((t.insert peer r oracle).1.best_peer r.nlri).isSome ↔
      usable oracle r = true ∨
        ∃ q r', q ≠ peer ∧ t.candidate r.nlri q = some r' ∧ usable oracle r' = true := by
  rw [selected_insert, Option.isSome_map, select_best_isSome_iff]
  have hmem : ∀ c : PeerId × Route A, c ∈ (t.insert peer r oracle).1.peer_map r.nlri ↔
      (if c.1 = peer then some r else t.candidate r.nlri c.1) = some c.2 := by
    intro c
    rw [mem_peer_map, candidate_insert]
    simp only [true_and]
  simp only [hmem]
  constructor
  · rintro ⟨⟨q, r'⟩, hc, husable⟩
    by_cases hq : q = peer
    · rw [if_pos hq, Option.some.injEq] at hc
      exact .inl (hc ▸ husable)
    · rw [if_neg hq] at hc
      exact .inr ⟨q, r', hq, hc, husable⟩
  · rintro (h | ⟨q, r', hq, hc, husable⟩)
    · exact ⟨(peer, r), if_pos rfl, h⟩
    · exact ⟨(q, r'), (if_neg hq).trans hc, husable⟩

theorem best_eq_none_of_best_peer {t : LocRib A} (h : ¬(t.best_peer n).isSome) :
    t.best n = none := by
  rw [Option.not_isSome_iff_eq_none] at h
  rw [LocRib.best, h]
  rfl

theorem follow_insert_of_ne (f : Nlri A → Option (Route A)) (hm : r.nlri ≠ m) :
    (t.insert peer r oracle).2.follow f m = f m :=
  t.follow_apply_op_of_ne peer oracle (.Put r) f hm

theorem follow_withdraw_of_ne (n : Nlri A) (oracle : NextHopOracle) (f : Nlri A → Option (Route A))
    (hm : n ≠ m) : (t.withdraw peer n oracle).2.follow f m = f m :=
  t.follow_apply_op_of_ne peer oracle (.Drop n) f hm

theorem best_insert_of_ne (hm : m.masked ≠ r.nlri.masked) :
    (t.insert peer r oracle).1.best m = t.best m := by
  rw [best_eq_best_entry, best_eq_best_entry, best_entry_insert_of_ne t peer r oracle hm]

theorem best_withdraw_of_ne (n : Nlri A) (oracle : NextHopOracle) (hm : m.masked ≠ n.masked) :
    (t.withdraw peer n oracle).1.best m = t.best m := by
  rw [best_eq_best_entry, best_eq_best_entry, best_entry_withdraw_of_ne t peer n oracle hm]

theorem followed_insert_iff {t : LocRib A} (ht : t.Networks) (hf : t.Followed f) (peer : PeerId)
    {r : Route A} (hr : r.nlri.Canonical) (oracle : NextHopOracle) :
    (t.insert peer r oracle).1.Followed ((t.insert peer r oracle).2.follow f) ↔
      ((t.best r.nlri).isSome → ((t.insert peer r oracle).1.best_peer r.nlri).isSome) := by
  have hself := t.follow_insert peer r oracle (.inl (hf r.nlri))
  constructor
  · intro h hbest
    by_contra hnone
    rw [if_neg hnone, h r.nlri, hf r.nlri, best_eq_none_of_best_peer hnone] at hself
    rw [← hself] at hbest
    cases hbest
  · intro h
    refine Followed.of_network ht (ht.insert peer hr oracle) hf hr ?_ ?_ ?_
    · rw [hself]
      split
      · rfl
      · rename_i hnone
        rw [best_eq_none_of_best_peer hnone, hf r.nlri, ← Option.not_isSome_iff_eq_none]
        exact fun hbest => hnone (h hbest)
    · intro m hm
      exact t.follow_insert_of_ne peer r oracle f hm
    · intro m hm
      exact t.best_insert_of_ne peer r oracle hm

theorem followed_withdraw {t : LocRib A} (ht : t.Networks) (hf : t.Followed f) (peer : PeerId)
    (hn : n.Canonical) (oracle : NextHopOracle) :
    (t.withdraw peer n oracle).1.Followed ((t.withdraw peer n oracle).2.follow f) := by
  refine Followed.of_network ht (ht.withdraw peer n oracle) hf hn ?_ ?_ ?_
  · by_cases hmem : (n, peer) ∈ t.candidates
    · by_cases hothers : t.others peer n = []
      · obtain ⟨hnone, hfollow⟩ := t.follow_withdraw_of_alone peer n oracle hmem hothers f
        rw [hfollow, best_eq_none_of_best_peer (Option.not_isSome_iff_eq_none.2 hnone)]
        split
        · rfl
        · rename_i hwas
          rw [hf n, best_eq_none_of_best_peer hwas]
      · exact t.follow_withdraw_of_others peer n oracle hmem hothers (.inl (hf n))
    · -- there is nothing to withdraw
      unfold withdraw
      rw [if_neg hmem]
      exact hf n
  · intro m hm
    exact t.follow_withdraw_of_ne peer n oracle f hm
  · intro m hm
    exact t.best_withdraw_of_ne peer n oracle hm

/-- What `withdraw_peer` and `recompute_all` do prefix by prefix is followed if each step is. -/
theorem followed_fold
    {step : LocRib A × List (BestPathChange A) → Nlri A → LocRib A × List (BestPathChange A)}
    (hstep : ∀ (acc : LocRib A × List (BestPathChange A)) (f : Nlri A → Option (Route A))
      (n : Nlri A), n.Canonical → acc.1.Networks → acc.1.Followed (follow_all f acc.2) →
        (step acc n).1.Networks ∧ (step acc n).1.Followed (follow_all f (step acc n).2))
    {t : LocRib A} (ht : t.Networks) (hf : t.Followed f) {l : List (Nlri A)}
    (hl : ∀ n ∈ l, n.Canonical) :
    (l.foldl step (t, [])).1.Networks ∧
      (l.foldl step (t, [])).1.Followed (follow_all f (l.foldl step (t, [])).2) := by
  induction l using List.reverseRecOn with
  | nil => exact ⟨ht, hf⟩
  | append_singleton l n ih =>
    obtain ⟨hnet, hfol⟩ := ih fun m hm => hl m (List.mem_append_left _ hm)
    rw [List.foldl_append]
    exact hstep _ f n (hl n (by simp)) hnet hfol

theorem follow_all_snoc (f : Nlri A → Option (Route A)) (l : List (BestPathChange A))
    (c : BestPathChange A) : follow_all f (l ++ [c]) = c.follow (follow_all f l) := by
  unfold follow_all
  rw [List.foldl_append]
  rfl

theorem Networks.prefixes_of {t : LocRib A} (ht : t.Networks) {peer : PeerId}
    (hn : n ∈ t.prefixes_of peer) : n.Canonical := by
  by_contra hhost
  rw [mem_prefixes_of, ht.candidate hhost] at hn
  cases hn

theorem followed_withdraw_peer {t : LocRib A} (ht : t.Networks) (hf : t.Followed f) (peer : PeerId)
    (oracle : NextHopOracle) :
    (t.withdraw_peer peer oracle).1.Networks ∧
      (t.withdraw_peer peer oracle).1.Followed (follow_all f (t.withdraw_peer peer oracle).2) := by
  refine followed_fold ?_ ht hf fun n hn => ht.prefixes_of hn
  intro acc f n hn hnet hfol
  refine ⟨hnet.withdraw peer n oracle, ?_⟩
  show Followed _ (follow_all f (acc.2 ++ [_]))
  rw [follow_all_snoc]
  exact followed_withdraw hnet hfol peer hn oracle

theorem recompute_step_fst (acc : LocRib A × List (BestPathChange A)) (n : Nlri A) :
    (recompute_step oracle acc n).1 = acc.1.recompute_best n oracle := by
  unfold recompute_step
  dsimp only
  split
  · rfl
  · rfl
  · split <;> rfl

/-- One prefix of `recompute_all`: a winner that stays keeps its route, so silence is right. -/
theorem followed_recompute_step {acc : LocRib A × List (BestPathChange A)} (hnet : acc.1.Networks)
    (hfol : acc.1.Followed (follow_all f acc.2)) (hn : n.Canonical) (oracle : NextHopOracle) :
    (recompute_step oracle acc n).1.Followed (follow_all f (recompute_step oracle acc n).2) := by
  have hfst := recompute_step_fst oracle acc n
  have hsel : (acc.1.recompute_best n oracle).best_peer n
      = (select_best_with_oracle ((acc.1.recompute_best n oracle).peer_map n) oracle).map
        Prod.fst := by
    rw [best_peer_recompute_best, if_pos rfl]
    rfl
  have hother : ∀ m, m.masked ≠ n.masked →
      (acc.1.recompute_best n oracle).best m = acc.1.best m := by
    intro m hm
    rw [LocRib.best, LocRib.best, best_peer_recompute_best, if_neg hm]
    rfl
  -- the report is about `n`, and says what became of it
  have hrep : follow_all f (recompute_step oracle acc n).2 n
        = (acc.1.recompute_best n oracle).best n ∧
      ∀ m, n ≠ m → follow_all f (recompute_step oracle acc n).2 m = follow_all f acc.2 m := by
    unfold recompute_step
    dsimp only
    split
    · rename_i hold hnew
      refine ⟨?_, fun m _ => rfl⟩
      rw [hfol n, LocRib.best, LocRib.best, hold, hnew]
      rfl
    · rename_i hold hnew
      rw [follow_all_snoc]
      refine ⟨?_, fun m hm => Function.update_of_ne (Ne.symm hm) ..⟩
      rw [LocRib.best, hnew]
      exact Function.update_self ..
    · rename_i np hnew
      split
      · rename_i hsame
        refine ⟨?_, fun m _ => rfl⟩
        rw [hfol n, LocRib.best, LocRib.best, hsame, hnew]
        rfl
      · obtain ⟨r, hr⟩ := best_of_selected hnew hsel
        rw [hr]
        simp only [Option.map_some, Option.toList_some]
        rw [follow_all_snoc]
        exact ⟨Function.update_self .., fun m hm => Function.update_of_ne (Ne.symm hm) ..⟩
  rw [hfst]
  exact Followed.of_network hnet (hnet.recompute_best n oracle) hfol hn hrep.1 hrep.2 hother

theorem followed_recompute_all {t : LocRib A} (ht : t.Networks) (hf : t.Followed f)
    (oracle : NextHopOracle) :
    (t.recompute_all oracle).1.Networks ∧
      (t.recompute_all oracle).1.Followed (follow_all f (t.recompute_all oracle).2) := by
  refine followed_fold ?_ ht hf fun n hn => ht n hn
  intro acc f n hn hnet hfol
  refine ⟨?_, followed_recompute_step hnet hfol hn oracle⟩
  rw [recompute_step_fst]
  exact hnet.recompute_best n oracle

/-! ## Whole histories -/

/-- An operation does not take the last usable route of a prefix away by replacing it. -/
def KeepsUsable : LocRibOp A → Prop
  | .insert peer route oracle => (t.best route.nlri).isSome →
      usable oracle route = true ∨
        ∃ q r, q ≠ peer ∧ t.candidate route.nlri q = some r ∧ usable oracle r = true
  | .withdraw _ _ _ => True
  | .withdraw_peer _ _ => True
  | .recompute_all _ => True

theorem networks_perform {t : LocRib A} (ht : t.Networks) (hop : op.Canonical) :
    (t.perform op).1.Networks := by
  cases op with
  | insert peer route oracle => exact ht.insert peer hop oracle
  | withdraw peer nlri oracle => exact ht.withdraw peer nlri oracle
  | withdraw_peer peer oracle =>
    exact (followed_withdraw_peer ht (fun _ => rfl) peer oracle).1
  | recompute_all oracle => exact (followed_recompute_all ht (fun _ => rfl) oracle).1

/-- **One operation**: it is followed exactly when it keeps something usable. -/
theorem followed_perform_iff {t : LocRib A} (ht : t.Networks) (hf : t.Followed f)
    (hop : op.Canonical) :
    (t.perform op).1.Followed (follow_all f (t.perform op).2) ↔ t.KeepsUsable op := by
  cases op with
  | insert peer route oracle =>
    show _ ↔ ((t.best route.nlri).isSome → _)
    rw [← best_peer_insert_isSome]
    exact followed_insert_iff ht hf peer hop oracle
  | withdraw peer nlri oracle =>
    exact iff_of_true (followed_withdraw ht hf peer hop oracle) trivial
  | withdraw_peer peer oracle =>
    exact iff_of_true (followed_withdraw_peer ht hf peer oracle).2 trivial
  | recompute_all oracle =>
    exact iff_of_true (followed_recompute_all ht hf oracle).2 trivial

theorem networks_history {ops : List (LocRibOp A)} (hops : ∀ op ∈ ops, op.Canonical) :
    (history ops).1.Networks := by
  induction ops using List.reverseRecOn with
  | nil => exact networks_new
  | append_singleton ops op ih =>
    rw [history_snoc]
    exact networks_perform (ih fun o ho => hops o (List.mem_append_left _ ho)) (hops op (by simp))

theorem follow_history_snoc (ops : List (LocRibOp A)) (op : LocRibOp A) :
    follow_all (fun _ => none) (history (ops ++ [op])).2
      = follow_all (follow_all (fun _ => none) (history ops).2) ((history ops).1.perform op).2 := by
  rw [history_snoc]
  unfold follow_all
  rw [List.foldl_append]

/-- **The reports of a history are complete** at every point exactly when no insertion in it
takes the last usable route of a prefix away. -/
theorem reports_complete_iff {ops : List (LocRibOp A)} (hops : ∀ op ∈ ops, op.Canonical) :
    (∀ done, done <+: ops →
        ∀ n, follow_all (fun _ => none) (history done).2 n = (history done).1.best n) ↔
      ∀ done op, done ++ [op] <+: ops → (history done).1.KeepsUsable op := by
  have hsub : ∀ {done : List (LocRibOp A)}, done <+: ops → ∀ op ∈ done, op.Canonical :=
    fun hpre op hop => hops op (hpre.subset hop)
  -- one more operation, after a part of the history whose reports are complete
  have hstep : ∀ {done : List (LocRibOp A)} {op : LocRibOp A}, done ++ [op] <+: ops →
      (history done).1.Followed (follow_all (fun _ => none) (history done).2) →
      ((history (done ++ [op])).1.Followed (follow_all (fun _ => none) (history (done ++ [op])).2)
        ↔ (history done).1.KeepsUsable op) := by
    intro done op hpre hfol
    have hdone := hsub ((List.prefix_append done [op]).trans hpre)
    rw [follow_history_snoc, history_snoc]
    exact followed_perform_iff (networks_history hdone) hfol (hsub hpre op (by simp))
  constructor
  · intro h done op hpre
    exact (hstep hpre (h done ((List.prefix_append done [op]).trans hpre))).1 (h _ hpre)
  · intro h done
    induction done using List.reverseRecOn with
    | nil =>
      intro _ n
      rfl
    | append_singleton done op ih =>
      intro hpre
      exact (hstep hpre (ih ((List.prefix_append done [op]).trans hpre))).2 (h done op hpre)

end LocRib

/-- An oracle for which no next hop resolves. -/
def NextHopOracle.NeverReachable : NextHopOracle where
  is_reachable _ := false
  igp_metric _ := none

/-- 10.0.0.0/8 through 10.0.0.2. -/
def ten_via_two : Route Ipv4Addr :=
  { Route.build (Nlri.v4 10 0 0 0 8) .Igp AsPath.new 0 with
    next_hop := some (.V4 (Ipv4Addr.new 10 0 0 2)) }

/-- A route comes, is refreshed, and goes while its next hop does not resolve. -/
def refreshed_and_lost : List (LocRibOp Ipv4Addr) :=
  [.insert (.V4 (Ipv4Addr.new 10 0 0 2)) ten_via_two .AlwaysReachable,
    .insert (.V4 (Ipv4Addr.new 10 0 0 2)) { ten_via_two with med := some 5 } .AlwaysReachable,
    .recompute_all .NeverReachable]

theorem refreshed_and_lost_reported :
    (∀ op ∈ refreshed_and_lost, op.Canonical) ∧ ∀ done, done <+: refreshed_and_lost → ∀ n,
      follow_all (fun _ => none) (LocRib.history done).2 n = (LocRib.history done).1.best n := by
  refine ⟨by decide, (LocRib.reports_complete_iff (by decide)).2 ?_⟩
  intro done op hpre
  have hop : op ∈ refreshed_and_lost := hpre.subset (by simp)
  simp only [refreshed_and_lost, List.mem_cons, List.not_mem_nil, or_false] at hop
  rcases hop with rfl | rfl | rfl
  · exact fun _ => .inl (by decide)
  · exact fun _ => .inl (by decide)
  · trivial

/-- The next hop of the only route stops resolving and the route is announced once more. -/
def refreshed_unreachable : List (LocRibOp Ipv4Addr) :=
  [.insert (.V4 (Ipv4Addr.new 10 0 0 2)) ten_via_two .AlwaysReachable,
    .insert (.V4 (Ipv4Addr.new 10 0 0 2)) ten_via_two .NeverReachable]

/-- The prefix has no best route any more, and nobody is told. -/
theorem refreshed_unreachable_unreported :
    (∀ op ∈ refreshed_unreachable, op.Canonical) ∧
      (LocRib.history refreshed_unreachable).2
        = [.Announced (Nlri.v4 10 0 0 0 8) ten_via_two, .Unchanged] ∧
      follow_all (fun _ => none) (LocRib.history refreshed_unreachable).2 (Nlri.v4 10 0 0 0 8)
        = some ten_via_two ∧
      (LocRib.history refreshed_unreachable).1.best (Nlri.v4 10 0 0 0 8) = none := by
  decide +kernel

end Pathvector

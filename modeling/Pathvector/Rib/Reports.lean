/-
# The reported changes

`insert` and `withdraw` report what became of the best route, and the kernel layer follows the
reports of a batch of changes. It ends up with the best routes unless an announcement took the
last usable route of a prefix away (`LeftInKernel`), because `insert` reports nothing then.
-/
import Pathvector.Rib.Operations

set_option autoImplicit false

namespace Pathvector

/-! ## Following the reports -/

variable {A : Type} [IpAddress A] [DecidableEq A]

/-- A table kept by someone who follows the reports. -/
def BestPathChange.follow (f : Nlri A → Option (Route A)) :
    BestPathChange A → Nlri A → Option (Route A)
  | .Announced n r => Function.update f n (some r)
  | .Withdrawn n => Function.update f n none
  | .Unchanged => f

/-- Following a list of reports. -/
def follow_all (f : Nlri A → Option (Route A)) (changes : List (BestPathChange A)) :
    Nlri A → Option (Route A) :=
  changes.foldl BestPathChange.follow f

/-- The prefix a report is about. -/
def BestPathChange.nlri? : BestPathChange A → Option (Nlri A)
  | .Announced n _ => some n
  | .Withdrawn n => some n
  | .Unchanged => none

theorem follow_of_not_named {change : BestPathChange A} {n : Nlri A} (h : change.nlri? ≠ some n)
    (f : Nlri A → Option (Route A)) : change.follow f n = f n := by
  cases change with
  | Announced m r => exact Function.update_of_ne (fun hn => h (congrArg some hn.symm)) _ _
  | Withdrawn m => exact Function.update_of_ne (fun hn => h (congrArg some hn.symm)) _ _
  | Unchanged => rfl

theorem follow_all_of_not_named {changes : List (BestPathChange A)} {n : Nlri A}
    (h : n ∉ changes.filterMap BestPathChange.nlri?) (f : Nlri A → Option (Route A)) :
    follow_all f changes n = f n :=
  List.foldl_invariant BestPathChange.follow (fun g => g n = f n) changes f rfl fun g c hc hg =>
    (follow_of_not_named (fun hn => h (List.mem_filterMap.2 ⟨c, hc, hn⟩)) g).trans hg

namespace LocRib

variable {f : Nlri A → Option (Route A)} {n : Nlri A} {ops : List (RibOp A)} {t : LocRib A}
  {left : Prop} {g : Option (Route A)} {r : Route A}

theorem best_of_selected {oracle : NextHopOracle} {w : PeerId} (hw : t.best_peer n = some w)
    (hsel : t.best_peer n = (select_best_with_oracle (t.peer_map n) oracle).map Prod.fst) :
    ∃ r, t.best n = some r := by
  rw [hsel, Option.map_eq_some_iff] at hw
  obtain ⟨e, he, rfl⟩ := hw
  obtain ⟨q, -, hq⟩ := List.mem_filterMap.1 (select_best_mem he).1
  obtain ⟨r, hr, rfl⟩ := Option.map_eq_some_iff.1 hq
  refine ⟨r, ?_⟩
  rw [best, hsel, he]
  exact hr

theorem selected_insert (t : LocRib A) (peer : PeerId) (r : Route A) (oracle : NextHopOracle) :
    (t.insert peer r oracle).1.best_peer r.nlri
      = (select_best_with_oracle ((t.insert peer r oracle).1.peer_map r.nlri) oracle).map
        Prod.fst := by
  rw [insert_fst, best_peer_recompute_best, if_pos rfl]
  rfl

/-- What the report of an insertion says about its prefix: the new best route, or nothing at
all when there is none. -/
theorem follow_insert (t : LocRib A) (peer : PeerId) (r : Route A) (oracle : NextHopOracle)
    (hf : f r.nlri = t.best r.nlri ∨ t.best_peer r.nlri = none) :
    (t.insert peer r oracle).2.follow f r.nlri
      = if ((t.insert peer r oracle).1.best_peer r.nlri).isSome
        then (t.insert peer r oracle).1.best r.nlri else f r.nlri := by
  have hsel := t.selected_insert peer r oracle
  have hcand := fun q => t.candidate_insert peer r oracle r.nlri q
  have hbest : (t.insert peer r oracle).1.best r.nlri
      = ((t.insert peer r oracle).1.best_peer r.nlri).bind
        ((t.insert peer r oracle).1.candidate r.nlri) := rfl
  have hrep : ∀ w ∈ (t.insert peer r oracle).1.best_peer r.nlri,
      ∀ b ∈ (t.insert peer r oracle).1.best r.nlri, (t.insert peer r oracle).2
        = if t.best_peer r.nlri = some w then
            if peer = w then .Announced r.nlri b else .Unchanged
          else .Announced r.nlri b := by
    intro w hw b hb
    rw [insert_fst, Option.mem_def] at hw hb
    unfold insert
    dsimp only
    rw [hw, hb]
    simp only [apply_ite Prod.snd]
  have hnone : (t.insert peer r oracle).1.best_peer r.nlri = none →
      (t.insert peer r oracle).2 = .Unchanged := by
    intro hw
    rw [insert_fst] at hw
    unfold insert
    dsimp only
    rw [hw]
  generalize (t.insert peer r oracle).1 = u at *
  cases hw : u.best_peer r.nlri with
  | none =>
    rw [hnone hw]
    rfl
  | some w =>
    obtain ⟨b, hb⟩ := best_of_selected hw hsel
    rw [hrep w hw b hb, hb]
    split
    · rename_i hold
      split
      · exact Function.update_self ..
      · -- the winner stays, and so does its route
        rename_i hne
        have hfb : f r.nlri = t.best r.nlri := by
          rcases hf with h | h
          · exact h
          · rw [h] at hold
            cases hold
        rw [BestPathChange.follow, hfb, best, hold, ← hb, hbest, hw]
        show t.candidate r.nlri w = u.candidate r.nlri w
        rw [hcand, if_neg fun h => hne h.2.symm]
    · exact Function.update_self ..

theorem selected_withdraw (t : LocRib A) (peer : PeerId) (n : Nlri A) (oracle : NextHopOracle)
    (hmem : (n, peer) ∈ t.candidates) :
    (t.withdraw peer n oracle).1.best_peer n
      = (select_best_with_oracle ((t.withdraw peer n oracle).1.peer_map n) oracle).map
        Prod.fst := by
  rw [withdraw_fst, if_pos hmem, best_peer_recompute_best, if_pos rfl]
  rfl

theorem mem_index_remove (t : LocRib A) (peer : PeerId) (n : Nlri A) :
    n ∈ (t.remove_candidate peer n).peer_index ↔ t.others peer n ≠ [] := by
  show n ∈ (if t.others peer n = [] then t.peer_index.erase n
    else t.peer_index.insert n (t.others peer n)) ↔ _
  split
  · rename_i h
    rw [AList.mem_erase]
    exact iff_of_false (fun hn => hn.1 rfl) (not_not_intro h)
  · rename_i h
    exact iff_of_true (AList.mem_insert _ |>.2 (.inl rfl)) h

/-- What the report of a withdrawal says about its prefix, when others have a candidate: the
new best route. -/
theorem follow_withdraw_of_others (t : LocRib A) (peer : PeerId) (n : Nlri A)
    (oracle : NextHopOracle) (hmem : (n, peer) ∈ t.candidates) (hothers : t.others peer n ≠ [])
    (hf : f n = t.best n ∨ t.best_peer n = none) :
    (t.withdraw peer n oracle).2.follow f n = (t.withdraw peer n oracle).1.best n := by
  have hsel := t.selected_withdraw peer n oracle hmem
  have hcand := fun q => t.candidate_withdraw peer n oracle n q
  have hbest : (t.withdraw peer n oracle).1.best n = ((t.withdraw peer n oracle).1.best_peer n).bind
        ((t.withdraw peer n oracle).1.candidate n) := rfl
  have hrep : ∀ w ∈ (t.withdraw peer n oracle).1.best_peer n,
      ∀ b ∈ (t.withdraw peer n oracle).1.best n, (t.withdraw peer n oracle).2
        = if t.best_peer n = some w ∧ t.best_peer n ≠ some peer then .Unchanged
          else .Announced n b := by
    intro w hw b hb
    rw [withdraw_fst, if_pos hmem, Option.mem_def] at hw hb
    unfold withdraw
    rw [if_pos hmem]
    dsimp only
    rw [if_pos ((t.mem_index_remove peer n).2 hothers), hw, hb]
    simp only [apply_ite Prod.snd]
  have hnone : (t.withdraw peer n oracle).1.best_peer n = none →
      (t.withdraw peer n oracle).2 = .Withdrawn n := by
    intro hw
    rw [withdraw_fst, if_pos hmem] at hw
    unfold withdraw
    rw [if_pos hmem]
    dsimp only
    rw [if_pos ((t.mem_index_remove peer n).2 hothers), hw]
  generalize (t.withdraw peer n oracle).1 = u at *
  cases hw : u.best_peer n with
  | none =>
    rw [hnone hw, hbest, hw]
    exact Function.update_self ..
  | some w =>
    obtain ⟨b, hb⟩ := best_of_selected hw hsel
    rw [hrep w hw b hb, hb]
    split
    · -- the winner stays, and so does its route
      rename_i hold
      have hfb : f n = t.best n := by
        rcases hf with h | h
        · exact h
        · rw [h] at hold
          cases hold.1
      have hne : w ≠ peer := by
        rintro rfl
        exact hold.2 hold.1
      rw [BestPathChange.follow, hfb, best, hold.1, ← hb, hbest, hw]
      show t.candidate n w = u.candidate n w
      rw [hcand, if_neg fun h => hne h.2]
    · exact Function.update_self ..

theorem follow_withdraw_of_alone (t : LocRib A) (peer : PeerId) (n : Nlri A)
    (oracle : NextHopOracle) (hmem : (n, peer) ∈ t.candidates) (halone : t.others peer n = [])
    (f : Nlri A → Option (Route A)) :
    (t.withdraw peer n oracle).1.best_peer n = none ∧
      (t.withdraw peer n oracle).2.follow f n = if (t.best_peer n).isSome then none else f n := by
  have hidx : n ∉ (t.remove_candidate peer n).peer_index := by
    rw [mem_index_remove]
    exact not_not_intro halone
  unfold withdraw
  rw [if_pos hmem, if_neg hidx]
  refine ⟨(best_peer_set_best ..).trans (if_pos rfl), ?_⟩
  split
  · exact Function.update_self ..
  · rfl

theorem named_apply_op (t : LocRib A) (peer : PeerId) (oracle : NextHopOracle) (op : RibOp A)
    (h : (t.apply_op peer oracle op).2.nlri? = some n) : op.nlri = n := by
  cases op with
  | Drop m =>
    change (t.withdraw peer m oracle).2.nlri? = some n at h
    unfold withdraw at h
    dsimp only at h
    split at h
    · split at h
      · split at h
        · split at h
          · cases h
          · exact Option.some.inj h
        · exact Option.some.inj h
      · split at h
        · exact Option.some.inj h
        · cases h
    · cases h
  | Put r =>
    change (t.insert peer r oracle).2.nlri? = some n at h
    unfold insert at h
    dsimp only at h
    split at h
    · split at h
      · split at h
        · exact Option.some.inj h
        · cases h
      · exact Option.some.inj h
    · cases h

theorem named_run_ops (rib : LocRib A) (peer : PeerId) (oracle : NextHopOracle)
    {change : BestPathChange A} (h : change ∈ (rib.run_ops peer oracle ops).2)
    (hn : change.nlri? = some n) : ∃ op ∈ ops, op.nlri = n := by
  induction ops using List.reverseRecOn with
  | nil => cases h
  | append_singleton ops op ih =>
    rw [run_ops_snoc] at h
    rcases List.mem_append.1 h with h | h
    · obtain ⟨o, ho, h⟩ := ih h
      exact ⟨o, List.mem_append_left _ ho, h⟩
    · cases List.mem_singleton.1 h
      exact ⟨op, List.mem_append_right _ (List.mem_singleton_self op),
        named_apply_op _ peer oracle op hn⟩

theorem follow_apply_op_of_ne (t : LocRib A) (peer : PeerId) (oracle : NextHopOracle) (op : RibOp A)
    (f : Nlri A → Option (Route A)) (hn : op.nlri ≠ n) :
    (t.apply_op peer oracle op).2.follow f n = f n :=
  follow_of_not_named (fun h => hn (named_apply_op t peer oracle op h)) f

variable (rib : LocRib A) (peer : PeerId) (oracle : NextHopOracle)

/-- Following the reports of a batch leaves a route behind for a prefix: an announcement takes
the best route away, no later change brings one back, and no withdrawal is reported in which
another candidate is looked at. -/
def LeftInKernel (ops : List (RibOp A)) (n : Nlri A) : Prop :=
  ∃ pre r post, ops = pre ++ .Put r :: post ∧ r.nlri = n
    ∧ (rib.best_after peer oracle pre n).isSome
    ∧ (∀ more, more <+: post → rib.winner_after peer oracle (pre ++ .Put r :: more) n = none)
    ∧ (rib.others peer n ≠ [] → ¬Dropped post n)

theorem leftInKernel_snoc (ops : List (RibOp A)) (op : RibOp A) (n : Nlri A) :
    rib.LeftInKernel peer oracle (ops ++ [op]) n ↔
      rib.winner_after peer oracle (ops ++ [op]) n = none ∧
        ((op.nlri = n ∧ op.route?.isSome ∧ (rib.best_after peer oracle ops n).isSome) ∨
          (rib.LeftInKernel peer oracle ops n ∧
            (rib.others peer n ≠ [] → ¬(op.nlri = n ∧ op.route?.isNone)))) := by
  constructor
  · rintro ⟨pre, r, post, heq, hr, hbest, hnone, hdrop⟩
    rcases List.eq_nil_or_concat post with rfl | ⟨post, x, hpost⟩
    · -- the announcement is the last change
      obtain ⟨rfl, hop⟩ := List.append_inj' heq rfl
      obtain rfl : op = .Put r := List.singleton_inj.1 hop
      exact ⟨hnone [] (List.nil_prefix), .inl ⟨hr, rfl, hbest⟩⟩
    · rw [List.concat_eq_append] at hpost
      subst hpost
      have heq' : ops ++ [op] = (pre ++ .Put r :: post) ++ [x] := by
        rw [heq]
        simp
      obtain ⟨rfl, hop⟩ := List.append_inj' heq' rfl
      obtain rfl : op = x := List.singleton_inj.1 hop
      refine ⟨heq ▸ hnone _ List.prefix_rfl, .inr ⟨⟨pre, r, post, rfl, hr, hbest, ?_, ?_⟩, ?_⟩⟩
      · exact fun more hmore => hnone more (hmore.trans (List.prefix_append ..))
      · intro ho hd
        exact hdrop ho ((dropped_snoc ..).2 (.inl hd))
      · intro ho hd
        exact hdrop ho ((dropped_snoc ..).2 (.inr hd))
  · rintro ⟨hnone, ⟨hn, hput, hbest⟩ | ⟨⟨pre, r, post, rfl, hr, hbest, hmore, hdrop⟩, hop⟩⟩
    · cases op with
      | Drop m => cases hput
      | Put r =>
        refine ⟨ops, r, [], rfl, hn, hbest, ?_, fun _ => ?_⟩
        · intro more h
          rw [List.prefix_nil.1 h]
          exact hnone
        · rintro ⟨o, ho, -⟩
          cases ho
    · refine ⟨pre, r, post ++ [op], by simp, hr, hbest, ?_, ?_⟩
      · intro more h
        rcases List.prefix_concat_iff.1 h with rfl | h
        · simpa using hnone
        · exact hmore more h
      · intro ho
        rw [dropped_snoc]
        exact not_or.2 ⟨hdrop ho, hop ho⟩

theorem there_of_not_dropped (pre : List (RibOp A)) {post : List (RibOp A)} (hr : r.nlri = n)
    (hd : ¬Dropped post n) : (rib.candidate_after peer (pre ++ .Put r :: post) n).isSome := by
  induction post using List.reverseRecOn with
  | nil =>
    rw [candidate_after_snoc, if_pos (by exact hr)]
    rfl
  | append_singleton post op ih =>
    rw [dropped_snoc, not_or] at hd
    have happ : pre ++ RibOp.Put r :: (post ++ [op]) = (pre ++ .Put r :: post) ++ [op] := by simp
    rw [happ, candidate_after_snoc]
    split
    · rename_i hn
      refine Option.isSome_iff_ne_none.2 fun h => hd.2 ⟨hn, ?_⟩
      rw [h]
      rfl
    · exact ih hd.1

theorem others_run_ops (ops : List (RibOp A)) (n : Nlri A) :
    (rib.run_ops peer oracle ops).1.others peer n = rib.others peer n := by
  rw [others, peers_run_ops, filter_peers_after]

theorem best_run_ops (hops : ∀ op ∈ ops, op.nlri.Canonical) (n : Nlri A) :
    (rib.run_ops peer oracle ops).1.best n = (rib.best_after peer oracle ops n).map Prod.snd := by
  rw [best_eq_best_entry, rib.best_entry_run_ops peer oracle hops]

/-- What is followed for a prefix is its best route, except that a route left behind stands
where there is no winner. -/
def Follows (left : Prop) (t : LocRib A) (n : Nlri A) (g : Option (Route A)) : Prop :=
  (¬left → g = t.best n) ∧ (left → g.isSome ∧ t.best_peer n = none)

theorem Follows.congr {left' : Prop} (h : Follows left t n g) (hiff : left' ↔ left) :
    Follows left' t n g :=
  ⟨fun hl => h.1 (mt hiff.2 hl), fun hl => h.2 (hiff.1 hl)⟩

theorem Follows.ok (h : Follows left t n g) : g = t.best n ∨ t.best_peer n = none := by
  by_cases hl : left
  · exact .inr (h.2 hl).2
  · exact .inl (h.1 hl)

theorem Follows.insert (h : Follows left t r.nlri (f r.nlri)) :
    Follows ((t.insert peer r oracle).1.best_peer r.nlri = none ∧
        ((t.best r.nlri).isSome ∨ left))
      (t.insert peer r oracle).1 r.nlri ((t.insert peer r oracle).2.follow f r.nlri) := by
  have hbest : (t.insert peer r oracle).1.best r.nlri
      = ((t.insert peer r oracle).1.best_peer r.nlri).bind
        ((t.insert peer r oracle).1.candidate r.nlri) := rfl
  unfold Follows
  rw [t.follow_insert peer r oracle h.ok, hbest]
  cases hw : (t.insert peer r oracle).1.best_peer r.nlri with
  | some w =>
    exact ⟨fun _ => rfl, fun hl => by cases hl.1⟩
  | none =>
    -- nothing is reported: what was followed before stays
    constructor
    · intro hnot
      have hl : ¬left := fun hl => hnot ⟨rfl, .inr hl⟩
      have hb : ¬(t.best r.nlri).isSome := fun hb => hnot ⟨rfl, .inl hb⟩
      rw [h.1 hl]
      simpa using hb
    · rintro ⟨-, hb | hl⟩
      · rcases h.ok with hg | hg
        · rw [hg]
          exact ⟨hb, rfl⟩
        · rw [best, hg] at hb
          cases hb
      · exact ⟨(h.2 hl).1, rfl⟩

/-- One withdrawal: what was left behind stays there if nobody else has a candidate. -/
theorem Follows.withdraw (h : Follows left t n (f n))
    (halone : left → (n, peer) ∉ t.candidates → t.others peer n = []) :
    Follows ((t.withdraw peer n oracle).1.best_peer n = none ∧ left ∧ t.others peer n = [])
      (t.withdraw peer n oracle).1 n ((t.withdraw peer n oracle).2.follow f n) := by
  by_cases hmem : (n, peer) ∈ t.candidates
  · by_cases ho : t.others peer n = []
    · obtain ⟨hw, hrep⟩ := t.follow_withdraw_of_alone peer n oracle hmem ho f
      unfold Follows
      rw [hrep, best, hw]
      cases hold : t.best_peer n with
      | some w =>
        refine ⟨fun _ => rfl, fun hl => ?_⟩
        rw [(h.2 hl.2.1).2] at hold
        cases hold
      | none =>
        constructor
        · intro hnot
          rw [h.1 fun hl => hnot ⟨rfl, hl, ho⟩, best, hold]
          rfl
        · intro hl
          exact ⟨(h.2 hl.2.1).1, rfl⟩
    · -- a candidate of another peer is looked at, and the report says what is found
      exact ⟨fun _ => t.follow_withdraw_of_others peer n oracle hmem ho h.ok,
        fun hl => absurd hl.2.2 ho⟩
  · -- there was nothing to withdraw
    have hskip : t.withdraw peer n oracle = (t, .Unchanged) := by
      rw [LocRib.withdraw, if_neg hmem]
    rw [hskip]
    exact ⟨fun hnot => h.1 fun hl => hnot ⟨(h.2 hl).2, hl, halone hl hmem⟩,
      fun hl => h.2 hl.2.1⟩

theorem Follows.apply_op_of_ne {op : RibOp A} (h : Follows left t n (f n)) (hn : n.Canonical)
    (hop : op.nlri.Canonical) (hne : op.nlri ≠ n) :
    Follows ((t.apply_op peer oracle op).1.best_peer n = none ∧ left)
      (t.apply_op peer oracle op).1 n ((t.apply_op peer oracle op).2.follow f n) := by
  have hmask : op.nlri.masked ≠ n.masked := fun h => hne ((hop.masked_inj hn).1 h)
  have hw : (t.apply_op peer oracle op).1.best_peer n = t.best_peer n :=
    (winner_apply_op peer oracle t op n).trans (if_neg fun h => hmask h.1)
  have hb : (t.apply_op peer oracle op).1.best n = t.best n := by
    have hc : ∀ q, (t.apply_op peer oracle op).1.candidate n q = t.candidate n q :=
      fun q => (candidate_apply_op t op n q).trans (if_neg fun h => hne h.1)
    rw [best, best, hw]
    cases t.best_peer n with
    | none => rfl
    | some q => exact hc q
  unfold Follows
  rw [t.follow_apply_op_of_ne peer oracle op f hne, hw, hb]
  exact ⟨fun hnot => h.1 fun hl => hnot ⟨(h.2 hl).2, hl⟩, fun hl => h.2 hl.2⟩

/-- **The invariant of a batch**, for a prefix in network form. -/
theorem follows_run_ops (hops : ∀ op ∈ ops, op.nlri.Canonical) (hn : n.Canonical)
    (hf : f n = rib.best n) :
    Follows (rib.LeftInKernel peer oracle ops n) (rib.run_ops peer oracle ops).1 n
      (follow_all f (rib.run_ops peer oracle ops).2 n) := by
  induction ops using List.reverseRecOn with
  | nil =>
    refine ⟨fun _ => hf, ?_⟩
    rintro ⟨pre, r, post, heq, -⟩
    cases pre <;> cases heq
  | append_singleton ops op ih =>
    have hops' : ∀ o ∈ ops, o.nlri.Canonical := fun o ho => hops o (List.mem_append_left _ ho)
    have hop : op.nlri.Canonical := hops op (List.mem_append_right _ (List.mem_singleton_self op))
    have ih := ih hops'
    have hfollow : follow_all f (rib.run_ops peer oracle (ops ++ [op])).2 n
        = ((rib.run_ops peer oracle ops).1.apply_op peer oracle op).2.follow
          (follow_all f (rib.run_ops peer oracle ops).2) n := by
      rw [run_ops_snoc]
      unfold follow_all op_step
      rw [List.foldl_append]
      rfl
    have hleft := rib.leftInKernel_snoc peer oracle ops op n
    rw [← rib.best_peer_run_ops peer oracle hops, run_ops_snoc] at hleft
    rw [hfollow, run_ops_snoc]
    by_cases hne : op.nlri = n
    · cases op with
      | Put r =>
        have hr : r.nlri = n := hne
        subst hr
        refine (Follows.insert peer oracle ih).congr (hleft.trans (and_congr_right fun _ => ?_))
        rw [rib.best_run_ops peer oracle hops', Option.isSome_map]
        exact or_congr ⟨fun h => h.2.2, fun h => ⟨rfl, rfl, h⟩⟩
          ⟨fun h => h.1, fun h => ⟨h, fun _ h' => Bool.false_ne_true h'.2⟩⟩
      | Drop m =>
        have hm : m = n := hne
        subst hm
        have hothers := rib.others_run_ops peer oracle ops m
        refine (Follows.withdraw peer oracle ih ?_).congr
          (hleft.trans (and_congr_right fun _ => ?_))
        · -- a route left behind with nothing to withdraw: it was withdrawn since
          rintro ⟨pre, r, post, rfl, hr, -, -, hdrop⟩ hmem
          rw [mem_candidates_iff, candidate_run_ops, candidate_of_after, if_pos rfl] at hmem
          rw [hothers]
          by_contra ho
          exact hmem (rib.there_of_not_dropped peer pre hr (hdrop ho))
        · rw [hothers]
          constructor
          · rintro (⟨-, h, -⟩ | ⟨hl, h⟩)
            · cases h
            · exact ⟨hl, by_contra fun ho => h ho ⟨rfl, rfl⟩⟩
          · rintro ⟨hl, ho⟩
            exact .inr ⟨hl, fun h => absurd ho h⟩
    · refine (Follows.apply_op_of_ne peer oracle ih hn hop hne).congr
        (hleft.trans (and_congr_right fun _ => ?_))
      exact ⟨fun h => h.elim (fun h => absurd h.1 hne) And.left,
        fun h => .inr ⟨h, fun _ h' => hne h'.1⟩⟩

/-- **Following the reports of a batch**, for a prefix in network form. -/
theorem follow_run_ops_iff (hops : ∀ op ∈ ops, op.nlri.Canonical) (hn : n.Canonical)
    (hf : f n = rib.best n) :
    follow_all f (rib.run_ops peer oracle ops).2 n = (rib.run_ops peer oracle ops).1.best n ↔
      ¬rib.LeftInKernel peer oracle ops n := by
  have hinv := rib.follows_run_ops peer oracle hops hn hf
  refine ⟨fun h hl => ?_, hinv.1⟩
  obtain ⟨hsome, hw⟩ := hinv.2 hl
  rw [h, best, hw] at hsome
  cases hsome

theorem follow_run_ops_of_host_bits (hops : ∀ op ∈ ops, op.nlri.Canonical) (hn : ¬n.Canonical)
    (f : Nlri A → Option (Route A)) : follow_all f (rib.run_ops peer oracle ops).2 n = f n := by
  induction ops using List.reverseRecOn with
  | nil => rfl
  | append_singleton ops op ih =>
    have hop : op.nlri.Canonical := hops op (List.mem_append_right _ (List.mem_singleton_self op))
    have hne : op.nlri ≠ n := fun h => hn (h ▸ hop)
    rw [run_ops_snoc]
    unfold follow_all op_step
    rw [List.foldl_append]
    refine (follow_apply_op_of_ne _ peer oracle op _ hne).trans ?_
    exact ih fun o ho => hops o (List.mem_append_left _ ho)

theorem not_leftInKernel_drops (l : List (Nlri A)) (n : Nlri A) :
    ¬rib.LeftInKernel peer oracle (l.map RibOp.Drop) n := by
  rintro ⟨pre, r, post, heq, -⟩
  have hmem : RibOp.Put r ∈ l.map RibOp.Drop := by
    rw [heq]
    exact List.mem_append_right _ (List.mem_cons_self ..)
  obtain ⟨m, -, hm⟩ := List.mem_map.1 hmem
  cases hm

/-- **Following the reports of a lost peer**, whose candidates are in network form. -/
theorem follow_withdraw_peer_iff (hcand : ∀ n, (rib.candidate n peer).isSome → n.Canonical)
    (hf : ∀ n, f n = rib.best n) :
    (∀ n, follow_all f (rib.withdraw_peer peer oracle).2 n
        = (rib.withdraw_peer peer oracle).1.best n) ↔
      ∀ n, ¬n.Canonical → rib.best n = (rib.best_without peer oracle n).map Prod.snd := by
  have hops : ∀ op ∈ (rib.prefixes_of peer).map RibOp.Drop, op.nlri.Canonical := by
    intro op hop
    obtain ⟨m, hm, rfl⟩ := List.mem_map.1 hop
    exact hcand m ((rib.mem_prefixes_of peer m).1 hm)
  have hbest : ∀ n, (rib.withdraw_peer peer oracle).1.best n
      = (rib.best_without peer oracle n).map Prod.snd := by
    intro n
    rw [best_eq_best_entry, best_entry_withdraw_peer]
  have hhost : ∀ n, ¬n.Canonical → follow_all f (rib.withdraw_peer peer oracle).2 n
      = rib.best n := by
    intro n hn
    rw [withdraw_peer_eq, rib.follow_run_ops_of_host_bits peer oracle hops hn, hf]
  constructor
  · intro h n hn
    rw [← hhost n hn, h n, hbest]
  · intro h n
    by_cases hn : n.Canonical
    · rw [withdraw_peer_eq]
      exact (rib.follow_run_ops_iff peer oracle hops hn (hf n)).2
        (rib.not_leftInKernel_drops peer oracle _ n)
    · rw [hhost n hn, h n hn, hbest]

end LocRib

end Pathvector

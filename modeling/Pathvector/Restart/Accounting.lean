/-
# Who accounts for a stale route

A route that outlives its session is stale, and something has to take it away again: the
deadline of the restart window while the peer is down, and the End-of-RIB marker once it is
back, which withdraws what is still in the peer's stale set. RFC 4724 asks for more: a family
that the new OPEN does not list as preserved goes at once.

Three places of the source fail to keep the account. `on_established` decides what to keep by
the family list of the session before, never by the new one. An UPDATE takes every prefix it
announces out of the stale set, also where the import policy rejects the route and the stale
candidate stays. And a session that ends in helper mode clears the Adj-RIB-In of a family that
is not listed, not the candidates.

`Accounted` is the joint invariant of deadlines, family lists, stale sets and candidates of one
peer in one family. `accounted_move` carries it over one move of the tables.
-/
import Pathvector.Lib.Run
import Pathvector.Restart.Windows
import Pathvector.Tables.Peers

set_option autoImplicit false

namespace Pathvector

section

variable {A : Type} [IpAddress A] [DecidableEq A]

namespace Tables

variable {policy : Policy A} {rtr : RtrHandle A} {refreshed : List (Nlri A)}
  {ops : List (ImportOp A)} {m : Move A} {reported kept : Bool} {ms : List (Move A)}
  {armed' : Prop}

section

variable (t : Tables A) (p : IpAddr) (n : Nlri A)

/-- The peer's candidate for the prefix is stale. -/
def stale_candidate : Bool :=
  (t.loc_rib.candidate n p).any Route.stale

/-- The route in the peer's Adj-RIB-In is stale. -/
def stale_held : Bool :=
  (t.held p n).any Route.stale

/-- The peer has a stale route for the prefix. -/
def stale_at : Bool :=
  t.stale_candidate p n || t.stale_held p n

/-- The peer has no stale candidate. -/
def NoStaleCandidate : Prop := ∀ n, t.stale_candidate p n = false

instance (t : Tables A) (p : IpAddr) : Decidable (t.NoStaleCandidate p) :=
  decidable_of_iff (∀ n ∈ t.loc_rib.prefixes_of p, t.stale_candidate p n = false) <| by
    refine ⟨fun h n => ?_, fun h n _ => h n⟩
    by_cases hn : n ∈ t.loc_rib.prefixes_of p
    · exact h n hn
    · rw [LocRib.mem_prefixes_of, Option.not_isSome_iff_eq_none] at hn
      rw [stale_candidate, hn]
      rfl

/-- The peer has no stale route. -/
def NoStale : Prop := ∀ n, t.stale_at p n = false

instance (t : Tables A) (p : IpAddr) : Decidable (t.NoStale p) :=
  decidable_of_iff (t.NoStaleCandidate p ∧ ∀ r ∈ t.announced p, r.stale = false) <| by
    constructor
    · rintro ⟨hcand, hheld⟩ n
      refine Bool.or_eq_false_iff.2 ⟨hcand n, ?_⟩
      unfold stale_held
      cases hn : t.held p n with
      | none => rfl
      | some r =>
        refine hheld r ((t.mem_announced_iff p r).2 ?_)
        rw [t.nlri_of_held p n hn]
        exact hn
    · intro h
      refine ⟨fun n => (Bool.or_eq_false_iff.1 (h n)).1, fun r hr => ?_⟩
      have hheld := (Bool.or_eq_false_iff.1 (h r.nlri)).2
      unfold stale_held at hheld
      rw [(t.mem_announced_iff p r).1 hr] at hheld
      exact hheld

/-- The message of a move that takes prefixes out of the stale set does so with reason: it
replaces or withdraws the stale candidate, and the stale route in the Adj-RIB-In. -/
def Renews : Move A → Prop
  | .Hear p policy rtr ops refreshed _ => ∀ n ∈ refreshed,
    (t.stale_candidate p n = true → ∃ op ∈ ops, op.nlri = n ∧ (op.rib_op policy rtr).isSome) ∧
    (t.stale_held p n = true → ∃ op ∈ ops, op.nlri = n)
  | _ => True

end

instance (t : Tables A) (m : Move A) : Decidable (t.Renews m) := by
  induction m using Move.casesOn <;> dsimp only [Renews] <;> infer_instance

variable {t t' : Tables A} {p : IpAddr} {n : Nlri A}

theorem held_of_stale (h : t.stale_held p n = true) : (t.held p n).isSome := by
  unfold stale_held at h
  cases hheld : t.held p n with
  | none => rw [hheld] at h; cases h
  | some r => rfl

theorem SameEntries.stale_at (h : SameEntries t t' p) : t'.stale_at p n = t.stale_at p n := by
  unfold Tables.stale_at stale_candidate stale_held
  rw [h.held, h.candidate]

/-! ## The account of one peer -/

/-- The account of a peer's stale routes. It depends on whether the peer's deadline is
armed, on whether the family is in the list of its last capability, and on whether it is up. -/
structure Accounted (t : Tables A) (p : IpAddr) (armed covered up : Prop) : Prop where
  /-- What is stale is announced: the stale set is read off the Adj-RIB-In. -/
  held : ∀ n, t.stale_at p n = true → (t.held p n).isSome
  /-- Something will take it away. -/
  due : ∀ n, t.stale_at p n = true → armed ∨ up ∧ n ∈ t.pending p
  /-- The next session finds nothing stale in a family that it would not mark. -/
  listed : armed → ¬covered → t.NoStale p

variable {armed covered up : Prop}

theorem accounted_of_noStale (h : t.NoStale p) : Accounted t p armed covered up where
  held n hn := absurd hn (by rw [h n]; exact Bool.false_ne_true)
  due n hn := absurd hn (by rw [h n]; exact Bool.false_ne_true)
  listed _ _ := h

theorem Accounted.less (h : Accounted t p armed covered up)
    (hstale : ∀ n, t'.stale_at p n = true → t.stale_at p n = true ∧ (t'.held p n).isSome ∧
      (armed ∨ (n ∈ t.pending p → n ∈ t'.pending p))) :
    Accounted t' p armed covered up where
  held n hn := (hstale n hn).2.1
  due n hn := by
    obtain ⟨hold, -, hpending⟩ := hstale n hn
    rcases h.due n hold with harmed | ⟨hup, hmem⟩
    · exact .inl harmed
    · exact hpending.imp id fun hp => ⟨hup, hp hmem⟩
  listed harmed hcov n := by
    by_contra hn
    exact hn ((Bool.eq_false_iff.2 fun hn =>
      Bool.eq_false_iff.1 (h.listed harmed hcov n) (hstale n hn).1))

theorem SameEntries.accounted (he : SameEntries t t' p) (h : Accounted t p armed covered up) :
    Accounted t' p armed covered up := by
  refine h.less fun n hn => ?_
  rw [he.stale_at] at hn
  refine ⟨hn, ?_, .inr (he.pending n).2⟩
  rw [he.held]
  exact h.held n hn

/-! ## What the moves do to it -/

/-- A move that keeps the account of a peer. -/
def Accountable (t : Tables A) (p : IpAddr) (armed covered : Prop) : Move A → Prop
  | m@(.Hear q _ _ ops ..) => q = p →
    (∀ raw, .Announce raw ∈ ops → raw.stale = false) ∧ (¬armed → t.Renews m)
  | .Clear q => q = p → t.NoStaleCandidate p
  | .Restale q => q = p → armed ∧ covered
  | .Originate route _ => route.stale = false
  | .NewAdjRibIn q | .Forget q => q = p → t.NoStale p
  | .DropStale q => q = p → armed ∨ t.NoStale p
  | _ => True

omit [DecidableEq A] in
theorem fresh_rib_op {op : ImportOp A} {r : RibOp A}
    (hop : ∀ raw, op = .Announce raw → raw.stale = false) (h : op.rib_op policy rtr = some r) :
    r.route?.any Route.stale = false := by
  cases op with
  | Withdraw m =>
    cases h
    rfl
  | Announce raw =>
    have hkeep := Policy.stale_evaluate rtr policy raw
    rw [hop raw rfl] at hkeep
    obtain ⟨-, rfl⟩ | ⟨-, route, heval, rfl⟩ := ImportOp.rib_op_announce_iff.1 h
    · rfl
    · rw [heval] at hkeep
      exact hkeep

/-- A message leaves a candidate stale only if it has nothing to say about it. -/
theorem stale_candidate_hear (hfresh : ∀ raw, .Announce raw ∈ ops → raw.stale = false)
    (h : (t.move (.Hear p policy rtr ops refreshed reported)).stale_candidate p n = true) :
    t.stale_candidate p n = true ∧ ∀ op ∈ ops, op.nlri = n → op.rib_op policy rtr = none := by
  unfold stale_candidate at h
  rw [candidate_hear, LocRib.candidate_of_after, if_pos rfl, LocRib.candidate_after] at h
  cases hlast : ((ops.filterMap (ImportOp.rib_op policy rtr)).filter (·.nlri = n)).getLast? with
  | some r =>
    rw [hlast] at h
    obtain ⟨hr, -⟩ := List.mem_filter.1 (List.mem_of_getLast? hlast)
    obtain ⟨op, hop, hrib⟩ := List.mem_filterMap.1 hr
    have hclean := fresh_rib_op (fun raw heq => hfresh raw (heq ▸ hop)) hrib
    exact absurd h (by rw [hclean]; exact Bool.false_ne_true)
  | none =>
    rw [hlast] at h
    refine ⟨h, fun op hop hn => ?_⟩
    rw [List.getLast?_eq_none_iff, List.filter_eq_nil_iff] at hlast
    cases hrib : op.rib_op policy rtr with
    | none => rfl
    | some r =>
      refine absurd ?_ (hlast r (List.mem_filterMap.2 ⟨op, hop, hrib⟩))
      exact decide_eq_true ((ImportOp.nlri_rib_op hrib).trans hn)

theorem stale_held_hear (hfresh : ∀ raw, .Announce raw ∈ ops → raw.stale = false)
    (h : (t.move (.Hear p policy rtr ops refreshed reported)).stale_held p n = true) :
    t.stale_held p n = true ∧ (p ∈ t.adj_ribs_in → ∀ op ∈ ops, op.nlri ≠ n) := by
  unfold stale_held at h
  rw [held_hear] at h
  by_cases hp : p ∈ t.adj_ribs_in
  · rw [if_pos ⟨rfl, hp⟩] at h
    cases hlast : last_op ops n with
    | some op =>
      rw [hlast] at h
      obtain ⟨hop, -⟩ := last_op_mem hlast
      cases op with
      | Withdraw m => cases h
      | Announce raw =>
        exact absurd (show raw.stale = true from h) (by rw [hfresh raw hop]; simp)
    | none =>
      rw [hlast] at h
      exact ⟨h, fun _ => last_op_eq_none.1 hlast⟩
  · rw [if_neg fun h => hp h.2] at h
    exact ⟨h, fun hp' => absurd hp' hp⟩

theorem accounted_hear (h : Accounted t p armed covered up)
    (hok : t.Accountable p armed covered (.Hear p policy rtr ops refreshed reported)) :
    Accounted (t.move (.Hear p policy rtr ops refreshed reported)) p armed covered up := by
  obtain ⟨hfresh, hrefreshed⟩ := hok rfl
  refine h.less fun n hn => ?_
  rcases Bool.or_eq_true_iff.1 hn with hcand | hheld
  · -- a candidate that no operation changes; a withdrawal would have
    obtain ⟨hold, hnone⟩ := stale_candidate_hear hfresh hcand
    have hbefore : t.stale_at p n = true := Bool.or_eq_true_iff.2 (.inl hold)
    refine ⟨hbefore, ?_, ?_⟩
    · rw [held_hear]
      split
      · cases hlast : last_op ops n with
        | none => exact h.held n hbefore
        | some op =>
          obtain ⟨hop, hnlri⟩ := last_op_mem hlast
          cases op with
          | Withdraw m => cases hnone _ hop hnlri
          | Announce raw => rfl
      · exact h.held n hbefore
    · by_cases harmed : armed
      · exact .inl harmed
      · refine .inr fun hmem => (mem_pending_hear ..).2 ⟨hmem, fun _ hin => ?_⟩
        obtain ⟨op, hop, hnlri, hsome⟩ := (hrefreshed harmed n hin).1 hold
        rw [hnone op hop hnlri] at hsome
        cases hsome
  · obtain ⟨hold, hnone⟩ := stale_held_hear hfresh hheld
    have hbefore : t.stale_at p n = true := Bool.or_eq_true_iff.2 (.inr hold)
    refine ⟨hbefore, held_of_stale hheld, ?_⟩
    by_cases harmed : armed
    · exact .inl harmed
    · refine .inr fun hmem => (mem_pending_hear ..).2 ⟨hmem, fun _ hin => ?_⟩
      obtain ⟨op, hop, hnlri⟩ := (hrefreshed harmed n hin).2 hold
      have hp : p ∈ t.adj_ribs_in := by
        have hsome := held_of_stale hold
        obtain ⟨ari, hari⟩ := Option.isSome_iff_exists.1 hsome
        obtain ⟨a, ha, -⟩ := Option.bind_eq_some_iff.1 hari
        exact HashMap.mem_of_lookup ha
      exact hnone hp op hop hnlri

omit [DecidableEq A] in
theorem stale_reapplied {raw : Route A}
    (h : (policy.reapplied rtr raw).route?.any Route.stale = true) : raw.stale = true := by
  have hkeep := Policy.stale_evaluate rtr policy raw
  unfold Policy.reapplied at h
  generalize policy.evaluate rtr raw = d at h hkeep
  rcases d with ⟨_ | _ | _, route⟩
  · exact hkeep.symm.trans h
  · cases h
  · cases h

/-- A move that is no message, no restart and no end of the peer's session. -/
def Idle (t : Tables A) (p : IpAddr) : Move A → Prop
  | .Reapply .. | .Unoriginate _ => True
  | .Originate route _ => p = LOCAL_ORIGIN_PEER → route.stale = false
  | .NewAdjRibIn q => q = p → ∀ n, t.held p n = none
  | m => m.peer? ≠ some p

/-- Such a move leaves what the peer holds alone and makes nothing stale. -/
theorem idle_move (hm : t.Idle p m) :
    (∀ n, (t.move m).held p n = t.held p n) ∧ (∀ n, n ∈ (t.move m).pending p ↔ n ∈ t.pending p) ∧
      ∀ n, (t.move m).stale_at p n = true → t.stale_at p n = true := by
  by_cases hp : m.peer? = some p
  · cases m with
    | Reapply q policy rtr =>
      cases hp
      refine ⟨fun _ => rfl, fun _ => .rfl, fun n hn => ?_⟩
      rcases Bool.or_eq_true_iff.1 hn with hcand | hheld
      · unfold stale_candidate at hcand
        rw [candidate_reapply, if_pos rfl] at hcand
        cases hheld : t.held p n with
        | none =>
          rw [hheld] at hcand
          exact Bool.or_eq_true_iff.2 (.inl hcand)
        | some raw =>
          -- the policy keeps the mark of the route it was given
          rw [hheld] at hcand
          refine Bool.or_eq_true_iff.2 (.inr ?_)
          unfold stale_held
          rw [hheld, Option.any_some]
          exact stale_reapplied hcand
      · exact Bool.or_eq_true_iff.2 (.inr hheld)
    | Originate route reported =>
      refine ⟨fun _ => rfl, fun _ => .rfl, fun n hn => ?_⟩
      unfold stale_at stale_candidate at hn
      rw [candidate_originate] at hn
      split at hn
      · next hlocal =>
        rw [Option.any_some, show route.stale = false from hm hlocal.1, Bool.false_or] at hn
        exact Bool.or_eq_true_iff.2 (.inr hn)
      · exact hn
    | Unoriginate nlri =>
      refine ⟨fun _ => rfl, fun _ => .rfl, fun n hn => ?_⟩
      unfold stale_at stale_candidate at hn
      rw [candidate_unoriginate] at hn
      split at hn
      · exact Bool.or_eq_true_iff.2 (.inr hn)
      · exact hn
    | NewAdjRibIn q =>
      cases hp
      have hheld : ∀ n, (t.move (.NewAdjRibIn p)).held p n = t.held p n := by
        intro n
        rw [held_newAdjRibIn, if_pos rfl, hm rfl]
      refine ⟨hheld, fun _ => .rfl, fun n hn => ?_⟩
      unfold stale_at stale_held at hn
      rw [hheld] at hn
      exact hn
    | _ => exact absurd hp hm
  · have hsame := sameEntries_move t m hp
    exact ⟨hsame.held, hsame.pending, fun n hn => hsame.stale_at ▸ hn⟩

theorem idle_of_peer (h : m.peer? ≠ some p) : t.Idle p m := by
  cases m with
  | Reapply | Unoriginate => trivial
  | Originate route reported => exact fun hp => absurd (congrArg some hp.symm) h
  | NewAdjRibIn q => exact fun hq => absurd (congrArg some hq) h
  | _ => exact h

theorem Accounted.idle (h : Accounted t p armed covered up) (hm : t.Idle p m) :
    Accounted (t.move m) p armed covered up := by
  obtain ⟨hheld, hpending, hstale⟩ := idle_move hm
  refine h.less fun n hn => ⟨hstale n hn, ?_, .inr (hpending n).2⟩
  rw [hheld]
  exact h.held n (hstale n hn)

/-- **The account of a peer over one move.** -/
theorem accounted_move (h : Accounted t p armed covered up)
    (hok : t.Accountable p armed covered m) : Accounted (t.move m) p armed covered up := by
  by_cases hp : m.peer? = some p
  · cases m with
    | Hear q policy rtr ops refreshed reported =>
      cases hp
      exact accounted_hear h hok
    | Prune q nlris =>
      cases hp
      refine h.less fun n hn => ?_
      unfold stale_at stale_candidate stale_held at hn
      rw [candidate_prune, held_prune] at hn
      by_cases hin : n ∈ nlris
      · simp [hin] at hn
      · simp only [hin, and_false, if_false] at hn
        refine ⟨hn, ?_, .inr id⟩
        rw [held_prune, if_neg fun h => hin h.2]
        exact h.held n hn
    | Clear q =>
      cases hp
      refine accounted_of_noStale fun n => ?_
      refine Bool.or_eq_false_iff.2 ⟨hok rfl n, ?_⟩
      unfold stale_held
      rw [held_clear, if_pos rfl]
      rfl
    | Leave q =>
      -- the candidates go, the Adj-RIB-In stays
      cases hp
      refine h.less fun n hn => ?_
      unfold stale_at stale_candidate at hn
      rw [candidate_leave, if_pos rfl] at hn
      have hheld : t.stale_held p n = true := hn
      exact ⟨Bool.or_eq_true_iff.2 (.inr hheld), held_of_stale hheld, .inr id⟩
    | Restale q =>
      -- the one move that makes stale routes: the window it opens answers for them
      cases hp
      obtain ⟨harmed, hcov⟩ := hok rfl
      refine ⟨fun n hn => ?_, fun _ _ => .inl harmed, fun _ h => absurd hcov h⟩
      have hback : (t.held p n).isSome := by
        cases hheld : t.held p n with
        | some r => rfl
        | none =>
          unfold stale_at stale_candidate stale_held at hn
          rw [candidate_restale, held_restale, if_pos rfl, if_pos rfl, hheld] at hn
          have hbefore : t.stale_at p n = true := by
            refine Bool.or_eq_true_iff.2 (.inl ?_)
            unfold stale_candidate
            simpa using hn
          exact absurd (h.held n hbefore) (by simp [hheld])
      rw [held_restale, if_pos rfl]
      simpa using hback
    | Reapply q policy rtr => exact h.idle trivial
    | Originate route reported => exact h.idle (m := .Originate route reported) fun _ => hok
    | Unoriginate nlri => exact h.idle trivial
    | NewAdjRibIn q =>
      cases hp
      refine accounted_of_noStale fun n => ?_
      have hclean := Bool.or_eq_false_iff.1 (hok rfl n)
      refine Bool.or_eq_false_iff.2 ⟨hclean.1, ?_⟩
      unfold stale_held
      rw [held_newAdjRibIn, if_pos rfl]
      rfl
    | MarkStale q =>
      cases hp
      refine h.less fun n hn => ?_
      exact ⟨hn, h.held n hn, .inr fun _ => (mem_pending_markStale ..).2 (.inl ⟨rfl, h.held n hn⟩)⟩
    | DropStale q =>
      cases hp
      rcases hok rfl with harmed | hclean
      · exact h.less fun n hn => ⟨hn, h.held n hn, .inl harmed⟩
      · exact accounted_of_noStale hclean
    | Forget q =>
      cases hp
      refine accounted_of_noStale fun n => ?_
      have hclean := Bool.or_eq_false_iff.1 (hok rfl n)
      refine Bool.or_eq_false_iff.2 ⟨hclean.1, ?_⟩
      unfold stale_held
      rw [held_forget, if_pos rfl]
      rfl
    | Reselect => cases hp
    | SetOracle oracle => cases hp
    | AttachKernel => cases hp
  · exact (sameEntries_move t m hp).accounted h

theorem accounted_moves (h : Accounted t p armed covered up)
    (hok : ∀ m ∈ ms, ∀ t : Tables A, t.Accountable p armed covered m) :
    Accounted (t.moves ms) p armed covered up :=
  List.foldl_invariant move (Accounted · p armed covered up) ms t h fun _ m hm h =>
    accounted_move h (hok m hm _)

/-- A peer that loses its announcements and its candidates has nothing stale. -/
theorem noStale_lost : (t.moves [.Clear p, .Leave p]).NoStale p := by
  intro n
  have hmoves : t.moves [.Clear p, .Leave p] = (t.move (.Clear p)).move (.Leave p) := rfl
  have hheld : ((t.move (.Clear p)).move (.Leave p)).held p n = none := by
    change (t.move (.Clear p)).held p n = none
    rw [held_clear, if_pos rfl]
  unfold stale_at stale_candidate stale_held
  rw [hmoves, candidate_leave, if_pos rfl, hheld]
  rfl

theorem accounted_eor (h : Accounted t p armed covered up) :
    Accounted (t.moves (DaemonState.eor_moves t p)) p armed covered up := by
  by_cases hnil : (t.pending p).keys.isEmpty = true
  · have hmoves : t.moves (DaemonState.eor_moves t p) = t.move (.DropStale p) := by
      unfold DaemonState.eor_moves
      rw [if_pos hnil]
      rfl
    rw [hmoves]
    refine accounted_move h fun _ => ?_
    by_cases harmed : armed
    · exact .inl harmed
    · refine .inr fun n => ?_
      by_contra hn
      obtain ⟨-, hmem⟩ := (h.due n (Bool.of_not_eq_false hn)).resolve_left harmed
      have hkey := AList.mem_keys.1 hmem
      rw [List.isEmpty_iff.1 hnil] at hkey
      cases hkey
  · -- the two moves write different tables, so the stale set may go last
    have hmoves : t.moves (DaemonState.eor_moves t p)
        = (t.move (.Prune p (t.pending p).keys)).move (.DropStale p) := by
      unfold DaemonState.eor_moves
      rw [if_neg hnil]
      rfl
    rw [hmoves]
    have hpruned := accounted_move (m := .Prune p (t.pending p).keys) h trivial
    refine accounted_move hpruned fun _ => ?_
    by_cases harmed : armed
    · exact .inl harmed
    · refine .inr fun n => ?_
      by_contra hn
      have hn := Bool.of_not_eq_false hn
      obtain ⟨-, hmem⟩ := (hpruned.due n hn).resolve_left harmed
      have hgone := hpruned.held n hn
      rw [held_prune, if_pos ⟨rfl, AList.mem_keys.1 hmem⟩] at hgone
      cases hgone

/-! ## What the sessions do to it -/

theorem SameEntries.trans {u : Tables A} (h : SameEntries t t' p) (h' : SameEntries t' u p) :
    SameEntries t u p :=
  ⟨fun n => (h'.held n).trans (h.held n), fun n => (h'.candidate n).trans (h.candidate n),
    fun n => (h'.pending n).trans (h.pending n)⟩

theorem sameEntries_moves {q : IpAddr} (hms : ∀ m ∈ ms, m.peer? ≠ some q) (t : Tables A) :
    SameEntries t (t.moves ms) q := by
  refine List.foldl_invariant move (SameEntries t · q) ms t
    ⟨fun _ => rfl, fun _ => rfl, fun _ => .rfl⟩ fun u m hm hu => ?_
  exact hu.trans (u.sameEntries_move m (hms m hm))

theorem NoStale.forget (h : t.NoStale p) : (t.move (.Forget p)).NoStale p := by
  intro n
  refine Bool.or_eq_false_iff.2 ⟨(Bool.or_eq_false_iff.1 (h n)).1, ?_⟩
  unfold stale_held
  rw [held_forget, if_pos rfl]
  rfl

/-- A session comes up. A family that was kept is marked; in the others there was nothing
stale, or it was due already. -/
theorem accounted_established (h : Accounted t p armed covered up)
    (hkept : kept = true ↔ armed ∧ covered) (covered' : Prop) :
    Accounted (t.moves (if kept then [.MarkStale p] else [])) p False covered' True := by
  cases kept with
  | true =>
    refine ⟨h.held, fun n hn => .inr ⟨trivial, ?_⟩, fun h => h.elim⟩
    exact (mem_pending_markStale ..).2 (.inl ⟨rfl, h.held n hn⟩)
  | false =>
    have hnot : ¬(armed ∧ covered) := fun h => Bool.false_ne_true (hkept.2 h)
    refine ⟨h.held, fun n hn => ?_, fun h => h.elim⟩
    rcases h.due n hn with harmed | ⟨-, hmem⟩
    · exact absurd hn (Bool.eq_false_iff.1 (h.listed harmed (fun hcov => hnot ⟨harmed, hcov⟩) n))
    · exact .inr ⟨trivial, hmem⟩

theorem accounted_established_anew (h : Accounted t p armed covered up)
    (hkept : kept = true ↔ armed ∧ covered) (hup : up → t.NoStaleCandidate p) (covered' : Prop) :
    Accounted (t.moves (if kept then [.MarkStale p] else [.NewAdjRibIn p])) p False covered'
      True := by
  cases kept with
  | true => exact accounted_established h hkept covered'
  | false =>
    have hnot : ¬(armed ∧ covered) := fun h => Bool.false_ne_true (hkept.2 h)
    refine accounted_of_noStale fun n => Bool.or_eq_false_iff.2 ⟨?_, ?_⟩
    · by_contra hn
      have hn : t.stale_candidate p n = true := Bool.of_not_eq_false hn
      have hat : t.stale_at p n = true := Bool.or_eq_true_iff.2 (.inl hn)
      rcases h.due n hat with harmed | ⟨hu, -⟩
      · exact absurd hat (Bool.eq_false_iff.1 (h.listed harmed (fun hcov => hnot ⟨harmed, hcov⟩) n))
      · exact absurd hn (Bool.eq_false_iff.1 (hup hu n))
    · unfold stale_held
      have hheld : (t.moves [.NewAdjRibIn p]).held p n = none := by
        refine (t.held_newAdjRibIn p p n).trans ?_
        rw [if_pos rfl]
      exact hheld ▸ rfl

/-- A session ends. In helper mode a listed family is marked stale and due; the others must
not have had a stale candidate, and a peer that is removed nothing to mark. -/
theorem accounted_terminated (h : Accounted t p armed covered up) {gr cov removed : Bool}
    (hok : gr = true → (cov = false → t.NoStaleCandidate p) ∧
      (removed = true → cov = true → t.announced p = [])) {covered' : Prop}
    (harmed' : removed = false → gr = true → armed')
    (hcov' : removed = false → cov = true → covered') (up' : Prop) :
    Accounted (t.moves ((if gr then DaemonState.helper_moves p cov else [.Clear p, .Leave p])
      ++ if removed then [.Forget p] else [])) p armed' covered' up' := by
  have hforget : ∀ {u : Tables A}, u.NoStale p →
      Accounted (u.moves (if removed then [.Forget p] else [])) p armed' covered' up' := by
    intro u hu
    cases removed with
    | true => exact accounted_of_noStale hu.forget
    | false => exact accounted_of_noStale hu
  cases gr with
  | false => exact hforget noStale_lost
  | true =>
    obtain ⟨hlisted, hempty⟩ := hok rfl
    cases cov with
    | false =>
      refine hforget fun n => Bool.or_eq_false_iff.2 ⟨hlisted rfl n, ?_⟩
      unfold stale_held
      have hheld : (t.moves [.Clear p]).held p n = none := by
        refine (t.held_clear p p n).trans ?_
        rw [if_pos rfl]
      exact hheld ▸ rfl
    | true =>
      cases removed with
      | false =>
        have hstart : Accounted t p armed' covered' up' :=
          ⟨h.held, fun _ _ => .inl (harmed' rfl rfl), fun _ hn => absurd (hcov' rfl rfl) hn⟩
        exact accounted_move (m := .Restale p) hstart fun _ => ⟨harmed' rfl rfl, hcov' rfl rfl⟩
      | true =>
        have hnone : ∀ n, t.held p n = none := by
          intro n
          by_contra hsome
          obtain ⟨raw, hraw⟩ := Option.ne_none_iff_exists'.1 hsome
          have hmem := (t.mem_announced_iff p raw).2 (by rw [t.nlri_of_held p n hraw]; exact hraw)
          rw [hempty rfl rfl] at hmem
          cases hmem
        refine hforget fun n => ?_
        by_contra hn
        have hat : (t.move (.Restale p)).stale_at p n = true := Bool.of_not_eq_false hn
        unfold stale_at stale_candidate stale_held at hat
        rw [candidate_restale, held_restale, if_pos rfl, if_pos rfl, hnone] at hat
        have hold : t.stale_at p n = true := by
          refine Bool.or_eq_true_iff.2 (.inl ?_)
          unfold stale_candidate
          simpa using hat
        have hheld := h.held n hold
        rw [hnone] at hheld
        cases hheld

theorem NoStale.expired (h : t.NoStale p) (peers : List IpAddr) :
    (t.moves (DaemonState.expiry_moves peers)).NoStale p := by
  induction peers generalizing t with
  | nil => exact h
  | cons q peers ih =>
    have hcons : t.moves (DaemonState.expiry_moves (q :: peers))
        = (t.moves [.DropStale q, .Clear q, .Leave q]).moves (DaemonState.expiry_moves peers) := by
      rfl
    apply ih
    by_cases hq : q = p
    · subst hq
      exact noStale_lost (t := t.move (.DropStale q))
    · have hsame : SameEntries t (t.moves [.DropStale q, .Clear q, .Leave q]) p := by
        refine sameEntries_moves (fun m hm => ?_) t
        simp only [List.mem_cons, List.not_mem_nil, or_false] at hm
        rcases hm with rfl | rfl | rfl <;> simpa [Move.peer?] using hq
      exact fun n => hsame.stale_at.trans (h n)

theorem accounted_expired (peers : List IpAddr) (h : Accounted t p armed covered up)
    (harmed' : p ∉ peers → (armed' ↔ armed)) :
    Accounted (t.moves (DaemonState.expiry_moves peers)) p armed' covered up := by
  by_cases hp : p ∈ peers
  · obtain ⟨before, after, rfl⟩ := List.append_of_mem hp
    have hsplit : t.moves (DaemonState.expiry_moves (before ++ p :: after))
        = (((t.moves (DaemonState.expiry_moves before)).move (.DropStale p)).moves
          [.Clear p, .Leave p]).moves (DaemonState.expiry_moves after) := by
      unfold DaemonState.expiry_moves
      rw [List.flatMap_append, List.flatMap_cons, moves_append, moves_append]
      rfl
    rw [hsplit]
    exact accounted_of_noStale (noStale_lost.expired after)
  · have hsame : SameEntries t (t.moves (DaemonState.expiry_moves peers)) p := by
      refine sameEntries_moves (fun m hm => ?_) t
      obtain ⟨q, hq, hm⟩ := List.mem_flatMap.1 hm
      have hne : q ≠ p := fun heq => hp (heq ▸ hq)
      simp only [List.mem_cons, List.not_mem_nil, or_false] at hm
      rcases hm with rfl | rfl | rfl <;> simpa [Move.peer?] using hne
    rw [propext (harmed' hp)]
    exact hsame.accounted h

end Tables

end

end Pathvector

/-
# The kernel layer follows the tables

The calls about one family add up to a table of routes, as `kernel_v4` and `kernel_v6` say of
the calls of the daemon. Here the calls that a move makes are followed, whatever the family.
-/
import Pathvector.Outbound.Kernel
import Pathvector.Tables.Refinement

set_option autoImplicit false

namespace Pathvector

/-- What the kernel layer has followed in one family, from the table `before` to the table
`after`. -/
def DaemonState.Followed {A : Type} [IpAddress A] [DecidableEq A] (reported : Bool)
    (before after : Nlri A → Option (Route A)) (r : LocRib A × List (BestPathChange A)) : Prop :=
  if reported then
    ∃ fallback : List (Nlri A), (∀ n ∈ fallback, n.Canonical) ∧
      ∀ n, after n = if n ∈ fallback ∧ (r.1.best n).isSome then r.1.best n
        else follow_all before r.2 n
  else after = before

variable {A : Type} [IpAddress A] [DecidableEq A]

/-- A kernel table that follows the reports, with no BLACKHOLE prefix to fall back from. -/
theorem DaemonState.followed_reports (f : Nlri A → Option (Route A))
    (r : LocRib A × List (BestPathChange A)) : Followed true f (follow_all f r.2) r := by
  refine ⟨[], ?_, fun n => ?_⟩
  · intro n hn
    cases hn
  · rw [if_neg fun h => List.not_mem_nil h.1]

namespace TableCall

/-- A table kept by following a call. -/
def follow (f : Nlri A → Option (Route A)) : TableCall A → Nlri A → Option (Route A)
  | .Apply change => change.follow f
  | _ => f

theorem follow_changes (f : Nlri A → Option (Route A)) (changes : List (BestPathChange A)) :
    (changes.map Apply).foldl follow f = follow_all f changes := by
  rw [List.foldl_map]
  rfl

/-- Calls about BLACKHOLE prefixes have no say. -/
theorem follow_blackholes {I : Type} {call : I → TableCall A}
    (h : ∀ f i, follow f (call i) = f) (f : Nlri A → Option (Route A)) (l : List I) :
    (l.map call).foldl follow f = f := by
  induction l with
  | nil => rfl
  | cons i l ih => rw [List.map_cons, List.foldl_cons, h, ih]

/-- A prefix that is no BLACKHOLE any more falls back to its best route. -/
theorem follow_fallback (f best : Nlri A → Option (Route A)) (l : List (Nlri A)) (n : Nlri A) :
    (l.flatMap fun m => WithdrawBlackhole m ::
        ((best m).map fun r => Apply (.Announced m r)).toList).foldl follow f n
      = if n ∈ l ∧ (best n).isSome then best n else f n := by
  induction l generalizing f with
  | nil => simp
  | cons m l ih =>
    rw [List.flatMap_cons, List.foldl_append, ih]
    by_cases h : n = m
    · subst h
      cases hb : best n <;> simp [follow, BestPathChange.follow]
    · cases best m <;> simp [h, follow, BestPathChange.follow]

end TableCall

namespace Tables

variable {t t' : Tables A} {peer : IpAddr} {ops : List (RibOp A)} {reported : Bool}

/-- The kernel layer, if there is one, has the best routes. -/
def InKernel (t : Tables A) : Prop :=
  ∀ calls ∈ t.calls, ∀ n, calls.foldl TableCall.follow (fun _ => none) n = t.loc_rib.best n

/-- From `t` to `t'` a batch goes through the Loc-RIB, and the kernel layer follows it. -/
def Batched (t t' : Tables A) (peer : PeerId) (ops : List (RibOp A)) (reported : Bool) : Prop :=
  t'.loc_rib = (t.loc_rib.run_ops peer t.oracle ops).1 ∧
    ∃ more, t'.calls = t.calls.map (· ++ more) ∧ ∀ f, DaemonState.Followed reported f
      (more.foldl TableCall.follow f) (t.loc_rib.run_ops peer t.oracle ops)

theorem batched_nil (t : Tables A) (peer : PeerId) : t.Batched t peer [] true :=
  ⟨rfl, [], by simp, fun f => DaemonState.followed_reports f (t.loc_rib, [])⟩

theorem batched_eor (t : Tables A) (peer : IpAddr) :
    t.Batched (t.moves (DaemonState.eor_moves t peer)) peer ((t.pending peer).keys.map .Drop)
      true := by
  unfold DaemonState.eor_moves
  split
  · next h =>
    rw [List.isEmpty_iff.1 h]
    exact t.batched_nil peer
  · refine ⟨rfl, _ ++ _, congrArg calls (tell_tell ..), fun f => ?_⟩
    rw [List.foldl_append, TableCall.follow_blackholes (fun _ _ => rfl)]
    rw [if_pos rfl, TableCall.follow_changes]
    exact DaemonState.followed_reports f _

theorem batched_hear (t : Tables A) (policy : Policy A) (rtr : RtrHandle A)
    {ops : List (ImportOp A)} (hops : ∀ op ∈ ops, op.nlri.Canonical) (refreshed : List (Nlri A))
    (reported : Bool) :
    t.Batched (t.move (.Hear peer policy rtr ops refreshed reported)) peer
      (ops.filterMap (ImportOp.rib_op policy rtr)) reported := by
  obtain ⟨-, hrun, hbh⟩ := ImportState.take_all_tables peer t.oracle policy rtr
    (.start ((t.adj_ribs_in.lookup peer).getD (AdjRibIn.new peer)) t.loc_rib) ops
  have hrun : ((t.intake peer policy rtr ops).loc_rib, (t.intake peer policy rtr ops).fib_changes)
      = t.loc_rib.run_ops peer t.oracle (ops.filterMap (ImportOp.rib_op policy rtr)) := hrun
  refine ⟨congrArg Prod.fst hrun, _, rfl, fun f => ?_⟩
  cases reported with
  | false => rfl
  | true =>
    refine ⟨(t.intake peer policy rtr ops).blackhole_withdrawn, fun n hn => ?_, fun n => ?_⟩
    · rcases hbh n hn with hn | ⟨op, hop, rfl⟩
      · cases hn
      · exact hops op hop
    · rw [← hrun, if_pos rfl, update_calls, List.foldl_append, List.foldl_append,
        TableCall.follow_fallback, TableCall.follow_blackholes (fun _ _ => rfl),
        TableCall.follow_changes]

theorem batched_lost (t : Tables A) (peer : IpAddr) (gone : Prop) [Decidable gone] :
    (t.moves ([.Clear peer, .Leave peer] ++ if gone then [.Forget peer] else [])).loc_rib
        = (t.loc_rib.withdraw_peer peer t.oracle).1 ∧
      ∃ more, (t.moves ([.Clear peer, .Leave peer]
          ++ if gone then [.Forget peer] else [])).calls = t.calls.map (· ++ more) ∧
        ∀ f, more.foldl TableCall.follow f
          = follow_all f (t.loc_rib.withdraw_peer peer t.oracle).2 := by
  rw [LocRib.withdraw_peer_eq]
  split
  all_goals
    refine ⟨rfl, _ ++ _, congrArg calls (tell_tell ..), fun f => ?_⟩
    rw [List.foldl_append, TableCall.follow_blackholes (fun _ _ => rfl)]
    exact TableCall.follow_changes ..

end Tables

namespace DaemonState

theorem fibInSync_iff_tables (s : DaemonState) :
    s.FibInSync ↔ s.tables_v4.InKernel ∧ s.tables_v6.InKernel := by
  have hv4 : ∀ calls, kernel_v4 calls
      = (calls.filterMap FibCall.v4?).foldl TableCall.follow fun _ => none := by
    intro calls
    rw [List.foldl_filterMap]
    refine congrArg (List.foldl · _ calls) (funext fun f => funext fun c => ?_)
    cases c <;> rfl
  have hv6 : ∀ calls, kernel_v6 calls
      = (calls.filterMap FibCall.v6?).foldl TableCall.follow fun _ => none := by
    intro calls
    rw [List.foldl_filterMap]
    refine congrArg (List.foldl · _ calls) (funext fun f => funext fun c => ?_)
    cases c <;> rfl
  unfold FibInSync Tables.InKernel tables_v4 tables_v6
  cases s.fib_manager with
  | none => simp
  | some calls => simp [hv4, hv6]

end DaemonState

end Pathvector

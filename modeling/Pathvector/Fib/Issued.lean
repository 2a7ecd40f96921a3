/-
# The kernel that the calls add up to

The daemon's calls to the kernel layer, each carried out at once: an install replaces the entry
of its prefix, a delete removes an entry of its own kind. `DaemonState.kernel` is the table they
leave, and `Tables.kernel` the same for one family.

A move of the tables makes three kinds of calls: it reports changes of best routes, it puts null
routes up and it takes null routes down (`told`, `raised`, `lifted`). `kernel_move` is the kernel
after a move in these terms.
-/
import Pathvector.Fib.Manager
import Pathvector.Tables.Contents

set_option autoImplicit false

namespace Pathvector

variable {A : Type} [IpAddress A] [DecidableEq A]

section

variable (gateway : Option NextHop → Option A) (k : KernelTable A)

/-- The operation that a call stands for. -/
def TableCall.operation :
    TableCall A → Option (Nlri A × Pending A)
  | .Apply change => change.operation gateway
  | .ApplyBlackhole nlri => some (nlri, .Blackhole)
  | .WithdrawBlackhole nlri => some (nlri, .WithdrawBlackhole)

/-- Calls that are carried out one after the other. -/
def KernelTable.issue_all (calls : List (TableCall A)) : KernelTable A :=
  calls.foldl (fun k c => k.issue (c.operation gateway)) k

theorem KernelTable.issue_all_append (a b : List (TableCall A)) :
    k.issue_all gateway (a ++ b) = (k.issue_all gateway a).issue_all gateway b :=
  List.foldl_append

/-- What the calls so far have left. Without a kernel layer there is nothing. -/
def Tables.kernel (t : Tables A) : KernelTable A :=
  KernelTable.issue_all gateway (fun _ => none) (t.calls.getD [])

end

/-! ## The two families -/

namespace DaemonState

/-- What the daemon's calls so far have left. -/
def kernel (s : DaemonState) : Kernel :=
  (s.fib_manager.getD []).foldl Kernel.issue ⟨fun _ => none, fun _ => none⟩

theorem issue_family {F : Type} (family? : F → Option (TableCall A))
    (gateway : Option NextHop → Option A) (operation : F → Option (Nlri A × Pending A))
    (h : ∀ c, operation c = (family? c).bind (TableCall.operation gateway))
    (calls : List F) (k : KernelTable A) :
    calls.foldl (fun k c => k.issue (operation c)) k
      = k.issue_all gateway (calls.filterMap family?) := by
  induction calls generalizing k with
  | nil => rfl
  | cons c calls ih =>
    rw [List.foldl_cons, ih, h, List.filterMap_cons]
    cases family? c with
    | none => rfl
    | some d => rfl

theorem kernel_families (s : DaemonState) :
    s.kernel.v4 = s.tables_v4.kernel gateway_v4 ∧ s.kernel.v6 = s.tables_v6.kernel gateway_v6 := by
  have hfold : ∀ (calls : List FibCall) (k : Kernel), calls.foldl Kernel.issue k
      = ⟨calls.foldl (fun k c => k.issue c.operation_v4) k.v4,
        calls.foldl (fun k c => k.issue c.operation_v6) k.v6⟩ := by
    intro calls
    induction calls with
    | nil => exact fun k => rfl
    | cons c calls ih => exact fun k => ih (k.issue c)
  have h4 : ∀ c : FibCall, c.operation_v4 = (FibCall.v4? c).bind (TableCall.operation gateway_v4) :=
    fun c => by cases c <;> rfl
  have h6 : ∀ c : FibCall, c.operation_v6 = (FibCall.v6? c).bind (TableCall.operation gateway_v6) :=
    fun c => by cases c <;> rfl
  unfold kernel Tables.kernel tables_v4 tables_v6
  rw [hfold]
  rw [issue_family _ _ _ h4, issue_family _ _ _ h6]
  cases s.fib_manager <;> exact ⟨rfl, rfl⟩

end DaemonState

/-! ## The calls of a move -/

namespace Tables

/-- The changes of best routes that a move reports. -/
def told (t : Tables A) : Move A → List (BestPathChange A)
  | .Hear peer policy rtr ops _ reported =>
    if reported then (t.intake peer policy rtr ops).fib_changes else []
  | .Prune peer nlris => (t.loc_rib.run_ops peer t.oracle (nlris.map .Drop)).2
  | .Leave peer =>
    (t.loc_rib.run_ops peer t.oracle ((t.loc_rib.prefixes_of peer).map .Drop)).2
  | .Restale peer =>
    let marked := { t with adj_ribs_in := t.adj_ribs_in.modify peer AdjRibIn.mark_all_stale }
    (t.loc_rib.run_ops peer t.oracle ((marked.announced peer).map .Put)).2
  | .Reapply peer policy rtr =>
    (t.loc_rib.run_ops peer t.oracle ((t.announced peer).map (policy.reapplied rtr))).2
  | .Originate route reported =>
    if reported then (t.loc_rib.run_ops LOCAL_ORIGIN_PEER t.oracle [.Put route]).2 else []
  | .Unoriginate nlri => (t.loc_rib.run_ops LOCAL_ORIGIN_PEER t.oracle [.Drop nlri]).2
  | .Reselect => (t.loc_rib.recompute_all t.oracle).2
  | _ => []

/-- The prefixes for which a move puts a null route up. -/
def raised (t : Tables A) : Move A → List (Nlri A)
  | .Hear peer policy rtr ops _ reported =>
    if reported then (t.intake peer policy rtr ops).blackhole_announced else []
  | _ => []

/-- The prefixes for which a move takes the null route down. -/
def lifted (t : Tables A) : Move A → List (Nlri A)
  | .Hear peer policy rtr ops _ reported =>
    if reported then (t.intake peer policy rtr ops).blackhole_withdrawn else []
  | .Prune peer nlris => nlris.filter fun n => (t.held peer n).any Route.is_blackhole
  | .Clear peer => ((t.announced peer).filter Route.is_blackhole).map Route.nlri
  | _ => []

/-- The calls of a move, in their order. -/
def calls_of (t : Tables A) : Move A → List (TableCall A)
  | .Hear peer policy rtr ops _ reported =>
    if reported then update_calls (t.intake peer policy rtr ops) else []
  | .Prune peer nlris =>
    (t.lifted (.Prune peer nlris)).map .WithdrawBlackhole
      ++ (t.told (.Prune peer nlris)).map .Apply
  | .Clear peer => (t.lifted (.Clear peer)).map .WithdrawBlackhole
  | m => (t.told m).map .Apply

theorem calls_move (t : Tables A) {m : Move A} (hm : m ≠ .AttachKernel) :
    (t.move m).calls = t.calls.map (· ++ t.calls_of m) := by
  cases m with
  | Prune peer nlris =>
    refine (congrArg calls (tell_tell _ _ _)).trans ?_
    rfl
  | Clear peer =>
    refine congrArg (fun l => t.calls.map (· ++ l)) ?_
    exact (List.map_map ..).symm
  | Originate route reported => cases reported <;> rfl
  | AttachKernel => exact absurd rfl hm
  | NewAdjRibIn | MarkStale | DropStale | Forget | SetOracle =>
    simp [move, calls_of, told]
  | _ => rfl

/-! ## The kernel after a move -/

variable (gateway : Option NextHop → Option A)

theorem kernel_of_none {t : Tables A} (h : t.calls = none) : t.kernel gateway = fun _ => none := by
  unfold kernel
  rw [h]
  rfl

theorem kernel_move {t : Tables A} {m : Move A} (hm : m ≠ .AttachKernel) (h : t.calls.isSome) :
    (t.move m).kernel gateway = (t.kernel gateway).issue_all gateway (t.calls_of m) := by
  obtain ⟨calls, hcalls⟩ := Option.isSome_iff_exists.1 h
  unfold kernel
  rw [calls_move t hm, hcalls]
  exact KernelTable.issue_all_append ..

end Tables

end Pathvector

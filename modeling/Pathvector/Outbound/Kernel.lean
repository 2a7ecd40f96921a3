/-
# The kernel layer

The daemon tells the kernel layer about changes of best routes, call by call. What the calls
add up to is a table of routes; it should be the table of best routes. Calls about BLACKHOLE
prefixes install and remove discard routes, which are not part of that table.
-/
import Pathvector.Outbound.Views
import Pathvector.Rib.Reports

set_option autoImplicit false

namespace Pathvector

namespace FibCall

/-- An IPv4 table kept by following the calls. -/
def follow_v4 (f : Nlri Ipv4Addr → Option (Route Ipv4Addr)) :
    FibCall → Nlri Ipv4Addr → Option (Route Ipv4Addr)
  | .apply_v4 change => change.follow f
  | _ => f

def follow_v6 (f : Nlri Ipv6Addr → Option (Route Ipv6Addr)) :
    FibCall → Nlri Ipv6Addr → Option (Route Ipv6Addr)
  | .apply_v6 change => change.follow f
  | _ => f

end FibCall

/-- The IPv4 table a list of calls adds up to. -/
def kernel_v4 (calls : List FibCall) : Nlri Ipv4Addr → Option (Route Ipv4Addr) :=
  calls.foldl FibCall.follow_v4 fun _ => none

def kernel_v6 (calls : List FibCall) : Nlri Ipv6Addr → Option (Route Ipv6Addr) :=
  calls.foldl FibCall.follow_v6 fun _ => none

/-! Only the prefixes that a call names are in the table, so comparing it with the best routes
is a matter of finitely many prefixes. -/

def FibCall.names_v4 : FibCall → Option (Nlri Ipv4Addr)
  | .apply_v4 change => change.nlri?
  | _ => none

def FibCall.names_v6 : FibCall → Option (Nlri Ipv6Addr)
  | .apply_v6 change => change.nlri?
  | _ => none

theorem kernel_v4_of_not_named {calls : List FibCall} {n : Nlri Ipv4Addr}
    (h : n ∉ calls.filterMap FibCall.names_v4) : kernel_v4 calls n = none := by
  refine List.foldl_invariant FibCall.follow_v4 (fun f => f n = none) calls (fun _ => none) rfl
    fun f c hc hf => ?_
  have hn : c.names_v4 ≠ some n := fun hn => h (List.mem_filterMap.2 ⟨c, hc, hn⟩)
  cases c with
  | apply_v4 change => exact (follow_of_not_named hn f).trans hf
  | _ => exact hf

theorem kernel_v6_of_not_named {calls : List FibCall} {n : Nlri Ipv6Addr}
    (h : n ∉ calls.filterMap FibCall.names_v6) : kernel_v6 calls n = none := by
  refine List.foldl_invariant FibCall.follow_v6 (fun f => f n = none) calls (fun _ => none) rfl
    fun f c hc hf => ?_
  have hn : c.names_v6 ≠ some n := fun hn => h (List.mem_filterMap.2 ⟨c, hc, hn⟩)
  cases c with
  | apply_v6 change => exact (follow_of_not_named hn f).trans hf
  | _ => exact hf

namespace DaemonState

/-- The kernel layer, if there is one, has the best routes of both families. -/
def FibInSync (s : DaemonState) : Prop :=
  ∀ calls, s.fib_manager = some calls →
    (∀ n, kernel_v4 calls n = s.rib.loc_rib.best n) ∧
      ∀ n, kernel_v6 calls n = s.rib.loc_rib_v6.best n

theorem fibInSync_iff_known (s : DaemonState) :
    s.FibInSync ↔ ∀ calls ∈ s.fib_manager,
      (∀ n ∈ calls.filterMap FibCall.names_v4 ++ known none s.rib.loc_rib,
          kernel_v4 calls n = s.rib.loc_rib.best n) ∧
        ∀ n ∈ calls.filterMap FibCall.names_v6 ++ known none s.rib.loc_rib_v6,
          kernel_v6 calls n = s.rib.loc_rib_v6.best n := by
  refine forall_congr' fun calls => forall_congr' fun _ => ?_
  refine and_congr ⟨fun h n _ => h n, fun h n => ?_⟩ ⟨fun h n _ => h n, fun h n => ?_⟩
  · by_cases hn : n ∈ calls.filterMap FibCall.names_v4 ++ known none s.rib.loc_rib
    · exact h n hn
    · rw [List.mem_append, not_or] at hn
      rw [kernel_v4_of_not_named hn.1, LocRib.best_eq_best_entry, best_entry_of_not_known hn.2]
      rfl
  · by_cases hn : n ∈ calls.filterMap FibCall.names_v6 ++ known none s.rib.loc_rib_v6
    · exact h n hn
    · rw [List.mem_append, not_or] at hn
      rw [kernel_v6_of_not_named hn.1, LocRib.best_eq_best_entry, best_entry_of_not_known hn.2]
      rfl

instance (s : DaemonState) : Decidable s.FibInSync :=
  decidable_of_iff' _ s.fibInSync_iff_known

end DaemonState

end Pathvector

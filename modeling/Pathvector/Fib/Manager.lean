/-
# The kernel layer

`FibManager` (`pathvectord/src/fib.rs`). The daemon's calls put an operation for a prefix into a
map, in the place of the one that was there; a task takes the map and carries the operations out.

The kernel is a table of entries by prefix. An install replaces what is there, a delete removes an
entry of its own kind only. `Kernel.issue` is what a call would do if it were carried out at once.

Is the map transparent: does the kernel end up as if every call had been carried out? The calls that
install are; a delete is not, in the place of an operation of the other kind (`transparent_iff`).
-/
import Pathvector.Daemon.State
import Pathvector.Lib.Coalesce
import Pathvector.Lib.Run

set_option autoImplicit false

namespace Pathvector

/-! ## Operations on the kernel -/

/-- `PendingV4` and `PendingV6`. -/
inductive Pending (A : Type) where
  | Install (gateway : A)
  | Blackhole
  | Withdraw
  | WithdrawBlackhole
  deriving DecidableEq

/-- What the kernel has for a prefix. -/
inductive KernelEntry (A : Type) where
  | Unicast (gateway : A)
  | Blackhole
  deriving DecidableEq

/-- What the writer makes of the entry of the prefix. -/
def Pending.write {A : Type} : Pending A → Option (KernelEntry A) → Option (KernelEntry A)
  | .Install gateway, _ => some (.Unicast gateway)
  | .Blackhole, _ => some .Blackhole
  | .Withdraw, some (.Unicast _) => none
  | .Withdraw, entry => entry
  | .WithdrawBlackhole, some .Blackhole => none
  | .WithdrawBlackhole, entry => entry

/-- Carrying out the operation alone leaves the same as carrying out `old` before it, where the
kernel has this entry: always for an install and for a delete that is repeated, and for the other
pairs as listed. -/
def Pending.Supersedes {A : Type} (entry : Option (KernelEntry A)) : Pending A → Pending A → Prop
  | .Install _, _ | .Blackhole, _ => True
  | .Withdraw, .Withdraw | .WithdrawBlackhole, .WithdrawBlackhole => True
  | .Withdraw, .Install _ | .Withdraw, .WithdrawBlackhole => entry ≠ some .Blackhole
  | .Withdraw, .Blackhole => entry = some .Blackhole
  | .WithdrawBlackhole, .Blackhole | .WithdrawBlackhole, .Withdraw => ∀ g, entry ≠ some (.Unicast g)
  | .WithdrawBlackhole, .Install gateway => entry = some (.Unicast gateway)

theorem Pending.supersedes_iff {A : Type} (entry : Option (KernelEntry A)) (op old : Pending A) :
    op.Supersedes entry old ↔ op.write (old.write entry) = op.write entry := by
  rcases entry with _ | ⟨_⟩ | _ <;> cases op <;> cases old <;>
    simp [Supersedes, write, eq_comm]

/-- The gateway that `apply_v4` installs. -/
def gateway_v4 : Option NextHop → Option Ipv4Addr
  | some (.V4 gateway) => some gateway
  | _ => none

/-- The gateway that `apply_v6` installs. -/
def gateway_v6 : Option NextHop → Option Ipv6Addr
  | some (.V6 gateway) => some gateway
  | some (.V6WithLinkLocal global _) => some global
  | _ => none

/-- The body of `apply_v4` and `apply_v6`: the operation that a change of the best route calls for.
A route without a gateway of the family calls for none. -/
def BestPathChange.operation {A : Type} [IpAddress A] (gateway : Option NextHop → Option A) :
    BestPathChange A → Option (Nlri A × Pending A)
  | .Announced nlri route => (gateway route.next_hop).map fun gw => (nlri, .Install gw)
  | .Withdrawn nlri => some (nlri, .Withdraw)
  | .Unchanged => none

namespace FibCall

/-- The IPv4 operation that a call stands for. -/
def operation_v4 : FibCall → Option (Nlri Ipv4Addr × Pending Ipv4Addr)
  | .apply_v4 change => change.operation gateway_v4
  | .apply_blackhole_v4 nlri => some (nlri, .Blackhole)
  | .withdraw_blackhole_v4 nlri => some (nlri, .WithdrawBlackhole)
  | _ => none

def operation_v6 : FibCall → Option (Nlri Ipv6Addr × Pending Ipv6Addr)
  | .apply_v6 change => change.operation gateway_v6
  | .apply_blackhole_v6 nlri => some (nlri, .Blackhole)
  | .withdraw_blackhole_v6 nlri => some (nlri, .WithdrawBlackhole)
  | _ => none

end FibCall

/-- The kernel's entries of one family. -/
abbrev KernelTable (A : Type) [IpAddress A] : Type := Nlri A → Option (KernelEntry A)

/-- An operation, if there is one, is carried out. -/
def KernelTable.issue {A : Type} [IpAddress A] [DecidableEq A] (t : KernelTable A)
    (operation : Option (Nlri A × Pending A)) : KernelTable A :=
  match operation with
  | some (nlri, op) => Coalesce.issue Pending.write t nlri op
  | none => t

/-- The kernel. -/
structure Kernel where
  v4 : KernelTable Ipv4Addr
  v6 : KernelTable Ipv6Addr

/-- A call that is carried out at once. -/
def Kernel.issue (k : Kernel) (call : FibCall) : Kernel where
  v4 := k.v4.issue call.operation_v4
  v6 := k.v6.issue call.operation_v6

/-! ## The manager -/

/-- One family of the manager, with the kernel it writes to. -/
abbrev FamilyFib (A : Type) [IpAddress A] : Type :=
  Coalesce.Buffered (Nlri A) (Pending A) (Option (KernelEntry A))

namespace FamilyFib

variable {A : Type} [IpAddress A] [DecidableEq A]

section

variable (b : FamilyFib A) (operation : Option (Nlri A × Pending A))

/-- The end of every call: the operation, if there is one, goes into the map. -/
def request : FamilyFib A :=
  match operation with
  | some (nlri, op) => b.call nlri op
  | none => b

/-- The operation that waits for the prefix makes no difference to the one that takes its place. -/
def Covers : Prop :=
  ∀ e ∈ operation, ∀ old ∈ b.pending.lookup e.1, e.2.Supersedes (b.table e.1) old

theorem covers_iff (n : Nlri A) (op : Pending A) :
    b.Covers (some (n, op)) ↔ Coalesce.Buffered.Covers Pending.write b n op := by
  simp only [Covers, Option.mem_def, Option.some.injEq, forall_eq', Pending.supersedes_iff,
    Coalesce.Buffered.Covers, Coalesce.Buffered.promised]
  cases b.pending.lookup n with
  | none => simp
  | some old => simp

/-- What is promised of the family. -/
def promised : KernelTable A := Coalesce.Buffered.promised Pending.write b

theorem promised_request_iff :
    (b.request operation).promised = b.promised.issue operation ↔ b.Covers operation := by
  cases operation with
  | none => simp [Covers, request, KernelTable.issue]
  | some e =>
    rw [covers_iff]
    exact Coalesce.Buffered.promised_call_iff b e.1 e.2

end

end FamilyFib

/-- `FibManager`, with the kernel that its task writes to. -/
structure FibManager where
  v4 : FamilyFib Ipv4Addr
  v6 : FamilyFib Ipv6Addr

namespace FibManager

section

variable (m : FibManager) (nlri : Nlri Ipv4Addr)

/-- `FibManager::new`. -/
def new (kernel : Kernel) : FibManager := ⟨⟨∅, kernel.v4⟩, ⟨∅, kernel.v6⟩⟩

def apply_v4 (change : BestPathChange Ipv4Addr) : FibManager :=
  { m with v4 := m.v4.request (change.operation gateway_v4) }

def apply_v6 (change : BestPathChange Ipv6Addr) : FibManager :=
  { m with v6 := m.v6.request (change.operation gateway_v6) }

def apply_blackhole_v4 : FibManager :=
  { m with v4 := m.v4.request (some (nlri, .Blackhole)) }

def withdraw_blackhole_v4 : FibManager :=
  { m with v4 := m.v4.request (some (nlri, .WithdrawBlackhole)) }

def apply_blackhole_v6 (nlri : Nlri Ipv6Addr) : FibManager :=
  { m with v6 := m.v6.request (some (nlri, .Blackhole)) }

def withdraw_blackhole_v6 (nlri : Nlri Ipv6Addr) : FibManager :=
  { m with v6 := m.v6.request (some (nlri, .WithdrawBlackhole)) }

/-- A call of the daemon. -/
def call : FibCall → FibManager
  | .apply_v4 change => m.apply_v4 change
  | .apply_v6 change => m.apply_v6 change
  | .apply_blackhole_v4 nlri => m.apply_blackhole_v4 nlri
  | .apply_blackhole_v6 nlri => m.apply_blackhole_v6 nlri
  | .withdraw_blackhole_v4 nlri => m.withdraw_blackhole_v4 nlri
  | .withdraw_blackhole_v6 nlri => m.withdraw_blackhole_v6 nlri

/-- The IPv4 half of `process_batch`, on the map that the task has taken. -/
def drain_v4 : FibManager := { m with v4 := m.v4.drain Pending.write }

/-- The IPv6 half of `process_batch`. -/
def drain_v6 : FibManager := { m with v6 := m.v6.drain Pending.write }

/-- A round of the task. -/
def process_batch : FibManager := m.drain_v4.drain_v6

/-- What the task has written. -/
def kernel : Kernel := ⟨m.v4.table, m.v6.table⟩

/-- What a round of the task leaves. -/
def promised : Kernel := ⟨m.v4.promised, m.v6.promised⟩

theorem kernel_process_batch : m.process_batch.kernel = m.promised :=
  congrArg₂ Kernel.mk (Coalesce.Buffered.table_drain m.v4) (Coalesce.Buffered.table_drain m.v6)

end

end FibManager

/-! ## Runs -/

/-- What happens to the manager. Its task takes the two maps one after the other. -/
inductive FibEvent where
  | Call (call : FibCall)
  | DrainV4
  | DrainV6

/-- The calls among the events. -/
def fib_calls (events : List FibEvent) : List FibCall :=
  events.filterMap fun
    | .Call call => some call
    | _ => none

namespace FibManager

def step (m : FibManager) : FibEvent → FibManager
  | .Call call => m.call call
  | .DrainV4 => m.drain_v4
  | .DrainV6 => m.drain_v6

def run (m : FibManager) (events : List FibEvent) : FibManager := events.foldl step m

/-- The operation that waits for the prefix of the call, if there is one, makes no difference to the
entry that the call leaves. -/
def Covered (m : FibManager) : FibEvent → Prop
  | .Call call => m.v4.Covers call.operation_v4 ∧ m.v6.Covers call.operation_v6
  | _ => True

/-- After a last round of the task the kernel is as if every call had been carried out at once. -/
def Transparent (kernel : Kernel) (events : List FibEvent) : Prop :=
  ((new kernel).run events).process_batch.kernel = (fib_calls events).foldl Kernel.issue kernel

theorem call_eq (m : FibManager) (call : FibCall) :
    m.call call = ⟨m.v4.request call.operation_v4, m.v6.request call.operation_v6⟩ := by
  cases call <;> rfl

theorem promised_call_iff (m : FibManager) (call : FibCall) :
    (m.call call).promised = m.promised.issue call ↔ m.Covered (.Call call) := by
  rw [call_eq, promised, promised, Kernel.issue, Kernel.mk.injEq]
  exact and_congr (FamilyFib.promised_request_iff ..) (FamilyFib.promised_request_iff ..)

theorem promised_drain (m : FibManager) :
    m.drain_v4.promised = m.promised ∧ m.drain_v6.promised = m.promised := by
  constructor
  · exact congrArg (Kernel.mk · m.v6.promised) (Coalesce.Buffered.promised_drain m.v4)
  · exact congrArg (Kernel.mk m.v4.promised) (Coalesce.Buffered.promised_drain m.v6)

theorem promised_new (kernel : Kernel) : (new kernel).promised = kernel :=
  congrArg₂ Kernel.mk (Coalesce.Buffered.promised_of_empty rfl)
    (Coalesce.Buffered.promised_of_empty rfl)

theorem transparent_iff_promised (kernel : Kernel) (events : List FibEvent) :
    Transparent kernel events ↔
      ((new kernel).run events).promised = (fib_calls events).foldl Kernel.issue kernel := by
  rw [Transparent, kernel_process_batch]

theorem transparent_snoc {kernel : Kernel} {events : List FibEvent}
    (h : Transparent kernel events) (e : FibEvent) :
    Transparent kernel (events ++ [e]) ↔ ((new kernel).run events).Covered e := by
  rw [transparent_iff_promised] at h
  rw [transparent_iff_promised, run, List.foldl_append, fib_calls, List.filterMap_append,
    List.foldl_append]
  change (((new kernel).run events).step e).promised = _ ↔ _
  have hcalls : (events.filterMap fun
      | .Call call => some call
      | _ => none).foldl Kernel.issue kernel = ((new kernel).run events).promised := h.symm
  rw [hcalls]
  cases e with
  | Call call => exact promised_call_iff _ call
  | DrainV4 => exact iff_of_true (promised_drain _).1 trivial
  | DrainV6 => exact iff_of_true (promised_drain _).2 trivial

/-- **Coalescing.** The kernel is as if every call had been carried out at once, at whatever point
of the run the calls end, just if every call covers the operation whose place it takes. -/
theorem transparent_iff (kernel : Kernel) (events : List FibEvent) :
    (∀ es, es <+: events → Transparent kernel es) ↔
      Machine.Guarded step Covered (new kernel) events := by
  induction events using List.reverseRecOn with
  | nil =>
    refine iff_of_true (fun es hes => ?_) trivial
    rw [List.prefix_nil.1 hes, transparent_iff_promised]
    exact promised_new kernel
  | append_singleton events e ih =>
    rw [Machine.guarded_append, ← ih]
    constructor
    · intro h
      have hbefore : ∀ es, es <+: events → Transparent kernel es := fun es hes =>
        h es (hes.trans (List.prefix_append _ _))
      have hlast := (transparent_snoc (hbefore events (List.prefix_refl _)) e).1
        (h _ (List.prefix_refl _))
      exact ⟨hbefore, hlast, trivial⟩
    · rintro ⟨hbefore, hlast, -⟩ es hes
      rcases List.prefix_concat_iff.1 hes with rfl | hes
      · exact (transparent_snoc (hbefore events (List.prefix_refl _)) e).2 hlast
      · exact hbefore es hes

/-- A null route is in the kernel; it is withdrawn, and so is the best route of the prefix, before
the task has its next round. -/
def leak : List FibEvent :=
  [.Call (.apply_blackhole_v4 (Nlri.v4 192 0 2 0 24)), .DrainV4,
    .Call (.withdraw_blackhole_v4 (Nlri.v4 192 0 2 0 24)),
    .Call (.apply_v4 (.Withdrawn (Nlri.v4 192 0 2 0 24)))]

/-- The null route stays: the delete of a unicast route has taken the place of its own. -/
theorem null_route_leaks : ¬ Transparent ⟨fun _ => none, fun _ => none⟩ leak ∧
    ((new ⟨fun _ => none, fun _ => none⟩).run leak).process_batch.kernel.v4 (Nlri.v4 192 0 2 0 24)
      = some .Blackhole := by
  refine ⟨fun h => ?_, by decide⟩
  have hentry := congrArg (fun k => k.v4 (Nlri.v4 192 0 2 0 24)) h
  revert hentry
  decide

end FibManager

end Pathvector

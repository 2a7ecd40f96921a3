/-
# Routes and route policy

`Route`, `RareAttrs` and `RouteBuilder` (`pathvector-rib/src/route.rs`) and the policy
engine (`pathvector-policy`).

The conditions and actions of the policy crate are trait objects over the `BgpRoute`
trait. `Route` is the only implementor, so `Condition` and `Action` are enumerations of
the crate's own implementors over `Route A`. `PrefixListCondition` holds an `IpSet`,
which is outside this repository: it enters as the predicate it decides. The RPKI table
behind an `RtrHandle` changes while the daemon runs, so `Policy.evaluate` is given the
handle's current answers.
-/
import Pathvector.Types.Attr

set_option autoImplicit false

namespace Pathvector

/-! ## Routes -/

/-- `RareAttrs`: the attributes most routes do not carry. -/
structure RareAttrs where
  communities : List Community := []
  large_communities : List LargeCommunity := []
  extended_communities : List ExtendedCommunity := []
  cluster_list : List UInt32 := []
  atomic_aggregate : Bool := false
  aggregator : Option Aggregator := none
  originator_id : Option Ipv4Addr := none
  otc : Option Asn := none
  unknown : List UnknownAttribute := []
  deriving DecidableEq, Repr

/-- `Route<A>`. Equality is the derived one: every field takes part. -/
structure Route (A : Type) [IpAddress A] where
  nlri : Nlri A
  origin : Origin
  as_path : AsPath
  next_hop : Option NextHop
  local_pref : Option LocalPref
  med : Option Med
  peer_type : PeerType
  received_at : UInt32
  peer_bgp_id : Option Ipv4Addr
  rare : Option RareAttrs
  stale : Bool
  deriving DecidableEq

namespace Route

variable {A : Type} [IpAddress A]
variable (r : Route A)

def rare_or_default : RareAttrs := r.rare.getD {}

/-- `rare_mut`, as an update of the boxed attributes. -/
def rare_mut (f : RareAttrs → RareAttrs) : Route A :=
  { r with rare := some (f r.rare_or_default) }

def communities : List Community := r.rare_or_default.communities

def large_communities : List LargeCommunity := r.rare_or_default.large_communities

def otc : Option Asn := r.rare_or_default.otc

/-- `set_communities`: clearing an absent list allocates nothing. -/
def set_communities (c : List Community) : Route A :=
  if c.isEmpty then { r with rare := r.rare.map fun ra => { ra with communities := [] } }
  else r.rare_mut fun ra => { ra with communities := c }

def set_large_communities (c : List LargeCommunity) : Route A :=
  if c.isEmpty then { r with rare := r.rare.map fun ra => { ra with large_communities := [] } }
  else r.rare_mut fun ra => { ra with large_communities := c }

def set_otc (otc : Option Asn) : Route A :=
  if otc.isNone && r.rare.isNone then r else r.rare_mut fun ra => { ra with otc := otc }

/-- The route carries BLACKHOLE (RFC 7999). -/
def is_blackhole : Bool := r.communities.contains Community.BLACKHOLE

theorem set_communities_eq (c : List Community) :
    ∃ rare, r.set_communities c = { r with rare := rare } := by
  unfold set_communities
  split <;> exact ⟨_, rfl⟩

theorem set_large_communities_eq (c : List LargeCommunity) :
    ∃ rare, r.set_large_communities c = { r with rare := rare } := by
  unfold set_large_communities
  split <;> exact ⟨_, rfl⟩

theorem set_otc_eq (otc : Option Asn) : ∃ rare, r.set_otc otc = { r with rare := rare } := by
  unfold set_otc
  split <;> exact ⟨_, rfl⟩

@[simp]
theorem rare_set_communities (c : List Community) :
    (r.set_communities c).rare_or_default = { r.rare_or_default with communities := c } := by
  unfold set_communities
  split
  · rename_i hc
    rw [List.isEmpty_iff.1 hc]
    unfold rare_or_default
    cases r.rare <;> rfl
  · rfl

@[simp]
theorem rare_set_large_communities (c : List LargeCommunity) :
    (r.set_large_communities c).rare_or_default
      = { r.rare_or_default with large_communities := c } := by
  unfold set_large_communities
  split
  · rename_i hc
    rw [List.isEmpty_iff.1 hc]
    unfold rare_or_default
    cases r.rare <;> rfl
  · rfl

@[simp]
theorem rare_set_otc (otc : Option Asn) :
    (r.set_otc otc).rare_or_default = { r.rare_or_default with otc := otc } := by
  unfold set_otc
  split
  · rename_i hc
    simp only [Bool.and_eq_true, Option.isNone_iff_eq_none] at hc
    rw [hc.1]
    unfold rare_or_default
    rw [hc.2]
    rfl
  · rfl

/-- `RouteBuilder::new(nlri, origin, as_path).build()` at the given wall-clock second. An
AS path without any AS number is stored as the shared empty path. -/
def build (nlri : Nlri A) (origin : Origin) (as_path : AsPath) (now : UInt32) : Route A where
  nlri := nlri
  origin := origin
  as_path := if as_path.is_empty then AsPath.new else as_path
  next_hop := none
  local_pref := none
  med := none
  peer_type := .External
  received_at := now
  peer_bgp_id := none
  rare := none
  stale := false

end Route

/-! ## Policy -/

inductive Decision where
  | Accept
  | Reject
  | Next
  deriving DecidableEq, Repr

inductive DefaultAction where
  | Accept
  | Reject
  deriving DecidableEq, Repr

def DefaultAction.to_decision : DefaultAction → Decision
  | .Accept => .Accept
  | .Reject => .Reject

/-- `RoaValidity` (RFC 6811). -/
inductive RoaValidity where
  | Valid
  | Invalid
  | NotFound
  deriving DecidableEq, Repr

/-- What an `RtrHandle` answers at one moment, for one family. -/
abbrev RtrHandle (A : Type) : Type := A → ℕ → UInt32 → RoaValidity

inductive CompareOp where
  | Equal
  | NotEqual
  | LessThan
  | LessOrEqual
  | GreaterThan
  | GreaterOrEqual
  deriving DecidableEq, Repr

def CompareOp.compare (op : CompareOp) (lhs rhs : ℕ) : Bool :=
  match op with
  | .Equal => lhs == rhs
  | .NotEqual => lhs != rhs
  | .LessThan => lhs < rhs
  | .LessOrEqual => lhs ≤ rhs
  | .GreaterThan => rhs < lhs
  | .GreaterOrEqual => rhs ≤ lhs

/-- The implementors of the `Condition` trait. -/
inductive Condition (A : Type) [IpAddress A] where
  | Any
  | Not (c : Condition A)
  | PrefixList (contains : Nlri A → Bool)
  | HasCommunity (c : Community)
  | HasLargeCommunity (c : LargeCommunity)
  | AsPathContains (asn : Asn)
  | AsPathLength (op : CompareOp) (length : ℕ)
  | HasLocalPref (op : CompareOp) (value : LocalPref)
  | HasMed (op : CompareOp) (value : Med)
  | HasOrigin (origin : Origin)
  | OtcLeak (session_role : Role) (peer_asn : Asn)
  | OtcPropagation
  | RoaState (target : RoaValidity) (local_as : Asn)

namespace Condition

variable {A : Type} [IpAddress A]

/-- `OtcLeakCondition::matches` (RFC 9234 section 5, ingress). -/
def otc_leak (session_role : Role) (peer_asn : Asn) (otc : Option Asn) : Bool :=
  match session_role, otc with
  | .Provider, some _ | .RouteServer, some _ => true
  | .Peer, some otc => otc != peer_asn
  | _, _ => false

/-- `Condition::matches`. -/
def «matches» (rtr : RtrHandle A) (r : Route A) : Condition A → Bool
  | .Any => true
  | .Not c => !c.matches rtr r
  | .PrefixList contains => contains r.nlri.masked
  | .HasCommunity c => r.communities.contains c
  | .HasLargeCommunity c => r.large_communities.contains c
  | .AsPathContains asn => r.as_path.contains asn
  | .AsPathLength op length => op.compare r.as_path.path_length length
  | .HasLocalPref op value => r.local_pref.any fun lp => op.compare lp.toNat value.toNat
  | .HasMed op value => r.med.any fun med => op.compare med.toNat value.toNat
  | .HasOrigin origin => r.origin == origin
  | .OtcLeak role asn => otc_leak role asn r.otc
  | .OtcPropagation => r.otc.isSome
  | .RoaState target local_as =>
    rtr r.nlri.ip r.nlri.mask ((r.as_path.origin_as local_as).getD 0) == target

end Condition

/-- The implementors of the `Action` trait. -/
inductive Action where
  | Accept
  | Reject
  | Next
  | SetLocalPref (value : Option LocalPref)
  | SetMed (value : Option Med)
  | SetOrigin (value : Origin)
  | SetNextHop (value : Option NextHop)
  | PrependAsPath (asn : Asn) (times : ℕ)
  | AddCommunity (c : Community)
  | RemoveCommunity (c : Community)
  | SetCommunities (c : List Community)
  | AddLargeCommunity (c : LargeCommunity)
  | RemoveLargeCommunity (c : LargeCommunity)
  | SetOtc (asn : Asn)
  | Sequence (steps : List Action)

namespace Action

variable {A : Type} [IpAddress A]

mutual

/-- `Action::apply`: the decision and the route as the action leaves it. -/
def apply : Action → Route A → Decision × Route A
  | .Accept, r => (.Accept, r)
  | .Reject, r => (.Reject, r)
  | .Next, r => (.Next, r)
  | .SetLocalPref value, r => (.Next, { r with local_pref := value })
  | .SetMed value, r => (.Next, { r with med := value })
  | .SetOrigin value, r => (.Next, { r with origin := value })
  | .SetNextHop value, r => (.Next, { r with next_hop := value })
  | .PrependAsPath asn times, r =>
    (.Next, { r with as_path := (fun p => AsPath.prepend p asn)^[times] r.as_path })
  | .AddCommunity c, r => (.Next, r.set_communities (r.communities ++ [c]))
  | .RemoveCommunity c, r => (.Next, r.set_communities (r.communities.filter (· != c)))
  | .SetCommunities c, r => (.Next, r.set_communities c)
  | .AddLargeCommunity c, r => (.Next, r.set_large_communities (r.large_communities ++ [c]))
  | .RemoveLargeCommunity c, r =>
    (.Next, r.set_large_communities (r.large_communities.filter (· != c)))
  | .SetOtc asn, r => (.Next, if r.otc.isNone then r.set_otc (some asn) else r)
  | .Sequence steps, r => apply_steps steps r

/-- `ActionSequence::apply`: stops at the first step that decides. -/
def apply_steps : List Action → Route A → Decision × Route A
  | [], r => (.Next, r)
  | step :: steps, r =>
    match apply step r with
    | (.Next, r') => apply_steps steps r'
    | decided => decided

end

/-- A property of routes that no single rewriting by a policy takes away. -/
structure Keeps (P : Route A → Prop) : Prop where
  local_pref : ∀ r v, P r → P { r with local_pref := v }
  med : ∀ r v, P r → P { r with med := v }
  origin : ∀ r v, P r → P { r with origin := v }
  next_hop : ∀ r v, P r → P { r with next_hop := v }
  as_path : ∀ r asn, P r → P { r with as_path := r.as_path.prepend asn }
  communities : ∀ r c, P r → P (r.set_communities c)
  large_communities : ∀ r c, P r → P (r.set_large_communities c)
  otc : ∀ r asn, P r → P (r.set_otc asn)

namespace Keeps

variable {P : Route A → Prop}

theorem of_rare (hlp : ∀ r v, P r → P { r with local_pref := v })
    (hmed : ∀ r v, P r → P { r with med := v }) (horigin : ∀ r v, P r → P { r with origin := v })
    (hnh : ∀ r v, P r → P { r with next_hop := v })
    (hpath : ∀ r asn, P r → P { r with as_path := r.as_path.prepend asn })
    (hrare : ∀ r v, P r → P { r with rare := v }) : Keeps P := by
  refine ⟨hlp, hmed, horigin, hnh, hpath, fun r c hr => ?_, fun r c hr => ?_, fun r c hr => ?_⟩
  · obtain ⟨_, heq⟩ := r.set_communities_eq c
    exact heq ▸ hrare r _ hr
  · obtain ⟨_, heq⟩ := r.set_large_communities_eq c
    exact heq ▸ hrare r _ hr
  · obtain ⟨_, heq⟩ := r.set_otc_eq c
    exact heq ▸ hrare r _ hr

theorem prepend_times (h : Keeps P) (asn : Asn) (times : ℕ) {r : Route A} (hr : P r) :
    P { r with as_path := (fun p => AsPath.prepend p asn)^[times] r.as_path } := by
  induction times with
  | zero => exact hr
  | succ times ih =>
    rw [Function.iterate_succ_apply']
    exact h.as_path _ asn ih

mutual

theorem apply (h : Keeps P) : ∀ (a : Action) (r : Route A), P r → P (a.apply r).2
  | .Accept, _, hr | .Reject, _, hr | .Next, _, hr => by simpa only [Action.apply] using hr
  | .SetLocalPref v, r, hr => by simpa only [Action.apply] using h.local_pref r v hr
  | .SetMed v, r, hr => by simpa only [Action.apply] using h.med r v hr
  | .SetOrigin v, r, hr => by simpa only [Action.apply] using h.origin r v hr
  | .SetNextHop v, r, hr => by simpa only [Action.apply] using h.next_hop r v hr
  | .PrependAsPath asn times, r, hr => by
    simpa only [Action.apply] using h.prepend_times asn times hr
  | .AddCommunity _, r, hr | .RemoveCommunity _, r, hr | .SetCommunities _, r, hr => by
    simpa only [Action.apply] using h.communities r _ hr
  | .AddLargeCommunity _, r, hr | .RemoveLargeCommunity _, r, hr => by
    simpa only [Action.apply] using h.large_communities r _ hr
  | .SetOtc _, r, hr => by
    simp only [Action.apply]
    split
    · exact h.otc r _ hr
    · exact hr
  | .Sequence steps, r, hr => by
    rw [Action.apply]
    exact apply_steps h steps r hr

theorem apply_steps (h : Keeps P) : ∀ (steps : List Action) (r : Route A), P r →
    P (Action.apply_steps steps r).2
  | [], _, hr => hr
  | step :: steps, r, hr => by
    have hstep := apply h step r hr
    rw [Action.apply_steps]
    split
    · rename_i r' heq
      rw [heq] at hstep
      exact apply_steps h steps r' hstep
    · exact hstep

end

end Keeps

end Action

/-- `Term<C, A>`. -/
structure Term (A : Type) [IpAddress A] where
  condition : Condition A
  action : Action

structure Policy (A : Type) [IpAddress A] where
  terms : List (Term A)
  default : DefaultAction

namespace Policy

variable {A : Type} [IpAddress A]

def new (default : DefaultAction) : Policy A := ⟨[], default⟩

def add_term (p : Policy A) (t : Term A) : Policy A := { p with terms := p.terms ++ [t] }

def set_default (p : Policy A) (default : DefaultAction) : Policy A :=
  { p with default := default }

/-- The loop of `evaluate` over the remaining terms. -/
def evaluate_terms (rtr : RtrHandle A) (default : DefaultAction) :
    List (Term A) → Route A → Decision × Route A
  | [], r => (default.to_decision, r)
  | t :: ts, r =>
    if t.condition.matches rtr r then
      match t.action.apply r with
      | (.Accept, r') => (.Accept, r')
      | (.Reject, r') => (.Reject, r')
      | (.Next, r') => evaluate_terms rtr default ts r'
    else evaluate_terms rtr default ts r

/-- `Policy::evaluate`: the first term that accepts or rejects decides, and the default
action decides when none does. The route is transformed on the way. -/
def evaluate (rtr : RtrHandle A) (p : Policy A) (r : Route A) : Decision × Route A :=
  evaluate_terms rtr p.default p.terms r

section

variable {P : Route A → Prop} {r : Route A} (rtr : RtrHandle A) (p : Policy A)

theorem evaluate_terms_keeps (default : DefaultAction) {ts : List (Term A)}
    (hts : ∀ t ∈ ts, ∀ r, P r → P (t.action.apply r).2) (hr : P r) :
    P (evaluate_terms rtr default ts r).2 := by
  induction ts generalizing r with
  | nil => exact hr
  | cons t ts ih =>
    have hrest := fun {r : Route A} (hr : P r) =>
      ih (fun t ht => hts t (List.mem_cons_of_mem _ ht)) hr
    have hact := hts t (List.mem_cons_self ..) r hr
    rw [evaluate_terms]
    split
    · split <;> rename_i r' heq <;> rw [heq] at hact
      · exact hact
      · exact hact
      · exact hrest hact
    · exact hrest hr

theorem keeps_evaluate (h : Action.Keeps P) (rtr : RtrHandle A) (p : Policy A) (hr : P r) :
    P (p.evaluate rtr r).2 :=
  evaluate_terms_keeps rtr p.default (fun t _ r hr => h.apply t.action r hr) hr

@[simp]
theorem nlri_evaluate (r : Route A) : (p.evaluate rtr r).2.nlri = r.nlri := by
  refine keeps_evaluate (P := fun r' => r'.nlri = r.nlri) (.of_rare ?_ ?_ ?_ ?_ ?_ ?_) rtr p rfl
  all_goals exact fun _ _ h => h

theorem stale_evaluate (r : Route A) : (p.evaluate rtr r).2.stale = r.stale := by
  refine keeps_evaluate (P := fun r' => r'.stale = r.stale) (.of_rare ?_ ?_ ?_ ?_ ?_ ?_) rtr p rfl
  all_goals exact fun _ _ h => h

end

end Policy

end Pathvector

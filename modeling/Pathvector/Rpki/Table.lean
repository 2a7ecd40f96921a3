/-
# The ROA table

`pathvector-rpki/src/table.rs`: the payloads that are known, filed by prefix, and the validation of
a route's origin against them (RFC 6811).

Every payload whose prefix covers the route has a say, so `validate` walks from the length of the
route up to the root. The longest match only serves to leave early when nothing in the
map contains the address. That is sound because a prefix with no entries has no node; the table
carries it as a field. The map itself is any `M` with the laws of `RouteMap`.
-/
import Pathvector.Rib.Route
import Pathvector.Rpki.Pdu
import Pathvector.Types.RouteMap

set_option autoImplicit false

namespace Pathvector.Rpki

variable {M : (A : Type) → [IpAddress A] → [DecidableEq A] → Type → Type} [RouteMap M]

/-! ## One family -/

structure RoaEntry where
  max_len : UInt8
  asn : UInt32
  deriving DecidableEq

/-- `FamilyTable<A>`; every node has an entry. -/
structure FamilyTable (M : (A : Type) → [IpAddress A] → [DecidableEq A] → Type → Type) [RouteMap M]
    (A : Type) [IpAddress A] [DecidableEq A] where
  map : M A (List RoaEntry)
  filled : ∀ p entries, RouteMap.get map p = some entries → entries ≠ []

namespace FamilyTable

variable {A : Type} [IpAddress A] [DecidableEq A]
variable (t : FamilyTable M A) (ip : A) (prefix_len : ℕ) (origin_asn : UInt32) {entry : RoaEntry}

def new : FamilyTable M A where
  map := RouteMap.new
  filled p entries h := by
    rw [RouteMap.get_new] at h
    cases h

/-- The entries `insert` files under a prefix. -/
def with_entry (entries : List RoaEntry) (entry : RoaEntry) : List RoaEntry :=
  if entries.contains entry then entries else entries ++ [entry]

theorem mem_with_entry {entries : List RoaEntry} {e : RoaEntry} :
    e ∈ with_entry entries entry ↔ e = entry ∨ e ∈ entries := by
  unfold with_entry
  split
  · rename_i h
    rw [List.contains_iff_mem] at h
    exact ⟨.inr, fun he => he.elim (fun heq => heq ▸ h) id⟩
  · rw [List.mem_append, List.mem_singleton, or_comm]

/-- `FamilyTable::insert`. -/
def insert (t : FamilyTable M A) (p : Nlri A) (entry : RoaEntry) : FamilyTable M A where
  map := RouteMap.insert t.map p (with_entry ((RouteMap.get t.map p).getD []) entry)
  filled q entries h := by
    rw [RouteMap.get_insert] at h
    split at h
    · cases h
      exact List.ne_nil_of_mem (mem_with_entry.2 (.inl rfl))
    · exact t.filled q entries h

/-- The map after `remove`. -/
def removed (map : M A (List RoaEntry)) (p : Nlri A) (entry : RoaEntry) : M A (List RoaEntry) :=
  match RouteMap.get map p with
  | none => map
  | some entries =>
    let entries := entries.filter fun e => e ≠ entry
    if entries.isEmpty then RouteMap.remove map p else RouteMap.insert map p entries

theorem get_removed (map : M A (List RoaEntry)) (p q : Nlri A) (entry : RoaEntry) :
    RouteMap.get (removed map p entry) q =
      if q.masked = p.masked then
        (RouteMap.get map p).bind fun entries =>
          if (entries.filter fun e => e ≠ entry).isEmpty then none
          else some (entries.filter fun e => e ≠ entry)
      else RouteMap.get map q := by
  unfold removed
  cases hp : RouteMap.get map p with
  | none =>
    dsimp only
    split
    · rename_i heq
      rw [RouteMap.get_congr map heq, hp, Option.bind_none]
    · rfl
  | some entries =>
    rw [Option.bind_some]
    dsimp only
    split
    · rw [RouteMap.get_remove]
    · rw [RouteMap.get_insert]

/-- `FamilyTable::remove`. -/
def remove (t : FamilyTable M A) (p : Nlri A) (entry : RoaEntry) : FamilyTable M A where
  map := removed t.map p entry
  filled q entries h := by
    rw [get_removed] at h
    split at h
    · obtain ⟨es, -, hes⟩ := Option.bind_eq_some_iff.1 h
      split at hes
      · cases hes
      · rename_i hne
        cases hes
        rw [List.isEmpty_iff] at hne
        exact hne
    · exact t.filled q entries h

/-- The entries of a node let the AS originate a prefix of that length. -/
def authorizes (entries : List RoaEntry) (prefix_len : ℕ) (origin_asn : UInt32) : Bool :=
  entries.any fun e => e.asn != 0 && e.asn == origin_asn && decide (prefix_len ≤ e.max_len.toNat)

/-- The entries under the prefix of an address, if that is a prefix at all. -/
def node (t : FamilyTable M A) (ip : A) (len : ℕ) : Option (List RoaEntry) :=
  (Nlri.new ip len).bind (RouteMap.get t.map)

/-- The loop of `validate`. -/
def walk (t : FamilyTable M A) (ip : A) (prefix_len : ℕ) (origin_asn : UInt32) :
    List ℕ → Bool → RoaValidity
  | [], saw_covering => if saw_covering then .Invalid else .NotFound
  | len :: lens, saw_covering =>
    match t.node ip len with
    | some entries =>
      if authorizes entries prefix_len origin_asn then .Valid
      else t.walk ip prefix_len origin_asn lens true
    | none => t.walk ip prefix_len origin_asn lens saw_covering

/-- `FamilyTable::validate`. -/
def validate (t : FamilyTable M A) (ip : A) (prefix_len : ℕ) (origin_asn : UInt32) : RoaValidity :=
  if (RouteMap.longest_match_entry t.map ip).isNone then .NotFound
  else t.walk ip prefix_len origin_asn (lengths prefix_len) false

/-! ## What the table knows -/

/-- The payloads in the table. -/
def vrps (t : FamilyTable M A) : Set (Vrp A) :=
  {v | ∃ entries, RouteMap.get t.map v.network = some entries ∧ ⟨v.max_len, v.asn⟩ ∈ entries}

theorem vrps_new : (new : FamilyTable M A).vrps = ∅ := by
  ext v
  refine iff_of_false ?_ (Set.notMem_empty v)
  rintro ⟨entries, h, -⟩
  have hnone : RouteMap.get (new : FamilyTable M A).map v.network = none := RouteMap.get_new _
  rw [hnone] at h
  cases h

omit [DecidableEq A] in
theorem eq_of_nlri {v : Vrp A} {p : Nlri A} :
    v = .of_nlri p entry.max_len entry.asn ↔
      v.network.masked = p.masked ∧ ⟨v.max_len, v.asn⟩ = entry := by
  obtain ⟨network, hcanonical, max_len, asn⟩ := v
  obtain ⟨max_len', asn'⟩ := entry
  have hmasked : network.masked = network := hcanonical
  simp [Vrp.of_nlri, hmasked]

theorem vrps_insert (p : Nlri A) (entry : RoaEntry) :
    (t.insert p entry).vrps = Journal.apply t.vrps ⟨true, .of_nlri p entry.max_len entry.asn⟩ := by
  ext v
  have happly : v ∈ Journal.apply t.vrps ⟨true, .of_nlri p entry.max_len entry.asn⟩ ↔
      v = .of_nlri p entry.max_len entry.asn ∨ v ∈ t.vrps := Set.mem_insert_iff
  rw [happly, eq_of_nlri]
  show (∃ entries, RouteMap.get (RouteMap.insert t.map p _) v.network = some entries ∧ _) ↔ _
  rw [RouteMap.get_insert]
  by_cases hp : v.network.masked = p.masked
  · have hget := RouteMap.get_congr t.map hp.symm
    rw [if_pos hp, hget]
    constructor
    · rintro ⟨entries, heq, hmem⟩
      cases heq
      rcases mem_with_entry.1 hmem with heq | hmem
      · exact .inl ⟨hp, heq⟩
      · right
        cases hnode : RouteMap.get t.map v.network with
        | none =>
          rw [hnode] at hmem
          cases hmem
        | some es =>
          rw [hnode] at hmem
          exact ⟨es, hnode, hmem⟩
    · rintro (⟨-, heq⟩ | ⟨es, hnode, hmem⟩)
      · exact ⟨_, rfl, mem_with_entry.2 (.inl heq)⟩
      · refine ⟨_, rfl, mem_with_entry.2 (.inr ?_)⟩
        rw [hnode]
        exact hmem
  · rw [if_neg hp]
    exact ⟨.inr, fun h => h.resolve_left fun heq => hp heq.1⟩

theorem vrps_remove (p : Nlri A) (entry : RoaEntry) :
    (t.remove p entry).vrps = Journal.apply t.vrps ⟨false, .of_nlri p entry.max_len entry.asn⟩ := by
  ext v
  have happly : v ∈ Journal.apply t.vrps ⟨false, .of_nlri p entry.max_len entry.asn⟩ ↔
      v ∈ t.vrps ∧ v ≠ .of_nlri p entry.max_len entry.asn := Iff.rfl
  rw [happly, ne_eq, eq_of_nlri]
  show (∃ entries, RouteMap.get (removed t.map p entry) v.network = some entries ∧ _) ↔ _
  rw [get_removed]
  by_cases hp : v.network.masked = p.masked
  · have hget := RouteMap.get_congr t.map hp.symm
    rw [if_pos hp, hget]
    constructor
    · rintro ⟨entries, heq, hmem⟩
      obtain ⟨es, hnode, hes⟩ := Option.bind_eq_some_iff.1 heq
      split at hes
      · cases hes
      · cases hes
        have hfilter := List.mem_filter.1 hmem
        exact ⟨⟨es, hnode, hfilter.1⟩, fun h => of_decide_eq_true hfilter.2 h.2⟩
    · rintro ⟨⟨es, hnode, hmem⟩, hne⟩
      have hkept : (⟨v.max_len, v.asn⟩ : RoaEntry) ∈ es.filter fun e => e ≠ entry :=
        List.mem_filter.2 ⟨hmem, decide_eq_true fun heq => hne ⟨hp, heq⟩⟩
      refine ⟨es.filter fun e => e ≠ entry, ?_, hkept⟩
      rw [hnode, Option.bind_some, if_neg]
      rw [List.isEmpty_iff]
      exact List.ne_nil_of_mem hkept
  · rw [if_neg hp]
    exact ⟨fun h => ⟨h, fun heq => hp heq.1⟩, fun h => h.1⟩

/-! ## Validation -/

theorem exists_covering (P : RoaEntry → Prop) :
    (∃ v ∈ t.vrps, v.Covers ip prefix_len ∧ P ⟨v.max_len, v.asn⟩) ↔
      ∃ len ≤ prefix_len, ∃ entries, t.node ip len = some entries ∧ ∃ e ∈ entries, P e := by
  constructor
  · rintro ⟨v, ⟨entries, hget, hmem⟩, hcovers, hP⟩
    obtain ⟨hle, p, hp, hmasked⟩ := Vrp.covers_iff.1 hcovers
    refine ⟨v.network.mask, hle, entries, ?_, _, hmem, hP⟩
    have hnode : RouteMap.get t.map p = RouteMap.get t.map v.network :=
      RouteMap.get_congr t.map (hmasked.trans v.canonical.symm)
    rw [node, hp, Option.bind_some, hnode, hget]
  · rintro ⟨len, hle, entries, hnode, e, hmem, hP⟩
    obtain ⟨p, hp, hget⟩ := Option.bind_eq_some_iff.1 hnode
    have hmask : p.mask = len := (Nlri.new_eq_some hp).2
    refine ⟨.of_nlri p e.max_len e.asn, ⟨entries, ?_, hmem⟩, Vrp.covers_iff.2 ⟨?_, p, ?_, rfl⟩, hP⟩
    · exact (RouteMap.get_masked t.map p).trans hget
    · exact hmask.trans_le hle
    · show Nlri.new ip p.mask = some p
      rw [hmask, hp]

theorem walk_eq_valid (lens : List ℕ) (saw_covering : Bool) :
    t.walk ip prefix_len origin_asn lens saw_covering = .Valid ↔
      ∃ len ∈ lens, ∃ entries, t.node ip len = some entries
        ∧ authorizes entries prefix_len origin_asn = true := by
  induction lens generalizing saw_covering with
  | nil => cases saw_covering <;> simp [walk]
  | cons len lens ih =>
    rw [walk]
    cases hnode : t.node ip len with
    | none =>
      rw [ih]
      simp [hnode]
    | some entries =>
      dsimp only
      split
      · rename_i hauth
        exact iff_of_true rfl ⟨len, List.mem_cons_self, entries, hnode, hauth⟩
      · rename_i hauth
        rw [ih]
        simp [hnode, hauth]

theorem walk_eq_not_found (lens : List ℕ) (saw_covering : Bool) :
    t.walk ip prefix_len origin_asn lens saw_covering = .NotFound ↔
      saw_covering = false ∧ ∀ len ∈ lens, t.node ip len = none := by
  induction lens generalizing saw_covering with
  | nil => cases saw_covering <;> simp [walk]
  | cons len lens ih =>
    rw [walk]
    cases hnode : t.node ip len with
    | none =>
      rw [ih]
      simp [hnode]
    | some entries =>
      dsimp only
      split
      · simp [hnode]
      · rw [ih]
        simp [hnode]

theorem node_of_no_match {t : FamilyTable M A} {ip : A}
    (h : RouteMap.longest_match_entry t.map ip = none) (len : ℕ) : t.node ip len = none := by
  rw [RouteMap.longest_match_entry_eq_none] at h
  unfold node
  cases hp : Nlri.new ip len with
  | none => rfl
  | some p => exact h len p hp

theorem validate_eq_valid :
    t.validate ip prefix_len origin_asn = .Valid ↔
      ∃ len ≤ prefix_len, ∃ entries, t.node ip len = some entries
        ∧ authorizes entries prefix_len origin_asn = true := by
  unfold validate
  split
  · rename_i hmatch
    have hnode := node_of_no_match (Option.isNone_iff_eq_none.1 hmatch)
    simp [hnode]
  · rw [walk_eq_valid]
    simp only [mem_lengths]

theorem validate_eq_not_found :
    t.validate ip prefix_len origin_asn = .NotFound ↔ ∀ len ≤ prefix_len, t.node ip len = none := by
  unfold validate
  split
  · rename_i hmatch
    have hnode := node_of_no_match (Option.isNone_iff_eq_none.1 hmatch)
    simp [hnode]
  · rw [walk_eq_not_found]
    simp only [mem_lengths, true_and]

end FamilyTable

/-- RFC 6811: the validity of a route's origin, given the payloads. -/
structure Rfc6811 {A : Type} [IpAddress A] (vrps : Set (Vrp A)) (ip : A) (len : ℕ)
    (origin_asn : UInt32) (validity : RoaValidity) : Prop where
  valid : validity = .Valid ↔ ∃ v ∈ vrps, v.Covers ip len ∧ v.Matches len origin_asn
  invalid : validity = .Invalid ↔
    (∃ v ∈ vrps, v.Covers ip len) ∧ ∀ v ∈ vrps, v.Covers ip len → ¬v.Matches len origin_asn
  not_found : validity = .NotFound ↔ ∀ v ∈ vrps, ¬v.Covers ip len

theorem FamilyTable.validate_spec {A : Type} [IpAddress A] [DecidableEq A] (t : FamilyTable M A)
    (ip : A) (len : ℕ) (origin_asn : UInt32) :
    Rfc6811 t.vrps ip len origin_asn (t.validate ip len origin_asn) := by
  have hvalid : t.validate ip len origin_asn = .Valid ↔
      ∃ v ∈ t.vrps, v.Covers ip len ∧ v.Matches len origin_asn := by
    have hcovering := t.exists_covering ip len fun e =>
      len ≤ e.max_len.toNat ∧ e.asn = origin_asn ∧ e.asn ≠ 0
    rw [validate_eq_valid]
    refine Iff.trans ?_ hcovering.symm
    simp only [authorizes, List.any_eq_true, Bool.and_eq_true, bne_iff_ne, beq_iff_eq,
      decide_eq_true_iff]
    refine exists_congr fun l => and_congr_right fun _ => exists_congr fun entries =>
      and_congr_right fun _ => exists_congr fun e => and_congr_right fun _ => ?_
    tauto
  have hnot_found : t.validate ip len origin_asn = .NotFound ↔ ∀ v ∈ t.vrps, ¬v.Covers ip len := by
    have hcovering := t.exists_covering ip len fun _ => True
    simp only [and_true] at hcovering
    rw [validate_eq_not_found]
    constructor
    · intro hnone v hv hcovers
      obtain ⟨l, hl, entries, hnode, -⟩ := hcovering.1 ⟨v, hv, hcovers⟩
      rw [hnone l hl] at hnode
      cases hnode
    · intro hno l hl
      cases hnode : t.node ip l with
      | none => rfl
      | some entries =>
        -- A node has an entry, and its payload would cover the prefix.
        obtain ⟨p, -, hget⟩ := Option.bind_eq_some_iff.1 hnode
        obtain ⟨e, he⟩ := List.exists_mem_of_ne_nil entries (t.filled p entries hget)
        obtain ⟨v, hv, hcovers⟩ := hcovering.2 ⟨l, hl, entries, hnode, e, he⟩
        exact absurd hcovers (hno v hv)
  refine ⟨hvalid, ?_, hnot_found⟩
  constructor
  · intro hinvalid
    rw [hinvalid] at hvalid hnot_found
    have hno : ¬∃ v ∈ t.vrps, v.Covers ip len ∧ v.Matches len origin_asn :=
      fun h => by cases hvalid.2 h
    have hsome : ¬∀ v ∈ t.vrps, ¬v.Covers ip len := fun h => by cases hnot_found.2 h
    refine ⟨?_, fun v hv hcovers hmatches => hno ⟨v, hv, hcovers, hmatches⟩⟩
    by_contra hnone
    exact hsome fun v hv hcovers => hnone ⟨v, hv, hcovers⟩
  · rintro ⟨⟨v, hv, hcovers⟩, hno⟩
    cases hvalidity : t.validate ip len origin_asn with
    | Invalid => rfl
    | Valid =>
      obtain ⟨w, hw, hcovers, hmatches⟩ := hvalid.1 hvalidity
      exact absurd hmatches (hno w hw hcovers)
    | NotFound => exact absurd hcovers (hnot_found.1 hvalidity v hv)

/-! ## Both families -/

structure RoaTable (M : (A : Type) → [IpAddress A] → [DecidableEq A] → Type → Type) [RouteMap M]
    where
  v4 : FamilyTable M Ipv4Addr
  v6 : FamilyTable M Ipv6Addr
  serial_value : UInt32
  has_serial : Bool

namespace RoaTable

section

variable (t : RoaTable M) (pdus : List Pdu)

def new : RoaTable M := ⟨.new, .new, 0, false⟩

/-- `RoaTable::validate_v4`, an `RtrHandle` for the policies. -/
def validate_v4 : RtrHandle Ipv4Addr := t.v4.validate

/-- `RoaTable::validate_v6`. -/
def validate_v6 : RtrHandle Ipv6Addr := t.v6.validate

def apply_flagged {A : Type} [IpAddress A] [DecidableEq A] (t : FamilyTable M A) (p : Nlri A)
    (entry : RoaEntry) (flags : PrefixFlags) : FamilyTable M A :=
  if flags.announce then t.insert p entry else t.remove p entry

/-- `RoaTable::apply_prefix_pdu`. -/
def apply_prefix_pdu : Pdu → RoaTable M
  | .Ipv4Prefix flags prefix_len max_len addr asn =>
    match Nlri.new addr prefix_len.toNat with
    | none => t
    | some p => { t with v4 := apply_flagged t.v4 p ⟨max_len, asn⟩ flags }
  | .Ipv6Prefix flags prefix_len max_len addr asn =>
    match Nlri.new addr prefix_len.toNat with
    | none => t
    | some p => { t with v6 := apply_flagged t.v6 p ⟨max_len, asn⟩ flags }
  | _ => t

/-- `RoaTable::clear`. -/
def clear : RoaTable M := { t with v4 := .new, v6 := .new, has_serial := false }

/-- `RoaTable::set_serial`. -/
def set_serial (serial : UInt32) : RoaTable M :=
  { t with serial_value := serial, has_serial := true }

/-- `RoaTable::serial`. -/
def serial : Option UInt32 := if t.has_serial then some t.serial_value else none

/-- The table after a sequence of PDUs. -/
def apply_all : RoaTable M := pdus.foldl apply_prefix_pdu t

/-- The payloads in the table. -/
def payloads : Set Payload
  | .v4 v => v ∈ t.v4.vrps
  | .v6 v => v ∈ t.v6.vrps

theorem payloads_new : (new : RoaTable M).payloads = ∅ := by
  ext v
  cases v with
  | v4 v => exact iff_of_eq (congrArg (v ∈ ·) FamilyTable.vrps_new)
  | v6 v => exact iff_of_eq (congrArg (v ∈ ·) FamilyTable.vrps_new)

theorem payloads_clear : t.clear.payloads = ∅ := payloads_new

theorem vrps_apply_flagged {A : Type} [IpAddress A] [DecidableEq A] (t : FamilyTable M A)
    (p : Nlri A) (entry : RoaEntry) (flags : PrefixFlags) :
    (apply_flagged t p entry flags).vrps
      = Journal.apply t.vrps ⟨flags.announce, .of_nlri p entry.max_len entry.asn⟩ := by
  unfold apply_flagged
  cases flags.announce with
  | true => exact t.vrps_insert p entry
  | false => exact t.vrps_remove p entry

theorem payloads_apply_prefix_pdu (pdu : Pdu) :
    (t.apply_prefix_pdu pdu).payloads = Journal.replay t.payloads pdu.change?.toList := by
  cases pdu with
  | Ipv4Prefix flags prefix_len max_len addr asn =>
    simp only [apply_prefix_pdu, Pdu.change?]
    cases Nlri.new addr prefix_len.toNat with
    | none => rfl
    | some p =>
      ext v
      rw [Option.map_some, Option.toList_some, Journal.replay_cons, Journal.replay_nil,
        Journal.mem_apply]
      cases v with
      | v4 v =>
        show v ∈ (apply_flagged t.v4 p ⟨max_len, asn⟩ flags).vrps ↔ _
        rw [vrps_apply_flagged, Journal.mem_apply]
        simp only [Change.mk.injEq, Payload.v4.injEq, ne_eq]
        rfl
      | v6 v =>
        simp only [Change.mk.injEq, reduceCtorEq, and_false, false_or, ne_eq, not_false_eq_true,
          and_true]
        rfl
  | Ipv6Prefix flags prefix_len max_len addr asn =>
    simp only [apply_prefix_pdu, Pdu.change?]
    cases Nlri.new addr prefix_len.toNat with
    | none => rfl
    | some p =>
      ext v
      rw [Option.map_some, Option.toList_some, Journal.replay_cons, Journal.replay_nil,
        Journal.mem_apply]
      cases v with
      | v6 v =>
        show v ∈ (apply_flagged t.v6 p ⟨max_len, asn⟩ flags).vrps ↔ _
        rw [vrps_apply_flagged, Journal.mem_apply]
        simp only [Change.mk.injEq, Payload.v6.injEq, ne_eq]
        rfl
      | v4 v =>
        simp only [Change.mk.injEq, reduceCtorEq, and_false, false_or, ne_eq, not_false_eq_true,
          and_true]
        rfl
  | _ => rfl

theorem payloads_apply_all :
    (t.apply_all pdus).payloads = Journal.replay t.payloads (pdus.filterMap Pdu.change?) := by
  induction pdus generalizing t with
  | nil => rfl
  | cons pdu pdus ih =>
    show ((t.apply_prefix_pdu pdu).apply_all pdus).payloads = _
    rw [ih, payloads_apply_prefix_pdu]
    cases hchange : pdu.change? with
    | none => rw [List.filterMap_cons_none hchange, Option.toList_none, Journal.replay_nil]
    | some c =>
      rw [List.filterMap_cons_some hchange, Option.toList_some, Journal.replay_cons,
        Journal.replay_cons, Journal.replay_nil]

theorem mem_payloads_iff_live (v : Payload) :
    v ∈ ((new : RoaTable M).apply_all pdus).payloads ↔ Live pdus v := by
  rw [payloads_apply_all, payloads_new, Journal.mem_replay_empty]
  rfl

end

/-- **Origin validation is that of RFC 6811.** After any sequence of PDUs, in both families and
for every route, the table answers by the payloads that were announced and not withdrawn since. -/
theorem origin_validation (pdus : List Pdu) :
    (∀ ip len origin_asn, Rfc6811 {v | Live pdus (.v4 v)} ip len origin_asn
        (((new : RoaTable M).apply_all pdus).validate_v4 ip len origin_asn)) ∧
      ∀ ip len origin_asn, Rfc6811 {v | Live pdus (.v6 v)} ip len origin_asn
        (((new : RoaTable M).apply_all pdus).validate_v6 ip len origin_asn) := by
  have h4 : ((new : RoaTable M).apply_all pdus).v4.vrps = {v | Live pdus (.v4 v)} := by
    ext v
    exact mem_payloads_iff_live pdus (.v4 v)
  have h6 : ((new : RoaTable M).apply_all pdus).v6.vrps = {v | Live pdus (.v6 v)} := by
    ext v
    exact mem_payloads_iff_live pdus (.v6 v)
  refine ⟨fun ip len origin_asn => ?_, fun ip len origin_asn => ?_⟩
  · rw [← h4]
    exact FamilyTable.validate_spec _ ip len origin_asn
  · rw [← h6]
    exact FamilyTable.validate_spec _ ip len origin_asn

end RoaTable

end Pathvector.Rpki

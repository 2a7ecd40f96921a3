/-
# Table dumps

`dump_family_v4` and `dump_family_v6` send a peer the whole table: when its session comes
up, and to every established peer when a deferred family is released. Read at one peer, a
dump decides every prefix with a best route, unless the route-reflection check holds it
back, and leaves the rest of the Adj-RIB-Out as it is.
-/
import Pathvector.Outbound.Views

set_option autoImplicit false

namespace Pathvector

namespace DaemonState

variable (s : DaemonState) (q : IpAddr) {r : IpAddr}

/-! ## One peer -/

/-- What an IPv4 dump makes of a peer's Adj-RIB-Out and channel. -/
def dump_line_v4 (l : Option (AdjRibOut Ipv4Addr) × Option UpdateSender) :
    Option (AdjRibOut Ipv4Addr) × Option UpdateSender :=
  match s.rib.peer_types.lookup q, s.negotiated_max_len.lookup q, l.2,
    s.export_policies.lookup q, l.1 with
  | some peer_type, some max_len, some tx, some export_policy, some out =>
    let r := decide_all (s.checked_v4 q export_policy false) s.best_prefixes_v4 out
    let f := flush_updates r.2 max_len tx peer_type (decide (q ∈ s.four_byte_peers))
    (some r.1, some (if f.1 then send_eor_ipv4 f.2 else f).2)
  | _, _, _, _, _ => l

theorem line_dump_v4_self : (s.dump_family_v4 q).line_v4 q = s.dump_line_v4 q (s.line_v4 q) := by
  unfold dump_family_v4 dump_line_v4 line_v4
  rcases s.rib.peer_types.lookup q with _ | pt
  · rfl
  rcases s.negotiated_max_len.lookup q with _ | ml
  · rfl
  rcases htx : s.update_senders.lookup q with _ | tx
  · simp only [htx]
  rcases s.export_policies.lookup q with _ | policy
  · simp only [htx]
  rcases hout : s.adj_ribs_out.lookup q with _ | out
  · simp only [htx, hout]
  simp only [after_flush, AList.lookup_insert]

theorem line_dump_v4_of_ne {q : IpAddr} (hq : q ≠ r) :
    (s.dump_family_v4 r).line_v4 q = s.line_v4 q := by
  unfold dump_family_v4
  split
  · simp only [line_v4, after_flush, AList.lookup_insert_ne hq]
  · rfl

def dump_line_v6 (l : Option (AdjRibOut Ipv6Addr) × Option UpdateSender) :
    Option (AdjRibOut Ipv6Addr) × Option UpdateSender :=
  match s.rib.peer_types.lookup q, s.negotiated_max_len.lookup q, l.2 with
  | some peer_type, some max_len, some tx =>
    if q ∈ s.ipv6_capable_peers then
      if s.best_prefixes_v6.isEmpty then (l.1, some (send_eor_ipv6 tx).2)
      else
        match s.export_policies_v6.lookup q, l.1 with
        | some export_policy, some out =>
          let r := decide_all (s.checked_v6 q export_policy false) s.best_prefixes_v6 out
          let f := flush_updates_v6 r.2 max_len tx peer_type (decide (q ∈ s.four_byte_peers))
          (some r.1, some (if f.1 then send_eor_ipv6 f.2 else f).2)
        | _, _ => l
    else l
  | _, _, _ => l

theorem line_dump_v6_self : (s.dump_family_v6 q).line_v6 q = s.dump_line_v6 q (s.line_v6 q) := by
  unfold dump_family_v6 dump_line_v6 line_v6
  rcases s.rib.peer_types.lookup q with _ | pt
  · rfl
  rcases s.negotiated_max_len.lookup q with _ | ml
  · rfl
  rcases htx : s.update_senders.lookup q with _ | tx
  · simp only [htx]
  by_cases hcap : q ∈ s.ipv6_capable_peers
  · simp only [if_pos hcap]
    by_cases hnil : s.best_prefixes_v6.isEmpty = true
    · simp only [if_pos hnil, after_flush, AList.lookup_insert]
    · simp only [if_neg hnil]
      rcases s.export_policies_v6.lookup q with _ | policy
      · simp only [htx]
      rcases hout : s.adj_ribs_out_v6.lookup q with _ | out
      · simp only [htx, hout]
      simp only [after_flush, AList.lookup_insert]
  · simp only [if_neg hcap, htx]

theorem line_dump_v6_of_ne {q : IpAddr} (hq : q ≠ r) :
    (s.dump_family_v6 r).line_v6 q = s.line_v6 q := by
  unfold dump_family_v6
  split
  · split
    · split
      · simp only [line_v6, after_flush, AList.lookup_insert_ne hq]
      · split
        · simp only [line_v6, after_flush, AList.lookup_insert_ne hq]
        · rfl
    · rfl
  · rfl

/-- A dump has all it needs to speak to a peer. -/
def Dumped_v4 : Prop :=
  q ∈ s.rib.peer_types ∧ q ∈ s.negotiated_max_len ∧ q ∈ s.update_senders
    ∧ q ∈ s.export_policies
deriving Decidable

def Dumped_v6 : Prop :=
  q ∈ s.rib.peer_types ∧ q ∈ s.negotiated_max_len ∧ q ∈ s.update_senders
    ∧ q ∈ s.ipv6_capable_peers ∧ q ∈ s.export_policies_v6
deriving Decidable

/-- A prefix is decided by an IPv4 dump to a peer. -/
def InDump_v4 (n : Nlri Ipv4Addr) : Prop :=
  s.Dumped_v4 q ∧ n ∈ s.best_prefixes_v4 ∧ s.rr_suppressed q (s.rib.loc_rib.best_peer n) = false
deriving Decidable

def InDump_v6 (n : Nlri Ipv6Addr) : Prop :=
  s.Dumped_v6 q ∧ n ∈ s.best_prefixes_v6
    ∧ s.rr_suppressed q (s.rib.loc_rib_v6.best_peer n) = false
deriving Decidable

/-- **What an IPv4 dump leaves of a peer's Adj-RIB-Out.** -/
theorem dump_line_v4_spec :
    (s.dump_line_v4 q (s.line_v4 q)).1.map AdjRibOut.session = s.session_v4 q ∧
      ∀ n, (s.dump_line_v4 q (s.line_v4 q)).1.bind (·.get n)
        = if s.InDump_v4 q n then s.export_v4 q n else s.adj_out_v4 q n := by
  unfold dump_line_v4 line_v4 session_v4 adj_out_v4 InDump_v4 Dumped_v4 export_v4 export_of_v4
    session_v4
  simp only [← AList.lookup_isSome]
  rcases s.rib.peer_types.lookup q with _ | pt
  · simp
  rcases s.negotiated_max_len.lookup q with _ | ml
  · simp
  rcases s.update_senders.lookup q with _ | tx
  · simp
  rcases s.export_policies.lookup q with _ | policy
  · simp
  rcases s.adj_ribs_out.lookup q with _ | out
  · simp
  obtain ⟨hsess, hget⟩ := s.decide_all_checked_v4 q false policy s.best_prefixes_v4 out
  refine ⟨congrArg some hsess, fun n => ?_⟩
  simp only [Option.bind_some, hget, Option.isSome_some, Option.map_some, true_and, Bool.false_or]

theorem dump_line_v6_spec :
    (s.dump_line_v6 q (s.line_v6 q)).1.map AdjRibOut.session = s.session_v6 q ∧
      ∀ n, (s.dump_line_v6 q (s.line_v6 q)).1.bind (·.get n)
        = if s.InDump_v6 q n then s.export_v6 q n else s.adj_out_v6 q n := by
  by_cases hcap : q ∈ s.ipv6_capable_peers
  · unfold dump_line_v6 line_v6 session_v6 adj_out_v6 InDump_v6 Dumped_v6 export_v6 export_of_v6
      session_v6
    simp only [if_pos hcap]
    simp only [← AList.lookup_isSome] at hcap ⊢
    rcases s.rib.peer_types.lookup q with _ | pt
    · simp
    rcases s.negotiated_max_len.lookup q with _ | ml
    · simp
    rcases s.update_senders.lookup q with _ | tx
    · simp
    by_cases hnil : s.best_prefixes_v6.isEmpty = true
    · rw [List.isEmpty_iff] at hnil
      simp [hnil]
    · simp only [if_neg hnil]
      rcases s.export_policies_v6.lookup q with _ | policy
      · simp
      rcases s.adj_ribs_out_v6.lookup q with _ | out
      · simp
      obtain ⟨hsess, hget⟩ := s.decide_all_checked_v6 q false policy s.best_prefixes_v6 out
      refine ⟨congrArg some hsess, fun n => ?_⟩
      simp only [Option.bind_some, hget, Option.isSome_some, Option.map_some, true_and,
        Bool.false_or, hcap]
  · -- a peer without IPv6 gets no dump
    have hline : s.dump_line_v6 q (s.line_v6 q) = s.line_v6 q := by
      unfold dump_line_v6
      simp only [if_neg hcap]
      split <;> rfl
    rw [hline]
    refine ⟨rfl, fun n => ?_⟩
    rw [if_neg fun h => hcap h.1.2.2.2.1]
    rfl

/-! ## Every established peer -/

theorem line_dump_all_v4 :
    (s.rib.peer_types.keys.foldl dump_family_v4 s).line_v4 q = if q ∈ s.rib.peer_types
      then s.dump_line_v4 q (s.line_v4 q) else s.line_v4 q := by
  have h := List.foldl_pointwise line_v4 dump_family_v4 s.dump_line_v4 (DirectFrame s)
    (fun s' r hs => hs.trans (dump_family_v4_frame s' r)) ?_ ?_
    s.rib.peer_types.keys s.rib.peer_types.keys_nodup s (.refl s) q
  · simpa only [AList.mem_keys] using h
  · rintro s' r ⟨_, _, _, _, rfl⟩
    rw [line_dump_v4_self]
    rfl
  · intro s' r q' _ hne
    exact line_dump_v4_of_ne s' hne

theorem line_dump_all_v6 :
    (s.rib.peer_types.keys.foldl dump_family_v6 s).line_v6 q = if q ∈ s.rib.peer_types
      then s.dump_line_v6 q (s.line_v6 q) else s.line_v6 q := by
  have h := List.foldl_pointwise line_v6 dump_family_v6 s.dump_line_v6 (DirectFrame s)
    (fun s' r hs => hs.trans (dump_family_v6_frame s' r)) ?_ ?_
    s.rib.peer_types.keys s.rib.peer_types.keys_nodup s (.refl s) q
  · simpa only [AList.mem_keys] using h
  · rintro s' r ⟨_, _, _, _, rfl⟩
    rw [line_dump_v6_self]
    rfl
  · intro s' r q' _ hne
    exact line_dump_v6_of_ne s' hne

/-! ## A release -/

theorem dump_family_v4_out_v6 : (s.dump_family_v4 q).adj_ribs_out_v6 = s.adj_ribs_out_v6 := by
  unfold dump_family_v4
  split <;> rfl

theorem dump_family_v6_out_v4 : (s.dump_family_v6 q).adj_ribs_out = s.adj_ribs_out := by
  unfold dump_family_v6
  split
  · split
    · split
      · rfl
      · split <;> rfl
    · rfl
  · rfl

theorem dump_line_v4_tx (l : Option (AdjRibOut Ipv4Addr) × Option UpdateSender) :
    (s.dump_line_v4 q l).2.isSome = l.2.isSome := by
  unfold dump_line_v4
  split
  · rename_i htx _ _
    rw [htx]
    rfl
  · rfl

theorem dump_all_v4_frame (l : List IpAddr) :
    (l.foldl dump_family_v4 s).adj_ribs_out_v6 = s.adj_ribs_out_v6 ∧
      ∀ q, q ∈ (l.foldl dump_family_v4 s).update_senders ↔ q ∈ s.update_senders := by
  refine List.foldl_invariant dump_family_v4 (fun s' => s'.adj_ribs_out_v6 = s.adj_ribs_out_v6 ∧
    ∀ q, q ∈ s'.update_senders ↔ q ∈ s.update_senders) l s ⟨rfl, fun _ => Iff.rfl⟩ ?_
  rintro s' r _ ⟨hout, htx⟩
  refine ⟨(dump_family_v4_out_v6 s' r).trans hout, fun q => Iff.trans ?_ (htx q)⟩
  rw [← AList.lookup_isSome, ← AList.lookup_isSome]
  by_cases hq : q = r
  · subst hq
    rw [show (s'.dump_family_v4 q).update_senders.lookup q = _ from
      congrArg Prod.snd (line_dump_v4_self s' q), dump_line_v4_tx]
    exact Iff.rfl
  · rw [show (s'.dump_family_v4 r).update_senders.lookup q = _ from
      congrArg Prod.snd (line_dump_v4_of_ne s' hq)]
    exact Iff.rfl

theorem dump_all_v4_spec :
    (s.rib.peer_types.keys.foldl dump_family_v4 s).session_v4 q = s.session_v4 q ∧
      ∀ n, (s.rib.peer_types.keys.foldl dump_family_v4 s).adj_out_v4 q n
        = if s.InDump_v4 q n then s.export_v4 q n else s.adj_out_v4 q n := by
  have hline := congrArg Prod.fst (s.line_dump_all_v4 q)
  by_cases hq : q ∈ s.rib.peer_types
  · rw [if_pos hq] at hline
    obtain ⟨hsess, hget⟩ := s.dump_line_v4_spec q
    rw [← hline] at hsess hget
    exact ⟨hsess, hget⟩
  · rw [if_neg hq] at hline
    refine ⟨congrArg (Option.map AdjRibOut.session) hline, fun n => ?_⟩
    rw [if_neg fun h => hq h.1.1]
    exact congrArg (fun o => o.bind fun out => out.get n) hline

theorem dump_all_v6_spec :
    (s.rib.peer_types.keys.foldl dump_family_v6 s).session_v6 q = s.session_v6 q ∧
      ∀ n, (s.rib.peer_types.keys.foldl dump_family_v6 s).adj_out_v6 q n
        = if s.InDump_v6 q n then s.export_v6 q n else s.adj_out_v6 q n := by
  have hline := congrArg Prod.fst (s.line_dump_all_v6 q)
  by_cases hq : q ∈ s.rib.peer_types
  · rw [if_pos hq] at hline
    obtain ⟨hsess, hget⟩ := s.dump_line_v6_spec q
    rw [← hline] at hsess hget
    exact ⟨hsess, hget⟩
  · rw [if_neg hq] at hline
    refine ⟨congrArg (Option.map AdjRibOut.session) hline, fun n => ?_⟩
    rw [if_neg fun h => hq h.1.1]
    exact congrArg (fun o => o.bind fun out => out.get n) hline

theorem release_v4_spec (v4 : Bool) (q : IpAddr) :
    let t := if v4 then s.rib.peer_types.keys.foldl dump_family_v4 s else s
    DirectFrame s t ∧
      (t.session_v4 q = s.session_v4 q ∧ ∀ n, t.adj_out_v4 q n
          = if v4 = true ∧ s.InDump_v4 q n then s.export_v4 q n else s.adj_out_v4 q n) ∧
      t.session_v6 q = s.session_v6 q ∧ t.adj_out_v6 q = s.adj_out_v6 q ∧
      t.export_v6 q = s.export_v6 q ∧ ∀ n, t.InDump_v6 q n ↔ s.InDump_v6 q n := by
  cases v4 with
  | false => simp [DirectFrame.refl]
  | true =>
    have hframe : DirectFrame s (s.rib.peer_types.keys.foldl dump_family_v4 s) :=
      .foldl dump_family_v4_frame _ s
    obtain ⟨hout, htx⟩ := s.dump_all_v4_frame s.rib.peer_types.keys
    refine ⟨hframe, by simpa using s.dump_all_v4_spec q, ?_⟩
    obtain ⟨_, _, _, _, hf⟩ := hframe
    rw [hf] at hout htx ⊢
    subst hout
    refine ⟨rfl, rfl, rfl, fun n => and_congr ?_ Iff.rfl⟩
    exact and_congr Iff.rfl (and_congr Iff.rfl (and_congr (htx q) Iff.rfl))

/-- **What a release leaves**: a dump of each released family to every established peer. -/
theorem catch_up_spec (v4 v6 : Bool) (q : IpAddr) :
    ((s.catch_up_released_families v4 v6).session_v4 q = s.session_v4 q ∧
      ∀ n, (s.catch_up_released_families v4 v6).adj_out_v4 q n
        = if v4 = true ∧ s.InDump_v4 q n then s.export_v4 q n else s.adj_out_v4 q n) ∧
    ((s.catch_up_released_families v4 v6).session_v6 q = s.session_v6 q ∧
      ∀ n, (s.catch_up_released_families v4 v6).adj_out_v6 q n
        = if v6 = true ∧ s.InDump_v6 q n then s.export_v6 q n else s.adj_out_v6 q n) := by
  obtain ⟨hframe, h4, hsess6, hout6, hexp6, hdump6⟩ := s.release_v4_spec v4 q
  unfold catch_up_released_families
  dsimp only
  have hkeys : s.rib.peer_types.keys
      = (if v4 then s.rib.peer_types.keys.foldl dump_family_v4 s else s).rib.peer_types.keys := by
    obtain ⟨_, _, _, _, hf⟩ := hframe
    rw [hf]
  generalize (if v4 then s.rib.peer_types.keys.foldl dump_family_v4 s else s) = t at *
  cases v6 with
  | false =>
    refine ⟨h4, hsess6, fun n => ?_⟩
    exact congrFun hout6 n
  | true =>
    obtain ⟨hsess, hget⟩ := t.dump_all_v6_spec q
    simp only [if_true, true_and, hkeys]
    have hv4 : (t.rib.peer_types.keys.foldl dump_family_v6 t).adj_ribs_out = t.adj_ribs_out := by
      refine List.foldl_invariant dump_family_v6 (fun t' => t'.adj_ribs_out = t.adj_ribs_out) _ t
        rfl fun t' r _ h => (dump_family_v6_out_v4 t' r).trans h
    refine ⟨?_, hsess.trans hsess6, fun n => ?_⟩
    · unfold session_v4 adj_out_v4
      rw [hv4]
      exact h4
    · rw [hget n, hexp6, hout6]
      simp only [hdump6]

/-- `recompute_selection_deferral` releases IPv4 now. -/
def releases_v4 : Bool :=
  s.selection_deferral.v4_deferred && !s.rib.peer_remote_as.keys.any (s.family_blocks false)

/-- `recompute_selection_deferral` releases IPv6 now. -/
def releases_v6 : Bool :=
  s.selection_deferral.v6_deferred && !s.rib.peer_remote_as.keys.any (s.family_blocks true)

/-- What `recompute_selection_deferral` leaves. -/
structure Recomputed (s u : DaemonState) (q : IpAddr) : Prop where
  rib : u.rib = s.rib
  session_v4 : u.session_v4 q = s.session_v4 q
  session_v6 : u.session_v6 q = s.session_v6 q
  export_v4 : u.export_of_v4 q = s.export_of_v4 q
  export_v6 : u.export_of_v6 q = s.export_of_v6 q
  out_v4 : ∀ n, u.adj_out_v4 q n
    = if s.releases_v4 = true ∧ s.InDump_v4 q n then s.export_v4 q n else s.adj_out_v4 q n
  out_v6 : ∀ n, u.adj_out_v6 q n
    = if s.releases_v6 = true ∧ s.InDump_v6 q n then s.export_v6 q n else s.adj_out_v6 q n

theorem recomputed_recompute : Recomputed s s.recompute_selection_deferral q := by
  have heq : ∃ d, s.recompute_selection_deferral = catch_up_released_families
      { s with selection_deferral := d } s.releases_v4 s.releases_v6 := ⟨_, rfl⟩
  obtain ⟨d, heq⟩ := heq
  have hframe := catch_up_released_families_frame { s with selection_deferral := d }
    s.releases_v4 s.releases_v6
  obtain ⟨⟨hs4, h4⟩, ⟨hs6, h6⟩⟩ := catch_up_spec { s with selection_deferral := d }
    s.releases_v4 s.releases_v6 q
  rw [heq]
  refine ⟨?_, hs4, hs6, hframe.export_of_v4 hs4, hframe.export_of_v6 hs6, h4, h6⟩
  obtain ⟨_, _, _, _, hf⟩ := hframe
  rw [hf]

end DaemonState

end Pathvector

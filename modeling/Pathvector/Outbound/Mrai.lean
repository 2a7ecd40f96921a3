/-
# What the MRAI gate holds back

Towards an external peer an announcement inside the 30 s window of its prefix is not sent: the
gate puts the prefix on a waiting list, and `flush_mrai_pending` decides it again when the window
is over. By then the peer should hear of the route, so that with an empty waiting list the last
message about each prefix carries the route of the Adj-RIB-Out.

But the held-back decision has already been written to the Adj-RIB-Out, so that deciding again
finds nothing to change (`release_says_nothing`). A released prefix reaches the peer only when its
export has moved on since, or when the peer has been told of the entry in another way
(`Releasable`). In runs whose releases are of this kind nothing is lost: `released_announced`.
-/
import Pathvector.Outbound.Order

set_option autoImplicit false

namespace Pathvector

/-! ## The gate, for one prefix -/

namespace MraiState

variable {p : Nlri Ipv4Addr} {d : PrefixDecision Ipv4Addr}

theorem not_due_gate (now : ℕ) (m : MraiState) (h : d.nlri? = some p)
    (hp : p ∈ (gate now m d).1.pending) : elapsed (gate now m d).1.last_sent now p = false := by
  cases d with
  | Announce r =>
    obtain rfl : r.nlri = p := Option.some.inj h
    simp only [gate] at hp ⊢
    split at hp
    · simp [AList.mem_erase] at hp
    · rename_i helapsed
      rw [if_neg helapsed]
      exact Bool.eq_false_iff.2 helapsed
  | Withdraw n =>
    obtain rfl : n = p := Option.some.inj h
    simp [gate, AList.mem_erase] at hp
  | NoChange => simp [PrefixDecision.nlri?] at h

theorem gate_of_elapsed {now : ℕ} {m : MraiState} (h : d.nlri? = some p)
    (helapsed : elapsed m.last_sent now p = true) : (gate now m d).2 = d := by
  cases d with
  | Announce r =>
    obtain rfl : r.nlri = p := Option.some.inj h
    simp [gate, helapsed]
  | Withdraw n => rfl
  | NoChange => rfl

theorem elapsed_congr {last_sent last_sent' : HashMap (Nlri Ipv4Addr) ℕ}
    (h : last_sent'.lookup p = last_sent.lookup p) (now : ℕ) :
    elapsed last_sent' now p = elapsed last_sent now p := by
  unfold elapsed
  rw [h]

end MraiState

namespace Decider

variable {f : Nlri Ipv4Addr → AdjRibOut Ipv4Addr → AdjRibOut Ipv4Addr × PrefixDecision Ipv4Addr}
  {session : OutSession} {skip : Nlri Ipv4Addr → Bool}
  {target : Nlri Ipv4Addr → Option (Route Ipv4Addr)}
variable {out : AdjRibOut Ipv4Addr} {p : Nlri Ipv4Addr} {m : MraiState}

/-- A prefix that waits with its window over can be released: the peer has been told of the
entry, or deciding again changes it. -/
def Releasable (skip : Nlri Ipv4Addr → Bool) (target : Nlri Ipv4Addr → Option (Route Ipv4Addr))
    (now : ℕ) (given : List (PrefixDecision Ipv4Addr)) (out : AdjRibOut Ipv4Addr) (m : MraiState)
    (p : Nlri Ipv4Addr) : Prop :=
  p ∈ m.pending → MraiState.elapsed m.last_sent now p = true →
    told given p = out.get p ∨ skip p = false ∧ out.get p ≠ target p

theorem releasable_gate_all (hf : Decider f session skip target) (now : ℕ)
    (ns : List (Nlri Ipv4Addr)) (hout : out.session = session)
    {given : List (PrefixDecision Ipv4Addr)} (h : Releasable skip target now given out m p) :
    Releasable skip target now (given ++ (MraiState.gate_all now m (decide_all f ns out).2).2)
      (decide_all f ns out).1 (MraiState.gate_all now m (decide_all f ns out).2).1 p := by
  induction ns generalizing out m given with
  | nil => simpa [decide_all, MraiState.gate_all] using h
  | cons n ns ih =>
    have hd := hf n out hout
    have hnext : Releasable skip target now
        (given ++ [(MraiState.gate now m (f n out).2).2]) (f n out).1
        (MraiState.gate now m (f n out).2).1 p := by
      intro hp helapsed
      by_cases hdp : (f n out).2.nlri? = some p
      · -- sent, or put on the list with its window open
        rw [MraiState.not_due_gate now m hdp hp] at helapsed
        exact absurd helapsed Bool.false_ne_true
      · obtain ⟨hne, hmem, hlast⟩ := MraiState.gate_of_ne now m hdp
        rw [MraiState.elapsed_congr hlast] at helapsed
        rw [told_snoc, if_neg hne, hd.get_eq p, if_neg hdp]
        exact h (hmem.1 hp) helapsed
    have hrest := ih (hd.sets.session.trans hout) hnext
    rw [List.append_assoc] at hrest
    exact hrest

/-- **A release.** Deciding again about a prefix whose window is over tells the peer of the new
entry, if it is one. -/
theorem told_release (hf : Decider f session skip target) (now : ℕ) {ns : List (Nlri Ipv4Addr)}
    (hout : out.session = session) (given : List (PrefixDecision Ipv4Addr)) (hp : p ∈ ns)
    (hskip : skip p = false) (hne : out.get p ≠ target p)
    (helapsed : MraiState.elapsed m.last_sent now p = true) :
    told (given ++ (MraiState.gate_all now m (decide_all f ns out).2).2) p
        = (decide_all f ns out).1.get p ∨
      p ∈ (MraiState.gate_all now m (decide_all f ns out).2).1.pending := by
  induction ns generalizing out m given with
  | nil => exact absurd hp List.not_mem_nil
  | cons n ns ih =>
    have hd := hf n out hout
    have hsess := hd.sets.session.trans hout
    have hsplit : given ++ (MraiState.gate_all now m (decide_all f (n :: ns) out).2).2
        = given ++ [(MraiState.gate now m (f n out).2).2]
          ++ (MraiState.gate_all now (MraiState.gate now m (f n out).2).1
            (decide_all f ns (f n out).1).2).2 := by
      rw [List.append_assoc]
      rfl
    rw [hsplit]
    by_cases hpn : p = n
    · subst hpn
      have hdp : (f p out).2.nlri? = some p := by
        rw [hd.nlri_eq_iff, hskip]
        exact ⟨rfl, hne⟩
      refine hf.told_gate_all now ns hsess (.inl ?_)
      rw [MraiState.gate_of_elapsed hdp helapsed, told_snoc, hd.get_eq p, if_pos hdp, if_pos hdp]
    · have hdp : (f n out).2.nlri? ≠ some p := by
        rw [ne_eq, hd.nlri_eq_iff]
        exact fun h => hpn h.1
      obtain ⟨-, -, hlast⟩ := MraiState.gate_of_ne now m hdp
      refine ih hsess _ ((List.mem_cons.1 hp).resolve_left hpn) ?_ ?_
      · rw [hd.get_eq p, if_neg hdp]
        exact hne
      · rw [MraiState.elapsed_congr hlast]
        exact helapsed

end Decider

theorem edits_decision_edits {V : Type} (wire : Route Ipv4Addr → V)
    (ds : List (PrefixDecision Ipv4Addr)) (p : Nlri Ipv4Addr) :
    Table.edits (fun _ => none) (decision_edits wire ds) p = (told ds p).map wire := by
  rw [Table.edits_apply, lastEdit_decision_edits, last_decision_eq]
  unfold told
  cases (about p ds).getLast? with
  | none => rfl
  | some d => cases d <;> rfl

/-! ## A release, read at one ledger -/

namespace DaemonState

variable {s t : DaemonState} {q r : IpAddr} {clk : Clock}

/-- What has been put on a peer's channel, and what waits to be. -/
def given (s : DaemonState) (q : IpAddr) : List (PrefixDecision Ipv4Addr) :=
  (s.ledger q).handed ++ (s.ledger q).waiting

/-- The prefixes that `flush_mrai_pending` would release for a peer can be released. -/
def Releasable (s : DaemonState) (clk : Clock) (q : IpAddr) : Prop :=
  ∀ p ∈ (s.mrai q).pending.keys, MraiState.elapsed (s.mrai q).last_sent clk.instant p = true →
    told (s.given q) p = s.adj_out_v4 q p ∨
      s.Decided_v4 q p ∧ s.adj_out_v4 q p ≠ s.export_v4 q p
deriving Decidable

/-- An established external peer with a channel. -/
structure Gated (s : DaemonState) (q : IpAddr) : Prop where
  established : q ∈ s.rib.peer_types
  peer_type : s.peer_type q = .External
  channel : q ∈ s.update_senders

instance (s : DaemonState) (q : IpAddr) : Decidable (s.Gated q) :=
  decidable_of_iff
    (q ∈ s.rib.peer_types ∧ s.peer_type q = .External ∧ q ∈ s.update_senders)
    ⟨fun ⟨h1, h2, h3⟩ => ⟨h1, h2, h3⟩, fun h => ⟨h.1, h.2, h.3⟩⟩

theorem storesVerbatim_of_external (h : s.peer_type q = .External) : s.StoresVerbatim q :=
  fun _ _ => .inl h

/-- A peer hears what the daemon has decided: what it has been told and what waits for it add up
to its Adj-RIB-Out, but for the prefixes the gate holds back, and the messages on its channel say
what it has been told. -/
structure Accounted (s : DaemonState) (q : IpAddr) : Prop where
  heard : ∀ p, (s.ledger q).Heard .External p
  faithful : (s.ledger q).Faithful .External (decide (q ∈ s.four_byte_peers))

theorem Accounted.advance (hs : s.Accounted q) (h : Advance s t q)
    (hpt : s.peer_type q = .External) : t.Accounted q := by
  constructor
  · intro p
    refine h.keeps (P := fun l => l.Heard .External p) (fun l l' hstep hl => ?_) (hs.heard p)
    rw [hpt] at hstep
    exact hstep.heard hl
  · rw [decide_eq_decide.2 h.four_byte]
    refine h.keeps (fun l l' hstep hl => ?_) hs.faithful
    rw [hpt] at hstep
    exact hstep.faithful hl

theorem Gated.of_advance (hs : s.Gated q) (h : Advance s t q) : t.Gated q := by
  refine ⟨?_, h.peer_type.trans hs.peer_type, h.session.2.2 hs.channel⟩
  rw [← AList.lookup_isSome, h.peer_types, AList.lookup_isSome]
  exact hs.established

theorem decider_propagate (hq : s.Gated q) {policy : Policy Ipv4Addr} {out : AdjRibOut Ipv4Addr}
    (hpol : s.export_policies.lookup q = some policy) (hout : s.adj_ribs_out.lookup q = some out) :
    Decider (s.checked_v4 q policy s.selection_deferral.v4_deferred) out.session
      (fun n => !decide (s.Decided_v4 q n)) (s.export_v4 q) := by
  have hmem : q ∈ s.export_policies := AList.lookup_isSome.1 (hpol ▸ rfl)
  have hskip : (fun n => !decide (s.Decided_v4 q n)) = fun n => s.selection_deferral.v4_deferred
        || s.rr_suppressed q (s.rib.loc_rib.best_peer n) := by
    funext n
    unfold Decided_v4
    simp [hq.established, hmem]
  have htarget : s.export_v4 q
      = fun n => exported (s.prepare_v4 q) s.rpki_v4 policy (s.peer_type q) out.session
        (s.rib.loc_rib.best_entry n) := by
    funext n
    unfold export_v4 export_of_v4 session_v4
    simp only [hpol, hout, Option.map_some]
  rw [hskip, htarget]
  exact decider_checked_v4 (.inl hq.peer_type) policy _

/-- Buffered propagation decides for the same prefixes and towards the same exports as before. -/
theorem decided_propagate (s : DaemonState) (clk : Clock) (nlris : List (Nlri Ipv4Addr))
    (q : IpAddr) :
    (∀ p, (s.propagate_to_all_peers clk nlris).Decided_v4 q p ↔ s.Decided_v4 q p) ∧
      (s.propagate_to_all_peers clk nlris).export_v4 q = s.export_v4 q := by
  have hsess := (s.propagate_to_all_peers_spec clk nlris q).1
  obtain ⟨_, _, _, _, hf⟩ := s.propagate_to_all_peers_frame clk nlris
  constructor
  · intro p
    rw [hf]
    exact Iff.rfl
  · funext p
    unfold export_v4 export_of_v4
    rw [hsess, hf]
    rfl

theorem releasable_propagate (hq : s.Gated q) (h : s.Releasable clk q)
    (nlris : List (Nlri Ipv4Addr)) : (s.propagate_to_all_peers clk nlris).Releasable clk q := by
  obtain ⟨hdec, hexp⟩ := s.decided_propagate clk nlris q
  have hledger := s.ledger_propagate clk nlris q
  rw [if_pos hq.established] at hledger
  intro p
  rw [hdec, hexp]
  show p ∈ ((s.propagate_to_all_peers clk nlris).ledger q).mrai.pending.keys →
    MraiState.elapsed ((s.propagate_to_all_peers clk nlris).ledger q).mrai.last_sent _ p = true →
    told (((s.propagate_to_all_peers clk nlris).ledger q).handed
      ++ ((s.propagate_to_all_peers clk nlris).ledger q).waiting) p
      = ((s.propagate_to_all_peers clk nlris).ledger q).entry p ∨
    s.Decided_v4 q p ∧ ((s.propagate_to_all_peers clk nlris).ledger q).entry p ≠ s.export_v4 q p
  rw [hledger]
  unfold propagate_ledger
  split
  · rename_i policy out hpol hout
    have hstart : Decider.Releasable (fun n => !decide (s.Decided_v4 q n)) (s.export_v4 q)
        clk.instant (s.given q) out (s.mrai q) p := by
      intro hp helapsed
      have hp := h p (AList.mem_keys.1 hp) helapsed
      have hentry : s.adj_out_v4 q p = out.get p :=
        congrArg (fun o : Option (AdjRibOut Ipv4Addr) => o.bind (·.get p)) hout
      rw [hentry] at hp
      simpa using hp
    have hend := (decider_propagate hq hpol hout).releasable_gate_all clk.instant nlris rfl hstart
    simp only [hq.peer_type]
    intro hp helapsed
    have hp := hend (AList.mem_keys.2 hp) helapsed
    simp only [Bool.not_eq_false', decide_eq_true_eq] at hp
    show told ((s.ledger q).handed ++ ((s.ledger q).waiting ++ _)) p = _ ∨ _
    rw [← List.append_assoc]
    exact hp
  · exact h p

/-- Taking a prefix off the waiting list, to decide it again. -/
def hold (s : DaemonState) (q : IpAddr) (pending : HashSet (Nlri Ipv4Addr)) : DaemonState :=
  { s with mrai_pending := s.mrai_pending.insert q pending }

theorem ledger_hold_self (s : DaemonState) (q : IpAddr) (pending : HashSet (Nlri Ipv4Addr)) :
    (s.hold q pending).ledger q = { s.ledger q with mrai := ⟨(s.mrai q).last_sent, pending⟩ } := by
  unfold ledger hold mrai
  simp only [AList.lookup_insert, Option.getD_some]

theorem ledger_hold_of_ne (s : DaemonState) (hq : q ≠ r) (pending : HashSet (Nlri Ipv4Addr)) :
    (s.hold r pending).ledger q = s.ledger q := by
  unfold ledger hold mrai
  simp only [AList.lookup_insert_ne hq]

/-- One peer's turn in `flush_mrai_pending`. -/
theorem flush_mrai_step_cases (clk : Clock) (s : DaemonState) (r : IpAddr) :
    flush_mrai_step clk s r = s ∨
      ∃ pending ready,
        flush_mrai_step clk s r = (s.hold r pending).propagate_to_all_peers clk ready ∧
        (∀ p, p ∈ pending ↔ p ∈ (s.mrai r).pending ∧
          MraiState.elapsed (s.mrai r).last_sent clk.instant p = false) ∧
        ∀ p, p ∈ ready ↔ p ∈ (s.mrai r).pending ∧
          MraiState.elapsed (s.mrai r).last_sent clk.instant p = true := by
  unfold flush_mrai_step
  rcases hpend : s.mrai_pending.lookup r with _ | waiting
  · exact .inl rfl
  · have hmrai : (s.mrai r).pending = waiting := by
      unfold mrai
      rw [hpend]
      rfl
    dsimp only
    split
    · exact .inl rfl
    · refine .inr ⟨_, _, rfl, fun p => ?_, fun p => ?_⟩
      · rw [HashSet.mem_ofList, List.mem_filter, hmrai, AList.mem_keys, Bool.not_eq_true']
        rfl
      · rw [List.mem_filter, hmrai, AList.mem_keys]
        rfl

/-- What is followed through the turns of `flush_mrai_pending`. -/
structure Releasing (s : DaemonState) (clk : Clock) (q : IpAddr) : Prop where
  gated : s.Gated q
  accounted : s.Accounted q
  releasable : s.Releasable clk q

theorem Releasing.propagate (h : s.Releasing clk q) (nlris : List (Nlri Ipv4Addr)) :
    (s.propagate_to_all_peers clk nlris).Releasing clk q := by
  have hadv := advance_propagate (storesVerbatim_of_external h.gated.peer_type) clk nlris
  exact ⟨h.gated.of_advance hadv, h.accounted.advance hadv h.gated.peer_type,
    releasable_propagate h.gated h.releasable nlris⟩

theorem Releasing.hold_of_ne (h : s.Releasing clk q) (hq : q ≠ r)
    (pending : HashSet (Nlri Ipv4Addr)) : (s.hold r pending).Releasing clk q := by
  have hledger := s.ledger_hold_of_ne hq pending
  refine ⟨⟨h.gated.established, h.gated.peer_type, h.gated.channel⟩, ⟨?_, ?_⟩, ?_⟩
  · rw [hledger]
    exact h.accounted.heard
  · exact h.accounted.faithful
  · have hmrai : (s.hold r pending).mrai q = s.mrai q := congrArg Ledger.mrai hledger
    unfold Releasable given
    rw [hmrai, hledger]
    exact h.releasable

/-- A prefix that is decided again has its window over, and its export is not in the
Adj-RIB-Out. -/
theorem heard_decided (hq : s.Gated q) {nlris : List (Nlri Ipv4Addr)} {p : Nlri Ipv4Addr}
    (hp : p ∈ nlris) (hdec : s.Decided_v4 q p) (hne : s.adj_out_v4 q p ≠ s.export_v4 q p)
    (helapsed : MraiState.elapsed (s.mrai q).last_sent clk.instant p = true) :
    ((s.propagate_to_all_peers clk nlris).ledger q).Heard .External p := by
  obtain ⟨policy, hpol⟩ := Option.isSome_iff_exists.1 (AList.lookup_isSome.2 hdec.2.1)
  rcases hout : s.adj_ribs_out.lookup q with _ | out
  · -- without an Adj-RIB-Out there is nothing to export to
    refine absurd ?_ hne
    unfold adj_out_v4 export_v4 export_of_v4 session_v4
    simp [hpol, hout]
  · have hentry : s.adj_out_v4 q p = out.get p :=
      congrArg (fun o : Option (AdjRibOut Ipv4Addr) => o.bind (·.get p)) hout
    rw [hentry] at hne
    have htold := (decider_propagate hq hpol hout).told_release clk.instant rfl (s.given q) hp
      (by simpa using hdec) hne helapsed
    have hledger := s.ledger_propagate clk nlris q
    rw [if_pos hq.established] at hledger
    rw [hledger]
    have hlout : (s.ledger q).out = some out := hout
    unfold propagate_ledger Ledger.Heard Ledger.buffered Ledger.entry
    simp only [hpol, hlout, hq.peer_type, if_true, true_and, Option.bind_some]
    show told ((s.ledger q).handed ++ ((s.ledger q).waiting ++ _)) p = _ ∨ _
    rw [← List.append_assoc]
    exact htold

theorem Releasing.hold_self (h : s.Releasing clk q) {pending : HashSet (Nlri Ipv4Addr)}
    {ready : List (Nlri Ipv4Addr)}
    (hpending : ∀ p, p ∈ pending ↔ p ∈ (s.mrai q).pending ∧
      MraiState.elapsed (s.mrai q).last_sent clk.instant p = false)
    (hready : ∀ p, p ∈ ready ↔ p ∈ (s.mrai q).pending ∧
      MraiState.elapsed (s.mrai q).last_sent clk.instant p = true) :
    ((s.hold q pending).propagate_to_all_peers clk ready).Releasing clk q := by
  have hledger := s.ledger_hold_self q pending
  have hmrai : (s.hold q pending).mrai q = ⟨(s.mrai q).last_sent, pending⟩ :=
    congrArg Ledger.mrai hledger
  have hgated : (s.hold q pending).Gated q :=
    ⟨h.gated.established, h.gated.peer_type, h.gated.channel⟩
  have hadv := advance_propagate (storesVerbatim_of_external hgated.peer_type) clk ready
  refine ⟨hgated.of_advance hadv, ⟨fun p => ?_, ?_⟩, releasable_propagate hgated ?_ ready⟩
  · -- a prefix that stays on the list, or of which the peer knows, is heard before and after
    have hkeep : ((s.hold q pending).ledger q).Heard .External p →
        (((s.hold q pending).propagate_to_all_peers clk ready).ledger q).Heard .External p := by
      refine hadv.keeps (P := fun l => l.Heard .External p) fun l l' hstep hl => ?_
      rw [hgated.peer_type] at hstep
      exact hstep.heard hl
    have htold : told (s.given q) p = s.adj_out_v4 q p →
        ((s.hold q pending).ledger q).Heard .External p := by
      intro htold
      exact .inl htold
    by_cases helapsed : MraiState.elapsed (s.mrai q).last_sent clk.instant p = true
    · by_cases hp : p ∈ (s.mrai q).pending
      · rcases h.releasable p (AList.mem_keys.1 hp) helapsed with hsame | ⟨hdec, hne⟩
        · exact hkeep (htold hsame)
        · refine heard_decided hgated ((hready p).2 ⟨hp, helapsed⟩) hdec hne ?_
          exact helapsed
      · exact hkeep (htold ((h.accounted.heard p).resolve_right fun hr => hp hr.2))
    · rcases h.accounted.heard p with hsame | ⟨-, hp⟩
      · exact hkeep (htold hsame)
      · apply hkeep
        rw [hledger]
        exact .inr ⟨rfl, (hpending p).2 ⟨hp, Bool.eq_false_iff.2 helapsed⟩⟩
  · rw [decide_eq_decide.2 hadv.four_byte]
    refine hadv.keeps (fun l l' hstep hl => ?_) ?_
    · rw [hgated.peer_type] at hstep
      exact hstep.faithful hl
    · exact h.accounted.faithful
  · -- no prefix with its window over is left on the list
    intro p hp helapsed
    rw [hmrai] at hp helapsed
    obtain ⟨-, hnot⟩ := (hpending p).1 (AList.mem_keys.2 hp)
    rw [hnot] at helapsed
    exact absurd helapsed Bool.false_ne_true

/-- **`flush_mrai_pending` loses nothing** when what it releases can be released. -/
theorem accounted_flush_mrai_pending (hq : s.Gated q) (hs : s.Accounted q)
    (h : s.Releasable clk q) : (s.flush_mrai_pending clk).Accounted q := by
  have hrun : (s.flush_mrai_pending clk).Releasing clk q := by
    refine List.foldl_invariant (flush_mrai_step clk) (fun t => t.Releasing clk q) _ s
      ⟨hq, hs, h⟩ ?_
    intro t r _ ht
    rcases flush_mrai_step_cases clk t r with heq | ⟨pending, ready, heq, hpending, hready⟩
    · rw [heq]
      exact ht
    · rw [heq]
      by_cases hr : q = r
      · subst hr
        exact ht.hold_self hpending hready
      · exact (ht.hold_of_ne hr pending).propagate ready
  exact hrun.accounted

/-! ## Runs -/

theorem accounted_of_blank (h : Blank (s.ledger q)) : s.Accounted q := by
  constructor
  · intro p
    left
    rw [told_append, if_pos (h.waiting p), h.handed]
    exact (h.entry p).symm
  · intro _ tx htx
    have hhanded := h.handed
    simp only [Ledger.handed, htx, Option.elim_some] at hhanded
    rw [h.sent tx htx, hhanded]
    rfl

theorem accounted_session_step {e : Clock × IpAddr × SessionEvent}
    (hok : s.Undisturbed q e.2.1 e.2.2) (hs : s.Gated q → s.Accounted q)
    (hq : (s.session_step e).Gated q) : (s.session_step e).Accounted q := by
  rcases s.session_step_cases e hok hq.established with
    ⟨s0, hblank, -, hadv⟩ | ⟨hmem, hsame, hadv⟩
  · refine (accounted_of_blank hblank).advance hadv ?_
    rw [← hadv.peer_type]
    exact hq.peer_type
  · have hpt : s.peer_type q = .External := hsame.symm.trans hq.peer_type
    have hadv := hadv (storesVerbatim_of_external hpt)
    exact (hs ⟨hmem, hpt, hadv.session.2.1 hq.channel⟩).advance hadv hpt

theorem accounted_flush_pending (hs : s.Accounted q) (hpt : s.peer_type q = .External)
    (hch : q ∈ s.update_senders)
    (hw : OrderSafe (wire .External (decide (q ∈ s.four_byte_peers))) (s.ledger q).waiting) :
    s.flush_pending.Accounted q := by
  obtain ⟨ms, hms, hledger⟩ := s.ledger_flush_pending q
  obtain ⟨_, _, _, _, hf⟩ := s.flush_pending_frame
  have hfour : s.flush_pending.four_byte_peers = s.four_byte_peers := by rw [hf]
  rw [hpt] at hledger
  constructor
  · intro p
    rw [hledger]
    exact Ledger.heard_flush _ _ _ _ (AList.lookup_isSome.2 hch) (hs.heard p)
  · rw [hledger, hfour]
    exact Ledger.faithful_flush _ _ _ _ hs.faithful hw hms

theorem ledger_channel_drained (s : DaemonState) (ip : IpAddr) (messages : ℕ) (q : IpAddr) :
    (s.step (.ChannelDrained ip messages)).ledger q
      = { s.ledger q with
          tx := (s.ledger q).tx.map fun tx =>
            { tx with room := tx.room + if q = ip then messages else 0 } } := by
  unfold ledger
  simp only [step, HashMap.lookup_modify]
  by_cases hq : q = ip
  · subst hq
    simp only [if_true]
    rfl
  · simp only [if_neg hq, Nat.add_zero, Option.map_id']
    rfl

theorem Accounted.channel_drained (hs : s.Accounted q) (ip : IpAddr) (messages : ℕ) :
    (s.step (.ChannelDrained ip messages)).Accounted q := by
  have hledger := s.ledger_channel_drained ip messages q
  constructor
  · intro p
    rw [hledger]
    refine (hs.heard p).imp_left fun htold => ?_
    show told (_ ++ (s.ledger q).waiting) p = (s.ledger q).entry p
    rw [← htold]
    unfold Ledger.handed
    cases (s.ledger q).tx with
    | none => rfl
    | some tx => rfl
  · rw [hledger]
    intro hst tx' htx'
    obtain ⟨tx, htx, rfl⟩ := Option.map_eq_some_iff.1 htx'
    exact hs.faithful hst tx htx

/-- A step loses nothing of what a peer is to hear. A session event must not decide anew about a
prefix with a decision waiting; the list that is flushed must survive batching; what is released
must be releasable; and a channel that refused a message is not forgiven. Of the other events only
those of the channel itself are considered. -/
def Carries (s : DaemonState) (q : IpAddr) : Event → Prop
  | .Session _ peer_ip event => s.Undisturbed q peer_ip event
  | .FlushPending =>
    OrderSafe (wire (s.peer_type q) (decide (q ∈ s.four_byte_peers))) (s.ledger q).waiting
  | .FlushMraiPending clk => s.Releasable clk q
  | .TakeStalledPeers => q ∉ s.stalled_peers
  | .ChannelDrained _ _ => True
  | _ => False

instance (s : DaemonState) (q : IpAddr) (e : Event) : Decidable (s.Carries q e) := by
  induction e using Event.casesOn <;> dsimp only [Carries] <;> infer_instance

/-- **One step.** -/
theorem accounted_step (s : DaemonState) (e : Event) (hok : s.Carries q e)
    (hs : s.Gated q → s.Accounted q) : (s.step e).Gated q → (s.step e).Accounted q := by
  intro hq
  unfold Carries at hok
  split at hok
  · rename_i clk ip event
    exact accounted_session_step (e := (clk, ip, event)) hok hs hq
  · obtain ⟨hest, hpt, hch⟩ := hq
    simp only [step] at hest hpt hch
    rw [update_senders_flush_pending] at hch
    obtain ⟨_, _, _, _, hf⟩ := s.flush_pending_frame
    rw [hf] at hest hpt
    have hpt : s.peer_type q = .External := hpt
    rw [hpt] at hok
    exact accounted_flush_pending (hs ⟨hest, hpt, hch⟩) hpt hch hok
  · rename_i clk
    obtain ⟨hest, hpt, hch⟩ := hq
    simp only [step] at hest hpt hch
    obtain ⟨_, _, _, _, hf⟩ := s.flush_mrai_pending_frame clk
    rw [hf] at hest hpt hch
    exact accounted_flush_mrai_pending ⟨hest, hpt, hch⟩ (hs ⟨hest, hpt, hch⟩) hok
  · obtain ⟨hheard, hfaithful⟩ := hs ⟨hq.established, hq.peer_type, hq.channel⟩
    refine ⟨hheard, fun _ => hfaithful ?_⟩
    exact decide_eq_false hok
  · rename_i ip messages
    have hledger := s.ledger_channel_drained ip messages q
    have hch : q ∈ s.update_senders := by
      have htx : ((s.step (.ChannelDrained ip messages)).ledger q).tx.isSome = true :=
        AList.lookup_isSome.2 hq.channel
      rw [hledger, Option.isSome_map] at htx
      exact AList.lookup_isSome.1 htx
    exact (hs ⟨hq.established, hq.peer_type, hch⟩).channel_drained ip messages
  · exact hok.elim

/-- What the messages on a peer's channel leave it with. -/
def received (s : DaemonState) (q : IpAddr) : Table (Nlri Ipv4Addr) PathBytes :=
  receive (fun _ => none) ((s.update_senders.lookup q).elim [] UpdateSender.sent)

theorem Accounted.received (hs : s.Accounted q) (hch : q ∈ s.update_senders)
    (hst : q ∉ s.stalled_peers) (hw : (s.ledger q).waiting = []) (hp : (s.mrai q).pending.keys = [])
    (p : Nlri Ipv4Addr) :
    s.received q p = (s.adj_out_v4 q p).map (wire .External (decide (q ∈ s.four_byte_peers))) := by
  obtain ⟨tx, htx⟩ := Option.isSome_iff_exists.1 (AList.lookup_isSome.2 hch)
  have htold : told (s.ledger q).handed p = s.adj_out_v4 q p := by
    have hnot : p ∉ (s.mrai q).pending := by
      rw [AList.mem_keys, hp]
      exact List.not_mem_nil
    have hheard := (hs.heard p).resolve_right fun h => hnot h.2
    rw [hw, List.append_nil] at hheard
    exact hheard
  have hhanded : (s.ledger q).handed = tx.handed.flatten :=
    congrArg (fun o : Option UpdateSender => o.elim [] fun tx => tx.handed.flatten) htx
  have hsent := hs.faithful (decide_eq_false hst) tx htx
  unfold DaemonState.received
  rw [htx, Option.elim_some, hsent, edits_decision_edits, ← hhanded, htold]

/-- A run that ends with `flush_mrai_pending` and `flush_pending`. -/
def run_release (s : DaemonState) (events : List Event) (clk : Clock) : DaemonState :=
  s.run (events ++ [.FlushMraiPending clk, .FlushPending])

/-- **MRAI loses no announcement** in a run whose every step loses nothing: when, after
`flush_mrai_pending` and `flush_pending`, no prefix is held back for an external peer, the last
message about each prefix on its channel carries the route of its Adj-RIB-Out. -/
theorem released_announced (s : DaemonState) (events : List Event) (clk : Clock) (q : IpAddr)
    (hs : q ∉ s.rib.peer_types)
    (hok : Machine.Guarded step (fun s e => s.Carries q e) s
      (events ++ [.FlushMraiPending clk, .FlushPending])) (hq : (s.run_release events clk).Gated q)
    (hst : q ∉ (s.run_release events clk).stalled_peers)
    (hp : ((s.run_release events clk).mrai q).pending.keys = []) (p : Nlri Ipv4Addr) :
    (s.run_release events clk).received q p
      = ((s.run_release events clk).adj_out_v4 q p).map
        (wire .External (decide (q ∈ (s.run_release events clk).four_byte_peers))) := by
  have hstep : ∀ (s : DaemonState) (e : Event), s.Carries q e →
      (s.Gated q → s.Accounted q) → (s.step e).Gated q → (s.step e).Accounted q := accounted_step
  have hrun : (s.run_release events clk).Accounted q :=
    Machine.inv_of_guarded hstep (fun h => absurd h.established hs) hok hq
  refine hrun.received hq.channel hst ?_ hp p
  -- the last step flushes what waits
  have hlast : s.run_release events clk
      = ((s.run events).flush_mrai_pending clk).flush_pending := by
    unfold run_release run
    rw [List.foldl_append]
    rfl
  obtain ⟨ms, -, hledger⟩ := ((s.run events).flush_mrai_pending clk).ledger_flush_pending q
  rw [hlast, hledger, Ledger.waiting_flush]

end DaemonState

/-! ## A route that is never announced -/

def two_external : DaemonState := small_daemon [open_peer 2 65002, open_peer 3 65003] none []

/-- An external peer is told of 10.0.0.0/8, which another one has announced; a second later the
route changes, inside the window. -/
def held_back : List Event :=
  [session_up 2 .External [], session_up 3 .External [],
    update_from 2 0 (announcement [65002] [Nlri.v4 10 0 0 0 8]), .FlushPending,
    update_from 2 1000 (announcement [65002, 65010] [Nlri.v4 10 0 0 0 8]), .FlushPending]

/-- The route changes back inside the window, and is held back again. -/
def flapped : List Event :=
  held_back ++ [update_from 2 2000 (announcement [65002] [Nlri.v4 10 0 0 0 8]), .FlushPending]

/-- The release meets the prefix, and what the peer was told first is the route of its
Adj-RIB-Out again. -/
theorem flapped_announced :
    ((two_external.run flapped).mrai (peer_addr 3)).pending.keys = [Nlri.v4 10 0 0 0 8] ∧
      (two_external.run_release flapped ⟨40000, 0⟩).received (peer_addr 3) (Nlri.v4 10 0 0 0 8)
        = ((two_external.run_release flapped ⟨40000, 0⟩).adj_out_v4 (peer_addr 3)
          (Nlri.v4 10 0 0 0 8)).map (wire .External (decide (peer_addr 3 ∈
            (two_external.run_release flapped ⟨40000, 0⟩).four_byte_peers))) :=
  ⟨by decide +kernel, DaemonState.released_announced two_external flapped ⟨40000, 0⟩
    (peer_addr 3) (by decide +kernel) (by decide +kernel) (by decide +kernel)
    (by decide +kernel) (by decide +kernel) (Nlri.v4 10 0 0 0 8)⟩

/-- Deciding a held-back route again finds it in the Adj-RIB-Out: the peer's last message about
the prefix carries the route before it, and no timer is left. -/
theorem release_says_nothing :
    peer_addr 3 ∉ two_external.rib.peer_types ∧
      (two_external.run_release held_back ⟨40000, 0⟩).Gated (peer_addr 3) ∧
      peer_addr 3 ∉ (two_external.run_release held_back ⟨40000, 0⟩).stalled_peers ∧
      ((two_external.run held_back).mrai (peer_addr 3)).pending.keys = [Nlri.v4 10 0 0 0 8] ∧
      ((two_external.run_release held_back ⟨40000, 0⟩).mrai (peer_addr 3)).pending.keys = [] ∧
      (two_external.run_release held_back ⟨40000, 0⟩).received (peer_addr 3) (Nlri.v4 10 0 0 0 8)
        ≠ ((two_external.run_release held_back ⟨40000, 0⟩).adj_out_v4 (peer_addr 3)
          (Nlri.v4 10 0 0 0 8)).map (wire .External (decide (peer_addr 3 ∈
            (two_external.run_release held_back ⟨40000, 0⟩).four_byte_peers))) := by
  refine ⟨?_, ?_, ?_, ?_, ?_, ?_⟩
  all_goals decide +kernel

end Pathvector

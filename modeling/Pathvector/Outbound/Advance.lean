/-
# Ledgers and the daemon

The loops of the daemon over its peers, read at the ledger of one peer: each of them makes
steps of `Ledger.Step` there, or leaves the ledger alone (`Advance`).
-/
import Pathvector.Outbound.Ledger
import Pathvector.Outbound.Propagation
import Pathvector.Outbound.Release

set_option autoImplicit false

namespace Pathvector

namespace DaemonState

/-- The ledger of a peer. -/
def ledger (s : DaemonState) (q : IpAddr) : Ledger where
  out := s.adj_ribs_out.lookup q
  tx := s.update_senders.lookup q
  waiting := (s.pending_decisions.lookup q).getD []
  mrai := s.mrai q
  stalled := decide (q ∈ s.stalled_peers)

/-- A peer's Adj-RIB-Out stores routes as they are. -/
def StoresVerbatim (s : DaemonState) (q : IpAddr) : Prop :=
  ∀ session, s.session_v4 q = some session → Verbatim (s.peer_type q) session

/-- From `s` to `t` the session of a peer goes on, and its ledger has made steps. -/
structure Advance (s t : DaemonState) (q : IpAddr) : Prop where
  peer_types : t.rib.peer_types.lookup q = s.rib.peer_types.lookup q
  four_byte : q ∈ t.four_byte_peers ↔ q ∈ s.four_byte_peers
  steps : Relation.ReflTransGen
    (Ledger.Step (s.peer_type q) (decide (q ∈ s.four_byte_peers))) (s.ledger q) (t.ledger q)

namespace Advance

variable {s t u : DaemonState} {q : IpAddr}

theorem of_ledger (hpt : t.rib.peer_types.lookup q = s.rib.peer_types.lookup q)
    (hfb : q ∈ t.four_byte_peers ↔ q ∈ s.four_byte_peers) (h : t.ledger q = s.ledger q) :
    Advance s t q :=
  ⟨hpt, hfb, h ▸ .refl⟩

theorem refl (s : DaemonState) (q : IpAddr) : Advance s s q := of_ledger rfl Iff.rfl rfl

theorem peer_type (h : Advance s t q) : t.peer_type q = s.peer_type q := by
  unfold DaemonState.peer_type
  rw [h.peer_types]

theorem trans (h : Advance s t q) (h' : Advance t u q) : Advance s u q := by
  refine ⟨h'.peer_types.trans h.peer_types, h'.four_byte.trans h.four_byte, ?_⟩
  refine h.steps.trans ?_
  have hsteps := h'.steps
  rw [h.peer_type, decide_eq_decide.2 h.four_byte] at hsteps
  exact hsteps

theorem keeps {P : Ledger → Prop} (h : Advance s t q)
    (hstep : ∀ l l', Ledger.Step (s.peer_type q) (decide (q ∈ s.four_byte_peers)) l l' →
      P l → P l') (hs : P (s.ledger q)) : P (t.ledger q) := by
  obtain ⟨-, -, hsteps⟩ := h
  generalize t.ledger q = l at hsteps
  induction hsteps with
  | refl => exact hs
  | tail _ hlast ih => exact hstep _ _ hlast ih

theorem session (h : Advance s t q) :
    t.session_v4 q = s.session_v4 q ∧ (q ∈ t.update_senders ↔ q ∈ s.update_senders) := by
  have hkeep := h.keeps (P := fun l => l.out.map AdjRibOut.session = s.session_v4 q
      ∧ l.tx.isSome = (s.update_senders.lookup q).isSome)
    (fun l l' hstep hl => ⟨hstep.session.1.trans hl.1, hstep.session.2.trans hl.2⟩) ⟨rfl, rfl⟩
  refine ⟨hkeep.1, ?_⟩
  rw [← AList.lookup_isSome, ← AList.lookup_isSome]
  exact Bool.eq_iff_iff.1 hkeep.2

theorem storesVerbatim (h : Advance s t q) (hs : s.StoresVerbatim q) : t.StoresVerbatim q := by
  intro session hsess
  rw [h.session.1] at hsess
  rw [h.peer_type]
  exact hs session hsess

end Advance

/-! ## Writing one peer's channel -/

theorem ledger_after_flush_self (s : DaemonState) (q : IpAddr) (r : Bool × UpdateSender) :
    (s.after_flush q r).ledger q = (s.ledger q).flushed r := by
  obtain ⟨ok, tx⟩ := r
  unfold after_flush ledger Ledger.flushed
  cases ok with
  | true => simp [mrai]
  | false => simp [mrai]

theorem ledger_after_flush_of_ne (s : DaemonState) {q r : IpAddr} (hq : q ≠ r)
    (res : Bool × UpdateSender) : (s.after_flush r res).ledger q = s.ledger q := by
  obtain ⟨ok, tx⟩ := res
  unfold after_flush ledger
  rw [AList.lookup_insert_ne hq]
  cases ok with
  | true => rfl
  | false => simp [mrai, hq]

theorem ledger_set_out_self (s : DaemonState) (q : IpAddr) (out : AdjRibOut Ipv4Addr) :
    ({ s with adj_ribs_out := s.adj_ribs_out.insert q out } : DaemonState).ledger q
      = { s.ledger q with out := some out } := by
  unfold ledger
  rw [AList.lookup_insert]
  rfl

theorem ledger_set_out_of_ne (s : DaemonState) {q r : IpAddr} (hq : q ≠ r)
    (out : AdjRibOut Ipv4Addr) :
    ({ s with adj_ribs_out := s.adj_ribs_out.insert r out } : DaemonState).ledger q
      = s.ledger q := by
  unfold ledger
  rw [AList.lookup_insert_ne hq]
  rfl

/-! ## The direct path -/

/-- What the direct path makes of a ledger. -/
def direct_ledger (s : DaemonState) (nlris : List (Nlri Ipv4Addr)) (next_hop : Ipv4Addr)
    (q : IpAddr) (l : Ledger) : Ledger :=
  match s.export_policies.lookup q, l.out, l.tx with
  | some export_policy, some out, some tx =>
    let r := decide_all
      (s.propagate_v4 q export_policy next_hop s.selection_deferral.v4_deferred) nlris out
    Ledger.flushed (flush_updates r.2 (s.max_len q) tx (s.peer_type q)
      (decide (q ∈ s.four_byte_peers))) { l with out := some r.1 }
  | _, _, _ => l

section

variable (nlris : List (Nlri Ipv4Addr)) (next_hop : DaemonState → IpAddr → Ipv4Addr)
  (s : DaemonState)

theorem ledger_direct_v4_self (q : IpAddr) :
    (direct_v4 nlris next_hop s q).ledger q
      = s.direct_ledger nlris (next_hop s q) q (s.ledger q) := by
  unfold direct_v4 direct_ledger
  rcases hpol : s.export_policies.lookup q with _ | policy
  · rfl
  · rcases hout : s.adj_ribs_out.lookup q with _ | out
    · simp [ledger, hout]
    · rcases htx : s.update_senders.lookup q with _ | tx
      · simp [ledger, hout, htx]
      · have hlout : (s.ledger q).out = some out := hout
        have hltx : (s.ledger q).tx = some tx := htx
        simp only [hlout, hltx]
        rw [ledger_after_flush_self, ledger_set_out_self]
        simp only [hltx]

theorem ledger_direct_v4_of_ne {r q : IpAddr} (hq : q ≠ r) :
    (direct_v4 nlris next_hop s r).ledger q = s.ledger q := by
  unfold direct_v4
  split
  · rw [ledger_after_flush_of_ne _ hq, ledger_set_out_of_ne s hq]
  · rfl

theorem ledger_direct_others_v4 (ip : IpAddr) (nlris : List (Nlri Ipv4Addr)) (q : IpAddr) :
    (s.direct_others_v4 ip nlris).ledger q = if q ∈ s.rib.peer_types ∧ q ≠ ip
      then s.direct_ledger nlris (s.local_next_hop q) q (s.ledger q) else s.ledger q := by
  have h := List.foldl_pointwise ledger (direct_v4 nlris local_next_hop)
    (fun r => s.direct_ledger nlris (s.local_next_hop r) r) (DirectFrame s)
    (fun s' r hs => hs.trans (direct_v4_frame nlris local_next_hop s' r)) ?_ ?_
    (s.other_peers ip) (s.nodup_other_peers ip) s (.refl s) q
  · rw [direct_others_v4, h]
    simp only [mem_other_peers]
  · rintro s' r ⟨_, _, _, _, rfl⟩
    rw [ledger_direct_v4_self]
    rfl
  · intro s' r q' _ hne
    exact ledger_direct_v4_of_ne nlris local_next_hop s' hne

end

section

variable {s : DaemonState} {q : IpAddr} {session : OutSession}
  (h : Verbatim (s.peer_type q) session) (export_policy : Policy Ipv4Addr) (deferred : Bool)
include h

theorem decider_propagate_v4 :
    Decider (s.propagate_v4 q export_policy (s.local_next_hop q) deferred) session
      (fun _ => deferred)
      (fun n => exported (s.prepare_v4 q) s.rpki_v4 export_policy (s.peer_type q) session
        (s.rib.loc_rib.best_entry n)) := by
  rintro n out rfl
  exact s.decidesTo_propagate_v4 q export_policy deferred n h

theorem decider_checked_v4 :
    Decider (s.checked_v4 q export_policy deferred) session
      (fun n => deferred || s.rr_suppressed q (s.rib.loc_rib.best_peer n))
      (fun n => exported (s.prepare_v4 q) s.rpki_v4 export_policy (s.peer_type q) session
        (s.rib.loc_rib.best_entry n)) := by
  rintro n out rfl
  exact s.decidesTo_checked_v4 q export_policy deferred n h

end

/-- The direct loop. A prefix with a decision waiting must not be decided anew: IPv4 is
deferred, or its entry is already the export. -/
theorem advance_direct_others_v4 {s : DaemonState} {q : IpAddr} (hv : s.StoresVerbatim q)
    (ip : IpAddr) {nlris : List (Nlri Ipv4Addr)} (hnlris : nlris.Nodup)
    (hfree : q ≠ ip → ∀ n ∈ nlris, (s.ledger q).Waits n →
      s.selection_deferral.v4_deferred = true ∨ s.export_v4 q n = s.adj_out_v4 q n) :
    Advance s (s.direct_others_v4 ip nlris) q := by
  obtain ⟨_, _, _, _, hf⟩ := s.direct_others_v4_frame ip nlris
  refine ⟨by rw [hf], by rw [hf], ?_⟩
  rw [ledger_direct_others_v4]
  split
  · rename_i hq
    unfold direct_ledger
    split
    · rename_i policy out tx hpol hout htx
      have hsess : s.session_v4 q = some out.session := congrArg (Option.map _) hout
      refine .single (.direct _ hout htx (decider_propagate_v4 (hv _ hsess) policy _) hnlris ?_)
      intro n hn hw
      refine (hfree hq.2 n hn hw).imp_right fun heq => ?_
      unfold export_v4 export_of_v4 adj_out_v4 at heq
      rw [hsess, hpol, show s.adj_ribs_out.lookup q = some out from hout] at heq
      exact heq
    · exact .refl
  · exact .refl

/-! ## IPv6 messages -/

section

variable (nlris : List (Nlri Ipv6Addr)) (s : DaemonState) (r : IpAddr)

theorem edits_mp_unreach_v6 : (mp_unreach_v6 nlris).edits = [] := rfl

theorem edits_update_messages_v6 (ds : List (PrefixDecision Ipv6Addr)) (max_len : ℕ)
    (peer_type : PeerType) (four_byte : Bool) :
    ∀ m ∈ update_messages_v6 ds max_len peer_type four_byte, m.edits = [] := by
  intro m hm
  rcases List.mem_append.1 hm with hm | hm
  · obtain ⟨batch, -, rfl⟩ := List.mem_map.1 hm
    rfl
  · obtain ⟨g, -, rfl⟩ := List.mem_map.1 hm
    rfl

/-- A step for one peer that says nothing about its IPv4 routes, and does not touch the other
peers. -/
structure Aside (s t : DaemonState) (r : IpAddr) : Prop where
  frame : ∃ out_v6 txs stalled,
    t = { s with adj_ribs_out_v6 := out_v6, update_senders := txs, stalled_peers := stalled }
  self : t.ledger r = s.ledger r ∨
    ∃ tx ms, (s.ledger r).tx = some tx ∧ (∀ m ∈ ms, UpdateMessage.edits m = []) ∧
      t.ledger r = (s.ledger r).flushed (tx.send_all ms)
  other : ∀ q, q ≠ r → t.ledger q = s.ledger q

theorem Aside.advance {s t : DaemonState} {r : IpAddr} (h : Aside s t r) (q : IpAddr) :
    Advance s t q := by
  obtain ⟨_, _, _, hf⟩ := h.frame
  by_cases hq : q = r
  · subst hq
    rcases h.self with hl | ⟨tx, ms, htx, hms, hl⟩
    · exact .of_ledger (by rw [hf]) (by rw [hf]) hl
    · refine ⟨by rw [hf], by rw [hf], ?_⟩
      rw [hl]
      exact .single (.aside ms htx hms)
  · exact .of_ledger (by rw [hf]) (by rw [hf]) (h.other q hq)

theorem aside_send (out_v6 : HashMap IpAddr (AdjRibOut Ipv6Addr)) {tx : UpdateSender}
    (htx : s.update_senders.lookup r = some tx) {ms : List UpdateMessage}
    (hms : ∀ m ∈ ms, m.edits = []) :
    Aside s (after_flush { s with adj_ribs_out_v6 := out_v6 } r (tx.send_all ms)) r := by
  refine ⟨⟨_, _, _, rfl⟩, .inr ⟨tx, ms, htx, hms, ?_⟩, ?_⟩
  · rw [ledger_after_flush_self]
    rfl
  · intro q hq
    rw [ledger_after_flush_of_ne _ hq]
    rfl

theorem Aside.refl : Aside s s r :=
  ⟨⟨_, _, _, rfl⟩, .inl rfl, fun _ _ => rfl⟩

theorem aside_direct_v6 : Aside s (direct_v6 nlris s r) r := by
  unfold direct_v6
  split
  · split
    · rename_i policy out tx _ _ htx
      exact aside_send s r _ htx (edits_update_messages_v6 _ _ _ _)
    · exact .refl s r
  · exact .refl s r

theorem advance_direct_others_v6 (ip : IpAddr) (nlris : List (Nlri Ipv6Addr)) (q : IpAddr) :
    Advance s (s.direct_others_v6 ip nlris) q :=
  List.foldl_invariant _ (fun t => Advance s t q) _ s (.refl s q)
    fun t r _ h => h.trans ((aside_direct_v6 nlris t r).advance q)

theorem send_all_append (tx : UpdateSender) (ms ms' : List UpdateMessage) :
    tx.send_all (ms ++ ms')
      = if (tx.send_all ms).1 then (tx.send_all ms).2.send_all ms' else tx.send_all ms := by
  induction ms generalizing tx with
  | nil => rfl
  | cons m ms ih =>
    rw [List.cons_append, UpdateSender.send_all, UpdateSender.send_all]
    split
    · rfl
    · exact ih { tx with room := tx.room - 1, sent := tx.sent ++ [m] }

theorem aside_dump_family_v6 : Aside s (s.dump_family_v6 r) r := by
  have heor : ∀ m ∈ [mp_unreach_v6 []], m.edits = [] := by simp [edits_mp_unreach_v6]
  unfold dump_family_v6
  split
  · rename_i peer_type max_len tx _ _ htx
    split
    · split
      · exact aside_send s r s.adj_ribs_out_v6 htx heor
      · split
        · rename_i policy out _ _
          dsimp only
          -- the table and the End-of-RIB marker are one sequence of messages
          generalize decide_all (s.checked_v6 r policy false) s.best_prefixes_v6 out = d
          have hsend := send_all_append tx
            (update_messages_v6 d.2 max_len peer_type (decide (r ∈ s.four_byte_peers)))
            [mp_unreach_v6 []]
          unfold flush_updates_v6 send_eor_ipv6
          rw [← hsend]
          refine aside_send s r _ htx fun m hm => ?_
          rcases List.mem_append.1 hm with hm | hm
          · exact edits_update_messages_v6 _ _ _ _ m hm
          · exact heor m hm
        · exact .refl s r
    · exact .refl s r
  · exact .refl s r

end

/-! ## Table dumps -/

theorem nodup_best_prefixes_v4 (s : DaemonState) : s.best_prefixes_v4.Nodup :=
  s.rib.loc_rib.nodup_best_routes

theorem ledger_dump_v4_of_ne (s : DaemonState) {q r : IpAddr} (hq : q ≠ r) :
    (s.dump_family_v4 r).ledger q = s.ledger q := by
  unfold dump_family_v4
  split
  · rw [ledger_after_flush_of_ne _ hq, ledger_set_out_of_ne s hq]
  · rfl

/-- The flush of a dump, with the End-of-RIB marker after it if it succeeded. -/
theorem flushed_dump (l : Ledger) (f : Bool × UpdateSender) :
    l.flushed (if f.1 then send_eor_ipv4 f.2 else f)
      = if f.1 then (l.flushed f).flushed (send_eor_ipv4 f.2) else l.flushed f := by
  obtain ⟨ok, tx⟩ := f
  cases ok with
  | true => simp [Ledger.flushed]
  | false => rfl

section

variable {s : DaemonState} {q : IpAddr} (hv : s.StoresVerbatim q)
include hv

/-- A dump to the peer itself. None of its prefixes may have a decision waiting. -/
theorem advance_dump_v4_self (hfree : ∀ n, ¬(s.ledger q).Waits n) :
    Advance s (s.dump_family_v4 q) q := by
  obtain ⟨_, _, _, _, hf⟩ := s.dump_family_v4_frame q
  refine ⟨by rw [hf], by rw [hf], ?_⟩
  unfold dump_family_v4
  split
  · rename_i peer_type max_len tx policy out hpt hml htx hpol hout
    have hsess : s.session_v4 q = some out.session := congrArg (Option.map _) hout
    have htype : s.peer_type q = peer_type := by
      unfold DaemonState.peer_type
      rw [hpt]
      rfl
    rw [ledger_after_flush_self, ledger_set_out_self, flushed_dump, htype]
    have hdirect : Ledger.Step peer_type (decide (q ∈ s.four_byte_peers)) (s.ledger q) _ :=
      .direct max_len hout htx (decider_checked_v4 (hv _ hsess) policy false)
        s.nodup_best_prefixes_v4 fun n _ hw => absurd hw (hfree n)
    split
    · refine (Relation.ReflTransGen.single hdirect).tail (.aside [⟨[], [], []⟩] rfl ?_)
      simp [UpdateMessage.edits]
    · exact .single hdirect
  · exact .refl

theorem advance_dump_all_v4 (hfree : ∀ n, ¬(s.ledger q).Waits n) (peers : List IpAddr) :
    Advance s (peers.foldl dump_family_v4 s) q := by
  refine (List.foldl_invariant dump_family_v4
    (fun t => Advance s t q ∧ t.pending_decisions = s.pending_decisions) peers s
    ⟨.refl s q, rfl⟩ ?_).1
  rintro t r - ⟨hadv, hwait⟩
  obtain ⟨_, _, _, _, hf⟩ := t.dump_family_v4_frame r
  refine ⟨hadv.trans ?_, by rw [hf]; exact hwait⟩
  by_cases hr : q = r
  · subst hr
    apply advance_dump_v4_self (hadv.storesVerbatim hv)
    intro n hw
    apply hfree n
    rw [Ledger.Waits, ledger] at hw
    rw [hwait] at hw
    exact hw
  · exact .of_ledger (by rw [hf]) (by rw [hf]) (ledger_dump_v4_of_ne t hr)

theorem advance_catch_up (v4 v6 : Bool) (hfree : v4 = true → ∀ n, ¬(s.ledger q).Waits n) :
    Advance s (s.catch_up_released_families v4 v6) q := by
  have hv4 : Advance s (if v4 then s.rib.peer_types.keys.foldl dump_family_v4 s else s) q := by
    split
    · rename_i h
      exact advance_dump_all_v4 hv (hfree h) _
    · exact .refl s q
  unfold catch_up_released_families
  refine hv4.trans ?_
  by_cases hv6 : v6 = true
  · rw [if_pos hv6]
    exact List.foldl_invariant _ (fun t => Advance _ t q) _ _ (.refl _ q)
      fun t r _ h => h.trans ((aside_dump_family_v6 t r).advance q)
  · rw [if_neg hv6]
    exact .refl _ q

theorem advance_recompute
    (hfree : s.selection_deferral.v4_deferred = true → ∀ n, ¬(s.ledger q).Waits n) :
    Advance s s.recompute_selection_deferral q := by
  unfold recompute_selection_deferral
  refine Advance.trans (t := { s with selection_deferral := _ }) ?_
    (advance_catch_up ?_ _ _ fun h => ?_)
  · exact .of_ledger rfl Iff.rfl rfl
  · exact hv
  · rw [Bool.and_eq_true] at h
    exact hfree h.1

end

/-! ## Buffered propagation -/

/-- What buffered propagation makes of a ledger. -/
def propagate_ledger (s : DaemonState) (now : ℕ) (nlris : List (Nlri Ipv4Addr)) (q : IpAddr)
    (l : Ledger) : Ledger :=
  match s.export_policies.lookup q, l.out with
  | some export_policy, some out =>
    l.buffered (s.peer_type q) now
      (decide_all (s.checked_v4 q export_policy s.selection_deferral.v4_deferred) nlris out)
  | _, _ => l

theorem ledger_propagate (s : DaemonState) (clk : Clock) (nlris : List (Nlri Ipv4Addr))
    (q : IpAddr) :
    (s.propagate_to_all_peers clk nlris).ledger q = if q ∈ s.rib.peer_types
      then s.propagate_ledger clk.instant nlris q (s.ledger q) else s.ledger q := by
  have hline := s.buffer_line_propagate clk nlris q
  obtain ⟨out, last_sent, pending, ds, hf⟩ := s.propagate_to_all_peers_frame clk nlris
  rw [hf] at hline ⊢
  have hl : ∀ l : BufferLine, buffer_line
      { s with
        adj_ribs_out := out, mrai_last_sent := last_sent, mrai_pending := pending,
        pending_decisions := ds } q = l →
      ledger
        { s with
          adj_ribs_out := out, mrai_last_sent := last_sent, mrai_pending := pending,
          pending_decisions := ds } q
        = ⟨l.out, s.update_senders.lookup q, l.pending.getD [],
          ⟨l.last_sent.getD ∅, l.waiting.getD ∅⟩, decide (q ∈ s.stalled_peers)⟩ := by
    rintro l rfl
    rfl
  rw [hl _ hline]
  split
  · unfold propagate_line propagate_ledger
    rcases s.export_policies.lookup q with _ | policy
    · rfl
    · rcases hout : s.adj_ribs_out.lookup q with _ | out
      · simp only [buffer_line, ledger, hout]
        rfl
      · by_cases hpt : s.peer_type q = .External
        · simp only [buffer_line, ledger, hout, Ledger.buffered, if_pos hpt]
          rfl
        · simp only [buffer_line, ledger, hout, Ledger.buffered, if_neg hpt]
          rfl
  · rfl

theorem advance_propagate {s : DaemonState} {q : IpAddr} (hv : s.StoresVerbatim q) (clk : Clock)
    (nlris : List (Nlri Ipv4Addr)) : Advance s (s.propagate_to_all_peers clk nlris) q := by
  have hledger := s.ledger_propagate clk nlris q
  obtain ⟨_, _, _, _, hf⟩ := s.propagate_to_all_peers_frame clk nlris
  refine ⟨by rw [hf], by rw [hf], ?_⟩
  rw [hledger]
  split
  · unfold propagate_ledger
    split
    · rename_i policy out hpol hout
      have hsess : s.session_v4 q = some out.session := congrArg (Option.map _) hout
      exact .single (.buffer clk.instant nlris hout
        (decider_checked_v4 (hv _ hsess) policy s.selection_deferral.v4_deferred))
    · exact .refl
  · exact .refl

theorem advance_propagate_v6 (s : DaemonState) (nlris : List (Nlri Ipv6Addr)) (q : IpAddr) :
    Advance s (s.propagate_to_all_peers_v6 nlris) q := by
  obtain ⟨_, _, hf⟩ := s.propagate_to_all_peers_v6_frame nlris
  rw [hf]
  exact .of_ledger rfl Iff.rfl rfl

end DaemonState

end Pathvector

/-
# The two ways out, in order

An iteration of the event loop handles the queued session events one after the other and then
flushes what waits. For a peer without MRAI the decisions of the iteration should reach the
channel in the order they were made, and so leave the peer with its Adj-RIB-Out.

They do when no event of the iteration decides anew, on the direct path, about a prefix with a
decision waiting (`burst_delivered`). Otherwise the newer decision goes out first, and the older
one after it: a peer is told of a route that is gone (`announcement_overtaken`).
-/
import Pathvector.Lib.Run
import Pathvector.Outbound.Burst

set_option autoImplicit false

namespace Pathvector

/-! ## Flushing what waits -/

namespace Ledger

/-- What `flush_pending` makes of a ledger; `ms` are the IPv6 messages that follow. -/
def flush (peer_type : PeerType) (four_byte : Bool) (max_len : ℕ) (ms : List UpdateMessage)
    (l : Ledger) : Ledger :=
  match l.tx with
  | none => { l with waiting := [] }
  | some tx =>
    let r := if l.waiting.isEmpty then (true, tx)
      else flush_updates l.waiting max_len tx peer_type four_byte
    flushed (if r.1 then r.2.send_all ms else r) { l with waiting := [] }

variable (peer_type : PeerType) (four_byte : Bool) (max_len : ℕ) (ms : List UpdateMessage)

theorem flush_of_nil {l : Ledger} (h : l.waiting = []) :
    l.flush peer_type four_byte max_len [] = l := by
  obtain ⟨out, tx, waiting, mrai, stalled⟩ := l
  obtain rfl : waiting = [] := h
  cases tx with
  | none => rfl
  | some tx => simp [flush, flushed, UpdateSender.send_all]

theorem waiting_flush (l : Ledger) : (l.flush peer_type four_byte max_len ms).waiting = [] := by
  unfold flush
  split <;> rfl

theorem out_flush (l : Ledger) : (l.flush peer_type four_byte max_len ms).out = l.out := by
  unfold flush
  split <;> rfl

theorem mrai_flush (l : Ledger) : (l.flush peer_type four_byte max_len ms).mrai = l.mrai := by
  unfold flush
  split <;> rfl

theorem isSome_tx_flush (l : Ledger) :
    (l.flush peer_type four_byte max_len ms).tx.isSome = l.tx.isSome := by
  unfold flush
  split
  · rfl
  · rename_i tx htx
    rw [htx]
    rfl

theorem handed_flush {l : Ledger} (h : l.tx.isSome = true) :
    (l.flush peer_type four_byte max_len ms).handed = l.handed ++ l.waiting := by
  obtain ⟨tx, htx⟩ := Option.isSome_iff_exists.1 h
  have hr : (if l.waiting.isEmpty then (true, tx)
      else flush_updates l.waiting max_len tx peer_type four_byte).2.handed.flatten
        = tx.handed.flatten ++ l.waiting := by
    by_cases hw : l.waiting.isEmpty = true
    · rw [if_pos hw, List.isEmpty_iff.1 hw, List.append_nil]
    · rw [if_neg hw, UpdateSender.handed_flush_updates]
  unfold flush
  simp only [htx]
  generalize (if l.waiting.isEmpty then (true, tx)
    else flush_updates l.waiting max_len tx peer_type four_byte) = r at hr ⊢
  rw [handed_flushed, handed, htx, Option.elim_some, ← hr]
  split
  · rw [UpdateSender.handed_send_all]
  · rfl

theorem heard_flush {l : Ledger} {p : Nlri Ipv4Addr} (h : l.tx.isSome = true)
    (hl : l.Heard peer_type p) : (l.flush peer_type four_byte max_len ms).Heard peer_type p := by
  unfold Heard entry
  rw [handed_flush _ _ _ _ h, waiting_flush, out_flush, mrai_flush, List.append_nil]
  exact hl

theorem faithful_flush {l : Ledger} (hl : l.Faithful peer_type four_byte)
    (hw : OrderSafe (wire peer_type four_byte) l.waiting)
    (hms : ∀ m ∈ ms, UpdateMessage.edits m = []) :
    (l.flush peer_type four_byte max_len ms).Faithful peer_type four_byte := by
  unfold flush
  split
  · exact hl
  · rename_i tx htx
    by_cases hempty : l.waiting.isEmpty = true
    · simp only [hempty, if_true]
      exact faithful_send_all (l := { l with waiting := [] }) hl htx hms
    · have hfirst := faithful_flush_updates hl htx hw l.out [] max_len
      simp only [hempty, Bool.false_eq_true, if_false]
      generalize flush_updates l.waiting max_len tx peer_type four_byte = r at hfirst ⊢
      obtain ⟨ok, tx'⟩ := r
      cases ok with
      | false => exact hfirst
      | true =>
        have hsecond := faithful_send_all hfirst rfl hms
        unfold flushed at hsecond ⊢
        simpa using hsecond

end Ledger

namespace DaemonState

variable {q : IpAddr} {s : DaemonState}

/-- The IPv6 messages of `flush_pending`. -/
def flush_messages_v6 (s : DaemonState) (q : IpAddr)
    (pending : Option (List (PrefixDecision Ipv6Addr))) : List UpdateMessage :=
  if (pending.getD []).isEmpty then []
  else update_messages_v6 (pending.getD []) (s.max_len q) (s.peer_type q)
    (decide (q ∈ s.four_byte_peers))

theorem edits_flush_messages_v6 (s : DaemonState) (q : IpAddr)
    (pending : Option (List (PrefixDecision Ipv6Addr))) :
    ∀ m ∈ s.flush_messages_v6 q pending, m.edits = [] := by
  unfold flush_messages_v6
  split
  · intro m hm
    exact absurd hm List.not_mem_nil
  · exact edits_update_messages_v6 _ _ _ _

theorem flush_v6_eq (s : DaemonState) (q : IpAddr)
    (pending : Option (List (PrefixDecision Ipv6Addr))) (tx : UpdateSender) :
    s.flush_v6 q (pending.getD []) tx = tx.send_all (s.flush_messages_v6 q pending) := by
  unfold flush_v6 flush_messages_v6
  split <;> rfl

theorem ledger_flush_step_self (s : DaemonState) (q : IpAddr) :
    (s.flush_pending_step q).ledger q
      = (s.ledger q).flush (s.peer_type q) (decide (q ∈ s.four_byte_peers)) (s.max_len q)
        (s.flush_messages_v6 q (s.pending_decisions_v6.lookup q)) := by
  have hdrop : ledger
      { s with
        pending_decisions := s.pending_decisions.erase q
        pending_decisions_v6 := s.pending_decisions_v6.erase q } q
      = { s.ledger q with waiting := [] } := by
    unfold ledger
    simp only [AList.lookup_erase, Option.getD_none]
    rfl
  have hltx : (s.ledger q).tx = s.update_senders.lookup q := rfl
  unfold flush_pending_step Ledger.flush
  rcases htx : s.update_senders.lookup q with _ | tx
  · simp only [htx, hltx, hdrop]
  · simp only [htx, hltx]
    rw [ledger_after_flush_self, hdrop, flush_v6_eq]
    rfl

theorem ledger_flush_step_of_ne (s : DaemonState) {r : IpAddr} (hq : q ≠ r) :
    (s.flush_pending_step r).ledger q = s.ledger q ∧
      (s.flush_pending_step r).pending_decisions_v6.lookup q = s.pending_decisions_v6.lookup q := by
  have hdrop : ledger
      { s with
        pending_decisions := s.pending_decisions.erase r
        pending_decisions_v6 := s.pending_decisions_v6.erase r } q = s.ledger q := by
    unfold ledger
    simp only [AList.lookup_erase_ne hq]
    rfl
  unfold flush_pending_step
  dsimp only
  split
  · exact ⟨hdrop, AList.lookup_erase_ne hq⟩
  · rw [ledger_after_flush_of_ne _ hq]
    exact ⟨hdrop, AList.lookup_erase_ne hq⟩

/-- **`flush_pending`, read at one peer.** -/
theorem ledger_flush_pending (s : DaemonState) (q : IpAddr) :
    ∃ ms, (∀ m ∈ ms, UpdateMessage.edits m = []) ∧
      s.flush_pending.ledger q
        = (s.ledger q).flush (s.peer_type q) (decide (q ∈ s.four_byte_peers)) (s.max_len q) ms := by
  have h := List.foldl_pointwise
    (fun t r => (t.ledger r, t.pending_decisions_v6.lookup r)) flush_pending_step
    (fun r x => (x.1.flush (s.peer_type r) (decide (r ∈ s.four_byte_peers)) (s.max_len r)
      (s.flush_messages_v6 r x.2), none))
    (fun t => ∃ ds ds_v6 txs stalled, t =
      { s with
        pending_decisions := ds
        pending_decisions_v6 := ds_v6
        update_senders := txs
        stalled_peers := stalled }) ?_ ?_ ?_
    (s.pending_decisions.keys ++ s.pending_decisions_v6.keys).dedup (List.nodup_dedup _) s
    ⟨_, _, _, _, rfl⟩ q
  · have hl := congrArg Prod.fst h
    change s.flush_pending.ledger q = _ at hl
    rw [hl]
    by_cases hq : q ∈ (s.pending_decisions.keys ++ s.pending_decisions_v6.keys).dedup
    · rw [if_pos hq]
      exact ⟨_, s.edits_flush_messages_v6 q _, rfl⟩
    · rw [if_neg hq]
      refine ⟨[], fun m hm => absurd hm List.not_mem_nil, ?_⟩
      refine (Ledger.flush_of_nil _ _ _ ?_).symm
      -- no entry, so nothing waits
      have hnone : s.pending_decisions.lookup q = none := by
        rw [AList.lookup_eq_none]
        intro hmem
        apply hq
        rw [List.mem_dedup]
        exact List.mem_append_left _ (AList.mem_keys.1 hmem)
      unfold ledger
      rw [hnone]
      rfl
  · rintro t r ⟨ds, ds_v6, txs, stalled, rfl⟩
    unfold flush_pending_step
    dsimp only
    split <;> exact ⟨_, _, _, _, rfl⟩
  · rintro t r ⟨ds, ds_v6, txs, stalled, rfl⟩
    refine Prod.ext ?_ ?_
    · exact ledger_flush_step_self _ r
    · unfold flush_pending_step
      dsimp only
      split <;> exact AList.lookup_erase _ _
  · rintro t r q' - hne
    obtain ⟨hl, hv6⟩ := t.ledger_flush_step_of_ne hne
    exact Prod.ext hl hv6

theorem update_senders_flush_pending (s : DaemonState) (q : IpAddr) :
    q ∈ s.flush_pending.update_senders ↔ q ∈ s.update_senders := by
  obtain ⟨ms, -, hl⟩ := s.ledger_flush_pending q
  have htx : (s.flush_pending.ledger q).tx.isSome = (s.ledger q).tx.isSome := by
    rw [hl, Ledger.isSome_tx_flush]
  rw [← AList.lookup_isSome, ← AList.lookup_isSome]
  exact Bool.eq_iff_iff.1 htx

/-! ## An iteration of the event loop -/

/-- A session event, as a step. -/
def session_step (s : DaemonState) (e : Clock × IpAddr × SessionEvent) : DaemonState :=
  (s.on_session_event e.1 e.2.1 e.2.2).1

/-- An iteration handles its queue up to the first event that calls for a NOTIFICATION, and
flushes. -/
theorem coalesce_eq_burst (s : DaemonState) (queue : List (Clock × IpAddr × SessionEvent)) :
    ∃ events, events <+: queue ∧
      s.coalesce queue = (events.foldl session_step s).flush_pending := by
  induction queue generalizing s with
  | nil => exact ⟨[], List.prefix_rfl, rfl⟩
  | cons e rest ih =>
    obtain ⟨clk, ip, event⟩ := e
    rw [coalesce]
    split
    · rename_i s' heq
      obtain ⟨events, hpre, hrun⟩ := ih s'
      refine ⟨(clk, ip, event) :: events, List.cons_prefix_cons.2 ⟨rfl, hpre⟩, ?_⟩
      rw [hrun, List.foldl_cons, session_step, heq]
    · rename_i s' n heq
      refine ⟨[(clk, ip, event)], List.cons_prefix_cons.2 ⟨rfl, List.nil_prefix⟩, ?_⟩
      rw [List.foldl_cons, List.foldl_nil, session_step, heq]

/-- An established peer with a channel, to which MRAI does not apply. -/
structure Ungated (s : DaemonState) (q : IpAddr) : Prop where
  established : q ∈ s.rib.peer_types
  peer_type : s.peer_type q ≠ .External
  channel : q ∈ s.update_senders

instance (s : DaemonState) (q : IpAddr) : Decidable (s.Ungated q) :=
  decidable_of_iff
    (q ∈ s.rib.peer_types ∧ s.peer_type q ≠ .External ∧ q ∈ s.update_senders)
    ⟨fun ⟨h1, h2, h3⟩ => ⟨h1, h2, h3⟩, fun h => ⟨h.1, h.2, h.3⟩⟩

/-- What a peer has been told and what waits for it are the decisions made for it, in their
order, and they add up to its Adj-RIB-Out. -/
def OnTrack (s : DaemonState) (q : IpAddr) : Prop :=
  (s.ledger q).Ordered ∧
    ∀ p, told ((s.ledger q).handed ++ (s.ledger q).waiting) p = s.adj_out_v4 q p

/-- The decisions made for a peer have reached its channel in their order, and leave it with
its Adj-RIB-Out. -/
def Delivered (s : DaemonState) (q : IpAddr) : Prop :=
  (∀ p, about p (s.ledger q).handed = about p (s.ledger q).made) ∧
    ∀ p, told (s.ledger q).handed p = s.adj_out_v4 q p

/-- A peer at the start of an iteration: its Adj-RIB-Out is that of its session, and if MRAI
does not apply to it, it is on track. -/
structure Tracked (s : DaemonState) (q : IpAddr) : Prop where
  verbatim : q ∈ s.rib.peer_types → s.StoresVerbatim q
  onTrack : s.Ungated q → s.OnTrack q

theorem onTrack_of_blank (h : Blank (s.ledger q)) : s.OnTrack q := by
  refine ⟨fun p => ?_, fun p => ?_⟩
  · rw [about_append, h.handed, h.made, h.waiting p]
    rfl
  · rw [told_append, if_pos (h.waiting p), h.handed]
    exact (h.entry p).symm

theorem OnTrack.advance {t : DaemonState} (hs : s.OnTrack q) (h : Advance s t q)
    (hpt : s.peer_type q ≠ .External) : t.OnTrack q := by
  refine ⟨h.keeps (fun l l' hstep hl => hstep.ordered hpt hl) hs.1, fun p => ?_⟩
  have hheard := h.keeps (P := fun l => l.Heard (s.peer_type q) p)
    (fun l l' hstep hl => hstep.heard hl) (.inl (hs.2 p))
  exact hheard.resolve_right fun hext => hpt hext.1

/-- **One event, read at one peer.** The peer's session goes on, or it is opened and then goes
on. -/
theorem session_step_cases (s : DaemonState) (e : Clock × IpAddr × SessionEvent)
    (hok : s.Undisturbed q e.2.1 e.2.2) (hq : q ∈ (s.session_step e).rib.peer_types) :
    (∃ s0 : DaemonState, Blank (s0.ledger q) ∧ s0.StoresVerbatim q ∧
        Advance s0 (s.session_step e) q) ∨
      q ∈ s.rib.peer_types ∧ (s.session_step e).peer_type q = s.peer_type q ∧
        (s.StoresVerbatim q → Advance s (s.session_step e) q) := by
  obtain ⟨clk, ip, event⟩ := e
  by_cases hopens : s.Opens q ip event
  · cases event with
    | Established info =>
      obtain ⟨rfl, hidle⟩ := hopens
      have hstep : s.session_step (clk, ip, .Established info)
          = s.on_established ip info.peer_bgp_id info.peer_type info.peer_capabilities
            info.local_addr := by
        simp only [session_step, on_session_event, if_neg hidle]
      have hfree : ∀ n, ¬(s.ledger ip).Waits n := by
        intro n hw
        rcases hok n ((s.waits_iff _ n).1 hw) with h | h
        · exact hidle h
        · exact h.1 rfl
      rw [hstep]
      exact .inl ⟨s.opened ip info, blank_opened info hfree, s.storesVerbatim_opened _ info,
        advance_opened info hfree⟩
    | Terminated reason => exact hopens.elim
    | RouteUpdate msg => exact hopens.elim
  · -- a session that goes on was there before, and of the same type
    have hsame : (s.session_step (clk, ip, event)).rib.peer_types.lookup q
        = s.rib.peer_types.lookup q := lookup_peer_types_session_event clk hopens hq
    refine .inr ⟨?_, ?_, fun hv => advance_on_session_event clk hopens hv hok hq⟩
    · rw [← AList.lookup_isSome, ← hsame, AList.lookup_isSome]
      exact hq
    · unfold DaemonState.peer_type
      rw [hsame]

/-- **One event** keeps a peer on track. -/
theorem tracked_session_step (s : DaemonState) (e : Clock × IpAddr × SessionEvent)
    (hok : s.Undisturbed q e.2.1 e.2.2) (hs : s.Tracked q) : (s.session_step e).Tracked q := by
  constructor
  · intro hq
    rcases s.session_step_cases e hok hq with ⟨s0, -, hv, hadv⟩ | ⟨hmem, -, hadv⟩
    · exact hadv.storesVerbatim hv
    · exact (hadv (hs.verbatim hmem)).storesVerbatim (hs.verbatim hmem)
  · rintro ⟨hq, hpt, hch⟩
    rcases s.session_step_cases e hok hq with ⟨s0, hblank, -, hadv⟩ | ⟨hmem, -, hadv⟩
    · rw [hadv.peer_type] at hpt
      exact (onTrack_of_blank hblank).advance hadv hpt
    · have hadv := hadv (hs.verbatim hmem)
      rw [hadv.peer_type] at hpt
      exact (hs.onTrack ⟨hmem, hpt, hadv.session.2.1 hch⟩).advance hadv hpt

theorem tracked_burst {events : List (Clock × IpAddr × SessionEvent)} (hs : s.Tracked q)
    (hok : Machine.Guarded session_step (fun s e => s.Undisturbed q e.2.1 e.2.2) s events) :
    (events.foldl session_step s).Tracked q := by
  have hstep : ∀ (s : DaemonState) (e : Clock × IpAddr × SessionEvent),
      s.Undisturbed q e.2.1 e.2.2 → s.Tracked q → (s.session_step e).Tracked q :=
    tracked_session_step
  exact Machine.inv_of_guarded hstep hs hok

theorem OnTrack.delivered (hs : s.OnTrack q) (hch : q ∈ s.update_senders) :
    s.flush_pending.Delivered q := by
  obtain ⟨ms, -, hl⟩ := s.ledger_flush_pending q
  have hsome : (s.ledger q).tx.isSome = true := AList.lookup_isSome.2 hch
  have hhanded : (s.flush_pending.ledger q).handed
      = (s.ledger q).handed ++ (s.ledger q).waiting := by
    rw [hl, Ledger.handed_flush _ _ _ _ hsome]
  have hout : (s.flush_pending.ledger q).out = (s.ledger q).out := by
    rw [hl, Ledger.out_flush]
  refine ⟨fun p => ?_, fun p => ?_⟩
  · rw [hhanded, hs.1 p]
    unfold Ledger.made
    rw [hout]
  · rw [hhanded, hs.2 p]
    show (s.ledger q).entry p = (s.flush_pending.ledger q).entry p
    unfold Ledger.entry
    rw [hout]

theorem delivered_of_tracked (hs : s.Tracked q) (hq : s.flush_pending.Ungated q) :
    s.flush_pending.Delivered q := by
  obtain ⟨hest, hpt, hch⟩ := hq
  rw [update_senders_flush_pending] at hch
  obtain ⟨_, _, _, _, hf⟩ := s.flush_pending_frame
  rw [hf] at hest hpt
  exact (hs.onTrack ⟨hest, hpt, hch⟩).delivered hch

/-- **The two ways out keep the order.** No event decides anew, at once, about a prefix with a
decision waiting for the peer. Then, for a peer to which MRAI does not apply and that was on track,
the decisions reach the channel in the order they were made and leave it with its Adj-RIB-Out:
after all the events and a flush, and after the iteration of the event loop that takes them from
its queue. -/
theorem burst_delivered (s : DaemonState) (events : List (Clock × IpAddr × SessionEvent))
    (q : IpAddr) (hs : s.Tracked q)
    (hok : Machine.Guarded session_step (fun s e => s.Undisturbed q e.2.1 e.2.2) s events) :
    ((events.foldl session_step s).flush_pending.Ungated q →
        (events.foldl session_step s).flush_pending.Delivered q) ∧
      ((s.coalesce events).Ungated q → (s.coalesce events).Delivered q) := by
  refine ⟨delivered_of_tracked (tracked_burst hs hok), ?_⟩
  -- the iteration may stop early
  obtain ⟨handled, ⟨rest, rfl⟩, hrun⟩ := s.coalesce_eq_burst events
  rw [hrun]
  exact delivered_of_tracked (tracked_burst hs (Machine.guarded_append.1 hok).1)

theorem tracked_of_not_established (h : q ∉ s.rib.peer_types) : s.Tracked q :=
  ⟨fun hq => absurd hq h, fun hq => absurd hq.established h⟩

end DaemonState

/-! ## A route that is gone -/

/-- The session with 10.0.0.d comes up. -/
def coming_up (d : UInt8) (peer_type : PeerType) : Clock × IpAddr × SessionEvent :=
  (⟨0, 0⟩, peer_addr d, .Established ⟨Ipv4Addr.new 10 0 0 d, peer_type, [], none⟩)

/-- Two external peers, 10.0.0.2 and 10.0.0.4, and an internal one, 10.0.0.3. -/
def three_peers : DaemonState :=
  [coming_up 2 .External, coming_up 3 .Internal, coming_up 4 .External].foldl
    DaemonState.session_step
    (small_daemon [open_peer 2 65002, open_peer 3 65001, open_peer 4 65004] none [])

theorem tracked_three_peers : three_peers.Tracked (peer_addr 3) := by
  refine DaemonState.tracked_burst (DaemonState.tracked_of_not_established ?_) ?_
  · decide +kernel
  · decide +kernel

/-- 10.0.0.0/8 from the first external peer. -/
def one_announcement : Clock × IpAddr × SessionEvent :=
  (⟨1, 0⟩, peer_addr 2, .RouteUpdate (announcement [65002] [Nlri.v4 10 0 0 0 8]))

/-- The session with 10.0.0.d ends. -/
def going_down (d : UInt8) : Clock × IpAddr × SessionEvent :=
  (⟨2, 0⟩, peer_addr d, .Terminated .OperatorStop)

/-- The announcement reaches the internal peer, though another session ends while it waits. -/
theorem announcement_delivered :
    three_peers.Tracked (peer_addr 3) ∧
      (three_peers.coalesce [one_announcement, going_down 4]).Delivered (peer_addr 3) :=
  ⟨tracked_three_peers, (DaemonState.burst_delivered three_peers [one_announcement, going_down 4]
    (peer_addr 3) tracked_three_peers (by decide +kernel)).2 (by decide +kernel)⟩

/-- The announcement waits, the withdrawal goes out at once, and then the announcement does:
the peer is left with a route that its Adj-RIB-Out does not have. -/
theorem announcement_overtaken :
    three_peers.Reachable ∧ three_peers.Tracked (peer_addr 3) ∧
      ([one_announcement, going_down 2].foldl DaemonState.session_step
        three_peers).flush_pending.Ungated (peer_addr 3) ∧
      ¬([one_announcement, going_down 2].foldl DaemonState.session_step
        three_peers).flush_pending.Delivered (peer_addr 3) := by
  refine ⟨reachable_small_daemon _ _ _ [session_up 2 .External [], session_up 3 .Internal [],
    session_up 4 .External []], tracked_three_peers, by decide +kernel, ?_⟩
  rintro ⟨-, hview⟩
  have hp := hview (Nlri.v4 10 0 0 0 8)
  revert hp
  decide +kernel

end Pathvector

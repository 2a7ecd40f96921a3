/-
# Stale routes in the daemon

What `on_established` leaves of the stale routes of a peer that comes back, for every state and
every capability set it comes back with (`unpreservedGone_on_established_iff`), and the account of
all peers over the runs of the daemon (`allAccounted_step`).
-/
import Pathvector.Restart.Accounting

set_option autoImplicit false

namespace Pathvector

/-- The Graceful Restart capability of an OPEN message lists the family with the forwarding
state preserved (RFC 4724 section 4.2). -/
def preserves (caps : List Capability) (family : AfiSafi) : Bool :=
  (extract_gr_capability caps).families.any fun f =>
    f.afi_safi == family && f.forwarding_preserved

namespace DaemonState

variable {s : DaemonState} {q p : IpAddr} {clk : Clock}

/-! ## Coming back -/

/-- Nothing stale is left of the peer in a family that its new capability does not preserve. -/
def UnpreservedGone (s : DaemonState) (peer_ip : IpAddr) (caps : List Capability) : Prop :=
  (preserves caps .IPV4_UNICAST = false → s.tables_v4.NoStale peer_ip) ∧
    (preserves caps .IPV6_UNICAST = false → s.tables_v6.NoStale peer_ip)

/-- There was nothing to drop. Only an IPv6 Adj-RIB-In that the last capability did not list
is emptied. -/
def NothingUnpreserved (s : DaemonState) (peer_ip : IpAddr) (caps : List Capability) : Prop :=
  (preserves caps .IPV4_UNICAST = false → s.tables_v4.NoStale peer_ip) ∧
    (preserves caps .IPV6_UNICAST = false → s.tables_v6.NoStaleCandidate peer_ip ∧
      (s.gr_covers peer_ip .IPV6_UNICAST = true → s.tables_v6.NoStale peer_ip))

/-- A session that comes up in the restart window drops no stale route, whatever its
capabilities say. -/
theorem unpreservedGone_on_established_iff (s : DaemonState) (ip : IpAddr)
    (hgr : ip ∈ s.gr.deadlines) (peer_bgp_id : Ipv4Addr) (peer_type : PeerType)
    (caps : List Capability) (local_addr : Option IpAddr) :
    (s.on_established ip peer_bgp_id peer_type caps local_addr).UnpreservedGone ip caps
      ↔ s.NothingUnpreserved ip caps := by
  obtain ⟨h4, h6⟩ := moved_on_established s ip peer_bgp_id peer_type caps local_addr
  have hkept : ∀ family, s.kept_over_restart ip family = s.gr_covers ip family := by
    intro family
    unfold kept_over_restart
    rw [decide_eq_true hgr, Bool.true_and]
    rfl
  refine and_congr (imp_congr .rfl ?_) (imp_congr .rfl ?_)
  · rw [h4, established_moves_v4]
    cases s.kept_over_restart ip .IPV4_UNICAST <;> exact .rfl
  · rw [h6, established_moves_v6, hkept]
    cases hcov : s.gr_covers ip .IPV6_UNICAST with
    | true =>
      have hweaker : s.tables_v6.NoStale ip → s.tables_v6.NoStaleCandidate ip :=
        fun h n => (Bool.or_eq_false_iff.1 (h n)).1
      exact ⟨fun h => ⟨hweaker h, fun _ => h⟩, fun h => h.2 rfl⟩
    | false =>
      have hheld : ∀ n, (s.tables_v6.moves [.NewAdjRibIn ip]).stale_held ip n = false := by
        intro n
        have hnone : (s.tables_v6.moves [.NewAdjRibIn ip]).held ip n = none := by
          refine (s.tables_v6.held_newAdjRibIn ip ip n).trans ?_
          rw [if_pos rfl]
        unfold Tables.stale_held
        rw [hnone]
        rfl
      constructor
      · intro h
        exact ⟨fun n => (Bool.or_eq_false_iff.1 (h n)).1, fun h => (Bool.false_ne_true h).elim⟩
      · intro h n
        exact Bool.or_eq_false_iff.2 ⟨h.1 n, hheld n⟩

/-! ## Over runs -/

/-- Every stale candidate belongs to a peer with an armed deadline, or to one that is up and
has the prefix in its stale set. -/
def StaleDue (s : DaemonState) : Prop :=
  ∀ p, (∀ n, s.tables_v4.stale_candidate p n = true →
      p ∈ s.gr.deadlines ∨ p ∈ s.rib.peer_types ∧ n ∈ s.tables_v4.pending p) ∧
    ∀ n, s.tables_v6.stale_candidate p n = true →
      p ∈ s.gr.deadlines ∨ p ∈ s.rib.peer_types ∧ n ∈ s.tables_v6.pending p

/-- The account of a peer in IPv4. -/
def Accounted_v4 (s : DaemonState) (p : IpAddr) : Prop :=
  s.tables_v4.Accounted p (p ∈ s.gr.deadlines) (s.gr_covers p .IPV4_UNICAST = true)
    (p ∈ s.rib.peer_types)

def Accounted_v6 (s : DaemonState) (p : IpAddr) : Prop :=
  s.tables_v6.Accounted p (p ∈ s.gr.deadlines) (s.gr_covers p .IPV6_UNICAST = true)
    (p ∈ s.rib.peer_types)

/-- The account of all peers. -/
structure AllAccounted (s : DaemonState) : Prop where
  v4 : ∀ p, s.Accounted_v4 p
  v6 : ∀ p, s.Accounted_v6 p
  /-- Only a peer that is configured has announced IPv6 routes. -/
  known : ∀ p n, (s.tables_v6.held p n).isSome → p ∈ s.adj_ribs_in

theorem AllAccounted.staleDue (h : s.AllAccounted) : s.StaleDue := fun p =>
  ⟨fun n hn => (h.v4 p).due n (Bool.or_eq_true_iff.2 (.inl hn)),
    fun n hn => (h.v6 p).due n (Bool.or_eq_true_iff.2 (.inl hn))⟩

/-- What an event has to meet for the account to be kept. -/
def Accounts (s : DaemonState) : Event → Prop
  -- a second Established without an end in between empties an Adj-RIB-In under its candidates
  | .Session _ p (.Established _) =>
    p ∈ s.max_prefix_idle ∨ p ∉ s.rib.peer_types ∨ s.tables_v6.NoStaleCandidate p
  | .Session _ p (.Terminated reason) => s.enters_helper p reason = true →
    ((s.gr_covers p .IPV4_UNICAST = false → s.tables_v4.NoStaleCandidate p) ∧
      (s.gr_covers p .IPV6_UNICAST = false → s.tables_v6.NoStaleCandidate p)) ∧
    (p ∈ s.pending_removal →
      (s.gr_covers p .IPV4_UNICAST = true → s.tables_v4.announced p = []) ∧
      (s.gr_covers p .IPV6_UNICAST = true → s.tables_v6.announced p = []))
  | .Session clk p (.RouteUpdate msg) => p ∈ s.gr.deadlines ∨
    (∀ m ∈ s.update_moves_v4 clk p msg, s.tables_v4.Renews m) ∧
      ∀ m ∈ s.update_moves_v6 clk p msg, s.tables_v6.Renews m
  | .OriginateRoutes _ routes => ∀ r ∈ routes, r.stale = false
  | .OriginateRoutesV6 routes => ∀ r ∈ routes, r.stale = false
  | _ => True

instance (s : DaemonState) (e : Event) : Decidable (s.Accounts e) := by
  induction e using Event.casesOn with
  | Session _ _ event =>
    induction event using SessionEvent.casesOn <;> dsimp only [Accounts] <;> infer_instance
  | _ => dsimp only [Accounts]; infer_instance

/-! ### The account over a step -/

theorem SameWindows.accounted {s' : DaemonState} (hw : SameWindows s s') :
    (s'.Accounted_v4 p ↔ s'.tables_v4.Accounted p (p ∈ s.gr.deadlines)
      (s.gr_covers p .IPV4_UNICAST = true) (p ∈ s.rib.peer_types)) ∧
    (s'.Accounted_v6 p ↔ s'.tables_v6.Accounted p (p ∈ s.gr.deadlines)
      (s.gr_covers p .IPV6_UNICAST = true) (p ∈ s.rib.peer_types)) := by
  unfold Accounted_v4 Accounted_v6 gr_covers
  rw [hw.deadlines, hw.families, hw.up]
  exact ⟨.rfl, .rfl⟩

theorem accounted_session_up (hs : s.AllAccounted) {info : SessionInfo}
    (hok : s.Accounts (.Session clk q (.Established info))) :
    (s.step (.Session clk q (.Established info))).AllAccounted := by
  by_cases hidle : q ∈ s.max_prefix_idle
  · -- a peer held down for its prefix count is not let up
    have hstep : s.step (.Session clk q (.Established info)) = s := by
      change (if q ∈ s.max_prefix_idle then (s, none) else _).1 = s
      rw [if_pos hidle]
    rw [hstep]
    exact hs
  · have hstep : s.step (.Session clk q (.Established info)) = s.on_established q info.peer_bgp_id
        info.peer_type info.peer_capabilities info.local_addr := by
      change (if q ∈ s.max_prefix_idle then (s, none) else _).1 = _
      rw [if_neg hidle]
    obtain ⟨hd, hup, hf⟩ := s.windows_on_established q info.peer_bgp_id info.peer_type
      info.peer_capabilities info.local_addr
    obtain ⟨h4, h6⟩ := s.moved_on_established q info.peer_bgp_id info.peer_type
      info.peer_capabilities info.local_addr
    have hknown := known_step hs.known (.Session clk q (.Established info))
    rw [hstep] at hknown ⊢
    generalize s.on_established q info.peer_bgp_id info.peer_type info.peer_capabilities
      info.local_addr = s' at hd hup hf h4 h6 hknown ⊢
    have hkept : ∀ family, s.kept_over_restart q family = true ↔
        q ∈ s.gr.deadlines ∧ s.gr_covers q family = true := by
      intro family
      unfold kept_over_restart
      rw [Bool.and_eq_true, decide_eq_true_iff]
      rfl
    have hclosed : q ∈ s'.gr.deadlines ↔ False := by
      rw [hd, AList.mem_erase]
      exact ⟨fun h => h.1 rfl, False.elim⟩
    have hopen : q ∈ s'.rib.peer_types ↔ True := by
      rw [hup, AList.mem_insert]
      exact ⟨fun _ => trivial, fun _ => .inl rfl⟩
    have hother : ∀ p ≠ q, (p ∈ s'.gr.deadlines ↔ p ∈ s.gr.deadlines) ∧
        (p ∈ s'.rib.peer_types ↔ p ∈ s.rib.peer_types) ∧
        ∀ family, s'.gr_covers p family = s.gr_covers p family := by
      intro p hp
      rw [hd, hup, AList.mem_erase, AList.mem_insert]
      refine ⟨⟨fun h => h.2, fun h => ⟨hp, h⟩⟩, ⟨fun h => h.resolve_left hp, .inr⟩,
        fun family => ?_⟩
      unfold gr_covers
      rw [hf p hp]
    refine ⟨fun p => ?_, fun p => ?_, hknown⟩
    · unfold Accounted_v4
      rw [h4, established_moves_v4]
      by_cases hp : p = q
      · subst hp
        rw [propext hclosed, propext hopen]
        exact Tables.accounted_established (hs.v4 p) (hkept _) _
      · obtain ⟨hd', hup', hf'⟩ := hother p hp
        rw [propext hd', propext hup', hf']
        refine (Tables.sameEntries_moves (fun m hm => ?_) _).accounted (hs.v4 p)
        split_ifs at hm
        · cases List.mem_singleton.1 hm
          simpa [Move.peer?] using fun h => hp h.symm
        · cases hm
    · unfold Accounted_v6
      rw [h6, established_moves_v6]
      by_cases hp : p = q
      · subst hp
        rw [propext hclosed, propext hopen]
        -- unlike IPv4, the Adj-RIB-In is new unless it was kept, so an up session may lose track
        refine Tables.accounted_established_anew (hs.v6 p) (hkept _) (fun hu => ?_) _
        exact (hok.resolve_left hidle).resolve_left fun h => h hu
      · obtain ⟨hd', hup', hf'⟩ := hother p hp
        rw [propext hd', propext hup', hf']
        refine (Tables.sameEntries_moves (fun m hm => ?_) _).accounted (hs.v6 p)
        split_ifs at hm <;> cases List.mem_singleton.1 hm <;>
          simpa [Move.peer?] using fun h => hp h.symm

section

variable {A : Type} [IpAddress A] [DecidableEq A]

theorem accounted_handled (s : DaemonState) (clk : Clock) (q : IpAddr) (reason : TerminationReason)
    (family : AfiSafi) (t : Tables A)
    (h : t.Accounted p (p ∈ s.gr.deadlines) (s.gr_covers p family = true) (p ∈ s.rib.peer_types))
    (hok : s.enters_helper q reason = true →
      (s.gr_covers q family = false → t.NoStaleCandidate q) ∧
      (q ∈ s.pending_removal → s.gr_covers q family = true → t.announced q = [])) :
    let s' := s.handle_terminated clk q reason
    (t.moves (s.handled_moves q reason family)).Accounted p (p ∈ s'.gr.deadlines)
      (s'.gr_covers p family = true) (p ∈ s'.rib.peer_types) := by
  intro s'
  obtain ⟨hdq, hdo, hfq, hfo, hup⟩ := s.windows_handle_terminated clk q reason
  rw [enter_gr_unnoted] at hdq
  by_cases hp : p = q
  · subst hp
    rw [handled_moves_eq]
    refine Tables.accounted_terminated h ?_ ?_ ?_ _
    · intro hgr
      exact ⟨(hok hgr).1, fun hrem => (hok hgr).2 (of_decide_eq_true hrem).1⟩
    · intro hrem hgr
      exact hdq.2 ⟨of_decide_eq_false hrem, .inl hgr⟩
    · intro hrem hcov
      unfold gr_covers at hcov ⊢
      rw [hfq (of_decide_eq_false hrem)]
      exact hcov
  · have hcov : s'.gr_covers p family = s.gr_covers p family := by
      unfold gr_covers
      rw [hfo p hp]
    have hup' : p ∈ s'.rib.peer_types ↔ p ∈ s.rib.peer_types :=
      (hup p).trans ⟨fun h => h.2, fun h => ⟨hp, h⟩⟩
    have hd : p ∈ s'.gr.deadlines ↔ p ∈ s.gr.deadlines := hdo p hp
    rw [propext hd, propext hup', hcov]
    refine (Tables.sameEntries_moves (fun m hm => ?_) _).accounted h
    rw [peer_of_handled hm]
    simpa using fun h => hp h.symm

end

theorem accounted_session_down (hs : s.AllAccounted) {reason : TerminationReason}
    (hok : s.Accounts (.Session clk q (.Terminated reason))) :
    (s.step (.Session clk q (.Terminated reason))).AllAccounted := by
  obtain ⟨h4, h6⟩ := s.moved_handle_terminated clk q reason
  refine ⟨fun p => ?_, fun p => ?_, known_step hs.known _⟩
  · change (s.handle_terminated clk q reason).Accounted_v4 p
    unfold Accounted_v4
    rw [h4]
    exact accounted_handled s clk q reason _ _ (hs.v4 p) fun hgr =>
      ⟨(hok hgr).1.1, fun hrem => ((hok hgr).2 hrem).1⟩
  · change (s.handle_terminated clk q reason).Accounted_v6 p
    unfold Accounted_v6
    rw [h6]
    exact accounted_handled s clk q reason _ _ (hs.v6 p) fun hgr =>
      ⟨(hok hgr).1.2, fun hrem => ((hok hgr).2 hrem).2⟩

section

variable {A : Type} [IpAddress A] [DecidableEq A] {t : Tables A} {family : AfiSafi} {anew : Bool}
  {reads : ImportEnv → UpdateMessage → List (ImportOp A)} {routes : Event → List (Route A)}
  {e : Event} {ms : List (Move A)} {armed covered up : Prop}

/-- An event that opens and closes no window. -/
theorem accounted_quiet (h : t.Accounted p armed covered up)
    (hof : MovesOf s t family anew reads routes e ms) (hw : e.keeps_windows = true)
    (hknown : ∀ n, (t.held p n).isSome → p ∈ s.adj_ribs_in)
    (hfresh : ∀ env msg raw, .Announce raw ∈ reads env msg → raw.stale = false)
    (hroutes : ∀ r ∈ routes e, r.stale = false)
    (hok : ¬armed → (∃ clk msg, e = .Session clk p (.RouteUpdate msg)) → ∀ m ∈ ms, t.Renews m) :
    (t.moves ms).Accounted p armed covered up := by
  cases hof with
  | nothing => exact h
  | up | down | expiry => cases hw
  | marker clk q msg =>
    by_cases hp : p = q
    · subst hp
      exact Tables.accounted_eor h
    · refine (Tables.sameEntries_moves (fun m hm => ?_) _).accounted h
      rw [peer_of_eor hm]
      simpa using fun h => hp h.symm
  | message clk msg hconf hsame policy rtr env refreshed reported =>
    refine Tables.accounted_move (m := .Hear _ policy rtr (reads env _) refreshed reported) h
      fun hp => ⟨hfresh env _, fun harmed => ?_⟩
    exact hok harmed ⟨clk, msg, hp ▸ rfl⟩ _ (List.mem_singleton_self _)
  | add tx hnew =>
    refine Tables.accounted_move (m := .NewAdjRibIn _) h fun hp n => ?_
    by_contra hn
    exact hnew (hp ▸ hknown n (h.held n (Bool.of_not_eq_false hn)))
  | originate e reported =>
    refine Tables.accounted_moves h fun m hm _ => ?_
    obtain ⟨r, hr, rfl⟩ := List.mem_map.1 hm
    exact hroutes r hr
  | judge e hjudges =>
    refine Tables.accounted_moves h fun m hm _ => ?_
    have hm := hjudges m hm
    cases m <;> trivial

end

theorem accounted_gr_deadlines (hs : s.AllAccounted) (clk : Clock) :
    (s.step (.GrDeadlines clk)).AllAccounted := by
  have hw := s.sameWindows_on_gr_deadlines clk
  obtain ⟨h4, h6⟩ := s.moved_on_gr_deadlines clk
  have harmed : ∀ p, p ∉ s.expired clk.instant →
      (p ∈ (s.drain_expired clk.instant).1.gr.deadlines ↔ p ∈ s.gr.deadlines) := by
    intro p hp
    exact (HashMap.mem_erase_all (s.expired clk.instant) s.gr.deadlines).trans
      ⟨fun h => h.1, fun h => ⟨h, hp⟩⟩
  refine ⟨fun p => ?_, fun p => ?_, known_step hs.known _⟩
  · refine hw.accounted.1.2 ?_
    rw [h4]
    exact Tables.accounted_expired _ (hs.v4 p) (harmed p)
  · refine hw.accounted.2.2 ?_
    rw [h6]
    exact Tables.accounted_expired _ (hs.v6 p) (harmed p)

/-- **An event that meets the condition keeps the account of all peers.** -/
theorem allAccounted_step (hs : s.AllAccounted) (e : Event) (hok : s.Accounts e) :
    (s.step e).AllAccounted := by
  by_cases hw : e.keeps_windows = true
  · obtain ⟨h4, h6⟩ := s.tables_step e
    have hsame := s.sameWindows_step hw
    refine ⟨fun p => ?_, fun p => ?_, known_step hs.known e⟩
    · rw [hsame.accounted.1, h4]
      refine accounted_quiet (hs.v4 p) (s.movesOf_v4 e) hw (fun n hn => Tables.mem_of_held hn)
        (fun _ _ _ => fresh_intake_v4) (fun r hr => ?_) ?_
      · cases e with
        | OriginateRoutes clk routes => exact hok r hr
        | _ => cases hr
      · rintro harmed ⟨clk, msg, rfl⟩
        exact (hok.resolve_left harmed).1
    · rw [hsame.accounted.2, h6]
      refine accounted_quiet (hs.v6 p) (s.movesOf_v6 e) hw (hs.known p)
        (fun _ _ _ => fresh_intake_v6) (fun r hr => ?_) ?_
      · cases e with
        | OriginateRoutesV6 routes => exact hok r hr
        | _ => cases hr
      · rintro harmed ⟨clk, msg, rfl⟩
        exact (hok.resolve_left harmed).2
  · cases e with
    | Session clk q event =>
      cases event with
      | Established info => exact accounted_session_up hs hok
      | Terminated reason => exact accounted_session_down hs hok
      | RouteUpdate msg => exact absurd rfl hw
    | GrDeadlines clk => exact accounted_gr_deadlines hs clk
    | _ => exact absurd rfl hw

theorem Empty.noStale {A : Type} [IpAddress A] [DecidableEq A] {t : Tables A} (h : t.Empty)
    (p : IpAddr) : t.NoStale p := by
  intro n
  unfold Tables.stale_at Tables.stale_candidate Tables.stale_held
  rw [h.held, h.candidate]
  rfl

theorem allAccounted_new (local_as : Asn) (local_bgp_id : Ipv4Addr) (local_ipv6 : Option Ipv6Addr)
    (cluster_id : Option UInt32) (confederation_id : Option Asn) (peers : List PeerConfig)
    (update_senders : HashMap IpAddr UpdateSender) (caps : List Capability) :
    (new local_as local_bgp_id local_ipv6 cluster_id confederation_id peers update_senders
      caps).AllAccounted := by
  obtain ⟨h4, h6⟩ := empty_tables_new local_as local_bgp_id local_ipv6 cluster_id confederation_id
    peers update_senders caps
  refine ⟨fun p => Tables.accounted_of_noStale (Empty.noStale h4 p),
    fun p => Tables.accounted_of_noStale (Empty.noStale h6 p), fun p n hn => ?_⟩
  rw [h6.held] at hn
  cases hn

theorem Reachable.known (h : s.Reachable) (p : IpAddr) (n : Nlri Ipv6Addr) :
    (s.tables_v6.held p n).isSome → p ∈ s.adj_ribs_in := by
  obtain ⟨_, _, _, _, _, _, _, _, events, rfl⟩ := h
  exact List.foldl_invariant step
    (fun s => ∀ p n, (s.tables_v6.held p n).isSome → p ∈ s.adj_ribs_in) events _
    (allAccounted_new ..).known (fun _ e _ hs => known_step hs e) p n

/-- **Stale routes over restarts.** A session that comes back drops just what was not stale: the
families its new capability does not preserve are clean after `on_established` if and only if
they were before (first part). Over every run whose events meet `Accounts`, each stale candidate
is due (second part). -/
theorem stale_dropped_or_due (s : DaemonState) (peer_ip : IpAddr)
    (hgr : peer_ip ∈ s.gr.deadlines) (peer_bgp_id : Ipv4Addr) (peer_type : PeerType)
    (caps : List Capability) (local_addr : Option IpAddr) :
    ((s.on_established peer_ip peer_bgp_id peer_type caps local_addr).UnpreservedGone peer_ip caps
      ↔ s.NothingUnpreserved peer_ip caps) ∧
    ∀ local_as local_bgp_id local_ipv6 cluster_id confederation_id peers update_senders caps events,
      Machine.Guarded step Accounts (new local_as local_bgp_id local_ipv6 cluster_id
        confederation_id peers update_senders caps) events →
      ((new local_as local_bgp_id local_ipv6 cluster_id confederation_id peers update_senders
        caps).run events).StaleDue := by
  constructor
  · exact s.unpreservedGone_on_established_iff peer_ip hgr peer_bgp_id peer_type caps local_addr
  · intro local_as local_bgp_id local_ipv6 cluster_id confederation_id peers update_senders caps
      events hrun
    have hstep : ∀ s e, Accounts s e → AllAccounted s → (s.step e).AllAccounted :=
      fun s e hok hs => allAccounted_step hs e hok
    exact (Machine.inv_of_guarded hstep (allAccounted_new ..) hrun).staleDue

end DaemonState

/-! ## Three restarts -/

/-- 10.0.0.2 has announced 10.0.0.0/8, and its session broke. -/
def in_restart (import_default : DefaultAction) : DaemonState :=
  (before_restart import_default).run [.Session ⟨0, 0⟩ (peer_addr 2) (.Terminated .Unclean)]

/-- The events up to the End-of-RIB marker of the next session. -/
def clean_restart : List Event :=
  [session_up 2 .External [.GracefulRestart 0 120 [⟨.IPV4_UNICAST, true⟩]],
    update_from 2 0 (announcement [65002] [Nlri.v4 10 0 0 0 8]),
    .Session ⟨0, 0⟩ (peer_addr 2) (.Terminated .Unclean),
    session_up 2 .External [.GracefulRestart 0 120 [⟨.IPV4_UNICAST, true⟩]],
    update_from 2 0 (announcement [65002] [Nlri.v4 10 0 0 0 8]),
    update_from 2 0 ⟨[], [], []⟩]

/-- The peer comes back with the same capability and announces its route again. -/
theorem clean_restart_due :
    (Machine.Guarded DaemonState.step DaemonState.Accounts
        (small_daemon [open_peer 2 65002] none []) clean_restart ∧
      ((small_daemon [open_peer 2 65002] none []).run clean_restart).StaleDue) ∧
    (peer_addr 2 ∈ (in_restart .Accept).gr.deadlines ∧
      ((in_restart .Accept).on_established (peer_addr 2) (Ipv4Addr.new 10 0 0 2) .External
        [.GracefulRestart 0 120 [⟨.IPV4_UNICAST, true⟩]] none).UnpreservedGone (peer_addr 2)
        [.GracefulRestart 0 120 [⟨.IPV4_UNICAST, true⟩]]) := by
  have hrun : Machine.Guarded DaemonState.step DaemonState.Accounts
      (small_daemon [open_peer 2 65002] none []) clean_restart := by
    decide +kernel
  have hgr : peer_addr 2 ∈ (in_restart .Accept).gr.deadlines := by
    decide +kernel
  obtain ⟨hgone, hdue⟩ := DaemonState.stale_dropped_or_due (in_restart .Accept) (peer_addr 2) hgr
    (Ipv4Addr.new 10 0 0 2) .External [.GracefulRestart 0 120 [⟨.IPV4_UNICAST, true⟩]] none
  refine ⟨⟨hrun, hdue _ _ _ _ _ _ _ _ _ hrun⟩, hgr, hgone.2 ⟨fun h => ?_, fun _ => ?_⟩⟩
  · exact absurd h (by decide +kernel)
  · decide +kernel

/-- The peer comes back without the capability, and keeps its stale candidate. It comes back with
the capability, and a route that the import policy rejects is not due any more after it has been
announced again. -/
theorem stale_route_outlives :
    (peer_addr 2 ∈ (in_restart .Accept).gr.deadlines ∧
      ¬((in_restart .Accept).on_established (peer_addr 2) (Ipv4Addr.new 10 0 0 2) .External []
        none).UnpreservedGone (peer_addr 2) []) ∧
    ((in_restart .Reject).run
        [session_up 2 .External [.GracefulRestart 0 120 [⟨.IPV4_UNICAST, true⟩]],
          update_from 2 0 (announcement [65002] [Nlri.v4 10 0 0 0 8])]).Reachable ∧
      ¬((in_restart .Reject).run
        [session_up 2 .External [.GracefulRestart 0 120 [⟨.IPV4_UNICAST, true⟩]],
          update_from 2 0 (announcement [65002] [Nlri.v4 10 0 0 0 8])]).StaleDue := by
  have hreach : (before_restart .Reject).Reachable := reachable_small_daemon ..
  refine ⟨⟨by decide +kernel, fun h => ?_⟩, (hreach.run _).run _, fun h => ?_⟩
  · have hclean := h.1 (by decide) (Nlri.v4 10 0 0 0 8)
    revert hclean
    decide +kernel
  · have hdue := (h (peer_addr 2)).1 (Nlri.v4 10 0 0 0 8)
    revert hdue
    decide +kernel

end Pathvector

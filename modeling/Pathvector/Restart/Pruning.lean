/-
# What End-of-RIB prunes

A peer that comes back in its restart window finds all it had announced in its stale set. Its
UPDATEs take prefixes out of the set, and the End-of-RIB marker withdraws the rest. The purpose:
afterwards the Adj-RIB-In holds exactly what the new session has announced and not taken back.

The set does not follow the Adj-RIB-In. Only the NLRI field takes IPv4 prefixes out of it, so that
a prefix announced again in MP_REACH_NLRI is stored and then pruned; and every prefix of the field
leaves it, so that an announcement that is dropped keeps the old route alive.

`Following` ties the set to a record of the last mentions (`last_mention_v4`, `last_mention_v6`),
`Exact` says for which messages it stays tied.
-/
import Pathvector.Restart.Retention

set_option autoImplicit false

namespace Pathvector

section

variable {A : Type} [IpAddress A] [DecidableEq A]

/-- The operation announces a route. -/
def ImportOp.announces : ImportOp A → Bool
  | .Withdraw _ => false
  | .Announce _ => true

namespace Tables

variable {refreshed named : List (Nlri A)} {ops : List (ImportOp A)} {policy : Policy A}
  {rtr : RtrHandle A} {reported : Bool}

section

variable (t : Tables A) (p : IpAddr) (stored : Nlri A → Bool)

/-- The operations of a message leave a route for the prefix in the Adj-RIB-In. -/
def stores (ops : List (ImportOp A)) (n : Nlri A) : Bool :=
  decide (p ∈ t.adj_ribs_in) && (last_op ops n).any ImportOp.announces

/-- Every stale candidate of the peer has a route in its Adj-RIB-In. -/
def StaleAnnounced : Prop :=
  ∀ n, t.stale_candidate p n = true → (t.held p n).isSome

instance (t : Tables A) (p : IpAddr) : Decidable (t.StaleAnnounced p) :=
  decidable_of_iff (∀ n ∈ t.loc_rib.prefixes_of p, t.stale_candidate p n = true →
      (t.held p n).isSome) <| by
    refine ⟨fun h n hn => h n ?_ hn, fun h n _ => h n⟩
    rw [LocRib.mem_prefixes_of]
    unfold stale_candidate at hn
    cases hcand : t.loc_rib.candidate n p with
    | none =>
      rw [hcand] at hn
      cases hn
    | some r => rfl

/-- The stale set and the record of what the session has stored fit together. -/
structure Following : Prop where
  stored : ∀ n, (t.held p n).isSome ∧ n ∉ t.pending p ↔ stored n = true
  stale : ∀ n, t.stale_at p n = true → n ∈ t.pending p

/-- For each prefix the message names: what it stores is not stale any more, and where it has no
operation for the prefix there is nothing, or something that stays stale. -/
def Exact (named : List (Nlri A)) (ops : List (ImportOp A)) (refreshed : List (Nlri A)) : Prop :=
  ∀ n ∈ named, match last_op ops n with
    | some (.Announce _) => n ∈ refreshed ∨ n ∉ t.pending p
    | some (.Withdraw _) => True
    | none => t.held p n = none ∨ n ∈ t.pending p ∧ n ∉ refreshed

end

instance (t : Tables A) (p : IpAddr) (named : List (Nlri A)) (ops : List (ImportOp A))
    (refreshed : List (Nlri A)) : Decidable (t.Exact p named ops refreshed) := by
  unfold Exact
  have hdec : ∀ n, Decidable (match last_op ops n with
      | some (.Announce _) => n ∈ refreshed ∨ n ∉ t.pending p
      | some (.Withdraw _) => True
      | none => t.held p n = none ∨ n ∈ t.pending p ∧ n ∉ refreshed) := by
    intro n
    split <;> infer_instance
  infer_instance

variable {t : Tables A} {p : IpAddr} {stored : Nlri A → Bool}

/-! ## Messages -/

theorem isSome_held_hear (n : Nlri A) :
    ((t.move (.Hear p policy rtr ops refreshed reported)).held p n).isSome
      = if p ∈ t.adj_ribs_in ∧ (last_op ops n).isSome then t.stores p ops n
        else (t.held p n).isSome := by
  rw [held_hear]
  unfold stores
  by_cases hp : p ∈ t.adj_ribs_in
  · cases last_op ops n with
    | none => simp
    | some op => cases op <;> simp [hp, ImportOp.route?, ImportOp.announces]
  · rw [if_neg fun h => hp h.2, if_neg fun h => hp h.1]

/-- **A message that is exact.** -/
theorem following_hear (h : Following t p stored)
    (hfresh : ∀ raw, .Announce raw ∈ ops → raw.stale = false) (hops : ∀ op ∈ ops, op.nlri ∈ named)
    (hrefreshed : ∀ n ∈ refreshed, n ∈ named) (hexact : t.Exact p named ops refreshed)
    (hrenews : t.Renews (.Hear p policy rtr ops refreshed reported)) :
    Following (t.move (.Hear p policy rtr ops refreshed reported)) p
      fun n => if n ∈ named then t.stores p ops n else stored n := by
  have hnone : p ∉ t.adj_ribs_in → ∀ n, t.held p n = none := by
    intro hp n
    unfold held
    rw [AList.lookup_eq_none.2 hp]
    rfl
  constructor
  · intro n
    rw [isSome_held_hear, mem_pending_hear]
    by_cases hn : n ∈ named
    · rw [if_pos hn]
      have hn' := hexact n hn
      cases hlast : last_op ops n with
      | none =>
        -- named without an operation: the message only refreshes it
        rw [hlast] at hn'
        rw [if_neg (by simp), stores, hlast]
        simp only [Option.any_none, Bool.and_false, Bool.false_eq_true, iff_false]
        rintro ⟨hheld, hpending⟩
        rcases hn' with hnil | ⟨hin, hout⟩
        · rw [hnil] at hheld
          cases hheld
        · exact hpending ⟨hin, fun _ => hout⟩
      | some op =>
        rw [hlast] at hn'
        by_cases hp : p ∈ t.adj_ribs_in
        · rw [if_pos ⟨hp, rfl⟩]
          refine ⟨fun h => h.1, fun hst => ⟨hst, fun hpending => ?_⟩⟩
          cases op with
          | Withdraw m =>
            rw [stores, hlast, Option.any_some, ImportOp.announces, Bool.and_false] at hst
            cases hst
          | Announce raw =>
            rcases hn' with hin | hout
            · exact hpending.2 rfl hin
            · exact hout hpending.1
        · rw [if_neg fun h => hp h.1, hnone hp n, stores, decide_eq_false hp]
          simp
    · have hlast : last_op ops n = none :=
        last_op_eq_none.2 fun op hop heq => hn (heq ▸ hops op hop)
      rw [if_neg hn, if_neg (by rw [hlast]; simp), ← h.stored n]
      have hout : n ∉ refreshed := fun hin => hn (hrefreshed n hin)
      simp [hout]
  · -- what is stale after the message was stale before it, and the message did not renew it
    intro n hn
    rw [mem_pending_hear]
    rcases Bool.or_eq_true_iff.1 hn with hcand | hheld
    · obtain ⟨hold, hno⟩ := stale_candidate_hear hfresh hcand
      refine ⟨h.stale n (Bool.or_eq_true_iff.2 (.inl hold)), fun _ hin => ?_⟩
      obtain ⟨op, hop, hnlri, hsome⟩ := (hrenews n hin).1 hold
      rw [hno op hop hnlri] at hsome
      cases hsome
    · obtain ⟨hold, hno⟩ := stale_held_hear hfresh hheld
      refine ⟨h.stale n (Bool.or_eq_true_iff.2 (.inr hold)), fun _ hin => ?_⟩
      obtain ⟨op, hop, hnlri⟩ := (hrenews n hin).2 hold
      by_cases hp : p ∈ t.adj_ribs_in
      · exact hno hp op hop hnlri
      · have hsome := held_of_stale hold
        rw [hnone hp n] at hsome
        cases hsome

/-- A message that is dropped, and names nothing that the session has stored. -/
theorem following_dropped (h : Following t p stored) (hexact : t.Exact p named [] []) :
    Following t p fun n => if n ∈ named then t.stores p [] n else stored n := by
  refine ⟨fun n => ?_, h.stale⟩
  by_cases hn : n ∈ named
  · rw [if_pos hn]
    have hn' : t.held p n = none ∨ n ∈ t.pending p ∧ n ∉ [] := hexact n hn
    have hnot : t.stores p [] n = false := Bool.and_false _
    rw [hnot]
    simp only [Bool.false_eq_true, iff_false]
    rintro ⟨hheld, hpending⟩
    rcases hn' with hnil | ⟨hin, -⟩
    · rw [hnil] at hheld
      cases hheld
    · exact hpending hin
  · rw [if_neg hn]
    exact h.stored n

/-! ## Everything else -/

theorem following_idle {ms : List (Move A)} (h : Following t p stored)
    (hms : ∀ m ∈ ms, ∀ u : Tables A, (∀ n, u.held p n = t.held p n) → u.Idle p m) :
    Following (t.moves ms) p stored := by
  have hkept := List.foldl_invariant move
    (fun u => (∀ n, u.held p n = t.held p n) ∧ Following u p stored) ms t ⟨fun _ => rfl, h⟩
    fun u m hm hu => by
      obtain ⟨hheld, hpending, hstale⟩ := idle_move (hms m hm u hu.1)
      refine ⟨fun n => (hheld n).trans (hu.1 n), fun n => ?_, fun n hn => ?_⟩
      · rw [hheld, hpending]
        exact hu.2.stored n
      · exact (hpending n).2 (hu.2.stale n (hstale n hn))
  exact hkept.2

/-! ## The first and the last event -/

theorem following_marked (hheld : t.StaleAnnounced p) :
    Following (t.moves [.MarkStale p]) p fun _ => false := by
  constructor
  · intro n
    simp only [Bool.false_eq_true, iff_false]
    rintro ⟨hsome, hpending⟩
    exact hpending ((mem_pending_markStale ..).2 (.inl ⟨rfl, hsome⟩))
  · intro n hn
    refine (mem_pending_markStale ..).2 (.inl ⟨rfl, ?_⟩)
    rcases Bool.or_eq_true_iff.1 hn with hcand | hst
    · exact hheld n hcand
    · exact held_of_stale hst

/-- **The End-of-RIB marker leaves what the session has stored.** -/
theorem exact_eor (h : Following t p stored) :
    (∀ n, ((t.moves (DaemonState.eor_moves t p)).held p n).isSome ↔ stored n = true) ∧
      (t.moves (DaemonState.eor_moves t p)).NoStaleCandidate p := by
  have hkeys : ∀ n, n ∈ t.pending p ↔ n ∈ (t.pending p).keys := fun n => AList.mem_keys
  by_cases hnil : (t.pending p).keys.isEmpty = true
  · have hmoves : t.moves (DaemonState.eor_moves t p) = t.move (.DropStale p) := by
      unfold DaemonState.eor_moves
      rw [if_pos hnil]
      rfl
    have hempty : ∀ n, n ∉ t.pending p := by
      intro n hn
      rw [hkeys, List.isEmpty_iff.1 hnil] at hn
      cases hn
    rw [hmoves]
    refine ⟨fun n => ?_, fun n => Bool.eq_false_iff.2 fun hn => ?_⟩
    · rw [← h.stored n]
      exact ⟨fun hsome => ⟨hsome, hempty n⟩, fun h => h.1⟩
    · exact hempty n (h.stale n (Bool.or_eq_true_iff.2 (.inl hn)))
  · have hmoves : t.moves (DaemonState.eor_moves t p)
        = (t.move (.Prune p (t.pending p).keys)).move (.DropStale p) := by
      unfold DaemonState.eor_moves
      rw [if_neg hnil]
      rfl
    rw [hmoves]
    refine ⟨fun n => ?_, fun n => Bool.eq_false_iff.2 fun hn => ?_⟩
    · change ((t.move (.Prune p (t.pending p).keys)).held p n).isSome ↔ _
      rw [held_prune, ← h.stored n, hkeys]
      by_cases hin : n ∈ (t.pending p).keys
      · simp [hin]
      · simp [hin]
    · change ((t.move (.Prune p (t.pending p).keys)).loc_rib.candidate n p).any Route.stale
        = true at hn
      rw [candidate_prune] at hn
      split at hn
      · cases hn
      · next hin =>
        exact hin ⟨rfl, (hkeys n).1 (h.stale n (Bool.or_eq_true_iff.2 (.inl hn)))⟩

end Tables

end

namespace DaemonState

variable {s : DaemonState} {msg : UpdateMessage} {clk : Clock} {e : Event} {event : SessionEvent}
  {events : List Event} {q : IpAddr} {now : ℕ}

/-! ## Mentions -/

/-- The IPv4 operations a message of the peer comes to. -/
def heard_ops_v4 (s : DaemonState) (clk : Clock) (p : IpAddr) (msg : UpdateMessage) :
    List (ImportOp Ipv4Addr) :=
  match s.rr_inbound p msg with
  | some msg => if s.Configured p then intake_v4 (s.env_of clk p) msg else []
  | none => []

def heard_ops_v6 (s : DaemonState) (clk : Clock) (p : IpAddr) (msg : UpdateMessage) :
    List (ImportOp Ipv6Addr) :=
  match s.rr_inbound p msg with
  | some msg => if s.Configured p then intake_v6 (s.env_of clk p) msg else []
  | none => []

/-- The message gets as far as the stale sets. -/
def Heard (s : DaemonState) (p : IpAddr) (msg : UpdateMessage) : Prop :=
  s.Configured p ∧ (s.rr_inbound p msg).isSome
deriving Decidable

/-- What an event says about an IPv4 prefix of the peer: nothing, or whether the message that
names it stores a route for it. -/
def mention_v4 (s : DaemonState) (p : IpAddr) (n : Nlri Ipv4Addr) : Event → Option Bool
  | .Session clk q (.RouteUpdate msg) =>
    if q = p ∧ n ∈ msg.affected then
      some (s.tables_v4.stores p (s.heard_ops_v4 clk p msg) n)
    else none
  | _ => none

def mention_v6 (s : DaemonState) (p : IpAddr) (n : Nlri Ipv6Addr) : Event → Option Bool
  | .Session clk q (.RouteUpdate msg) =>
    if q = p ∧ n ∈ msg.affected_v6 then
      some (s.tables_v6.stores p (s.heard_ops_v6 clk p msg) n)
    else none
  | _ => none

/-- The last mention of an IPv4 prefix in a run. -/
def last_mention_v4 (p : IpAddr) (n : Nlri Ipv4Addr) : DaemonState → List Event → Option Bool
  | _, [] => none
  | s, e :: es => (last_mention_v4 p n (s.step e) es).or (s.mention_v4 p n e)

def last_mention_v6 (p : IpAddr) (n : Nlri Ipv6Addr) : DaemonState → List Event → Option Bool
  | _, [] => none
  | s, e :: es => (last_mention_v6 p n (s.step e) es).or (s.mention_v6 p n e)

/-! ## Between the restart and the marker -/

/-- An event between the two. The peer's session stays up, and its UPDATEs are exact in IPv4. -/
def InWindow_v4 (p : IpAddr) (s : DaemonState) : Event → Prop
  | .Session clk q (.RouteUpdate msg) => q = p → msg.is_eor_v4 = false ∧
    s.tables_v4.Exact p msg.affected (s.heard_ops_v4 clk p msg)
      (if s.Heard p msg then msg.announced else []) ∧
    ∀ m ∈ s.update_moves_v4 clk p msg, s.tables_v4.Renews m
  | .Session _ q _ => q ≠ p
  | .OriginateRoutes _ routes => ∀ r ∈ routes, r.stale = false
  | _ => True

def InWindow_v6 (p : IpAddr) (s : DaemonState) : Event → Prop
  | .Session clk q (.RouteUpdate msg) => q = p → msg.is_eor_v6 = false ∧
    s.tables_v6.Exact p msg.affected_v6 (s.heard_ops_v6 clk p msg)
      (if s.Heard p msg then msg.reached_v6 else []) ∧
    ∀ m ∈ s.update_moves_v6 clk p msg, s.tables_v6.Renews m
  | .Session _ q _ => q ≠ p
  | .OriginateRoutesV6 routes => ∀ r ∈ routes, r.stale = false
  | _ => True

instance (p : IpAddr) (s : DaemonState) (e : Event) : Decidable (InWindow_v4 p s e) := by
  induction e using Event.casesOn with
  | Session _ _ event =>
    induction event using SessionEvent.casesOn <;> dsimp only [InWindow_v4] <;> infer_instance
  | _ => dsimp only [InWindow_v4]; infer_instance

/-! ### The window stays closed -/

theorem mem_deadlines_of_expired {p : IpAddr} (h : p ∈ s.expired now) : p ∈ s.gr.deadlines := by
  obtain ⟨⟨ip, deadline⟩, he, rfl⟩ := List.mem_map.1 h
  exact HashMap.mem_of_lookup (HashMap.mem_entries_iff.1 (List.mem_filter.1 he).1)

theorem unarmed_step {p : IpAddr} (h : p ∉ s.gr.deadlines)
    (he : ∀ clk reason, e ≠ .Session clk p (.Terminated reason)) : p ∉ (s.step e).gr.deadlines := by
  by_cases hkeeps : e.keeps_windows = true
  · rw [(s.sameWindows_step hkeeps).deadlines]
    exact h
  · cases e with
    | Session clk q event =>
      cases event with
      | Established info =>
        change p ∉ (if q ∈ s.max_prefix_idle then (s, none) else
          (s.on_established q info.peer_bgp_id info.peer_type info.peer_capabilities
            info.local_addr, none)).1.gr.deadlines
        split
        · exact h
        · rw [(s.windows_on_established ..).1, AList.mem_erase]
          exact fun h' => h h'.2
      | Terminated reason =>
        have hne : p ≠ q := fun hp => he clk reason (hp ▸ rfl)
        have hother := (s.windows_handle_terminated clk q reason).2.1 p hne
        exact fun hp => h (hother.1 hp)
      | RouteUpdate msg => exact absurd rfl hkeeps
    | GrDeadlines clk =>
      have hw := s.sameWindows_on_gr_deadlines clk
      change p ∉ (s.on_gr_deadlines clk).gr.deadlines
      rw [hw.deadlines]
      exact fun hp => h ((HashMap.mem_erase_all _ _).1 hp).1
    | _ => exact absurd rfl hkeeps

/-! ### The step -/

theorem idle_expiry {A : Type} [IpAddress A] [DecidableEq A] {p : IpAddr} (hd : p ∉ s.gr.deadlines)
    {m : Move A} (hm : m ∈ expiry_moves (s.expired now)) : m.peer? ≠ some p := by
  obtain ⟨q, hq, hm⟩ := List.mem_flatMap.1 hm
  have hne : ¬q = p := fun heq => hd (mem_deadlines_of_expired (heq ▸ hq))
  simp only [List.mem_cons, List.not_mem_nil, or_false] at hm
  rcases hm with rfl | rfl | rfl <;> simpa [Move.peer?] using hne

theorem named_of_heard_v4 {p : IpAddr} {op : ImportOp Ipv4Addr}
    (h : op ∈ s.heard_ops_v4 clk p msg) :
    op.nlri ∈ msg.affected ∧ ∀ raw, op = .Announce raw → raw.stale = false := by
  unfold heard_ops_v4 at h
  split at h
  · next msg' hrr =>
    split at h
    · rw [← (samePrefixes_rr_inbound hrr).affected]
      exact ⟨intake_v4_affected h, fun raw heq => fresh_intake_v4 (heq ▸ h)⟩
    · cases h
  · cases h

theorem named_of_heard_v6 {p : IpAddr} {op : ImportOp Ipv6Addr}
    (h : op ∈ s.heard_ops_v6 clk p msg) :
    op.nlri ∈ msg.affected_v6 ∧ ∀ raw, op = .Announce raw → raw.stale = false := by
  unfold heard_ops_v6 at h
  split at h
  · next msg' hrr =>
    split at h
    · rw [← (samePrefixes_rr_inbound hrr).affected_v6]
      exact ⟨intake_v6_affected h, fun raw heq => fresh_intake_v6 (heq ▸ h)⟩
    · cases h
  · cases h

section

variable {A : Type} [IpAddress A] [DecidableEq A] {t : Tables A} {p : IpAddr}
  {stored : Nlri A → Bool} {ms : List (Move A)}

/-- An UPDATE of the peer, which is heard or dropped. -/
theorem following_message {heard : Prop} [Decidable heard] {named refreshed : List (Nlri A)}
    {ops : List (ImportOp A)} (h : t.Following p stored)
    (hms : (∃ policy rtr reported, heard ∧ ms = [.Hear p policy rtr ops refreshed reported]) ∨
      ms = [] ∧ (named = [] ∨ ¬heard ∧ ops = []))
    (hops : ∀ op ∈ ops, op.nlri ∈ named ∧ ∀ raw, op = .Announce raw → raw.stale = false)
    (hrefreshed : ∀ n ∈ refreshed, n ∈ named)
    (hexact : t.Exact p named ops (if heard then refreshed else []))
    (hrenews : ∀ m ∈ ms, t.Renews m) :
    (t.moves ms).Following p fun n => if n ∈ named then t.stores p ops n else stored n := by
  rcases hms with ⟨policy, rtr, reported, hheard, rfl⟩ | ⟨rfl, hempty⟩
  · rw [if_pos hheard] at hexact
    exact Tables.following_hear h (fun raw hraw => (hops _ hraw).2 raw rfl)
      (fun op hop => (hops op hop).1) hrefreshed hexact (hrenews _ (List.mem_singleton_self _))
  · rcases hempty with rfl | ⟨hnot, rfl⟩
    · exact h
    · rw [if_neg hnot] at hexact
      exact Tables.following_dropped h hexact

/-- An event that is none of the peer's session. -/
theorem following_quiet {family : AfiSafi} {anew : Bool}
    {reads : ImportEnv → UpdateMessage → List (ImportOp A)} {routes : Event → List (Route A)}
    (h : t.Following p stored) (hof : MovesOf s t family anew reads routes e ms)
    (hd : p ∉ s.gr.deadlines) (hsession : ∀ clk q event, e = .Session clk q event → ¬q = p)
    (hknown : ∀ n, (t.held p n).isSome → p ∈ s.adj_ribs_in)
    (hroutes : ∀ r ∈ routes e, r.stale = false) : (t.moves ms).Following p stored := by
  refine Tables.following_idle h fun m hm u hu => ?_
  cases hof with
  | nothing => cases hm
  | up clk info hup =>
    have hne := hsession _ _ _ rfl
    rcases hup with rfl | ⟨-, rfl⟩ <;> cases List.mem_singleton.1 hm <;>
      exact Tables.idle_of_peer (by simpa [Move.peer?] using hne)
  | down clk q reason =>
    refine Tables.idle_of_peer ?_
    rw [peer_of_handled hm]
    simpa using hsession _ _ _ rfl
  | marker clk q msg =>
    refine Tables.idle_of_peer ?_
    rw [peer_of_eor hm]
    simpa using hsession _ _ _ rfl
  | message clk msg hconf =>
    cases List.mem_singleton.1 hm
    exact Tables.idle_of_peer (by simpa [Move.peer?] using hsession _ _ _ rfl)
  | expiry clk => exact Tables.idle_of_peer (idle_expiry hd hm)
  | add tx hnew =>
    cases List.mem_singleton.1 hm
    intro hq n
    rw [hu n]
    by_contra hsome
    exact hnew (hq ▸ hknown n (Option.ne_none_iff_isSome.1 hsome))
  | originate e reported =>
    obtain ⟨r, hr, rfl⟩ := List.mem_map.1 hm
    exact fun _ => hroutes r hr
  | judge e hjudges =>
    have hjudged := hjudges m hm
    cases m <;>
      first | trivial | exact hjudged.elim | exact Tables.idle_of_peer (by simp [Move.peer?])

end

theorem update_moves_v4_eq (s : DaemonState) (clk : Clock) (p : IpAddr)
    (heor : msg.is_eor_v4 = false) :
    (∃ policy rtr reported, s.Heard p msg ∧ s.update_moves_v4 clk p msg
        = [.Hear p policy rtr (s.heard_ops_v4 clk p msg) msg.announced reported]) ∨
      (s.update_moves_v4 clk p msg = [] ∧ (msg.affected = [] ∨
        (¬s.Heard p msg ∧ s.heard_ops_v4 clk p msg = []))) := by
  unfold update_moves_v4 heard_ops_v4 Heard
  rw [heor, if_neg Bool.false_ne_true]
  by_cases h6 : msg.is_eor_v6 = true
  · rw [if_pos h6]
    exact .inr ⟨rfl, .inl (affected_of_eor (.inr h6)).1⟩
  · rw [if_neg h6]
    cases hrr : s.rr_inbound p msg with
    | none => exact .inr ⟨rfl, .inr ⟨by simp, rfl⟩⟩
    | some msg' =>
      dsimp only
      by_cases hconf : s.Configured p
      · refine .inl ⟨(s.env_of clk p).policy, (s.env_of clk p).rpki_v4, !s.overflows clk p msg',
          ⟨hconf, rfl⟩, ?_⟩
        rw [message_moves_v4, if_pos hconf, if_pos hconf, (samePrefixes_rr_inbound hrr).announced]
      · exact .inr ⟨if_neg hconf, .inr ⟨fun h => hconf h.1, if_neg hconf⟩⟩

theorem following_step_v4 {p : IpAddr} {stored : Nlri Ipv4Addr → Bool}
    (h : s.tables_v4.Following p stored) (hd : p ∉ s.gr.deadlines) (hok : s.InWindow_v4 p e) :
    (s.step e).tables_v4.Following p fun n => (s.mention_v4 p n e).getD (stored n) := by
  obtain ⟨h4, -⟩ := s.tables_step e
  rw [h4]
  by_cases hmsg : ∃ clk msg, e = .Session clk p (.RouteUpdate msg)
  · obtain ⟨clk, msg, rfl⟩ := hmsg
    obtain ⟨heor, hexact, hrenews⟩ := hok rfl
    have hmention : ∀ n, (s.mention_v4 p n (.Session clk p (.RouteUpdate msg))).getD (stored n)
        = if n ∈ msg.affected then s.tables_v4.stores p (s.heard_ops_v4 clk p msg) n
          else stored n := by
      intro n
      unfold mention_v4
      simp only [true_and]
      split <;> rfl
    simp only [hmention]
    exact following_message h (s.update_moves_v4_eq clk p heor)
      (fun op hop => named_of_heard_v4 hop) (fun n hn => affected_of_announced hn) hexact hrenews
  · have hnone : ∀ n, s.mention_v4 p n e = none := by
      intro n
      cases e with
      | Session clk q event =>
        cases event with
        | RouteUpdate msg => exact if_neg fun h => hmsg ⟨clk, msg, by rw [h.1]⟩
        | _ => rfl
      | _ => rfl
    simp only [hnone, Option.getD_none]
    refine following_quiet h (s.movesOf_v4 e) hd ?_ (fun n hn => Tables.mem_of_held hn)
      fun r hr => ?_
    · rintro clk q event rfl rfl
      cases event with
      | RouteUpdate msg => exact hmsg ⟨clk, msg, rfl⟩
      | _ => exact hok rfl
    · cases e with
      | OriginateRoutes clk routes => exact hok r hr
      | _ => cases hr

theorem update_moves_v6_eq (s : DaemonState) (clk : Clock) (p : IpAddr)
    (heor : msg.is_eor_v6 = false) :
    (∃ policy rtr reported, s.Heard p msg ∧ s.update_moves_v6 clk p msg
        = [.Hear p policy rtr (s.heard_ops_v6 clk p msg) msg.reached_v6 reported]) ∨
      (s.update_moves_v6 clk p msg = [] ∧ (msg.affected_v6 = [] ∨
        (¬s.Heard p msg ∧ s.heard_ops_v6 clk p msg = []))) := by
  unfold update_moves_v6 heard_ops_v6 Heard
  by_cases h4 : msg.is_eor_v4 = true
  · rw [if_pos h4]
    exact .inr ⟨rfl, .inl (affected_of_eor (.inl h4)).2⟩
  · rw [if_neg h4, heor, if_neg Bool.false_ne_true]
    cases hrr : s.rr_inbound p msg with
    | none => exact .inr ⟨rfl, .inr ⟨by simp, rfl⟩⟩
    | some msg' =>
      dsimp only
      by_cases hconf : s.Configured p
      · refine .inl ⟨(s.env_of clk p).policy_v6, (s.env_of clk p).rpki_v6, !s.overflows clk p msg',
          ⟨hconf, rfl⟩, ?_⟩
        rw [message_moves_v6, if_pos hconf, if_pos hconf, (samePrefixes_rr_inbound hrr).reached_v6]
      · exact .inr ⟨if_neg hconf, .inr ⟨fun h => hconf h.1, if_neg hconf⟩⟩

theorem following_step_v6 {p : IpAddr} {stored : Nlri Ipv6Addr → Bool}
    (h : s.tables_v6.Following p stored) (hd : p ∉ s.gr.deadlines)
    (hknown : ∀ n, (s.tables_v6.held p n).isSome → p ∈ s.adj_ribs_in) (hok : s.InWindow_v6 p e) :
    (s.step e).tables_v6.Following p fun n => (s.mention_v6 p n e).getD (stored n) := by
  obtain ⟨-, h6⟩ := s.tables_step e
  rw [h6]
  by_cases hmsg : ∃ clk msg, e = .Session clk p (.RouteUpdate msg)
  · obtain ⟨clk, msg, rfl⟩ := hmsg
    obtain ⟨heor, hexact, hrenews⟩ := hok rfl
    have hmention : ∀ n, (s.mention_v6 p n (.Session clk p (.RouteUpdate msg))).getD (stored n)
        = if n ∈ msg.affected_v6 then s.tables_v6.stores p (s.heard_ops_v6 clk p msg) n
          else stored n := by
      intro n
      unfold mention_v6
      simp only [true_and]
      split <;> rfl
    simp only [hmention]
    exact following_message h (s.update_moves_v6_eq clk p heor)
      (fun op hop => named_of_heard_v6 hop) (fun n hn => affected_v6_of_reached hn) hexact hrenews
  · have hnone : ∀ n, s.mention_v6 p n e = none := by
      intro n
      cases e with
      | Session clk q event =>
        cases event with
        | RouteUpdate msg => exact if_neg fun h => hmsg ⟨clk, msg, by rw [h.1]⟩
        | _ => rfl
      | _ => rfl
    simp only [hnone, Option.getD_none]
    refine following_quiet h (s.movesOf_v6 e) hd ?_ hknown fun r hr => ?_
    · rintro clk q event rfl rfl
      cases event with
      | RouteUpdate msg => exact hmsg ⟨clk, msg, rfl⟩
      | _ => exact hok rfl
    · cases e with
      | OriginateRoutesV6 routes => exact hok r hr
      | _ => cases hr

/-! ### The run -/

theorem getD_or {o o' : Option Bool} {b : Bool} : (o.or o').getD b = o.getD (o'.getD b) := by
  cases o <;> rfl

theorem following_run_v4 {p : IpAddr} {stored : Nlri Ipv4Addr → Bool}
    (h : s.tables_v4.Following p stored) (hd : p ∉ s.gr.deadlines)
    (hrun : Machine.Guarded step (InWindow_v4 p) s events) :
    (s.run events).tables_v4.Following p fun n =>
      (last_mention_v4 p n s events).getD (stored n) := by
  induction events generalizing s stored with
  | nil => exact h
  | cons e es ih =>
    obtain ⟨hok, hrest⟩ := hrun
    have hstep := following_step_v4 h hd hok
    have hunarmed : p ∉ (s.step e).gr.deadlines := by
      refine unarmed_step hd ?_
      rintro clk reason rfl
      exact hok rfl
    simp only [last_mention_v4, getD_or]
    exact ih hstep hunarmed hrest

theorem following_run_v6 {p : IpAddr} {stored : Nlri Ipv6Addr → Bool}
    (h : s.tables_v6.Following p stored) (hd : p ∉ s.gr.deadlines)
    (hknown : ∀ p n, (s.tables_v6.held p n).isSome → p ∈ s.adj_ribs_in)
    (hrun : Machine.Guarded step (InWindow_v6 p) s events) :
    (s.run events).tables_v6.Following p fun n =>
      (last_mention_v6 p n s events).getD (stored n) := by
  induction events generalizing s stored with
  | nil => exact h
  | cons e es ih =>
    obtain ⟨hok, hrest⟩ := hrun
    have hstep := following_step_v6 h hd (hknown p) hok
    have hunarmed : p ∉ (s.step e).gr.deadlines := by
      refine unarmed_step hd ?_
      rintro clk reason rfl
      exact hok rfl
    simp only [last_mention_v6, getD_or]
    exact ih hstep hunarmed (known_step hknown e) hrest

/-- A run of a peer that comes back: its session comes up in the restart window, and after some
events its End-of-RIB marker arrives. -/
def back (s : DaemonState) (p : IpAddr) (clk : Clock) (info : SessionInfo) : DaemonState :=
  s.step (.Session clk p (.Established info))

/-- **End-of-RIB prunes exactly.** For a peer that comes back within its restart window, with the
family in its list: after its UPDATEs and the End-of-RIB marker the Adj-RIB-In of the family holds
the prefixes whose last mention was a stored announcement, and no candidate of it is stale. -/
theorem end_of_rib_prunes (s : DaemonState) (hs : s.Reachable) (p : IpAddr)
    (hgr : p ∈ s.gr.deadlines) (hidle : p ∉ s.max_prefix_idle) (clk : Clock) (info : SessionInfo)
    (events : List Event) (clk' : Clock) (msg : UpdateMessage) :
    (s.gr_covers p .IPV4_UNICAST = true → msg.is_eor_v4 = true →
      s.tables_v4.StaleAnnounced p →
      Machine.Guarded step (InWindow_v4 p) (s.back p clk info) events →
      let u := ((s.back p clk info).run events).step (.Session clk' p (.RouteUpdate msg))
      (∀ n, (u.tables_v4.held p n).isSome ↔
        last_mention_v4 p n (s.back p clk info) events = some true) ∧
        u.tables_v4.NoStaleCandidate p) ∧
    (s.gr_covers p .IPV6_UNICAST = true → msg.is_eor_v6 = true → s.tables_v6.StaleAnnounced p →
      Machine.Guarded step (InWindow_v6 p) (s.back p clk info) events →
      let u := ((s.back p clk info).run events).step (.Session clk' p (.RouteUpdate msg))
      (∀ n, (u.tables_v6.held p n).isSome ↔
        last_mention_v6 p n (s.back p clk info) events = some true) ∧
        u.tables_v6.NoStaleCandidate p) := by
  have hback : s.back p clk info = s.on_established p info.peer_bgp_id info.peer_type
      info.peer_capabilities info.local_addr := by
    change (if p ∈ s.max_prefix_idle then (s, none) else _).1 = _
    rw [if_neg hidle]
  obtain ⟨hm4, hm6⟩ := s.moved_on_established p info.peer_bgp_id info.peer_type
    info.peer_capabilities info.local_addr
  have hd : p ∉ (s.back p clk info).gr.deadlines := by
    rw [hback, (s.windows_on_established ..).1, AList.mem_erase]
    exact fun h => h.1 rfl
  have hkept : ∀ family, s.gr_covers p family = true → s.kept_over_restart p family = true := by
    intro family hcov
    unfold kept_over_restart
    rw [decide_eq_true hgr, Bool.true_and]
    exact hcov
  have hsome : ∀ o : Option Bool, o.getD false = true ↔ o = some true := by
    intro o
    cases o with
    | none => simp
    | some b => simp
  rw [← hback] at hm4 hm6
  constructor
  · -- marked when the session comes up, followed over the window, pruned by the marker
    intro hcov heor hheld hrun u
    rw [established_moves_v4, if_pos (hkept _ hcov)] at hm4
    have hstart := Tables.following_marked hheld
    rw [← hm4] at hstart
    have hend := Tables.exact_eor (following_run_v4 hstart hd hrun)
    have hu : u.tables_v4 = _ := (moved_on_route_update _ clk' p msg).1
    rw [update_moves_v4, if_pos heor] at hu
    rw [hu]
    simp only [← hsome]
    exact hend
  · intro hcov heor hheld hrun u
    rw [established_moves_v6, if_pos (hkept _ hcov)] at hm6
    have hstart := Tables.following_marked hheld
    rw [← hm6] at hstart
    have hknown := (hs.run [.Session clk p (.Established info)]).known
    have hend := Tables.exact_eor (following_run_v6 hstart hd hknown hrun)
    have hu : u.tables_v6 = _ := (moved_on_route_update _ clk' p msg).2
    rw [update_moves_v6, if_neg (by rw [eor_v6_not_v4 heor]; exact Bool.false_ne_true),
      if_pos heor] at hu
    rw [hu]
    simp only [← hsome]
    exact hend

end DaemonState

/-! ## Two restarts -/

/-- What 10.0.0.2 says when it is back, up to the marker: one prefix again, another for the first
time and away again. -/
def said_again : List Event :=
  [update_from 2 0 (announcement [65002] [Nlri.v4 10 0 0 0 8, Nlri.v4 10 2 0 0 16]),
    update_from 2 0 ⟨[Nlri.v4 10 2 0 0 16], [], []⟩]

def back_info : SessionInfo :=
  ⟨Ipv4Addr.new 10 0 0 2, .External, [.GracefulRestart 0 120 [⟨.IPV4_UNICAST, true⟩]], none⟩

theorem said_again_kept :
    let u := (((in_restart .Accept).back (peer_addr 2) ⟨0, 0⟩ back_info).run said_again).step
      (update_from 2 0 ⟨[], [], []⟩)
    (∀ n, (u.tables_v4.held (peer_addr 2) n).isSome ↔ DaemonState.last_mention_v4 (peer_addr 2) n
      ((in_restart .Accept).back (peer_addr 2) ⟨0, 0⟩ back_info) said_again = some true) ∧
      u.tables_v4.NoStaleCandidate (peer_addr 2) := by
  have hreach : (in_restart .Accept).Reachable :=
    (reachable_small_daemon [open_peer 2 65002] none [] _).run _
  exact (DaemonState.end_of_rib_prunes (in_restart .Accept) hreach (peer_addr 2)
    (by decide +kernel) (by decide +kernel) ⟨0, 0⟩ back_info said_again ⟨0, 0⟩ ⟨[], [], []⟩).1
    (by decide +kernel) (by decide) (by decide +kernel) (by decide +kernel)

/-- The prefix is announced again in MP_REACH_NLRI, and is pruned. It is announced again with our
own AS in its path, which is dropped, and its old route outlives the marker. -/
theorem said_again_lost :
    ((in_restart .Accept).Reachable ∧ peer_addr 2 ∈ (in_restart .Accept).gr.deadlines ∧
      (in_restart .Accept).gr_covers (peer_addr 2) .IPV4_UNICAST = true ∧
      (in_restart .Accept).tables_v4.StaleAnnounced (peer_addr 2)) ∧
    (let events := [update_from 2 0 ⟨[], [.Origin .Igp, .AsPath (AsPath.from_sequence [65002]),
        .MpReachNlri ⟨.IPV4_UNICAST, .V4 (Ipv4Addr.new 192 0 2 1), [.V4 (Nlri.v4 10 0 0 0 8)]⟩],
        []⟩]
      let s := (in_restart .Accept).back (peer_addr 2) ⟨0, 0⟩ back_info
      DaemonState.last_mention_v4 (peer_addr 2) (Nlri.v4 10 0 0 0 8) s events = some true ∧
        ((s.run events).step (update_from 2 0 ⟨[], [], []⟩)).tables_v4.held (peer_addr 2)
          (Nlri.v4 10 0 0 0 8) = none) ∧
    (let events := [update_from 2 0 (announcement [65002, 65001] [Nlri.v4 10 0 0 0 8])]
      let s := (in_restart .Accept).back (peer_addr 2) ⟨0, 0⟩ back_info
      let u := (s.run events).step (update_from 2 0 ⟨[], [], []⟩)
      DaemonState.last_mention_v4 (peer_addr 2) (Nlri.v4 10 0 0 0 8) s events = some false ∧
        (u.tables_v4.held (peer_addr 2) (Nlri.v4 10 0 0 0 8)).isSome ∧
        u.tables_v4.stale_candidate (peer_addr 2) (Nlri.v4 10 0 0 0 8) = true) := by
  refine ⟨⟨(reachable_small_daemon [open_peer 2 65002] none [] _).run _, ?_⟩, ?_, ?_⟩
  · decide +kernel
  · decide +kernel
  · decide +kernel

end Pathvector

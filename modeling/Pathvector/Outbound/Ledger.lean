/-
# The way of a decision to its peer

What the daemon keeps for the IPv4 routes of one peer is a `Ledger`: the Adj-RIB-Out, the
channel, the decisions that wait for `flush_pending`, and what the MRAI gate remembers. Three
kinds of step write it. Buffered propagation decides and appends to what waits, with the gate in
between for an external peer. The direct path and the table dumps decide and put the decisions
on the channel at once. And messages that say nothing about IPv4 routes go on the channel.

Three things are followed through these steps: the order in which decisions reach the channel
(`Ordered`), what they add up to (`Heard`), and what the messages on the channel add up to
(`Faithful`). A direct step must not decide anew about a prefix with a decision waiting, which
would then arrive after the newer one; this is the one condition (`Step.direct`).
-/
import Pathvector.Outbound.Decision
import Mathlib.Logic.Relation

set_option autoImplicit false

namespace Pathvector

variable {p : Nlri Ipv4Addr} {d : PrefixDecision Ipv4Addr}

open Table

/-! ## A loop of decisions -/

/-- A loop body that decides for one session: a prefix is skipped, or its entry becomes
`target`. -/
def Decider (f : Nlri Ipv4Addr → AdjRibOut Ipv4Addr → AdjRibOut Ipv4Addr × PrefixDecision Ipv4Addr)
    (session : OutSession) (skip : Nlri Ipv4Addr → Bool)
    (target : Nlri Ipv4Addr → Option (Route Ipv4Addr)) : Prop :=
  ∀ n out, out.session = session →
    DecidesTo out n (if skip n then out.get n else target n) (f n out)

namespace Decider

variable {f : Nlri Ipv4Addr → AdjRibOut Ipv4Addr → AdjRibOut Ipv4Addr × PrefixDecision Ipv4Addr}
  {session : OutSession} {skip : Nlri Ipv4Addr → Bool}
  {target : Nlri Ipv4Addr → Option (Route Ipv4Addr)}
variable {out : AdjRibOut Ipv4Addr} {p : Nlri Ipv4Addr}

section

variable (hf : Decider f session skip target) (ns : List (Nlri Ipv4Addr))
  (hout : out.session = session)
include hf hout

theorem session_decide_all : (decide_all f ns out).1.session = session := by
  induction ns generalizing out with
  | nil => exact hout
  | cons n ns ih => exact ih ((hf n out hout).sets.session.trans hout)

theorem made_decide_all (p : Nlri Ipv4Addr) :
    about p (decide_all f ns out).1.made = about p out.made ++ about p (decide_all f ns out).2 := by
  induction ns generalizing out with
  | nil => simp [decide_all]
  | cons n ns ih =>
    have hd := hf n out hout
    have hrest := ih (hd.sets.session.trans hout)
    rw [hd.made p, List.append_assoc, ← about_append] at hrest
    exact hrest

/-- A peer that had the old table and is given the decisions has the new one. -/
theorem told_decide_all {given : List (PrefixDecision Ipv4Addr)} (h : told given p = out.get p) :
    told (given ++ (decide_all f ns out).2) p = (decide_all f ns out).1.get p := by
  induction ns generalizing out given with
  | nil => simpa [decide_all] using h
  | cons n ns ih =>
    have hd := hf n out hout
    have hnext : told (given ++ [(f n out).2]) p = (f n out).1.get p := by
      rw [told_snoc, hd.get_eq p, h]
    have hrest := ih (hd.sets.session.trans hout) hnext
    rw [List.append_assoc] at hrest
    exact hrest

/-- A prefix that is not listed, skipped or already on target is not decided about. -/
theorem about_decide_all (h : p ∈ ns → skip p = true ∨ target p = out.get p) :
    about p (decide_all f ns out).2 = [] ∧ (decide_all f ns out).1.get p = out.get p := by
  induction ns generalizing out with
  | nil => exact ⟨rfl, rfl⟩
  | cons n ns ih =>
    have hd := hf n out hout
    have hnot : (f n out).2.nlri? ≠ some p := by
      rw [ne_eq, hd.nlri_eq_iff]
      rintro ⟨rfl, hne⟩
      apply hne
      rcases h (List.mem_cons_self ..) with hs | ht
      · rw [if_pos hs]
      · split
        · rfl
        · exact ht.symm
    have hget : (f n out).1.get p = out.get p := by
      rw [hd.get_eq p, if_neg hnot]
    obtain ⟨hds, hlast⟩ := ih (hd.sets.session.trans hout) fun hp => by
      rw [hget]
      exact h (List.mem_cons_of_mem _ hp)
    refine ⟨?_, hlast.trans hget⟩
    show about p ([(f n out).2] ++ (decide_all f ns (f n out).1).2) = []
    rw [about_append, about_singleton, if_neg hnot, hds]
    rfl

end

theorem length_about_decide_all (hf : Decider f session skip target) {ns : List (Nlri Ipv4Addr)}
    (hns : ns.Nodup) (hout : out.session = session) (p : Nlri Ipv4Addr) :
    (about p (decide_all f ns out).2).length ≤ 1 := by
  induction ns generalizing out with
  | nil => simp [decide_all]
  | cons n ns ih =>
    obtain ⟨hn, hns⟩ := List.nodup_cons.1 hns
    have hd := hf n out hout
    have hsess := hd.sets.session.trans hout
    show (about p ([(f n out).2] ++ (decide_all f ns (f n out).1).2)).length ≤ 1
    rw [about_append, List.length_append]
    by_cases hp : (f n out).2.nlri? = some p
    · -- the rest of the loop does not come back to this prefix
      obtain ⟨rfl, -⟩ := (hd.nlri_eq_iff p).1 hp
      rw [(hf.about_decide_all ns hsess fun h => absurd h hn).1, about_singleton, if_pos hp]
      simp
    · rw [about_singleton, if_neg hp, List.length_nil, Nat.zero_add]
      exact ih hns hsess

end Decider

/-! ## The MRAI gate -/

theorem MraiState.gate_of_ne (now : ℕ) (m : MraiState) (h : d.nlri? ≠ some p) :
    (MraiState.gate now m d).2.nlri? ≠ some p ∧
      (p ∈ (MraiState.gate now m d).1.pending ↔ p ∈ m.pending) ∧
      (MraiState.gate now m d).1.last_sent.lookup p = m.last_sent.lookup p := by
  cases d with
  | Announce r =>
    have hp : p ≠ r.nlri := fun hp => h (congrArg some hp.symm)
    simp only [MraiState.gate]
    split
    · exact ⟨h, by simp [AList.mem_erase, hp], AList.lookup_insert_ne hp⟩
    · exact ⟨by simp [PrefixDecision.nlri?], by simp [HashSet.mem_add, hp], rfl⟩
  | Withdraw n =>
    have hp : p ≠ n := fun hp => h (congrArg some hp.symm)
    exact ⟨h, by simp [MraiState.gate, AList.mem_erase, hp], AList.lookup_erase_ne hp⟩
  | NoChange => exact ⟨h, Iff.rfl, rfl⟩

/-- A decision about a prefix passes the gate, or the prefix is put on the waiting list. -/
theorem MraiState.gate_of_eq (now : ℕ) (m : MraiState) (h : d.nlri? = some p) :
    (MraiState.gate now m d).2 = d ∨
      (MraiState.gate now m d).2 = .NoChange ∧ p ∈ (MraiState.gate now m d).1.pending := by
  cases d with
  | Announce r =>
    obtain rfl : r.nlri = p := Option.some.inj h
    simp only [MraiState.gate]
    split
    · exact .inl rfl
    · exact .inr ⟨rfl, HashSet.mem_add.2 (.inl rfl)⟩
  | Withdraw n => exact .inl rfl
  | NoChange => exact .inl rfl

/-- The gate in a loop: what a peer is given adds up to its table, unless the prefix is on the
waiting list. -/
theorem Decider.told_gate_all
    {f : Nlri Ipv4Addr → AdjRibOut Ipv4Addr → AdjRibOut Ipv4Addr × PrefixDecision Ipv4Addr}
    {session : OutSession} {skip : Nlri Ipv4Addr → Bool}
    {target : Nlri Ipv4Addr → Option (Route Ipv4Addr)} (hf : Decider f session skip target)
    (now : ℕ) (ns : List (Nlri Ipv4Addr)) {out : AdjRibOut Ipv4Addr} (hout : out.session = session)
    {m : MraiState} {given : List (PrefixDecision Ipv4Addr)}
    (h : told given p = out.get p ∨ p ∈ m.pending) :
    told (given ++ (MraiState.gate_all now m (decide_all f ns out).2).2) p
        = (decide_all f ns out).1.get p ∨
      p ∈ (MraiState.gate_all now m (decide_all f ns out).2).1.pending := by
  induction ns generalizing out m given with
  | nil => simpa [decide_all, MraiState.gate_all] using h
  | cons n ns ih =>
    have hd := hf n out hout
    have hnext : told (given ++ [(MraiState.gate now m (f n out).2).2]) p = (f n out).1.get p ∨
        p ∈ (MraiState.gate now m (f n out).2).1.pending := by
      rw [told_snoc, hd.get_eq p]
      by_cases hp : (f n out).2.nlri? = some p
      · rcases MraiState.gate_of_eq now m hp with heq | ⟨-, hmem⟩
        · left
          rw [heq, if_pos hp, if_pos hp]
        · exact .inr hmem
      · obtain ⟨hne, hmem, -⟩ := MraiState.gate_of_ne now m hp
        rw [if_neg hne, if_neg hp, hmem]
        exact h
    have hrest := ih (hd.sets.session.trans hout) hnext
    rw [List.append_assoc] at hrest
    exact hrest

/-! ## The ledger of a peer -/

/-- What the daemon keeps for the IPv4 routes of one peer. -/
structure Ledger where
  out : Option (AdjRibOut Ipv4Addr)
  tx : Option UpdateSender
  waiting : List (PrefixDecision Ipv4Addr)
  mrai : MraiState
  stalled : Bool

namespace Ledger

/-- The decisions made in this session, oldest first. -/
def made (l : Ledger) : List (PrefixDecision Ipv4Addr) := l.out.elim [] AdjRibOut.made

/-- The decisions put on the channel, in the order they were. -/
def handed (l : Ledger) : List (PrefixDecision Ipv4Addr) := l.tx.elim [] fun tx => tx.handed.flatten

def entry (l : Ledger) (p : Nlri Ipv4Addr) : Option (Route Ipv4Addr) := l.out.bind (·.get p)

/-- A decision about a prefix waits for `flush_pending`. -/
def Waits (l : Ledger) (p : Nlri Ipv4Addr) : Prop := about p l.waiting ≠ []

/-- What buffered propagation makes of a ledger. -/
def buffered (peer_type : PeerType) (now : ℕ)
    (r : AdjRibOut Ipv4Addr × List (PrefixDecision Ipv4Addr)) (l : Ledger) : Ledger :=
  let g := if peer_type = .External then MraiState.gate_all now l.mrai r.2 else (l.mrai, r.2)
  { l with out := some r.1, waiting := l.waiting ++ g.2, mrai := g.1 }

/-- What a flush makes of a ledger. -/
def flushed (r : Bool × UpdateSender) (l : Ledger) : Ledger :=
  { l with tx := some r.2, stalled := l.stalled || !r.1 }

/-- The steps that write the ledger of a session with a given type and AS number size. -/
inductive Step (peer_type : PeerType) (four_byte : Bool) : Ledger → Ledger → Prop where
  | buffer {l : Ledger} {out : AdjRibOut Ipv4Addr}
      {f : Nlri Ipv4Addr → AdjRibOut Ipv4Addr → AdjRibOut Ipv4Addr × PrefixDecision Ipv4Addr}
      {skip : Nlri Ipv4Addr → Bool} {target : Nlri Ipv4Addr → Option (Route Ipv4Addr)}
      (now : ℕ) (ns : List (Nlri Ipv4Addr)) (hout : l.out = some out)
      (hf : Decider f out.session skip target) :
      Step peer_type four_byte l (l.buffered peer_type now (decide_all f ns out))
  | direct {l : Ledger} {out : AdjRibOut Ipv4Addr} {tx : UpdateSender}
      {f : Nlri Ipv4Addr → AdjRibOut Ipv4Addr → AdjRibOut Ipv4Addr × PrefixDecision Ipv4Addr}
      {skip : Nlri Ipv4Addr → Bool} {target : Nlri Ipv4Addr → Option (Route Ipv4Addr)}
      {ns : List (Nlri Ipv4Addr)} (max_len : ℕ) (hout : l.out = some out) (htx : l.tx = some tx)
      (hf : Decider f out.session skip target) (hns : ns.Nodup)
      (hfree : ∀ n ∈ ns, l.Waits n → skip n = true ∨ target n = out.get n) :
      Step peer_type four_byte l
        (flushed (flush_updates (decide_all f ns out).2 max_len tx peer_type four_byte)
          { l with out := some (decide_all f ns out).1 })
  | aside {l : Ledger} {tx : UpdateSender} (ms : List UpdateMessage) (htx : l.tx = some tx)
      (hms : ∀ m ∈ ms, m.edits = []) :
      Step peer_type four_byte l (l.flushed (tx.send_all ms))

end Ledger

/-! ## The channel -/

namespace UpdateSender

theorem handed_send_all (tx : UpdateSender) (ms : List UpdateMessage) :
    (tx.send_all ms).2.handed = tx.handed := by
  induction ms generalizing tx with
  | nil => rfl
  | cons m ms ih =>
    rw [send_all]
    split
    · rfl
    · exact ih { tx with room := tx.room - 1, sent := tx.sent ++ [m] }

theorem handed_flush_updates (ds : List (PrefixDecision Ipv4Addr)) (max_len : ℕ)
    (tx : UpdateSender) (peer_type : PeerType) (four_byte : Bool) :
    (flush_updates ds max_len tx peer_type four_byte).2.handed.flatten
      = tx.handed.flatten ++ ds := by
  unfold flush_updates
  rw [handed_send_all]
  simp

end UpdateSender

theorem receive_append (T : Table (Nlri Ipv4Addr) PathBytes) (ms ms' : List UpdateMessage) :
    receive T (ms ++ ms') = receive (receive T ms) ms' := by
  unfold receive
  rw [List.flatMap_append, edits_append]

theorem receive_of_no_edits (T : Table (Nlri Ipv4Addr) PathBytes) {ms : List UpdateMessage}
    (h : ∀ m ∈ ms, m.edits = []) : receive T ms = T := by
  unfold receive
  rw [List.flatMap_eq_nil_iff.2 h]
  rfl

theorem orderSafe_of_distinct {V : Type} [DecidableEq V] (wire : Route Ipv4Addr → V)
    {ds : List (PrefixDecision Ipv4Addr)} (h : ∀ p, (about p ds).length ≤ 1) :
    OrderSafe wire ds := by
  intro p
  have hsame : ∀ d ∈ about p ds, ∀ d' ∈ about p ds, d = d' := by
    intro d hd d' hd'
    have hp := h p
    match hlist : about p ds with
    | [] =>
      rw [hlist] at hd
      exact absurd hd (List.not_mem_nil)
    | [x] =>
      rw [hlist, List.mem_singleton] at hd hd'
      rw [hd, hd']
    | x :: y :: rest =>
      rw [hlist, List.length_cons, List.length_cons] at hp
      omega
  have hann : ∀ r ∈ announcements ds, r.nlri = p → .Announce r ∈ about p ds := by
    intro r hr hp
    exact mem_about.2 ⟨mem_announcements.1 hr, congrArg some hp⟩
  unfold OrderSafeAt
  split
  · rename_i n hlast
    intro r hr hp
    have heq := hsame _ (hann r hr hp) _ (mem_about.2 (last_decision_mem hlast))
    cases heq
  · rename_i r hlast
    intro r' hr' hp
    have heq := hsame _ (hann r' hr' hp) _ (mem_about.2 (last_decision_mem hlast))
    rw [PrefixDecision.Announce.inj heq]
  · trivial

namespace Ledger

variable {peer_type : PeerType} {four_byte : Bool} {l l' : Ledger}

/-! ## What the steps keep -/

theorem Step.session (h : Step peer_type four_byte l l') :
    l'.out.map AdjRibOut.session = l.out.map AdjRibOut.session ∧ l'.tx.isSome = l.tx.isSome := by
  cases h with
  | buffer now ns hout hf =>
    refine ⟨?_, rfl⟩
    rw [hout]
    exact congrArg some (hf.session_decide_all ns rfl)
  | direct max_len hout htx hf hns hfree =>
    rw [hout, htx]
    exact ⟨congrArg some (hf.session_decide_all _ rfl), rfl⟩
  | aside ms htx hms =>
    rw [htx]
    exact ⟨rfl, rfl⟩

theorem handed_flushed (r : Bool × UpdateSender) (l : Ledger) :
    (l.flushed r).handed = r.2.handed.flatten := rfl

/-! ## The order of decisions -/

/-- What is on the channel and what waits is, for each prefix, what has been decided, in the
order of the decisions. -/
def Ordered (l : Ledger) : Prop := ∀ p, about p (l.handed ++ l.waiting) = about p l.made

theorem Step.ordered (h : Step peer_type four_byte l l') (hpt : peer_type ≠ .External)
    (hl : l.Ordered) : l'.Ordered := by
  cases h with
  | @buffer out f _ _ now ns hout hf =>
    intro p
    have hp := hl p
    have hmade := hf.made_decide_all ns rfl p
    simp only [made, hout, Option.elim_some] at hp
    simp only [buffered, if_neg hpt, made, Option.elim_some]
    show about p (l.handed ++ (l.waiting ++ _)) = _
    rw [← List.append_assoc, about_append, hp, hmade]
  | @direct out tx f _ _ ns max_len hout htx hf hns hfree =>
    intro p
    have hp := hl p
    have hmade := hf.made_decide_all ns rfl p
    simp only [made, handed, hout, htx, Option.elim_some, about_append] at hp
    show about p (_ ++ l.waiting) = about p (decide_all f ns out).1.made
    rw [handed_flushed, UpdateSender.handed_flush_updates, hmade, ← hp]
    by_cases hw : l.Waits p
    · -- nothing new is said about a prefix with a decision waiting
      rw [about_append, about_append, (hf.about_decide_all ns rfl fun hmem => hfree p hmem hw).1]
      simp
    · rw [Waits, ne_eq, not_not] at hw
      rw [about_append, about_append, hw]
      simp
  | @aside tx ms htx hms =>
    intro p
    have hp := hl p
    simp only [handed, htx, Option.elim_some] at hp
    show about p (_ ++ l.waiting) = about p l.made
    rw [handed_flushed, UpdateSender.handed_send_all]
    exact hp

/-! ## What the decisions add up to -/

/-- A peer that follows what is on the channel and what waits has the entry of the Adj-RIB-Out,
unless the prefix is on the waiting list of the gate. -/
def Heard (peer_type : PeerType) (l : Ledger) (p : Nlri Ipv4Addr) : Prop :=
  told (l.handed ++ l.waiting) p = l.entry p ∨ peer_type = .External ∧ p ∈ l.mrai.pending

theorem Step.heard (h : Step peer_type four_byte l l') (hl : l.Heard peer_type p) :
    l'.Heard peer_type p := by
  cases h with
  | @buffer out f _ _ now ns hout hf =>
    unfold Heard buffered entry at *
    simp only [hout, Option.bind_some] at hl
    by_cases hpt : peer_type = .External
    · simp only [hpt, true_and, Option.bind_some] at hl ⊢
      show told (l.handed ++ (l.waiting ++ _)) p = _ ∨ _
      rw [← List.append_assoc]
      exact hf.told_gate_all now ns rfl hl
    · simp only [hpt, false_and, or_false, Option.bind_some] at hl ⊢
      show told (l.handed ++ (l.waiting ++ _)) p = _
      rw [← List.append_assoc]
      exact hf.told_decide_all ns rfl hl
  | @direct out tx f _ _ ns max_len hout htx hf hns hfree =>
    refine hl.imp_left fun hl => ?_
    simp only [entry, handed, hout, htx, Option.bind_some, Option.elim_some] at hl
    show told (_ ++ l.waiting) p = (decide_all f ns out).1.get p
    rw [handed_flushed, UpdateSender.handed_flush_updates]
    by_cases hw : l.Waits p
    · obtain ⟨hds, hget⟩ := hf.about_decide_all ns rfl fun hmem => hfree p hmem hw
      rw [hget, ← hl]
      unfold told
      simp only [about_append, hds, List.append_nil]
    · -- the decisions that wait say nothing about this prefix
      rw [Waits, ne_eq, not_not] at hw
      rw [told_append, if_pos hw] at hl ⊢
      exact hf.told_decide_all ns rfl hl
  | @aside tx ms htx hms =>
    refine hl.imp_left fun hl => ?_
    simp only [handed, htx, Option.elim_some] at hl
    show told (_ ++ l.waiting) p = l.entry p
    rw [handed_flushed, UpdateSender.handed_send_all]
    exact hl

/-! ## What the messages add up to -/

/-- As long as the channel took every message, the messages on it say what the decisions on it
say. -/
def Faithful (peer_type : PeerType) (four_byte : Bool) (l : Ledger) : Prop :=
  l.stalled = false → ∀ tx, l.tx = some tx →
    receive (fun _ => none) tx.sent
      = Table.edits (fun _ => none) (decision_edits (wire peer_type four_byte) tx.handed.flatten)

theorem faithful_flush_updates {ds : List (PrefixDecision Ipv4Addr)} {tx : UpdateSender}
    (hl : l.Faithful peer_type four_byte) (htx : l.tx = some tx)
    (hds : OrderSafe (wire peer_type four_byte) ds) (out : Option (AdjRibOut Ipv4Addr))
    (waiting : List (PrefixDecision Ipv4Addr)) (max_len : ℕ) :
    (flushed (flush_updates ds max_len tx peer_type four_byte)
      { l with out := out, waiting := waiting }).Faithful peer_type four_byte := by
  rintro hst _ ⟨⟩
  obtain ⟨hst, hok⟩ := Bool.or_eq_false_iff.1 hst
  rw [Bool.not_eq_false'] at hok
  rw [UpdateSender.handed_flush_updates]
  unfold flush_updates at hok ⊢
  rw [(send_all_spec _ _).2 hok]
  show receive _ (tx.sent ++ update_messages ds max_len peer_type four_byte) = _
  rw [receive_append, hl hst tx htx, (update_messages_table_iff _ ds max_len _ _).2 hds,
    ← edits_append]
  unfold decision_edits
  rw [List.flatMap_append]

theorem faithful_send_all {ms : List UpdateMessage} {tx : UpdateSender}
    (hl : l.Faithful peer_type four_byte) (htx : l.tx = some tx) (hms : ∀ m ∈ ms, m.edits = []) :
    (l.flushed (tx.send_all ms)).Faithful peer_type four_byte := by
  rintro hst _ ⟨⟩
  obtain ⟨hst, hok⟩ := Bool.or_eq_false_iff.1 hst
  rw [Bool.not_eq_false'] at hok
  rw [(send_all_spec _ _).2 hok]
  show receive _ (tx.sent ++ ms) = _
  rw [receive_append, receive_of_no_edits _ hms]
  exact hl hst tx htx

theorem Step.faithful (h : Step peer_type four_byte l l') (hl : l.Faithful peer_type four_byte) :
    l'.Faithful peer_type four_byte := by
  cases h with
  | buffer now ns hout hf => exact hl
  | @direct out tx f _ _ ns max_len hout htx hf hns hfree =>
    apply faithful_flush_updates hl htx
    exact orderSafe_of_distinct _ (hf.length_about_decide_all hns rfl)
  | aside ms htx hms => exact faithful_send_all hl htx hms

end Ledger

end Pathvector

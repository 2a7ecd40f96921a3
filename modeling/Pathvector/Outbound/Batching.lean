/-
# What a batch of decisions means to its receiver

`flush_updates` does not send decisions one by one. It sends all withdrawals first,
then the announcements grouped by their encoded attributes, the groups in the order in
which their attributes are first seen, each group cut to the negotiated message size.

This file says what the receiver of those messages ends up with, and compares it with
what the decisions say in list order. Cutting by size never matters
(`update_messages_edits`). Reordering does: the two tables agree exactly for the lists
that are `OrderSafe` (`flush_updates_table_iff`).
-/
import Pathvector.Daemon.Outbound
import Pathvector.Lib.Table

set_option autoImplicit false

namespace Pathvector

open Table

/-! ## The receiver -/

/-- What a receiver knows about a prefix: the path attributes it was announced with, as
they are on the wire. -/
abbrev PathBytes : Type := List UInt8

/-- The edits of one UPDATE: its withdrawals, then its announcements. -/
def UpdateMessage.edits (m : UpdateMessage) : List (Edit (Nlri Ipv4Addr) PathBytes) :=
  m.withdrawn.map Edit.del ++ m.announced.map fun n => Edit.set n (encode_attributes m.attributes)

/-- The table a receiver obtains by applying UPDATEs in order. -/
def receive (T : Table (Nlri Ipv4Addr) PathBytes) (ms : List UpdateMessage) :
    Table (Nlri Ipv4Addr) PathBytes :=
  T.edits (ms.flatMap UpdateMessage.edits)

/-- The attributes of a route as its announcement carries them. -/
def wire (peer_type : PeerType) (peer_four_byte : Bool) (r : Route Ipv4Addr) : PathBytes :=
  encode_attributes (route_to_attributes r peer_type peer_four_byte)

/-! ## The decisions -/

section

variable {A : Type} [IpAddress A]
variable {ds : List (PrefixDecision A)} {V : Type}

/-- The prefix a decision is about. -/
def PrefixDecision.nlri? : PrefixDecision A → Option (Nlri A)
  | .Announce r => some r.nlri
  | .Withdraw n => some n
  | .NoChange => none

/-- What a decision asks for, taken by itself. -/
def PrefixDecision.edits (wire : Route A → V) :
    PrefixDecision A → List (Edit (Nlri A) V)
  | .Announce r => [.set r.nlri (wire r)]
  | .Withdraw n => [.del n]
  | .NoChange => []

/-- What a list of decisions asks for, in list order. -/
def decision_edits (wire : Route A → V) (ds : List (PrefixDecision A)) : List (Edit (Nlri A) V) :=
  ds.flatMap (PrefixDecision.edits wire)

variable [DecidableEq A]

section

variable (wire : Route A → V) (p : Nlri A)

/-- The last decision about a prefix. -/
def last_decision (ds : List (PrefixDecision A)) : Option (PrefixDecision A) :=
  ds.reverse.find? fun d => d.nlri? = some p

/-- The position at which attributes are first announced in a list of decisions. -/
def first_seen [DecidableEq V] (ds : List (PrefixDecision A)) (v : V) : ℕ :=
  ((announcements ds).map wire).idxOf v

/-- One prefix survives batching: if its last decision is a withdrawal it is nowhere
announced, and if its last decision is an announcement it is nowhere announced with
attributes that are first seen after the last ones. -/
def OrderSafeAt [DecidableEq V] (ds : List (PrefixDecision A)) (p : Nlri A) : Prop :=
  match last_decision p ds with
  | some (.Withdraw _) => ∀ r ∈ announcements ds, r.nlri ≠ p
  | some (.Announce r) => ∀ r' ∈ announcements ds, r'.nlri = p →
      first_seen wire ds (wire r') ≤ first_seen wire ds (wire r)
  | _ => True

/-- **The lists that survive batching.** -/
def OrderSafe [DecidableEq V] (ds : List (PrefixDecision A)) : Prop :=
  ∀ p, OrderSafeAt wire ds p

omit [DecidableEq A] in
theorem mem_announcements {r : Route A} : r ∈ announcements ds ↔ .Announce r ∈ ds := by
  rw [announcements, List.mem_filterMap]
  constructor
  · rintro ⟨d, hd, hr⟩
    cases d with
    | Announce r' =>
      rw [Option.some.injEq] at hr
      rwa [← hr]
    | Withdraw _ => cases hr
    | NoChange => cases hr
  · intro h
    exact ⟨_, h, rfl⟩

omit [DecidableEq A] in
theorem mem_withdrawals {n : Nlri A} : n ∈ withdrawals ds ↔ .Withdraw n ∈ ds := by
  rw [withdrawals, List.mem_filterMap]
  constructor
  · rintro ⟨d, hd, hn⟩
    cases d with
    | Withdraw n' =>
      rw [Option.some.injEq] at hn
      rwa [← hn]
    | Announce _ => cases hn
    | NoChange => cases hn
  · intro h
    exact ⟨_, h, rfl⟩

theorem last_decision_mem {p : Nlri A} {d : PrefixDecision A} (h : last_decision p ds = some d) :
    d ∈ ds ∧ d.nlri? = some p := by
  have hmem := List.mem_of_find?_eq_some h
  have hkey := List.find?_some h
  exact ⟨List.mem_reverse.1 hmem, of_decide_eq_true hkey⟩

instance {V : Type} [DecidableEq V] (wire : Route A → V) (ds : List (PrefixDecision A))
    (p : Nlri A) : Decidable (OrderSafeAt wire ds p) := by
  unfold OrderSafeAt
  exact match last_decision p ds with
    | some (.Withdraw _) => inferInstanceAs (Decidable (∀ _ ∈ _, _))
    | some (.Announce _) => inferInstanceAs (Decidable (∀ _ ∈ _, _))
    | some .NoChange => .isTrue trivial
    | none => .isTrue trivial

theorem orderSafe_iff [DecidableEq V] (ds : List (PrefixDecision A)) :
    OrderSafe wire ds ↔ ∀ p ∈ ds.filterMap PrefixDecision.nlri?, OrderSafeAt wire ds p := by
  constructor
  · intro h p _
    exact h p
  · intro h p
    by_cases hp : p ∈ ds.filterMap PrefixDecision.nlri?
    · exact h p hp
    · have hlast : last_decision p ds = none := by
        rw [Option.eq_none_iff_forall_ne_some]
        intro d hd
        obtain ⟨hmem, hkey⟩ := last_decision_mem hd
        exact hp (List.mem_filterMap.2 ⟨d, hmem, hkey⟩)
      unfold OrderSafeAt
      rw [hlast]
      trivial

instance {V : Type} [DecidableEq V] (wire : Route A → V) (ds : List (PrefixDecision A)) :
    Decidable (OrderSafe wire ds) :=
  decidable_of_iff _ (orderSafe_iff wire ds).symm

theorem lastEdit_decision_edits (ds : List (PrefixDecision A)) :
    lastEdit p (decision_edits wire ds)
      = (last_decision p ds).map fun
        | .Announce r => some (wire r)
        | _ => none := by
  induction ds using List.reverseRecOn with
  | nil => rfl
  | append_singleton ds d ih =>
    have hlast : last_decision p (ds ++ [d])
        = if d.nlri? = some p then some d else last_decision p ds := by
      by_cases h : d.nlri? = some p <;> simp [h, last_decision]
    rw [decision_edits, List.flatMap_append, List.flatMap_singleton, lastEdit_append,
      ← decision_edits, ih, hlast]
    cases d with
    | NoChange => simp [PrefixDecision.edits, PrefixDecision.nlri?, lastEdit]
    | Announce r =>
      by_cases h : r.nlri = p
      · simp [PrefixDecision.edits, PrefixDecision.nlri?, lastEdit, h, Edit.key, Edit.value]
      · simp [PrefixDecision.edits, PrefixDecision.nlri?, lastEdit, h, Ne.symm h, Edit.key]
    | Withdraw n =>
      by_cases h : n = p
      · simp [PrefixDecision.edits, PrefixDecision.nlri?, lastEdit, h, Edit.key, Edit.value]
      · simp [PrefixDecision.edits, PrefixDecision.nlri?, lastEdit, h, Ne.symm h, Edit.key]

end

end

/-! ## The messages -/

section

variable {A : Type} [IpAddress A]

/-- Cutting a list of prefixes into batches loses nothing and keeps the order. -/
theorem split_batches_flatten (max_len base : ℕ) (ns batch : List (Nlri A)) (bytes : ℕ) :
    (split_batches max_len base ns batch bytes).flatten = batch ++ ns := by
  induction ns generalizing batch bytes with
  | nil =>
    rw [split_batches]
    split
    · rename_i h
      rw [List.isEmpty_iff.1 h]
      rfl
    · rw [List.flatten_singleton, List.append_nil]
  | cons n ns ih =>
    rw [split_batches]
    split
    · rw [List.flatten_cons, ih, List.singleton_append]
    · rw [ih, List.append_assoc, List.singleton_append]

theorem flatMap_batches {W : Type} {msg : List (Nlri A) → UpdateMessage}
    {edits : UpdateMessage → List W} {e : Nlri A → W}
    (h : ∀ batch, edits (msg batch) = batch.map e) (bs : List (List (Nlri A))) :
    (bs.map msg).flatMap edits = bs.flatten.map e := by
  rw [List.flatMap_map, List.flatMap_def, List.map_flatten, List.map_congr_left fun b _ => h b]

variable (key attrs_of : Route A → List PathAttribute)

section

variable {n : Nlri A} {g : AnnounceGroup A} (ds : List (PrefixDecision A)) (bytes : List UInt8)

theorem map_push_announce (attrs : List PathAttribute) (n : Nlri A) (gs : List (AnnounceGroup A)) :
    (push_announce bytes attrs n gs).map (fun g => (g.attr_bytes, g.nlris))
      = groupPush bytes n (gs.map fun g => (g.attr_bytes, g.nlris)) := by
  induction gs with
  | nil => rfl
  | cons g gs ih =>
    rw [push_announce, List.map_cons, groupPush]
    split
    · rfl
    · rw [List.map_cons, ih]

/-- The grouping loop of `flush_updates` is the general one, with the encoded attributes
as the value written. -/
theorem map_foldl_push_announce (rs : List (Route A)) :
    (rs.foldl (fun gs r => push_announce (encode_attributes (key r)) (attrs_of r) r.nlri gs)
        []).map (fun g => (g.attr_bytes, g.nlris))
      = groupAll (rs.map fun r => (encode_attributes (key r), r.nlri)) := by
  rw [groupAll]
  induction rs using List.reverseRecOn with
  | nil => rfl
  | append_singleton rs r ih =>
    rw [List.foldl_append, List.map_append, List.foldl_append, ← ih]
    exact map_push_announce _ _ _ _

theorem mem_push_announce {bytes : List UInt8} {attrs : List PathAttribute}
    {gs : List (AnnounceGroup A)} (hg : g ∈ push_announce bytes attrs n gs) :
    (∃ g' ∈ gs, g'.attr_bytes = g.attr_bytes ∧ g'.attrs = g.attrs) ∨
      g.attr_bytes = bytes ∧ g.attrs = attrs ∧ ∀ g' ∈ gs, g'.attr_bytes ≠ bytes := by
  induction gs with
  | nil =>
    rw [push_announce, List.mem_singleton] at hg
    subst hg
    exact .inr ⟨rfl, rfl, fun g' hg' => absurd hg' List.not_mem_nil⟩
  | cons g₀ gs ih =>
    rw [push_announce] at hg
    by_cases h : g₀.attr_bytes = bytes
    · rw [if_pos h, List.mem_cons] at hg
      obtain rfl | hg := hg
      · exact .inl ⟨g₀, List.mem_cons_self, rfl, rfl⟩
      · exact .inl ⟨g, List.mem_cons_of_mem _ hg, rfl, rfl⟩
    · rw [if_neg h, List.mem_cons] at hg
      obtain rfl | hg := hg
      · exact .inl ⟨g, List.mem_cons_self, rfl, rfl⟩
      · obtain ⟨g', hg', hsame⟩ | ⟨hb, ha, hnone⟩ := ih hg
        · exact .inl ⟨g', List.mem_cons_of_mem _ hg', hsame⟩
        · exact .inr ⟨hb, ha, List.forall_mem_cons.2 ⟨h, hnone⟩⟩

/-- The first route of a list of decisions whose key has the given bytes. -/
def opener : Option (Route A) :=
  (announcements ds).find? fun r => encode_attributes (key r) = bytes

theorem announce_groups_opener :
    ∀ g ∈ announce_groups key attrs_of ds,
      ∃ r, opener key ds g.attr_bytes = some r ∧ g.attrs = attrs_of r := by
  rw [announce_groups]
  unfold opener
  induction announcements ds using List.reverseRecOn with
  | nil => exact fun g hg => absurd hg List.not_mem_nil
  | append_singleton rs r ih =>
    intro g hg
    rw [List.foldl_append] at hg
    rw [List.find?_append]
    obtain ⟨g', hg', hb, ha⟩ | ⟨hb, ha, hnew⟩ := mem_push_announce hg
    · obtain ⟨r', hr', hattrs⟩ := ih g' hg'
      rw [← hb, hr']
      exact ⟨r', rfl, ha ▸ hattrs⟩
    · -- No earlier route has these bytes, or there would be a group for them.
      have hnone : rs.find? (fun r => encode_attributes (key r) = g.attr_bytes) = none := by
        rw [List.find?_eq_none]
        intro r' hr' heq
        have hin : Grouped (groupAll (rs.map fun r => (encode_attributes (key r), r.nlri)))
            (encode_attributes (key r')) r'.nlri :=
          grouped_all.2 (List.mem_map.2 ⟨r', hr', rfl⟩)
        rw [← map_foldl_push_announce key attrs_of] at hin
        obtain ⟨ks, hks, -⟩ := hin
        obtain ⟨g', hg', hpair⟩ := List.mem_map.1 hks
        rw [Prod.mk.injEq] at hpair
        exact hnew g' hg' ((hpair.1.trans (of_decide_eq_true heq)).trans hb)
      rw [hnone, Option.none_or]
      refine ⟨r, ?_, ha⟩
      simp [hb]

/-- A prefix is in the group of the attributes it was announced with. -/
theorem announce_groups_member {ds : List (PrefixDecision A)}
    (hg : g ∈ announce_groups key attrs_of ds) (hn : n ∈ g.nlris) :
    ∃ r ∈ announcements ds, encode_attributes (key r) = g.attr_bytes ∧ r.nlri = n := by
  have hin : Grouped (groupAll ((announcements ds).map fun r =>
      (encode_attributes (key r), r.nlri))) g.attr_bytes n := by
    rw [← map_foldl_push_announce key attrs_of]
    exact ⟨g.nlris, List.mem_map.2 ⟨g, hg, rfl⟩, hn⟩
  obtain ⟨r, hr, heq⟩ := List.mem_map.1 (grouped_all.1 hin)
  rw [Prod.mk.injEq] at heq
  exact ⟨r, hr, heq⟩

/-- Grouping by the attributes themselves, a group is keyed by its own bytes. -/
theorem announce_groups_bytes :
    ∀ g ∈ announce_groups attrs_of attrs_of ds, g.attr_bytes = encode_attributes g.attrs := by
  intro g hg
  obtain ⟨r, hr, hattrs⟩ := announce_groups_opener attrs_of attrs_of ds g hg
  have hbytes := List.find?_some hr
  rw [hattrs, of_decide_eq_true hbytes]

end

end

/-- What the messages of a flush say, message after message: every withdrawal, then the
announcements of each group. The message size shows nowhere. -/
theorem update_messages_edits (ds : List (PrefixDecision Ipv4Addr)) (max_len : ℕ)
    (peer_type : PeerType) (peer_four_byte : Bool) :
    (update_messages ds max_len peer_type peer_four_byte).flatMap UpdateMessage.edits
      = (withdrawals ds).map Edit.del
        ++ groupWrites (groupAll
            ((announcements ds).map fun r => (wire peer_type peer_four_byte r, r.nlri))) := by
  have hgroups := map_foldl_push_announce (fun r => route_to_attributes r peer_type peer_four_byte)
    (fun r => route_to_attributes r peer_type peer_four_byte) (announcements ds)
  have hw : ∀ batch, (⟨batch, [], []⟩ : UpdateMessage).edits = batch.map Edit.del := by
    intro batch
    simp [UpdateMessage.edits]
  have ha : ∀ attrs batch, (⟨[], attrs, batch⟩ : UpdateMessage).edits
      = batch.map fun n => Edit.set n (encode_attributes attrs) := by
    intro attrs batch
    simp [UpdateMessage.edits]
  rw [update_messages, List.flatMap_append, flatMap_batches hw, split_batches_flatten,
    List.nil_append]
  congr 1
  simp only [wire]
  rw [← hgroups, groupWrites, List.flatMap_map, List.flatMap_assoc]
  refine List.flatMap_congr fun g hg => ?_
  rw [flatMap_batches (ha g.attrs), split_batches_flatten, List.nil_append,
    announce_groups_bytes _ _ g hg]

/-! ## The channel -/

/-- A flush succeeds exactly when its messages fit the channel, and then all of them are
on it. -/
theorem send_all_spec (tx : UpdateSender) (ms : List UpdateMessage) :
    ((tx.send_all ms).1 = true ↔ ms.length ≤ tx.room)
      ∧ ((tx.send_all ms).1 = true → (tx.send_all ms).2
          = { tx with room := tx.room - ms.length, sent := tx.sent ++ ms }) := by
  induction ms generalizing tx with
  | nil => simp [UpdateSender.send_all]
  | cons m ms ih =>
    rw [UpdateSender.send_all]
    split
    · rename_i h
      simp [h]
    · obtain ⟨ih1, ih2⟩ := ih { tx with room := tx.room - 1, sent := tx.sent ++ [m] }
      refine ⟨?_, fun hok => ?_⟩
      · rw [ih1, List.length_cons]
        show ms.length ≤ tx.room - 1 ↔ _
        omega
      · rw [ih2 hok, UpdateSender.mk.injEq]
        refine ⟨?_, ?_, rfl⟩
        · show tx.room - 1 - ms.length = tx.room - (ms.length + 1)
          omega
        · rw [List.append_assoc, List.singleton_append]

theorem send_all_sent (tx : UpdateSender) (ms : List UpdateMessage) :
    (tx.send_all ms).2.sent = tx.sent ++ ms.take tx.room := by
  induction ms generalizing tx with
  | nil => simp [UpdateSender.send_all]
  | cons m ms ih =>
    rw [UpdateSender.send_all]
    split
    · next h => simp [h]
    · next h =>
      obtain ⟨room, hroom⟩ := Nat.exists_eq_succ_of_ne_zero h
      rw [ih, hroom]
      simp

/-- The messages put on a channel between two of its states. -/
def UpdateSender.since (tx' tx : UpdateSender) : List UpdateMessage :=
  tx'.sent.drop tx.sent.length

theorem flush_updates_since {ds : List (PrefixDecision Ipv4Addr)} {max_len : ℕ}
    {tx : UpdateSender} {peer_type : PeerType} {peer_four_byte : Bool}
    (hok : (flush_updates ds max_len tx peer_type peer_four_byte).1 = true) :
    (flush_updates ds max_len tx peer_type peer_four_byte).2.since tx
      = update_messages ds max_len peer_type peer_four_byte := by
  rw [flush_updates] at hok ⊢
  rw [(send_all_spec _ _).2 hok, UpdateSender.since]
  exact List.drop_left

/-! ## The main result -/

section

variable {A V : Type} [IpAddress A] [DecidableEq A] [DecidableEq V] (wire : Route A → V)
  (ds : List (PrefixDecision A)) (p : Nlri A)

theorem lastEdit_batch_none :
    lastEdit p ((withdrawals ds).map Edit.del
        ++ groupWrites (groupAll ((announcements ds).map fun r => (wire r, r.nlri)))) = none ↔
      lastEdit p (decision_edits wire ds) = none := by
  rw [lastEdit_append, Option.or_eq_none_iff, lastEdit_groupAll_none, lastEdit_map_del,
    lastEdit_decision_edits, Option.map_eq_none_iff, last_decision, List.find?_eq_none]
  constructor
  · rintro ⟨hann, hwd⟩ d hd
    rw [List.mem_reverse] at hd
    cases d with
    | NoChange => simp [PrefixDecision.nlri?]
    | Announce r =>
      intro hp
      rw [PrefixDecision.nlri?, decide_eq_true_eq, Option.some.injEq] at hp
      subst hp
      exact hann (wire r) (List.mem_map.2 ⟨r, mem_announcements.2 hd, rfl⟩)
    | Withdraw n =>
      intro hp
      rw [PrefixDecision.nlri?, decide_eq_true_eq, Option.some.injEq] at hp
      subst hp
      rw [if_pos (mem_withdrawals.2 hd)] at hwd
      cases hwd
  · intro h
    refine ⟨fun v hv => ?_, if_neg fun hmem => ?_⟩
    · obtain ⟨r, hr, heq⟩ := List.mem_map.1 hv
      rw [Prod.mk.injEq] at heq
      exact h _ (List.mem_reverse.2 (mem_announcements.1 hr))
        (by rw [PrefixDecision.nlri?, heq.2, decide_eq_true_eq])
    · exact h _ (List.mem_reverse.2 (mem_withdrawals.1 hmem))
        (by rw [PrefixDecision.nlri?, decide_eq_true_eq])

/-- At one prefix, a batch leaves what the decisions ask for exactly when the prefix
meets its clause of `OrderSafe`. -/
theorem lastEdit_batch_iff :
    lastEdit p ((withdrawals ds).map Edit.del
        ++ groupWrites (groupAll ((announcements ds).map fun r => (wire r, r.nlri))))
        = lastEdit p (decision_edits wire ds) ↔ OrderSafeAt wire ds p := by
  have hnone := lastEdit_batch_none wire ds p
  rw [lastEdit_decision_edits] at hnone ⊢
  rw [OrderSafeAt]
  cases hlast : last_decision p ds with
  | none =>
    rw [hlast] at hnone
    exact iff_of_true (hnone.2 rfl) trivial
  | some d =>
    obtain ⟨hmem, hkey⟩ := last_decision_mem hlast
    rw [lastEdit_append, lastEdit_map_del, Option.map_some]
    cases d with
    | NoChange => cases hkey
    | Withdraw n =>
      rw [PrefixDecision.nlri?, Option.some.injEq] at hkey
      subst hkey
      rw [if_pos (mem_withdrawals.2 hmem)]
      -- The withdrawals go first, so any announcement of the prefix overrides them.
      constructor
      · intro h r hr hn
        cases hgroup : lastEdit n (groupWrites (groupAll
            ((announcements ds).map fun r => (wire r, r.nlri)))) with
        | none =>
          rw [lastEdit_groupAll_none] at hgroup
          exact hgroup (wire r) (List.mem_map.2 ⟨r, hr, by rw [hn]⟩)
        | some v =>
          rw [hgroup, Option.some_or, Option.some.injEq] at h
          subst h
          exact absurd hgroup (lastEdit_groupWrites_ne_del _ _)
      · intro h
        rw [(lastEdit_groupAll_none _ _).2, Option.none_or]
        intro v hv
        obtain ⟨r, hr, heq⟩ := List.mem_map.1 hv
        rw [Prod.mk.injEq] at heq
        exact h r hr heq.2
    | Announce r =>
      rw [PrefixDecision.nlri?, Option.some.injEq] at hkey
      subst hkey
      have hin : (wire r, r.nlri) ∈ (announcements ds).map fun r => (wire r, r.nlri) :=
        List.mem_map.2 ⟨r, mem_announcements.2 hmem, rfl⟩
      have hiff := lastEdit_groupAll ((announcements ds).map fun r => (wire r, r.nlri))
        r.nlri (wire r)
      have hsome : lastEdit r.nlri (groupWrites (groupAll
          ((announcements ds).map fun r => (wire r, r.nlri)))) ≠ none := by
        intro h
        exact (lastEdit_groupAll_none _ _).1 h _ hin
      obtain ⟨v, hv⟩ := Option.ne_none_iff_exists'.1 hsome
      rw [hv, Option.some_or, ← hv, hiff]
      simp only [List.map_map, Function.comp_def]
      constructor
      · rintro ⟨-, hmax⟩ r' hr' hn
        exact hmax (wire r') (List.mem_map.2 ⟨r', hr', by rw [hn]⟩)
      · intro hmax
        refine ⟨hin, fun w hw => ?_⟩
        obtain ⟨r', hr', heq⟩ := List.mem_map.1 hw
        rw [Prod.mk.injEq] at heq
        rw [← heq.1]
        exact hmax r' hr' heq.2

end

theorem update_messages_table_iff (T : Table (Nlri Ipv4Addr) PathBytes)
    (ds : List (PrefixDecision Ipv4Addr)) (max_len : ℕ) (peer_type : PeerType)
    (peer_four_byte : Bool) :
    receive T (update_messages ds max_len peer_type peer_four_byte)
        = T.edits (decision_edits (wire peer_type peer_four_byte) ds) ↔
      OrderSafe (wire peer_type peer_four_byte) ds := by
  rw [receive, update_messages_edits,
    edits_eq_iff T _ _ (lastEdit_batch_none (wire peer_type peer_four_byte) ds)]
  exact forall_congr' (lastEdit_batch_iff (wire peer_type peer_four_byte) ds)

/-- **Batching, exactly.** Whatever table `T` the receiver starts from, if no send fails,
the UPDATEs of a flush leave it with the table the decisions describe in list order
exactly when the list is `OrderSafe`. -/
theorem flush_updates_table_iff (ds : List (PrefixDecision Ipv4Addr)) (max_len : ℕ)
    (tx : UpdateSender) (peer_type : PeerType) (peer_four_byte : Bool)
    (T : Table (Nlri Ipv4Addr) PathBytes)
    (hok : (flush_updates ds max_len tx peer_type peer_four_byte).1 = true) :
    receive T ((flush_updates ds max_len tx peer_type peer_four_byte).2.since tx)
        = T.edits (decision_edits (wire peer_type peer_four_byte) ds) ↔
      OrderSafe (wire peer_type peer_four_byte) ds := by
  rw [flush_updates_since hok]
  exact update_messages_table_iff T ds max_len peer_type peer_four_byte

/-- The announcement of a prefix with a path. -/
def announce (p : Nlri Ipv4Addr) (asns : List Asn) : PrefixDecision Ipv4Addr :=
  .Announce (Route.build p .Igp (AsPath.from_sequence asns) 0)

/-- 10.0.0.0/8 is withdrawn and announced twice, with 172.16.0.0/12 in between. -/
def announce_again : List (PrefixDecision Ipv4Addr) :=
  [.Withdraw (Nlri.v4 10 0 0 0 8), announce (Nlri.v4 10 0 0 0 8) [65002],
    announce (Nlri.v4 172 16 0 0 12) [65002], announce (Nlri.v4 10 0 0 0 8) [65002, 65003]]

/-- The path that came last is announced last. -/
theorem flush_updates_table_announce_again :
    receive (fun _ => none)
        ((flush_updates announce_again MAX_LEN ⟨256, [], []⟩ .Internal true).2.since
          ⟨256, [], []⟩)
      = Table.edits (fun _ => none) (decision_edits (wire .Internal true) announce_again) :=
  (flush_updates_table_iff announce_again MAX_LEN ⟨256, [], []⟩ .Internal true (fun _ => none)
    (by decide +kernel)).2 (by decide +kernel)

/-- One prefix announced and then withdrawn before the flush: the decisions of two
UPDATEs that arrive in one burst. -/
def announce_then_withdraw : List (PrefixDecision Ipv4Addr) :=
  [announce (Nlri.v4 10 0 0 0 8) [65002], .Withdraw (Nlri.v4 10 0 0 0 8)]

/-- The withdrawal is sent first, so the receiver keeps a route that is gone. -/
theorem flush_updates_revives_withdrawn :
    (flush_updates announce_then_withdraw MAX_LEN ⟨256, [], []⟩ .Internal true).1 = true
      ∧ receive (fun _ => none)
          ((flush_updates announce_then_withdraw MAX_LEN ⟨256, [], []⟩ .Internal true).2.since
            ⟨256, [], []⟩)
        ≠ Table.edits (fun _ => none)
            (decision_edits (wire .Internal true) announce_then_withdraw) := by
  refine ⟨by decide +kernel, fun h => ?_⟩
  have hp := congrFun h (Nlri.v4 10 0 0 0 8)
  revert hp
  decide +kernel

end Pathvector

/-
# The size of the UPDATEs of a flush

`flush_updates` keeps a running count of the octets of the message it is filling and closes the
message before a prefix that would not fit. The count is the length the encoder will produce, so
whatever fits alone is sent in messages that fit (`update_messages_fit`). The IPv6 withdrawals are
counted with the longest attribute header, which errs on the safe side.

The IPv6 announcements are not counted at all: a group is one message, however many prefixes share
its attributes. So the messages of a flush fit exactly when the groups do, and the size of a group
can be read off the decisions (`group_octets`).
-/
import Pathvector.Outbound.BatchingV6
import Pathvector.Wire.Framing

set_option autoImplicit false

namespace Pathvector

open Table Wire

section

variable {A : Type} [IpAddress A]

/-! ## What the encoder writes -/

/-- The octets of a list of prefixes, as the flush counts them. -/
def nlri_bytes (ns : List (Nlri A)) : ℕ := (ns.map nlri_encoded_len).sum

theorem nlri_bytes_append (ns ns' : List (Nlri A)) :
    nlri_bytes (ns ++ ns') = nlri_bytes ns + nlri_bytes ns' := by
  rw [nlri_bytes, List.map_append, List.sum_append, nlri_bytes, nlri_bytes]

theorem nlri_bytes_singleton (n : Nlri A) : nlri_bytes [n] = nlri_encoded_len n :=
  List.sum_singleton

theorem length_flatMap_encode {encode : Nlri A → List UInt8}
    (h : ∀ n, (encode n).length = nlri_encoded_len n) (ns : List (Nlri A)) :
    (ns.flatMap encode).length = nlri_bytes ns := by
  rw [List.length_flatMap, nlri_bytes]
  exact congrArg List.sum (List.map_congr_left fun n _ => h n)

end

/-- The count of `flush_updates` is the length of the message. -/
theorem length_encode_update (m : UpdateMessage) :
    m.encode.length = UPDATE_FIXED_OVERHEAD + nlri_bytes m.withdrawn
      + (encode_attributes m.attributes).length + nlri_bytes m.announced := by
  have hnlris : ∀ ns : List (Nlri Ipv4Addr), (encode_nlri_list_v4 ns).length = nlri_bytes ns :=
    length_flatMap_encode (length_encode_nlri rfl)
  rw [UpdateMessage.encode, length_with_header, UpdateMessage.encode_body]
  simp only [List.length_append, length_be_bytes, hnlris, HEADER_LEN, UPDATE_FIXED_OVERHEAD]
  omega

theorem length_encode_one_path_attr (attr : PathAttribute) :
    (encode_one_path_attr attr).length
      = (if 255 < (encode_attr_value attr).2.length then 4 else 3)
        + (encode_attr_value attr).2.length := by
  unfold encode_one_path_attr
  generalize encode_attr_value attr = e
  dsimp only
  split
  · simp only [List.length_append, List.length_cons, length_be_bytes]
  · simp only [List.length_cons]
    omega

/-- The count of the IPv6 withdrawals is not below the length of the message. -/
theorem length_encode_mp_unreach_v6 (ns : List (Nlri Ipv6Addr)) :
    (mp_unreach_v6 ns).encode.length ≤ UPDATE_FIXED_OVERHEAD + (4 + 3) + nlri_bytes ns := by
  have hvalue : (encode_attr_value (.MpUnreachNlri ⟨.IPV6_UNICAST, ns.map .V6⟩)).2.length
      = 3 + nlri_bytes ns := by
    have hns : (ns.flatMap encode_nlri_v6).length = nlri_bytes ns :=
      length_flatMap_encode (length_encode_nlri rfl) ns
    show (encode_afi_safi _ ++ (ns.map Prefix.V6).flatMap encode_prefix).length = _
    rw [List.length_append, List.flatMap_map, ← hns]
    rfl
  have hattr := length_encode_one_path_attr (.MpUnreachNlri ⟨.IPV6_UNICAST, ns.map .V6⟩)
  have hencode := length_encode_update (mp_unreach_v6 ns)
  simp only [mp_unreach_v6, encode_attributes, List.flatMap_singleton] at hencode
  have hnil : nlri_bytes ([] : List (Nlri Ipv4Addr)) = 0 := rfl
  rw [mp_unreach_v6]
  split at hattr <;> omega

section

variable (peer_type : PeerType) (four_byte : Bool) (ds : List (PrefixDecision Ipv6Addr))

/-- The octets of the UPDATE in which the IPv6 prefixes with the given attribute block are
announced: the block, MP_REACH_NLRI with its next hop, and the prefixes. -/
def group_octets (bytes : PathBytes) : ℕ :=
  let value := 5 + (encode_next_hop (group_wire peer_type four_byte ds bytes).1).length
    + nlri_bytes (sharing peer_type four_byte ds bytes)
  UPDATE_FIXED_OVERHEAD + bytes.length + ((if 255 < value then 4 else 3) + value)

theorem length_encode_group {g : AnnounceGroup Ipv6Addr}
    (hg : g ∈ groups_v6 peer_type four_byte ds) :
    (mp_reach_v6 g).encode.length = group_octets peer_type four_byte ds g.attr_bytes := by
  obtain ⟨r, -, hkey, hwire, hmsg⟩ := mp_reach_v6_group peer_type four_byte ds hg
  have hvalue : ∀ ns : List (Nlri Ipv6Addr), (encode_attr_value (.MpReachNlri
        ⟨.IPV6_UNICAST, sent_next_hop peer_type four_byte r, ns.map .V6⟩)).2.length
      = 5 + (encode_next_hop (sent_next_hop peer_type four_byte r)).length + nlri_bytes ns := by
    intro ns
    have hns : (ns.flatMap encode_nlri_v6).length = nlri_bytes ns :=
      length_flatMap_encode (length_encode_nlri rfl) ns
    show (encode_afi_safi _ ++ [_] ++ encode_next_hop _ ++ [0]
      ++ (ns.map Prefix.V6).flatMap encode_prefix).length = _
    rw [List.length_append, List.flatMap_map]
    show _ + (ns.flatMap encode_nlri_v6).length = _
    rw [hns]
    simp only [encode_afi_safi, List.length_append, length_be_bytes, List.length_singleton]
    omega
  have hblock : (encode_attributes (route_to_attributes_with [] r peer_type four_byte)).length
      = g.attr_bytes.length := congrArg List.length hkey
  rw [hmsg, length_encode_update, group_octets, hwire, groups_v6_nlris _ _ _ hg, encode_attributes,
    List.flatMap_append, List.flatMap_singleton, List.length_append, ← encode_attributes, hblock,
    length_encode_one_path_attr, hvalue]
  simp only [nlri_bytes, List.map_nil, List.sum_nil]
  omega

end

/-! ## The batching loop -/

section

variable {A : Type} [IpAddress A] {max_len base : ℕ}

/-- A batch that can be closed: it fits, or holds a single prefix. -/
def Closable (max_len base : ℕ) (ns b : List (Nlri A)) : Prop :=
  (∃ n ∈ ns, b = [n]) ∨ base + nlri_bytes b ≤ max_len

theorem Closable.mono {ns ns' b : List (Nlri A)} (h : Closable max_len base ns b)
    (hsub : ns ⊆ ns') : Closable max_len base ns' b :=
  h.imp_left fun ⟨n, hn, hb⟩ => ⟨n, hsub hn, hb⟩

/-- Every batch can be closed: the count is right for the open one, and no second prefix is put
where it does not fit. -/
theorem split_batches_closable (ns batch : List (Nlri A)) {bytes : ℕ}
    (hbytes : bytes = base + nlri_bytes batch)
    (h : batch ≠ [] → Closable max_len base batch batch) :
    ∀ b ∈ split_batches max_len base ns batch bytes, Closable max_len base (batch ++ ns) b := by
  induction ns generalizing batch bytes with
  | nil =>
    intro b hb
    rw [split_batches] at hb
    split at hb
    · cases hb
    · next hne =>
      rw [List.isEmpty_iff] at hne
      rw [List.mem_singleton.1 hb, List.append_nil]
      exact h hne
  | cons n ns ih =>
    intro b hb
    have hone : Closable max_len base [n] [n] := .inl ⟨n, List.mem_singleton_self n, rfl⟩
    rw [split_batches] at hb
    split at hb
    · next hfull =>
      rw [Bool.and_eq_true, Bool.not_eq_true', List.isEmpty_eq_false_iff] at hfull
      rcases List.mem_cons.1 hb with rfl | hb
      · exact (h hfull.1).mono (List.subset_append_left _ _)
      · have hrest := ih [n] (by rw [nlri_bytes_singleton]) (fun _ => hone) b hb
        exact hrest.mono (List.subset_append_right _ _)
    · next hroom =>
      rw [Bool.and_eq_true, Bool.not_eq_true', List.isEmpty_eq_false_iff, decide_eq_true_eq,
        not_and, Nat.not_lt] at hroom
      have hcount : bytes + nlri_encoded_len n = base + nlri_bytes (batch ++ [n]) := by
        rw [nlri_bytes_append, nlri_bytes_singleton, hbytes, Nat.add_assoc]
      rw [List.append_cons]
      refine ih (batch ++ [n]) hcount (fun _ => ?_) b hb
      by_cases hb : batch = []
      · rw [hb]
        exact hone
      · exact .inr (hcount ▸ hroom hb)

theorem split_batches_fit (ns : List (Nlri A)) :
    ∀ b ∈ split_batches max_len base ns [] base, Closable max_len base ns b :=
  split_batches_closable ns [] rfl fun h => absurd rfl h

end

/-! ## The messages -/

/-- Every message is short enough. -/
def Fits (max_len : ℕ) (ms : List UpdateMessage) : Prop := ∀ m ∈ ms, m.encode.length ≤ max_len
deriving Decidable

section

variable (peer_type : PeerType) (four_byte : Bool) {max_len : ℕ}

/-- **IPv4 messages fit** if every decision fits alone. -/
theorem update_messages_fit {ds : List (PrefixDecision Ipv4Addr)}
    (h : ∀ d ∈ ds, Fits max_len (update_messages [d] max_len peer_type four_byte)) :
    Fits max_len (update_messages ds max_len peer_type four_byte) := by
  intro m hm
  rw [update_messages, List.mem_append] at hm
  rw [length_encode_update]
  rcases hm with hm | hm
  · obtain ⟨b, hb, rfl⟩ := List.mem_map.1 hm
    rcases split_batches_fit _ b hb with ⟨n, hn, rfl⟩ | hfit
    · have halone := h _ (mem_withdrawals.1 hn) ⟨[n], [], []⟩ (List.mem_singleton.2 rfl)
      rwa [length_encode_update] at halone
    · exact hfit
  · obtain ⟨g, hg, hm⟩ := List.mem_flatMap.1 hm
    obtain ⟨b, hb, rfl⟩ := List.mem_map.1 hm
    have hbytes := announce_groups_bytes _ ds g hg
    rcases split_batches_fit _ b hb with ⟨n, hn, rfl⟩ | hfit
    · obtain ⟨r, hr, hkey, rfl⟩ := announce_groups_member _ _ hg hn
      have halone := h _ (mem_announcements.1 hr) ⟨[], _, [r.nlri]⟩ (List.mem_singleton.2 rfl)
      rw [length_encode_update] at halone
      rwa [← hbytes, ← hkey]
    · rw [← hbytes]
      exact hfit

/-- The IPv6 messages fit if every decision fits alone and every group does. -/
theorem update_messages_v6_fit_iff {ds : List (PrefixDecision Ipv6Addr)}
    (h : ∀ d ∈ ds, Fits max_len (update_messages_v6 [d] max_len peer_type four_byte)) :
    Fits max_len (update_messages_v6 ds max_len peer_type four_byte) ↔
      ∀ r ∈ announcements ds,
        group_octets peer_type four_byte ds (group_key peer_type four_byte r) ≤ max_len := by
  constructor
  · intro hfits r hr
    obtain ⟨g, hg, hkey⟩ := exists_group_v6 peer_type four_byte ds hr
    have hfit := hfits _ (List.mem_append_right _ (List.mem_map.2 ⟨g, hg, rfl⟩))
    rwa [length_encode_group peer_type four_byte ds hg, hkey] at hfit
  · intro hgroups m hm
    rw [update_messages_v6, List.mem_append] at hm
    rcases hm with hm | hm
    · obtain ⟨b, hb, rfl⟩ := List.mem_map.1 hm
      rcases split_batches_fit _ b hb with ⟨n, hn, rfl⟩ | hfit
      · exact h _ (mem_withdrawals.1 hn) (mp_unreach_v6 [n]) (List.mem_singleton.2 rfl)
      · exact (length_encode_mp_unreach_v6 b).trans hfit
    · obtain ⟨g, hg, rfl⟩ := List.mem_map.1 hm
      obtain ⟨r, hr, hkey, -⟩ := mp_reach_v6_group peer_type four_byte ds hg
      rw [length_encode_group peer_type four_byte ds hg, ← hkey]
      exact hgroups r hr

end

/-! ## The prefixes -/

section

variable {A V : Type} [IpAddress A]

/-- A prefix, and whether it is announced or withdrawn. -/
def PrefixDecision.mark? : PrefixDecision A → Option (Nlri A × Bool)
  | .Announce r => some (r.nlri, true)
  | .Withdraw n => some (n, false)
  | .NoChange => none

/-- The same of an edit. -/
def sent_prefixes (es : List (Edit (Nlri A) V)) : List (Nlri A × Bool) :=
  es.map fun e => (e.key, e.value.isSome)

theorem perm_mark (ds : List (PrefixDecision A)) :
    (ds.filterMap PrefixDecision.mark?).Perm
      ((withdrawals ds).map (·, false) ++ (announcements ds).map (·.nlri, true)) := by
  induction ds with
  | nil => exact .refl _
  | cons d ds ih =>
    cases d with
    | Announce r => exact (ih.cons (r.nlri, true)).trans List.perm_middle.symm
    | Withdraw n => exact ih.cons (n, false)
    | NoChange => exact ih

/-- A batch names every prefix as often as its decisions do. -/
theorem perm_sent_prefixes_batch [DecidableEq V] (wire : Route A → V)
    (ds : List (PrefixDecision A)) :
    (sent_prefixes ((withdrawals ds).map Edit.del
        ++ groupWrites (groupAll ((announcements ds).map fun r => (wire r, r.nlri))))).Perm
      (ds.filterMap PrefixDecision.mark?) := by
  refine List.Perm.trans ?_ (perm_mark ds).symm
  have hgroups := groupWrites_groupAll_perm ((announcements ds).map fun r => (wire r, r.nlri))
  refine ((hgroups.append_left _).map _).trans (.of_eq ?_)
  rw [List.map_append, List.map_map, List.map_map, List.map_map]
  rfl

end

/-! ## Every message is sent -/

section

variable {A : Type} [IpAddress A]

theorem ne_nil_of_mem_split_batches {max_len base : ℕ} (ns batch : List (Nlri A)) (bytes : ℕ) :
    ∀ b ∈ split_batches max_len base ns batch bytes, b ≠ [] := by
  induction ns generalizing batch bytes with
  | nil =>
    intro b hb
    rw [split_batches] at hb
    split at hb
    · cases hb
    · next hne =>
      rw [List.mem_singleton.1 hb]
      exact List.isEmpty_iff.not.1 hne
  | cons n ns ih =>
    intro b hb
    rw [split_batches] at hb
    split at hb
    · next hfull =>
      rw [Bool.and_eq_true, Bool.not_eq_true', List.isEmpty_eq_false_iff] at hfull
      rcases List.mem_cons.1 hb with rfl | hb
      · exact hfull.1
      · exact ih _ _ b hb
    · exact ih _ _ b hb

end

theorem edits_ne_nil {ds : List (PrefixDecision Ipv4Addr)} {max_len : ℕ} {peer_type : PeerType}
    {four_byte : Bool} :
    ∀ m ∈ update_messages ds max_len peer_type four_byte, m.edits ≠ [] := by
  intro m hm
  rw [update_messages, List.mem_append] at hm
  rcases hm with hm | hm
  · obtain ⟨b, hb, rfl⟩ := List.mem_map.1 hm
    simpa [UpdateMessage.edits] using ne_nil_of_mem_split_batches _ _ _ b hb
  · obtain ⟨g, -, hm⟩ := List.mem_flatMap.1 hm
    obtain ⟨b, hb, rfl⟩ := List.mem_map.1 hm
    simpa [UpdateMessage.edits] using ne_nil_of_mem_split_batches _ _ _ b hb

theorem edits_v6_ne_nil {ds : List (PrefixDecision Ipv6Addr)} {max_len : ℕ} {peer_type : PeerType}
    {four_byte : Bool} :
    ∀ m ∈ update_messages_v6 ds max_len peer_type four_byte, m.edits_v6 ≠ [] := by
  intro m hm
  rw [update_messages_v6, List.mem_append] at hm
  rcases hm with hm | hm
  · obtain ⟨b, hb, rfl⟩ := List.mem_map.1 hm
    rw [edits_mp_unreach_v6, ne_eq, List.map_eq_nil_iff]
    exact ne_nil_of_mem_split_batches _ _ _ b hb
  · obtain ⟨g, hg, rfl⟩ := List.mem_map.1 hm
    obtain ⟨r, hr, hkey, -, hmsg⟩ := mp_reach_v6_group peer_type four_byte ds hg
    rw [hmsg, edits_mp_reach (around_attributes peer_type four_byte r), ne_eq, List.map_eq_nil_iff,
      groups_v6_nlris _ _ _ hg]
    exact List.ne_nil_of_mem
      (List.mem_map.2 ⟨r, List.mem_filter.2 ⟨hr, decide_eq_true hkey⟩, rfl⟩)

/-- If as many edits are on the channel as the messages have, then every message is. -/
theorem sent_of_length_edits {W : Type} {edits : UpdateMessage → List W} {tx : UpdateSender}
    {ms : List UpdateMessage} (hne : ∀ m ∈ ms, edits m ≠ [])
    (h : (((tx.send_all ms).2.since tx).flatMap edits).length = (ms.flatMap edits).length) :
    (tx.send_all ms).1 = true := by
  rw [(send_all_spec tx ms).1]
  by_contra hfull
  rw [Nat.not_le] at hfull
  rw [UpdateSender.since, send_all_sent, List.drop_left] at h
  conv_rhs at h => rw [← List.take_append_drop tx.room ms, List.flatMap_append, List.length_append]
  have hrest : (ms.drop tx.room).flatMap edits = [] := List.eq_nil_of_length_eq_zero (by omega)
  obtain ⟨m, hm⟩ := List.exists_mem_of_ne_nil (ms.drop tx.room) (by simpa using hfull)
  exact hne m (List.mem_of_mem_drop hm) (List.flatMap_eq_nil_iff.1 hrest m hm)

section

variable (peer_type : PeerType) (four_byte : Bool) (max_len : ℕ) {tx : UpdateSender}

theorem perm_update_messages (ds : List (PrefixDecision Ipv4Addr)) :
    (sent_prefixes ((update_messages ds max_len peer_type four_byte).flatMap
      UpdateMessage.edits)).Perm (ds.filterMap PrefixDecision.mark?) := by
  rw [update_messages_edits]
  exact perm_sent_prefixes_batch _ ds

theorem perm_update_messages_v6 (ds : List (PrefixDecision Ipv6Addr)) :
    (sent_prefixes ((update_messages_v6 ds max_len peer_type four_byte).flatMap
      UpdateMessage.edits_v6)).Perm (ds.filterMap PrefixDecision.mark?) := by
  rw [update_messages_v6_edits, sent_prefixes, List.map_map]
  refine (List.Perm.of_eq (List.map_congr_left fun e _ => ?_)).trans (perm_sent_prefixes_batch _ ds)
  simp

/-- The prefixes of the decisions are all named exactly when no send fails: a message that is not
sent takes a prefix with it. -/
theorem flush_updates_names_iff (ds : List (PrefixDecision Ipv4Addr)) :
    (sent_prefixes (((flush_updates ds max_len tx peer_type four_byte).2.since tx).flatMap
        UpdateMessage.edits)).Perm (ds.filterMap PrefixDecision.mark?) ↔
      (flush_updates ds max_len tx peer_type four_byte).1 = true := by
  have hall := perm_update_messages peer_type four_byte max_len ds
  constructor
  · intro h
    refine sent_of_length_edits edits_ne_nil ?_
    have hlen := (h.trans hall.symm).length_eq
    rwa [sent_prefixes, sent_prefixes, List.length_map, List.length_map] at hlen
  · intro hok
    rwa [flush_updates_since hok]

theorem flush_updates_v6_names_iff (ds : List (PrefixDecision Ipv6Addr)) :
    (sent_prefixes (((flush_updates_v6 ds max_len tx peer_type four_byte).2.since tx).flatMap
        UpdateMessage.edits_v6)).Perm (ds.filterMap PrefixDecision.mark?) ↔
      (flush_updates_v6 ds max_len tx peer_type four_byte).1 = true := by
  have hall := perm_update_messages_v6 peer_type four_byte max_len ds
  constructor
  · intro h
    refine sent_of_length_edits edits_v6_ne_nil ?_
    have hlen := (h.trans hall.symm).length_eq
    rwa [sent_prefixes, sent_prefixes, List.length_map, List.length_map] at hlen
  · intro hok
    rwa [flush_updates_v6_since _ _ _ _ hok]

end

/-- **What a flush sends fits, but for groups of IPv6 prefixes.** If every decision fits alone, then
both families are sent in messages that fit and that name each prefix as often as the decisions do,
exactly when no send fails and, for every IPv6 route that is announced, its attribute block and the
prefixes that share it fit one message. -/
theorem flushes_fit_iff (ds : List (PrefixDecision Ipv4Addr)) (ds6 : List (PrefixDecision Ipv6Addr))
    (max_len : ℕ) (tx tx6 : UpdateSender) (peer_type : PeerType) (four_byte : Bool)
    (halone : ∀ d ∈ ds, Fits max_len (update_messages [d] max_len peer_type four_byte))
    (halone6 : ∀ d ∈ ds6, Fits max_len (update_messages_v6 [d] max_len peer_type four_byte)) :
    let sent := (flush_updates ds max_len tx peer_type four_byte).2.since tx
    let sent6 := (flush_updates_v6 ds6 max_len tx6 peer_type four_byte).2.since tx6
    (Fits max_len sent ∧
        (sent_prefixes (sent.flatMap UpdateMessage.edits)).Perm
          (ds.filterMap PrefixDecision.mark?)) ∧
      (Fits max_len sent6 ∧ (sent_prefixes (sent6.flatMap UpdateMessage.edits_v6)).Perm
          (ds6.filterMap PrefixDecision.mark?)) ↔
      ((flush_updates ds max_len tx peer_type four_byte).1 = true ∧
          (flush_updates_v6 ds6 max_len tx6 peer_type four_byte).1 = true) ∧
        ∀ r ∈ announcements ds6,
          group_octets peer_type four_byte ds6 (group_key peer_type four_byte r) ≤ max_len := by
  intro sent sent6
  rw [flush_updates_names_iff, flush_updates_v6_names_iff,
    ← update_messages_v6_fit_iff peer_type four_byte halone6]
  constructor
  · rintro ⟨⟨-, hok⟩, hfits, hok6⟩
    rw [show sent6 = _ from flush_updates_v6_since _ _ _ _ hok6] at hfits
    exact ⟨⟨hok, hok6⟩, hfits⟩
  · rintro ⟨⟨hok, hok6⟩, hfits⟩
    rw [show sent = _ from flush_updates_since hok,
      show sent6 = _ from flush_updates_v6_since _ _ _ _ hok6]
    exact ⟨⟨update_messages_fit peer_type four_byte halone, hok⟩, hfits, hok6⟩

theorem one_hop_fits :
    Fits MAX_LEN ((flush_updates_v6 through_one_hop MAX_LEN ⟨256, [], []⟩ .Internal true).2.since
      ⟨256, [], []⟩) :=
  ((flushes_fit_iff announce_again through_one_hop MAX_LEN ⟨256, [], []⟩ ⟨256, [], []⟩
    .Internal true
    (by decide +kernel) (by decide +kernel)).2 (by decide +kernel)).2.1

/-- The first addresses of 2001:db8::/32 as host routes, with the same attributes. -/
def host_routes (k : ℕ) : List (PrefixDecision Ipv6Addr) :=
  (List.range k).map fun i => .Announce
    { documented_via 0 1 with
      nlri := Nlri.v6 (0x20010db8000000000000000000000000 ||| BitVec.ofNat 128 i) 128 }

/-- 240 host routes go out in one message that is longer than any without the extended-message
capability may be. -/
theorem host_routes_overflow :
    (∀ d ∈ host_routes 240, Fits MAX_LEN (update_messages_v6 [d] MAX_LEN .Internal true)) ∧
      (flush_updates_v6 (host_routes 240) MAX_LEN ⟨256, [], []⟩ .Internal true).1 = true ∧
      ((flush_updates_v6 (host_routes 240) MAX_LEN ⟨256, [], []⟩ .Internal true).2.since
        ⟨256, [], []⟩).map (fun m => decide (MAX_LEN < m.encode.length)) = [true] := by
  decide +kernel

end Pathvector

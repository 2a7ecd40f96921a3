/-
# Synchronisation with the cache

When the client has a serial number and applies no response, is its table the set of payloads that
the cache had under that number? The client applies the PDUs of a response as they come, and does
not take them back when the connection is lost before the End of Data. The next response is a
difference from the set of the old serial number, or everything, and neither undoes what was left:
`failed_response_left_over`.

In the runs in which that does not happen, and in which no Serial Query of another session is
answered with a difference, the answer is yes (`synchronised_of_careful`). The invariant says, for a
client that applies a response, where the rest of it leads; for one that has asked, what may come.
-/
import Pathvector.Rpki.Client

set_option autoImplicit false

namespace Pathvector.Rpki

namespace Rtr

variable {M : (A : Type) → [IpAddress A] → [DecidableEq A] → Type → Type} [RouteMap M]
variable {c client : Client M} {pdus : List Pdu} {pdu : Pdu} {version : RtrVersion} {sid : UInt16}
  {channel : List (RtrVersion × Pdu)} {force_reset : Bool} {T : Set Payload} {cache : Cache}
  {n : UInt32}

/-- If no response is in progress and the client has a serial number, its table is what the cache
had under that number of the session. -/
def Synchronised (s : Rtr M) : Prop :=
  s.client.streaming = false → ∀ n, s.client.table.serial = some n →
    ∃ sid S, s.client.session_id = some sid ∧ s.cache.history sid n = some S
      ∧ s.client.table.payloads = S

/-- The connection does not fail when part of a response was applied, and a Serial Query is
answered with a difference only in the session that it names. -/
def Careful (s : Rtr M) : RtrEvent → Prop
  | .Fail => s.client.streaming = true → s.applied = 0
  | .Answer _ pdus => ∀ sid n, .SerialQuery sid n ∈ s.outstanding →
      (∃ pdu, pdus = [pdu] ∧ pdu.is_refusal = true) ∨ sid = s.cache.session_id
  | _ => True

/-! ## What is known about the table -/

/-- The history after more was published. -/
def Extends (h h' : UInt16 → UInt32 → Option (Set Payload)) : Prop :=
  ∀ sid n S, h sid n = some S → h' sid n = some S

section

variable {h h' : UInt16 → UInt32 → Option (Set Payload)} (S : Set Payload)

theorem extends_publish {session_id : UInt16} {serial : UInt32}
    (h : cache.history session_id serial = none) :
    Extends cache.history (cache.publish session_id serial S).history := by
  intro sid n T hT
  unfold Cache.publish
  dsimp only
  rw [if_neg, hT]
  rintro ⟨rfl, rfl⟩
  rw [h] at hT
  cases hT

/-- The table is a set of the cache, or empty if there is no serial number. -/
structure Settled (c : Client M) (h : UInt16 → UInt32 → Option (Set Payload)) : Prop where
  known : ∀ n, c.table.serial = some n →
    ∃ sid S, c.session_id = some sid ∧ h sid n = some S ∧ c.table.payloads = S
  fresh : c.table.serial = none → c.table.payloads = ∅

theorem Settled.mono (hc : Settled c h) (hext : Extends h h') : Settled c h' := by
  refine ⟨fun n hn => ?_, hc.fresh⟩
  obtain ⟨sid, S, hsid, hS, hpayloads⟩ := hc.known n hn
  exact ⟨sid, S, hsid, hext sid n S hS, hpayloads⟩

theorem Settled.congr {c' : Client M} (hc : Settled c h) (htable : c'.table = c.table)
    (hsid : c'.session_id = c.session_id) :
    Settled c' h := by
  refine ⟨?_, ?_⟩
  · rw [htable, hsid]
    exact hc.known
  · rw [htable]
    exact hc.fresh

theorem serial_clear (t : RoaTable M) : t.clear.serial = none := rfl

theorem settled_clear (h : UInt16 → UInt32 → Option (Set Payload)) (hserial : c.table.serial = none)
    (hpayloads : c.table.payloads = ∅) : Settled c h := by
  refine ⟨fun n hn => ?_, fun _ => hpayloads⟩
  rw [hserial] at hn
  cases hn

/-- The PDUs lead from the payloads to a set of the cache, which the End of Data names. -/
def Leads (payloads : Set Payload) (h : UInt16 → UInt32 → Option (Set Payload)) (sid : UInt16)
    (pdus : List Pdu) : Prop :=
  ∃ ds n intervals T, pdus = ds ++ [.EndOfData sid n intervals] ∧ (∀ d ∈ ds, d.is_data = true)
    ∧ h sid n = some T ∧ Journal.replay payloads (ds.filterMap Pdu.change?) = T

theorem Leads.mono {payloads : Set Payload} (hleads : Leads payloads h sid pdus)
    (hext : Extends h h') : Leads payloads h' sid pdus := by
  obtain ⟨ds, n, intervals, T, hpdus, hdata, hT, hreplay⟩ := hleads
  exact ⟨ds, n, intervals, T, hpdus, hdata, hext sid n T hT, hreplay⟩

/-- What may come in answer to a query: a refusal, or a response that leads from what the client
will have to a set of the cache, in the session of its serial number if it keeps that. -/
def Fits (c : Client M) (force_reset : Bool) (h : UInt16 → UInt32 → Option (Set Payload))
    (pdus : List Pdu) : Prop :=
  (∃ pdu, pdus = [pdu] ∧ pdu.is_refusal = true) ∨
    ∃ sid body, pdus = .CacheResponse sid :: body
      ∧ Leads (if force_reset then ∅ else c.table.payloads) h sid body
      ∧ (force_reset = false → c.table.serial ≠ none → c.session_id = some sid)

/-- What is on its way to the client, by phase; notifications may come before and after it. -/
def Expects (c : Client M) (h : UInt16 → UInt32 → Option (Set Payload)) (outstanding : List Pdu)
    (channel : List Pdu) : Prop :=
  ∃ before pdus after, channel = before ++ pdus ++ after
    ∧ (∀ pdu ∈ before ++ after, ∃ sid n, pdu = .SerialNotify sid n) ∧
    match c.phase with
    | .Disconnected => outstanding = [] ∧ channel = []
    | .Querying _ force_reset =>
      outstanding = [c.query force_reset] ∧ pdus = []
        ∨ outstanding = [] ∧ Fits c force_reset h pdus
    | .NoData _ | .Waiting => outstanding = [] ∧ pdus = []
    | .Streaming sid => outstanding = [] ∧ before = [] ∧ c.session_id = some sid
      ∧ Leads c.table.payloads h sid pdus

theorem Expects.mono {outstanding channel : List Pdu} (hc : Expects c h outstanding channel)
    (hext : Extends h h') :
    Expects c h' outstanding channel := by
  obtain ⟨before, pdus, after, hchannel, hnotify, hphase⟩ := hc
  refine ⟨before, pdus, after, hchannel, hnotify, ?_⟩
  cases hp : c.phase with
  | Querying fallback force_reset =>
    rw [hp] at hphase
    rcases hphase with hasked | ⟨hout, hrefusal | ⟨sid, body, hbody, hleads, hsame⟩⟩
    · exact .inl hasked
    · exact .inr ⟨hout, .inl hrefusal⟩
    · exact .inr ⟨hout, .inr ⟨sid, body, hbody, hleads.mono hext, hsame⟩⟩
  | Streaming sid =>
    rw [hp] at hphase
    obtain ⟨hout, hbefore, hsid, hleads⟩ := hphase
    exact ⟨hout, hbefore, hsid, hleads.mono hext⟩
  | _ =>
    rw [hp] at hphase
    exact hphase

end

/-- The invariant of a run. -/
structure Inv (s : Rtr M) : Prop where
  settled : s.client.streaming = false ∨ s.applied = 0 → Settled s.client s.cache.history
  expects : Expects s.client s.cache.history s.outstanding (s.channel.map Prod.snd)
  taken : s.taken ≤ s.client.sent.length
  down : s.client.phase = .Disconnected → s.alive = false

theorem Inv.synchronised {s : Rtr M} (h : s.Inv) : s.Synchronised :=
  fun hidle => (h.settled (.inl hidle)).known

/-! ## One step -/

variable {s : Rtr M}

theorem streaming_eq_false (h : ∀ sid, c.phase ≠ .Streaming sid) : c.streaming = false := by
  unfold Client.streaming
  split
  · rename_i sid hphase
    exact absurd hphase (h sid)
  · rfl

theorem inv_disconnect (hsettled : Settled client s.cache.history) :
    (s.move client.disconnect).Inv := by
  have hmove : s.move client.disconnect = { s with
      client := client.disconnect, alive := false, channel := [],
      taken := client.disconnect.sent.length } := if_pos rfl
  rw [hmove]
  refine ⟨fun _ => hsettled.congr rfl rfl, ⟨[], [], [], rfl, by simp, ?_, rfl⟩, le_rfl,
    fun _ => rfl⟩
  unfold outstanding
  rw [List.drop_length]
  rfl

theorem inv_sync_once (fallback force_reset : Bool) (hsettled : Settled client s.cache.history)
    (hsent : s.taken = client.sent.length)
    (hchannel : ∀ pdu ∈ s.channel.map Prod.snd, ∃ sid n, pdu = .SerialNotify sid n) :
    (s.move (client.sync_once fallback force_reset)).Inv := by
  have hmove : s.move (client.sync_once fallback force_reset)
      = { s with client := client.sync_once fallback force_reset } := if_neg nofun
  rw [hmove]
  refine ⟨fun _ => hsettled.congr rfl rfl, ⟨s.channel.map Prod.snd, [], [], by simp, ?_, ?_⟩, ?_,
    nofun⟩
  · rw [List.append_nil]
    exact hchannel
  · refine .inl ⟨?_, rfl⟩
    unfold outstanding
    show ((client.sent ++ [_]).drop s.taken).map Prod.snd = _
    rw [hsent, List.drop_left]
    rfl
  · show s.taken ≤ (client.sent ++ [_]).length
    rw [List.length_append, hsent]
    exact Nat.le_add_right _ _

theorem Inv.all_taken (h : s.Inv) (hout : s.outstanding = []) : s.taken = s.client.sent.length := by
  have hle := h.taken
  have hge := List.drop_eq_nil_iff.1 (List.map_eq_nil_iff.1 hout)
  omega

theorem query_cases {h : UInt16 → UInt32 → Option (Set Payload)} (hc : Settled c h)
    (force_reset : Bool) :
    (c.query force_reset = .ResetQuery
        ∧ (if force_reset then ∅ else c.table.payloads) = ∅
        ∧ (force_reset = false → c.table.serial = none)) ∨
      ∃ sid n S, c.query force_reset = .SerialQuery sid n ∧ force_reset = false
        ∧ c.session_id = some sid ∧ h sid n = some S ∧ c.table.payloads = S := by
  unfold Client.query
  cases force_reset with
  | true => exact .inl ⟨rfl, rfl, nofun⟩
  | false =>
    cases hserial : c.table.serial with
    | none => exact .inl ⟨rfl, hc.fresh hserial, fun _ => rfl⟩
    | some n =>
      obtain ⟨sid, S, hsid, hS, hpayloads⟩ := hc.known n hserial
      rw [hsid]
      exact .inr ⟨sid, n, S, rfl, rfl, rfl, hS, hpayloads⟩

theorem leads_of_response {S : Set Payload} {h : UInt16 → UInt32 → Option (Set Payload)}
    (hr : IsResponse sid n S T pdus) (hT : h sid n = some T) :
    ∃ body, pdus = .CacheResponse sid :: body ∧ Leads S h sid body := by
  obtain ⟨ds, intervals, hpdus, hdata, hdiff⟩ := hr
  exact ⟨_, hpdus, ds, n, intervals, T, rfl, hdata, hT, Journal.replay_difference hdiff⟩

theorem fits_of_answers (hc : Settled c cache.history)
    (hanswers : cache.Answers (c.query force_reset) pdus)
    (hcareful : ∀ sid n, c.query force_reset = .SerialQuery sid n →
      (∃ pdu, pdus = [pdu] ∧ pdu.is_refusal = true) ∨ sid = cache.session_id) :
    Fits c force_reset cache.history pdus := by
  rcases hanswers with hrefusal | ⟨T, hT, hreset | ⟨sid, n, S, hquery, hS, hresponse⟩⟩
  · exact .inl hrefusal
  · obtain ⟨hquery, hresponse⟩ := hreset
    obtain ⟨body, hbody, hleads⟩ := leads_of_response hresponse hT
    rcases query_cases hc force_reset with ⟨-, hempty, hserial⟩ | ⟨sid, n, S, hserial, -⟩
    · refine .inr ⟨_, body, hbody, ?_, fun hkeep hne => absurd (hserial hkeep) hne⟩
      rw [hempty]
      exact hleads
    · rw [hquery] at hserial
      cases hserial
  · rcases hcareful sid n hquery with hrefusal | rfl
    · exact .inl hrefusal
    obtain ⟨body, hbody, hleads⟩ := leads_of_response hresponse hT
    rcases query_cases hc force_reset with
      ⟨hreset, -⟩ | ⟨sid', n', S', hquery', rfl, hsid, hS', hpayloads⟩
    · rw [hquery] at hreset
      cases hreset
    · rw [hquery] at hquery'
      cases hquery'
      obtain rfl : S = S' := Option.some.inj (hS.symm.trans hS')
      refine .inr ⟨_, body, hbody, ?_, fun _ _ => hsid⟩
      rw [if_neg Bool.false_ne_true, hpayloads]
      exact hleads

theorem move_of_connected (h : client.phase ≠ .Disconnected) :
    s.move client = { s with client := client } := if_neg h

theorem inv_receive_response (h : s.Inv) {fallback : Bool}
    (hphase : s.client.phase = .Querying fallback force_reset)
    (hchannel : s.channel = (version, pdu) :: channel) :
    ({ s with channel := channel, applied := count s.applied pdu }.move
      (s.client.receive_response fallback force_reset version pdu)).Inv := by
  have hsettled := h.settled (.inl (streaming_eq_false (by simp [hphase])))
  obtain ⟨before, pdus, after, hall, hnotify, hexpects⟩ := h.expects
  rw [hphase] at hexpects
  rw [hchannel, List.map_cons] at hall
  -- A notification in place of the response makes the client give up.
  have hgive_up : (∃ sid n, pdu = .SerialNotify sid n) → ({ s with
      channel := channel, applied := count s.applied pdu }.move
        (s.client.receive_response fallback force_reset version pdu)).Inv := by
    rintro ⟨sid, n, rfl⟩
    exact inv_disconnect hsettled
  cases before with
  | cons b before =>
    simp only [List.cons_append, List.cons.injEq] at hall
    exact hgive_up (hall.1 ▸ hnotify b (by simp))
  | nil =>
    rcases hexpects with ⟨-, rfl⟩ | ⟨hout, ⟨pdu', rfl, hrefusal⟩ | ⟨sid, body, rfl, hleads, hsame⟩⟩
    · cases after with
      | nil => cases hall
      | cons a after =>
        simp only [List.nil_append, List.cons.injEq] at hall
        exact hgive_up (hall.1 ▸ hnotify a (by simp))
    · simp only [List.nil_append, List.cons_append, List.cons.injEq] at hall
      obtain ⟨rfl, hrest⟩ := hall
      have hrest' : ∀ p ∈ channel.map Prod.snd, ∃ sid n, p = .SerialNotify sid n := by
        rw [hrest]
        exact hnotify
      cases pdu with
      | CacheReset => exact inv_disconnect hsettled
      | ErrorReport code copy text =>
        unfold Client.receive_response
        dsimp only
        split
        · exact inv_sync_once true force_reset
            (settled_clear _ (serial_clear _) (RoaTable.payloads_clear _)) (h.all_taken hout) hrest'
        · split
          · rw [move_of_connected]
            · exact ⟨fun _ => hsettled.congr rfl rfl,
                ⟨[], [], channel.map Prod.snd, rfl, hrest', hout, rfl⟩, h.taken, nofun⟩
            · nofun
          · exact inv_disconnect hsettled
      | _ => cases hrefusal
    · simp only [List.nil_append, List.cons_append, List.cons.injEq] at hall
      obtain ⟨rfl, hrest⟩ := hall
      unfold Client.receive_response
      dsimp only
      rw [move_of_connected]
      · refine ⟨fun _ => ?_, ⟨[], body, after, hrest, hnotify, hout, rfl, rfl, ?_⟩, h.taken, nofun⟩
        · -- The session id is new only where there is no serial number.
          cases force_reset with
          | true => exact settled_clear _ (serial_clear _) (RoaTable.payloads_clear _)
          | false =>
            refine ⟨fun n hn => ?_, hsettled.fresh⟩
            have hn' : s.client.table.serial = some n := hn
            obtain ⟨sid', S, hsid', hS, hpayloads⟩ := hsettled.known n hn'
            have hkeep := hsame rfl (by rw [hn']; nofun)
            rw [hkeep] at hsid'
            cases hsid'
            exact ⟨sid, S, rfl, hS, hpayloads⟩
        · cases force_reset with
          | true =>
            show Leads s.client.table.clear.payloads _ sid body
            rw [RoaTable.payloads_clear]
            exact hleads
          | false => exact hleads
      · nofun

theorem Leads.uncons {hist : UInt16 → UInt32 → Option (Set Payload)} {ds : List Pdu}
    {intervals : Option EndOfDataIntervals} (hdata : ∀ d ∈ pdu :: ds, d.is_data = true)
    (hT : hist sid n = some T)
    (hreplay : Journal.replay c.table.payloads ((pdu :: ds).filterMap Pdu.change?) = T) :
    Leads (c.table.apply_prefix_pdu pdu).payloads hist sid
      (ds ++ [.EndOfData sid n intervals]) := by
  refine ⟨ds, n, intervals, T, rfl, fun d hd => hdata d (List.mem_cons_of_mem _ hd), hT, ?_⟩
  rw [← hreplay, RoaTable.payloads_apply_prefix_pdu, ← Journal.replay_append]
  congr 1
  cases hchange : pdu.change? with
  | none => rw [List.filterMap_cons_none hchange, Option.toList_none, List.nil_append]
  | some c => rw [List.filterMap_cons_some hchange, Option.toList_some, List.singleton_append]

theorem receive_data_of_data (c : Client M) (sid : UInt16) (h : pdu.is_data = true) :
    c.receive_data sid pdu = { c with table := c.table.apply_prefix_pdu pdu } := by
  cases pdu with
  | Ipv4Prefix | Ipv6Prefix | RouterKey => rfl
  | _ => cases h

theorem of_count_eq_zero (t : RoaTable M) {applied : ℕ} (h : pdu.is_data = true)
    (hcount : count applied pdu = 0) : applied = 0 ∧ t.apply_prefix_pdu pdu = t := by
  cases pdu with
  | RouterKey => exact ⟨hcount, rfl⟩
  | Ipv4Prefix | Ipv6Prefix => cases hcount
  | _ => cases h

theorem inv_receive_data (h : s.Inv) (hphase : s.client.phase = .Streaming sid)
    (hchannel : s.channel = (version, pdu) :: channel) :
    ({ s with channel := channel, applied := count s.applied pdu }.move
      (s.client.receive_data sid pdu)).Inv := by
  obtain ⟨before, pdus, after, hall, hnotify, hexpects⟩ := h.expects
  rw [hphase] at hexpects
  rw [hchannel, List.map_cons] at hall
  obtain ⟨hout, rfl, hsid, ds, n, intervals, T, rfl, hdata, hT, hreplay⟩ := hexpects
  cases ds with
  | nil =>
    simp only [List.nil_append, List.cons_append, List.cons.injEq] at hall
    obtain ⟨rfl, hrest⟩ := hall
    unfold Client.receive_data
    dsimp only
    rw [if_pos rfl, move_of_connected]
    · refine ⟨fun _ => ⟨fun m hm => ?_, nofun⟩, ⟨[], [], after, hrest, hnotify, hout, rfl⟩, h.taken,
        nofun⟩
      cases hm
      exact ⟨sid, T, hsid, hT, hreplay⟩
    · nofun
  | cons d ds =>
    simp only [List.nil_append, List.cons_append, List.cons.injEq] at hall
    obtain ⟨rfl, hrest⟩ := hall
    have hkind := hdata pdu List.mem_cons_self
    rw [receive_data_of_data s.client sid hkind, move_of_connected]
    · refine ⟨?_, ⟨[], _, after, hrest, hnotify, ?_⟩, h.taken, h.down⟩
      · rintro (hidle | hnone)
        · simp [Client.streaming, hphase] at hidle
        · obtain ⟨hzero, hsame⟩ := of_count_eq_zero s.client.table hkind hnone
          exact (h.settled (.inr hzero)).congr hsame rfl
      · dsimp only
        rw [hphase]
        exact ⟨hout, rfl, hsid, Leads.uncons hdata hT hreplay⟩
    · simp [hphase]

theorem inv_deliver (h : s.Inv) (hreading : s.client.reading = true) (hne : s.channel ≠ []) :
    (s.step .Deliver).Inv := by
  unfold step
  cases hchannel : s.channel with
  | nil => exact absurd hchannel hne
  | cons head channel =>
    obtain ⟨version, pdu⟩ := head
    dsimp only
    unfold Client.receive
    cases hphase : s.client.phase with
    | Querying fallback force_reset => exact inv_receive_response h hphase hchannel
    | Streaming sid => exact inv_receive_data h hphase hchannel
    | Waiting =>
      obtain ⟨before, pdus, after, hall, hnotify, hexpects⟩ := h.expects
      rw [hphase] at hexpects
      obtain ⟨hout, rfl⟩ := hexpects
      have hnotifies : ∀ p ∈ s.channel.map Prod.snd, ∃ sid n, p = .SerialNotify sid n := by
        rw [hall, List.append_nil]
        exact hnotify
      rw [hchannel, List.map_cons, List.forall_mem_cons] at hnotifies
      obtain ⟨⟨sid, n, hpdu⟩, hrest⟩ := hnotifies
      obtain rfl : pdu = .SerialNotify sid n := hpdu
      exact inv_sync_once false false
        (h.settled (.inl (streaming_eq_false (by simp [hphase])))) (h.all_taken hout) hrest
    | Disconnected | NoData => simp [Client.reading, hphase] at hreading

theorem Inv.idle (h : s.Inv) (hphase : s.client.phase = .Waiting ∨ ∃ fallback,
    s.client.phase = .NoData fallback) : s.outstanding = []
      ∧ ∀ p ∈ s.channel.map Prod.snd, ∃ sid n, p = .SerialNotify sid n := by
  obtain ⟨before, pdus, after, hall, hnotify, hexpects⟩ := h.expects
  have hidle : s.outstanding = [] ∧ pdus = [] := by
    rcases hphase with hphase | ⟨fallback, hphase⟩ <;>
    · rw [hphase] at hexpects
      exact hexpects
  obtain ⟨hout, rfl⟩ := hidle
  refine ⟨hout, ?_⟩
  rw [hall, List.append_nil]
  exact hnotify

theorem inv_answer (h : s.Inv) (hanswers : ∃ query ∈ s.outstanding, s.cache.Answers query pdus)
    (hcareful : s.Careful (.Answer version pdus)) : (s.step (.Answer version pdus)).Inv := by
  obtain ⟨query, hquery, hanswers⟩ := hanswers
  obtain ⟨before, old, after, hall, hnotify, hexpects⟩ := h.expects
  cases hphase : s.client.phase with
  | Querying fallback force_reset =>
    rw [hphase] at hexpects
    rcases hexpects with ⟨hout, rfl⟩ | ⟨hout, -⟩
    · rw [hout, List.mem_singleton] at hquery
      subst hquery
      have hsettled := h.settled (.inl (streaming_eq_false (by simp [hphase])))
      have hfits := fits_of_answers hsettled hanswers fun sid n hserial =>
        hcareful sid n (by rw [hout, hserial]; exact List.mem_singleton_self _)
      have hlen : s.client.sent.length = s.taken + 1 := by
        have hone := congrArg List.length hout
        simp only [outstanding, List.length_map, List.length_drop, List.length_singleton] at hone
        have hle := h.taken
        omega
      refine ⟨h.settled, ⟨before ++ after, pdus, [], ?_, ?_, ?_⟩, hlen.ge, h.down⟩
      · simp [step, hall]
      · rw [List.append_nil]
        exact hnotify
      · unfold step
        dsimp only
        rw [hphase]
        refine .inr ⟨?_, hfits⟩
        unfold outstanding
        rw [← hlen, List.drop_length]
        rfl
    · rw [hout] at hquery
      cases hquery
  | _ =>
    rw [hphase] at hexpects
    rw [hexpects.1] at hquery
    cases hquery

/-- **The invariant is kept** by every step that may happen and is careful. -/
theorem inv_step (h : s.Inv) {e : RtrEvent} (hlegal : s.Legal e) (hcareful : s.Careful e) :
    (s.step e).Inv := by
  cases e with
  | Connect =>
    have hphase : s.client.phase = .Disconnected := hlegal
    obtain ⟨before, pdus, after, hall, hnotify, hexpects⟩ := h.expects
    rw [hphase] at hexpects
    refine inv_sync_once (s := { s with alive := true }) false false
      (h.settled (.inl (streaming_eq_false (by simp [hphase])))) (h.all_taken hexpects.1) ?_
    dsimp only
    rw [hexpects.2]
    simp
  | Fail =>
    refine inv_disconnect (h.settled ?_)
    cases hstreaming : s.client.streaming with
    | false => exact .inl rfl
    | true => exact .inr (hcareful hstreaming)
  | Deliver => exact inv_deliver h hlegal.1 hlegal.2
  | Wake =>
    obtain ⟨hout, hnotify⟩ := h.idle hlegal
    unfold step Client.wake
    rcases hlegal with hphase | ⟨fallback, hphase⟩ <;>
    · have hsettled := h.settled (.inl (streaming_eq_false (by simp [hphase])))
      simp only [hphase]
      exact inv_sync_once _ _ hsettled (h.all_taken hout) hnotify
  | Publish serial S =>
    have hext := extends_publish S hlegal
    exact ⟨fun hidle => (h.settled hidle).mono hext, h.expects.mono hext, h.taken, h.down⟩
  | Restart session_id serial S =>
    -- a new session id: the history of the old one stays as it was
    have hnew : s.cache.history session_id serial = none := hlegal serial
    have hext := extends_publish S hnew
    exact ⟨fun hidle => (h.settled hidle).mono hext, h.expects.mono hext, h.taken, fun _ => rfl⟩
  | Answer version pdus => exact inv_answer h hlegal.2 hcareful
  | Notify version =>
    -- the notification queues up behind all that was already sent
    have halive : s.alive = true := hlegal
    obtain ⟨before, pdus, after, hall, hnotify, hexpects⟩ := h.expects
    refine ⟨h.settled, ⟨before, pdus, after ++ [.SerialNotify s.cache.session_id s.cache.serial],
      ?_, ?_, ?_⟩, h.taken, h.down⟩
    · simp [step, hall]
    · intro p hp
      rw [← List.append_assoc, List.mem_append, List.mem_singleton] at hp
      exact hp.elim (hnotify p) fun heq => ⟨_, _, heq⟩
    · have hup : s.client.phase ≠ .Disconnected := fun hdown => by
        rw [h.down hdown] at halive
        cases halive
      unfold step
      cases hphase : s.client.phase with
      | Disconnected => exact absurd hphase hup
      | _ =>
        rw [hphase] at hexpects
        exact hexpects

/-- **Synchronisation with the cache.** In every run that is careful, the client's table is what
the cache had under the client's serial number, whenever no response is in progress. -/
theorem synchronised_of_careful (initial_version : RtrVersion) (session_id : UInt16)
    (serial : UInt32) (S : Set Payload) (events : List RtrEvent)
    (h : Machine.Guarded step (fun s e => s.Legal e ∧ s.Careful e)
      (start M initial_version (.new session_id serial S)) events) :
    ((start M initial_version (.new session_id serial S)).run events).Synchronised := by
  have hstart : (start M initial_version (.new session_id serial S)).Inv :=
    ⟨fun _ => settled_clear _ rfl RoaTable.payloads_new, ⟨[], [], [], rfl, by simp, rfl, rfl⟩,
      le_rfl, fun _ => rfl⟩
  have hkeep : ∀ (s : Rtr M) e, s.Legal e ∧ s.Careful e → s.Inv → (s.step e).Inv :=
    fun s e hok hs => inv_step hs hok.1 hok.2
  exact (Machine.inv_of_guarded hkeep hstart h).synchronised

/-! ## A small run -/

/-- AS 65001 may originate 10.0.0.0/8. -/
def roa : Pdu := .Ipv4Prefix ⟨true⟩ 8 8 (Ipv4Addr.new 10 0 0 0) 65001

def roa_payload : Payload := .v4 (.of_nlri (Nlri.v4 10 0 0 0 8) 8 65001)

/-- A cache that has that payload. -/
def small_cache : Cache := .new 1 0 {roa_payload}

/-- The client asks for everything and gets it, as far as the payload. -/
def first_response : List RtrEvent :=
  [.Connect, .Answer .V1 [.CacheResponse 1, roa, .EndOfData 1 0 none], .Deliver, .Deliver]

/-- The connection is lost there. The cache withdraws the payload, and the client asks again. -/
def lost_response : List RtrEvent :=
  first_response ++ [.Fail, .Publish 1 ∅, .Connect,
    .Answer .V1 [.CacheResponse 1, .EndOfData 1 1 none], .Deliver, .Deliver]

theorem response_first :
    IsResponse 1 0 ∅ {roa_payload} [.CacheResponse 1, roa, .EndOfData 1 0 none] := by
  refine ⟨[roa], none, rfl, ?_, ?_⟩
  · simp [roa, Pdu.is_data]
  · have hchange : [roa].filterMap Pdu.change? = [⟨true, roa_payload⟩] := rfl
    rw [hchange]
    intro a
    simp

theorem answers_first : small_cache.Answers .ResetQuery
    [.CacheResponse 1, roa, .EndOfData 1 0 none] :=
  .inr ⟨{roa_payload}, Cache.history_new .., .inl ⟨rfl, response_first⟩⟩

theorem answers_second : (small_cache.publish 1 1 ∅).Answers .ResetQuery
    [.CacheResponse 1, .EndOfData 1 1 none] := by
  refine .inr ⟨∅, Cache.history_publish .., .inl ⟨rfl, [], none, rfl, by simp, ?_⟩⟩
  intro a
  simp

/-- A response that is read to its end. -/
theorem first_response_synchronised :
    ((start NetworkMap .V1 small_cache).run (first_response ++ [.Deliver])).Synchronised ∧
      ((start NetworkMap .V1 small_cache).run (first_response ++ [.Deliver])).client.table.serial
        = some 0 := by
  refine ⟨synchronised_of_careful .V1 1 0 {roa_payload} (first_response ++ [RtrEvent.Deliver]) ?_,
    rfl⟩
  refine ⟨⟨rfl, trivial⟩, ⟨⟨rfl, _, List.mem_singleton_self _, answers_first⟩, ?_⟩,
    ⟨⟨rfl, nofun⟩, trivial⟩, ⟨⟨rfl, nofun⟩, trivial⟩, ⟨⟨rfl, nofun⟩, trivial⟩, trivial⟩
  intro sid n hmem
  cases List.mem_singleton.1 hmem

/-- What was applied of a response that was lost stays in the table. -/
theorem failed_response_left_over :
    Machine.Guarded step Legal (start NetworkMap .V1 small_cache) lost_response ∧
      ¬((start NetworkMap .V1 small_cache).run lost_response).Synchronised := by
  have hnew : small_cache.history 1 1 = none := by simp [small_cache, Cache.new]
  constructor
  · exact ⟨rfl, ⟨rfl, _, List.mem_singleton_self _, answers_first⟩, ⟨rfl, nofun⟩, ⟨rfl, nofun⟩,
      nofun, hnew, rfl, ⟨rfl, _, List.mem_singleton_self _, answers_second⟩, ⟨rfl, nofun⟩,
      ⟨rfl, nofun⟩, trivial⟩
  · intro h
    obtain ⟨sid, S, hsid, hS, hpayloads⟩ := h rfl 1 rfl
    cases hsid
    cases hS
    have hleft : roa_payload ∈
        ((start NetworkMap .V1 small_cache).run lost_response).client.table.payloads :=
      ⟨[⟨8, 65001⟩], by decide +kernel, List.mem_singleton_self _⟩
    rw [hpayloads] at hleft
    exact hleft

end Rtr

end Pathvector.Rpki

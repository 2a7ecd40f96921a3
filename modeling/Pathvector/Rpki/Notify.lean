/-
# Serial Notify

A cache may say Serial Notify at any time (RFC 8210, section 8.2). The client expects one in one
place only: in `run_one_connection`, after an End of Data. In `sync_once`, before the Cache
Response, and in `apply_diff_stream`, before the End of Data, it is an unexpected PDU, and the
connection is given up. The Serial Notify that is expected starts the next query, so that a second
one behind it is unexpected again.
-/
import Pathvector.Rpki.Refusal

set_option autoImplicit false

namespace Pathvector.Rpki

def Pdu.is_notify : Pdu → Bool
  | .SerialNotify _ _ => true
  | _ => false

namespace Client

variable {M : (A : Type) → [IpAddress A] → [DecidableEq A] → Type → Type} [RouteMap M]

/-- The client reads the PDUs one after the other. -/
def receive_all (c : Client M) (pdus : List (RtrVersion × Pdu)) : Client M :=
  pdus.foldl (fun c p => c.receive p.1 p.2) c

/-- The same table, with its serial number, and the connection kept in both cases or in neither. -/
structure SameEnd (c c' : Client M) : Prop where
  table : c'.table = c.table
  kept : c'.phase = .Disconnected ↔ c.phase = .Disconnected

variable {c : Client M} {fallback force_reset : Bool} {sid : UInt16} {serial : UInt32}
  {S T : Set Payload} {pdus pdus' : List (RtrVersion × Pdu)}

theorem receive_all_append (c : Client M) (pdus pdus' : List (RtrVersion × Pdu)) :
    c.receive_all (pdus ++ pdus') = (c.receive_all pdus).receive_all pdus' :=
  List.foldl_append

/-- Without a connection nothing is read. -/
theorem receive_all_disconnected (h : c.phase = .Disconnected) (pdus : List (RtrVersion × Pdu)) :
    (c.receive_all pdus).phase = .Disconnected := by
  refine List.foldl_invariant _ (fun c : Client M => c.phase = .Disconnected) pdus c h ?_
  intro c p _ hc
  simp only [receive, hc]

/-- A Serial Notify ends the connection while an answer is expected. -/
theorem receive_notify_answering (h : c.answering = true) {p : RtrVersion × Pdu}
    (hp : p.2.is_notify = true) (pdus : List (RtrVersion × Pdu)) :
    (c.receive_all (p :: pdus)).phase = .Disconnected := by
  refine receive_all_disconnected ?_ pdus
  obtain ⟨version, pdu⟩ := p
  cases pdu with
  | SerialNotify sid n =>
    cases hphase : c.phase with
    | Querying _ _ | Streaming _ =>
      simp [receive, hphase, receive_response, receive_data, disconnect]
    | Disconnected | NoData _ | Waiting => simp [answering, hphase] at h
  | _ => cases hp

theorem receive_notify_waiting (h : c.phase = .Waiting) (version : RtrVersion) (n : UInt32) :
    c.receive_all [(version, .SerialNotify sid n)] = c.sync_once false false := by
  simp [receive_all, receive, h]

theorem streaming_of_response (hphase : c.phase = .Querying fallback force_reset) (v : RtrVersion)
    (hdata : ∀ p ∈ pdus, p.2.is_data = true) :
    (c.receive_all ((v, .CacheResponse sid) :: pdus)).phase = .Streaming sid := by
  refine List.foldl_invariant _ (fun c : Client M => c.phase = .Streaming sid) pdus _ ?_ ?_
  · simp [receive, hphase, receive_response]
  · intro c p hp hc
    simp only [receive, hc, Rtr.receive_data_of_data c sid (hdata p hp)]

/-- The PDUs of a response, with the version each of them has. -/
theorem response_eq (h : IsResponse sid serial S T (pdus.map Prod.snd)) :
    ∃ v w intervals data, (∀ p ∈ data, p.2.is_data = true) ∧
      pdus = (v, .CacheResponse sid) :: (data ++ [(w, .EndOfData sid serial intervals)]) := by
  obtain ⟨ds, intervals, hpdus, hdata, -⟩ := h
  obtain ⟨⟨v, _⟩, rest, rfl, rfl, hrest⟩ := List.map_eq_cons_iff.1 hpdus
  obtain ⟨data, last, rfl, rfl, hlast⟩ := List.map_eq_append_iff.1 hrest
  obtain ⟨⟨w, _⟩, _, rfl, rfl, hnil⟩ := List.map_eq_cons_iff.1 hlast
  obtain rfl := List.map_eq_nil_iff.1 hnil
  exact ⟨v, w, intervals, data, fun p hp => hdata _ (List.mem_map_of_mem hp), rfl⟩

theorem waiting_of_response (hphase : c.phase = .Querying fallback force_reset)
    (h : IsResponse sid serial S T (pdus.map Prod.snd)) :
    (c.receive_all pdus).phase = .Waiting := by
  obtain ⟨v, w, intervals, data, hdata, rfl⟩ := response_eq h
  have hstream : (c.receive_all ((v, .CacheResponse sid) :: data)).phase = .Streaming sid :=
    streaming_of_response hphase v hdata
  rw [← List.cons_append, receive_all_append]
  generalize c.receive_all ((v, .CacheResponse sid) :: data) = c' at hstream ⊢
  simp [receive_all, receive, hstream, receive_data]

/-- Before the End of Data an answer is expected. -/
theorem answering_early (hphase : c.phase = .Querying fallback force_reset)
    (h : IsResponse sid serial S T ((pdus ++ pdus').map Prod.snd)) (hne : pdus' ≠ []) :
    (c.receive_all pdus).answering = true := by
  obtain ⟨v, w, intervals, data, hdata, heq⟩ := response_eq h
  cases pdus with
  | nil => simp [receive_all, answering, hphase]
  | cons p pdus =>
    rw [List.cons_append, List.cons.injEq] at heq
    obtain ⟨rfl, heq⟩ := heq
    have hsub : pdus <+: data := by
      refine (List.prefix_concat_iff.1 ⟨pdus', heq⟩).resolve_left fun hall => hne ?_
      rw [← hall] at heq
      exact List.append_right_eq_self.1 heq
    rw [answering, streaming_of_response hphase v fun p hp => hdata p (hsub.subset hp)]

/-- **Serial Notify, exactly.** A response with Serial Notify PDUs put in between comes to the same
as the response alone, if and only if there is none, or one behind the End of Data. -/
theorem serial_notify_harmless_iff (c : Client M) (fallback force_reset : Bool) (sid : UInt16)
    (serial : UInt32) (S T : Set Payload) (pdus pdus' : List (RtrVersion × Pdu))
    (hphase : c.phase = .Querying fallback force_reset)
    (hresp : IsResponse sid serial S T (pdus.map Prod.snd))
    (hinserted : pdus'.filter (fun p => !p.2.is_notify) = pdus) :
    SameEnd (c.receive_all pdus) (c.receive_all pdus') ↔
      pdus' = pdus ∨
        ∃ version session_id n, pdus' = pdus ++ [(version, .SerialNotify session_id n)] := by
  have hwait := waiting_of_response hphase hresp
  constructor
  · intro hsame
    have hkept : (c.receive_all pdus').phase ≠ .Disconnected := fun h => by
      cases (hsame.kept.1 h).symm.trans hwait
    -- up to the first Serial Notify
    obtain ⟨front, hfront⟩ : ∃ l, l = pdus'.takeWhile fun p => !p.2.is_notify := ⟨_, rfl⟩
    have hplain : front.filter (fun p => !p.2.is_notify) = front :=
      List.filter_eq_self.2 fun p hp => List.all_eq_true.1 List.all_takeWhile p (hfront ▸ hp)
    have hsplit := List.takeWhile_append_dropWhile (p := fun p => !p.2.is_notify) (l := pdus')
    rw [← hfront] at hsplit
    cases hrest : pdus'.dropWhile fun p => !p.2.is_notify with
    | nil =>
      rw [hrest, List.append_nil] at hsplit
      rw [← hsplit, hplain] at hinserted
      exact .inl (hsplit.symm.trans hinserted)
    | cons p post =>
      have hp : p.2.is_notify = true := by
        have hhead := List.head?_dropWhile_not (fun p : RtrVersion × Pdu => !p.2.is_notify) pdus'
        rw [hrest] at hhead
        simpa using hhead
      rw [hrest] at hsplit
      rw [← hsplit, List.filter_append, hplain, List.filter_cons_of_neg (by simp [hp])] at hinserted
      rw [← hsplit, receive_all_append] at hkept
      have hpost : post.filter (fun p => !p.2.is_notify) = [] := by
        by_contra hne
        rw [← hinserted] at hresp
        exact hkept (receive_notify_answering (answering_early hphase hresp hne) hp post)
      rw [hpost, List.append_nil] at hinserted
      subst hinserted
      obtain ⟨version, pdu⟩ := p
      cases pdu with
      | SerialNotify session_id n =>
        cases post with
        | nil => exact .inr ⟨version, session_id, n, hsplit.symm⟩
        | cons q post =>
          -- the next query has been written, and the second one is read as its answer
          have hq : q.2.is_notify = true := by
            simpa using List.filter_eq_nil_iff.1 hpost q List.mem_cons_self
          rw [← List.singleton_append, receive_all_append, receive_notify_waiting hwait] at hkept
          exact absurd (receive_notify_answering rfl hq post) hkept
      | _ => cases hp
  · rintro (rfl | ⟨version, session_id, n, rfl⟩)
    · exact ⟨rfl, Iff.rfl⟩
    · rw [receive_all_append, receive_notify_waiting hwait]
      refine ⟨rfl, iff_of_false (fun h => ?_) fun h => ?_⟩
      · cases h
      · cases h.symm.trans hwait

/-- The client has asked for everything. -/
def asking : Client NetworkMap := (spawn NetworkMap .V1).connect

/-- The answer, with `early` before the payload and `late` behind the End of Data. -/
def noisy_response (early late : List (RtrVersion × Pdu)) : List (RtrVersion × Pdu) :=
  [(.V1, .CacheResponse 1)] ++ early ++ [(.V1, Rtr.roa), (.V1, .EndOfData 1 0 none)] ++ late

theorem notify_after_response :
    SameEnd (asking.receive_all (noisy_response [] []))
      (asking.receive_all (noisy_response [] [(.V1, .SerialNotify 1 1)])) :=
  (serial_notify_harmless_iff asking false false 1 0 ∅ {Rtr.roa_payload} (noisy_response [] [])
    (noisy_response [] [(.V1, .SerialNotify 1 1)]) rfl Rtr.response_first rfl).2
    (.inr ⟨_, _, _, rfl⟩)

/-- Between the Cache Response and the payload the Serial Notify ends the connection. -/
theorem notify_in_response :
    let noisy := noisy_response [(.V1, .SerialNotify 1 0)] []
    IsResponse 1 0 ∅ {Rtr.roa_payload} ((noisy_response [] []).map Prod.snd) ∧
      noisy.filter (fun p => !p.2.is_notify) = noisy_response [] [] ∧
      (asking.receive_all (noisy_response [] [])).phase = .Waiting ∧
      (asking.receive_all (noisy_response [] [])).table.serial = some 0 ∧
      (asking.receive_all noisy).phase = .Disconnected ∧
      (asking.receive_all noisy).table.serial = none :=
  ⟨Rtr.response_first, rfl, rfl, rfl, rfl, rfl⟩

end Client

end Pathvector.Rpki

/-
# A Cache Reset

A cache that cannot answer a Serial Query says Cache Reset, and the router is to ask for everything
(RFC 8210, section 8.3). `sync_once` does not expect the Cache Reset where the protocol has it, in
place of the Cache Response: it is an unexpected PDU there, the connection is given up, and the
serial number stays. The next connection asks with it again, and is refused again.

`apply_diff_stream` does expect one, between the PDUs of a response. There the table is cleared, and
with it the serial number, so that the next query is a Reset Query. The theorem is that the Cache
Reset is honoured in this place only.

The client alone is a machine here, whatever the cache says.
-/
import Pathvector.Rpki.Sync

set_option autoImplicit false

namespace Pathvector.Rpki

/-- What happens to the client's task. -/
inductive ClientInput where
  | Connect
  /-- The connection fails. -/
  | Fail
  | Receive (version : RtrVersion) (pdu : Pdu)
  /-- A sleep ends. -/
  | Wake

namespace Client

variable {M : (A : Type) → [IpAddress A] → [DecidableEq A] → Type → Type} [RouteMap M]

section

variable (c : Client M) (c' : Client M)

def step : ClientInput → Client M
  | .Connect => c.connect
  | .Fail => c.disconnect
  | .Receive version pdu => c.receive version pdu
  | .Wake => c.wake

def run (inputs : List ClientInput) : Client M := inputs.foldl step c

/-- What the task waits for. -/
def Allowed : ClientInput → Prop
  | .Connect => c.phase = .Disconnected
  | .Fail => c.phase ≠ .Disconnected
  | .Receive _ _ => c.reading = true
  | .Wake => c.phase = .Waiting ∨ ∃ fallback, c.phase = .NoData fallback

/-- The last query. -/
def asked : Option Pdu := c.sent.getLast?.map Prod.snd

/-- The answer to the last query has not come to its end. -/
def answering : Bool :=
  match c.phase with
  | .Querying _ _ | .Streaming _ => true
  | _ => false

/-- The queries of `c'` that `c` has not sent. -/
def later : List Pdu := (c'.sent.drop c.sent.length).map Prod.snd

/-- A Cache Reset that is read now is honoured, whatever happens then: the next query is a Reset
Query, and the serial number is not used again unless the cache gives it again. -/
def Honours (serial : UInt32) : Prop :=
  ∀ version inputs, Machine.Guarded step Allowed (c.receive version .CacheReset) inputs →
    (∀ query ∈ (c.later ((c.receive version .CacheReset).run inputs)).head?, query = .ResetQuery) ∧
      ∀ sid, .SerialQuery sid serial ∈ c.later ((c.receive version .CacheReset).run inputs) →
        ∃ v sid' intervals, .Receive v (.EndOfData sid' serial intervals) ∈ inputs

end

/-! ## What a step does -/

theorem serial_apply_prefix_pdu (t : RoaTable M) (pdu : Pdu) :
    (t.apply_prefix_pdu pdu).serial = t.serial := by
  cases pdu with
  | Ipv4Prefix flags =>
    unfold RoaTable.apply_prefix_pdu
    dsimp only
    split <;> rfl
  | Ipv6Prefix flags =>
    unfold RoaTable.apply_prefix_pdu
    dsimp only
    split <;> rfl
  | _ => rfl

/-- What a step makes of the client: it asks, or it sends nothing. -/
inductive Stepped (c : Client M) (input : ClientInput) : Client M → Prop where
  | asks (c₀ : Client M) (fallback force_reset : Bool)
      (htable : c₀.table = c.table ∨ c₀.table = c.table.clear) (hsent : c₀.sent = c.sent) :
      Stepped c input (c₀.sync_once fallback force_reset)
  | listens (c' : Client M) (hsent : c'.sent = c.sent)
      (hserial : c'.table.serial = c.table.serial ∨ c'.table.serial = none ∨
        ∃ version sid serial intervals, input = .Receive version (.EndOfData sid serial intervals)
          ∧ c'.table.serial = some serial)
      (hphase : ∀ fallback force_reset, c'.phase = .Querying fallback force_reset → c' = c) :
      Stepped c input c'

section

variable {c : Client M} {input : ClientInput}

theorem Stepped.gives_up (c₀ : Client M) (hsent : c₀.sent = c.sent)
    (hserial : c₀.table.serial = c.table.serial ∨ c₀.table.serial = none) :
    Stepped c input c₀.disconnect :=
  .listens _ hsent (hserial.imp id .inl) nofun

theorem stepped_receive_response (fallback force_reset : Bool) (version : RtrVersion) (pdu : Pdu) :
    Stepped c (.Receive version pdu) (c.receive_response fallback force_reset version pdu) := by
  cases pdu with
  | CacheResponse sid =>
    refine .listens _ rfl ?_ nofun
    unfold receive_response
    cases force_reset with
    | true => exact .inr (.inl rfl)
    | false => exact .inl rfl
  | ErrorReport code copy text =>
    unfold receive_response
    dsimp only
    split
    · exact .asks { c with negotiated_version := .V0, table := c.table.clear } _ _ (.inr rfl) rfl
    · split
      · exact .listens _ rfl (.inl rfl) nofun
      · exact .gives_up c rfl (.inl rfl)
  | _ => exact .gives_up c rfl (.inl rfl)

theorem stepped_receive_data (expected : UInt16) (hphase : c.phase = .Streaming expected)
    (version : RtrVersion) (pdu : Pdu) :
    Stepped c (.Receive version pdu) (c.receive_data expected pdu) := by
  have hquiet : ∀ t fallback force_reset,
      ({ c with table := t } : Client M).phase = .Querying fallback force_reset →
        ({ c with table := t } : Client M) = c := by
    intro t fallback force_reset h
    dsimp only at h
    rw [hphase] at h
    cases h
  cases pdu with
  | Ipv4Prefix | Ipv6Prefix => exact .listens _ rfl (.inl (serial_apply_prefix_pdu _ _)) (hquiet _)
  | RouterKey => exact .listens _ rfl (.inl rfl) fun _ _ _ => rfl
  | CacheReset => exact .asks { c with table := c.table.clear } _ _ (.inr rfl) rfl
  | EndOfData sid serial intervals =>
    unfold receive_data
    dsimp only
    split
    · exact .listens _ rfl (.inr (.inr ⟨version, sid, serial, intervals, rfl, rfl⟩)) nofun
    · exact .gives_up { c with table := c.table.clear } rfl (.inr rfl)
  | _ => exact .gives_up c rfl (.inl rfl)

theorem stepped (c : Client M) (input : ClientInput) : Stepped c input (c.step input) := by
  have hstay : Stepped c input c := .listens c rfl (.inl rfl) fun _ _ _ => rfl
  cases input with
  | Connect => exact .asks c _ _ (.inl rfl) rfl
  | Fail => exact .gives_up c rfl (.inl rfl)
  | Receive version pdu =>
    unfold step receive
    dsimp only
    split
    next fallback force_reset _ => exact stepped_receive_response fallback force_reset version pdu
    next expected hphase => exact stepped_receive_data expected hphase version pdu
    next =>
      split
      · exact .asks c _ _ (.inl rfl) rfl
      · exact .gives_up c rfl (.inl rfl)
    · exact hstay
    · exact hstay
  | Wake =>
    unfold step wake
    dsimp only
    split
    · exact .asks c _ _ (.inl rfl) rfl
    · exact .asks c _ _ (.inl rfl) rfl
    · exact hstay

end

/-! ## Along a run -/

/-- A client that waits for a response has sent the query that its state stands for. -/
def Asking (c : Client M) : Prop :=
  ∀ fallback force_reset, c.phase = .Querying fallback force_reset →
    c.asked = some (c.query force_reset)

theorem asking_run (initial_version : RtrVersion) (inputs : List ClientInput) :
    ((spawn M initial_version).run inputs).Asking := by
  refine List.foldlRecOn inputs step ?_ ?_
  · nofun
  · intro c hc input _ fallback force_reset hphase
    have hstepped := stepped c input
    generalize c.step input = c' at hphase hstepped ⊢
    cases hstepped with
    | asks c₀ =>
      cases hphase
      simp only [asked, sync_once, List.getLast?_append_cons, List.getLast?_singleton,
        Option.map_some, Option.some.injEq]
      rfl
    | listens _ _ _ hsame =>
      obtain rfl := hsame fallback force_reset hphase
      exact hc fallback force_reset hphase

theorem sent_run (c : Client M) (inputs : List ClientInput) : c.sent <+: (c.run inputs).sent := by
  refine List.foldlRecOn (motive := fun c' : Client M => c.sent <+: c'.sent) inputs step
    (List.prefix_refl _) ?_
  intro c' hc input _
  have hstepped := stepped c' input
  generalize c'.step input = next at hstepped ⊢
  cases hstepped with
  | asks c₀ _ _ _ hsent =>
    refine hc.trans ?_
    rw [← hsent]
    exact List.prefix_append _ _
  | listens _ hsent =>
    rw [hsent]
    exact hc

/-- The serial number is not in use, and has not been since the client was `c`. -/
structure Retired (c : Client M) (serial : UInt32) (c' : Client M) : Prop where
  table : c'.table.serial ≠ some serial
  queries : ∀ sid, .SerialQuery sid serial ∉ c.later c'

theorem query_ne_serial {c : Client M} {serial : UInt32} (h : c.table.serial ≠ some serial)
    (force_reset : Bool) (sid : UInt16) : c.query force_reset ≠ .SerialQuery sid serial := by
  intro hquery
  unfold query at hquery
  split at hquery
  · cases hquery
  · split at hquery
    next hserial _ =>
      cases hquery
      exact h hserial
    · cases hquery

/-- A step that does not get the serial number from the cache does not use it. -/
theorem retired_step {c c' : Client M} {serial : UInt32} (h : Retired c serial c')
    (hsent : c.sent <+: c'.sent) {input : ClientInput}
    (hinput : ∀ v sid intervals, input ≠ .Receive v (.EndOfData sid serial intervals)) :
    Retired c serial (c'.step input) := by
  have hstepped := stepped c' input
  generalize c'.step input = next at hstepped ⊢
  cases hstepped with
  | asks c₀ fallback force_reset htable hsame =>
    have hserial : c₀.table.serial ≠ some serial := by
      rcases htable with htable | htable
      · rw [htable]
        exact h.table
      · rw [htable]
        nofun
    refine ⟨hserial, fun sid hmem => ?_⟩
    have hlater : c.later (c₀.sync_once fallback force_reset)
        = c.later c' ++ [c₀.query force_reset] := by
      simp only [later, sync_once, hsame, List.drop_append_of_le_length hsent.length_le,
        List.map_append, List.map_cons, List.map_nil]
    rw [hlater, List.mem_append, List.mem_singleton] at hmem
    exact hmem.elim (h.queries sid) fun heq => query_ne_serial hserial force_reset sid heq.symm
  | listens _ hsame hserial =>
    constructor
    · rcases hserial with heq | heq | ⟨v, sid, n, intervals, heq, hn⟩
      · rw [heq]
        exact h.table
      · rw [heq]
        nofun
      · rw [hn]
        rintro ⟨⟩
        exact hinput v sid intervals heq
    · simp only [later, hsame]
      exact h.queries

theorem honours_of_streaming {c : Client M} (hstreaming : c.streaming = true) (serial : UInt32) :
    c.Honours serial := by
  intro version inputs _
  have hreset : c.receive version .CacheReset
      = { c with table := c.table.clear }.sync_once false false := by
    unfold receive
    cases hphase : c.phase with
    | Streaming expected => rfl
    | _ =>
      simp only [streaming, hphase] at hstreaming
      cases hstreaming
  set c₁ := c.receive version .CacheReset with hc₁
  have hfirst : c₁.sent = c.sent ++ [(c.negotiated_version, .ResetQuery)] := by
    rw [hreset]
    rfl
  have hgrows : ∀ inputs, c.sent <+: (c₁.run inputs).sent := by
    intro inputs
    refine List.IsPrefix.trans ?_ (sent_run c₁ inputs)
    rw [hfirst]
    exact List.prefix_append _ _
  constructor
  · obtain ⟨rest, hrest⟩ := sent_run c₁ inputs
    rw [hfirst, List.append_assoc] at hrest
    simp only [later, ← hrest, List.drop_left]
    simp
  · by_contra hnot
    push Not at hnot
    obtain ⟨sid, hmem, hgiven⟩ := hnot
    have hstart : Retired c serial c₁ := by
      constructor
      · rw [hreset]
        rintro ⟨⟩
      · intro sid hquery
        simp only [later, hfirst, List.drop_left, List.map_cons, List.map_nil,
          List.mem_singleton] at hquery
        cases hquery
    -- the run is followed with the inputs that are still to come
    have hrun : ∀ before after, before ++ after = inputs → Retired c serial (c₁.run before) := by
      intro before
      induction before using List.reverseRecOn with
      | nil => exact fun _ _ => hstart
      | append_singleton before input ih =>
        intro after hinputs
        rw [List.append_assoc] at hinputs
        rw [run, List.foldl_append]
        refine retired_step (ih _ hinputs) (hgrows before) ?_
        rintro v sid intervals rfl
        apply hgiven v sid intervals
        rw [← hinputs]
        simp
    exact (hrun inputs [] (List.append_nil _)).queries sid hmem

/-- In place of the response: the client gives up, and asks the same on the next connection. -/
theorem not_honours_of_querying {c : Client M} {fallback : Bool} {sid : UInt16} {serial : UInt32}
    (hphase : c.phase = .Querying fallback false)
    (hquery : c.query false = .SerialQuery sid serial) :
    ¬ c.Honours serial := by
  intro h
  have hreset : c.receive .V1 .CacheReset = c.disconnect := by
    simp only [receive, hphase, receive_response]
  have hlater : c.later ((c.receive .V1 .CacheReset).run [.Connect])
      = [.SerialQuery sid serial] := by
    rw [hreset, ← hquery]
    simp only [run, List.foldl_cons, List.foldl_nil, step, connect, later, sync_once, disconnect,
      List.drop_left, List.map_cons, List.map_nil]
    rfl
  obtain ⟨hnext, -⟩ := h .V1 [.Connect] (by rw [hreset]; exact ⟨rfl, trivial⟩)
  rw [hlater] at hnext
  cases hnext _ rfl

/-- **Cache Reset.** One that comes in answer to a Serial Query is honoured just if the response
was already under way. -/
theorem cache_reset_honoured_iff (initial_version : RtrVersion) (inputs : List ClientInput)
    {sid : UInt16} {serial : UInt32}
    (hasked : ((spawn M initial_version).run inputs).asked = some (.SerialQuery sid serial))
    (hanswering : ((spawn M initial_version).run inputs).answering = true) :
    ((spawn M initial_version).run inputs).Honours serial ↔
      ((spawn M initial_version).run inputs).streaming = true := by
  have hasking : ((spawn M initial_version).run inputs).Asking := asking_run initial_version inputs
  set c := (spawn M initial_version).run inputs
  constructor
  · intro h
    cases hphase : c.phase with
    | Streaming expected => simp only [streaming, hphase]
    | Querying fallback force_reset =>
      have hquery := hasking fallback force_reset hphase
      rw [hasked, Option.some.injEq] at hquery
      cases force_reset with
      | true => cases hquery
      | false => exact absurd h (not_honours_of_querying hphase hquery.symm)
    | _ =>
      simp only [answering, hphase] at hanswering
      cases hanswering
  · exact fun h => honours_of_streaming h serial

/-- The client has been given the serial number 0, asks with it, and the response begins. -/
def resync : List ClientInput :=
  [.Connect, .Receive .V1 (.CacheResponse 1), .Receive .V1 (.EndOfData 1 0 none), .Wake,
    .Receive .V1 (.CacheResponse 1)]

theorem resync_honoured :
    ((spawn NetworkMap .V1).run resync).asked = some (.SerialQuery 1 0) ∧
      ((spawn NetworkMap .V1).run resync).Honours 0 :=
  ⟨rfl, (cache_reset_honoured_iff .V1 resync rfl rfl).2 rfl⟩

end Client

/-! ## With a cache -/

namespace Rtr

/-- The client gets what the cache has, and asks again after a while; the cache cannot say what has
changed since. -/
def refused : List RtrEvent :=
  first_response ++ [.Deliver, .Wake, .Answer .V1 [.CacheReset]]

/-- A cache that follows the protocol refuses the serial number, and is asked the same again. -/
theorem refused_and_asked_again :
    Machine.Guarded step Legal (start NetworkMap .V1 small_cache)
        (refused ++ [.Deliver, .Connect]) ∧
      ((start NetworkMap .V1 small_cache).run refused).client.asked = some (.SerialQuery 1 0) ∧
      ((start NetworkMap .V1 small_cache).run refused).channel = [(.V1, .CacheReset)] ∧
      ((start NetworkMap .V1 small_cache).run refused).client.later
        ((start NetworkMap .V1 small_cache).run (refused ++ [.Deliver, .Connect])).client
          = [.SerialQuery 1 0] ∧
        ¬ ((start NetworkMap .V1 small_cache).run refused).client.Honours 0 := by
  refine ⟨?_, rfl, rfl, rfl, Client.not_honours_of_querying rfl rfl⟩
  have hwaiting : ((start NetworkMap .V1 small_cache).run
      (first_response ++ [.Deliver])).client.phase
      = .Waiting := rfl
  exact ⟨rfl, ⟨rfl, _, List.mem_singleton_self _, answers_first⟩, ⟨rfl, nofun⟩, ⟨rfl, nofun⟩,
    ⟨rfl, nofun⟩, .inl hwaiting,
    ⟨rfl, .SerialQuery 1 0, List.mem_singleton_self _, .inl ⟨_, rfl, rfl⟩⟩, ⟨rfl, nofun⟩, rfl,
    trivial⟩

end Rtr

end Pathvector.Rpki

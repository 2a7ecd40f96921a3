/-
# The RTR client

The client task (`pathvector-rpki/src/client.rs`) and the cache it talks to (RFC 8210).

The task is a state machine here: `Phase` says at which `await` it stands, and `receive` is what it
does with the PDU that it reads there. `run_session_loop` is the way from one connection to the
next: the table, the session id and the version outlive a connection.

The cache is the environment. It has a history of sets of payloads, by session and serial number,
and answers a query with the set or with a difference; it may also refuse, and be restarted with a
session id that was never used. What it wrote before that may still be read. The connection may
fail at any time.
-/
import Pathvector.Lib.Run
import Pathvector.Rpki.Table

set_option autoImplicit false

namespace Pathvector.Rpki

variable {M : (A : Type) → [IpAddress A] → [DecidableEq A] → Type → Type} [RouteMap M]

/-! ## The client -/

/-- Where the task waits. -/
inductive Phase where
  /-- `run_session_loop`, between two connections. -/
  | Disconnected
  /-- `sync_once`, after the query was written. -/
  | Querying (attempted_fallback force_reset : Bool)
  /-- `sync_once`, asleep because the cache had no data. -/
  | NoData (attempted_fallback : Bool)
  /-- `apply_diff_stream`. -/
  | Streaming (expected_session_id : UInt16)
  /-- `run_one_connection`, after an End of Data. -/
  | Waiting
  deriving DecidableEq

/-- The client, with the queries it has written. -/
structure Client (M : (A : Type) → [IpAddress A] → [DecidableEq A] → Type → Type) [RouteMap M]
    where
  table : RoaTable M
  negotiated_version : RtrVersion
  session_id : Option UInt16
  phase : Phase
  sent : List (RtrVersion × Pdu)

def ERROR_CODE_UNSUPPORTED_PROTOCOL_VERSION : UInt16 := 4
def ERROR_CODE_NO_DATA_AVAILABLE : UInt16 := 2

namespace Client

section

variable (c : Client M) (attempted_fallback : Bool) (force_reset : Bool)

/-- `RtrClient::spawn`. -/
def spawn (M : (A : Type) → [IpAddress A] → [DecidableEq A] → Type → Type) [RouteMap M]
    (initial_version : RtrVersion) : Client M :=
  ⟨.new, initial_version, none, .Disconnected, []⟩

/-- The query of a round of `sync_once`. -/
def query : Pdu :=
  if force_reset then .ResetQuery
  else
    match c.table.serial, c.session_id with
    | some serial, some session_id => .SerialQuery session_id serial
    | _, _ => .ResetQuery

/-- A round of `sync_once`, up to the response. -/
def sync_once : Client M :=
  { c with
    phase := .Querying attempted_fallback force_reset
    sent := c.sent ++ [(c.negotiated_version, c.query force_reset)] }

/-- A connection is made. -/
def connect : Client M := c.sync_once false false

/-- `run_one_connection` returns an error. -/
def disconnect : Client M := { c with phase := .Disconnected }

/-- The response to the query, in `sync_once`. -/
def receive_response (observed_version : RtrVersion) : Pdu → Client M
  | .CacheResponse session_id =>
    { c with
      negotiated_version := observed_version
      table := if force_reset then c.table.clear else c.table
      session_id := some session_id
      phase := .Streaming session_id }
  | .ErrorReport error_code _ _ =>
    if error_code = ERROR_CODE_UNSUPPORTED_PROTOCOL_VERSION ∧ attempted_fallback = false then
      { c with negotiated_version := .V0, table := c.table.clear }.sync_once true force_reset
    else if error_code = ERROR_CODE_NO_DATA_AVAILABLE then
      { c with phase := .NoData attempted_fallback }
    else c.disconnect
  | _ => c.disconnect

/-- One round of `apply_diff_stream`. -/
def receive_data (expected_session_id : UInt16) : Pdu → Client M
  | .Ipv4Prefix flags prefix_len max_len addr asn =>
    { c with table := c.table.apply_prefix_pdu (.Ipv4Prefix flags prefix_len max_len addr asn) }
  | .Ipv6Prefix flags prefix_len max_len addr asn =>
    { c with table := c.table.apply_prefix_pdu (.Ipv6Prefix flags prefix_len max_len addr asn) }
  | .RouterKey => c
  | .CacheReset => { c with table := c.table.clear }.sync_once false false
  | .EndOfData session_id serial _ =>
    if session_id = expected_session_id then
      { c with table := c.table.set_serial serial, phase := .Waiting }
    else { c with table := c.table.clear }.disconnect
  | _ => c.disconnect

/-- A PDU is read. -/
def receive (version : RtrVersion) (pdu : Pdu) : Client M :=
  match c.phase with
  | .Querying attempted_fallback force_reset =>
    c.receive_response attempted_fallback force_reset version pdu
  | .Streaming expected_session_id => c.receive_data expected_session_id pdu
  | .Waiting =>
    match pdu with
    | .SerialNotify _ _ => c.sync_once false false
    | _ => c.disconnect
  | .Disconnected | .NoData _ => c

/-- The client reads from the connection. -/
def reading : Bool :=
  match c.phase with
  | .Querying _ _ | .Streaming _ | .Waiting => true
  | .Disconnected | .NoData _ => false

/-- A sleep ends: the one after "no data available", or the refresh interval. -/
def wake : Client M :=
  match c.phase with
  | .NoData attempted_fallback => c.sync_once attempted_fallback true
  | .Waiting => c.sync_once false false
  | _ => c

/-- A response is being applied. -/
def streaming : Bool :=
  match c.phase with
  | .Streaming _ => true
  | _ => false

end

end Client

/-! ## The cache -/

/-- The cache: its session and serial number, and the sets of payloads it has had. -/
structure Cache where
  session_id : UInt16
  serial : UInt32
  history : UInt16 → UInt32 → Option (Set Payload)

namespace Cache

section

variable (cache : Cache) (session_id : UInt16) (serial : UInt32) (S : Set Payload)

/-- A cache with its first set. -/
def new : Cache :=
  ⟨session_id, serial, fun sid n => if sid = session_id ∧ n = serial then some S else none⟩

/-- A set is published under a serial number of a session, and both are current. -/
def publish : Cache where
  session_id := session_id
  serial := serial
  history sid n := if sid = session_id ∧ n = serial then some S else cache.history sid n

theorem history_new :
    (new session_id serial S).history session_id serial = some S := if_pos ⟨rfl, rfl⟩

theorem history_publish :
    (cache.publish session_id serial S).history session_id serial = some S := if_pos ⟨rfl, rfl⟩

end

end Cache

/-- A PDU of the body of a response. -/
def Pdu.is_data : Pdu → Bool
  | .Ipv4Prefix _ _ _ _ _ | .Ipv6Prefix _ _ _ _ _ | .RouterKey => true
  | _ => false

/-- A PDU that says that a query is refused. -/
def Pdu.is_refusal : Pdu → Bool
  | .CacheReset | .ErrorReport _ _ _ => true
  | _ => false

/-- The PDUs are a whole response with the given difference. -/
def IsResponse (session_id : UInt16) (serial : UInt32) (S T : Set Payload) (pdus : List Pdu) :
    Prop :=
  ∃ ds intervals, pdus = .CacheResponse session_id ::
    (ds ++ [.EndOfData session_id serial intervals])
    ∧ (∀ d ∈ ds, d.is_data = true) ∧ Journal.Difference (ds.filterMap Pdu.change?) S T

/-- How the cache may answer a query: a Reset Query with everything, a Serial Query with the
difference from the set of that serial number, and either with a refusal. The session that a Serial
Query names is not looked at here. -/
def Cache.Answers (cache : Cache) (query : Pdu) (pdus : List Pdu) : Prop :=
  (∃ pdu, pdus = [pdu] ∧ pdu.is_refusal = true) ∨
    ∃ T, cache.history cache.session_id cache.serial = some T ∧
      (query = .ResetQuery ∧ IsResponse cache.session_id cache.serial ∅ T pdus ∨
        ∃ sid n S, query = .SerialQuery sid n ∧ cache.history cache.session_id n = some S
          ∧ IsResponse cache.session_id cache.serial S T pdus)

/-! ## Client and cache -/

/-- The client, the cache and the connection between them. -/
structure Rtr (M : (A : Type) → [IpAddress A] → [DecidableEq A] → Type → Type) [RouteMap M]
    where
  client : Client M
  cache : Cache
  /-- The cache still has its end of the connection. -/
  alive : Bool
  /-- How many queries the cache has taken; those of a lost connection count. -/
  taken : ℕ
  /-- The PDUs on their way to the client. -/
  channel : List (RtrVersion × Pdu)
  /-- The prefix PDUs that were applied from the response in progress. -/
  applied : ℕ

inductive RtrEvent where
  | Connect
  /-- The connection fails. -/
  | Fail
  /-- The client reads the next PDU. -/
  | Deliver
  /-- A sleep of the client ends. -/
  | Wake
  | Publish (serial : UInt32) (S : Set Payload)
  | Restart (session_id : UInt16) (serial : UInt32) (S : Set Payload)
  | Answer (version : RtrVersion) (pdus : List Pdu)
  | Notify (version : RtrVersion)

namespace Rtr

/-- The client and the cache before the first connection. -/
def start (M : (A : Type) → [IpAddress A] → [DecidableEq A] → Type → Type) [RouteMap M]
    (initial_version : RtrVersion) (cache : Cache) : Rtr M :=
  ⟨.spawn M initial_version, cache, false, 0, [], 0⟩

/-- The queries the cache has yet to answer. -/
def outstanding (s : Rtr M) : List Pdu := (s.client.sent.drop s.taken).map Prod.snd

/-- The client moves; if it gave up the connection, nothing is on its way any more. -/
def move (s : Rtr M) (client : Client M) : Rtr M :=
  if client.phase = .Disconnected then
    { s with client := client, alive := false, channel := [], taken := client.sent.length }
  else { s with client := client }

/-- How many prefix PDUs of the response were applied, with one more PDU. -/
def count (applied : ℕ) (pdu : Pdu) : ℕ :=
  match pdu with
  | .CacheResponse _ => 0
  | .Ipv4Prefix _ _ _ _ _ | .Ipv6Prefix _ _ _ _ _ => applied + 1
  | _ => applied

def step (s : Rtr M) : RtrEvent → Rtr M
  | .Connect => { s with alive := true }.move s.client.connect
  | .Fail => s.move s.client.disconnect
  | .Deliver =>
    match s.channel with
    | [] => s
    | (version, pdu) :: channel =>
      { s with channel := channel, applied := count s.applied pdu }.move
        (s.client.receive version pdu)
  | .Wake => s.move s.client.wake
  | .Publish serial S => { s with cache := s.cache.publish s.cache.session_id serial S }
  | .Restart session_id serial S =>
    { s with cache := s.cache.publish session_id serial S, alive := false }
  | .Answer version pdus =>
    { s with taken := s.taken + 1, channel := s.channel ++ pdus.map fun pdu => (version, pdu) }
  | .Notify version =>
    { s with channel := s.channel ++ [(version, .SerialNotify s.cache.session_id s.cache.serial)] }

def run (s : Rtr M) (events : List RtrEvent) : Rtr M := events.foldl step s

/-- What may happen: the client does what its task allows, and the cache follows the protocol.
Serial numbers and session ids are not used twice. -/
def Legal (s : Rtr M) : RtrEvent → Prop
  | .Connect => s.client.phase = .Disconnected
  | .Fail => s.client.phase ≠ .Disconnected
  | .Deliver => s.client.reading = true ∧ s.channel ≠ []
  | .Wake => s.client.phase = .Waiting ∨ ∃ fallback, s.client.phase = .NoData fallback
  | .Publish serial _ => s.cache.history s.cache.session_id serial = none
  | .Restart session_id _ _ => ∀ n, s.cache.history session_id n = none
  | .Answer _ pdus => s.alive = true ∧ ∃ query ∈ s.outstanding, s.cache.Answers query pdus
  | .Notify _ => s.alive = true

end Rtr

end Pathvector.Rpki

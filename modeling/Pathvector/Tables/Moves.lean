/-
# The tables of one family

The daemon keeps, for each address family, what every peer announced (the Adj-RIBs-In), the
candidates and winners (the Loc-RIB), the prefixes a restarting peer has yet to announce
again, and tells the kernel layer about changes. Sessions, timers and operator calls are many,
but what they do to these tables is always one of a few moves: an UPDATE is heard, stale
prefixes are pruned, a table is cleared, a peer leaves, its routes are put back as stale ones,
its import policy is applied again, a route is originated or taken back, all winners are
chosen again.

`Tables` is that view of one family, and `Tables.move` what a move does to it. The moves name
nothing of the daemon besides: `Tables.Refinement` says which ones each event comes to.
-/
import Pathvector.Inbound.Intake

set_option autoImplicit false

namespace Pathvector

section

variable (A : Type) [IpAddress A] [DecidableEq A]

/-- A call to the kernel layer about one family. -/
inductive TableCall where
  | Apply (change : BestPathChange A)
  | ApplyBlackhole (nlri : Nlri A)
  | WithdrawBlackhole (nlri : Nlri A)

/-- The tables of one family. -/
structure Tables where
  adj_ribs_in : HashMap IpAddr (AdjRibIn A)
  loc_rib : LocRib A
  /-- The prefixes a peer that came back has yet to announce again. -/
  stale : HashMap IpAddr (HashSet (Nlri A))
  oracle : NextHopOracle
  /-- The calls to the kernel layer so far, if there is one. -/
  calls : Option (List (TableCall A))

/-- What can happen to the tables. -/
inductive Move where
  /-- An UPDATE of a peer, as its operations; the prefixes it refreshes are not stale any
  more. A message over a prefix limit is not reported. -/
  | Hear (peer : IpAddr) (policy : Policy A) (rtr : RtrHandle A) (ops : List (ImportOp A))
      (refreshed : List (Nlri A)) (reported : Bool)
  /-- The prefixes are withdrawn in the peer's name. -/
  | Prune (peer : IpAddr) (nlris : List (Nlri A))
  /-- The peer's Adj-RIB-In is emptied. -/
  | Clear (peer : IpAddr)
  /-- The peer loses its candidates. -/
  | Leave (peer : IpAddr)
  /-- The peer's routes are marked stale and inserted as they were announced. -/
  | Restale (peer : IpAddr)
  /-- The import policy judges the peer's routes again. -/
  | Reapply (peer : IpAddr) (policy : Policy A) (rtr : RtrHandle A)
  | Originate (route : Route A) (reported : Bool)
  | Unoriginate (nlri : Nlri A)
  /-- Every winner is chosen again. -/
  | Reselect
  /-- The peer gets an empty Adj-RIB-In. -/
  | NewAdjRibIn (peer : IpAddr)
  /-- What the peer announced is stale from now on. -/
  | MarkStale (peer : IpAddr)
  | DropStale (peer : IpAddr)
  /-- The peer is taken out. -/
  | Forget (peer : IpAddr)
  | SetOracle (oracle : NextHopOracle)
  | AttachKernel

end

variable {A : Type} [IpAddress A] [DecidableEq A]

/-- One announced route under an import policy: `reapply_import_policy` withdraws what the
policy does not accept. -/
def Policy.reapplied (policy : Policy A) (rtr : RtrHandle A) (raw : Route A) : RibOp A :=
  match policy.evaluate rtr raw with
  | (.Accept, route) => .Put route
  | _ => .Drop raw.nlri

namespace Tables

section

variable (t : Tables A) (peer : IpAddr) (st : ImportState A) (refreshed : List (Nlri A))

/-- What a peer has announced for a prefix. -/
def held (n : Nlri A) : Option (Route A) :=
  (t.adj_ribs_in.lookup peer).bind (·.get n)

/-- The routes of a peer's Adj-RIB-In. -/
def announced : List (Route A) :=
  stale_routes (t.adj_ribs_in.lookup peer)

/-- The prefixes of a peer that are still stale. -/
def pending : HashSet (Nlri A) :=
  (t.stale.lookup peer).getD ∅

/-- Makes calls to the kernel layer, when there is one. -/
def tell (calls : List (TableCall A)) : Tables A :=
  { t with calls := t.calls.map (· ++ calls) }

/-- A batch of changes to the candidates of a peer. -/
def batch (peer : PeerId) (ops : List (RibOp A)) (reported : Bool) : Tables A :=
  let r := t.loc_rib.run_ops peer t.oracle ops
  { t with loc_rib := r.1 }.tell (if reported then r.2.map .Apply else [])

/-- The calls of an UPDATE that is reported, on the tables `st` it leaves. -/
def update_calls : List (TableCall A) :=
  st.fib_changes.map .Apply ++ st.blackhole_announced.map .ApplyBlackhole
    ++ st.blackhole_withdrawn.flatMap fun n =>
      .WithdrawBlackhole n :: ((st.loc_rib.best n).map fun r => .Apply (.Announced n r)).toList

/-- What the operations of an UPDATE make of the peer's tables. -/
def intake (policy : Policy A) (rtr : RtrHandle A) (ops : List (ImportOp A)) : ImportState A :=
  (ImportState.start ((t.adj_ribs_in.lookup peer).getD (AdjRibIn.new peer)) t.loc_rib).take_all
    peer t.oracle policy rtr ops

/-- The tables with an UPDATE in them. -/
def heard : Tables A :=
  { t with
    adj_ribs_in := t.adj_ribs_in.modify peer fun _ => st.adj_rib_in
    loc_rib := st.loc_rib
    stale := t.stale.modify peer fun stale => refreshed.foldl (fun st n => st.erase n) stale }

/-- What a move does. -/
def move : Move A → Tables A
  | .Hear peer policy rtr ops refreshed reported =>
    let st := t.intake peer policy rtr ops
    (t.heard peer st refreshed).tell (if reported then update_calls st else [])
  | .Prune peer nlris =>
    let blackholes := nlris.filter fun n => (t.held peer n).any Route.is_blackhole
    { t with
      adj_ribs_in := t.adj_ribs_in.modify peer fun ari => nlris.foldl AdjRibIn.withdraw ari
    }.tell (blackholes.map .WithdrawBlackhole) |>.batch peer (nlris.map .Drop) true
  | .Clear peer =>
    { t with adj_ribs_in := t.adj_ribs_in.modify peer AdjRibIn.clear }.tell
      (((t.announced peer).filter Route.is_blackhole).map fun r : Route A =>
        .WithdrawBlackhole r.nlri)
  | .Leave peer => t.batch peer ((t.loc_rib.prefixes_of peer).map .Drop) true
  | .Restale peer =>
    let t := { t with adj_ribs_in := t.adj_ribs_in.modify peer AdjRibIn.mark_all_stale }
    t.batch peer ((t.announced peer).map .Put) true
  | .Reapply peer policy rtr =>
    t.batch peer ((t.announced peer).map (policy.reapplied rtr)) true
  | .Originate route reported => t.batch LOCAL_ORIGIN_PEER [.Put route] reported
  | .Unoriginate nlri => t.batch LOCAL_ORIGIN_PEER [.Drop nlri] true
  | .Reselect =>
    let r := t.loc_rib.recompute_all t.oracle
    { t with loc_rib := r.1 }.tell (r.2.map .Apply)
  | .NewAdjRibIn peer => { t with adj_ribs_in := t.adj_ribs_in.insert peer (AdjRibIn.new peer) }
  | .MarkStale peer =>
    { t with
      stale := DaemonState.mark_stale_set t.stale (t.adj_ribs_in.lookup peer) peer true }
  | .DropStale peer => { t with stale := t.stale.erase peer }
  | .Forget peer =>
    { t with adj_ribs_in := t.adj_ribs_in.erase peer, stale := t.stale.erase peer }
  | .SetOracle oracle => { t with oracle := oracle }
  | .AttachKernel => { t with calls := some [] }

/-- One move after the other. -/
def moves (ms : List (Move A)) : Tables A := ms.foldl move t

theorem moves_append (ms ms' : List (Move A)) : t.moves (ms ++ ms') = (t.moves ms).moves ms' :=
  List.foldl_append

theorem tell_nil : t.tell [] = t := by
  obtain ⟨_, _, _, _, calls⟩ := t
  unfold tell
  cases calls <;> simp

theorem tell_tell (a b : List (TableCall A)) : (t.tell a).tell b = t.tell (a ++ b) := by
  obtain ⟨_, _, _, _, calls⟩ := t
  unfold tell
  cases calls <;> simp

theorem batch_nil (peer : PeerId) (reported : Bool) : t.batch peer [] reported = t := by
  cases reported <;> exact tell_nil _

theorem moves_restale_of_nil
    (h : stale_routes ((t.adj_ribs_in.modify peer AdjRibIn.mark_all_stale).lookup peer) = []) :
    t.moves [.Restale peer]
      = { t with adj_ribs_in := t.adj_ribs_in.modify peer AdjRibIn.mark_all_stale } := by
  have hput : announced { t with adj_ribs_in := t.adj_ribs_in.modify peer AdjRibIn.mark_all_stale }
      peer = [] := h
  unfold moves
  rw [List.foldl_cons, List.foldl_nil, move, hput]
  exact batch_nil ..

end

end Tables

end Pathvector

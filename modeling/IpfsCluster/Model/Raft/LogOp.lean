import IpfsCluster.Model.State.Datastore

/-! # The replicated log

The peers of a Raft cluster apply the operations of one log to their states, in the order of the log. That all peers
have the same log is left to the Raft library. A snapshot is the dump of a state after some number of operations; a
peer that starts reads one into an empty datastore and goes on after it.
-/

namespace IpfsCluster.Model.Raft

open Api Dsstate Datastore Golang

def logOpPin : ℤ := 1
def logOpUnpin : ℤ := 2

structure LogOp where
  cid : Pin
  type : ℤ

/-- The calls to the pin tracker, which are not waited for. -/
inductive TrackerCall where
  | track (pin : Pin)
  | untrack (pin : Pin)

def rollback (err : String) : Except Error State × List TrackerCall :=
  (.error (.text ("a rollback may be necessary. Reason: " ++ err)), [])

/-- Apply an operation to a state; `fault` is the error of the datastore. -/
def LogOp.applyTo (codec : CidKeyCodec) (op : LogOp) (fault : Option String) (st : State) :
    Except Error State × List TrackerCall :=
  if op.type = logOpPin then
    match fault with
    | some err => rollback err
    | none => (.ok (st.add codec op.cid), [.track op.cid])
  else if op.type = logOpUnpin then
    match fault with
    | some err => rollback err
    | none => (.ok (st.rm codec op.cid.cid), [.untrack op.cid])
  else (.ok st, [])

/-- The state in a datastore, into which the last snapshot is read if there is one. -/
def offlineState {β : Type} (handle : Handle β) (st : State) : Option (List β) → Except Error State
  | none => .ok st
  | some bytes =>
    match st.unmarshal handle bytes with
    | (some err, _) => .error err
    | (none, st) => .ok st

structure Replica where
  state : State
  applied : ℕ := 0

structure Snapshot (β : Type) where
  index : ℕ
  bytes : List β

structure Replication (β : Type) where
  log : List LogOp := []
  peers : PeerID → Replica
  snapshots : List (Snapshot β) := []

inductive ReplicationEvent where
  | commitOp (op : LogOp)
  | apply (peer : PeerID)
  | snapshot (peer : PeerID) (order : MapOrder)
  | restart (peer : PeerID) (taken : ℕ)

def Replication.new (β : Type) (ns : PeerID → Key) : Replication β where
  peers peer := { state := { ns := ns peer } }

/-- The peers of a cluster, which apply, dump and restart in any order. -/
def replication {β : Type} (codec : CidKeyCodec) (handle : Handle β) :
    Machine.LabeledMachine (Replication β) ReplicationEvent where
  step s
    | .commitOp op => some { s with log := s.log ++ [op] }
    | .apply peer =>
      let replica := s.peers peer
      match s.log[replica.applied]? with
      | none => none
      | some op =>
        match (op.applyTo codec none replica.state).1 with
        | .error _ => none
        | .ok state => some { s with peers := Function.update s.peers peer ⟨state, replica.applied + 1⟩ }
    | .snapshot peer order =>
      let replica := s.peers peer
      some { s with snapshots := s.snapshots ++ [⟨replica.applied, replica.state.marshal handle order⟩] }
    | .restart peer taken =>
      match s.snapshots[taken]? with
      | none => none
      | some snapshot =>
        match offlineState handle { ns := (s.peers peer).state.ns } (some snapshot.bytes) with
        | .error _ => none
        | .ok state => some { s with peers := Function.update s.peers peer ⟨state, snapshot.index⟩ }

end IpfsCluster.Model.Raft

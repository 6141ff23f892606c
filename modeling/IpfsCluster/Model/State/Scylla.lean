import IpfsCluster.Machine.Run
import IpfsCluster.Model.Api.Query

/-! # The pinset in ScyllaDB

A pin is a row of a table by its CID, partitioned by the first bytes of the CID. The columns are narrower than the
fields of a pin. A row is inserted if there is none, and updated or deleted if it still is the one that was read; what
other writers do in between is left open. Statements may fail; the other tables that are written never fail the
operation.

In a history, a client calls the state again and again, nobody else writes pins, and every statement succeeds. Between
the calls, the orchestrator writes where pinned CIDs are placed, which the state itself never does.
-/

namespace IpfsCluster.Model.Scyllastate

open Api Golang Machine

/-- An instant as a column holds it, in whole milliseconds. -/
def toTimestamp (t : Time) : Time := ⟨t.nanos / 10 ^ 6 * 10 ^ 6⟩

def unixMilli (t : Time) : Int64 := Int64.ofInt (t.nanos / 10 ^ 6)

def ofUnixMilli (millis : Int64) : Time := ⟨millis.toInt * 10 ^ 6⟩

structure PinRow where
  pinType : BitVec 8
  rf : BitVec 8
  owner : String
  tags : Finset String
  ttl : Option Int64
  metadata : Metadata
  createdAt : Time
  updatedAt : Time

structure PlacementRow where
  desired : Finset String := ∅
  actual : Finset String := ∅
  updatedAt : Time

/-- The partition and the bytes of a CID. -/
abbrev PartitionedKey := BitVec 16 × Cid

/-- The first two bytes, for the partition. -/
def mhPrefix (cidBin : Cid) : BitVec 16 :=
  match cidBin.bytes.toList with
  | first :: second :: _ => BitVec.ofNat 16 first.toNat <<< 8 ||| BitVec.ofNat 16 second.toNat
  | _ => 0

def cidToPartitionedKey (cidBin : Cid) : PartitionedKey := (mhPrefix cidBin, cidBin)

structure PeerPinRow where
  state : BitVec 8
  lastSeen : Time

/-- The tables; the queue of expiries has the hour, the time and the CID as its key. -/
structure Tables where
  pinsByCid : AList (fun _ : PartitionedKey => PinRow) := ∅
  placementsByCid : AList (fun _ : PartitionedKey => PlacementRow) := ∅
  pinsByPeer : AList (fun _ : String × PartitionedKey => PeerPinRow) := ∅
  pinTtlQueue : AList (fun _ : Time × Time × Cid => String) := ∅

structure ScyllaState where
  closed : Bool := false
  tables : Tables := {}
  totalPins : ℤ := 0

structure Faults where
  select : Option String := none
  write : Option String := none
  placement : Option String := none
  ttl : Option String := none

/-- The errors of the statements of a removal; each peer has its own. -/
structure RmFaults where
  select : Option String := none
  delete : Option String := none
  placement : Option String := none
  selectPlacement : Option String := none
  peerPin : String → Option String := fun _ => none
  ttl : Option String := none

def ttlKey (cid : Cid) (ttlMillis : Int64) : Time × Time × Cid :=
  let ttlTime := ofUnixMilli ttlMillis
  (⟨ttlTime.nanos / (3600 * 10 ^ 9) * (3600 * 10 ^ 9)⟩, ttlTime, cid)

section

variable (codecs : TextCodecs)

def rowMetadata (pin : Pin) : Metadata :=
  let metadata : Metadata := ∅
  let metadata := if pin.name ≠ "" then metadata.insert "name" pin.name else metadata
  match pin.reference with
  | none => metadata
  | some reference => metadata.insert "reference" (codecs.cidString reference)

def toRow (pin : Pin) (createdAt now : Time) : PinRow where
  pinType := pin.type.setWidth 8
  rf := BitVec.ofInt 8 pin.replicationFactorMin
  owner := ""
  tags := (pin.origins.map codecs.multiaddrString).toFinset
  ttl := if !pin.expireAt.isZero then some (unixMilli pin.expireAt) else none
  metadata := rowMetadata codecs pin
  createdAt := toTimestamp createdAt
  updatedAt := toTimestamp now

def fromRow (cid : Cid) (row : PinRow) : Pin where
  cid := cid
  type := row.pinType.setWidth 64
  maxDepth := -1
  timestamp := row.createdAt
  replicationFactorMin := row.rf.toNat
  replicationFactorMax := row.rf.toNat
  expireAt := match row.ttl with
    | none => Time.zero
    | some ttl => ofUnixMilli ttl
  origins := (row.tags.sort (· ≤ ·)).filterMap fun tag => (codecs.newMultiaddr tag).toOption
  name := (row.metadata.lookup "name").getD ""
  reference := (row.metadata.lookup "reference").bind fun ref => (codecs.decodeCid ref).toOption

namespace ScyllaState

variable (s : ScyllaState)

def get (fault : Option String) (cid : Cid) : Except Error Pin :=
  if s.closed then .error (.text "ScyllaState is closed")
  else match fault with
    | some err => .error (.text ("failed to get pin: " ++ err))
    | none =>
      match s.tables.pinsByCid.lookup (cidToPartitionedKey cid) with
      | none => .error .notFound
      | some row => .ok (fromRow codecs cid row)

def putRow (cid : Cid) (row : PinRow) : ScyllaState :=
  let pinsByCid := s.tables.pinsByCid.insert (cidToPartitionedKey cid) row
  { s with tables := { s.tables with pinsByCid := pinsByCid } }

/-- Update a row if it still has the time that was read. -/
def updateRow (pin existingPin : Pin) (now : Time) : Except Error ScyllaState :=
  match s.tables.pinsByCid.lookup (cidToPartitionedKey pin.cid) with
  | none => .error (.text "pin update failed due to concurrent modification")
  | some row =>
    if row.updatedAt = toTimestamp existingPin.timestamp then
      .ok (s.putRow pin.cid { toRow codecs pin now now with createdAt := row.createdAt })
    else .error (.text "pin update failed due to concurrent modification")

def insertRow (pin : Pin) (now : Time) : Except Error ScyllaState :=
  match s.tables.pinsByCid.lookup (cidToPartitionedKey pin.cid) with
  | some _ => .error (.text "pin creation failed due to concurrent creation")
  | none => .ok (s.putRow pin.cid (toRow codecs pin now now))

def initializePlacement (fault : Option String) (cid : Cid) (timestamp : Time) : ScyllaState :=
  if fault.isSome then s
  else
    let placement : PlacementRow := { updatedAt := toTimestamp timestamp }
    let placementsByCid := s.tables.placementsByCid.insert (cidToPartitionedKey cid) placement
    { s with tables := { s.tables with placementsByCid := placementsByCid } }

/-- Queue the expiry of a pin under its hour. -/
def addToTTLQueue (fault : Option String) (cid : Cid) (ttlMillis : Int64) (owner : String) : ScyllaState :=
  if fault.isSome then s
  else
    let ttlTime := ofUnixMilli ttlMillis
    let ttlBucket : Time := ⟨ttlTime.nanos / (3600 * 10 ^ 9) * (3600 * 10 ^ 9)⟩
    let pinTtlQueue := s.tables.pinTtlQueue.insert (ttlBucket, ttlTime, cid) owner
    { s with tables := { s.tables with pinTtlQueue := pinTtlQueue } }

def finishAdd (faults : Faults) (pin : Pin) (now : Time) (isUpdate : Bool) : ScyllaState :=
  let s := s.initializePlacement faults.placement pin.cid now
  let s := if !pin.expireAt.isZero then s.addToTTLQueue faults.ttl pin.cid (unixMilli pin.expireAt) "" else s
  if !isUpdate then { s with totalPins := s.totalPins + 1 } else s

/-- The conditional statement for a pin that was found or not. -/
def writeRow (fault : Option String) (pin : Pin) (now : Time) (existing : Except Error Pin) :
    Except Error ScyllaState :=
  match existing, fault with
  | .ok _, some err => .error (.text ("failed to execute conditional update: " ++ err))
  | .ok existingPin, none => s.updateRow codecs pin existingPin now
  | .error _, some err => .error (.text ("failed to execute conditional insert: " ++ err))
  | .error _, none => s.insertRow codecs pin now

/-- Add a pin or replace it; `seen` is the state when the existing pin is read. -/
def add (seen : ScyllaState) (faults : Faults) (now : Time) (pin : Pin) : Option Error × ScyllaState :=
  if s.closed then (some (.text "ScyllaState is closed"), s)
  else
    let existing := seen.get codecs faults.select pin.cid
    match s.writeRow codecs faults.write pin now existing with
    | .error err => (some err, s)
    | .ok s => (none, s.finishAdd faults pin now existing.isOk)

/-- Delete a row if it still has the time that was read. -/
def deleteRow (cid : Cid) (existingPin : Pin) : Except Error ScyllaState :=
  match s.tables.pinsByCid.lookup (cidToPartitionedKey cid) with
  | none => .error (.text "pin deletion failed due to concurrent modification")
  | some row =>
    if row.updatedAt = toTimestamp existingPin.timestamp then
      let pinsByCid := s.tables.pinsByCid.erase (cidToPartitionedKey cid)
      .ok { s with tables := { s.tables with pinsByCid := pinsByCid } }
    else .error (.text "pin deletion failed due to concurrent modification")

def cleanupPlacement (fault : Option String) (cid : Cid) : ScyllaState :=
  if fault.isSome then s
  else
    let placementsByCid := s.tables.placementsByCid.erase (cidToPartitionedKey cid)
    { s with tables := { s.tables with placementsByCid := placementsByCid } }

def getPeersForPin (fault : Option String) (cid : Cid) : Except Error (List String) :=
  match fault with
  | some err => .error (.text ("failed to get placement for peer cleanup: " ++ err))
  | none =>
    match s.tables.placementsByCid.lookup (cidToPartitionedKey cid) with
    | none => .ok []
    | some placement => .ok ((placement.desired ∪ placement.actual).sort (· ≤ ·))

def deletePeerPin (fault : Option String) (peer : String) (cid : Cid) : ScyllaState :=
  if fault.isSome then s
  else
    let pinsByPeer := s.tables.pinsByPeer.erase (peer, cidToPartitionedKey cid)
    { s with tables := { s.tables with pinsByPeer := pinsByPeer } }

/-- Delete the rows of the peers of the placement; what fails is only logged. -/
def cleanupPeerPins (faults : RmFaults) (cid : Cid) : ScyllaState :=
  match s.getPeersForPin faults.selectPlacement cid with
  | .error _ => s
  -- the source visits the peers in any order; each deletion has its own row
  | .ok peers => peers.foldl (fun s peer => s.deletePeerPin (faults.peerPin peer) peer cid) s

def removeFromTTLQueue (fault : Option String) (cid : Cid) (ttlMillis : Int64) : ScyllaState :=
  if fault.isSome then s
  else
    let pinTtlQueue := s.tables.pinTtlQueue.erase (ttlKey cid ttlMillis)
    { s with tables := { s.tables with pinTtlQueue := pinTtlQueue } }

def finishRm (faults : RmFaults) (cid : Cid) (existingPin : Pin) : ScyllaState :=
  let s := s.cleanupPlacement faults.placement cid
  let s := s.cleanupPeerPins faults cid
  let s := if !existingPin.expireAt.isZero then
    s.removeFromTTLQueue faults.ttl cid (unixMilli existingPin.expireAt) else s
  { s with totalPins := s.totalPins - 1 }

/-- Remove a pin; `seen` is the state when the existing pin is read. -/
def rm (seen : ScyllaState) (faults : RmFaults) (cid : Cid) : Option Error × ScyllaState :=
  if s.closed then (some (.text "ScyllaState is closed"), s)
  else
    match seen.get codecs faults.select cid, faults.delete with
    | .error .notFound, _ => (some .notFound, s)
    | .error (.text err), _ => (some (.text ("failed to get pin details for deletion: " ++ err)), s)
    | .ok _, some err => (some (.text ("failed to execute conditional delete: " ++ err)), s)
    | .ok existingPin, none =>
      match s.deleteRow cid existingPin with
      | .error err => (some err, s)
      | .ok s => (none, s.finishRm faults cid existingPin)

end ScyllaState

end

inductive ScyllaCall where
  | add (now : Time) (pin : Pin)
  | rm (cid : Cid)

def ScyllaCall.cid : ScyllaCall → Cid
  | .add _ pin => pin.cid
  | .rm cid => cid

inductive TableEvent where
  | call (call : ScyllaCall)
  | place (cid : Cid) (placement : PlacementRow)
  | assign (peer : String) (cid : Cid) (row : PeerPinRow)

section

variable (codecs : TextCodecs)

namespace ScyllaState

def call (s : ScyllaState) : ScyllaCall → Option Error × ScyllaState
  | .add now pin => s.add codecs s {} now pin
  | .rm cid => s.rm codecs s {} cid

def errors (s : ScyllaState) : List ScyllaCall → List (Option Error)
  | [] => []
  | call :: rest => (s.call codecs call).1 :: (s.call codecs call).2.errors rest

def row (s : ScyllaState) (cid : Cid) : Option PinRow := s.tables.pinsByCid.lookup (cidToPartitionedKey cid)

def pinned (s : ScyllaState) (cid : Cid) : Bool := (s.row cid).isSome

def insertPlacement (s : ScyllaState) (cid : Cid) (placement : PlacementRow) : ScyllaState :=
  let placementsByCid := s.tables.placementsByCid.insert (cidToPartitionedKey cid) placement
  { s with tables := { s.tables with placementsByCid := placementsByCid } }

def insertPeerPin (s : ScyllaState) (peer : String) (cid : Cid) (row : PeerPinRow) : ScyllaState :=
  let pinsByPeer := s.tables.pinsByPeer.insert (peer, cidToPartitionedKey cid) row
  { s with tables := { s.tables with pinsByPeer := pinsByPeer } }

end ScyllaState

/-- Calls that return no error, and what the orchestrator writes for CIDs that are pinned. -/
def tableMachine : LabeledMachine ScyllaState TableEvent where
  step s
    | .call call =>
      match s.call codecs call with
      | (none, next) => some next
      | (some _, _) => none
    | .place cid placement => if s.pinned cid then some (s.insertPlacement cid placement) else none
    | .assign peer cid row => if s.pinned cid then some (s.insertPeerPin peer cid row) else none

end

end IpfsCluster.Model.Scyllastate

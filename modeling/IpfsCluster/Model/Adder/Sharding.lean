import IpfsCluster.Golang.Fallible
import IpfsCluster.Golang.Indexed
import IpfsCluster.Model.Api.Types

/-! # Sharding

Shards and the clusterDAG are CBOR nodes that hold a map of links; a sequence of links that is too long for one block is
split over leaf nodes, to which an indirect node links. `wrapObject`, which serializes and hashes a map of links, is a
parameter.

The blocks of content that is added are put into shards. A full shard is flushed: its nodes are sent to its peers and
its root is pinned. At the end the clusterDAG over the shards and the meta pin are pinned. The rest of the cluster is
reached through calls on a world of any type. Contexts are not canceled.
-/

namespace IpfsCluster.Model.Adder

open Api Golang Golang.Fallible

abbrev DagObj := AList (fun _ : String => Cid)

/-- The maximal number of links that fit into a block when they are serialized. -/
def maxLinks : ℕ := 5984

structure CborNode where
  cid : Cid
  obj : DagObj

/-- The links of a node, in the order in which the map is visited. -/
def CborNode.links (node : CborNode) (order : MapOrder) : List Cid :=
  (order.visit [] node.obj.entries).map (·.2)

section

variable (wrapObject : DagObj → Except Error Cid)

def makeDAGSimple (dagObj : DagObj) : Except Error CborNode := do
  let c ← wrapObject dagObj
  return { cid := c, obj := dagObj }

/-- Fill a leaf from the given positions on, up to the end of the links. Only the last leaf may end
early. -/
def fillLeaf (dagObj : DagObj) (numFullLeaves i : ℕ) : List ℕ → DagObj → Except Error DagObj
  | [], leafObj => .ok leafObj
  | j :: rest, leafObj =>
    match dagObj.lookup (decimal (i * maxLinks + j)) with
    | none => if i ≠ numFullLeaves then .error (.text "bad state, should never be here") else .ok leafObj
    | some c => fillLeaf dagObj numFullLeaves i rest (leafObj.insert (decimal j) c)

/-- The loop over the leaves, with the indirect map and the leaf nodes so far. -/
def makeLeaves (dagObj : DagObj) (numFullLeaves : ℕ) :
    List ℕ → DagObj → List CborNode → Except Error (DagObj × List CborNode)
  | [], indirectObj, leafNodes => .ok (indirectObj, leafNodes)
  | i :: rest, indirectObj, leafNodes => do
    let leafObj ← fillLeaf dagObj numFullLeaves i (List.range maxLinks) ∅
    let leafNode ← makeDAGSimple wrapObject leafObj
    makeLeaves dagObj numFullLeaves rest (indirectObj.insert (decimal i) leafNode.cid) (leafNodes ++ [leafNode])

def makeDAG (dagObj : DagObj) : Except Error (List CborNode) :=
  if dagObj.entries.length ≤ maxLinks then do
    let n ← makeDAGSimple wrapObject dagObj
    return [n]
  else do
    let numFullLeaves := dagObj.entries.length / maxLinks
    let (indirectObj, leafNodes) ← makeLeaves wrapObject dagObj numFullLeaves (List.range (numFullLeaves + 1)) ∅ []
    let indirectNode ← makeDAGSimple wrapObject indirectObj
    return indirectNode :: leafNodes

end

/-- What a block holds: links in CBOR, or data that does not parse as such a node. -/
inductive RawBlock where
  | cbor (obj : DagObj)
  | other (parseError : String)

/-- Parse a block into a node, which has the CID of the block. -/
def cborDataToNode (c : Cid) : RawBlock → Except Error CborNode
  | .cbor obj => .ok { cid := c, obj := obj }
  | .other parseError => .error (.text parseError)

/-- A block: its CID and the number of bytes, which is the length of a slice. -/
structure Node where
  cid : Cid
  size : ℕ
  isInt : size < 2 ^ 63

/-- What the adder asks of the rest of the cluster. Blocks are handed over to a stream to some peers;
at its end, the stream tells whether it failed. -/
structure Rpc (World : Type) where
  now : World → Time
  blockAllocate : Pin → EStateM Error World (List PeerID)
  sendBlock : List PeerID → Cid → EStateM Error World Unit
  finishStream : List PeerID → EStateM Error World Unit
  pin : Pin → EStateM Error World Unit

structure Shard where
  allocations : List PeerID
  pinOptions : PinOptions
  dagNode : DagObj := ∅
  currentSize : BitVec 64 := 0
  sizeLimit : BitVec 64

namespace Shard

variable (sh : Shard)

def addLink (c : Cid) (s : BitVec 64) : Shard :=
  { sh with dagNode := Indexed.push sh.dagNode c, currentSize := sh.currentSize + s }

def lastLink : Cid := (sh.dagNode.lookup (decimal (sh.dagNode.entries.length - 1))).getD Cid.undef

def links : List Cid := Indexed.toList sh.dagNode

def shardPin (nodes : List CborNode) (rootCid : Cid) (shardN : ℕ) (prev : Cid) (now : Time) : Pin :=
  { pinWithOpts rootCid sh.pinOptions now with
    name := sh.pinOptions.name ++ "-shard-" ++ decimal shardN
    allocations := sh.allocations
    type := PinType.shardType
    reference := some prev
    maxDepth := if nodes.length > sh.dagNode.entries.length + 1 then 2 else 1
    shardSize := sh.currentSize }

end Shard

/-- The state of an adding session. The shards that were flushed are recorded with their pins. -/
structure DAGService where
  addParams : PinOptions
  addedSet : List Cid := []
  currentShard : Option Shard := none
  previousShard : Cid := Cid.undef
  shards : DagObj := ∅
  totalSize : BitVec 64 := 0
  flushed : List (Shard × Pin) := []

/-- A session starts with the mode set to recursive. -/
def DAGService.new (opts : PinOptions) : DAGService := { addParams := { opts with mode := PinMode.recursive } }

section

variable {World : Type} (rpc : Rpc World) (wrapObject : DagObj → Except Error Cid)

def timeNow : EStateM Error World Time := fun w => .ok (rpc.now w) w

def blockAllocate (pinOpts : PinOptions) : EStateM Error World (List PeerID) := do
  let now ← timeNow rpc
  rpc.blockAllocate (pinWithOpts Cid.undef pinOpts now)

/-- Submit a pin; what is replicated everywhere has no allocations. -/
def pin (pin : Pin) : EStateM Error World Unit :=
  rpc.pin (if pin.replicationFactorMin < 0 then { pin with allocations := [] } else pin)

/-- A new shard with its peers. When there are none and some are needed, the program panics. -/
def newShard (opts : PinOptions) : EStateM Error World Shard := do
  let allocs ← blockAllocate rpc opts
  if opts.replicationFactorMin > 0 ∧ allocs.length = 0 then
    throw (.text "allocations for new shard cannot be empty without error")
  else return { allocations := allocs, pinOptions := opts, sizeLimit := opts.shardSize }

def streamNodes (dests : List PeerID) (nodes : List CborNode) : EStateM Error World Unit := do
  nodes.forM fun n => rpc.sendBlock dests n.cid
  rpc.finishStream dests

/-- The CID of the flushed shard, and the pin that was submitted. A DAG has at least one node. -/
def Shard.flush (sh : Shard) (shardN : ℕ) (prev : Cid) : EStateM Error World (Cid × Pin) := do
  let nodes ← ofResult (makeDAG wrapObject sh.dagNode)
  streamNodes rpc sh.allocations nodes
  match nodes with
  | [] => throw (.text "index out of range")
  | root :: _ =>
    let now ← timeNow rpc
    let shardPin := sh.shardPin nodes root.cid shardN prev now
    pin rpc shardPin
    return (root.cid, shardPin)

/-- Flush the current shard, which leaves none, and return its last link. -/
def flushCurrentShard : EStateM Error (DAGService × World) Cid := do
  let dgs ← own
  match dgs.currentShard with
  | none => throw (.text "cannot flush a nil shard")
  | some shard =>
    let lens := dgs.shards.entries.length
    let (shardCid, shardPin) ← call (shard.flush rpc wrapObject lens dgs.previousShard)
    change fun dgs => { dgs with
      totalSize := dgs.totalSize + shard.currentSize
      shards := dgs.shards.insert (decimal lens) shardCid
      previousShard := shardCid
      currentShard := none
      flushed := dgs.flushed ++ [(shard, shardPin)] }
    return shard.lastLink

def ensureShard : EStateM Error (DAGService × World) Shard := do
  let dgs ← own
  match dgs.currentShard with
  | some shard => return shard
  | none =>
    let shard ← call (newShard rpc dgs.addParams)
    change fun dgs => { dgs with currentShard := some shard }
    return shard

/-- Ingest a block up to the retry: whether it was put into the current shard. If not, this shard was full
and has been flushed. -/
def tryIngest (n : Node) : EStateM Error (DAGService × World) Bool := do
  let shard ← ensureShard rpc
  let size := BitVec.ofNat 64 n.size
  if shard.currentSize + size < shard.sizeLimit then
    change fun dgs => { dgs with currentShard := some (shard.addLink n.cid size) }
    call (rpc.sendBlock shard.allocations n.cid)
    return true
  else if shard.currentSize = 0 then
    throw (.text "block doesn't fit in empty shard: shard size too small?")
  else
    let _ ← flushCurrentShard rpc wrapObject
    return false

/-- Ingest a block; when the shard was full, it is flushed and the call is repeated. There is no result
when it would have to be repeated more often than is allowed. -/
def ingestBlock (retries : ℕ) (n : Node) (s : DAGService × World) :
    Option (EStateM.Result Error (DAGService × World) Unit) :=
  match tryIngest rpc wrapObject n s with
  | .error err next => some (.error err next)
  | .ok true next => some (.ok () next)
  | .ok false next =>
    match retries with
    | 0 => none
    | retries + 1 => ingestBlock retries n next

def add (retries : ℕ) (n : Node) (s : DAGService × World) : Option (EStateM.Result Error (DAGService × World) Unit) :=
  if n.cid ∈ s.1.addedSet then some (.ok () s)
  else ingestBlock rpc wrapObject retries n ({ s.1 with addedSet := n.cid :: s.1.addedSet }, s.2)

def addMany (retries : ℕ) : List Node → DAGService × World → Option (EStateM.Result Error (DAGService × World) Unit)
  | [], s => some (.ok () s)
  | n :: rest, s =>
    match add rpc wrapObject retries n s with
    | some (.ok () next) => addMany retries rest next
    | result => result

def clusterDAGPin (opts : PinOptions) (clusterDAG dataRoot : Cid) (now : Time) : Pin :=
  { pinWithOpts clusterDAG opts now with
    replicationFactorMin := -1
    replicationFactorMax := -1
    maxDepth := 0
    name := opts.name ++ "-clusterDAG"
    type := PinType.clusterDAGType
    reference := some dataRoot }

def metaPin (opts : PinOptions) (clusterDAG dataRoot : Cid) (now : Time) : Pin :=
  { pinWithOpts dataRoot opts now with
    type := PinType.metaType
    reference := some clusterDAG
    maxDepth := 0 }

/-- Flush the last shard, make the clusterDAG and pin it with the content. The blocks of the clusterDAG
are sent to this peer. -/
def finalize (dataRoot : Cid) : EStateM Error (DAGService × World) Cid := do
  let _ ← flushCurrentShard rpc wrapObject
  let dgs ← own
  let clusterDAGNodes ← ofResult (makeDAG wrapObject dgs.shards)
  call (streamNodes rpc [""] clusterDAGNodes)
  match clusterDAGNodes with
  | [] => throw (.text "index out of range")
  | root :: _ =>
    let now ← call (timeNow rpc)
    call (pin rpc (clusterDAGPin dgs.addParams root.cid dataRoot now))
    let now ← call (timeNow rpc)
    call (pin rpc (metaPin dgs.addParams root.cid dataRoot now))
    return dataRoot

end

end IpfsCluster.Model.Adder

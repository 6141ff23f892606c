import IpfsCluster.Golang.MapOrder
import IpfsCluster.ToMathlib.AssocList
import Mathlib.Data.BitVec
import Mathlib.Data.String.Basic

/-! # The data model of the cluster API

Go maps are association lists without repeated keys, whose order carries no meaning. Machine integers that are only
compared stay integers; bit masks and weights keep their width. A status is a bit of a 64-bit integer; the undefined
status is zero and matches everything.

Pins are stored as protobuf messages, records of the fields of `types.proto` at the widths of the format. `ProtoMarshal`
drops the user allocations and the mode, keeps times to the second, and writes the metadata sorted by key;
`ProtoUnmarshal` derives the mode from the depth.
-/

namespace IpfsCluster.Model.Api

/-- The bytes of a libp2p peer ID; the empty ID is the zero value of the type. -/
abbrev PeerID := String

abbrev Multiaddr := String

/-- A content identifier by its bytes; the undefined CID has none. -/
structure Cid where
  bytes : String
deriving DecidableEq, Repr, Inhabited

namespace Cid

def undef : Cid := ⟨""⟩

def defined (c : Cid) : Bool := c.bytes != ""

end Cid

structure Time where
  nanos : ℤ
deriving DecidableEq, Repr, Inhabited

namespace Time

/-- The zero `time.Time`: the first of January of year 1. -/
def zero : Time := ⟨-62135596800 * 10 ^ 9⟩

def unixZero : Time := ⟨0⟩

def isZero (t : Time) : Bool := t = zero

def before (t u : Time) : Bool := t.nanos < u.nanos

def after (t u : Time) : Bool := u.nanos < t.nanos

/-- Whole seconds since the epoch, rounded down. -/
def unix (t : Time) : ℤ := t.nanos / 10 ^ 9

def ofUnix (seconds : ℤ) : Time := ⟨seconds * 10 ^ 9⟩

end Time

/-- The errors the modelled functions compare or report; all others are their text. -/
inductive Error where
  | notFound
  | text (message : String)
deriving DecidableEq, Repr

/-- A bit set of pin types, as used for filters; a pin carries a single bit. -/
abbrev PinType := BitVec 64

namespace PinType

def badType : PinType := 1#64
def dataType : PinType := 2#64
def metaType : PinType := 4#64
def clusterDAGType : PinType := 8#64
def shardType : PinType := 16#64
def allType : PinType := dataType ||| metaType ||| clusterDAGType ||| shardType

def string (t : PinType) : String :=
  if t = dataType then "pin"
  else if t = metaType then "meta-pin"
  else if t = clusterDAGType then "clusterdag-pin"
  else if t = shardType then "shard-pin"
  else if t = allType then "all"
  else "bad-type"

end PinType

/-- The pin mode is an integer; only 0 and 1 have a meaning. -/
abbrev PinMode := ℤ

/-- How deep to pin; -1 stands for "to the bottom". -/
abbrev PinDepth := ℤ

namespace PinMode

def recursive : PinMode := 0
def direct : PinMode := 1

def string (mode : PinMode) : String := if mode = direct then "direct" else "recursive"

def toPinDepth (mode : PinMode) : PinDepth := if mode = direct then 0 else -1

end PinMode

/-- Any depth but 0 is read as recursive. -/
def PinDepth.toPinMode (depth : PinDepth) : PinMode :=
  if depth = 0 then PinMode.direct else PinMode.recursive

abbrev Metadata := AList fun _ : String => String

/-- User-defined options of a pin. -/
structure PinOptions where
  replicationFactorMin : ℤ := 0
  replicationFactorMax : ℤ := 0
  name : String := ""
  mode : PinMode := PinMode.recursive
  shardSize : BitVec 64 := 0
  userAllocations : List PeerID := []
  expireAt : Time := Time.zero
  metadata : Metadata := ∅
  pinUpdate : Cid := Cid.undef
  origins : List Multiaddr := []
deriving DecidableEq

/-- A pin of the global state. -/
structure Pin extends PinOptions where
  cid : Cid := Cid.undef
  type : PinType := 0
  allocations : List PeerID := []
  maxDepth : PinDepth := 0
  reference : Option Cid := none
  timestamp : Time := Time.zero
deriving DecidableEq

namespace Pin

def defined (pin : Pin) : Bool := pin.cid.defined

def isPinEverywhere (pin : Pin) : Bool :=
  pin.replicationFactorMin = -1 && pin.replicationFactorMax = -1

/-- Whether the pin is allocated to other peers only. -/
def isRemotePin (pin : Pin) (pid : PeerID) : Bool :=
  !pin.isPinEverywhere && !pin.allocations.contains pid

def expiredAt (pin : Pin) (t : Time) : Bool :=
  if pin.expireAt.isZero || pin.expireAt = Time.unixZero then false else pin.expireAt.before t

end Pin

def pinCid (c : Cid) (now : Time) : Pin :=
  { cid := c, type := PinType.dataType, maxDepth := -1, timestamp := now }

/-- A data pin with the given options, whose depth follows the mode. -/
def pinWithOpts (c : Cid) (opts : PinOptions) (now : Time) : Pin :=
  { pinCid c now with toPinOptions := opts, maxDepth := opts.mode.toPinDepth }

structure Metric where
  name : String
  peer : PeerID
  value : String := ""
  expire : ℤ := 0
  valid : Bool := true
  weight : Int64 := 0
  partitionable : Bool := false
  receivedAt : ℤ := 0
deriving DecidableEq

def Metric.getWeight (m : Metric) : Int64 := m.weight

abbrev MetricsSet := AList (fun _ : String => List Metric)

namespace MetricsSet

def get (set : MetricsSet) (name : String) : List Metric := set.listAt name

def append (set : MetricsSet) (name : String) (m : Metric) : MetricsSet := set.appendAt name m

end MetricsSet

abbrev TrackerStatus := BitVec 64

namespace TrackerStatus

def undefined : TrackerStatus := 0#64
def clusterError : TrackerStatus := 1#64 <<< 1
def pinError : TrackerStatus := 1#64 <<< 2
def unpinError : TrackerStatus := 1#64 <<< 3
def pinned : TrackerStatus := 1#64 <<< 4
def pinning : TrackerStatus := 1#64 <<< 5
def unpinning : TrackerStatus := 1#64 <<< 6
def unpinned : TrackerStatus := 1#64 <<< 7
def remote : TrackerStatus := 1#64 <<< 8
def pinQueued : TrackerStatus := 1#64 <<< 9
def unpinQueued : TrackerStatus := 1#64 <<< 10
def sharded : TrackerStatus := 1#64 <<< 11
def unexpectedlyUnpinned : TrackerStatus := 1#64 <<< 12

/-- Errors of any kind, for filters. -/
def error : TrackerStatus := clusterError ||| pinError ||| unpinError

/-- Whether the status and the filter have a bit in common; undefined matches everything. -/
def matchesFilter (st filter : TrackerStatus) : Bool :=
  filter = undefined || st = undefined || decide (0 < (st &&& filter).toInt)

end TrackerStatus

inductive IPFSPinStatus where
  | bug | error | direct | recursive | indirect | unpinned
deriving DecidableEq, Repr

namespace IPFSPinStatus

/-- Indirect statuses go on with the CID they come from. -/
def fromString (t : String) : IPFSPinStatus :=
  if "indirect".toList.isPrefixOf t.toList then .indirect
  else if "recursive".toList.isPrefixOf t.toList then .recursive
  else if t = "direct" then .direct
  else .bug

def toTrackerStatus : IPFSPinStatus → TrackerStatus
  | .direct => TrackerStatus.pinned
  | .recursive => TrackerStatus.pinned
  | .indirect => TrackerStatus.unpinned
  | .unpinned => TrackerStatus.unpinned
  | .bug => TrackerStatus.undefined
  | .error => TrackerStatus.clusterError

end IPFSPinStatus

structure IPFSPinInfo where
  cid : Cid
  type : IPFSPinStatus
deriving DecidableEq, Repr

structure IPFSID where
  id : PeerID := ""
  addresses : List Multiaddr := []

structure PinInfoShort where
  peerName : String := ""
  ipfs : PeerID := ""
  ipfsAddresses : List Multiaddr := []
  status : TrackerStatus := TrackerStatus.undefined
  ts : Time := Time.zero
  error : String := ""
  attemptCount : ℕ := 0
  priorityPin : Bool := false

structure PinInfo extends PinInfoShort where
  cid : Cid
  name : String := ""
  peer : PeerID := ""
  allocations : List PeerID := []
  origins : List Multiaddr := []
  created : Time := Time.zero
  metadata : Metadata := ∅

/-- The status of a CID in the cluster, by the text form of the peer IDs. -/
structure GlobalPinInfo where
  cid : Cid := Cid.undef
  name : String := ""
  allocations : List PeerID := []
  origins : List Multiaddr := []
  created : Time := Time.zero
  metadata : Metadata := ∅
  peerMap : AList (fun _ : String => PinInfoShort) := ∅

namespace GlobalPinInfo

variable (text : PeerID → String) (gpi : GlobalPinInfo)

/-- Add the status of a peer. What it says about the pin replaces what is known, unless it is an error of
the cluster and the CID is set. -/
def add (pi : PinInfo) : GlobalPinInfo :=
  let gpi := if !gpi.cid.defined || !pi.status.matchesFilter TrackerStatus.clusterError then
      { gpi with
        cid := pi.cid, name := pi.name, allocations := pi.allocations, origins := pi.origins,
        created := pi.created, metadata := pi.metadata }
    else gpi
  { gpi with peerMap := gpi.peerMap.insert (text pi.peer) pi.toPinInfoShort }

end GlobalPinInfo

namespace Pb

/-- The options as they are stored; `metadata` is the deprecated map, only read. -/
structure PinOptions where
  replicationFactorMin : BitVec 32
  replicationFactorMax : BitVec 32
  name : String
  shardSize : BitVec 64
  metadata : Metadata := ∅
  pinUpdate : String
  expireAt : BitVec 64
  origins : List String
  sortedMetadata : List (String × String)
deriving DecidableEq

/-- The stored message of a pin; an absent reference is an empty one. -/
structure Pin where
  cid : String
  type : ℕ
  allocations : List String
  maxDepth : BitVec 32
  reference : String
  options : PinOptions
  timestamp : BitVec 64
deriving DecidableEq

end Pb

/-- The position of the highest bit; zero counts as `BadType`. -/
def convertPinTypeLoop : ℕ → PinType → ℕ → ℕ
  | 0, _, _ => 0
  | fuel + 1, t, i => if t = 1 then i else if t = 0 then 0 else convertPinTypeLoop fuel (t >>> 1) (i + 1)

/-- At most 63 shifts reach 1 or 0. -/
def convertPinType (t : PinType) : ℕ := convertPinTypeLoop 64 t 0

/-- Only non-zero times are set in a message, in seconds. -/
def Time.toProto (t : Time) : BitVec 64 :=
  if t.isZero || t = Time.unixZero then 0 else BitVec.ofInt 64 t.unix

def Time.ofProto (seconds : BitVec 64) : Time :=
  if seconds = 0 then Time.zero else Time.ofUnix seconds.toInt

/-- The metadata entries in the order of their keys. -/
def sortedMetadata (metadata : Metadata) : List (String × String) :=
  (metadata.keys.insertionSort (· ≤ ·)).map fun key => (key, (metadata.lookup key).getD "")

/-- No CID has empty bytes. -/
def castCid (bytes : String) : Option Cid := if bytes = "" then none else some ⟨bytes⟩

/-- No peer ID is decoded from empty bytes. -/
def idFromBytes (bytes : String) : Except Error PeerID :=
  if bytes = "" then .error (.text "multihash too short. must be >= 2 bytes") else .ok bytes

/-- No multiaddress is decoded from empty bytes. -/
def newMultiaddrBytes (bytes : String) : Except Error Multiaddr :=
  if bytes = "" then .error (.text "empty multiaddr") else .ok bytes

namespace Pin

def protoMarshal (pin : Pin) : Pb.Pin where
  cid := pin.cid.bytes
  type := convertPinType pin.type
  allocations := pin.allocations
  maxDepth := BitVec.ofInt 32 pin.maxDepth
  reference := (pin.reference.map (·.bytes)).getD ""
  options :=
    { replicationFactorMin := BitVec.ofInt 32 pin.replicationFactorMin
      replicationFactorMax := BitVec.ofInt 32 pin.replicationFactorMax
      name := pin.name
      shardSize := pin.shardSize
      pinUpdate := pin.pinUpdate.bytes
      expireAt := pin.expireAt.toProto
      origins := pin.origins
      sortedMetadata := sortedMetadata pin.metadata }
  timestamp := pin.timestamp.toProto

/-- What is left to libraries when a pin is marshaled: the bytes of a peer ID, and the bytes of a message, for
which a map in it may be visited in any order. -/
structure Encoder (Bytes : Type) where
  marshalID : PeerID → Except Error String
  marshal : Golang.MapOrder → Pb.Pin → Except Error Bytes

/-- The metadata entries in the order of their keys, the keys being collected in some order and then sorted. -/
def collectMetadata (order : Golang.MapOrder) (metadata : Metadata) : List (String × String) :=
  let metaKeys := (order.visit [] metadata.keys).insertionSort (· ≤ ·)
  metaKeys.map fun key => (key, (metadata.lookup key).getD "")

/-- The bytes of a pin; the loop over the metadata and the encoder visit maps in some order each. -/
def protoMarshalBytes {Bytes : Type} (encoder : Encoder Bytes) (order : Golang.MapOrder) (pin : Pin) :
    Except Error Bytes := do
  let allocs ← pin.allocations.mapM encoder.marshalID
  let opts := { pin.protoMarshal.options with
    sortedMetadata := collectMetadata (order.inside [0]) pin.metadata }
  encoder.marshal (order.inside [1]) { pin.protoMarshal with allocations := allocs, options := opts }

def protoUnmarshal (data : Pb.Pin) : Except Error Pin := do
  let allocations ← data.allocations.mapM idFromBytes
  let origins ← data.options.origins.mapM newMultiaddrBytes
  let maxDepth : PinDepth := data.maxDepth.toInt
  return {
    cid := (castCid data.cid).getD Cid.undef
    type := 1#64 <<< data.type
    allocations := allocations
    maxDepth := maxDepth
    reference := castCid data.reference
    timestamp := Time.ofProto data.timestamp
    replicationFactorMin := data.options.replicationFactorMin.toInt
    replicationFactorMax := data.options.replicationFactorMax.toInt
    name := data.options.name
    shardSize := data.options.shardSize
    expireAt := Time.ofProto data.options.expireAt
    metadata := data.options.sortedMetadata.foldl (fun metadata md => metadata.insert md.1 md.2) data.options.metadata
    pinUpdate := (castCid data.options.pinUpdate).getD Cid.undef
    mode := PinDepth.toPinMode maxDepth
    origins := origins }

end Pin

end IpfsCluster.Model.Api

import IpfsCluster.Golang.Text
import IpfsCluster.Model.Api.Types

/-! # Options in the query of a request

Pin options and the parameters for adding content travel as the arguments of a URL. Arguments that are absent or empty
leave an option as it is; reading stops at the first argument that cannot be read, and what was read before stays. Text
forms of peer IDs, CIDs, multiaddresses and times are those of their libraries.

Pins are compared by their content: the order of peers and of origins does not matter, the time of creation and the pin
that is updated are ignored, and the metadata of the first pin has to be in the second one.
-/

namespace IpfsCluster.Model

open Api Golang

/-- Arguments by their name; only the first value of a name is read. -/
abbrev Values := AList (fun _ : String => List String)

namespace Values

def get (q : Values) (key : String) : String := ((q.lookup key).bind List.head?).getD ""

def set (q : Values) (key value : String) : Values := q.insert key [value]

end Values

structure TextCodecs where
  peerString : PeerID → String
  decodePeer : String → Except String PeerID
  cidString : Cid → String
  decodeCid : String → Except String Cid
  multiaddrString : Multiaddr → String
  newMultiaddr : String → Except String Multiaddr
  valueForP2P : Multiaddr → Except String String
  marshalTime : Time → Except String String
  unmarshalTime : String → Except String Time
  parseDuration : String → Except String ℤ
  encodeQuery : Values → String
  parseQuery : String → Except String Values

def pinOptionsMetaPrefix : String := "meta-"

section

variable {σ : Type}

/-- An argument that is not empty is read, and the reading updates the options. -/
def parseParam (v : String) (read : String → Except Error (σ → σ)) : EStateM Error σ Unit :=
  if v ≠ "" then
    match read v with
    | .error err => throw err
    | .ok update => modify update
  else pure ()

def parseBoolParam (q : Values) (name : String) (update : Bool → σ → σ) : EStateM Error σ Unit :=
  parseParam (q.get name) fun v =>
    match parseBool v with
    | none => .error (.text ("parameter " ++ name ++ " invalid"))
    | some b => .ok (update b)

def parseIntParam (q : Values) (name : String) (update : ℤ → σ → σ) : EStateM Error σ Unit :=
  parseParam (q.get name) fun v =>
    match atoi v with
    | none => .error (.text ("parameter " ++ name ++ " invalid"))
    | some i => .ok (update i)

end

def Api.PinMode.fromString (s : String) : PinMode := if s = "direct" then PinMode.direct else PinMode.recursive

section

variable (codecs : TextCodecs)

def peersToStrings (peers : List PeerID) : List String :=
  peers.map fun p => if p ≠ "" then codecs.peerString p else ""

def stringsToPeers (strs : List String) : List PeerID :=
  strs.filterMap fun s => (codecs.decodePeer s).toOption

def parseOrigin (s : String) : Except Error Multiaddr :=
  match codecs.newMultiaddr s with
  | .error err => .error (.text ("error decoding multiaddress: " ++ err))
  | .ok maOrig =>
    match codecs.valueForP2P maOrig with
    | .error err => .error (.text ("multiaddress does not contain peer ID: " ++ err))
    | .ok _ => .ok maOrig

namespace Api.PinOptions

/-- The metadata as arguments; an empty key is left out. -/
def setMetadata (order : MapOrder) (metadata : Metadata) (q : Values) : Values :=
  (order.visit [] metadata.entries).foldl (fun q entry =>
    if entry.1 = "" then q else q.set (pinOptionsMetaPrefix ++ entry.1) entry.2) q

def queryValues (order : MapOrder) (po : PinOptions) : Except Error Values := do
  let q : Values := ∅
  let q := q.set "replication-min" po.replicationFactorMin.repr
  let q := q.set "replication-max" po.replicationFactorMax.repr
  let q := q.set "name" po.name
  let q := q.set "mode" po.mode.string
  let q := q.set "shard-size" po.shardSize.toNat.repr
  let q := q.set "user-allocations" (join ',' (peersToStrings codecs po.userAllocations))
  let q ← if !po.expireAt.isZero then
      match codecs.marshalTime po.expireAt with
      | .error err => .error (.text err)
      | .ok v => .ok (q.set "expire-at" v)
    else .ok q
  let q := setMetadata order po.metadata q
  let q := if po.pinUpdate.defined then q.set "pin-update" (codecs.cidString po.pinUpdate) else q
  let q := if po.origins.length > 0 then q.set "origins" (join ',' (po.origins.map codecs.multiaddrString)) else q
  return q

def toQuery (order : MapOrder) (po : PinOptions) : Except Error String := do
  let q ← po.queryValues codecs order
  return codecs.encodeQuery q

/-- Read an argument as metadata if its name has the prefix and goes on after it. -/
def readMetadata (q : Values) (metadata : Metadata) (k : String) : Metadata :=
  if !pinOptionsMetaPrefix.toList.isPrefixOf k.toList then metadata
  else
    let metaKey := String.ofList (k.toList.drop pinOptionsMetaPrefix.length)
    if metaKey = "" then metadata else metadata.insert metaKey (q.get k)

def metadataFromQuery (order : MapOrder) (q : Values) : Metadata :=
  (order.visit [] q.keys).foldl (readMetadata q) ∅

/-- Read the expiry, which may be given as a time or as a duration. -/
def expiryFromQuery (now : Time) (q : Values) : EStateM Error PinOptions Unit :=
  if q.get "expire-at" ≠ "" then
    parseParam (q.get "expire-at") fun v =>
      match codecs.unmarshalTime v with
      | .error err => .error (.text ("expire-at cannot be parsed: " ++ err))
      | .ok tm => .ok fun po => { po with expireAt := tm }
  else
    parseParam (q.get "expire-in") fun v =>
      match codecs.parseDuration v with
      | .error err => .error (.text ("expire-in cannot be parsed: " ++ err))
      | .ok d =>
        if d < 10 ^ 9 then .error (.text "expire-in duration too short")
        else .ok fun po => { po with expireAt := ⟨now.nanos + d⟩ }

def fromQuery (order : MapOrder) (now : Time) (q : Values) : EStateM Error PinOptions Unit := do
  modify fun po => { po with name := q.get "name", mode := PinMode.fromString (q.get "mode") }
  let rplStr := q.get "replication"
  let q := if rplStr ≠ "" then (q.set "replication-min" rplStr).set "replication-max" rplStr else q
  parseIntParam q "replication-min" fun i po => { po with replicationFactorMin := i }
  parseIntParam q "replication-max" fun i po => { po with replicationFactorMax := i }
  parseParam (q.get "shard-size") fun v =>
    match parseUint v with
    | none => .error (.text "parameter shard_size is invalid")
    | some shardSize => .ok fun po => { po with shardSize := BitVec.ofNat 64 shardSize }
  parseParam (q.get "user-allocations") fun allocs =>
    .ok fun po => { po with userAllocations := stringsToPeers codecs (split ',' allocs) }
  expiryFromQuery codecs now q
  modify fun po => { po with metadata := metadataFromQuery order q }
  parseParam (q.get "pin-update") fun updateStr =>
    match codecs.decodeCid updateStr with
    | .error err => .error (.text ("error decoding update option parameter: " ++ err))
    | .ok updateCid => .ok fun po => { po with pinUpdate := updateCid }
  parseParam (q.get "origins") fun originsStr =>
    match (split ',' originsStr).mapM (parseOrigin codecs) with
    | .error err => .error err
    | .ok maOrigins => .ok fun po => { po with origins := maOrigins }

end Api.PinOptions

end

/-- Options specific to the adder, which builds UnixFS DAGs with the input files. -/
structure IPFSAddParams where
  layout : String := ""
  chunker : String := ""
  rawLeaves : Bool := false
  progress : Bool := false
  cidVersion : ℤ := 0
  hashFun : String := ""
  noCopy : Bool := false
deriving DecidableEq

structure AddParams extends PinOptions, IPFSAddParams where
  isLocal : Bool := false
  recursive : Bool := false
  hidden : Bool := false
  wrap : Bool := false
  shard : Bool := false
  streamChannels : Bool := false
  format : String := ""
  noPin : Bool := false
deriving DecidableEq

def defaultShardSize : BitVec 64 := 100 * 1024 * 1024

def defaultAddParams : AddParams :=
  { streamChannels := true, format := "unixfs", mode := PinMode.recursive, shardSize := defaultShardSize,
    chunker := "size-262144", hashFun := "sha2-256" }

section

variable (codecs : TextCodecs) (order : MapOrder)

/-- A choice that has to be one of the accepted ones; the empty one is. -/
def parseChoice (v : String) (accepted : List String) (name : String) (update : String → AddParams → AddParams) :
    EStateM Error AddParams Unit :=
  if v ∈ accepted then modify (update v) else throw (.text (name ++ " parameter is invalid"))

def parseStringParam (v : String) (update : String → AddParams → AddParams) : EStateM Error AddParams Unit :=
  parseParam v fun v => .ok (update v)

def parseAddParams (query : Values) : EStateM Error AddParams Unit := do
  parseChoice (query.get "layout") ["trickle", "balanced", ""] "layout" fun v params => { params with layout := v }
  parseStringParam (query.get "chunker") fun v params => { params with chunker := v }
  parseStringParam (query.get "hash") fun v params => { params with hashFun := v }
  parseChoice (query.get "format") ["car", "unixfs", ""] "format" fun v params => { params with format := v }
  parseBoolParam query "local" fun b params => { params with isLocal := b }
  parseBoolParam query "recursive" fun b params => { params with recursive := b }
  parseBoolParam query "hidden" fun b params => { params with hidden := b }
  parseBoolParam query "wrap-with-directory" fun b params => { params with wrap := b }
  parseBoolParam query "shard" fun b params => { params with shard := b }
  parseBoolParam query "progress" fun b params => { params with progress := b }
  parseIntParam query "cid-version" fun i params => { params with cidVersion := i }
  modify fun params => if params.cidVersion > 0 then { params with rawLeaves := true } else params
  parseBoolParam query "raw-leaves" fun b params => { params with rawLeaves := b }
  parseBoolParam query "stream-channels" fun b params => { params with streamChannels := b }
  parseBoolParam query "nocopy" fun b params => { params with noCopy := b }
  parseBoolParam query "no-pin" fun b params => { params with noPin := b }

/-- Read the parameters from the arguments; a pin is never an update of another one here. -/
def addParamsFromQuery (now : Time) (query : Values) : Except Error AddParams :=
  match PinOptions.fromQuery codecs order now query {} with
  | .error err _ => .error err
  | .ok _ opts =>
    let params := { defaultAddParams with toPinOptions := { opts with pinUpdate := Cid.undef } }
    match parseAddParams query params with
    | .error err _ => .error err
    | .ok _ params => .ok params

def AddParams.setQuery (p : AddParams) (query : Values) : Values :=
  let query := query.set "shard" (formatBool p.shard)
  let query := query.set "local" (formatBool p.isLocal)
  let query := query.set "recursive" (formatBool p.recursive)
  let query := query.set "layout" p.layout
  let query := query.set "chunker" p.chunker
  let query := query.set "raw-leaves" (formatBool p.rawLeaves)
  let query := query.set "hidden" (formatBool p.hidden)
  let query := query.set "wrap-with-directory" (formatBool p.wrap)
  let query := query.set "progress" (formatBool p.progress)
  let query := query.set "cid-version" p.cidVersion.repr
  let query := query.set "hash" p.hashFun
  let query := query.set "stream-channels" (formatBool p.streamChannels)
  let query := query.set "nocopy" (formatBool p.noCopy)
  let query := query.set "format" p.format
  query.set "no-pin" (formatBool p.noPin)

def AddParams.toQueryString (p : AddParams) : Except Error String := do
  let pinOptsQuery ← p.toPinOptions.toQuery codecs order
  match codecs.parseQuery pinOptsQuery with
  | .error err => .error (.text err)
  | .ok query => return codecs.encodeQuery (p.setQuery query)

end

namespace Api

variable (codecs : TextCodecs)

def sortedPeers (peers : List PeerID) : String :=
  join ',' ((peersToStrings codecs peers).insertionSort (· ≤ ·))

namespace PinOptions

/-- Whether the metadata has the values of other metadata; a missing key has the empty value. -/
def includesMetadata (metadata metadata2 : Metadata) : Bool :=
  metadata.entries.all fun entry => entry.1 = "" || entry.2 = (metadata2.lookup entry.1).getD ""

def equals (po po2 : PinOptions) : Bool :=
  po.name = po2.name &&
  po.mode = po2.mode &&
  po.replicationFactorMax = po2.replicationFactorMax &&
  po.replicationFactorMin = po2.replicationFactorMin &&
  po.shardSize = po2.shardSize &&
  po.userAllocations.length = po2.userAllocations.length &&
  sortedPeers codecs po.userAllocations = sortedPeers codecs po2.userAllocations &&
  po.expireAt = po2.expireAt &&
  includesMetadata po.metadata po2.metadata &&
  po.origins.length = po2.origins.length &&
  po.origins.all fun o1 => po2.origins.any fun o2 => o1 = o2

end PinOptions

def Pin.equals (pin pin2 : Pin) : Bool :=
  pin.cid = pin2.cid &&
  pin.type = pin2.type &&
  pin.maxDepth = pin2.maxDepth &&
  pin.reference = pin2.reference &&
  sortedPeers codecs pin.allocations = sortedPeers codecs pin2.allocations &&
  pin.toPinOptions.equals codecs pin2.toPinOptions

end Api

end IpfsCluster.Model

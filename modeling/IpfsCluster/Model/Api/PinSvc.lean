import IpfsCluster.Model.Api.Handlers
import IpfsCluster.Model.Api.Query

/-! # Types of the pinning service

The pinning service has statuses of its own. The status of a pin is the union of its statuses in the peers,
translated with a fixed precedence. The options of a list request are read from its query; folding letters
to lower case and reading JSON are left to their libraries.
-/

namespace IpfsCluster.Model.Pinsvc

open Api Golang TrackerStatus

abbrev Status := BitVec 64

namespace Status

def undefined : Status := 0#64
def queued : Status := 1#64 <<< 1
def pinned : Status := 1#64 <<< 2
def pinning : Status := 1#64 <<< 3
def failed : Status := 1#64 <<< 4

/-- Whether the status and the filter have a bit in common; undefined matches everything. -/
def matchesFilter (st filter : Status) : Bool :=
  filter = undefined || st = undefined || decide (0 < (st &&& filter).toInt)

def stringStatus : List (String × Status) :=
  [("undefined", undefined), ("queued", queued), ("pinned", pinned), ("pinning", pinning), ("failed", failed)]

def fromString (str : String) : Status :=
  (split ',' (String.ofList (str.toList.filter (· ≠ ' ')))).foldl (fun status v =>
    match stringStatus.lookup v with
    | some st => status ||| st
    | none => status) undefined

end Status

inductive MatchingStrategy where
  | undefined | exact | iexact | partialMatch | ipartialMatch
deriving DecidableEq, Repr

def MatchingStrategy.fromString (str : String) : MatchingStrategy :=
  if str = "exact" then .exact
  else if str = "iexact" then .iexact
  else if str = "partial" then .partialMatch
  else if str = "ipartial" then .ipartialMatch
  else .undefined

structure TextLibrary where
  equalFold : String → String → Bool
  toLower : String → String
  parseUintError : String → String
  unmarshalMeta : String → Except String Metadata

def contains (s substr : String) : Bool := substr.toList <:+: s.toList

structure PinStatus where
  requestID : String := ""
  status : Status := Status.undefined
  created : Time := Time.zero
  pin : SvcPin := { cid := Cid.undef }
  delegates : List Multiaddr := []

structure ListOptions where
  cids : List Cid := []
  name : String := ""
  matchingStrategy : MatchingStrategy := .undefined
  status : Status := Status.undefined
  before : Time := Time.zero
  after : Time := Time.zero
  limit : ℕ := 0
  metaOpts : Metadata := ∅

section

variable (library : TextLibrary) (p : SvcPin)

def matchesName (nameOpt : String) (strategy : MatchingStrategy) : Bool :=
  if nameOpt = "" then true
  else match strategy with
    | .undefined => true
    | .exact => nameOpt = p.name
    | .iexact => library.equalFold p.name nameOpt
    | .partialMatch => contains p.name nameOpt
    | .ipartialMatch => contains (library.toLower p.name) (library.toLower nameOpt)

/-- Whether the metadata has the values of the options; a key that is missing has the empty value. -/
def matchesMeta (metaOpts : Metadata) : Bool :=
  metaOpts.entries.all fun entry => (p.metadata.lookup entry.1).getD "" = entry.2

end

section

variable (codecs : TextCodecs) (library : TextLibrary) (q : Values)

def ListOptions.fromQuery : EStateM Error ListOptions Unit := do
  let cidq := q.get "cid"
  if cidq ≠ "" then
    (split ',' cidq).forM fun cstr =>
      match codecs.decodeCid cstr with
      | .error err => throw (.text ("error decoding cid " ++ cstr ++ ": " ++ err))
      | .ok c => modify fun lo => { lo with cids := lo.cids ++ [c] }
  let n := q.get "name"
  if n.utf8ByteSize > 255 then throw (.text "error in 'name' query param: longer than 255 chars")
  modify fun lo => { lo with name := n }
  let strategy := MatchingStrategy.fromString (q.get "match")
  modify fun lo => { lo with matchingStrategy := if strategy = .undefined then .exact else strategy }
  let statusStr := q.get "status"
  modify fun lo => { lo with status := Status.fromString statusStr }
  if statusStr ≠ "" && Status.fromString statusStr = Status.undefined then
    throw (.text "error decoding 'status' query param: no valid filter")
  parseParam (q.get "before") fun bef =>
    match codecs.unmarshalTime bef with
    | .error err => .error (.text ("error decoding 'before' query param: " ++ bef ++ ": " ++ err))
    | .ok tm => .ok fun lo => { lo with before := tm }
  parseParam (q.get "after") fun after =>
    match codecs.unmarshalTime after with
    | .error err => .error (.text ("error decoding 'after' query param: " ++ after ++ ": " ++ err))
    | .ok tm => .ok fun lo => { lo with after := tm }
  modify fun lo => { lo with limit := 10 }
  parseParam (q.get "limit") fun v =>
    match parseUint v with
    | none => .error (.text ("error parsing 'limit' query param: " ++ v ++ ": " ++ library.parseUintError v))
    | some lim => .ok fun lo => { lo with limit := lim }
  parseParam (q.get "meta") fun m =>
    match library.unmarshalMeta m with
    | .error err => .error (.text ("error unmarshalling 'meta' query param: " ++ m ++ ": " ++ err))
    | .ok metaOpts => .ok fun lo => { lo with metaOpts := metaOpts }

end

/-- The status of a union of tracker statuses. -/
def trackerStatusToSvcStatus (st : TrackerStatus) : Status :=
  if st.matchesFilter error then Status.failed
  else if st.matchesFilter pinQueued then Status.queued
  else if st.matchesFilter pinning then Status.pinning
  else if st.matchesFilter pinned then Status.pinned
  else Status.undefined

def svcStatusToTrackerStatus (st : Status) : TrackerStatus :=
  (if st.matchesFilter Status.failed then error else undefined) |||
    (if st.matchesFilter Status.queued then pinQueued else undefined) |||
    (if st.matchesFilter Status.pinned then pinned else undefined) |||
    (if st.matchesFilter Status.pinning then pinning else undefined)

def statusMask (order : MapOrder) (gpi : GlobalPinInfo) : TrackerStatus :=
  (order.visit [0] gpi.peerMap.entries).foldl (fun mask entry => mask ||| entry.2.status) undefined

def globalPinInfoToSvcPinStatus (order : MapOrder) (rID : String) (gpi : GlobalPinInfo) : PinStatus where
  requestID := rID
  status := trackerStatusToSvcStatus (statusMask order gpi)
  created := gpi.created
  pin := { cid := gpi.cid, name := gpi.name, origins := gpi.origins, metadata := gpi.metadata }
  delegates := (order.visit [1] gpi.peerMap.entries).flatMap fun entry => entry.2.ipfsAddresses

end IpfsCluster.Model.Pinsvc

import IpfsCluster.Model.Api.Types

/-! # Listing the pins of the IPFS daemon

The connector asks the daemon for all pins of a type, or for one CID and a type. A body is a stream of
JSON objects, here what decoding them one after the other gives. Requests do not time out.
-/

namespace IpfsCluster.Model.IpfsConn

open Api

inductive PinLsRequest where
  | list (typeFilter : String)
  | arg (c : Cid) (pinType : String)
deriving DecidableEq, Repr

/-- A failed request, with the message of the daemon when it sent one. -/
structure PostError where
  text : String
  ipfsMessage : Option String := none

/-- An object of the answer, with the type as it is written by IPFS. -/
structure RawPin where
  cid : Cid
  type : String

def RawPin.decode (raw : RawPin) : IPFSPinInfo := { cid := raw.cid, type := .fromString raw.type }

/-- The decoded objects up to the end of the stream, or an object that cannot be decoded. -/
abbrev Body := List (Except String RawPin)

structure Connector where
  postCtxStreamResponse : PinLsRequest → Except PostError Body

/-- Whether the daemon says that the item is not pinned. -/
def isUnpinnedError (err : PostError) : Bool :=
  err.ipfsMessage.any fun message => "not pinned".toList.isSuffixOf message.toList

namespace Connector

variable (ipfs : Connector)

def readPins : Body → List IPFSPinInfo × Option String
  | [] => ([], none)
  | .error err :: _ => ([], some ("error decoding ipfs pin: " ++ err))
  | .ok raw :: rest =>
    let (pins, err) := readPins rest
    (raw.decode :: pins, err)

/-- The pins that are sent, and the error. The end of the first stream leaves the loop over the filters. -/
def pinLs (typeFilters : List String) : List IPFSPinInfo × Option String :=
  match typeFilters with
  | [] => ([], none)
  | typeFilter :: _ =>
    match ipfs.postCtxStreamResponse (.list typeFilter) with
    | .error err => ([], some err.text)
    | .ok body => readPins body

/-- The status of a pin in the mode of its depth. -/
def pinLsCid (pin : Pin) : IPFSPinStatus × Option String :=
  if !pin.defined then (.bug, some "calling PinLsCid without a defined CID")
  else
    match ipfs.postCtxStreamResponse (.arg pin.cid (PinMode.string (PinDepth.toPinMode pin.maxDepth))) with
    | .error err => if isUnpinnedError err then (.unpinned, none) else (.error, some err.text)
    | .ok [] => (.error, some "EOF")
    | .ok (.error err :: _) => (.error, some err)
    | .ok (.ok raw :: _) => (raw.decode.type, none)

end Connector

/-- What the error variable of a listing holds. -/
inductive LsError where
  | eof
  | text (message : String)
deriving DecidableEq

/-- The variables of a listing that outlive its loops, with the pins that are sent. -/
structure Listing where
  sent : List IPFSPinInfo := []
  err : Option LsError := none
  totalPinCount : ℤ := 0

inductive StreamExit where
  | breakNextFilter
  | returned (err : String)

def decodeStream : Body → Listing → StreamExit × Listing
  | [], ls => (.breakNextFilter, { ls with err := some .eof })
  | .error err :: _, ls =>
    let err := "error decoding ipfs pin: " ++ err
    (.returned err, { ls with err := some (.text err) })
  | .ok raw :: rest, ls =>
    decodeStream rest { sent := ls.sent ++ [raw.decode], err := none, totalPinCount := ls.totalPinCount + 1 }

def filterLoop (post : ℕ → PinLsRequest → Except PostError Body) : ℕ → List String → Listing → Option String × Listing
  | _, [], ls => (none, ls)
  | i, typeFilter :: _, ls =>
    match post i (.list typeFilter) with
    | .error err => (some err.text, { ls with err := some (.text err.text) })
    | .ok body =>
      match decodeStream body { ls with err := none } with
      | (.returned err, ls) => (some err, ls)
      | (.breakNextFilter, ls) => (none, ls)

/-- A whole listing: the pins that are sent, the error that is returned, and the number of pins that the connector
has afterwards, which a deferred function sets if the error variable is not set. -/
def pinLsCounting (post : ℕ → PinLsRequest → Except PostError Body) (ipfsPinCount : ℤ) (typeFilters : List String) :
    List IPFSPinInfo × Option String × ℤ :=
  let (returned, ls) := filterLoop post 0 typeFilters {}
  (ls.sent, returned, if ls.err = none then ls.totalPinCount else ipfsPinCount)

end IpfsCluster.Model.IpfsConn

import IpfsCluster.Model.Api.PinSvc
import IpfsCluster.Model.Cluster.Status

/-! # Reading pins from the pinning service

A pin is looked up with one call to the cluster. A list request that names CIDs looks each of them up, and
takes the answers in any order; one that names none goes through the statuses that the cluster lists. The
list has as many results as the limit allows, and counts all.
-/

namespace IpfsCluster.Model.Pinsvc

open Api Golang

def setStatusAutomatically : ℤ := -1

def statusBadRequest : ℤ := 400

structure StatusClient where
  status : Cid → Except Error GlobalPinInfo
  statusAll : TrackerStatus → List GlobalPinInfo × Option Error

structure Reply (α : Type) where
  status : ℤ := setStatusAutomatically
  err : Option Error := none
  resp : Option α := none

/-- A list of pins: the number of all, and some of them. -/
structure PinList where
  count : ℕ := 0
  results : List PinStatus := []

/-- Count a pin, which is among the results while there are fewer than the limit. -/
def PinList.append (limit : ℕ) (pinList : PinList) (st : PinStatus) : PinList where
  count := pinList.count + 1
  results := if pinList.count < limit then pinList.results ++ [st] else pinList.results

def multierr : List Error → Option Error
  | [] => none
  | [err] => some err
  | errs => some (.text ("; ".intercalate (errs.map Cluster.errorText)))

def ListOptions.selects (library : TextLibrary) (opts : ListOptions) (st : PinStatus) : Bool :=
  !(!opts.after.isZero && st.created.before opts.after) && !(!opts.before.isZero && st.created.after opts.before) &&
    matchesName library st.pin opts.name opts.matchingStrategy && matchesMeta st.pin opts.metaOpts

section

variable (client : StatusClient) (codecs : TextCodecs) (library : TextLibrary) (order : MapOrder)

def getPinSvcStatus (c : Cid) : PinStatus × Option Error :=
  match client.status c with
  | .error err => ({}, some err)
  | .ok pinInfo => (globalPinInfoToSvcPinStatus order (codecs.cidString c) pinInfo, none)

/-- The answer for a CID: a pin without a status is not found. -/
def getPinOf (c : Cid) : Reply PinStatus :=
  let (status, err) := getPinSvcStatus client codecs order c
  if status.status = Status.undefined then { status := 404, err := some (.text "pin not found") }
  else { err := err, resp := some status }

def getPin (requestID : Option String) : Reply PinStatus :=
  match requestID with
  | none => getPinOf client codecs order Cid.undef
  | some cStr =>
    match codecs.decodeCid cStr with
    | .error err => { status := statusBadRequest, err := some (.text ("error decoding requestID: " ++ err)) }
    | .ok c => getPinOf client codecs order c

/-- The answers for the requested CIDs as they arrive, without what is not pinned. -/
def requestedStatuses (cids : List Cid) : List (PinStatus × Option Error) :=
  let stCh := (order.visit [0] cids.zipIdx).map fun (ci, i) => getPinSvcStatus client codecs (order.inside [1, i]) ci
  stCh.filter fun stResult => !(stResult.1.status = Status.undefined && stResult.2.isNone)

/-- Count the answer for a requested CID. The error is kept when the pin is among the results. -/
def appendRequested (limit : ℕ) (acc : PinList × List Error) (stResult : PinStatus × Option Error) :
    PinList × List Error :=
  (acc.1.append limit stResult.1, if acc.1.count < limit then acc.2 ++ stResult.2.toList else acc.2)

def streamedStatuses (opts : ListOptions) (out : List GlobalPinInfo) : List PinStatus :=
  let sts := out.zipIdx.map fun (gpi, i) =>
    globalPinInfoToSvcPinStatus (order.inside [2, i]) (codecs.cidString gpi.cid) gpi
  sts.filter fun st => st.status ≠ Status.undefined && opts.selects library st

def listPins (query : Values) : Reply PinList :=
  match ListOptions.fromQuery codecs library query {} with
  | .error err _ => { err := some err }
  | .ok _ opts =>
    let tst := svcStatusToTrackerStatus opts.status
    if opts.cids.length > 0 then
      let (pinList, errs) := (requestedStatuses client codecs order opts.cids).foldl (appendRequested opts.limit) ({}, [])
      match multierr errs with
      | some err => { err := some err }
      | none => { resp := some pinList }
    else
      let (out, err) := client.statusAll tst
      let pinList := (streamedStatuses codecs library order opts out).foldl (PinList.append opts.limit) {}
      match err with
      | some err => { err := some err }
      | none => { resp := some pinList }

end

def StatusClient.ofCollector (c : Collector) (order : MapOrder) (now : Clock) (consensus : Consensus)
    (trackers : PinTrackers) : StatusClient where
  status := c.status now consensus trackers
  statusAll := c.statusAll order now trackers

end IpfsCluster.Model.Pinsvc

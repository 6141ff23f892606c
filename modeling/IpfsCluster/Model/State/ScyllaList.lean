import IpfsCluster.Model.State.Effects

/-! # Listing pins through the degradation manager

The operation that the manager executes is the whole iteration over the rows: it sends a pin for each row that it
scans. An iteration may end with an error before it has seen all rows, because the query fails or the context is done.
The outputs of all executions go to the same channel, which a consumer reads to its end.
-/

namespace IpfsCluster.Model.Scyllastate

open Api

structure StoredPin where
  cidBin : Bytes
  pinData : Bytes
deriving DecidableEq, Repr

/-- How an iteration over the rows ends: with an error after a number of rows, or without one after all of them. -/
structure Iteration where
  read : ℕ := 0
  err : Option QueryError := none
deriving DecidableEq, Repr

/-- The rows that an iteration handles. -/
def Iteration.rows (iteration : Iteration) (table : List StoredPin) : List StoredPin :=
  match iteration.err with
  | none => table
  | some _ => table.take iteration.read

/-- What listing has done: the pins sent to the channel, their number, and the iterations that were made. -/
structure Listing where
  out : List Pin := []
  count : ℕ := 0
  made : List Iteration := []

section

variable (codecs : PinCodecs) (castCid : Bytes → Except Error Cid)

/-- The loop over the rows; one that cannot be decoded is skipped. -/
def sendRows : List StoredPin → Listing → Listing
  | [], listing => listing
  | row :: rest, listing =>
    match castCid row.cidBin with
    | .error _ => sendRows rest listing
    | .ok cid =>
      match deserializePin codecs cid row.pinData with
      | .error _ => sendRows rest listing
      | .ok pin => sendRows rest { listing with out := listing.out ++ [pin], count := listing.count + 1 }

variable (table : List StoredPin) (iterate : ℕ → Consistency → Iteration)

def iterQuery : Effects.Operation Listing := fun level listing =>
  let iteration := iterate listing.made.length level
  let listing := sendRows codecs castCid (iteration.rows table) listing
  (iteration.err, { listing with made := listing.made ++ [iteration] })

end

namespace DegradingState

variable (s : DegradingState) (ctx : Context) (now : Time)

/-- Execute an operation with effects through the manager, or directly if there is none. -/
def executeOperation {W : Type} (operation : Effects.Operation W) (world : W) :
    Option QueryError × DegradingState × W :=
  match s.degradationManager with
  | none =>
    let (err, world) := operation s.consistency world
    (err, s, world)
  | some manager =>
    let (err, after) := Effects.executeWithDegradation ctx operation now { manager, world }
    (err, { s with degradationManager := some after.manager }, after.world)

def list (codecs : PinCodecs) (castCid : Bytes → Except Error Cid) (table : List StoredPin)
    (iterate : ℕ → Consistency → Iteration) : Option QueryError × DegradingState × Listing :=
  if s.closed then (some (.text "ScyllaState is closed"), s, {})
  else s.executeOperation ctx now (iterQuery codecs castCid table iterate) {}

end DegradingState

end IpfsCluster.Model.Scyllastate

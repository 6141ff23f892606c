import IpfsCluster.Model.State.Scylla
import IpfsCluster.Model.State.ScyllaOperations

/-! # Batches through the degradation manager

The batching state of the second implementation of the operations. The machine has a client that adds, removes and
commits in any order, and remembers the operations that were accepted and whether a call was refused because there was
no batch. The mutex is held by one call at a time.
-/

namespace IpfsCluster.Model.Scyllastate

open Api Machine

/-- The columns of a pin that is stored as a blob; the times are those of the writer. -/
structure BlobRow where
  pinType : PinType
  rf : ℤ
  owner : List PeerID
  tags : Metadata
  metadata : Bytes
  createdAt : Time
  updatedAt : Time

inductive BatchOp where
  | insert (key : PartitionedKey) (row : BlobRow)
  | delete (key : PartitionedKey)

/-- A batching state, with the operations of the batches that were executed. -/
structure DegradingBatchingState where
  state : DegradingState
  batch : Option (List BatchOp)
  executed : List BatchOp := []
  totalPins : ℤ := 0

namespace DegradingBatchingState

def newBatching (s : DegradingState) : Except Error DegradingBatchingState :=
  if s.closed then .error (.text "ScyllaState is closed") else .ok { state := s, batch := some [] }

variable (bs : DegradingBatchingState)

def pending : List BatchOp := bs.batch.getD []

def alreadyCommitted : Error := .text "batch is nil or already committed"

def blobRow (pin : Pin) (pinData : Bytes) (createdAt updatedAt : Time) : BlobRow where
  pinType := pin.type
  rf := pin.replicationFactorMin
  owner := pin.userAllocations
  tags := pin.metadata
  metadata := pinData
  createdAt := createdAt
  updatedAt := updatedAt

def add (codecs : PinCodecs) (pin : Pin) (createdAt updatedAt : Time) : Option Error × DegradingBatchingState :=
  match bs.batch with
  | none => (some alreadyCommitted, bs)
  | some entries =>
    match serializePin codecs pin with
    | .error err => (some (.text ("failed to serialize pin: " ++ errorText err)), bs)
    | .ok pinData =>
      (none, { bs with batch := some (entries ++
        [.insert (mhPrefix pin.cid, pin.cid) (blobRow pin pinData createdAt updatedAt)]) })

def rm (cid : Cid) : Option Error × DegradingBatchingState :=
  match bs.batch with
  | none => (some alreadyCommitted, bs)
  | some entries => (none, { bs with batch := some (entries ++ [.delete (mhPrefix cid, cid)]) })

/-- Execute the batch; `query` answers the executions. There is no batch afterwards, whether they failed or not. -/
def commit (ctx : Context) (now : Time) (query : ℕ → Consistency → Except QueryError Unit) :
    Option Error × DegradingBatchingState :=
  match bs.batch with
  | none => (some alreadyCommitted, bs)
  | some entries =>
    if entries = [] then (none, bs)
    else match bs.state.executeWithGracefulDegradation ctx now query with
      | (.error err, state) => (some (.text err.error), { bs with state, batch := none })
      | (.ok _, state) =>
        (none, { bs with
          state
          batch := none
          executed := bs.executed ++ entries
          totalPins := bs.totalPins + (entries.length / 2 : ℕ) })

end DegradingBatchingState

inductive BatchCall where
  | add (pin : Pin) (createdAt updatedAt : Time)
  | rm (cid : Cid)
  | commit (ctx : Context) (now : Time) (query : ℕ → Consistency → Except QueryError Unit)

structure BatchClient where
  bs : DegradingBatchingState
  accepted : List BatchOp := []
  refused : Bool := false

section

variable (codecs : PinCodecs)

def BatchCall.perform (bs : DegradingBatchingState) : BatchCall → Option Error × DegradingBatchingState
  | .add pin createdAt updatedAt => bs.add codecs pin createdAt updatedAt
  | .rm cid => bs.rm cid
  | .commit ctx now query => bs.commit ctx now query

def BatchCall.operations : BatchCall → List BatchOp
  | .add pin createdAt updatedAt =>
    match serializePin codecs pin with
    | .error _ => []
    | .ok pinData =>
      [.insert (mhPrefix pin.cid, pin.cid) (DegradingBatchingState.blobRow pin pinData createdAt updatedAt)]
  | .rm cid => [.delete (mhPrefix cid, cid)]
  | .commit _ _ _ => []

def BatchClient.answered (client : BatchClient) (call : BatchCall) (answer : Option Error × DegradingBatchingState) :
    BatchClient where
  bs := answer.2
  accepted := if answer.1 = none then client.accepted ++ call.operations codecs else client.accepted
  refused := client.refused || answer.1 = some DegradingBatchingState.alreadyCommitted

def batchClientMachine : LabeledMachine BatchClient BatchCall where
  step client call := some (client.answered codecs call (call.perform codecs client.bs))

end

end IpfsCluster.Model.Scyllastate

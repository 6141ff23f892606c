import IpfsCluster.Model.State.Degradation

/-! # Reading pins through the degradation manager

The second implementation of the operations of the state. A pin is stored as one blob, a versioned envelope
around the protobuf message of the pin, and every query goes through the degradation manager when there is
one. The encodings of the envelope and of the message are those of libraries.
-/

namespace IpfsCluster.Model.Scyllastate

open Api

abbrev Bytes := List UInt8

structure SerializedPin where
  version : UInt8
  data : Bytes
deriving DecidableEq, Repr

structure PinCodecs where
  protoEncode : Pb.Pin → Except Error Bytes
  protoDecode : Bytes → Except Error Pb.Pin
  jsonMarshal : SerializedPin → Except Error Bytes
  jsonUnmarshal : Bytes → Except Error SerializedPin
  cidString : Cid → String

def currentPinSerializationVersion : UInt8 := 1

def errorText : Error → String
  | .notFound => "pin is not part of the pinset"
  | .text message => message

section

variable (codecs : PinCodecs)

def serializePin (pin : Pin) : Except Error Bytes :=
  match codecs.protoEncode pin.protoMarshal with
  | .error err => .error (.text ("failed to marshal pin with protobuf: " ++ errorText err))
  | .ok pinData =>
    match codecs.jsonMarshal { version := currentPinSerializationVersion, data := pinData } with
    | .error err => .error (.text ("failed to marshal versioned pin data: " ++ errorText err))
    | .ok versionedData => .ok versionedData

def deserializePinV1 (cid : Cid) (data : Bytes) : Except Error Pin :=
  match codecs.protoDecode data >>= Pin.protoUnmarshal with
  | .error err => .error (.text ("failed to unmarshal pin protobuf data for CID " ++ codecs.cidString cid ++ ": " ++
      errorText err))
  | .ok pin => .ok (if !pin.cid.defined || pin.cid ≠ cid then { pin with cid := cid } else pin)

/-- Data that is no envelope is the message itself. -/
def deserializePin (cid : Cid) (data : Bytes) : Except Error Pin :=
  if data = [] then .error (.text ("empty pin data for CID " ++ codecs.cidString cid))
  else match codecs.jsonUnmarshal data with
    | .error _ => deserializePinV1 codecs cid data
    | .ok serializedPin =>
      if serializedPin.version = currentPinSerializationVersion then deserializePinV1 codecs cid serializedPin.data
      else .error (.text ("unsupported pin serialization version " ++ serializedPin.version.toNat.repr ++
        " for CID " ++ codecs.cidString cid))

end

/-- The state of the second implementation, as far as reading needs it. -/
structure DegradingState where
  closed : Bool := false
  consistency : Consistency
  degradationManager : Option GracefulDegradationManager

namespace DegradingState

variable (s : DegradingState) (ctx : Context) (now : Time)

/-- Execute a query through the manager, or directly if there is none. -/
def executeWithGracefulDegradation {α : Type} (query : ℕ → Consistency → Except QueryError α) :
    Except QueryError α × DegradingState :=
  match s.degradationManager with
  | none => (query 0 s.consistency, s)
  | some gdm =>
    let (result, gdm) := gdm.executeWithDegradation ctx query now
    (result, { s with degradationManager := some gdm })

def executeGetOperation (codecs : PinCodecs) (query : ℕ → Consistency → Except QueryError Bytes) (cid : Cid) :
    Except Error Pin × DegradingState :=
  match s.executeWithGracefulDegradation ctx now query with
  | (.error err, s) =>
    (.error (if err = .notFound then .notFound else .text ("failed to get pin: " ++ err.error)), s)
  | (.ok pinData, s) =>
    match deserializePin codecs cid pinData with
    | .error err => (.error (.text ("failed to deserialize pin: " ++ errorText err)), s)
    | .ok pin => (.ok pin, s)

/-- Read a pin; `query` answers the executions of the statement, which selects the row of the CID. -/
def get (codecs : PinCodecs) (query : ℕ → Consistency → Except QueryError Bytes) (cid : Cid) :
    Except Error Pin × DegradingState :=
  if s.closed then (.error (.text "ScyllaState is closed"), s) else s.executeGetOperation ctx now codecs query cid

def executeHasOperation (query : ℕ → Consistency → Except QueryError Bytes) : Except Error Bool × DegradingState :=
  match s.executeWithGracefulDegradation ctx now query with
  | (.error err, s) =>
    (if err = .notFound then .ok false else .error (.text ("failed to check pin existence: " ++ err.error)), s)
  | (.ok _, s) => (.ok true, s)

def has (query : ℕ → Consistency → Except QueryError Bytes) : Except Error Bool × DegradingState :=
  if s.closed then (.error (.text "ScyllaState is closed"), s) else s.executeHasOperation ctx now query

end DegradingState

end IpfsCluster.Model.Scyllastate

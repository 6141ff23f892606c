import IpfsCluster.Datastore.Keys
import IpfsCluster.Machine.Run
import IpfsCluster.Model.State.DsState

/-! # The pinset under a namespace of a datastore

Pins are stored under keys that consist of a namespace and the text of a CID. The whole state is dumped as a sequence of
entries without the namespace, and read back under the namespace of the reading state. A serialized entry is decoded
from the front of what is left to read.
-/

namespace IpfsCluster.Model.Dsstate

open Api Golang Datastore

structure CidKeyCodec where
  encode : Cid → String
  decode : String → Except String Cid

structure SerialEntry where
  key : String
  value : Pb.Pin

inductive Decoded (β : Type) where
  | eof
  | failed (err : String)
  | entry (entry : SerialEntry) (rest : List β)

/-- The serialization of entries; a decoded entry has a length. -/
structure Handle (β : Type) where
  encode : SerialEntry → List β
  decode : List β → Decoded β
  consumes : ∀ bytes entry rest, decode bytes = .entry entry rest → rest.length < bytes.length

structure State where
  datastore : Store Pb.Pin := ∅
  ns : Key
  totalPins : ℤ := 0

section

variable (codec : CidKeyCodec)

def cidToDsKey (c : Cid) : Key := Key.ofString (codec.encode c)

/-- The text of a key starts with a slash. -/
def dsKeyToCid (k : Key) : Except String Cid := codec.decode (String.ofList k.string.toList.tail)

namespace State

variable (st : State)

def key (c : Cid) : Key := st.ns.child (cidToDsKey codec c)

def unkey (k : Key) : Except String Cid := dsKeyToCid codec (Key.ofString k.baseNamespace)

def has (c : Cid) : Bool := (st.datastore.lookup (st.key codec c)).isSome

/-- Add a new pin or replace an existing one. -/
def add (pin : Pin) : State :=
  { st with
    datastore := st.datastore.insert (st.key codec pin.cid) pin.protoMarshal
    totalPins := if st.has codec pin.cid then st.totalPins else st.totalPins + 1 }

/-- Add when asking for the CID may fail, which is taken as not having it. -/
def addAsking (hasFails : Bool) (pin : Pin) : State :=
  let has := !hasFails && st.has codec pin.cid
  { st with
    datastore := st.datastore.insert (st.key codec pin.cid) pin.protoMarshal
    totalPins := if has then st.totalPins else st.totalPins + 1 }

def rm (c : Cid) : State :=
  { st with datastore := st.datastore.erase (st.key codec c), totalPins := st.totalPins - 1 }

def get (c : Cid) : Except Error Pin :=
  match st.datastore.lookup (st.key codec c) with
  | none => .error .notFound
  | some data => DsState.deserializePin c data

/-- The pin of a query result; what cannot be read is left out. -/
def listed (r : String × Pb.Pin) : Option Pin :=
  match unkey codec (Key.ofString r.1) with
  | .error _ => none
  | .ok ci => (DsState.deserializePin ci r.2).toOption

def list (order : MapOrder) : List Pin × State :=
  let pins := (st.datastore.query order st.ns).filterMap (listed codec)
  (pins, { st with totalPins := pins.length })

end State

end

namespace State

variable {β : Type} (handle : Handle β) (st : State)

def marshal (order : MapOrder) : List β :=
  (st.datastore.query order st.ns).flatMap fun r => handle.encode ⟨(Key.ofString r.1).baseNamespace, r.2⟩

def put (entry : SerialEntry) : State :=
  { st with datastore := st.datastore.insert (st.ns.child (Key.ofString entry.key)) entry.value }

/-- Read a dump; the entries before an error are stored. -/
def unmarshal (st : State) (bytes : List β) : Option Error × State :=
  match decoded : handle.decode bytes with
  | .eof => (none, st)
  | .failed err => (some (.text err), st)
  | .entry entry rest =>
    have := handle.consumes bytes entry rest decoded
    unmarshal (st.put entry) rest
termination_by bytes.length

end State

inductive StateCall where
  | add (hasFails : Bool) (pin : Pin)
  | rm (c : Cid)
  | list (order : MapOrder)

/-- What the calls do to a state; deleting a key that is missing succeeds. -/
def calls (codec : CidKeyCodec) : Machine.LabeledMachine State StateCall where
  step st
    | .add hasFails pin => some (st.addAsking codec hasFails pin)
    | .rm c => some (st.rm codec c)
    | .list order => some (st.list codec order).2

end IpfsCluster.Model.Dsstate

import IpfsCluster.Model.Api.Types

/-! # The pinset in a datastore

The shared state keeps one serialized pin per CID. A datastore that holds it is a map from the CIDs
of its keys to messages, in which deleting an absent key succeeds. Reading sets the CID of the pin
from the key.
-/

namespace IpfsCluster.Model

open Api

structure DsState where
  store : AList (fun _ : Cid => Pb.Pin) := ∅
  totalPins : ℤ := 0

namespace DsState

variable (st : DsState)

def deserializePin (c : Cid) (data : Pb.Pin) : Except Error Pin :=
  (Pin.protoUnmarshal data).map fun pin => { pin with cid := c }

def has (c : Cid) : Bool := (st.store.lookup c).isSome

def add (pin : Pin) : DsState where
  store := st.store.insert pin.cid pin.protoMarshal
  totalPins := if st.has pin.cid then st.totalPins else st.totalPins + 1

def rm (c : Cid) : DsState where
  store := st.store.erase c
  totalPins := st.totalPins - 1

def get (c : Cid) : Except Error Pin :=
  match st.store.lookup c with
  | none => .error .notFound
  | some data => deserializePin c data

/-- The pins that are sent by `List`, in the order of the query; what cannot be read is left out. -/
def list : List Pin :=
  st.store.entries.filterMap fun entry => (deserializePin entry.1 entry.2).toOption

end DsState

end IpfsCluster.Model

import Mathlib.Data.List.Basic

/-! # Responses that are streamed

Items are encoded into the body one after the other, and an error that comes up on the way is sent in a trailer. What
the iterator returns and whether a value can be encoded are inputs; a value that cannot is not written. The channel of
errors is closed by the function that fills it.
-/

namespace IpfsCluster.Model.Api

variable {Item : Type}

/-- What the iterator returns, with the error of encoding an item; an error counts before anything else. -/
inductive IteratorResult (Item : Type) where
  | item (item : Item) (encodeErr : Option String)
  | finished
  | failed (err : String)

/-- A value in the body: an item, or the response for an error with its status. -/
inductive StreamValue (Item : Type) where
  | item (item : Item)
  | errorResp (err : String) (status : ℕ)

/-- What is written: the calls of `WriteHeader`, the body, and the values of `X-Stream-Error`. -/
structure StreamWriter (Item : Type) where
  statuses : List ℕ := []
  body : List (StreamValue Item) := []
  streamErrors : List String := []

namespace StreamWriter

variable (w : StreamWriter Item)

def writeHeader (status : ℕ) : StreamWriter Item := { w with statuses := w.statuses ++ [status] }

def encode (value : StreamValue Item) (encodeErr : Option String) : StreamWriter Item :=
  { w with body := w.body ++ if encodeErr = none then [value] else [] }

/-- The end of the loop: the error that stopped it, or an empty text, and the errors of the channel. -/
def finish (errCh : List (Option String)) (err : Option String) : StreamWriter Item :=
  { w with streamErrors := err.getD "" :: errCh.filterMap id }

end StreamWriter

section

variable (errCh : List (Option String)) (errorEncodeErr : Option String)

def sendStreamError (w : StreamWriter Item) (err : String) : StreamWriter Item :=
  (w.writeHeader 500).encode (.errorResp err 500) errorEncodeErr

/-- The loop after the first item; an iterator has finished after its last result. -/
def streamItems : StreamWriter Item → List (IteratorResult Item) → StreamWriter Item
  | w, [] => w.finish errCh none
  | w, .finished :: _ => w.finish errCh none
  | w, .failed err :: _ => w.finish errCh (some err)
  | w, .item item encodeErr :: rest =>
    match encodeErr with
    | some err => w.finish errCh (some err)
    | none => streamItems (w.encode (.item item) none) rest

/-- Nothing was produced: the first error of the channel decides. -/
def streamNothing (w : StreamWriter Item) : Option String → StreamWriter Item
  | some err => sendStreamError errorEncodeErr w err
  | none => w.writeHeader 204

def streamResponse : List (IteratorResult Item) → StreamWriter Item
  | [] => streamNothing errorEncodeErr {} (errCh.findSome? id)
  | .finished :: _ => streamNothing errorEncodeErr {} (errCh.findSome? id)
  | .failed err :: _ => sendStreamError errorEncodeErr {} err
  | .item item encodeErr :: rest =>
    streamItems errCh (({} : StreamWriter Item).writeHeader 200) (.item item encodeErr :: rest)

end

end IpfsCluster.Model.Api

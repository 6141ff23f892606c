import IpfsCluster.Model.Api.StreamResponse

/-! # Status, body and trailer of a streamed response

The status is written once, and says whether there is an item, an error instead of one, or neither. After the first
item errors only show in the trailer.
-/

namespace IpfsCluster.Soundness

open Model.Api StreamWriter

variable {Item : Type}

/-- The item of a result that is encoded. -/
def sentItem : IteratorResult Item → Option Item
  | .item item none => some item
  | _ => none

def isSent (result : IteratorResult Item) : Bool := (sentItem result).isSome

/-- The error of a result: one of the iterator, or one of encoding its item. -/
def streamFailure : IteratorResult Item → Option String
  | .item _ encodeErr => encodeErr
  | .finished => none
  | .failed err => some err

/-- The iterator begins with an item. -/
def ProducesItem (results : List (IteratorResult Item)) : Prop :=
  ∃ item encodeErr, results.head? = some (.item item encodeErr)

def firstError (results : List (IteratorResult Item)) (errCh : List (Option String)) : Option String :=
  (results.head?.bind streamFailure).or (errCh.findSome? id)

variable (errCh : List (Option String)) (errorEncodeErr : Option String)

theorem streamItems_eq (w : StreamWriter Item) (results : List (IteratorResult Item)) : streamItems errCh w results =
      { w with
        body := w.body ++ ((results.takeWhile isSent).filterMap sentItem).map .item
        streamErrors := ((results.dropWhile isSent).head?.bind streamFailure).getD "" :: errCh.filterMap id } := by
  induction results generalizing w with
  | nil => simp [streamItems, finish]
  | cons result rest ih =>
    cases result with
    | finished | failed => simp [streamItems, finish, isSent, sentItem, streamFailure]
    | item item encodeErr =>
      cases encodeErr with
      | some err => simp [streamItems, finish, isSent, sentItem, streamFailure]
      | none =>
        have sent : isSent (.item item none : IteratorResult Item) := rfl
        simp [streamItems, ih, encode, sent, sentItem]

variable {results : List (IteratorResult Item)}

theorem streamResponse_of_item (item : ProducesItem results) : streamResponse errCh errorEncodeErr results =
      { statuses := [200]
        body := ((results.takeWhile isSent).filterMap sentItem).map .item
        streamErrors := ((results.dropWhile isSent).head?.bind streamFailure).getD "" :: errCh.filterMap id } := by
  obtain ⟨first, encodeErr, head⟩ := item
  obtain ⟨rest, rfl⟩ := List.head?_eq_some_iff.mp head
  simp [streamResponse, streamItems_eq, writeHeader]

theorem streamResponse_of_no_item (empty : ¬ ProducesItem results) :
    streamResponse errCh errorEncodeErr results = streamNothing errorEncodeErr {} (firstError results errCh) := by
  match results with
  | [] => rfl
  | .finished :: rest => rfl
  | .failed err :: rest => rfl
  | .item item encodeErr :: rest => exact absurd ⟨item, encodeErr, rfl⟩ empty

theorem firstError_isSome_iff (empty : ¬ ProducesItem results) : (firstError results errCh).isSome ↔
      (∃ err, results.head? = some (.failed err)) ∨ ∃ err, some err ∈ errCh := by
  have channel : (errCh.findSome? id).isSome ↔ ∃ err, some err ∈ errCh := by
    rw [List.isSome_findSome?]
    simp [Option.exists]
  match results with
  | [] => simpa [firstError] using channel
  | .finished :: rest => simpa [firstError, streamFailure] using channel
  | .failed err :: rest => simp [firstError, streamFailure]
  | .item item encodeErr :: rest => exact absurd ⟨item, encodeErr, rfl⟩ empty

/-- One status, which says whether there is an item, only an error, or nothing, and the body and trailer of each. -/
theorem streamResponse_status_once (results : List (IteratorResult Item)) :
    (∃ status, (streamResponse errCh errorEncodeErr results).statuses = [status]) ∧
    ((streamResponse errCh errorEncodeErr results).statuses = [500] ↔
      ¬ ProducesItem results ∧ ((∃ err, results.head? = some (.failed err)) ∨ ∃ err, some err ∈ errCh)) ∧
    ((streamResponse errCh errorEncodeErr results).statuses = [204] ↔
      ¬ ProducesItem results ∧ ¬ ((∃ err, results.head? = some (.failed err)) ∨ ∃ err, some err ∈ errCh)) ∧
    ((streamResponse errCh errorEncodeErr results).statuses = [200] ↔ ProducesItem results) ∧
    (∀ err, ¬ ProducesItem results → firstError results errCh = some err →
      (streamResponse errCh errorEncodeErr results).body = if errorEncodeErr = none then [.errorResp err 500] else []) ∧
    (ProducesItem results → (streamResponse errCh errorEncodeErr results).body =
        ((results.takeWhile isSent).filterMap sentItem).map .item ∧
      (streamResponse errCh errorEncodeErr results).streamErrors =
        ((results.dropWhile isSent).head?.bind streamFailure).getD "" :: errCh.filterMap id) := by
  by_cases item : ProducesItem results
  · simp [streamResponse_of_item errCh errorEncodeErr item, item]
  · rw [streamResponse_of_no_item errCh errorEncodeErr item, ← firstError_isSome_iff errCh item]
    cases firstError results errCh with
    | none => simp [streamNothing, writeHeader, item]
    | some err =>
      simp [streamNothing, sendStreamError, writeHeader, encode, item]

theorem streamResponse_status_once_interrupted :
    (streamResponse [none, some "rpc"] none [.item 7 none, .failed "read"]).statuses = [200] ∧
    (streamResponse [none, some "rpc"] none [.item 7 none, .failed "read"]).body = [.item 7] ∧
    (streamResponse [none, some "rpc"] none [.item 7 none, .failed "read"]).streamErrors = ["read", "rpc"] := by
  have produces : ProducesItem [.item 7 none, .failed "read"] := ⟨7, none, rfl⟩
  obtain ⟨-, -, -, ok, -, sent⟩ :=
    streamResponse_status_once [none, some "rpc"] none [.item 7 none, .failed "read"]
  exact ⟨ok.mpr produces, sent produces⟩

end IpfsCluster.Soundness

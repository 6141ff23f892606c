import IpfsCluster.Proofs.Crdt.Batching

/-! # Batching applies what it acknowledges

When the worker exits, the calls on the batching state are those of the acknowledged items, in order, unless its select
received from the closed and empty channel. The timer is pending at the start of every iteration with items in the
batch, unless a commit by age has failed.
-/

namespace IpfsCluster.Soundness

open Model Model.Api Model.Crdt Golang Machine Proofs.Crdt LabeledMachine

/-- The calls on the batching state are those of the items whose `LogPin` or `LogUnpin` returns nil. -/
structure AppliedInOrder (b : Batching) : Prop where
  calls : b.calls = b.acked.map BatchItem.call
  nodup : b.acked.Nodup
  succeeded : ∀ (k : ℕ) (caller : Caller), b.callers[k]? = some caller →
    (caller.pc.succeeds = true ↔ caller.item ∈ b.acked)
  logged : ∀ item ∈ b.acked, ∃ (k : ℕ) (caller : Caller), b.callers[k]? = some caller ∧ caller.item = item

/-- In every run without a receive from the closed and empty channel, the worker has applied exactly the
acknowledged items when it exits. -/
theorem appliedInOrder_of_run (config : BatchingConfig) (timerChan : TimerChan) (events : List BatchEvent)
    (b : Batching) (receives : batching.Meets ReceivesItem (.new config timerChan) events)
    (ran : batching.run (.new config timerChan) events = some b) (exited : b.worker = .exited) : AppliedInOrder b := by
  have inv := invariant_of_meets BatchInv (fun _ _ _ inv receives step => inv.step receives step)
    (batchInv_new config timerChan) receives ran
  obtain ⟨closed, empty⟩ := inv.drained (by rw [exited]; rfl)
  have sequence := inv.sequence
  rw [inv.closed] at closed
  simp only [Batching.sequence, exited, empty, SenderPc.unacked_of_hasClosed closed, WorkerPc.inHand,
    List.append_nil, List.map_nil] at sequence
  exact ⟨sequence, inv.callers.nodup, inv.callers.succeeded, inv.callers.acked⟩

def pairs : BatchingConfig := { maxBatchSize := 2, maxBatchAge := 10 ^ 9, maxQueueSize := 10, enabled := by decide }

def batchEnd (events : List BatchEvent) : Batching :=
  (batching.run (.new pairs .synchronous) events).getD (.new pairs .synchronous)

theorem run_eq_batchEnd {events : List BatchEvent}
    (completes : (batching.run (.new pairs .synchronous) events).isSome = true) :
    batching.run (.new pairs .synchronous) events = some (batchEnd events) :=
  run_eq_some_getD completes _

def work (steps : ℕ) : List BatchEvent := List.replicate steps (.batchWorker {})

def accept (k : ℕ) : List BatchEvent :=
  [.sendToBatchWorker (.receive k), .sendToBatchWorker .proceed, .sendToBatchWorker .proceed]

def close : List BatchEvent := [.shutdown, .sendToBatchWorker .done, .sendToBatchWorker .proceed]

def leave (items : ℕ) : List BatchEvent := .batchWorker { select := .done } :: work (2 * items + 2)

/-- Without a single item, the worker receives from the closed channel before it notices the shutdown. -/
def receivedClosed : List BatchEvent := work 2 ++ close ++ work 3 ++ leave 0

theorem zero_item_applied : batching.run (.new pairs .synchronous) receivedClosed = some (batchEnd receivedClosed) ∧
      (batchEnd receivedClosed).worker = .exited ∧ (batchEnd receivedClosed).acked = [] ∧
      (batchEnd receivedClosed).calls = [.rm Cid.undef] ∧ ¬ AppliedInOrder (batchEnd receivedClosed) := by
  have calls : (batchEnd receivedClosed).calls = [.rm Cid.undef] := by decide +kernel
  have acked : (batchEnd receivedClosed).acked = [] := by decide +kernel
  refine ⟨run_eq_batchEnd (by decide +kernel), by decide +kernel, acked, calls, fun applied => ?_⟩
  have invented := applied.calls
  rw [calls, acked] at invented
  cases invented

/-- Two calls are acknowledged, and the worker notices the shutdown after the first. -/
def drainedAtShutdown : List BatchEvent :=
  work 2 ++ [.logPin { cid := ⟨"a"⟩ }, .logUnpin { cid := ⟨"b"⟩ }] ++ accept 1 ++ accept 0 ++ work 3 ++ close ++ leave 1

theorem appliedInOrder_of_drainedAtShutdown :
    (batchEnd drainedAtShutdown).calls.length = 2 ∧ AppliedInOrder (batchEnd drainedAtShutdown) :=
  ⟨by decide +kernel, appliedInOrder_of_run pairs .synchronous drainedAtShutdown _ (by decide +kernel)
    (run_eq_batchEnd (by decide +kernel)) (by decide +kernel)⟩

/-- The items of a batch wait for a pending timer, and a receive from the timer does not block. -/
structure TimerPending (b : Batching) : Prop where
  iteration : b.worker = .select → 0 < b.batchCurSize → b.batchTimer.armed = true ∨ b.batchTimer.tick = true
  receive : b.worker = .receiveNew ∨ b.worker = .receiveTick → ∀ input, (b.batchWorker input).isSome = true

/-- In every run in which a commit by age only fails with a pending timer or an empty batch, the timer is
pending for every batch with items. -/
theorem timerPending_of_run (config : BatchingConfig) (timerChan : TimerChan) (events : List BatchEvent) (b : Batching)
    (kept : batching.Meets AgeCommitKept (.new config timerChan) events)
    (ran : batching.run (.new config timerChan) events = some b) : TimerPending b := by
  have inv := invariant_of_meets TimerInv (fun _ _ _ inv kept step => inv.step kept step)
    (show TimerInv (.new config timerChan) from rfl) kept ran
  unfold TimerInv at inv
  constructor
  · intro selecting items
    rw [selecting] at inv
    exact (Bool.or_eq_true _ _).mp (inv items)
  · rintro (receiving | receiving) input
    · rw [receiving] at inv
      simp [Batching.batchWorker, receiving, Timer.receive, inv.2]
    · rw [receiving] at inv
      simp [Batching.batchWorker, receiving, Timer.receive, show b.batchTimer.tick = true from inv]

theorem receiveTick_forever {b next : Batching} {events : List BatchEvent} (waiting : b.worker = .receiveTick)
    (idle : b.batchTimer = {}) (ran : batching.run b events = some next) : next.worker = .receiveTick := by
  refine (invariant_of_run (fun b => b.worker = .receiveTick ∧ b.batchTimer = {}) ?_
    ⟨waiting, idle⟩ ran).1
  rintro b event next ⟨waiting, idle⟩ step
  rcases timer_frame step with ⟨worker, -, timer⟩ | ⟨timer, fired, -⟩ | ⟨input, -, stepped⟩
  · exact ⟨worker.trans waiting, timer.trans idle⟩
  · rw [idle] at fired
    cases fired
  · simp [Batching.batchWorker, waiting, idle, Timer.receive] at stepped

/-- A first item is in the batch when the timer ticks, and the commit fails. -/
def ageCommitFailed : List BatchEvent :=
  work 2 ++ [.logPin { cid := ⟨"a"⟩ }] ++ accept 0 ++ work 3 ++
    [.fire, .batchWorker { select := .tick }, .batchWorker { answer := .error "commit failed" }]

def committedBySize : List BatchEvent := ageCommitFailed ++ [.logPin { cid := ⟨"b"⟩ }] ++ accept 1 ++ work 5

theorem failed_age_commit_blocks :
    batching.run (.new pairs .synchronous) ageCommitFailed = some (batchEnd ageCommitFailed) ∧
      (batchEnd ageCommitFailed).worker = .select ∧ (batchEnd ageCommitFailed).batchCurSize = 1 ∧
      (batchEnd ageCommitFailed).batchTimer = { armed := false, tick := false } ∧
      batching.run (.new pairs .synchronous) committedBySize = some (batchEnd committedBySize) ∧
      ∀ later next, batching.run (batchEnd committedBySize) later = some next → next.worker = .receiveTick := by
  refine ⟨run_eq_batchEnd (by decide +kernel), by decide +kernel, by decide +kernel, by decide +kernel,
    run_eq_batchEnd (by decide +kernel), ?_⟩
  intro later next ran
  exact receiveTick_forever (by decide +kernel) (by decide +kernel) ran

def firstItem : List BatchEvent := work 2 ++ [.logPin { cid := ⟨"a"⟩ }] ++ accept 0 ++ work 3

theorem timerPending_of_firstItem :
    (batchEnd firstItem).worker = .select ∧ (batchEnd firstItem).batchCurSize = 1 ∧ TimerPending (batchEnd firstItem) :=
  ⟨by decide +kernel, by decide +kernel, timerPending_of_run pairs .synchronous firstItem _ (by decide +kernel)
    (run_eq_batchEnd (by decide +kernel))⟩

end IpfsCluster.Soundness

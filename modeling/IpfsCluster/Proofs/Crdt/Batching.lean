import IpfsCluster.Model.Crdt.Batching

/-! # The queue of batch items and the timer of the batch

The calls made so far, the item in the hands of the worker and the items on the channel are the acknowledged items and
the one about to be acknowledged; only the receive from the closed and empty channel breaks this. The timer is pending
while the batch has items, unless a commit by age has failed.
-/

namespace IpfsCluster.Model.Crdt

open Golang

def CallerPc.succeeds : CallerPc → Bool
  | .acknowledged | .returned none => true
  | .sending | .waiting | .returned (some _) => false

def WorkerPc.inHand : WorkerPc → List BatchItem
  | .gotItem item | .addItem item | .drainItem item => [item]
  | _ => []

def WorkerPc.drained : WorkerPc → Bool
  | .shutdownCommit | .exited => true
  | _ => false

def SenderPc.unacked : SenderPc → List BatchItem
  | .ack item => [item]
  | _ => []

def SenderPc.holds : SenderPc → Option BatchItem
  | .push item | .ack item | .full item | .reject item => some item
  | .select | .closing | .rejecting => none

def SenderPc.hasClosed : SenderPc → Bool
  | .rejecting | .reject _ => true
  | _ => false

theorem SenderPc.unacked_of_hasClosed {pc : SenderPc} (closed : pc.hasClosed = true) : pc.unacked = [] := by
  cases pc <;> first | rfl | cases closed

/-- The calls that have been made or will be made for the items received so far. -/
def Batching.sequence (b : Batching) : List StateCall :=
  b.calls ++ (b.worker.inHand ++ b.batchItemCh.buffer).map BatchItem.call

end IpfsCluster.Model.Crdt

namespace IpfsCluster.Proofs.Crdt

open Model Model.Api Model.Crdt Golang Machine Batching List

/-- The worker does not receive from the closed and empty channel in its select. -/
def ReceivesItem (b : Batching) : BatchEvent → Prop
  | .batchWorker input => b.worker = .select → input.select = .item →
      ¬ (b.batchItemCh.closed = true ∧ b.batchItemCh.buffer.isEmpty = true)
  | _ => True

instance (b : Batching) (event : BatchEvent) : Decidable (ReceivesItem b event) :=
  match event with
  | .batchWorker input => inferInstanceAs (Decidable (b.worker = .select → input.select = .item → _))
  | .logPin _ | .logUnpin _ | .resume _ | .shutdown | .sendToBatchWorker _ | .fire => isTrue trivial

variable {item : BatchItem}

section

variable {b next : Batching} {input : WorkerInput}

/-- What a step of the worker leaves alone, and what it does to the queue. -/
structure WorkerSpec (b next : Batching) : Prop where
  callers : next.callers = b.callers := by rfl
  sender : next.sender = b.sender := by rfl
  acked : next.acked = b.acked := by rfl
  closed : next.batchItemCh.closed = b.batchItemCh.closed := by rfl
  sequence : next.sequence = b.sequence
  drained : next.worker.drained = true → (b.worker.drained = true ∧ next.batchItemCh.buffer = b.batchItemCh.buffer) ∨
      (b.batchItemCh.closed = true ∧ next.batchItemCh.buffer = [])

variable {pc : WorkerPc}

theorem WorkerSpec.quiet (timer : Timer) (size : ℕ) (sameHand : pc.inHand = b.worker.inHand)
    (running : pc.drained = false) :
    WorkerSpec b { b with batchTimer := timer, batchCurSize := size, worker := pc } where
  sequence := by simp only [Batching.sequence, sameHand]
  drained ended := by cases running.symm.trans ended

theorem WorkerSpec.applied (size : ℕ) (inHand : b.worker.inHand = [item]) (free : pc.inHand = [])
    (running : pc.drained = false) :
    WorkerSpec b { b with calls := b.calls ++ [item.call], batchCurSize := size, worker := pc } where
  sequence := by simp [Batching.sequence, inHand, free]
  drained ended := by cases running.symm.trans ended

theorem WorkerSpec.received {rest : Chan BatchItem} (buffer : b.batchItemCh.buffer = item :: rest.buffer)
    (closed : rest.closed = b.batchItemCh.closed) (free : b.worker.inHand = []) (inHand : pc.inHand = [item])
    (running : pc.drained = false) : WorkerSpec b { b with batchItemCh := rest, worker := pc } where
  closed := closed
  sequence := by simp [Batching.sequence, inHand, free, buffer]
  drained ended := by cases running.symm.trans ended

theorem batchWorker_spec (stepped : b.batchWorker input = some next) (receives : ReceivesItem b (.batchWorker input)) :
    WorkerSpec b next := by
  cases worker : b.worker with simp only [batchWorker, worker] at stepped
  | stopNew =>
    cases stepped
    refine .quiet _ _ ?_ ?_
    · rw [worker]
      split <;> rfl
    · split <;> rfl
  | receiveNew | receiveTick =>
    obtain ⟨timer, -, rfl⟩ := Option.map_eq_some_iff.mp stepped
    exact .quiet _ _ (by rw [worker]; rfl) rfl
  | select =>
    split at stepped
    · split at stepped
      · cases stepped
        exact .quiet _ _ (by rw [worker]; rfl) rfl
      · cases stepped
    next item =>
      obtain ⟨⟨answer, rest⟩, got, rfl⟩ := Option.map_eq_some_iff.mp stepped
      rcases Chan.tryReceive_eq_some got with ⟨-, empty, closed, -⟩ | ⟨received, rfl, buffer, closed, -⟩
      · exact (receives worker item ⟨closed, by rw [empty]; rfl⟩).elim
      · exact .received buffer closed (by rw [worker]; rfl) rfl rfl
    · obtain ⟨timer, -, rfl⟩ := Option.map_eq_some_iff.mp stepped
      exact .quiet _ _ (by rw [worker]; rfl) rfl
  | newTimer | gotItem item =>
    cases stepped
    exact .quiet _ _ (by rw [worker]; rfl) rfl
  | addItem item =>
    split at stepped
    · cases stepped
      exact .applied _ (by rw [worker]; rfl) rfl rfl
    · cases stepped
      refine .applied _ (by rw [worker]; rfl) ?_ ?_
      all_goals split <;> rfl
  | sizeCommit | ageCommit | stopTimer =>
    split at stepped
    all_goals
      cases stepped
      exact .quiet _ _ (by rw [worker]; rfl) rfl
  | drain =>
    obtain ⟨⟨answer, rest⟩, got, rfl⟩ := Option.map_eq_some_iff.mp stepped
    rcases Chan.tryReceive_eq_some got with ⟨rfl, empty, closed, rfl⟩ | ⟨received, rfl, buffer, closed, -⟩
    · exact {
        sequence := by simp [Batching.sequence, worker, WorkerPc.inHand]
        drained := fun _ => .inr ⟨closed, empty⟩ }
    · exact .received buffer closed (by rw [worker]; rfl) rfl rfl
  | drainItem item =>
    split at stepped
    all_goals
      cases stepped
      exact .applied _ (by rw [worker]; rfl) rfl rfl
  | shutdownCommit =>
    cases stepped
    exact {
      sequence := by simp [Batching.sequence, worker, WorkerPc.inHand]
      drained := fun _ => .inl ⟨by rw [worker]; rfl, rfl⟩ }
  | exited =>
    cases stepped

end

variable {caller : Caller} {k : ℕ}

section

variable {b next : Batching}

/-- What the callers see of the acknowledged items. -/
structure CallerInv (b : Batching) : Prop where
  own : ∀ (k : ℕ) (caller : Caller), b.callers[k]? = some caller → caller.item.batched = some k
  held : ∀ item, b.sender.holds = some item → ∃ k, item.batched = some k ∧ b.callers[k]? = some ⟨item, .waiting⟩
  succeeded : ∀ (k : ℕ) (caller : Caller), b.callers[k]? = some caller → (caller.pc.succeeds = true ↔ caller.item ∈ b.acked)
  acked : ∀ item ∈ b.acked, ∃ (k : ℕ) (caller : Caller), b.callers[k]? = some caller ∧ caller.item = item
  nodup : b.acked.Nodup

theorem CallerInv.congr (inv : CallerInv b) (callers : next.callers = b.callers) (acked : next.acked = b.acked)
    (holds : ∀ item, next.sender.holds = some item → b.sender.holds = some item) : CallerInv next where
  own := by
    rw [callers]
    exact inv.own
  held item held := by
    rw [callers]
    exact inv.held item (holds item held)
  succeeded := by
    rw [callers, acked]
    exact inv.succeeded
  acked := by
    rw [callers, acked]
    exact inv.acked
  nodup := by
    rw [acked]
    exact inv.nodup

theorem CallerInv.update (inv : CallerInv b) (pc : CallerPc) (present : b.callers[k]? = some caller)
    (callers : ∀ j, next.callers[j]? = if k = j then some ⟨caller.item, pc⟩ else b.callers[j]?)
    (held : ∀ item, next.sender.holds = some item →
      (item = caller.item ∧ pc = .waiting) ∨ (b.sender.holds = some item ∧ caller.pc ≠ .waiting))
    (acked : (next.acked = b.acked ∧ pc.succeeds = caller.pc.succeeds) ∨
      (next.acked = b.acked ++ [caller.item] ∧ pc.succeeds = true ∧ caller.pc.succeeds = false)) : CallerInv next := by
  have mine := inv.own k caller present
  have here : next.callers[k]? = some ⟨caller.item, pc⟩ := by rw [callers, if_pos rfl]
  have cases {j : ℕ} {other : Caller} (at' : next.callers[j]? = some other) :
      (j = k ∧ other = ⟨caller.item, pc⟩) ∨ (j ≠ k ∧ b.callers[j]? = some other) := by
    rw [callers] at at'
    split at at'
    next same => exact Or.inl ⟨same.symm, (Option.some.inj at').symm⟩
    next differ => exact .inr ⟨Ne.symm differ, at'⟩
  have grown {item : BatchItem} (old : item ∈ b.acked) : item ∈ next.acked := by
    rcases acked with ⟨same, -⟩ | ⟨same, -⟩
    · rwa [same]
    · rw [same]
      exact mem_append_left _ old
  constructor
  · intro j other at'
    rcases cases at' with ⟨rfl, rfl⟩ | ⟨-, old⟩
    · exact mine
    · exact inv.own j other old
  · intro item holds
    rcases held item holds with ⟨rfl, rfl⟩ | ⟨before, notWaiting⟩
    · exact ⟨k, mine, here⟩
    · obtain ⟨j, batched, waiting⟩ := inv.held item before
      refine ⟨j, batched, ?_⟩
      rw [callers, if_neg, waiting]
      rintro rfl
      obtain rfl := Option.mem_unique present waiting
      exact notWaiting rfl
  · intro j other at'
    rcases cases at' with ⟨rfl, rfl⟩ | ⟨differ, old⟩
    · rcases acked with ⟨same, samePc⟩ | ⟨same, succeeds, -⟩
      · rw [same, samePc]
        exact inv.succeeded j caller present
      · rw [same]
        exact iff_of_true succeeds (by simp)
    · rw [inv.succeeded j other old]
      refine ⟨grown, fun after => ?_⟩
      rcases acked with ⟨same, -⟩ | ⟨same, -⟩
      · rwa [same] at after
      · rw [same, mem_append, mem_singleton] at after
        refine after.resolve_right (fun sameItem => differ ?_)
        have other := inv.own j other old
        rw [sameItem, mine] at other
        exact (Option.some.inj other).symm
  · intro item member
    have old (member : item ∈ b.acked) : ∃ (j : ℕ) (other : Caller), next.callers[j]? = some other ∧ other.item = item := by
      obtain ⟨j, other, at', rfl⟩ := inv.acked item member
      by_cases same : k = j
      · subst same
        obtain rfl := Option.mem_unique present at'
        exact ⟨k, _, here, rfl⟩
      · exact ⟨j, other, by rw [callers, if_neg same, at'], rfl⟩
    rcases acked with ⟨same, -⟩ | ⟨same, -⟩
    · exact old (same ▸ member)
    · rw [same, mem_append, mem_singleton] at member
      rcases member with member | rfl
      · exact old member
      · exact ⟨k, _, here, rfl⟩
  · rcases acked with ⟨same, -⟩ | ⟨same, -, failed⟩
    · rw [same]
      exact inv.nodup
    · rw [same]
      refine nodup_append.mpr ⟨inv.nodup, nodup_singleton _, ?_⟩
      rintro item member _ new rfl
      obtain rfl := mem_singleton.mp new
      cases failed.symm.trans ((inv.succeeded k caller present).mpr member)

theorem CallerInv.log (inv : CallerInv b) (isPin : Bool) (pin : Pin) : CallerInv (b.log isPin pin) := by
  have cases {k : ℕ} {caller : Caller} (at' : (b.log isPin pin).callers[k]? = some caller) :
      b.callers[k]? = some caller ∨ k = b.callers.length ∧
        caller = ⟨{ isPin := isPin, pin := pin, batched := some b.callers.length }, .sending⟩ := by
    change (b.callers ++ [_])[k]? = some caller at at'
    rw [getElem?_append] at at'
    split at at'
    · exact .inl at'
    next beyond =>
      obtain ⟨bound, same⟩ := List.getElem?_eq_some_iff.mp at'
      rw [length_singleton] at bound
      exact .inr ⟨by omega, by simpa using same.symm⟩
  have kept {k : ℕ} {caller : Caller} (old : b.callers[k]? = some caller) :
      (b.log isPin pin).callers[k]? = some caller :=
    (List.getElem?_append_left (List.getElem?_eq_some_iff.mp old).1).trans old
  constructor
  · intro k caller at'
    rcases cases at' with old | ⟨rfl, rfl⟩
    · exact inv.own k caller old
    · rfl
  · intro item holds
    obtain ⟨k, batched, waiting⟩ := inv.held item holds
    exact ⟨k, batched, kept waiting⟩
  · intro k caller at'
    rcases cases at' with old | ⟨rfl, rfl⟩
    · exact inv.succeeded k caller old
    · refine iff_of_false nofun (fun acked => ?_)
      obtain ⟨j, other, old, same⟩ := inv.acked _ acked
      have own := inv.own j other old
      rw [same] at own
      exact Nat.lt_irrefl _ (Option.some.inj own ▸ (List.getElem?_eq_some_iff.mp old).1)
  · intro item member
    obtain ⟨k, caller, old, same⟩ := inv.acked item member
    exact ⟨k, caller, kept old, same⟩
  · exact inv.nodup

end

/-- The channel of items is a queue from the acknowledged items to the calls. -/
structure BatchInv (b : Batching) : Prop where
  sequence : b.sequence = (b.acked ++ b.sender.unacked).map BatchItem.call
  closed : b.batchItemCh.closed = b.sender.hasClosed
  drained : b.worker.drained = true → b.batchItemCh.closed = true ∧ b.batchItemCh.buffer = []
  callers : CallerInv b

section

variable {b next : Batching}

theorem BatchInv.worker (inv : BatchInv b) (spec : WorkerSpec b next) : BatchInv next where
  sequence := by rw [spec.sequence, inv.sequence, spec.acked, spec.sender]
  closed := by rw [spec.closed, inv.closed, spec.sender]
  drained ended := by
    rw [spec.closed]
    rcases spec.drained ended with ⟨before, same⟩ | ended
    · rw [same]
      exact inv.drained before
    · exact ended
  callers := inv.callers.congr spec.callers spec.acked (fun _ holds => spec.sender ▸ holds)

theorem BatchInv.answer (inv : BatchInv b) (callers : List Caller) {sender : SenderPc} (acked : List BatchItem)
    (same : acked ++ sender.unacked = b.acked ++ b.sender.unacked) (closed : sender.hasClosed = b.sender.hasClosed)
    (moved : CallerInv { b with callers := callers, sender := sender, acked := acked }) :
    BatchInv { b with callers := callers, sender := sender, acked := acked } where
  sequence := by
    rw [same]
    exact inv.sequence
  closed := inv.closed.trans closed.symm
  drained := inv.drained
  callers := moved

theorem getElem?_answer (batched : item.batched = some k) (present : b.callers[k]? = some caller) (pc : CallerPc)
    (j : ℕ) : (b.answer item pc)[j]? = if k = j then some ⟨caller.item, pc⟩ else b.callers[j]? := by
  rw [answer, batched, getElem?_modify]
  split
  next same =>
    rw [← same, present]
    rfl
  · exact Option.map_id'

theorem getElem?_set_of_present (present : b.callers[k]? = some caller) (pc : CallerPc) (j : ℕ) :
    (b.callers.set k ⟨caller.item, pc⟩)[j]? = if k = j then some ⟨caller.item, pc⟩ else b.callers[j]? := by
  rw [List.getElem?_set, if_pos (List.getElem?_eq_some_iff.mp present).1]

section

variable (inv : BatchInv b)

include inv

theorem BatchInv.handOver {next' : BatchItem → SenderPc} (holds : ∀ item, (next' item).holds = some item)
    (unacked : ∀ item, (next' item).unacked = b.sender.unacked)
    (closed : ∀ item, (next' item).hasClosed = b.sender.hasClosed) (received : b.handOver k next' = some next) :
    BatchInv next := by
  unfold Batching.handOver at received
  split at received
  next item present =>
    cases received
    refine inv.answer _ b.acked (by rw [unacked]) (closed item) (inv.callers.update .waiting present ?_ ?_ ?_)
    · exact getElem?_set_of_present present .waiting
    · intro item' held
      exact Or.inl ⟨(Option.some.inj ((holds item).symm.trans held)).symm, rfl⟩
    · exact .inl ⟨rfl, rfl⟩
  · cases received

theorem BatchInv.answered (holds : b.sender.holds = some item) (pc : CallerPc) {sender : SenderPc}
    (idle : sender.holds = none) (acked : List BatchItem) (same : acked ++ sender.unacked = b.acked ++ b.sender.unacked)
    (closed : sender.hasClosed = b.sender.hasClosed)
    (recorded : (acked = b.acked ∧ pc.succeeds = false) ∨ (acked = b.acked ++ [item] ∧ pc.succeeds = true)) :
    BatchInv { b with callers := b.answer item pc, sender := sender, acked := acked } := by
  obtain ⟨k, batched, waiting⟩ := inv.callers.held item holds
  refine inv.answer _ acked same closed (inv.callers.update pc waiting (getElem?_answer batched waiting pc) ?_ ?_)
  · intro item' held
    cases idle.symm.trans held
  · rcases recorded with ⟨unchanged, failed⟩ | ⟨grown, succeeds⟩
    · exact .inl ⟨unchanged, failed⟩
    · exact .inr ⟨grown, succeeds, rfl⟩

theorem BatchInv.sender {input : SenderInput} (stepped : b.sendToBatchWorker input = some next) : BatchInv next := by
  cases sender : b.sender with simp only [sendToBatchWorker, sender] at stepped
  | select =>
    split at stepped
    · split at stepped
      · cases stepped
        exact inv.answer b.callers b.acked (by rw [sender]; rfl) (by rw [sender]; rfl)
          (inv.callers.congr rfl rfl (fun _ held => by cases held))
      · cases stepped
    · exact inv.handOver (fun _ => rfl) (fun _ => by rw [sender]; rfl) (fun _ => by rw [sender]; rfl) stepped
    · cases stepped
  | push item =>
    have holds : b.sender.holds = some item := by
      rw [sender]
      rfl
    split at stepped
    next filled sent =>
      cases stepped
      obtain ⟨buffer, isOpen, -⟩ := Chan.trySend_eq_some sent
      have before := inv.sequence
      rw [sender] at before
      exact {
        sequence := by
          simp only [Batching.sequence, SenderPc.unacked, append_nil] at before ⊢
          rw [buffer, ← append_assoc, map_append, ← append_assoc, before, map_append]
        closed := isOpen
        drained := fun ended => by
          have closed := (inv.drained ended).1
          rw [inv.closed, sender] at closed
          cases closed
        callers := inv.callers.congr rfl rfl (fun _ held => holds.trans held) }
    · cases stepped
      exact inv.answer b.callers b.acked (by rw [sender]; rfl) (by rw [sender]; rfl)
        (inv.callers.congr rfl rfl (fun _ held => holds.trans held))
  | ack item =>
    cases stepped
    exact inv.answered (by rw [sender]; rfl) .acknowledged rfl _ (by rw [sender]; simp [SenderPc.unacked])
      (by rw [sender]; rfl) (.inr ⟨rfl, rfl⟩)
  | full item =>
    cases stepped
    exact inv.answered (by rw [sender]; rfl) (.returned (some errMaxQueueSizeReached)) rfl b.acked
      (by rw [sender]; rfl) (by rw [sender]; rfl) (.inl ⟨rfl, rfl⟩)
  | closing =>
    cases stepped
    have before := inv.sequence
    rw [sender] at before
    exact {
      sequence := before
      closed := rfl
      drained := fun ended => ⟨rfl, (inv.drained ended).2⟩
      callers := inv.callers.congr rfl rfl (fun _ held => by cases held) }
  | rejecting =>
    split at stepped
    · exact inv.handOver (fun _ => rfl) (fun _ => by rw [sender]; rfl) (fun _ => by rw [sender]; rfl) stepped
    · cases stepped
    · cases stepped
  | reject item =>
    cases stepped
    exact inv.answered (by rw [sender]; rfl) (.returned (some errShuttingDown)) rfl b.acked
      (by rw [sender]; rfl) (by rw [sender]; rfl) (.inl ⟨rfl, rfl⟩)

theorem BatchInv.step {event : BatchEvent} (receives : ReceivesItem b event)
    (step : batching.step b event = some next) : BatchInv next := by
  cases event with
  | logPin pin | logUnpin pin =>
    cases step
    exact { inv with callers := inv.callers.log _ pin }
  | resume k =>
    simp only [batching, resume] at step
    split at step
    next item present =>
      cases step
      refine inv.answer _ b.acked rfl rfl (inv.callers.update (.returned none) present ?_ ?_ (.inl ⟨rfl, rfl⟩))
      · exact getElem?_set_of_present present (.returned none)
      · exact fun item held => .inr ⟨held, nofun⟩
    · cases step
  | shutdown =>
    cases step
    exact { inv with callers := inv.callers.congr rfl rfl (fun _ => id) }
  | sendToBatchWorker input => exact inv.sender step
  | batchWorker input => exact inv.worker (batchWorker_spec step receives)
  | fire =>
    obtain ⟨timer, -, rfl⟩ := Option.map_eq_some_iff.mp step
    exact { inv with callers := inv.callers.congr rfl rfl (fun _ => id) }

end

theorem batchInv_new (config : BatchingConfig) (timerChan : TimerChan) : BatchInv (.new config timerChan) where
  sequence := rfl
  closed := rfl
  drained ended := by cases ended
  callers := {
    own := fun k caller present => by cases present
    held := fun item holds => by cases holds
    succeeded := fun k caller present => by cases present
    acked := fun item member => (not_mem_nil member).elim
    nodup := nodup_nil }

end

/-- A commit by age that fails leaves a pending timer, or there is nothing in the batch. -/
def AgeCommitKept (b : Batching) : BatchEvent → Prop
  | .batchWorker input => b.worker = .ageCommit → input.answer.isOk = false → 0 < b.batchCurSize →
      b.batchTimer.pending = true
  | _ => True

instance (b : Batching) (event : BatchEvent) : Decidable (AgeCommitKept b event) :=
  match event with
  | .batchWorker input => inferInstanceAs (Decidable (b.worker = .ageCommit → input.answer.isOk = false → _))
  | .logPin _ | .logUnpin _ | .resume _ | .shutdown | .sendToBatchWorker _ | .fire => isTrue trivial

/-- What each point of the worker relies on: the timer is pending while there is something in the batch,
and a blocking receive finds a tick. -/
def TimerInv (b : Batching) : Prop :=
  match b.worker with
  | .newTimer => b.batchCurSize = 0
  | .stopNew => b.batchCurSize = 0 ∧ b.batchTimer.pending = true
  | .receiveNew => b.batchCurSize = 0 ∧ b.batchTimer.tick = true
  | .select | .gotItem _ => 0 < b.batchCurSize → b.batchTimer.pending = true
  | .addItem _ | .sizeCommit | .stopTimer => b.batchTimer.pending = true
  | .receiveTick => b.batchTimer.tick = true
  | .ageCommit | .drain | .drainItem _ | .shutdownCommit | .exited => True

section

variable {b next : Batching}

theorem TimerInv.worker (inv : TimerInv b) {input : WorkerInput} (kept : AgeCommitKept b (.batchWorker input))
    (stepped : b.batchWorker input = some next) : TimerInv next := by
  cases worker : b.worker with simp only [batchWorker, TimerInv, worker] at stepped inv
  | newTimer =>
    cases stepped
    exact ⟨inv, rfl⟩
  | stopNew =>
    cases stepped
    cases stopped : (b.batchTimer.stop b.timerChan).1 with
    | true => exact fun items => (Nat.ne_of_gt items inv.1).elim
    | false => exact ⟨inv.1, Timer.tick_of_stop inv.2 stopped⟩
  | receiveNew =>
    obtain ⟨timer, -, rfl⟩ := Option.map_eq_some_iff.mp stepped
    exact fun items => (Nat.ne_of_gt items inv.1).elim
  | select =>
    split at stepped
    · split at stepped
      · cases stepped
        trivial
      · cases stepped
    · obtain ⟨⟨answer, rest⟩, -, rfl⟩ := Option.map_eq_some_iff.mp stepped
      exact inv
    · obtain ⟨timer, -, rfl⟩ := Option.map_eq_some_iff.mp stepped
      trivial
  | gotItem item =>
    cases stepped
    change (if b.batchCurSize = 0 then b.batchTimer.reset b.timerChan else b.batchTimer).pending = true
    split
    · exact Timer.pending_reset ..
    next items => exact inv (Nat.pos_of_ne_zero items)
  | addItem item =>
    split at stepped
    · cases stepped
      exact fun _ => inv
    · cases stepped
      by_cases room : b.batchCurSize + 1 < b.config.maxBatchSize
      · simp only [room, if_true]
        exact fun _ => inv
      · simp only [room, if_false]
        exact inv
  | sizeCommit =>
    split at stepped
    · cases stepped
      exact fun _ => inv
    · cases stepped
      exact inv
  | stopTimer =>
    split at stepped
    · cases stepped
      exact fun items => (Nat.lt_irrefl 0 items).elim
    next expired =>
      cases stepped
      exact Timer.tick_of_stop inv (Bool.eq_false_iff.mpr expired)
  | receiveTick =>
    obtain ⟨timer, -, rfl⟩ := Option.map_eq_some_iff.mp stepped
    exact fun items => (Nat.lt_irrefl 0 items).elim
  | ageCommit =>
    split at stepped
    next err failed =>
      cases stepped
      exact kept worker (by rw [failed]; rfl)
    · cases stepped
      exact fun items => (Nat.lt_irrefl 0 items).elim
  | drain =>
    obtain ⟨⟨answer, rest⟩, -, rfl⟩ := Option.map_eq_some_iff.mp stepped
    cases answer <;> trivial
  | drainItem item =>
    split at stepped
    all_goals
      cases stepped
      trivial
  | shutdownCommit =>
    cases stepped
    trivial
  | exited =>
    cases stepped

theorem TimerInv.ticked (inv : TimerInv b) {timer : Timer} (tick : timer.tick = true) :
    TimerInv { b with batchTimer := timer } := by
  have pending := Timer.pending_of_tick tick
  unfold TimerInv at inv ⊢
  cases worker : b.worker with
  | newTimer => simpa only [worker] using inv
  | stopNew =>
    simp only [worker] at inv ⊢
    exact ⟨inv.1, pending⟩
  | receiveNew =>
    simp only [worker] at inv ⊢
    exact ⟨inv.1, tick⟩
  | select | gotItem item => exact fun _ => pending
  | addItem item | sizeCommit | stopTimer => exact pending
  | receiveTick => exact tick
  | ageCommit | drain | drainItem item | shutdownCommit | exited => trivial

theorem handOver_frame {k : ℕ} {sender : BatchItem → SenderPc} (received : b.handOver k sender = some next) :
    next.worker = b.worker ∧ next.batchCurSize = b.batchCurSize ∧ next.batchTimer = b.batchTimer := by
  unfold handOver at received
  split at received
  · cases received
    exact ⟨rfl, rfl, rfl⟩
  · cases received

theorem sendToBatchWorker_frame {input : SenderInput} (stepped : b.sendToBatchWorker input = some next) :
    next.worker = b.worker ∧ next.batchCurSize = b.batchCurSize ∧ next.batchTimer = b.batchTimer := by
  cases sender : b.sender with simp only [sendToBatchWorker, sender] at stepped
  | select =>
    split at stepped
    · split at stepped
      · cases stepped
        exact ⟨rfl, rfl, rfl⟩
      · cases stepped
    · exact handOver_frame stepped
    · cases stepped
  | rejecting =>
    split at stepped
    · exact handOver_frame stepped
    · cases stepped
    · cases stepped
  | push item =>
    split at stepped
    all_goals
      cases stepped
      exact ⟨rfl, rfl, rfl⟩
  | ack item | full item | closing | reject item =>
    cases stepped
    exact ⟨rfl, rfl, rfl⟩

theorem timer_frame {event : BatchEvent} (step : batching.step b event = some next) :
    (next.worker = b.worker ∧ next.batchCurSize = b.batchCurSize ∧ next.batchTimer = b.batchTimer) ∨
      (∃ timer, b.batchTimer.fire = some timer ∧ next = { b with batchTimer := timer }) ∨
      ∃ input, event = .batchWorker input ∧ b.batchWorker input = some next := by
  cases event with
  | logPin pin | logUnpin pin | shutdown =>
    cases step
    exact .inl ⟨rfl, rfl, rfl⟩
  | resume k =>
    simp only [batching, resume] at step
    split at step
    · cases step
      exact .inl ⟨rfl, rfl, rfl⟩
    · cases step
  | sendToBatchWorker input => exact .inl (sendToBatchWorker_frame step)
  | batchWorker input => exact .inr (.inr ⟨input, rfl, step⟩)
  | fire =>
    obtain ⟨timer, fired, rfl⟩ := Option.map_eq_some_iff.mp step
    exact .inr (.inl ⟨timer, fired, rfl⟩)

theorem TimerInv.step (inv : TimerInv b) {event : BatchEvent} (kept : AgeCommitKept b event)
    (step : batching.step b event = some next) : TimerInv next := by
  rcases timer_frame step with ⟨worker, size, timer⟩ | ⟨timer, fired, rfl⟩ | ⟨input, rfl, stepped⟩
  · unfold TimerInv at inv ⊢
    rwa [worker, size, timer]
  · exact inv.ticked (Timer.tick_of_fire fired)
  · exact inv.worker kept stepped

end

end IpfsCluster.Proofs.Crdt

import IpfsCluster.Proofs.State.Batching
import IpfsCluster.Soundness.Requests
import IpfsCluster.Soundness.Degradation

/-! # Batches are executed in order and completely

An auto-commit batcher may fail to commit at any time, and no statement is lost, repeated or moved. Closing is meant to
commit what is left, but it only returns if nothing is left. A commit of the second implementation drops the batch, so
that it can only be the last call, and it has to be successful.
-/

namespace IpfsCluster.Soundness

open Model Model.Api Model.Scyllastate.Batching Golang Machine Proofs.State Model.Scyllastate

section

variable {codecs : TextCodecs}

/-- The executed statements and the pending ones are those of the calls, and a call that adds statements and
returns no error leaves fewer than the largest size pending. -/
theorem autoCommit_keeps_statements {closed : Bool} {maxBatchSize maxBatchTime : ℤ} {now : Time}
    {acb : AutoCommitBatcher} (positive : 1 ≤ maxBatchSize)
    (created : newAutoCommitBatcher closed maxBatchSize maxBatchTime now = .ok acb) (calls : List WriteCall) :
    (∃ target, (writeMachine codecs).run acb calls = some target ∧
      target.base.executed.flatten ++ target.base.pending = calls.flatMap (·.statements codecs)) ∧
    ∀ before call after, calls = before ++ call :: after →
      ∃ mid err next, (writeMachine codecs).run acb before = some mid ∧ call.perform codecs mid = some (err, next) ∧
        (err = none → call.statements codecs ≠ [] → (next.base.pending.length : ℤ) < maxBatchSize) := by
  have start := batched_new created
  constructor
  · obtain ⟨target, ran, -, ⟨entries, executed, shape, all⟩, -⟩ := start.run positive calls
    refine ⟨target, ran, ?_⟩
    rw [shape]
    exact all
  · intro before call after _
    obtain ⟨mid, ran, reached⟩ := start.run positive before
    obtain ⟨err, next, returned, -, room⟩ := reached.perform positive call
    exact ⟨mid, err, next, ran, returned, fun succeeded _ => room succeeded⟩

def failedOnce : List WriteCall :=
  [.add { cid := ⟨"A"⟩ } ⟨⟨0⟩, ⟨0⟩, ⟨0⟩, none⟩, .rm ⟨"B"⟩ ⟨⟨1⟩, ⟨1⟩, ⟨1⟩, some "timeout"⟩,
    .add { cid := ⟨"C"⟩ } ⟨⟨2⟩, ⟨2⟩, ⟨2⟩, none⟩]

theorem autoCommit_keeps_statements_failedOnce :
    ∃ target, (writeMachine plainCodecs).run ⟨{ batch := some [] }, 3, 100, ⟨0⟩, false⟩ failedOnce = some target ∧
      target.base.executed.flatten ++ target.base.pending = failedOnce.flatMap (·.statements plainCodecs) ∧
      target.base.pending = [] ∧ target.base.executed.length = 1 := by
  obtain ⟨⟨target, ran, all⟩, -⟩ := @autoCommit_keeps_statements plainCodecs false 3 100 ⟨0⟩
    ⟨{ batch := some [] }, 3, 100, ⟨0⟩, false⟩ (by decide) rfl failedOnce
  refine ⟨target, ran, all, ?_⟩
  cases ran
  exact ⟨rfl, rfl⟩

end

/-- Closing returns, and what was pending is executed if the database accepts it. -/
def Closes (bs : ScyllaBatchingState) : Prop :=
  ∀ fault, ∃ err after, bs.close fault = some (err, after) ∧
    (fault = none → after.executed.flatten = bs.executed.flatten ++ bs.pending)

/-- The same for an auto-commit batcher. -/
def BatcherCloses (acb : AutoCommitBatcher) : Prop :=
  ∀ fault, ∃ err after, acb.close fault = some (err, after) ∧
    (fault = none → after.base.executed.flatten = acb.base.executed.flatten ++ acb.base.pending)

/-- In every state that one client can reach, closing does its work exactly if there is no work to do. -/
theorem close_returns_iff (codecs : TextCodecs) :
    (∀ closed start calls bs, newBatching closed = .ok start → (batchingMachine codecs).run start calls = some bs →
      (Closes bs ↔ bs.pending = [])) ∧ ∀ closed maxBatchSize maxBatchTime now start calls acb,
      newAutoCommitBatcher closed maxBatchSize maxBatchTime now = .ok start →
      (batcherMachine codecs).run start calls = some acb → (BatcherCloses acb ↔ acb.base.pending = []) := by
  constructor
  · intro closed start calls bs created ran
    have free : start.mu = false := by
      cases closed with
      | true => cases created
      | false =>
        obtain rfl := Except.ok.inj created
        rfl
    have closes := ScyllaBatchingState.close_eq (ScyllaBatchingState.free_of_run free ran)
    constructor
    · intro returns
      obtain ⟨err, after, returned, -⟩ := returns none
      rw [closes] at returned
      exact (Option.ite_none_right_eq_some.mp returned).1
    · intro nothing fault
      refine ⟨none, _, (closes fault).trans (if_pos nothing), fun _ => ?_⟩
      rw [nothing, List.append_nil]
  · intro closed maxBatchSize maxBatchTime now start calls acb created ran
    have closes := AutoCommitBatcher.close_eq (unlocked_of_run (batched_new created).unlocked ran)
    constructor
    · intro returns
      obtain ⟨err, after, returned, -⟩ := returns none
      rw [closes] at returned
      exact (Option.ite_none_right_eq_some.mp returned).1
    · intro nothing fault
      refine ⟨none, _, (closes fault).trans (if_pos nothing), fun _ => ?_⟩
      rw [nothing, List.append_nil]

theorem close_waits_forever :
    ∃ bs, (batchingMachine plainCodecs).run { batch := some [] } [.rm ⟨"A"⟩] = some bs ∧ bs.close none = none :=
  ⟨_, rfl, rfl⟩

theorem close_returns_iff_committed :
    (∃ bs, (batchingMachine plainCodecs).run { batch := some [] } [.rm ⟨"A"⟩, .commit none] = some bs ∧ Closes bs) ∧
    ∃ acb, (batcherMachine plainCodecs).run ⟨{ batch := some [] }, 1, 100, ⟨0⟩, false⟩
      [.write (.rm ⟨"A"⟩ ⟨⟨0⟩, ⟨0⟩, ⟨0⟩, none⟩)] = some acb ∧ BatcherCloses acb := by
  obtain ⟨batching, batcher⟩ := close_returns_iff plainCodecs
  refine ⟨⟨_, rfl, ?_⟩, ⟨_, rfl, ?_⟩⟩
  · exact (batching false { batch := some [] } [.rm ⟨"A"⟩, .commit none] _ rfl rfl).mpr rfl
  · exact (batcher false 1 100 ⟨0⟩ ⟨{ batch := some [] }, 1, 100, ⟨0⟩, false⟩
      [.write (.rm ⟨"A"⟩ ⟨⟨0⟩, ⟨0⟩, ⟨0⟩, none⟩)] _ rfl rfl).mpr rfl

/-- In every state that a client reaches, the executed and the pending operations are the accepted ones and no call
was refused, exactly if each call finds a batch and no commit of operations fails. -/
theorem batching_reusable_iff {codecs : PinCodecs} {s : DegradingState} {bs : DegradingBatchingState}
    {calls : List BatchCall} {target : BatchClient} (created : DegradingBatchingState.newBatching s = .ok bs)
    (ran : (batchClientMachine codecs).run { bs } calls = some target) :
    (∀ before after mid, calls = before ++ after → (batchClientMachine codecs).run { bs } before = some mid →
      mid.bs.executed ++ mid.bs.pending = mid.accepted ∧ mid.refused = false) ↔
    (batchClientMachine codecs).Meets Reuses { bs } calls := by
  have initial : Reusable { bs } := by
    unfold DegradingBatchingState.newBatching at created
    split at created
    · cases created
    · obtain rfl := Except.ok.inj created
      exact ⟨rfl, rfl⟩
  rw [← LabeledMachine.forall_reached_iff_meets Reusable (fun _ _ _ => reusable_step_iff) initial ran]
  constructor
  · intro reached before after mid split run
    obtain ⟨all, served⟩ := reached before after mid split run
    exact ⟨all, served⟩
  · intro reached before after mid split run
    obtain ⟨all, served⟩ := reached before after mid split run
    exact ⟨all, served⟩

def accepting (_n : ℕ) (_level : Consistency) : Except QueryError Unit := .ok ()

def slow (_n : ℕ) (_level : Consistency) : Except QueryError Unit := .error (.text "timeout")

def freshBatch : DegradingBatchingState := { state := ⟨false, .quorum, none⟩, batch := some [] }

theorem batching_not_reusable : (∃ target, (batchClientMachine noCodecs).run { bs := freshBatch }
        [.rm ⟨"A"⟩, .commit {} ⟨0⟩ slow, .commit {} ⟨0⟩ accepting] = some target ∧
      target.bs.executed ++ target.bs.pending = [] ∧ target.accepted = [.delete (mhPrefix ⟨"A"⟩, ⟨"A"⟩)]) ∧
    ∃ target, (batchClientMachine noCodecs).run { bs := freshBatch }
        [.rm ⟨"A"⟩, .commit {} ⟨0⟩ accepting, .rm ⟨"B"⟩] = some target ∧
      target.refused = true ∧ target.bs.executed ++ target.bs.pending = [.delete (mhPrefix ⟨"A"⟩, ⟨"A"⟩)] :=
  ⟨⟨_, rfl, rfl, rfl⟩, ⟨_, rfl, rfl, rfl⟩⟩

def committedOnce : List BatchCall :=
  [.commit {} ⟨0⟩ slow, .rm ⟨"A"⟩, .rm ⟨"B"⟩, .commit {} ⟨0⟩ accepting]

theorem committedOnce_reuses : (batchClientMachine noCodecs).Meets Reuses { bs := freshBatch } committedOnce := by
  refine ⟨⟨rfl, Or.inl rfl⟩, fun next step => ?_⟩
  cases step
  refine ⟨⟨rfl, trivial⟩, fun next step => ?_⟩
  cases step
  refine ⟨⟨rfl, trivial⟩, fun next step => ?_⟩
  cases step
  exact ⟨⟨rfl, Or.inr rfl⟩, fun _ _ => trivial⟩

theorem batching_reusable_iff_once :
    ∃ target, (batchClientMachine noCodecs).run { bs := freshBatch } committedOnce = some target ∧
      target.bs.executed ++ target.bs.pending = target.accepted ∧ target.refused = false ∧
      target.bs.executed.length = 2 := by
  obtain ⟨target, ran⟩ : ∃ target,
      (batchClientMachine noCodecs).run { bs := freshBatch } committedOnce = some target := ⟨_, rfl⟩
  have exactly := @batching_reusable_iff noCodecs freshBatch.state freshBatch committedOnce target rfl ran
  obtain ⟨all, served⟩ :=
    exactly.mpr committedOnce_reuses committedOnce [] target (List.append_nil committedOnce).symm ran
  refine ⟨target, ran, all, served, ?_⟩
  cases ran
  rfl

end IpfsCluster.Soundness

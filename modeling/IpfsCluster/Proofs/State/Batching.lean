import IpfsCluster.Model.State.Batching
import IpfsCluster.Model.State.BatchingOperations

/-! # What batches keep

Between two calls no mutex is held. A batching state that was not closed holds its statements until a batch is executed.
In the second implementation, a call on a batch appends its operations, leaves everything as it is, or ends the batch.
-/

namespace IpfsCluster.Proofs.State

open Model Model.Api Model.Scyllastate.Batching Golang Machine Option Prod AutoCommitBatcher List

variable {bs : ScyllaBatchingState}

section

variable {codecs : TextCodecs} {statements : List Statement} {err : Option Error} {bs' : ScyllaBatchingState}

theorem ScyllaBatchingState.free_of_append (returned : bs.append statements = some (err, bs')) : bs'.mu = false :=
  ScyllaBatchingState.mutex.locked_of_sync returned

theorem BatchingCall.free_of_perform {call : BatchingCall} (returned : call.perform codecs bs = some (err, bs')) :
    bs'.mu = false := by
  cases call with unfold BatchingCall.perform at returned
  | add | rm => exact ScyllaBatchingState.free_of_append returned
  | commit | clear | close => exact ScyllaBatchingState.mutex.locked_of_sync returned
  | batchSize =>
    obtain ⟨outcome, sized, same⟩ := map_eq_some_iff.mp returned
    obtain ⟨-, rfl⟩ := mk.inj same
    exact ScyllaBatchingState.mutex.locked_of_sync sized

theorem ScyllaBatchingState.free_of_run {target : ScyllaBatchingState} {calls : List BatchingCall}
    (free : bs.mu = false) (ran : (batchingMachine codecs).run bs calls = some target) : target.mu = false := by
  refine LabeledMachine.invariant_of_run (fun bs => bs.mu = false) (fun bs call next _ step => ?_) free ran
  obtain ⟨outcome, returned, rfl⟩ := map_eq_some_iff.mp step
  exact BatchingCall.free_of_perform returned

structure Unlocked (acb : AutoCommitBatcher) : Prop where
  outer : acb.mu = false
  inner : acb.base.mu = false

variable {acb acb' : AutoCommitBatcher} {err : Option Error}

theorem AutoCommitBatcher.free_of_onBase {α : Type} {a : α}
    {call : ScyllaBatchingState → Option (α × ScyllaBatchingState)}
    (frees : ∀ {a bs'}, call acb.base = some (a, bs') → bs'.mu = false) (returned : acb.onBase call = some (a, acb')) :
    acb'.mu = acb.mu ∧ acb'.base.mu = false := by
  obtain ⟨outcome, called, same⟩ := map_eq_some_iff.mp returned
  obtain ⟨-, rfl⟩ := mk.inj same
  exact ⟨rfl, frees called⟩

variable {moment : Moment}

theorem AutoCommitBatcher.free_of_commitBase (returned : acb.commitBase moment = some (err, acb')) :
    acb'.base.mu = false := by
  obtain ⟨⟨result, committed⟩, called, same⟩ := map_eq_some_iff.mp returned
  have freed := (free_of_onBase ScyllaBatchingState.mutex.locked_of_sync called).2
  split at same
  · obtain ⟨-, rfl⟩ := mk.inj same
    exact freed
  · obtain ⟨-, rfl⟩ := mk.inj same
    exact freed

theorem AutoCommitBatcher.free_of_checkAutoCommit (returned : acb.checkAutoCommit moment = some (err, acb')) :
    acb'.base.mu = false := by
  obtain ⟨⟨size, sized⟩, measured, checked⟩ := bind_eq_some_iff.mp returned
  dsimp only at checked
  split at checked
  · exact free_of_commitBase checked
  · obtain ⟨-, rfl⟩ := mk.inj (some.inj checked)
    exact (free_of_onBase ScyllaBatchingState.mutex.locked_of_sync measured).2

theorem AutoCommitBatcher.unlocked_of_sync {body : AutoCommitBatcher → Option (Option Error × AutoCommitBatcher)}
    (frees : ∀ {before inside}, body before = some (err, inside) → inside.base.mu = false)
    (returned : mutex.sync body acb = some (err, acb')) : Unlocked acb' := by
  refine ⟨mutex.locked_of_sync returned, ?_⟩
  obtain ⟨inside, ran, rfl⟩ := mutex.exists_of_sync returned
  change inside.base.mu = false
  exact frees ran

theorem AutoCommitBatcher.unlocked_of_batched (returned : batched (·.append statements) moment acb = some (err, acb')) :
    Unlocked acb' := by
  refine unlocked_of_sync (fun {before inside} ran => ?_) returned
  obtain ⟨⟨result, appended⟩, called, checked⟩ := bind_eq_some_iff.mp ran
  dsimp only at checked
  split at checked
  · exact free_of_checkAutoCommit checked
  · obtain ⟨-, rfl⟩ := mk.inj (some.inj checked)
    exact (free_of_onBase ScyllaBatchingState.free_of_append called).2

theorem BatcherCall.unlocked_of_perform {call : BatcherCall} (before : Unlocked acb)
    (returned : call.perform codecs acb = some (err, acb')) : Unlocked acb' := by
  cases call with
  | write call =>
    cases call with
    | add | rm => exact AutoCommitBatcher.unlocked_of_batched returned
    | forceCommit moment => exact AutoCommitBatcher.unlocked_of_sync AutoCommitBatcher.free_of_commitBase returned
  | base call =>
    have called : acb.onBase (call.perform codecs ·) = some (err, acb') := returned
    obtain ⟨outer, inner⟩ := AutoCommitBatcher.free_of_onBase BatchingCall.free_of_perform called
    exact ⟨outer.trans before.outer, inner⟩
  | close fault =>
    refine AutoCommitBatcher.unlocked_of_sync (fun {before inside} ran => ?_) returned
    exact (AutoCommitBatcher.free_of_onBase ScyllaBatchingState.mutex.locked_of_sync ran).2

theorem unlocked_of_run {target : AutoCommitBatcher} {calls : List BatcherCall} (before : Unlocked acb)
    (ran : (batcherMachine codecs).run acb calls = some target) : Unlocked target := by
  refine LabeledMachine.invariant_of_run Unlocked (fun acb call next unlocked step => ?_) before ran
  obtain ⟨outcome, returned, rfl⟩ := map_eq_some_iff.mp step
  exact BatcherCall.unlocked_of_perform unlocked returned

end

theorem ScyllaBatchingState.close_eq (free : bs.mu = false) (fault : Option String) :
    bs.close fault = if bs.pending = [] then some (none, { bs with batch := none }) else none := by
  obtain ⟨batch, executed, mu⟩ := bs
  obtain rfl : mu = false := free
  rw [ScyllaBatchingState.close, ScyllaBatchingState.mutex.sync_of_free rfl]
  change Option.map _ (if ScyllaBatchingState.pending ⟨batch, executed, false⟩ = [] then _ else _) = _
  split
  · rfl
  · rw [ScyllaBatchingState.commit, ScyllaBatchingState.mutex.sync_of_locked rfl]
    rfl

theorem AutoCommitBatcher.close_eq {acb : AutoCommitBatcher} (unlocked : Unlocked acb) (fault : Option String) :
    acb.close fault =
      if acb.base.pending = [] then some (none, { acb with base := { acb.base with batch := none } }) else none := by
  obtain ⟨base, maxBatchSize, maxBatchTime, lastCommit, mu⟩ := acb
  obtain rfl : mu = false := unlocked.outer
  rw [close, mutex.sync_of_free rfl]
  change Option.map _ ((base.close fault).map _) = _
  rw [ScyllaBatchingState.close_eq unlocked.inner]
  split <;> rfl

section

/-- A batching state that is not closed and holds, with what was executed, some statements. -/
def Holding (bs : ScyllaBatchingState) (statements : List Statement) : Prop :=
  ∃ entries executed, bs = ⟨some entries, executed, false⟩ ∧ executed.flatten ++ entries = statements

variable {bs : ScyllaBatchingState} {statements : List Statement}

section

variable (holding : Holding bs statements)

include holding

theorem Holding.append (more : List Statement) :
    ∃ bs', bs.append more = some (none, bs') ∧ Holding bs' (statements ++ more) := by
  obtain ⟨entries, executed, rfl, all⟩ := holding
  refine ⟨⟨some (entries ++ more), executed, false⟩, rfl, entries ++ more, executed, rfl, ?_⟩
  rw [← all, append_assoc]

theorem Holding.batchSize : bs.batchSize = some (bs.pending.length, bs) := by
  obtain ⟨entries, executed, rfl, -⟩ := holding
  rfl

theorem Holding.commit (fault : Option String) :
    ∃ err bs', bs.commit fault = some (err, bs') ∧ Holding bs' statements ∧ (err = none → bs'.pending = []) := by
  obtain ⟨entries, executed, rfl, all⟩ := holding
  rw [ScyllaBatchingState.commit, ScyllaBatchingState.mutex.sync_of_free rfl]
  change ∃ err bs', Option.map _ (if entries = [] then _ else _) = _ ∧ _
  split
  next empty => exact ⟨none, ⟨some entries, executed, false⟩, rfl, ⟨entries, executed, rfl, all⟩, fun _ => empty⟩
  · cases fault with
    | some message =>
      exact ⟨_, ⟨some entries, executed, false⟩, rfl, ⟨entries, executed, rfl, all⟩, fun none => by cases none⟩
    | none =>
      refine ⟨none, ⟨some [], executed ++ [entries], false⟩, rfl, ⟨[], executed ++ [entries], rfl, ?_⟩, fun _ => rfl⟩
      rw [append_nil, flatten_concat, all]

end

/-- What a call that may commit does to an auto-commit batcher: no statement is lost, and there is room for one more
if there was no error. -/
structure Settled (acb : AutoCommitBatcher) (statements : List Statement) (err : Option Error)
    (after : AutoCommitBatcher) : Prop where
  holding : Holding after.base statements
  size : after.maxBatchSize = acb.maxBatchSize
  room : err = none → (after.base.pending.length : ℤ) < acb.maxBatchSize

variable {acb : AutoCommitBatcher}

theorem settled_of_commitBase (positive : 1 ≤ acb.maxBatchSize) (holding : Holding acb.base statements)
    (moment : Moment) : ∃ err after, acb.commitBase moment = some (err, after) ∧ Settled acb statements err after := by
  obtain ⟨err, bs, committed, held, nothing⟩ := holding.commit moment.fault
  have room : err = none → (bs.pending.length : ℤ) < acb.maxBatchSize := by
    intro succeeded
    rw [nothing succeeded, length_nil]
    omega
  rw [commitBase, onBase, committed]
  dsimp only [map_some]
  split
  next succeeded => exact ⟨none, _, rfl, held, rfl, fun _ => room succeeded⟩
  · exact ⟨err, _, rfl, held, rfl, room⟩

theorem settled_of_checkAutoCommit (positive : 1 ≤ acb.maxBatchSize) (holding : Holding acb.base statements)
    (moment : Moment) :
    ∃ err after, acb.checkAutoCommit moment = some (err, after) ∧ Settled acb statements err after := by
  rw [checkAutoCommit, onBase, holding.batchSize]
  dsimp only [map_some, bind_some]
  split
  · exact settled_of_commitBase positive holding moment
  next small => exact ⟨none, acb, rfl, holding, rfl, fun _ => by omega⟩

theorem settled_of_batched (unlocked : acb.mu = false) (positive : 1 ≤ acb.maxBatchSize)
    (holding : Holding acb.base statements) (more : List Statement) (moment : Moment) :
    ∃ err after, batched (·.append more) moment acb = some (err, after) ∧
      Settled acb (statements ++ more) err after := by
  obtain ⟨bs, appended, held⟩ := holding.append more
  obtain ⟨err, after, checked, settled⟩ :=
    @settled_of_checkAutoCommit _ { acb with base := bs, mu := true } positive held moment
  refine ⟨err, { after with mu := false }, ?_, settled.holding, settled.size, settled.room⟩
  rw [batched, mutex.sync_of_free unlocked, onBase]
  change Option.map _ (((acb.base.append more).map _).bind _) = _
  rw [appended]
  change Option.map _ (checkAutoCommit moment { acb with base := bs, mu := true }) = _
  rw [checked]
  rfl

structure Batched (maxBatchSize : ℤ) (statements : List Statement) (acb : AutoCommitBatcher) : Prop where
  unlocked : Unlocked acb
  holding : Holding acb.base statements
  size : acb.maxBatchSize = maxBatchSize

variable {codecs : TextCodecs} {maxBatchSize : ℤ}

theorem Batched.perform (positive : 1 ≤ maxBatchSize) (batched : Batched maxBatchSize statements acb)
    (call : WriteCall) : ∃ err after, call.perform codecs acb = some (err, after) ∧
      Batched maxBatchSize (statements ++ call.statements codecs) after ∧
      (err = none → (after.base.pending.length : ℤ) < maxBatchSize) := by
  obtain ⟨unlocked, holding, rfl⟩ := batched
  have settles : ∃ err after, call.perform codecs acb = some (err, after) ∧
      Settled acb (statements ++ call.statements codecs) err after := by
    cases call with
    | add _ moment | rm _ moment => exact settled_of_batched unlocked.outer positive holding _ moment
    | forceCommit moment =>
      obtain ⟨err, after, committed, settled⟩ :=
        @settled_of_commitBase statements { acb with mu := true } positive holding moment
      refine ⟨err, { after with mu := false }, ?_, ?_, settled.size, settled.room⟩
      · change mutex.sync _ acb = _
        rw [mutex.sync_of_free unlocked.outer]
        change Option.map _ (commitBase moment { acb with mu := true }) = _
        rw [committed]
        rfl
      · rw [WriteCall.statements, append_nil]
        exact settled.holding
  obtain ⟨err, after, returned, settled⟩ := settles
  have unlocked' : Unlocked after := @BatcherCall.unlocked_of_perform codecs acb after err (.write call) unlocked returned
  exact ⟨err, after, returned, ⟨unlocked', settled.holding, settled.size⟩, settled.room⟩

theorem Batched.run (positive : 1 ≤ maxBatchSize) (batched : Batched maxBatchSize statements acb)
    (calls : List WriteCall) : ∃ target, (writeMachine codecs).run acb calls = some target ∧
      Batched maxBatchSize (statements ++ calls.flatMap (·.statements codecs)) target := by
  induction calls generalizing acb statements with
  | nil => exact ⟨acb, rfl, by rwa [flatMap_nil, append_nil]⟩
  | cons call rest ih =>
    obtain ⟨err, after, returned, batched', -⟩ := batched.perform positive call
    obtain ⟨target, ran, held⟩ := ih batched'
    refine ⟨target, LabeledMachine.run_cons_eq_some.mpr ⟨after, ?_, ran⟩, ?_⟩
    · change (call.perform codecs acb).map Prod.snd = some after
      rw [returned]
      rfl
    · rwa [flatMap_cons, ← append_assoc]

theorem batched_new {closed : Bool} {maxBatchTime : ℤ} {now : Time}
    (created : newAutoCommitBatcher closed maxBatchSize maxBatchTime now = .ok acb) : Batched maxBatchSize [] acb := by
  cases closed with
  | true => cases created
  | false =>
    obtain rfl := Except.ok.inj created
    exact ⟨⟨rfl, rfl⟩, ⟨[], [], rfl, rfl⟩, rfl⟩

end

end IpfsCluster.Proofs.State

namespace IpfsCluster.Proofs.State

open Model Model.Api Model.Scyllastate Machine DegradingBatchingState

/-- A commit that has something to execute is accepted by the database. -/
def BatchAccepts (bs : DegradingBatchingState) : BatchCall → Prop
  | .commit ctx now query =>
    bs.pending = [] ∨ (bs.state.executeWithGracefulDegradation ctx now query).1 = .ok ()
  | _ => True

inductive BatchMove (codecs : PinCodecs) (bs : DegradingBatchingState) (entries : List BatchOp) (call : BatchCall) :
    Option Error × DegradingBatchingState → Prop where
  | append (accepts : BatchAccepts bs call) :
      BatchMove codecs bs entries call (none, { bs with batch := some (entries ++ call.operations codecs) })
  | reject (err : Error) (other : err ≠ alreadyCommitted) (accepts : BatchAccepts bs call) :
      BatchMove codecs bs entries call (some err, bs)
  | execute (state : DegradingState) (totalPins : ℤ) (isCommit : call.operations codecs = [])
      (accepts : BatchAccepts bs call) :
      BatchMove codecs bs entries call (none, ⟨state, none, bs.executed ++ entries, totalPins⟩)
  | lose (err : Error) (state : DegradingState) (some_entries : entries ≠ []) (fails : ¬BatchAccepts bs call) :
      BatchMove codecs bs entries call (some err, { bs with state, batch := none })

variable {codecs : PinCodecs} {bs : DegradingBatchingState} {entries : List BatchOp}

theorem batchMove_of_commit (isOpen : bs.batch = some entries) (ctx : Context) (now : Time)
    (query : ℕ → Consistency → Except QueryError Unit) :
    BatchMove codecs bs entries (.commit ctx now query) (bs.commit ctx now query) := by
  have pending : bs.pending = entries := by rw [pending, isOpen, Option.getD_some]
  unfold commit
  rw [isOpen]
  dsimp only
  split
  next empty =>
    have same : bs = { bs with batch := some (entries ++ []) } := by rw [List.append_nil, ← isOpen]
    nth_rewrite 2 [same]
    exact .append (.inl (pending.trans empty))
  next some_entries =>
    split
    next err state failed =>
      refine .lose _ state some_entries fun accepts => ?_
      rcases accepts with empty | accepted
      · exact some_entries (pending.symm.trans empty)
      · rw [failed] at accepted
        cases accepted
    next answer state accepted => exact .execute state _ rfl (.inr (by rw [accepted]))

theorem batchMove_of_perform (isOpen : bs.batch = some entries) (call : BatchCall) :
    BatchMove codecs bs entries call (call.perform codecs bs) := by
  cases call with
  | add pin createdAt updatedAt =>
    unfold BatchCall.perform add
    rw [isOpen]
    dsimp only
    split
    · refine .reject _ (fun same => ?_) trivial
      have first := congrArg (fun text => text.toList.head?) (Error.text.inj same)
      simp [String.toList_append] at first
    next pinData serialized =>
      have asked : BatchCall.operations codecs (.add pin createdAt updatedAt) =
          [.insert (mhPrefix pin.cid, pin.cid) (blobRow pin pinData createdAt updatedAt)] := by
        rw [BatchCall.operations, serialized]
      rw [← asked]
      exact .append trivial
  | rm cid =>
    unfold BatchCall.perform rm
    rw [isOpen]
    exact .append trivial
  | commit ctx now query => exact batchMove_of_commit isOpen ctx now query

/-- The executed operations and the pending ones are those that were accepted, and no call was refused. -/
structure Reusable (client : BatchClient) : Prop where
  all : client.bs.executed ++ client.bs.pending = client.accepted
  served : client.refused = false

/-- A call finds a batch, and the database accepts it. -/
def Reuses (client : BatchClient) (call : BatchCall) : Prop :=
  client.bs.batch.isSome = true ∧ BatchAccepts client.bs call

variable {client : BatchClient}

theorem not_reusable_of_refused (closed : client.bs.batch = none) (call : BatchCall) :
    ¬Reusable (client.answered codecs call (call.perform codecs client.bs)) := by
  have refused : (call.perform codecs client.bs).1 = some alreadyCommitted := by
    cases call <;> simp [BatchCall.perform, add, rm, commit, closed]
  intro reusable
  have served : (client.refused || decide (_ = some alreadyCommitted)) = false := reusable.served
  rw [refused, decide_eq_true rfl, Bool.or_true] at served
  cases served

theorem reusable_answered_iff {call : BatchCall} {answer : Option Error × DegradingBatchingState}
    (reusable : Reusable client) (isOpen : client.bs.batch = some entries)
    (move : BatchMove codecs client.bs entries call answer) :
    Reusable (client.answered codecs call answer) ↔ BatchAccepts client.bs call := by
  have all : client.bs.executed ++ entries = client.accepted := by
    have all := reusable.all
    rwa [pending, isOpen] at all
  have served {err : Option Error} (other : err ≠ some alreadyCommitted) :
      (client.refused || decide (err = some alreadyCommitted)) = false := by
    rw [reusable.served, decide_eq_false other]
    rfl
  cases move with
  | append accepts =>
    refine iff_of_true ⟨?_, served (Option.some_ne_none _).symm⟩ accepts
    change client.bs.executed ++ (entries ++ call.operations codecs) = client.accepted ++ call.operations codecs
    rw [← List.append_assoc, all]
  | reject err other accepts => exact iff_of_true ⟨reusable.all, served fun same => other (Option.some.inj same)⟩ accepts
  | execute state totalPins isCommit accepts =>
    refine iff_of_true ⟨?_, served (Option.some_ne_none _).symm⟩ accepts
    change client.bs.executed ++ entries ++ [] = client.accepted ++ call.operations codecs
    rw [isCommit, all]
  | lose err state some_entries fails =>
    refine iff_of_false (fun kept => ?_) fails
    have lost : client.bs.executed ++ [] = client.accepted := kept.all
    rw [← all] at lost
    exact some_entries (List.append_cancel_left lost).symm

theorem reusable_step_iff {next : BatchClient} {call : BatchCall} (reusable : Reusable client)
    (step : (batchClientMachine codecs).step client call = some next) : Reusable next ↔ Reuses client call := by
  cases step
  unfold Reuses
  cases isOpen : client.bs.batch with
  | none => exact iff_of_false (not_reusable_of_refused isOpen call) nofun
  | some entries =>
    rw [reusable_answered_iff reusable isOpen (batchMove_of_perform isOpen call)]
    exact (and_iff_right rfl).symm

end IpfsCluster.Proofs.State

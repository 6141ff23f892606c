import IpfsCluster.Model.State.ScyllaList

/-! # What the degradation manager does

An error that comes out of the manager is wrapped by the retry policy or by the handling of a partition. The level
changes in two places only. An operation that the manager reports as successful was executed some times without success
and once with success.
-/

namespace IpfsCluster.Proofs.State

open Model Model.Api Model.Scyllastate Model.Scyllastate.Effects Machine Option List Effects

section

variable {α : Type}

def Wrapped (result : Except QueryError α) : Prop := ∃ context inner, result = .error (.wrap context inner)

theorem attempts_wrapped (rp : RetryPolicy) (ctx : Context) {operation : ℕ → Except QueryError α}
    (fails : ∀ n, ∃ err, operation n = .error err) (attempt : ℕ) (lastErr : Option QueryError) (left : ℕ) :
    Wrapped (rp.attempts ctx operation attempt lastErr left) := by
  induction left generalizing attempt lastErr with
  | zero => exact ⟨_, _, rfl⟩
  | succ left ih =>
    unfold RetryPolicy.attempts
    split
    · exact ⟨_, _, rfl⟩
    · exact ⟨_, _, rfl⟩
    · obtain ⟨err, failed⟩ := fails attempt
      rw [failed]
      dsimp only
      split
      · exact ⟨_, _, rfl⟩
      · split
        · exact ⟨_, _, rfl⟩
        · exact ih (attempt + 1) (some err)

variable {ctx : Context} {operation : ℕ → Consistency → Except QueryError α} {gdm : GracefulDegradationManager}

theorem partitionOrRetry_wrapped (fails : ∀ n level, ∃ err, operation n level = .error err) (err : QueryError)
    (now : Time) : Wrapped (gdm.partitionOrRetry ctx operation err now).1 := by
  unfold GracefulDegradationManager.partitionOrRetry
  split
  next isPartition detected _ =>
    split
    · obtain ⟨first, failedOne⟩ := fails 0 .one
      obtain ⟨second, failedAny⟩ := fails 1 .any
      unfold GracefulDegradationManager.handleNetworkPartition
      rw [failedOne, failedAny]
      exact ⟨_, _, rfl⟩
    · exact attempts_wrapped _ ctx (fun n => fails n _) 0 none _

theorem executeWithDegradation_wrapped (fails : ∀ n level, ∃ err, operation n level = .error err) (now : Time) :
    Wrapped (gdm.executeWithDegradation ctx operation now).1 := by
  obtain ⟨err, failed⟩ := fails 0 gdm.getCurrentConsistency
  unfold GracefulDegradationManager.executeWithDegradation
  rw [failed]
  dsimp only
  unfold GracefulDegradationManager.handleOperationError
  dsimp only
  obtain ⟨level, after⟩ := (gdm.updateNodeHealthFromError err now).degradeFor err now
  dsimp only
  split
  · obtain ⟨retryErr, failedAgain⟩ := fails (0 + 1) level
    rw [failedAgain]
    exact partitionOrRetry_wrapped (fun n level => fails (n + 1 + 1) level) retryErr now
  · exact partitionOrRetry_wrapped (fun n level => fails (n + 1) level) err now

end

section

open GracefulDegradationManager

variable (gdm : GracefulDegradationManager)

theorem updateNodeHealthFromError_eq (err : QueryError) (now : Time) :
    ∃ nodeHealth circuitBreakers, gdm.updateNodeHealthFromError err now = { gdm with nodeHealth, circuitBreakers } := by
  unfold updateNodeHealthFromError
  split
  · exact ⟨_, _, rfl⟩
  next host _ =>
    split
    · exact ⟨_, _, rfl⟩
    · unfold updateCircuitBreaker
      dsimp only
      split <;> exact ⟨_, _, rfl⟩

@[simp] theorem updateNodeHealthFromError_fallback (err : QueryError) (now : Time) :
    (gdm.updateNodeHealthFromError err now).consistencyFallback = gdm.consistencyFallback := by
  obtain ⟨nodeHealth, circuitBreakers, noted⟩ := updateNodeHealthFromError_eq gdm err now
  rw [noted]

@[simp] theorem resetCircuitBreaker_fallback (host : String) :
    (gdm.resetCircuitBreaker host).consistencyFallback = gdm.consistencyFallback := by
  unfold resetCircuitBreaker
  split
  · rfl
  · split <;> rfl

def InChain (gdm : GracefulDegradationManager) : Prop :=
  gdm.getCurrentConsistency ∈ createFallbackLevels gdm.consistencyFallback.originalConsistency

instance decidableInChain (gdm : GracefulDegradationManager) : Decidable (InChain gdm) :=
  inferInstanceAs (Decidable (_ ∈ createFallbackLevels _))

theorem inChain_new (hosts : List String) (level : Consistency) (policy : RetryPolicy) (now : Time) :
    InChain (new hosts level policy now) := by
  cases level <;> exact mem_cons_self

theorem inChain_degradeConsistency {gdm : GracefulDegradationManager} (inChain : InChain gdm) (now : Time) :
    InChain (gdm.degradeConsistency now).2 := by
  unfold degradeConsistency
  dsimp only
  split
  next level found => exact mem_of_getElem? found
  · exact inChain

theorem quorum_mem_iff (level : Consistency) :
    Consistency.quorum ∈ createFallbackLevels level ↔ level ∈ [Consistency.all, .quorum] := by
  cases level <;> decide

theorem localQuorum_mem_iff (level : Consistency) : Consistency.localQuorum ∈ createFallbackLevels level ↔
    level ∈ [Consistency.all, .quorum, .localQuorum, .eachQuorum] := by
  cases level <;> decide

theorem original_mem (level : Consistency) : level ∈ createFallbackLevels level := by
  cases level <;> decide

/-- A recovery with some unhealthy nodes only takes place for original levels with its level in their chain. -/
def RecoversInChain (gdm : GracefulDegradationManager) : ManagerEvent → Prop
  | .recovery reachable now =>
    gdm.consistencyFallback.currentConsistency ≠ gdm.consistencyFallback.originalConsistency →
    seconds 300 ≤ now.nanos - gdm.consistencyFallback.degradationTime.nanos →
    gdm.countHealthyNodes < gdm.hosts.length →
    (gdm.hosts.length / 2 < gdm.countHealthyNodes → reachable .quorum = true →
      gdm.consistencyFallback.originalConsistency ∈ [Consistency.all, .quorum]) ∧
    (gdm.countHealthyNodes ≤ gdm.hosts.length / 2 → 1 < gdm.countHealthyNodes → reachable .localQuorum = true →
      gdm.consistencyFallback.originalConsistency ∈ [Consistency.all, .quorum, .localQuorum, .eachQuorum])
  | _ => True

instance decidableRecoversInChain (gdm : GracefulDegradationManager) : ∀ event, Decidable (RecoversInChain gdm event)
  | .recovery _ _ => inferInstanceAs (Decidable (_ → _ → _ → _ ∧ _))
  | .operationError _ _ | .degrade _ _ | .detectPartition _ | .healthCheck _ _ _ | .partitionRecovery _ => isTrue trivial

variable {gdm} (inChain : InChain gdm)

include inChain

theorem inChain_recovery_due_iff {reachable : Consistency → Bool} {now : Time}
    (degraded : gdm.consistencyFallback.currentConsistency ≠ gdm.consistencyFallback.originalConsistency)
    (late : seconds 300 ≤ now.nanos - gdm.consistencyFallback.degradationTime.nanos) :
    InChain (gdm.attemptConsistencyRecovery reachable now) ↔
      ∀ target, gdm.recoveryTarget = some target → reachable target = true →
        target ∈ createFallbackLevels gdm.consistencyFallback.originalConsistency := by
  unfold attemptConsistencyRecovery
  dsimp only
  rw [if_neg degraded, if_neg (by omega)]
  cases gdm.recoveryTarget with
  | none => exact iff_of_true inChain nofun
  | some target =>
    dsimp only
    cases answer : reachable target with
    | false =>
      rw [if_neg Bool.false_ne_true]
      refine iff_of_true inChain fun other same reached => ?_
      cases same
      cases answer.symm.trans reached
    | true =>
      rw [if_pos rfl]
      constructor
      · intro after other same _
        cases same
        exact after
      · intro all
        exact all target rfl answer

theorem inChain_recovery_iff (reachable : Consistency → Bool) (now : Time) :
    InChain (gdm.attemptConsistencyRecovery reachable now) ↔ RecoversInChain gdm (.recovery reachable now) := by
  by_cases degraded : gdm.consistencyFallback.currentConsistency = gdm.consistencyFallback.originalConsistency
  · have same : gdm.attemptConsistencyRecovery reachable now = gdm := if_pos degraded
    rw [same]
    exact iff_of_true inChain fun differs => absurd degraded differs
  by_cases late : seconds 300 ≤ now.nanos - gdm.consistencyFallback.degradationTime.nanos
  · rw [inChain_recovery_due_iff inChain degraded late]
    unfold RecoversInChain recoveryTarget
    dsimp only
    by_cases allHealthy : gdm.hosts.length ≤ gdm.countHealthyNodes
    · rw [if_pos allHealthy]
      refine iff_of_true (fun target same _ => ?_) fun _ _ someUnhealthy => by omega
      cases same
      exact original_mem _
    rw [if_neg allHealthy]
    by_cases most : gdm.hosts.length / 2 < gdm.countHealthyNodes
    · rw [if_pos most, ← quorum_mem_iff]
      refine ⟨fun all _ _ _ => ⟨fun _ => all _ rfl, fun few => by omega⟩, fun all target same => ?_⟩
      cases same
      exact (all degraded late (by omega)).1 most
    rw [if_neg most, ← localQuorum_mem_iff]
    refine ⟨fun all _ _ _ => ⟨fun isMost => absurd isMost most, fun _ several => all _ (if_pos several)⟩, ?_⟩
    intro all target isTarget
    obtain ⟨several, isLevel⟩ := ite_none_right_eq_some.mp isTarget
    cases isLevel
    exact (all degraded late (by omega)).2 (by omega) several
  · have same : gdm.attemptConsistencyRecovery reachable now = gdm := by
      unfold attemptConsistencyRecovery
      dsimp only
      rw [if_neg degraded, if_pos (by omega)]
    rw [same]
    exact iff_of_true inChain fun _ isLate => absurd isLate late

theorem inChain_step_iff {event : ManagerEvent} {next : GracefulDegradationManager}
    (step : managerMachine.step gdm event = some next) : InChain next ↔ RecoversInChain gdm event := by
  have same {next : GracefulDegradationManager} (fallback : next.consistencyFallback = gdm.consistencyFallback) :
      InChain next ↔ True := by
    rw [InChain, getCurrentConsistency, fallback]
    exact iff_of_true inChain trivial
  cases event with
  | operationError err now =>
    cases step
    exact same (updateNodeHealthFromError_fallback gdm err now)
  | degrade err now =>
    simp only [managerMachine, ite_none_right_eq_some, some.injEq] at step
    obtain ⟨-, rfl⟩ := step
    exact iff_of_true (inChain_degradeConsistency inChain now) trivial
  | detectPartition now =>
    cases step
    refine same ?_
    unfold detectNetworkPartition
    split <;> rfl
  | healthCheck host answer now =>
    cases step
    refine same ?_
    unfold checkNodeHealth
    split
    · rfl
    · exact resetCircuitBreaker_fallback _ _
    · rfl
  | partitionRecovery now =>
    cases step
    refine same ?_
    unfold checkPartitionRecovery
    dsimp only
    split <;> rfl
  | recovery reachable now =>
    cases step
    exact inChain_recovery_iff inChain reachable now

end

variable {W : Type} {operation : Operation W} {level : Consistency} {err : QueryError}

section

open GracefulDegradationManager

theorem degradeFor_fst (gdm : GracefulDegradationManager) (err : QueryError) (now : Time) :
    (gdm.degradeFor err now).1 = (gdm.degradeFor err now).2.getCurrentConsistency := by
  unfold degradeFor degradeConsistency
  split
  · dsimp only
    split <;> rfl
  · rfl

def degraded (gdm : GracefulDegradationManager) (err : QueryError) (now : Time) : GracefulDegradationManager :=
  ((gdm.updateNodeHealthFromError err now).degradeFor err now).2

theorem handleOperationError_eq {ctx : Context} {now : Time} {s : Degrading W} (err : QueryError) :
    handleOperationError ctx operation now err s =
      partitionOrRetry ctx operation now err { s with manager := degraded s.manager err now } := by
  unfold Effects.handleOperationError
  dsimp only
  rw [if_neg (not_not.mpr (degradeFor_fst _ err now))]
  rfl

end

section

/-- Worlds that executions without success lead to. -/
inductive Failing (operation : Operation W) (start : W) : W → Prop where
  | start : Failing operation start start
  | execute {before after level err} (prior : Failing operation start before)
      (failed : operation level before = (some err, after)) : Failing operation start after

/-- A state that executions without success lead to, with no fallback counted. -/
structure Reached (operation : Operation W) (start s : Degrading W) : Prop where
  failing : Failing operation start.world s.world
  uncounted : s.consistencyFallbacks = start.consistencyFallbacks

/-- No fallback is counted, and an answer without error comes from the last execution. -/
structure Served (operation : Operation W) (start : Degrading W) (answer : Option QueryError × Degrading W) : Prop where
  uncounted : answer.2.consistencyFallbacks = start.consistencyFallbacks
  last : answer.1 = none → ∃ level before, Failing operation start.world before ∧
    operation level before = (none, answer.2.world)

variable {start s after : Degrading W} {ctx : Context} {now : Time}

namespace Reached

variable (reached : Reached operation start s)

include reached

theorem error (err : QueryError) : Served operation start (some err, s) :=
  ⟨reached.uncounted, fun none => by cases none⟩

theorem fail (failed : s.execute operation level = (some err, after)) : Reached operation start after := by
  obtain ⟨unserved, rfl⟩ := Prod.mk.inj failed
  exact ⟨reached.failing.execute (Prod.ext unserved rfl), reached.uncounted⟩

theorem succeed (succeeded : s.execute operation level = (none, after)) : Served operation start (none, after) := by
  obtain ⟨served, rfl⟩ := Prod.mk.inj succeeded
  exact ⟨reached.uncounted, fun _ => ⟨level, s.world, reached.failing, Prod.ext served rfl⟩⟩

theorem manage (manager : GracefulDegradationManager) : Reached operation start { s with manager := manager } :=
  ⟨reached.failing, reached.uncounted⟩

theorem attempts (rp : RetryPolicy) {action : Degrading W → Option QueryError × Degrading W}
    (executes : ∀ s, ∃ level, action s = s.execute operation level) (attempt : ℕ) (lastErr : Option QueryError)
    (left : ℕ) : Served operation start (attempts rp ctx action attempt lastErr left s) := by
  induction left generalizing s attempt lastErr with
  | zero => exact reached.error _
  | succ left ih =>
    obtain ⟨level, action_eq⟩ := executes s
    unfold attempts
    split
    · exact reached.error _
    · exact reached.error _
    · split
      next after succeeded => exact reached.succeed (action_eq.symm.trans succeeded)
      next err after failed =>
        have reached' := reached.fail (action_eq.symm.trans failed)
        split
        · exact reached'.error _
        · split
          · exact reached'.error _
          · exact ih reached' (attempt + 1) (some err)

theorem handleNetworkPartition (err : QueryError) :
    Served operation start (handleNetworkPartition operation err s) := by
  unfold Effects.handleNetworkPartition
  split
  next after succeeded => exact reached.succeed succeeded
  next first after failedOne =>
    split
    next last succeeded => exact (reached.fail failedOne).succeed succeeded
    next second last failedAny => exact ((reached.fail failedOne).fail failedAny).error _

theorem partitionOrRetry (err : QueryError) : Served operation start (partitionOrRetry ctx operation now err s) := by
  unfold Effects.partitionOrRetry
  dsimp only
  split
  · exact (reached.manage _).handleNetworkPartition err
  · exact (reached.manage _).attempts _ (fun s => ⟨_, rfl⟩) 0 none _

end Reached

/-- The manager reports success only for an execution with success, and never counts it as a fallback. -/
theorem served_executeWithDegradation : Served operation s (executeWithDegradation ctx operation now s) := by
  have reached : Reached operation s s := ⟨.start, rfl⟩
  unfold executeWithDegradation
  split
  next after succeeded => exact reached.succeed succeeded
  next err after failed =>
    rw [handleOperationError_eq]
    exact ((reached.fail failed).manage _).partitionOrRetry err

end

section

open GracefulDegradationManager

variable {ctx : Context} {now : Time}

theorem degraded_eq {gdm : GracefulDegradationManager} (asks : shouldDegradeConsistency err = true)
    (next : gdm.consistencyFallback.fallbackLevels[gdm.consistencyFallback.fallbackLevels.idxOf
      gdm.getCurrentConsistency + 1]? = some level) :
    degraded gdm err now = { gdm.updateNodeHealthFromError err now with
      consistencyFallback := { gdm.consistencyFallback with currentConsistency := level, degradationTime := now } } := by
  have same := updateNodeHealthFromError_fallback gdm err now
  unfold getCurrentConsistency at next
  unfold degraded degradeFor
  rw [if_pos asks, degradeConsistency]
  dsimp only
  rw [same, next]

theorem executeWithRetry_of_success {rp : RetryPolicy} {action : W → Option QueryError × W} {before after : W}
    (succeeds : action before = (none, after)) : (0 ≤ rp.numRetries ∧ ctx.beforeAttempt 0 = none)
    ∧ executeWithRetry rp ctx action before = (none, after) ∨
      ¬(0 ≤ rp.numRetries ∧ ctx.beforeAttempt 0 = none) ∧
        ∃ err, executeWithRetry rp ctx action before = (some err, before) := by
  unfold executeWithRetry
  rcases lt_or_ge rp.numRetries 0 with negative | nonneg
  · rw [show (rp.numRetries + 1).toNat = 0 by omega]
    exact .inr ⟨fun both => by omega, _, rfl⟩
  · obtain ⟨left, attemptsLeft⟩ : ∃ left, (rp.numRetries + 1).toNat = left + 1 := ⟨rp.numRetries.toNat, by omega⟩
    rw [attemptsLeft]
    unfold attempts
    rw [if_neg (lt_irrefl 0)]
    cases ctx.beforeAttempt 0 with
    | some err => exact .inr ⟨nofun, _, rfl⟩
    | none =>
      dsimp only
      rw [succeeds]
      exact .inl ⟨⟨nonneg, rfl⟩, rfl⟩

theorem handleNetworkPartition_recorded {s : Degrading (W × List Consistency)} :
    ∃ later, (handleNetworkPartition (recorded operation) err s).2.world.2 = s.world.2 ++ .one :: later := by
  unfold Effects.handleNetworkPartition
  split
  next after succeeded =>
    obtain ⟨-, rfl⟩ := Prod.mk.inj succeeded
    exact ⟨[], rfl⟩
  next first after failedOne =>
    obtain ⟨-, rfl⟩ := Prod.mk.inj failedOne
    have both : s.world.2 ++ [.one] ++ [.any] = s.world.2 ++ Consistency.one :: [.any] := by rw [append_assoc]; rfl
    split
    next last succeeded =>
      obtain ⟨-, rfl⟩ := Prod.mk.inj succeeded
      exact ⟨[.any], both⟩
    next second last failedAny =>
      obtain ⟨-, rfl⟩ := Prod.mk.inj failedAny
      exact ⟨[.any], both⟩

end

section

variable (codecs : PinCodecs) (castCid : Bytes → Except Error Cid)

def pinOf (row : StoredPin) : Option Pin :=
  (castCid row.cidBin >>= fun cid => deserializePin codecs cid row.pinData).toOption

variable {codecs castCid} {row : StoredPin} {rest : List StoredPin} {listing : Listing}

theorem sendRows_cons : sendRows codecs castCid (row :: rest) listing =
      sendRows codecs castCid rest ((pinOf codecs castCid row).elim listing fun pin =>
        { listing with out := listing.out ++ [pin], count := listing.count + 1 }) := by
  rw [sendRows, pinOf]
  cases castCid row.cidBin with
  | error err => rfl
  | ok cid =>
    change _ = sendRows codecs castCid rest ((deserializePin codecs cid row.pinData).toOption.elim _ _)
    dsimp only
    cases deserializePin codecs cid row.pinData with
    | error err => rfl
    | ok pin => rfl

theorem sendRows_eq (rows : List StoredPin) (listing : Listing) : sendRows codecs castCid rows listing = { listing with
      out := listing.out ++ rows.filterMap (pinOf codecs castCid)
      count := listing.count + (rows.filterMap (pinOf codecs castCid)).length } := by
  induction rows generalizing listing with
  | nil => rw [sendRows, filterMap_nil, append_nil, length_nil, Nat.add_zero]
  | cons row rest ih =>
    rw [sendRows_cons, ih]
    cases decoded : pinOf codecs castCid row with
    | none => rw [filterMap_cons_none decoded, Option.elim_none]
    | some pin =>
      rw [filterMap_cons_some decoded, Option.elim_some, length_cons]
      simp [Nat.add_assoc, Nat.add_comm 1]

end

section

variable {codecs : PinCodecs} {castCid : Bytes → Except Error Cid} {table : List StoredPin}
  {iterate : ℕ → Consistency → Iteration}

def pinsOf (codecs : PinCodecs) (castCid : Bytes → Except Error Cid) (table : List StoredPin)
    (iteration : Iteration) : List Pin :=
  (iteration.rows table).filterMap (pinOf codecs castCid)

theorem mem_of_mem_rows {iteration : Iteration} {row : StoredPin} (handled : row ∈ iteration.rows table) :
    row ∈ table := by
  unfold Iteration.rows at handled
  split at handled
  · exact handled
  · exact mem_of_mem_take handled

theorem pinsOf_eq_nil_iff (decodable : ∀ row ∈ table, ∃ pin, pinOf codecs castCid row = some pin)
    (iteration : Iteration) : pinsOf codecs castCid table iteration = [] ↔ iteration.rows table = [] := by
  constructor
  · intro nothing
    refine eq_nil_iff_forall_not_mem.mpr fun row handled => ?_
    obtain ⟨pin, decoded⟩ := decodable row (mem_of_mem_rows handled)
    have skipped := filterMap_eq_nil_iff.mp nothing row handled
    rw [decoded] at skipped
    cases skipped
  · intro nothing
    rw [pinsOf, nothing, filterMap_nil]

theorem iterQuery_adds {level : Consistency} {before after : Listing} {err : Option QueryError}
    (executed : iterQuery codecs castCid table iterate level before = (err, after)) :
    (iterate before.made.length level).err = err ∧ after.made = before.made ++ [iterate before.made.length level] ∧
      after.out = before.out ++ pinsOf codecs castCid table (iterate before.made.length level) := by
  unfold iterQuery at executed
  dsimp only at executed
  rw [sendRows_eq] at executed
  obtain ⟨ended, rfl⟩ := Prod.mk.inj executed
  exact ⟨ended, rfl, rfl⟩

theorem failing_sends {listing : Listing} (failing : Failing (iterQuery codecs castCid table iterate) {} listing) :
    listing.out = listing.made.flatMap (pinsOf codecs castCid table) ∧ (∀ iteration ∈ listing.made, iteration.err ≠ none) ∧
      ∃ levels : List Consistency, listing.made = levels.mapIdx iterate := by
  induction failing with
  | start => exact ⟨rfl, forall_mem_nil _, [], rfl⟩
  | @execute _ _ level _ prior failed ih =>
    obtain ⟨ended, made, out⟩ := iterQuery_adds failed
    obtain ⟨sent, allFailed, levels, atLevels⟩ := ih
    refine ⟨?_, ?_, levels ++ [level], ?_⟩
    · rw [out, sent, made, flatMap_append, flatMap_singleton]
    · rw [made]
      refine forall_mem_append.mpr ⟨allFailed, forall_mem_singleton.mpr ?_⟩
      rw [ended]
      exact Option.some_ne_none _
    · rw [made, mapIdx_concat, atLevels, length_mapIdx]

theorem list_sends {s : DegradingState} {ctx : Context} {now : Time} {gdm : GracefulDegradationManager}
    (enabled : s.degradationManager = some gdm) (returned : (s.list ctx now codecs castCid table iterate).1 = none) :
    ∃ failed last, (s.list ctx now codecs castCid table iterate).2.2.made = failed ++ [last] ∧
      (∃ levels : List Consistency, failed ++ [last] = levels.mapIdx iterate) ∧
      (∀ iteration ∈ failed, iteration.err ≠ none) ∧ last.err = none ∧
      (s.list ctx now codecs castCid table iterate).2.2.out =
        failed.flatMap (pinsOf codecs castCid table) ++ table.filterMap (pinOf codecs castCid) := by
  unfold DegradingState.list at returned ⊢
  split at returned
  · cases returned
  next isOpen =>
    rw [if_neg isOpen]
    unfold DegradingState.executeOperation at returned ⊢
    rw [enabled] at returned ⊢
    obtain ⟨level, before, failing, succeeded⟩ := served_executeWithDegradation.last returned
    obtain ⟨sent, failed, levels, atLevels⟩ := failing_sends failing
    obtain ⟨ended, made, out⟩ := iterQuery_adds succeeded
    refine ⟨before.made, _, made, ⟨levels ++ [level], ?_⟩, failed, ended, ?_⟩
    · rw [mapIdx_concat, atLevels, length_mapIdx]
    have whole : pinsOf codecs castCid table (iterate before.made.length level) =
        table.filterMap (pinOf codecs castCid) := by
      rw [pinsOf, Iteration.rows, ended]
    rw [← sent, ← whole]
    exact out

end

end IpfsCluster.Proofs.State

import IpfsCluster.Proofs.State.Degradation

/-! # Absent pins and levels of consistency

The manager returns the answer that there is no row wrapped like any other error. The recovery has levels of its own,
which are not in the chains of some original levels. The level for a second try is compared with the current one after
it became the current one, so that the second try is not counted.
-/

namespace IpfsCluster.Soundness

open Model Model.Api Model.Scyllastate Machine Proofs.State Model.Scyllastate.Effects
open GracefulDegradationManager (shouldDegradeConsistency)

def noRow (_ : ℕ) (_ : Consistency) : Except QueryError Bytes := .error .notFound

/-- An absent pin is reported exactly by states that are open and have no manager. -/
theorem scylla_absent_iff (s : DegradingState) (ctx : Context) (now : Time) (codecs : PinCodecs) (cid : Cid) :
    (s.get ctx now codecs noRow cid).1 = .error .notFound ∧ (s.has ctx now noRow).1 = .ok false ↔
      s.closed = false ∧ s.degradationManager = none := by
  obtain ⟨closed, consistency, manager⟩ := s
  cases closed with
  | true => exact iff_of_false (fun both => nomatch both.1) (fun both => nomatch both.1)
  | false =>
    cases manager with
    | none => exact iff_of_true ⟨rfl, rfl⟩ ⟨rfl, rfl⟩
    | some gdm =>
      refine iff_of_false (fun both => ?_) fun both => nomatch both.2
      obtain ⟨context, inner, failed⟩ : Wrapped (gdm.executeWithDegradation ctx noRow now).1 :=
        executeWithDegradation_wrapped (fun _ _ => ⟨.notFound, rfl⟩) now
      have read := both.1
      simp only [DegradingState.get, DegradingState.executeGetOperation, DegradingState.executeWithGracefulDegradation,
        failed, Bool.false_eq_true, if_false] at read
      cases read

def threeNodes (level : Consistency) : GracefulDegradationManager := .new ["a1", "b2", "c3"] level { numRetries := 0 } ⟨0⟩

def noCodecs : PinCodecs where
  protoEncode _ := .error (.text "no codec")
  protoDecode _ := .error (.text "no codec")
  jsonMarshal _ := .error (.text "no codec")
  jsonUnmarshal _ := .error (.text "no codec")
  cidString c := c.bytes

theorem scylla_absent_wrapped :
    ((DegradingState.mk false .quorum (some (threeNodes .quorum))).get {} ⟨0⟩ noCodecs noRow ⟨"A"⟩).1 =
        .error (.text "failed to get pin: non-retryable error on attempt 1: not found") ∧
      ((DegradingState.mk false .quorum (some (threeNodes .quorum))).has {} ⟨0⟩ noRow).1 =
        .error (.text "failed to check pin existence: non-retryable error on attempt 1: not found") :=
  ⟨by rfl, by rfl⟩

/-- All levels that a run reaches are in the chain exactly if no recovery goes to a level that is not. -/
theorem manager_in_chain_iff {gdm target : GracefulDegradationManager} {events : List ManagerEvent}
    (initial : InChain gdm) (ran : managerMachine.run gdm events = some target) :
    (∀ before after mid, events = before ++ after → managerMachine.run gdm before = some mid → InChain mid) ↔
      managerMachine.Meets RecoversInChain gdm events :=
  LabeledMachine.forall_reached_iff_meets InChain (fun _ _ _ inChain step => inChain_step_iff inChain step) initial ran

/-- The replicas are missing once, one node fails three checks, and five minutes later there is a recovery. -/
def degradedAndRecovered : List ManagerEvent :=
  [.degrade (.request .unavailable "Cannot achieve consistency level LOCAL_QUORUM") ⟨0⟩,
    .healthCheck "c3" (some (.text "no connection")) ⟨0⟩, .healthCheck "c3" (some (.text "no connection")) ⟨0⟩,
    .healthCheck "c3" (some (.text "no connection")) ⟨0⟩, .recovery (fun _ => true) ⟨seconds 300⟩]

theorem manager_in_chain_left :
    ∃ target, managerMachine.run (threeNodes .localQuorum) degradedAndRecovered = some target ∧
      target.getCurrentConsistency = .quorum ∧ ¬ InChain target ∧
      (target.degradeConsistency ⟨seconds 301⟩).1 = .quorum :=
  ⟨_, rfl, rfl, by decide, rfl⟩

theorem manager_in_chain_iff_quorum : managerMachine.Meets RecoversInChain (threeNodes .quorum) degradedAndRecovered ∧
      ∀ before after mid, degradedAndRecovered = before ++ after →
        managerMachine.run (threeNodes .quorum) before = some mid → InChain mid :=
  have meets : managerMachine.Meets RecoversInChain (threeNodes .quorum) degradedAndRecovered := by decide
  ⟨meets, (manager_in_chain_iff (inChain_new _ _ _ _) rfl).mpr meets⟩

/-- More than half of the nodes are unhealthy once an error is noted. -/
def Detects (gdm : GracefulDegradationManager) (err : QueryError) (now : Time) : Prop :=
  (gdm.updateNodeHealthFromError err now).countUnhealthyNodes > gdm.hosts.length / 2

variable {W : Type} {operation : Operation W} {ctx : Context} {now : Time} {gdm : GracefulDegradationManager}
  {fallbacks : ℕ} {world : W} {level : Consistency} {err : QueryError}

theorem partitionOrRetry_degraded (whole : gdm.partitionDetector.isPartitioned = false)
    (asks : shouldDegradeConsistency err = true)
    (next : gdm.consistencyFallback.fallbackLevels[gdm.consistencyFallback.fallbackLevels.idxOf
      gdm.getCurrentConsistency + 1]? = some level) : (Detects gdm err now ∧ ∃ manager : GracefulDegradationManager,
      partitionOrRetry ctx operation now err ⟨degraded gdm err now, fallbacks, world⟩ =
        handleNetworkPartition operation err ⟨manager, fallbacks, world⟩) ∨
    (¬Detects gdm err now ∧ ∃ manager : GracefulDegradationManager, manager.getCurrentConsistency = level ∧
      partitionOrRetry ctx operation now err ⟨degraded gdm err now, fallbacks, world⟩ =
        executeWithRetry gdm.retryPolicy ctx (fun s => s.execute operation s.manager.getCurrentConsistency)
          ⟨manager, fallbacks, world⟩) := by
  obtain ⟨nodeHealth, circuitBreakers, noted⟩ := updateNodeHealthFromError_eq gdm err now
  rw [degraded_eq asks next]
  unfold Detects Effects.partitionOrRetry GracefulDegradationManager.detectNetworkPartition
  rw [noted]
  by_cases detects : GracefulDegradationManager.countUnhealthyNodes { gdm with nodeHealth, circuitBreakers } >
      gdm.hosts.length / 2
  · refine Or.inl ⟨detects, ?_⟩
    rw [if_pos ⟨detects, whole⟩]
    exact ⟨_, rfl⟩
  · refine Or.inr ⟨detects, ?_⟩
    rw [if_neg fun both => detects both.1]
    dsimp only
    rw [if_neg (by rw [whole]; decide)]
    exact ⟨_, rfl, rfl⟩

section

variable (succeeds : ∀ world, (operation level world).1 = none) {s : Degrading (W × List Consistency)}

include succeeds

theorem execute_recorded : s.execute (recorded operation) level =
    (none, { s with world := ((operation level s.world.1).2, s.world.2 ++ [level]) }) := Prod.ext (succeeds _) rfl

theorem partition_once_iff : (handleNetworkPartition (recorded operation) err s).1 = none ∧
      (handleNetworkPartition (recorded operation) err s).2.world.2 = s.world.2 ++ [level] ↔ level = .one := by
  constructor
  · rintro ⟨-, once⟩
    obtain ⟨later, log⟩ := @handleNetworkPartition_recorded W operation err s
    exact (List.cons.inj (List.append_cancel_left (once.symm.trans log))).1
  · rintro rfl
    unfold handleNetworkPartition
    rw [execute_recorded succeeds]
    exact ⟨rfl, rfl⟩

theorem retry_once_iff {rp : RetryPolicy} (current : s.manager.getCurrentConsistency = level) :
    (executeWithRetry rp ctx (fun s => s.execute (recorded operation) s.manager.getCurrentConsistency) s).1 = none ∧
      (executeWithRetry rp ctx (fun s => s.execute (recorded operation) s.manager.getCurrentConsistency)
        s).2.world.2 = s.world.2 ++ [level] ↔ 0 ≤ rp.numRetries ∧ ctx.beforeAttempt 0 = none := by
  have succeeded := execute_recorded succeeds (s := s)
  rw [← current] at succeeded
  rcases @executeWithRetry_of_success _ ctx rp (fun s => s.execute (recorded operation) s.manager.getCurrentConsistency)
    s _ succeeded with ⟨tried, done⟩ | ⟨untried, err, done⟩
  · rw [done, ← current]
    exact iff_of_true ⟨rfl, rfl⟩ tried
  · rw [done]
    exact iff_of_false (fun both => nomatch both.1) untried

end

/-- An operation that fails at the current level and succeeds at the next one is never counted as a fallback. It is
executed exactly once more, at the next level, if no partition is detected and the retry policy makes an attempt, or if
a partition is detected and the next level is the one for partitions. -/
theorem fallback_once_iff (whole : gdm.partitionDetector.isPartitioned = false)
    (next : gdm.consistencyFallback.fallbackLevels[gdm.consistencyFallback.fallbackLevels.idxOf
      gdm.getCurrentConsistency + 1]? = some level) (fails : (operation gdm.getCurrentConsistency world).1 = some err)
    (asks : shouldDegradeConsistency err = true) (succeeds : ∀ world, (operation level world).1 = none)
    {answer : Option QueryError × Degrading (W × List Consistency)}
    (answered : executeWithDegradation ctx (recorded operation) now ⟨gdm, fallbacks, world, []⟩ = answer) :
    answer.2.consistencyFallbacks = fallbacks ∧
    (answer.1 = none ∧ answer.2.world.2 = [gdm.getCurrentConsistency, level] ↔ (Detects gdm err now ∧ level = .one) ∨
      (¬Detects gdm err now ∧ 0 ≤ gdm.retryPolicy.numRetries ∧ ctx.beforeAttempt 0 = none)) := by
  constructor
  · rw [← answered]
    exact served_executeWithDegradation.uncounted
  have failed : (Degrading.mk gdm fallbacks (world, ([] : List Consistency))).execute (recorded operation)
      gdm.getCurrentConsistency = (some err, ⟨gdm, fallbacks, (operation gdm.getCurrentConsistency world).2,
        [gdm.getCurrentConsistency]⟩) := Prod.ext fails rfl
  unfold executeWithDegradation at answered
  rw [failed] at answered
  dsimp only at answered
  rw [handleOperationError_eq] at answered
  rcases @partitionOrRetry_degraded (W × List Consistency) (recorded operation) ctx now gdm fallbacks
    ((operation gdm.getCurrentConsistency world).2, [gdm.getCurrentConsistency]) level err whole asks next with
    ⟨detects, manager, handled⟩ | ⟨unseen, manager, current, handled⟩
  · rw [← answered, handled, iff_true_intro detects, true_and, not_true, false_and, or_false]
    exact partition_once_iff succeeds
  · rw [← answered, handled, iff_false_intro unseen, false_and, false_or, not_false_iff, true_and]
    exact retry_once_iff succeeds current

def needsQuorum : Operation Unit := fun level _ =>
  if level = .quorum then (some (.text "not enough replicas"), ()) else (none, ())

theorem fallback_not_counted :
    (executeWithDegradation {} (recorded needsQuorum) ⟨0⟩ ⟨threeNodes .quorum, 0, (), []⟩).1 = none ∧
    (executeWithDegradation {} (recorded needsQuorum) ⟨0⟩ ⟨threeNodes .quorum, 0, (), []⟩).2.world.2 =
      [.quorum, .localQuorum] ∧
    (executeWithDegradation {} (recorded needsQuorum) ⟨0⟩ ⟨threeNodes .quorum, 0, (), []⟩).2.consistencyFallbacks = 0 := by
  decide +kernel

theorem fallback_once_iff_threeNodes :
    (executeWithDegradation {} (recorded needsQuorum) ⟨0⟩ ⟨threeNodes .quorum, 7, (), []⟩).2.consistencyFallbacks = 7 ∧
    (executeWithDegradation {} (recorded needsQuorum) ⟨0⟩ ⟨threeNodes .quorum, 7, (), []⟩).1 = none ∧
    (executeWithDegradation {} (recorded needsQuorum) ⟨0⟩ ⟨threeNodes .quorum, 7, (), []⟩).2.world.2 =
      [.quorum, .localQuorum] := by
  obtain ⟨uncounted, once⟩ := @fallback_once_iff Unit needsQuorum {} ⟨0⟩ (threeNodes .quorum) 7 () .localQuorum
    (.text "not enough replicas") rfl rfl rfl (by decide) (fun _ => rfl) _ rfl
  refine ⟨uncounted, once.mpr (Or.inr ⟨?_, by decide, rfl⟩)⟩
  unfold Detects
  decide +kernel

end IpfsCluster.Soundness

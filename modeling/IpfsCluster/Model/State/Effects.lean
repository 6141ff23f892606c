import IpfsCluster.Model.State.ScyllaOperations

/-! # Operations with effects

An operation that is executed again has its effects again, so that what it did before it failed matters. Here the
functions that execute an operation pass on a world that each execution changes, in place of the answers of numbered
executions. The counter of the fallbacks that were successful is kept as well.
-/

namespace IpfsCluster.Model.Scyllastate.Effects

open Api

variable {W : Type}

abbrev Operation (W : Type) := Consistency → W → Option QueryError × W

section

variable (rp : RetryPolicy) (ctx : Context) (operation : W → Option QueryError × W)

def attempts (attempt : ℕ) (lastErr : Option QueryError) : ℕ → W → Option QueryError × W
  | 0, world =>
    (some (.wrap ("operation failed after " ++ (rp.numRetries + 1).repr ++ " attempts")
      (lastErr.getD (.text "%!w(<nil>)"))), world)
  | left + 1, world =>
    match ctx.beforeAttempt attempt, if 0 < attempt then ctx.duringDelay attempt else none with
    | some err, _ => (some (.wrap ("operation cancelled after " ++ attempt.repr ++ " attempts") (.text err)), world)
    | none, some err =>
      (some (.wrap ("operation cancelled during retry delay after " ++ attempt.repr ++ " attempts") (.text err)), world)
    | none, none =>
      match operation world with
      | (none, world) => (none, world)
      | (some err, world) =>
        if !RetryPolicy.isRetryableError err then
          (some (.wrap ("non-retryable error on attempt " ++ (attempt + 1).repr) err), world)
        else if (attempt : ℤ) = rp.numRetries then
          (some (.wrap ("operation failed after " ++ (rp.numRetries + 1).repr ++ " attempts, last error") err), world)
        else attempts (attempt + 1) (some err) left world

def executeWithRetry : W → Option QueryError × W := attempts rp ctx operation 0 none (rp.numRetries + 1).toNat

end

/-- A manager with its counter of fallbacks, and the world that operations change. -/
structure Degrading (W : Type) where
  manager : GracefulDegradationManager
  consistencyFallbacks : ℕ := 0
  world : W

def Degrading.execute (s : Degrading W) (operation : Operation W) (level : Consistency) :
    Option QueryError × Degrading W :=
  let (err, world) := operation level s.world
  (err, { s with world })

section

variable (ctx : Context) (operation : Operation W) (now : Time)

def handleNetworkPartition (err : QueryError) (s : Degrading W) : Option QueryError × Degrading W :=
  match s.execute operation .one with
  | (none, s) => (none, s)
  | (some _, s) =>
    match s.execute operation .any with
    | (none, s) => (none, s)
    | (some _, s) => (some (.wrap "operation failed during network partition" err), s)

/-- What follows an attempt with a degraded level, if there was one. -/
def partitionOrRetry (err : QueryError) (s : Degrading W) : Option QueryError × Degrading W :=
  let (isPartition, manager) := s.manager.detectNetworkPartition now
  let s := { s with manager }
  if isPartition then handleNetworkPartition operation err s
  else executeWithRetry s.manager.retryPolicy ctx (fun s => s.execute operation s.manager.getCurrentConsistency) s

def handleOperationError (err : QueryError) (s : Degrading W) : Option QueryError × Degrading W :=
  let manager := s.manager.updateNodeHealthFromError err now
  let (newConsistency, manager) := manager.degradeFor err now
  let s := { s with manager }
  if newConsistency ≠ s.manager.getCurrentConsistency then
    match s.execute operation newConsistency with
    | (none, s) => (none, { s with consistencyFallbacks := s.consistencyFallbacks + 1 })
    | (some retryErr, s) => partitionOrRetry ctx operation now retryErr s
  else partitionOrRetry ctx operation now err s

def executeWithDegradation (s : Degrading W) : Option QueryError × Degrading W :=
  match s.execute operation s.manager.getCurrentConsistency with
  | (none, s) => (none, s)
  | (some err, s) => handleOperationError ctx operation now err s

end

/-- An operation that keeps a record of the levels at which it was executed. -/
def recorded (operation : Operation W) : Operation (W × List Consistency) := fun level world =>
  let (err, changed) := operation level world.1
  (err, changed, world.2 ++ [level])

end IpfsCluster.Model.Scyllastate.Effects

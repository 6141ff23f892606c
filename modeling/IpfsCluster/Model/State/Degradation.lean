import IpfsCluster.Golang.Text
import IpfsCluster.Machine.Run
import IpfsCluster.Model.Api.Types

/-! # Degrading gracefully

Errors of queries are compared by identity and classified by their text and their type. The retry policy repeats an
operation while its errors are classified as temporary, the context lasts and attempts are left. How long it waits is
left out.

The manager keeps the health of the nodes, a consistency level that errors lower step by step along a chain and that is
raised again later, and whether the cluster is partitioned. Each section under a lock is one function; the machine
interleaves these sections, as operations and the three monitoring loops run at the same time. Counters that are only
reported are left out.
-/

namespace IpfsCluster.Model.Scyllastate

open Golang Api Machine

/-- The errors of a request with a type of their own. -/
inductive RequestErr where
  | unavailable
  | readTimeout
  | writeTimeout
  | readFailure (received blockFor : ℤ)
  | writeFailure (received blockFor : ℤ)
deriving DecidableEq, Repr

inductive QueryError where
  /-- `gocql.ErrNotFound`. -/
  | notFound
  | request (kind : RequestErr) (message : String)
  | text (message : String)
  /-- The format verb `%w` after a text and a colon. -/
  | wrap (context : String) (inner : QueryError)
deriving DecidableEq, Repr

def QueryError.error : QueryError → String
  | .notFound => "not found"
  | .request _ message => message
  | .text message => message
  | .wrap context inner => context ++ ": " ++ inner.error

/-- Whether an error has one of some texts in it, without regard to case. -/
def QueryError.mentions (err : QueryError) (texts : List String) : Bool := texts.any (contains (toLower err.error))

structure RetryPolicy where
  numRetries : ℤ
deriving DecidableEq, Repr

namespace RetryPolicy

/-- Nodes that cannot be reached, missing replicas and overload. -/
def retryableTexts : List String :=
  ["timeout", "timed out", "connection refused", "connection reset", "no hosts available", "host down",
    "host unreachable", "network unreachable", "unavailable", "not enough replicas", "cannot achieve consistency",
    "insufficient replicas", "consistency level", "quorum not available", "overloaded", "too many requests",
    "rate limit", "throttled"]

/-- Whether to try again; the texts of permanent errors give the same answer as all others. -/
def isRetryableError (err : QueryError) : Bool :=
  err.mentions retryableTexts ||
  match err with
  | .request .unavailable _ | .request .readTimeout _ | .request .writeTimeout _ => true
  | .request (.readFailure received blockFor) _ | .request (.writeFailure received blockFor) _ =>
    received ≥ blockFor.tdiv 2
  | _ => false

end RetryPolicy

structure Context where
  beforeAttempt : ℕ → Option String := fun _ => none
  duringDelay : ℕ → Option String := fun _ => none

namespace RetryPolicy

variable {α : Type} (rp : RetryPolicy) (ctx : Context) (operation : ℕ → Except QueryError α)

def attempts (attempt : ℕ) (lastErr : Option QueryError) : ℕ → Except QueryError α
  | 0 => .error (.wrap ("operation failed after " ++ (rp.numRetries + 1).repr ++ " attempts")
      (lastErr.getD (.text "%!w(<nil>)")))
  | left + 1 =>
    match ctx.beforeAttempt attempt, if 0 < attempt then ctx.duringDelay attempt else none with
    | some err, _ => .error (.wrap ("operation cancelled after " ++ attempt.repr ++ " attempts") (.text err))
    | none, some err =>
      .error (.wrap ("operation cancelled during retry delay after " ++ attempt.repr ++ " attempts") (.text err))
    | none, none =>
      match operation attempt with
      | .ok result => .ok result
      | .error err =>
        if !isRetryableError err then
          .error (.wrap ("non-retryable error on attempt " ++ (attempt + 1).repr) err)
        else if (attempt : ℤ) = rp.numRetries then
          .error (.wrap ("operation failed after " ++ (rp.numRetries + 1).repr ++ " attempts, last error") err)
        else attempts (attempt + 1) (some err) left

def executeWithRetry : Except QueryError α := rp.attempts ctx operation 0 none (rp.numRetries + 1).toNat

end RetryPolicy

inductive Consistency where
  | any | one | two | three | quorum | all | localQuorum | eachQuorum | localOne
deriving DecidableEq, Repr

def seconds (n : ℤ) : ℤ := n * 10 ^ 9

structure NodeHealthStatus where
  isHealthy : Bool := true
  lastSeen : Time
  consecutiveFailures : ℕ := 0
  lastError : Option QueryError := none
  isConnected : Bool := true
deriving DecidableEq, Repr

inductive CircuitBreakerState where
  | closed | opened | halfOpen
deriving DecidableEq, Repr

structure CircuitBreaker where
  state : CircuitBreakerState := .closed
  failureCount : ℕ := 0
  lastFailureTime : Time := Time.zero
  nextRetryTime : Time := Time.zero
  failureThreshold : ℕ := 5
  resetTimeout : ℤ := seconds 60
deriving DecidableEq, Repr

def createFallbackLevels : Consistency → List Consistency
  | .all => [.all, .quorum, .localQuorum, .one]
  | .quorum => [.quorum, .localQuorum, .one]
  | .localQuorum => [.localQuorum, .localOne, .one]
  | .eachQuorum => [.eachQuorum, .localQuorum, .one]
  | original => [original, .one]

structure ConsistencyFallback where
  originalConsistency : Consistency
  currentConsistency : Consistency
  degradationTime : Time := Time.zero
deriving DecidableEq, Repr

/-- The chain, which is never changed. -/
def ConsistencyFallback.fallbackLevels (fallback : ConsistencyFallback) : List Consistency :=
  createFallbackLevels fallback.originalConsistency

structure NetworkPartitionDetector where
  recoveryWindow : ℤ := seconds 60
  isPartitioned : Bool := false
  partitionStartTime : Time := Time.zero
deriving DecidableEq, Repr

structure GracefulDegradationManager where
  hosts : List String
  retryPolicy : RetryPolicy
  nodeHealth : AList (fun _ : String => NodeHealthStatus)
  circuitBreakers : AList (fun _ : String => CircuitBreaker)
  consistencyFallback : ConsistencyFallback
  partitionDetector : NetworkPartitionDetector := {}

namespace GracefulDegradationManager

def new (hosts : List String) (consistency : Consistency) (retryPolicy : RetryPolicy) (now : Time) :
    GracefulDegradationManager where
  hosts := hosts
  retryPolicy := retryPolicy
  nodeHealth := (∅ : AList fun _ : String => NodeHealthStatus).insertAll id (fun _ => { lastSeen := now }) hosts
  circuitBreakers := (∅ : AList fun _ : String => CircuitBreaker).insertAll id (fun _ => {}) hosts
  consistencyFallback := { originalConsistency := consistency, currentConsistency := consistency }

variable (gdm : GracefulDegradationManager)

/-- The first configured host that the text of an error mentions. -/
def extractHostFromError (err : QueryError) : Option String :=
  (gdm.hosts.find? fun host => contains err.error host).filter (· ≠ "")

def updateCircuitBreaker (host : String) (now : Time) : GracefulDegradationManager :=
  match gdm.circuitBreakers.lookup host with
  | none => gdm
  | some breaker =>
    let breaker := { breaker with failureCount := breaker.failureCount + 1, lastFailureTime := now }
    let breaker :=
      if breaker.state = .closed ∧ breaker.failureThreshold ≤ breaker.failureCount then
        { breaker with state := .opened, nextRetryTime := ⟨now.nanos + breaker.resetTimeout⟩ }
      else breaker
    { gdm with circuitBreakers := gdm.circuitBreakers.insert host breaker }

def updateNodeHealthFromError (err : QueryError) (now : Time) : GracefulDegradationManager :=
  match gdm.extractHostFromError err with
  | none => gdm
  | some host =>
    match gdm.nodeHealth.lookup host with
    | none => gdm
    | some health =>
      let failures := health.consecutiveFailures + 1
      let health := { health with
        consecutiveFailures := failures
        lastError := some err
        isHealthy := health.isHealthy && decide (failures < 3) }
      updateCircuitBreaker { gdm with nodeHealth := gdm.nodeHealth.insert host health } host now

def resetCircuitBreaker (host : String) : GracefulDegradationManager :=
  match gdm.circuitBreakers.lookup host with
  | none => gdm
  | some breaker =>
    if breaker.state ≠ .closed then
      { gdm with circuitBreakers := gdm.circuitBreakers.insert host { breaker with state := .closed, failureCount := 0 } }
    else gdm

def checkNodeHealth (host : String) (answer : Option QueryError) (now : Time) : GracefulDegradationManager :=
  match gdm.nodeHealth.lookup host, answer with
  | none, _ => gdm
  | some health, none =>
    let health := { health with
      isHealthy := true, lastSeen := now, consecutiveFailures := 0, lastError := none, isConnected := true }
    resetCircuitBreaker { gdm with nodeHealth := gdm.nodeHealth.insert host health } host
  | some health, some err =>
    let failures := health.consecutiveFailures + 1
    let health := { health with
      consecutiveFailures := failures
      lastError := some err
      isHealthy := health.isHealthy && decide (failures < 3) }
    { gdm with nodeHealth := gdm.nodeHealth.insert host health }

def countHealthyNodes : ℕ := gdm.nodeHealth.entries.countP fun entry => entry.2.isHealthy

def countUnhealthyNodes : ℤ := gdm.hosts.length - gdm.countHealthyNodes

def shouldDegradeConsistency (err : QueryError) : Bool :=
  err.mentions ["unavailable", "not enough replicas", "cannot achieve consistency", "quorum not available"]

def getCurrentConsistency : Consistency := gdm.consistencyFallback.currentConsistency

/-- Go to the level after the current one in the chain, if there is one. -/
def degradeConsistency (now : Time) : Consistency × GracefulDegradationManager :=
  let fallback := gdm.consistencyFallback
  match fallback.fallbackLevels[fallback.fallbackLevels.idxOf fallback.currentConsistency + 1]? with
  | some level =>
    (level, { gdm with
      consistencyFallback := { fallback with currentConsistency := level, degradationTime := now } })
  | none => (fallback.currentConsistency, gdm)

/-- The level for another attempt: the next one of the chain if the error asks for it. -/
def degradeFor (err : QueryError) (now : Time) : Consistency × GracefulDegradationManager :=
  if shouldDegradeConsistency err then gdm.degradeConsistency now else (gdm.getCurrentConsistency, gdm)

def recoveryTarget : Option Consistency :=
  let healthyCount := gdm.countHealthyNodes
  let totalNodes := gdm.hosts.length
  if healthyCount ≥ totalNodes then some gdm.consistencyFallback.originalConsistency
  else if healthyCount > totalNodes / 2 then some .quorum
  else if healthyCount > 1 then some .localQuorum
  else none

/-- Recover from a degraded level after five minutes; `reachable` answers the query that tests a level. -/
def attemptConsistencyRecovery (reachable : Consistency → Bool) (now : Time) : GracefulDegradationManager :=
  let fallback := gdm.consistencyFallback
  if fallback.currentConsistency = fallback.originalConsistency then gdm
  else if now.nanos - fallback.degradationTime.nanos < seconds 300 then gdm
  else match gdm.recoveryTarget with
    | none => gdm
    | some target =>
      if reachable target then
        { gdm with consistencyFallback := { fallback with currentConsistency := target } }
      else gdm

/-- A partition is detected when more than half of the nodes are unhealthy, and lasts. -/
def detectNetworkPartition (now : Time) : Bool × GracefulDegradationManager :=
  if gdm.countUnhealthyNodes > gdm.hosts.length / 2 ∧ gdm.partitionDetector.isPartitioned = false then
    (true, { gdm with
      partitionDetector := { gdm.partitionDetector with isPartitioned := true, partitionStartTime := now } })
  else (gdm.partitionDetector.isPartitioned, gdm)

/-- The partition is over when more than half of the nodes are healthy, after a while. -/
def checkPartitionRecovery (now : Time) : GracefulDegradationManager :=
  let detector := gdm.partitionDetector
  if detector.isPartitioned = true ∧ gdm.countHealthyNodes > gdm.hosts.length / 2 ∧
      now.nanos - detector.partitionStartTime.nanos > detector.recoveryWindow then
    { gdm with partitionDetector := { detector with isPartitioned := false } }
  else gdm

section

variable {α : Type} (ctx : Context) (operation : ℕ → Consistency → Except QueryError α)

/-- Try the weakest levels during a partition. -/
def handleNetworkPartition (err : QueryError) : Except QueryError α :=
  match operation 0 .one with
  | .ok result => .ok result
  | .error _ =>
    match operation 1 .any with
    | .ok result => .ok result
    | .error _ => .error (.wrap "operation failed during network partition" err)

/-- What follows an attempt with a degraded level, if there was one. -/
def partitionOrRetry (err : QueryError) (now : Time) : Except QueryError α × GracefulDegradationManager :=
  let (isPartition, gdm) := gdm.detectNetworkPartition now
  if isPartition then (handleNetworkPartition operation err, gdm)
  else (gdm.retryPolicy.executeWithRetry ctx fun attempt => operation attempt gdm.getCurrentConsistency, gdm)

def handleOperationError (err : QueryError) (now : Time) : Except QueryError α × GracefulDegradationManager :=
  let gdm := gdm.updateNodeHealthFromError err now
  let (newConsistency, gdm) := gdm.degradeFor err now
  if newConsistency ≠ gdm.getCurrentConsistency then
    match operation 0 newConsistency with
    | .ok result => (.ok result, gdm)
    | .error retryErr => gdm.partitionOrRetry ctx (fun n => operation (n + 1)) retryErr now
  else gdm.partitionOrRetry ctx operation err now

/-- Execute an operation; its executions are numbered. -/
def executeWithDegradation (now : Time) : Except QueryError α × GracefulDegradationManager :=
  match operation 0 gdm.getCurrentConsistency with
  | .ok result => (.ok result, gdm)
  | .error err => gdm.handleOperationError ctx (fun n => operation (n + 1)) err now

end

end GracefulDegradationManager

inductive ManagerEvent where
  | operationError (err : QueryError) (now : Time)
  | degrade (err : QueryError) (now : Time)
  | detectPartition (now : Time)
  | healthCheck (host : String) (answer : Option QueryError) (now : Time)
  | partitionRecovery (now : Time)
  | recovery (reachable : Consistency → Bool) (now : Time)

/-- A level is degraded for errors that say so; everything else can happen at any time. -/
def managerMachine : LabeledMachine GracefulDegradationManager ManagerEvent where
  step gdm
    | .operationError err now => some (gdm.updateNodeHealthFromError err now)
    | .degrade err now =>
      if GracefulDegradationManager.shouldDegradeConsistency err then some (gdm.degradeConsistency now).2 else none
    | .detectPartition now => some (gdm.detectNetworkPartition now).2
    | .healthCheck host answer now => some (gdm.checkNodeHealth host answer now)
    | .partitionRecovery now => some (gdm.checkPartitionRecovery now)
    | .recovery reachable now => some (gdm.attemptConsistencyRecovery reachable now)

end IpfsCluster.Model.Scyllastate

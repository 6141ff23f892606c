import IpfsCluster.Soundness.Degradation

/-! # Errors that are charged to hosts

A successful health check only clears the count of a breaker that is not closed, so that older errors count towards its
threshold. An error is charged to the first configured host whose text occurs in it, which may be a part of the address
that it mentions.
-/

namespace IpfsCluster.Soundness

open Model Model.Api Model.Scyllastate Machine Proofs.State GracefulDegradationManager AList Option List

variable {host : String} {gdm next : GracefulDegradationManager} {event : ManagerEvent}
  {breaker after : CircuitBreaker}

/-- The errors attributed to a host since its last successful health check. -/
def noteEvent (gdm : GracefulDegradationManager) (host : String) (errors : ℕ) : ManagerEvent → ℕ
  | .operationError err _ => if gdm.extractHostFromError err = some host then errors + 1 else errors
  | .healthCheck checked none _ => if checked = host then 0 else errors
  | _ => errors

/-- The manager, with the errors of one host counted beside it. -/
def countingMachine (host : String) : LabeledMachine (GracefulDegradationManager × ℕ) ManagerEvent where
  step s event := (managerMachine.step s.1 event).map fun next => (next, noteEvent s.1 host s.2 event)

inductive BreakerMove (gdm : GracefulDegradationManager) (host : String) (breaker : CircuitBreaker) :
    ManagerEvent → CircuitBreaker → Prop where
  | keep (event : ManagerEvent) : BreakerMove gdm host breaker event breaker
  | fail {err now after} (attributed : gdm.extractHostFromError err = some host)
      (count : after.failureCount = breaker.failureCount + 1)
      (threshold : after.failureThreshold = breaker.failureThreshold)
      (closed : after.state = .closed → breaker.state = .closed)
      (opened : breaker.state = .closed → after.state = .opened → breaker.failureThreshold ≤ after.failureCount) :
      BreakerMove gdm host breaker (.operationError err now) after
  | reset (now : Time) : BreakerMove gdm host breaker (.healthCheck host none now)
      { breaker with state := .closed, failureCount := 0 }

theorem breakerMove_updateCircuitBreaker {err : QueryError} {now : Time}
    (attributed : gdm.extractHostFromError err = some host) (found : next.circuitBreakers.lookup host = some breaker) :
    ∃ after, (next.updateCircuitBreaker host now).circuitBreakers.lookup host = some after ∧
      BreakerMove gdm host breaker (.operationError err now) after := by
  unfold updateCircuitBreaker
  rw [found]
  refine ⟨_, lookup_insert _, ?_⟩
  split
  next tripped => exact .fail attributed rfl rfl nofun fun _ _ => tripped.2
  · exact .fail attributed rfl rfl id fun closed opened => by rw [closed] at opened; cases opened

theorem lookup_updateCircuitBreaker_of_ne {other : String} (apart : host ≠ other) (now : Time) :
    (gdm.updateCircuitBreaker other now).circuitBreakers.lookup host = gdm.circuitBreakers.lookup host := by
  unfold updateCircuitBreaker
  split
  · rfl
  · exact lookup_insert_ne apart

section

variable (found : gdm.circuitBreakers.lookup host = some breaker)

include found

theorem breakerMove_operationError (err : QueryError) (now : Time) :
    ∃ after, (gdm.updateNodeHealthFromError err now).circuitBreakers.lookup host = some after ∧
      BreakerMove gdm host breaker (.operationError err now) after := by
  unfold updateNodeHealthFromError
  split
  · exact ⟨breaker, found, .keep _⟩
  next other attributed =>
    split
    · exact ⟨breaker, found, .keep _⟩
    · by_cases same : host = other
      · subst same
        exact breakerMove_updateCircuitBreaker attributed found
      · exact ⟨breaker, (lookup_updateCircuitBreaker_of_ne same now).trans found, .keep _⟩

theorem breakerMove_healthCheck (checked : String) (answer : Option QueryError) (now : Time) :
    ∃ after, (gdm.checkNodeHealth checked answer now).circuitBreakers.lookup host = some after ∧
      BreakerMove gdm host breaker (.healthCheck checked answer now) after := by
  unfold checkNodeHealth
  split
  · exact ⟨breaker, found, .keep _⟩
  · unfold resetCircuitBreaker
    dsimp only
    split
    · exact ⟨breaker, found, .keep _⟩
    next other foundOther =>
      split
      · by_cases same : host = checked
        · subst same
          obtain rfl := mem_unique found foundOther
          exact ⟨_, lookup_insert _, .reset now⟩
        · exact ⟨breaker, (lookup_insert_ne same).trans found, .keep _⟩
      · exact ⟨breaker, found, .keep _⟩
  · exact ⟨breaker, found, .keep _⟩

end

theorem records_of_step (step : managerMachine.step gdm event = some next) :
    (∃ err now, event = .operationError err now ∧ next = gdm.updateNodeHealthFromError err now) ∨
      (∃ checked answer now, event = .healthCheck checked answer now ∧ next = gdm.checkNodeHealth checked answer now) ∨
      next.hosts = gdm.hosts ∧ next.nodeHealth = gdm.nodeHealth ∧ next.circuitBreakers = gdm.circuitBreakers := by
  cases event with
  | operationError err now => exact .inl ⟨err, now, rfl, (some.inj step).symm⟩
  | healthCheck checked answer now => exact .inr (.inl ⟨checked, answer, now, rfl, (some.inj step).symm⟩)
  | degrade err now =>
    simp only [managerMachine, ite_none_right_eq_some, some.injEq] at step
    obtain ⟨-, rfl⟩ := step
    refine .inr (.inr ?_)
    unfold degradeConsistency
    dsimp only
    split <;> exact ⟨rfl, rfl, rfl⟩
  | detectPartition now =>
    cases step
    refine .inr (.inr ?_)
    unfold detectNetworkPartition
    split <;> exact ⟨rfl, rfl, rfl⟩
  | partitionRecovery now =>
    cases step
    refine .inr (.inr ?_)
    unfold checkPartitionRecovery
    dsimp only
    split <;> exact ⟨rfl, rfl, rfl⟩
  | recovery reachable now =>
    cases step
    refine .inr (.inr ?_)
    unfold attemptConsistencyRecovery
    dsimp only
    split_ifs
    · exact ⟨rfl, rfl, rfl⟩
    · exact ⟨rfl, rfl, rfl⟩
    · split
      · exact ⟨rfl, rfl, rfl⟩
      · split <;> exact ⟨rfl, rfl, rfl⟩

theorem breakerMove_of_step (found : gdm.circuitBreakers.lookup host = some breaker)
    (step : managerMachine.step gdm event = some next) :
    ∃ after, next.circuitBreakers.lookup host = some after ∧ BreakerMove gdm host breaker event after := by
  obtain ⟨err, now, rfl, rfl⟩ | ⟨checked, answer, now, rfl, rfl⟩ | ⟨-, -, same⟩ := records_of_step step
  · exact breakerMove_operationError found err now
  · exact breakerMove_healthCheck found checked answer now
  · exact ⟨breaker, by rw [same, found], .keep _⟩

/-- A closed breaker has counted no error before the last successful health check. -/
def CountsSince (host : String) (threshold : ℕ) (s : GracefulDegradationManager × ℕ) : Prop :=
  ∃ breaker, s.1.circuitBreakers.lookup host = some breaker ∧ breaker.failureThreshold = threshold ∧
    (breaker.state = .closed → breaker.failureCount ≤ s.2)

/-- A successful health check of the host does not find a closed breaker that has counted errors. -/
def ClearsCount (host : String) (s : GracefulDegradationManager × ℕ) : ManagerEvent → Prop
  | .healthCheck checked none _ => checked = host → ∀ breaker, s.1.circuitBreakers.lookup host = some breaker →
      breaker.state = .closed → breaker.failureCount = 0
  | _ => True

variable {threshold : ℕ}

theorem le_noteEvent {errors : ℕ} (other : ∀ now, event ≠ .healthCheck host none now) :
    errors ≤ noteEvent gdm host errors event := by
  unfold noteEvent
  split
  · split <;> omega
  next checked now => rw [if_neg fun same => other now (by rw [same])]
  · rfl

theorem CountsSince.step {s s' : GracefulDegradationManager × ℕ} (counts : CountsSince host threshold s)
    (clears : ClearsCount host s event) (step : (countingMachine host).step s event = some s') :
    CountsSince host threshold s' := by
  obtain ⟨breaker, found, isThreshold, counted⟩ := counts
  obtain ⟨next, stepped, rfl⟩ := map_eq_some_iff.mp step
  obtain ⟨after, foundAfter, move⟩ := breakerMove_of_step found stepped
  cases move with
  | keep =>
    refine ⟨breaker, foundAfter, isThreshold, fun closed => ?_⟩
    by_cases cleared : ∃ now, event = .healthCheck host none now
    · obtain ⟨now, rfl⟩ := cleared
      rw [clears rfl breaker found closed]
      exact Nat.zero_le _
    · exact (counted closed).trans (le_noteEvent (not_exists.mp cleared))
  | fail attributed count sameThreshold closed opened =>
    refine ⟨after, foundAfter, sameThreshold.trans isThreshold, fun nowClosed => ?_⟩
    change after.failureCount ≤ if s.1.extractHostFromError _ = some host then s.2 + 1 else s.2
    rw [if_pos attributed, count]
    exact Nat.succ_le_succ (counted (closed nowClosed))
  | reset now => exact ⟨_, foundAfter, isThreshold, fun _ => Nat.zero_le _⟩

/-- In every run whose successful health checks find the breaker of the host open or without errors, the breaker opens
only when as many errors as its threshold were attributed to the host since the last successful health check. -/
theorem breaker_opens_after {start : GracefulDegradationManager}
    (found : start.circuitBreakers.lookup host = some breaker)
    (fresh : breaker.state = .closed ∧ breaker.failureCount = 0) {events : List ManagerEvent}
    (meets : (countingMachine host).Meets (ClearsCount host) (start, 0) events) {before rest : List ManagerEvent}
    (split : events = before ++ event :: rest) {mid s' : GracefulDegradationManager × ℕ}
    (ran : (countingMachine host).run (start, 0) before = some mid)
    (step : (countingMachine host).step mid event = some s') {closed opened : CircuitBreaker}
    (foundClosed : mid.1.circuitBreakers.lookup host = some closed) (isClosed : closed.state = .closed)
    (foundOpened : s'.1.circuitBreakers.lookup host = some opened) (isOpened : opened.state = .opened) :
    breaker.failureThreshold ≤ s'.2 := by
  rw [split] at meets
  have initial : CountsSince host breaker.failureThreshold (start, 0) :=
    ⟨breaker, found, rfl, fun _ => fresh.2.le⟩
  obtain ⟨breaker', found', isThreshold, counted⟩ := LabeledMachine.invariant_of_meets
    (CountsSince host breaker.failureThreshold) (fun _ _ _ counts clears => counts.step clears) initial
    (meets.of_append ran).1 ran
  obtain rfl := mem_unique foundClosed found'
  obtain ⟨next, stepped, rfl⟩ := map_eq_some_iff.mp step
  obtain ⟨after, foundAfter, move⟩ := breakerMove_of_step foundClosed stepped
  obtain rfl := mem_unique foundOpened foundAfter
  cases move with
  | keep =>
    rw [isClosed] at isOpened
    cases isOpened
  | fail attributed count sameThreshold _ opens =>
    change breaker.failureThreshold ≤ if mid.1.extractHostFromError _ = some host then mid.2 + 1 else mid.2
    rw [if_pos attributed, ← isThreshold]
    have reached := opens isClosed isOpened
    have before := counted isClosed
    omega
  | reset now => cases isOpened

def firstFails : ManagerEvent := .operationError (.text "a1: connection refused") ⟨0⟩

theorem breaker_opens_early : ∃ mid s', (countingMachine "a1").run (threeNodes .quorum, 0)
        [firstFails, firstFails, firstFails, firstFails, .healthCheck "a1" none ⟨0⟩] = some mid ∧
      (countingMachine "a1").step mid firstFails = some s' ∧
      (mid.1.circuitBreakers.lookup "a1").map (·.state) = some .closed ∧
      (s'.1.circuitBreakers.lookup "a1").map (·.state) = some .opened ∧ s'.2 = 1 ∧
      (s'.1.circuitBreakers.lookup "a1").map (·.failureThreshold) = some 5 :=
  ⟨_, _, rfl, rfl, rfl, rfl, rfl, rfl⟩

theorem breaker_opens_after_five :
    ∃ mid s', (countingMachine "a1").run (threeNodes .quorum, 0) [firstFails, firstFails, firstFails, firstFails] =
        some mid ∧ (countingMachine "a1").step mid firstFails = some s' ∧ 5 ≤ s'.2 := by
  have meets : (countingMachine "a1").Meets (ClearsCount "a1") (threeNodes .quorum, 0) (replicate 5 firstFails) := by
    refine LabeledMachine.meets_of_forall (fun event member _ => ?_) _
    rw [eq_of_mem_replicate member]
    trivial
  exact ⟨_, _, rfl, rfl, @breaker_opens_after "a1" firstFails {} (threeNodes .quorum) rfl ⟨rfl, rfl⟩ _ meets
    (replicate 4 firstFails) [] rfl _ _ rfl rfl _ _ rfl rfl rfl rfl⟩

section

variable {hosts : List String} {err : QueryError}

/-- Whether a host occurs in a text as a complete address, not next to a character of a longer one. -/
def occursComplete (addressChar : Char → Bool) (text host : String) : Bool :=
  (range (text.toList.length + 1)).any fun start =>
    host.toList.isPrefixOf (text.toList.drop start) &&
      (text.toList.take start).getLast?.all (fun c => !addressChar c) &&
      (text.toList.drop (start + host.toList.length)).head?.all (fun c => !addressChar c)

theorem contains_of_occursComplete {addressChar : Char → Bool} {text : String}
    (complete : occursComplete addressChar text host = true) : Golang.contains text host = true := by
  obtain ⟨start, -, here⟩ := any_eq_true.mp complete
  rw [Bool.and_eq_true, Bool.and_eq_true, isPrefixOf_iff_prefix] at here
  exact decide_eq_true (here.1.1.isInfix.trans (drop_suffix start _).isInfix)

theorem find?_eq_some_iff_takeWhile {occurs : String → Bool} (configured : host ∈ hosts) (here : occurs host = true) :
    hosts.find? occurs = some host ↔ ∀ other ∈ hosts.takeWhile (· ≠ host), occurs other = false := by
  induction hosts with
  | nil => cases configured
  | cons first rest ih =>
    by_cases same : first = host
    · subst same
      rw [find?_cons_of_pos here, takeWhile_cons_of_neg (by simp)]
      exact iff_of_true rfl nofun
    · rw [takeWhile_cons_of_pos (by simpa using same), forall_mem_cons]
      cases found : occurs first with
      | true => simpa [find?_cons_of_pos found] using same
      | false =>
        rw [find?_cons_of_neg (by rw [found]; exact Bool.false_ne_true)]
        simpa using ih ((mem_cons.mp configured).resolve_left (Ne.symm same))

/-- An error is charged to a host: both its records count it, and those of all other hosts stay as they are. -/
structure ChargesOnly (gdm next : GracefulDegradationManager) (err : QueryError) (host : String) : Prop where
  health : ∃ before after, gdm.nodeHealth.lookup host = some before ∧ next.nodeHealth.lookup host = some after ∧
    after.consecutiveFailures = before.consecutiveFailures + 1 ∧ after.lastError = some err
  breaker : ∃ before after, gdm.circuitBreakers.lookup host = some before ∧
    next.circuitBreakers.lookup host = some after ∧ after.failureCount = before.failureCount + 1
  others : ∀ other, other ≠ host → next.nodeHealth.lookup other = gdm.nodeHealth.lookup other ∧
    next.circuitBreakers.lookup other = gdm.circuitBreakers.lookup other

theorem updateCircuitBreaker_nodeHealth (host : String) (now : Time) :
    (gdm.updateCircuitBreaker host now).nodeHealth = gdm.nodeHealth := by
  unfold updateCircuitBreaker
  split <;> rfl

theorem records_of_not_charged {other : String} (elsewhere : gdm.extractHostFromError err ≠ some other) (now : Time) :
    (gdm.updateNodeHealthFromError err now).nodeHealth.lookup other = gdm.nodeHealth.lookup other ∧
      (gdm.updateNodeHealthFromError err now).circuitBreakers.lookup other = gdm.circuitBreakers.lookup other := by
  unfold updateNodeHealthFromError
  split
  · exact ⟨rfl, rfl⟩
  next charged found =>
    have apart : other ≠ charged := fun same => elsewhere (same ▸ found)
    split
    · exact ⟨rfl, rfl⟩
    · rw [updateCircuitBreaker_nodeHealth]
      exact ⟨lookup_insert_ne apart, lookup_updateCircuitBreaker_of_ne apart now⟩

structure Watched (hosts : List String) (gdm : GracefulDegradationManager) : Prop where
  configured : gdm.hosts = hosts
  health : ∀ host ∈ hosts, host ∈ gdm.nodeHealth
  breakers : ∀ host ∈ hosts, host ∈ gdm.circuitBreakers

theorem watched_new (hosts : List String) (level : Consistency) (policy : RetryPolicy) (now : Time) :
    Watched hosts (new hosts level policy now) :=
  ⟨rfl, fun host member => (mem_insertAll ..).mpr (.inl ⟨host, member, rfl⟩),
    fun host member => (mem_insertAll ..).mpr (.inl ⟨host, member, rfl⟩)⟩

theorem updateNodeHealthFromError_charged {health : NodeHealthStatus} (charged : gdm.extractHostFromError err = some host)
    (found : gdm.nodeHealth.lookup host = some health) (now : Time) :
    gdm.updateNodeHealthFromError err now = updateCircuitBreaker { gdm with
        nodeHealth := gdm.nodeHealth.insert host { health with
          consecutiveFailures := health.consecutiveFailures + 1
          lastError := some err
          isHealthy := health.isHealthy && decide (health.consecutiveFailures + 1 < 3) } } host now := by
  rw [updateNodeHealthFromError, charged]
  dsimp only
  rw [found]

theorem mem_nodeHealth_updateNodeHealthFromError (member : host ∈ gdm.nodeHealth) (now : Time) :
    host ∈ (gdm.updateNodeHealthFromError err now).nodeHealth := by
  by_cases charged : gdm.extractHostFromError err = some host
  · obtain ⟨health, found⟩ := isSome_iff_exists.mp (lookup_isSome.mpr member)
    rw [updateNodeHealthFromError_charged charged found, updateCircuitBreaker_nodeHealth]
    exact (mem_insert _).mpr (.inl rfl)
  · rw [← lookup_isSome, (records_of_not_charged charged now).1]
    exact lookup_isSome.mpr member

theorem checkNodeHealth_records (checked : String) (answer : Option QueryError) (now : Time) :
    (gdm.checkNodeHealth checked answer now).hosts = gdm.hosts ∧
      ∀ host ∈ gdm.nodeHealth, host ∈ (gdm.checkNodeHealth checked answer now).nodeHealth := by
  have inserted (health : NodeHealthStatus) (host : String) (member : host ∈ gdm.nodeHealth) :
      host ∈ gdm.nodeHealth.insert checked health := (mem_insert _).mpr (.inr member)
  unfold checkNodeHealth
  split
  · exact ⟨rfl, fun _ => id⟩
  · unfold resetCircuitBreaker
    dsimp only
    split
    · exact ⟨rfl, inserted _⟩
    · split <;> exact ⟨rfl, inserted _⟩
  · exact ⟨rfl, inserted _⟩

theorem Watched.step (watched : Watched hosts gdm) (step : managerMachine.step gdm event = some next) :
    Watched hosts next := by
  have breakers (host : String) (member : host ∈ hosts) : host ∈ next.circuitBreakers := by
    obtain ⟨breaker, found⟩ := isSome_iff_exists.mp (lookup_isSome.mpr (watched.breakers host member))
    obtain ⟨after, foundAfter, -⟩ := breakerMove_of_step found step
    exact lookup_isSome.mp (isSome_iff_exists.mpr ⟨after, foundAfter⟩)
  obtain ⟨err, now, rfl, rfl⟩ | ⟨checked, answer, now, rfl, rfl⟩ | ⟨sameHosts, sameHealth, -⟩ := records_of_step step
  · obtain ⟨nodeHealth, circuitBreakers, noted⟩ := updateNodeHealthFromError_eq gdm err now
    have sameHosts : (gdm.updateNodeHealthFromError err now).hosts = gdm.hosts := by rw [noted]
    exact ⟨sameHosts.trans watched.configured,
      fun host member => mem_nodeHealth_updateNodeHealthFromError (watched.health host member) now, breakers⟩
  · obtain ⟨sameHosts, kept⟩ := @checkNodeHealth_records gdm checked answer now
    exact ⟨sameHosts.trans watched.configured, fun host member => kept host (watched.health host member), breakers⟩
  · exact ⟨sameHosts.trans watched.configured, sameHealth ▸ watched.health, breakers⟩

theorem chargesOnly_iff (watched : Watched hosts gdm) (configured : host ∈ hosts) (now : Time) :
    ChargesOnly gdm (gdm.updateNodeHealthFromError err now) err host ↔ gdm.extractHostFromError err = some host := by
  constructor
  · rintro ⟨⟨before, after, found, foundAfter, counted, -⟩, -, -⟩
    by_contra elsewhere
    rw [(records_of_not_charged elsewhere now).1, found, some.injEq] at foundAfter
    rw [foundAfter] at counted
    omega
  · intro charged
    obtain ⟨health, found⟩ := isSome_iff_exists.mp (lookup_isSome.mpr (watched.health host configured))
    obtain ⟨breaker, foundBreaker⟩ :=
      isSome_iff_exists.mp (lookup_isSome.mpr (watched.breakers host configured))
    refine ⟨?_, ?_, fun other apart => records_of_not_charged (fun same => apart ?_) now⟩
    · rw [updateNodeHealthFromError_charged charged found, updateCircuitBreaker_nodeHealth]
      exact ⟨health, _, found, lookup_insert _, rfl, rfl⟩
    · rw [updateNodeHealthFromError_charged charged found, updateCircuitBreaker]
      dsimp only
      rw [foundBreaker]
      refine ⟨breaker, _, rfl, lookup_insert _, ?_⟩
      split <;> rfl
    · exact mem_unique same charged

/-- In every state that a manager of some hosts reaches, and for every error in which one of the hosts, and no other
one, occurs as a complete address, whatever the characters of an address are: the error is charged to this host and to no
other one, exactly if the host is not the empty text and no host that is listed before it occurs in the error at all. -/
theorem error_charged_iff {level : Consistency} {policy : RetryPolicy} {start : Time} {events : List ManagerEvent}
    (ran : managerMachine.run (new hosts level policy start) events = some gdm) (addressChar : Char → Bool)
    (configured : host ∈ hosts)
    (only : ∀ other ∈ hosts, occursComplete addressChar err.error other = true ↔ other = host) (now : Time) :
    ChargesOnly gdm (gdm.updateNodeHealthFromError err now) err host ↔
      host ≠ "" ∧ ∀ other ∈ hosts.takeWhile (· ≠ host), Golang.contains err.error other = false := by
  have watched : Watched hosts gdm := LabeledMachine.invariant_of_run (Watched hosts)
    (fun _ _ _ watched step => watched.step step) (watched_new hosts level policy start) ran
  have here := contains_of_occursComplete ((only host configured).mpr rfl)
  rw [chargesOnly_iff watched configured, extractHostFromError, watched.configured, filter_eq_some_iff,
    find?_eq_some_iff_takeWhile configured here, decide_eq_true_eq]
  exact and_comm

def longerRefused : QueryError := .text "dial tcp 10.0.0.10:9042: connection refused"

def isAddressChar (c : Char) : Bool := c.isDigit || c = '.'

theorem error_charged_to_part : let gdm := new ["10.0.0.1", "10.0.0.10"] .quorum { numRetries := 0 } ⟨0⟩
    (∀ other ∈ ["10.0.0.1", "10.0.0.10"], occursComplete isAddressChar longerRefused.error other = true ↔
        other = "10.0.0.10") ∧
      gdm.extractHostFromError longerRefused = some "10.0.0.1" ∧
      ¬ ChargesOnly gdm (gdm.updateNodeHealthFromError longerRefused ⟨0⟩) longerRefused "10.0.0.10" := by
  refine ⟨by decide +kernel, by rfl, fun charged => ?_⟩
  have wrong := (chargesOnly_iff (watched_new _ _ _ _) (by decide) _).mp charged
  exact absurd wrong (by decide)

theorem error_charged_iff_longer_first : let gdm := new ["10.0.0.10", "10.0.0.1"] .quorum { numRetries := 0 } ⟨0⟩
    ChargesOnly gdm (gdm.updateNodeHealthFromError longerRefused ⟨0⟩) longerRefused "10.0.0.10" :=
  (@error_charged_iff "10.0.0.10" _ ["10.0.0.10", "10.0.0.1"] longerRefused .quorum { numRetries := 0 } ⟨0⟩ [] rfl
    isAddressChar (by decide) (by decide +kernel) ⟨0⟩).mpr (by decide)

end

end IpfsCluster.Soundness

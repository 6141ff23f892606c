import IpfsCluster.Proofs.PinTracker.Histories

/-! # Safety of the stateless pin tracker

At most one operation per CID is live in any interleaving, and it has the type of the last request. A worker that has
seen its operation not canceled still changes its phase after a request has replaced it. A request of the same type
rewrites the pin object of an operation whose call is under way, and is forgotten when the call succeeds.
-/

namespace IpfsCluster.Soundness

open Model Model.Api Model.PinTracker Machine Proofs.PinTracker Option

/-- The tracker has one live operation per CID, which only its own goroutine stops tracking. -/
structure OneLive (spt : Tracker) : Prop where
  /-- Every operation that is not the tracked one for its CID is canceled. -/
  canceled : ∀ ref op, spt.optracker.heap[ref]? = some op →
    spt.optracker.operations.lookup op.cid ≠ some ref → op.canceled = true
  /-- At most one operation per CID is not canceled. -/
  unique : ∀ (ref ref' : OpRef) (op op' : Operation), spt.optracker.heap[ref]? = some op → spt.optracker.heap[ref']? = some op' →
    op.cid = op'.cid → op.canceled = false → op'.canceled = false → ref = ref'
  /-- A goroutine that holds another operation does not stop the tracking of this one. -/
  kept : ∀ g input pc next c ref, spt.goroutines[g]? = some pc → stateless.step spt (.run g input) = some next →
    pc.ref ≠ some ref → spt.optracker.operations.lookup c = some ref → next.optracker.operations.lookup c = some ref
  /-- The tracked operation has the type of the last request for its CID. -/
  requested : ∀ c ref op, spt.optracker.operations.lookup c = some ref → spt.optracker.heap[ref]? = some op →
    ∃ pin, lastFor c spt.requests = some (op.opType, pin)

/-- In every run, one operation per CID is live. -/
theorem oneLive_of_run (config : Config) (pid : PeerID) (peerName : String) (events : List Event) (spt : Tracker)
    (ran : stateless.run (.new config pid peerName) events = some spt) : OneLive spt := by
  have untracked := (workInv_of_run ran).untracked
  have live {ref : OpRef} {op : Operation} (present : spt.optracker.heap[ref]? = some op)
      (live : op.canceled = false) : spt.optracker.operations.lookup op.cid = some ref := by
    rcases untracked ref op present with canceled | tracked
    · cases live.symm.trans canceled
    · exact tracked
  constructor
  · intro ref op present replaced
    exact (untracked ref op present).resolve_right replaced
  · intro ref ref' op op' present present' sameCid notCanceled notCanceled'
    have tracked := live present notCanceled
    rw [sameCid, live present' notCanceled'] at tracked
    exact (some.inj tracked).symm
  · intro g input pc next c ref here step other tracked
    obtain ⟨pc', here', stepped⟩ := bind_eq_some_iff.mp step
    obtain rfl := mem_unique here here'
    obtain ⟨effect, steps, rfl⟩ := map_eq_some_iff.mp stepped
    by_contra untracked'
    exact other ((pcStep_spec steps).untracks tracked untracked').2
  · intro c ref op tracked present
    have requested := LabeledMachine.invariant_of_run TrackedIsRequested (fun _ _ _ inv step => inv.step step)
      (trackedIsRequested_new config pid peerName) ran
    exact ⟨op.pin, requested c ref op tracked present⟩

/-- In every run, an operation that a goroutine works on is in the hands of no other one and on no channel, and what
waits on a channel has the type of the channel. -/
theorem workedOnOnce_of_run (config : Config) (pid : PeerID) (peerName : String) (events : List Event) (spt : Tracker)
    (ran : stateless.run (.new config pid peerName) events = some spt) :
    (∀ (g : ℕ) (pc : Pc) (ref : OpRef), spt.goroutines[g]? = some pc → pc.ref = some ref →
        (∀ (g' : ℕ) (pc' : Pc), spt.goroutines[g']? = some pc' → pc'.ref = some ref → g' = g) ∧
          ∀ ch, ref ∉ (spt.chans ch).buffer) ∧
      ∀ ch, ∀ ref ∈ (spt.chans ch).buffer, ∃ op, spt.optracker.heap[ref]? = some op ∧ op.opType = ch.opType := by
  have work := workInv_of_run ran
  refine ⟨fun g pc ref here holds => ?_, work.queuedTyped⟩
  obtain ⟨alone, offChannels⟩ := exclusive work.owned here holds
  refine ⟨fun g' pc' here' holds' => ?_, offChannels⟩
  by_contra other
  exact alone pc' (List.mem_eraseIdx_iff_getElem?.mpr ⟨g', other, here'⟩) holds'

def oneWorker : Config := { maxPinQueueSize := 10, concurrentPins := 1 }

def named (name : String) : Pin :=
  { cid := ⟨"cid"⟩, type := PinType.dataType, maxDepth := -1,
    toPinOptions := { replicationFactorMin := -1, replicationFactorMax := -1, name := name } }

def trackNamed (name : String) : List Event :=
  .track (named name) Time.unixZero :: List.replicate 3 (.run 2 {})

def dequeue : List Event := [.run 0 {}, .run 0 { select := .normal }, .run 0 {}]

def ended (events : List Event) : Tracker :=
  (stateless.run (.new oneWorker "peer" "name") events).getD (.new oneWorker "peer" "name")

theorem run_eq_ended {events : List Event}
    (completes : (stateless.run (.new oneWorker "peer" "name") events).isSome = true) :
    stateless.run (.new oneWorker "peer" "name") events = some (ended events) :=
  LabeledMachine.run_eq_some_getD completes _

/-- An operation is replaced while a worker has it. -/
def replacedWhileHeld : List Event := trackNamed "old" ++ dequeue ++ [.untrack ⟨"cid"⟩ Time.unixZero, .run 0 {}]

theorem oneLive_of_replaced :
    stateless.run (.new oneWorker "peer" "name") replacedWhileHeld = some (ended replacedWhileHeld) ∧
      OneLive (ended replacedWhileHeld) ∧
      (ended replacedWhileHeld).optracker.heap.map (fun op => (op.opType, op.canceled)) =
        [(.pin, true), (.unpin, false)] :=
  ⟨run_eq_ended (by decide +kernel),
    oneLive_of_run oneWorker "peer" "name" replacedWhileHeld _ (run_eq_ended (by decide +kernel)), by decide +kernel⟩

theorem workedOnOnce_of_replaced : ((ended replacedWhileHeld).goroutines[0]?).bind Pc.ref = some 0 ∧
      ∀ ch, 0 ∉ ((ended replacedWhileHeld).chans ch).buffer := by
  have held : ((ended replacedWhileHeld).goroutines[0]?).bind Pc.ref = some 0 := by decide +kernel
  obtain ⟨pc, here, holds⟩ := bind_eq_some_iff.mp held
  exact ⟨held, ((workedOnOnce_of_run oneWorker "peer" "name" replacedWhileHeld _
    (run_eq_ended (by decide +kernel))).1 0 pc 0 here holds).2⟩

/-- The gauges count the tracked pin operations. -/
structure ExactGauges (t : OperationTracker) : Prop where
  pinQueued : t.counts.pinQueued = t.trackedPins .queued
  pinning : t.counts.pinning = t.trackedPins .inProgress
  pinError : t.counts.pinError = t.trackedPins .error
  notNegative : 0 ≤ t.pinQueueSize

/-- In every run in which goroutines change the phase of tracked pin operations only, the gauges count
the tracked pin operations. -/
theorem exactGauges_of_run (config : Config) (pid : PeerID) (peerName : String) (events : List Event) (spt : Tracker)
    (tracked : stateless.Meets PhaseTracked (.new config pid peerName) events)
    (ran : stateless.run (.new config pid peerName) events = some spt) : ExactGauges spt.optracker := by
  have exact' (ph : Phase) (running : ph ≠ .done) : spt.optracker.counts.gauge ph = spt.optracker.trackedPins ph :=
    (gaugesExact_of_run tracked ran ph running).trans (trackedPins_eq_load spt.optracker ph).symm
  have queued := exact' .queued nofun
  refine ⟨queued, exact' .inProgress nofun, exact' .error nofun, ?_⟩
  change 0 ≤ spt.optracker.counts.gauge .queued
  rw [queued]
  exact Int.natCast_nonneg _

theorem pinQueueSize_negative :
    stateless.run (.new oneWorker "peer" "name") replacedWhileHeld = some (ended replacedWhileHeld) ∧
      (ended replacedWhileHeld).optracker.pinQueueSize = -1 ∧ (ended replacedWhileHeld).optracker.counts.pinning = 1 ∧
      ∀ ph, (ended replacedWhileHeld).optracker.trackedPins ph = 0 := by
  refine ⟨run_eq_ended (by decide +kernel), by decide +kernel, by decide +kernel, ?_⟩
  intro ph
  cases ph <;> decide +kernel

def startedPinning : List Event := trackNamed "new" ++ dequeue ++ [.run 0 {}]

theorem exactGauges_of_startedPinning :
    (ended startedPinning).optracker.counts.pinning = 1 ∧ ExactGauges (ended startedPinning).optracker :=
  ⟨by decide +kernel, exactGauges_of_run oneWorker "peer" "name" startedPinning _ (by decide +kernel)
    (run_eq_ended (by decide +kernel))⟩

/-- When a CID has no operation, the last call for it serves the last request. -/
def NoLostUpdate (spt : Tracker) : Prop :=
  ∀ c, spt.optracker.operations.lookup c = none → lastFor c spt.calls = (lastFor c spt.requests).bind served

/-- In every run in which requests rewrite only pin objects that have not been read, no update is lost. -/
theorem noLostUpdate_of_run (config : Config) (pid : PeerID) (peerName : String) (events : List Event) (spt : Tracker)
    (unread : stateless.Meets RewritesUnread (.new config pid peerName) events)
    (ran : stateless.run (.new config pid peerName) events = some spt) : NoLostUpdate spt :=
  (callInv_of_run unread ran).settled

def readPin : List Event := List.replicate 3 (.run 0 {})

def finish : List Event := List.replicate 4 (.run 0 {})

/-- A request arrives while the call for the same CID is under way. -/
def rewrittenLate : List Event :=
  trackNamed "old" ++ dequeue ++ readPin ++ [.track (named "new") Time.unixZero] ++ finish

theorem late_rewrite_lost : stateless.run (.new oneWorker "peer" "name") rewrittenLate = some (ended rewrittenLate) ∧
      (ended rewrittenLate).optracker.operations.lookup ⟨"cid"⟩ = none ∧
      (lastFor ⟨"cid"⟩ (ended rewrittenLate).requests).map (fun request => (request.1, request.2.name)) =
        some (.pin, "new") ∧
      (lastFor ⟨"cid"⟩ (ended rewrittenLate).calls).map (fun call => (call.1, call.2.name)) = some (.pin, "old") ∧
      ¬ NoLostUpdate (ended rewrittenLate) := by
  have untracked : (ended rewrittenLate).optracker.operations.lookup ⟨"cid"⟩ = none := by decide +kernel
  have called : (lastFor ⟨"cid"⟩ (ended rewrittenLate).calls).map (fun call => (call.1, call.2.name)) =
    some (.pin, "old") := by decide +kernel
  refine ⟨run_eq_ended (by decide +kernel), untracked, by decide +kernel, called, fun kept => ?_⟩
  rw [kept ⟨"cid"⟩ untracked] at called
  revert called
  decide +kernel

def rewrittenEarly : List Event :=
  trackNamed "old" ++ [.track (named "new") Time.unixZero] ++ dequeue ++ readPin ++ finish

theorem noLostUpdate_of_rewrittenEarly :
    (lastFor ⟨"cid"⟩ (ended rewrittenEarly).calls).map (fun call => (call.1, call.2.name)) = some (.pin, "new") ∧
      NoLostUpdate (ended rewrittenEarly) :=
  ⟨by decide +kernel, noLostUpdate_of_run oneWorker "peer" "name" rewrittenEarly _ (by decide +kernel)
    (run_eq_ended (by decide +kernel))⟩

end IpfsCluster.Soundness

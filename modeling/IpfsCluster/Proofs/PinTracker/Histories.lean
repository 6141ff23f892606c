import IpfsCluster.Proofs.PinTracker.Runs
import Mathlib.Algebra.BigOperators.Group.List.Basic
import Mathlib.Tactic.Ring

/-! # Requests, calls and gauges of a run

The tracked operation carries the type and the pin object of the last request for its CID, and only its worker makes
successful calls for the CID. Each gauge is a sum of weights, which a change of phase moves from one gauge to another.
-/

namespace IpfsCluster.Model.PinTracker

open Api

def lastFor {κ : Type} (c : Cid) (history : List (κ × Pin)) : Option (κ × Pin) :=
  (history.filter fun entry => entry.2.cid = c).getLast?

def served (request : OperationType × Pin) : Option (PinF × Pin) := request.1.pinF.map fun pinF => (pinF, request.2)

def Counters.gauge (counts : Counters) : Phase → ℤ
  | .error => counts.pinError
  | .queued => counts.pinQueued
  | .inProgress => counts.pinning
  | .done => 0

def Operation.countsIn (op : Operation) (ph : Phase) : Bool := op.opType = .pin && op.phase = ph

def OperationTracker.trackedPins (t : OperationTracker) (ph : Phase) : ℕ :=
  t.operations.entries.countP fun entry => (t.heap[entry.2]?).any fun op => op.countsIn ph

end IpfsCluster.Model.PinTracker

namespace IpfsCluster.Proofs.PinTracker

open Model Model.Api Model.PinTracker Machine Option OperationTracker List

section

variable {κ : Type} {c : Cid} {entry : κ × Pin} (history : List (κ × Pin))

theorem lastFor_append_self (same : entry.2.cid = c) : lastFor c (history ++ [entry]) = some entry := by
  simp [lastFor, same]

theorem lastFor_append_of_ne (other : entry.2.cid ≠ c) : lastFor c (history ++ [entry]) = lastFor c history := by
  simp [lastFor, other]

end

def TrackedIsRequested (spt : Tracker) : Prop :=
  ∀ c ref o, spt.optracker.operations.lookup c = some ref → spt.optracker.heap[ref]? = some o →
    lastFor c spt.requests = some (o.opType, o.pin)

variable {event : Event} {next : Tracker}

theorem TrackedIsRequested.step {spt : Tracker} (inv : TrackedIsRequested spt)
    (step : stateless.step spt event = some next) : TrackedIsRequested next := by
  cases stepped_of_step step with
  | idle _ same | shutdown _ same =>
    rw [same]
    exact inv
  | request pin typ ph now start _ _ same =>
    obtain ⟨pointer, optracker, tracks, shape⟩ := request_tracks spt pin typ ph now start
    rw [same, shape]
    intro c ref o' tracked' present'
    by_cases here : c = pin.cid
    · subst here
      obtain ⟨ref', o, tracked, present, rfl, rfl⟩ := tracks.tracked
      obtain rfl := mem_unique tracked' tracked
      obtain rfl := mem_unique present' present
      exact lastFor_append_self _ rfl
    · have tracked := (tracks.lookup_of_ne here).symm.trans tracked'
      obtain ⟨o, present, sameCid⟩ := spt.optracker.resolves c ref tracked
      obtain ⟨o'', present'', sameType, -, -, -, samePin | ⟨-, rewritten, -⟩⟩ := tracks.frame present
      · obtain rfl := mem_unique present' present''
        rw [sameType, samePin, ← inv c ref o tracked present]
        exact lastFor_append_of_ne _ (Ne.symm here)
      · exact (here (sameCid.symm.trans (cid_of_lookup rewritten present))).elim
  | run g input pc effect _ here steps same =>
    rw [same]
    intro c ref o' tracked' present'
    obtain ⟨o, present, sameType, samePin⟩ := present_of_apply _ present'
    rw [sameType, samePin]
    exact inv c ref o (lookup_of_lookup_apply _ tracked') present

theorem trackedIsRequested_new (config : Config) (pid : PeerID) (peerName : String) :
    TrackedIsRequested (.new config pid peerName) := by
  intro c ref o tracked
  cases tracked

/-- A request that rewrites the pin object of an ongoing operation finds no goroutine that has read it, or
the same object. -/
def RewritesUnread (spt : Tracker) (event : Event) : Prop :=
  ∀ request ∈ event.requested spt, ∀ found ∈ spt.optracker.find request.2.cid, sameOngoing found.2 request.1 = true →
      (∀ pc ∈ spt.goroutines, pc.ref = some found.1 → pc.callPin = none ∧ pc.afterCall = false) ∨
        found.2.pin = request.2

instance (spt : Tracker) (event : Event) : Decidable (RewritesUnread spt event) :=
  inferInstanceAs (Decidable (∀ request ∈ event.requested spt, ∀ found ∈ spt.optracker.find request.2.cid, _))

/-- The calls in flight, the calls that have succeeded, and the CIDs that are settled. -/
structure CallInv (spt : Tracker) : Prop where
  reads : ∀ pc ∈ spt.goroutines, ∀ op o pin, pc.ref = some op → pc.callPin = some pin →
    spt.optracker.heap[op]? = some o →
    pin.cid = o.cid ∧ (spt.optracker.operations.lookup o.cid = some op → o.pin = pin)
  succeeded : ∀ pc ∈ spt.goroutines, ∀ op o, pc.ref = some op → pc.afterCall = true →
    spt.optracker.heap[op]? = some o → spt.optracker.operations.lookup o.cid = some op →
    lastFor o.cid spt.calls = served (o.opType, o.pin)
  settled : ∀ c, spt.optracker.operations.lookup c = none → lastFor c spt.calls = (lastFor c spt.requests).bind served

section

variable {spt : Tracker} {op : OpRef} {o : Operation} {typ : OperationType}

theorem kept_of_unread {pin : Pin} {ph : Phase} {now : Time} {result : Option OpRef × OperationTracker}
    (tracks : Tracks spt.optracker pin typ ph now result) (requested : event.requested spt = some (typ, pin))
    (unread : RewritesUnread spt event) {pc : Pc} (member : pc ∈ spt.goroutines) (holds : pc.ref = some op)
    (busy : ¬ (pc.callPin = none ∧ pc.afterCall = false)) (present : spt.optracker.heap[op]? = some o) :
    ∃ o', result.2.heap[op]? = some o' ∧ o'.opType = o.opType ∧ o'.pin = o.pin := by
  obtain ⟨o', present', sameType, -, -, -, samePin | ⟨new, hit, ongoing⟩⟩ := tracks.frame present
  · exact ⟨o', present', sameType, samePin⟩
  · rcases unread _ requested _ (find_of_lookup hit present) ongoing with unread | same
    · exact (busy (unread pc member holds)).elim
    · exact ⟨o', present', sameType, new.trans same.symm⟩

theorem CallInv.request (calls : CallInv spt) (work : WorkInv spt) {pin : Pin} (ph : Phase) (now : Time)
    {start : OpRef → Pc} (starts : StartSpec typ start) (requested : event.requested spt = some (typ, pin))
    (unread : RewritesUnread spt event) : CallInv (spt.request pin typ ph now start) := by
  obtain ⟨pointer, optracker, tracks, shape⟩ := request_tracks spt pin typ ph now start
  rw [shape]
  constructor
  · intro pc member op o' read holds reading present'
    rcases mem_goroutines_request member with old | ⟨op', -, rfl⟩
    · obtain ⟨o, present⟩ := work.present old holds
      have busy : ¬ (pc.callPin = none ∧ pc.afterCall = false) := fun idle => by cases idle.1.symm.trans reading
      obtain ⟨o'', present'', -, samePin⟩ := kept_of_unread tracks requested unread old holds busy present
      obtain rfl := mem_unique present' present''
      obtain ⟨ofCid, current⟩ := calls.reads pc old op o read holds reading present
      rw [show o'.cid = o.cid from congrArg Pin.cid samePin, samePin]
      exact ⟨ofCid, fun tracked' => current (tracks.lookup_of_old tracked' (List.getElem?_eq_some_iff.mp present).1)⟩
    · cases (starts.callPin op').symm.trans reading
  · intro pc member op o' holds after present' tracked'
    rcases mem_goroutines_request member with old | ⟨op', -, rfl⟩
    · obtain ⟨o, present⟩ := work.present old holds
      have busy : ¬ (pc.callPin = none ∧ pc.afterCall = false) := fun idle => by cases idle.2.symm.trans after
      obtain ⟨o'', present'', sameType, samePin⟩ := kept_of_unread tracks requested unread old holds busy present
      obtain rfl := mem_unique present' present''
      rw [show o'.cid = o.cid from congrArg Pin.cid samePin] at tracked' ⊢
      rw [sameType, samePin]
      exact calls.succeeded pc old op o holds after present
        (tracks.lookup_of_old tracked' (List.getElem?_eq_some_iff.mp present).1)
    · cases (starts.afterCall op').symm.trans after
  · intro c untracked
    have other : c ≠ pin.cid := by
      rintro rfl
      obtain ⟨ref, -, tracked, -⟩ := tracks.tracked
      cases untracked.symm.trans tracked
    rw [lastFor_append_of_ne _ (Ne.symm other)]
    exact calls.settled c ((tracks.lookup_of_ne other).symm.trans untracked)

variable {g : ℕ} {pc : Pc} {effect : Tracker.Effect}

section

variable (calls : CallInv spt) (work : WorkInv spt) (mine : pc ∈ spt.goroutines) (spec : StepSpec spt pc effect)

include calls work mine spec

theorem CallInv.call_tracked {call : PinF × Pin} (called : effect.call = some call) :
    ∃ op o, pc.ref = some op ∧ spt.optracker.heap[op]? = some o ∧ spt.optracker.operations.lookup o.cid = some op ∧
      call.2.cid = o.cid ∧ served (o.opType, o.pin) = some call := by
  obtain ⟨-, reading, -, method, op, holds, live⟩ := spec.calls call called
  obtain ⟨o, present⟩ := work.present mine holds
  have tracked : spt.optracker.operations.lookup o.cid = some op := by
    rcases work.untracked op o present with canceled | tracked
    · simp [Tracker.canceled, present, canceled] at live
    · exact tracked
  obtain ⟨ofCid, current⟩ := calls.reads pc mine op o call.2 holds reading present
  obtain ⟨typ, typed, byMethod⟩ := bind_eq_some_iff.mp method
  obtain ⟨o', present', sameType⟩ := work.heldTyped pc mine op typ holds typed
  obtain rfl := mem_unique present present'
  refine ⟨op, o, holds, present, tracked, ofCid, ?_⟩
  rw [served, sameType, byMethod, current tracked]
  rfl

theorem CallInv.lastFor_of_other {c : Cid}
    (other : ∀ op, pc.ref = some op → spt.optracker.operations.lookup c ≠ some op) :
    lastFor c (spt.commit g effect).calls = lastFor c spt.calls := by
  change lastFor c (spt.calls ++ effect.call.toList) = _
  cases called : effect.call with
  | none => rw [toList_none, append_nil]
  | some call =>
    obtain ⟨op, o, holds, -, tracked, ofCid, -⟩ := calls.call_tracked work mine spec called
    refine lastFor_append_of_ne _ (fun sameCid => other op holds ?_)
    rw [← sameCid, ofCid, tracked]

end

theorem StepSpec.pin_of_reads (spec : StepSpec spt pc effect) {read : Pin} (holds : effect.next.ref = some op)
    (reading : effect.next.callPin = some read) (present : spt.optracker.heap[op]? = some o) : o.pin = read := by
  obtain ⟨sameRef, -, op', o', holds', present', same⟩ := spec.reads read reading
  obtain rfl := some.inj ((sameRef ▸ holds).symm.trans holds')
  obtain rfl := mem_unique present present'
  exact same

theorem calls_commit (quiet : effect.call = none) : (spt.commit g effect).calls = spt.calls := by
  change spt.calls ++ effect.call.toList = _
  rw [quiet, toList_none, append_nil]

theorem CallInv.succeeded_next (calls : CallInv spt) (work : WorkInv spt) (mine : pc ∈ spt.goroutines)
    (spec : StepSpec spt pc effect) (holds : effect.next.ref = some op) (after : effect.next.afterCall = true)
    (present : spt.optracker.heap[op]? = some o) (tracked : spt.optracker.operations.lookup o.cid = some op) :
    lastFor o.cid (spt.commit g effect).calls = served (o.opType, o.pin) := by
  obtain ⟨sameRef, ⟨before, none⟩ | ⟨call, called⟩⟩ := spec.succeeded after
  · rw [calls_commit none]
    exact calls.succeeded pc mine op o (sameRef ▸ holds) before present tracked
  · obtain ⟨op', o', holds', present', -, ofCid, serves⟩ := calls.call_tracked work mine spec called
    obtain rfl := some.inj ((sameRef ▸ holds).symm.trans holds')
    obtain rfl := mem_unique present present'
    change lastFor o.cid (spt.calls ++ effect.call.toList) = _
    rw [called, serves]
    exact lastFor_append_self _ ofCid

theorem CallInv.settled_clean (calls : CallInv spt) (requested : TrackedIsRequested spt) (mine : pc ∈ spt.goroutines)
    (spec : StepSpec spt pc effect) {c : Cid} {ref : OpRef} (tracked : spt.optracker.operations.lookup c = some ref)
    (cleans : effect.action = .clean ref) :
    lastFor c (spt.commit g effect).calls = (lastFor c spt.requests).bind served := by
  obtain ⟨o, present, rfl⟩ := spt.optracker.resolves c ref tracked
  obtain ⟨-, -, after⟩ := spec.cleans ref cleans
  have quiet : effect.call = none := by
    cases called : effect.call with
    | none => rfl
    | some call => cases cleans.symm.trans (spec.calls call called).2.2.1
  rw [calls_commit quiet, calls.succeeded pc mine ref o (spec.holds_of_cleans cleans) after present tracked,
    requested o.cid ref o tracked present]
  rfl

theorem CallInv.commit (calls : CallInv spt) (work : WorkInv spt) (requested : TrackedIsRequested spt)
    (here : spt.goroutines[g]? = some pc) (spec : StepSpec spt pc effect) : CallInv (spt.commit g effect) := by
  have mine : pc ∈ spt.goroutines := mem_of_getElem? here
  constructor
  · intro next member op o' read holds reading present'
    obtain ⟨o, present, -, samePin⟩ := present_of_apply _ present'
    have sameCid : o'.cid = o.cid := congrArg Pin.cid samePin
    rw [sameCid, samePin]
    rcases mem_goroutines_commit here member with rfl | other
    · have same := spec.pin_of_reads holds reading present
      exact ⟨congrArg Pin.cid same.symm, fun _ => same⟩
    · obtain ⟨ofCid, current⟩ := calls.reads next (mem_of_mem_eraseIdx other) op o read holds reading present
      exact ⟨ofCid, fun tracked' => current (lookup_of_lookup_apply _ tracked')⟩
  · intro next member op o' holds after present' tracked'
    obtain ⟨o, present, sameType, samePin⟩ := present_of_apply _ present'
    have sameCid : o'.cid = o.cid := congrArg Pin.cid samePin
    have tracked := lookup_of_lookup_apply _ tracked'
    rw [sameCid] at tracked ⊢
    rw [sameType, samePin]
    rcases mem_goroutines_commit here member with rfl | other
    · exact calls.succeeded_next work mine spec holds after present tracked
    · rw [calls.lastFor_of_other work mine spec]
      · exact calls.succeeded next (mem_of_mem_eraseIdx other) op o holds after present tracked
      · intro op' holds' tracked''
        obtain rfl := mem_unique tracked tracked''
        exact (exclusive work.owned here holds').1 next other holds
  · intro c untracked'
    cases tracked : spt.optracker.operations.lookup c with
    | none =>
      rw [calls.lastFor_of_other work mine spec (fun op _ still => by cases tracked.symm.trans still)]
      exact calls.settled c tracked
    | some ref =>
      obtain ⟨cleans, -⟩ := spec.untracks tracked (fun still => by cases untracked'.symm.trans still)
      exact calls.settled_clean requested mine spec tracked cleans

theorem callInv_new (config : Config) (pid : PeerID) (peerName : String) : CallInv (.new config pid peerName) where
  reads pc member op o pin holds := by
    obtain ⟨pinF, rfl⟩ := idle_of_new member
    cases holds
  succeeded pc member op o holds := by
    obtain ⟨pinF, rfl⟩ := idle_of_new member
    cases holds
  settled c untracked := rfl

theorem callInv_of_run {config : Config} {pid : PeerID} {peerName : String} {events : List Event}
    (unread : stateless.Meets RewritesUnread (.new config pid peerName) events)
    (ran : stateless.run (.new config pid peerName) events = some next) : CallInv next := by
  refine (LabeledMachine.invariant_of_meets (fun spt => WorkInv spt ∧ TrackedIsRequested spt ∧ CallInv spt)
    ?_ ⟨workInv_new .., trackedIsRequested_new _ _ _, callInv_new ..⟩ unread ran).2.2
  rintro spt event next ⟨work, requested, calls⟩ unread step
  refine ⟨work.step step, requested.step step, ?_⟩
  cases stepped_of_step step with
  | idle _ same =>
    rw [same]
    exact calls
  | shutdown _ same =>
    rw [same]
    exact { calls with }
  | request pin typ ph now start asked starts same =>
    rw [same]
    exact calls.request work ph now starts asked unread
  | run g input pc effect _ here steps same =>
    rw [same]
    exact calls.commit work requested here (pcStep_spec steps)

end

def weight (op : Operation) (ph : Phase) : ℤ := if op.countsIn ph then 1 else 0

variable {ph : Phase}

theorem gauge_recordMetric (counts : Counters) (op : Operation) (val : ℤ) (running : ph ≠ .done) :
    (counts.recordMetric op val).gauge ph = counts.gauge ph + val * weight op ph := by
  unfold Counters.recordMetric weight Operation.countsIn
  split
  next isPin =>
    cases phase : op.phase <;> cases ph <;> simp_all [Counters.gauge]
  next other => simp [other]

theorem gauge_moved (counts : Counters) (op op' : Operation) (running : ph ≠ .done) :
    ((counts.recordMetric op (-1)).recordMetric op' 1).gauge ph = counts.gauge ph + (weight op' ph - weight op ph) := by
  rw [gauge_recordMetric _ _ _ running, gauge_recordMetric _ _ _ running]
  ring

theorem weight_congr {op op' : Operation} (sameType : op'.opType = op.opType)
    (samePhase : op.opType = .pin → op'.phase = op.phase) (ph : Phase) : weight op' ph = weight op ph := by
  rw [weight, weight, Operation.countsIn, Operation.countsIn, sameType]
  by_cases isPin : op.opType = .pin
  · rw [samePhase isPin]
  · simp [isPin]

def weightAt (heap : List Operation) (ph : Phase) (ref : OpRef) : ℤ := ((heap[ref]?).map (weight · ph)).getD 0

variable {ref : OpRef}

theorem weightAt_of_present {heap : List Operation} {op : Operation} (present : heap[ref]? = some op) :
    weightAt heap ph ref = weight op ph := by
  rw [weightAt, present]
  rfl

def load (heap : List Operation) (operations : AList (fun _ : Cid => OpRef)) (ph : Phase) : ℤ :=
  (operations.entries.map fun entry => weightAt heap ph entry.2).sum

theorem trackedPins_eq_load (t : OperationTracker) (ph : Phase) : (t.trackedPins ph : ℤ)
    = load t.heap t.operations ph := by
  unfold trackedPins load
  induction t.operations.entries with
  | nil => rfl
  | cons entry rest ih =>
    rw [countP_cons, map_cons, sum_cons, ← ih, weightAt]
    cases t.heap[entry.2]? with
    | none => simp
    | some op =>
      cases counted : op.countsIn ph
      · simp [weight, counted]
      · simp [weight, counted, add_comm]

section

variable {heap heap' : List Operation} {operations : AList (fun _ : Cid => OpRef)} {ph : Phase}

theorem load_congr (same : ∀ c ref, operations.lookup c = some ref → weightAt heap' ph ref = weightAt heap ph ref) :
    load heap' operations ph = load heap operations ph := by
  unfold load
  congr 1
  apply map_congr_left
  intro entry member
  exact same entry.1 entry.2 (AList.mem_entries_iff.mp member)

theorem load_eq_add_erase {c : Cid} (tracked : operations.lookup c = some ref) :
    load heap operations ph = weightAt heap ph ref + load heap (operations.erase c) ph := by
  unfold load
  rw [((AList.entries_perm_cons_erase tracked).map _).sum_eq, map_cons, sum_cons]

theorem load_insert (c : Cid) (ref : OpRef) :
    load heap (operations.insert c ref) ph = weightAt heap ph ref + load heap (operations.erase c) ph := by
  unfold load
  rw [AList.entries_insert, map_cons, sum_cons]
  rfl

theorem erase_of_untracked {c : Cid} (untracked : operations.lookup c = none) : operations.erase c = operations := by
  apply AList.ext
  exact kerase_of_notMem_keys (AList.lookup_eq_none.mp untracked)

end

def GaugesExact (t : OperationTracker) : Prop :=
  ∀ ph, ph ≠ .done → t.counts.gauge ph = load t.heap t.operations ph

theorem GaugesExact.request {t : OperationTracker} {pin : Pin} {typ : OperationType} {now : Time}
    {result : Option OpRef × OperationTracker} (exact' : GaugesExact t) (tracks : Tracks t pin typ ph now result) :
    GaugesExact result.2 := by
  intro gauged running
  have old {c : Cid} {ref : OpRef} (tracked : t.operations.lookup c = some ref) :
      weightAt result.2.heap gauged ref = weightAt t.heap gauged ref := by
    obtain ⟨op, present, -⟩ := t.resolves c ref tracked
    obtain ⟨op', present', sameType, -, samePhase, -⟩ := tracks.frame present
    rw [weightAt_of_present present, weightAt_of_present present', weight_congr sameType fun _ => samePhase]
  have others : load result.2.heap (t.operations.erase pin.cid) gauged =
      load t.heap (t.operations.erase pin.cid) gauged := by
    apply load_congr
    intro c ref kept
    exact old (AList.lookup_erase_eq_some kept).2
  have before := exact' gauged running
  cases tracks with
  | first untracked _ heap operations counts =>
    have new : result.2.heap[t.heap.length]? = some (newOperation pin typ ph now 0) := by
      rw [heap]
      exact getElem?_concat_length
    rw [operations, counts, gauge_recordMetric _ _ _ running, load_insert, others, weightAt_of_present new, before,
      erase_of_untracked untracked]
    ring
  | rewrite ref op tracked present _ _ _ operations counts =>
    rw [operations, counts, before]
    exact (load_congr fun c ref => old).symm
  | replace ref op attempts tracked present _ heap operations counts =>
    have new : result.2.heap[t.heap.length]? = some (newOperation pin typ ph now attempts) := by
      rw [heap, getElem?_append_right (by rw [length_modify])]
      simp
    rw [load_eq_add_erase tracked, weightAt_of_present present] at before
    rw [operations, counts, gauge_moved _ _ _ running, load_insert, others, weightAt_of_present new, before]
    ring

section

variable (t : OperationTracker) {a : Action} {op : OpRef} {o : Operation} {ph : Phase}

theorem gauge_apply (hit : a.ref = some op) (present : t.heap[op]? = some o) (running : ph ≠ .done) :
    (t.apply a).counts.gauge ph = t.counts.gauge ph + (weight (a.write o) ph - weight o ph) := by
  cases a with
  | skip => cases hit
  | setPhase at' phase now =>
    obtain rfl := some.inj hit
    have counts : (t.setPhase at' phase now).counts =
        (t.counts.recordMetric o (-1)).recordMetric ((Action.setPhase at' phase now).write o) 1 := by
      simp only [setPhase, present]
      rfl
    rw [apply, counts, gauge_moved _ _ _ running]
  | setError at' err now =>
    obtain rfl := some.inj hit
    have counts : (t.setError at' err now).counts =
        (t.counts.recordMetric o (-1)).recordMetric ((Action.setError at' err now).write o) 1 := by
      simp only [setError, present]
      rfl
    rw [apply, counts, gauge_moved _ _ _ running]
  | clean at' =>
    rw [apply, clean_counts, Action.write, sub_self, add_zero]
  | incAttempt at' | setPriorityPin at' p | cancel at' =>
    exact (add_eq_left.mpr (sub_eq_zero.mpr (weight_congr rfl (fun _ => rfl) ph))).symm

theorem weightAt_apply_of_ne (other : a.ref ≠ some ref) :
    weightAt (t.apply a).heap ph ref = weightAt t.heap ph ref := by
  rw [weightAt, weightAt, heap_apply]
  simp [other]

variable (hit : a.ref = some op)

include hit

variable (present : t.heap[op]? = some o)

include present

theorem weightAt_apply : weightAt (t.apply a).heap ph op = weight (a.write o) ph := by
  rw [weightAt, heap_apply, present]
  simp [hit]

theorem load_apply_of_tracked (tracked : t.operations.lookup o.cid = some op) :
    load (t.apply a).heap t.operations ph = load t.heap t.operations ph + (weight (a.write o) ph - weight o ph) := by
  have others : load (t.apply a).heap (t.operations.erase o.cid) ph = load t.heap (t.operations.erase o.cid) ph := by
    apply load_congr
    intro c ref kept
    apply weightAt_apply_of_ne
    intro same
    obtain rfl := mem_unique hit same
    obtain ⟨other, tracked'⟩ := AList.lookup_erase_eq_some kept
    exact other (cid_of_lookup tracked' present).symm
  rw [load_eq_add_erase tracked, load_eq_add_erase tracked, weightAt_apply t hit present, others,
    weightAt_of_present present]
  ring

theorem load_apply_of_untracked (untracked : t.operations.lookup o.cid ≠ some op) :
    load (t.apply a).heap t.operations ph = load t.heap t.operations ph := by
  apply load_congr
  intro c ref tracked
  apply weightAt_apply_of_ne
  intro same
  obtain rfl := mem_unique hit same
  rw [cid_of_lookup tracked present] at untracked
  exact untracked tracked

end

/-- A goroutine changes the phase of a pin operation only while that operation is tracked. -/
def PhaseTracked (spt : Tracker) : Event → Prop
  | .run g input =>
    ∀ pc ∈ spt.goroutines[g]?, ∀ effect ∈ spt.pcStep input pc, ∀ op ∈ effect.action.ref, ∀ o ∈ spt.optracker.heap[op]?,
      o.opType = .pin → (effect.action.write o).phase ≠ o.phase → spt.optracker.operations.lookup o.cid = some op
  | _ => True

instance (spt : Tracker) (event : Event) : Decidable (PhaseTracked spt event) :=
  match event with
  | .run g input => inferInstanceAs (Decidable (∀ pc ∈ spt.goroutines[g]?, ∀ effect ∈ spt.pcStep input pc, _))
  | .track _ _ | .untrack _ _ | .recover _ _ _ _ | .enqueue _ _ _ | .shutdown => isTrue trivial

section

variable {spt : Tracker} {g : ℕ} {pc : Pc} {effect : Tracker.Effect}

theorem load_clean (work : WorkInv spt) (mine : pc ∈ spt.goroutines) (spec : StepSpec spt pc effect) {op : OpRef}
    (cleans : effect.action = .clean op) (running : ph ≠ .done) :
    load (spt.optracker.apply effect.action).heap (spt.optracker.apply effect.action).operations ph =
      load spt.optracker.heap spt.optracker.operations ph := by
  obtain ⟨-, afterDone, -⟩ := spec.cleans op cleans
  obtain ⟨o, present, done⟩ := work.done pc mine op (spec.holds_of_cleans cleans) afterDone
  rw [cleans, apply, clean_heap, clean_operations _ present]
  split
  next tracked =>
    rw [load_eq_add_erase tracked, weightAt_of_present present]
    simp [weight, Operation.countsIn, done, Ne.symm running]
  · rfl

theorem GaugesExact.commit (exact' : GaugesExact spt.optracker) (work : WorkInv spt)
    (here : spt.goroutines[g]? = some pc) (spec : StepSpec spt pc effect)
    (tracked : ∀ op ∈ effect.action.ref, ∀ o ∈ spt.optracker.heap[op]?, o.opType = .pin →
      (effect.action.write o).phase ≠ o.phase → spt.optracker.operations.lookup o.cid = some op) :
    GaugesExact (spt.commit g effect).optracker := by
  intro ph running
  have before := exact' ph running
  have mine : pc ∈ spt.goroutines := mem_of_getElem? here
  change (spt.optracker.apply effect.action).counts.gauge ph = load (spt.optracker.apply effect.action).heap
    (spt.optracker.apply effect.action).operations ph
  cases acts : effect.action.ref with
  | none =>
    have skips : effect.action = .skip := by
      cases action : effect.action <;> first | rfl | (rw [action] at acts; cases acts)
    rw [skips]
    exact before
  | some op =>
    have holds : pc.ref = some op := by
      rcases spec.own with none | same
      · cases none.symm.trans acts
      · exact same.symm.trans acts
    obtain ⟨o, present⟩ := work.present mine holds
    rw [gauge_apply _ acts present running, before]
    by_cases cleans : effect.action = .clean op
    · rw [load_clean work mine spec cleans running, cleans, Action.write, sub_self, add_zero]
    · rw [operations_apply _ (fun ref clean => cleans (by
        rw [clean] at acts ⊢
        rw [some.inj acts]))]
      by_cases current : spt.optracker.operations.lookup o.cid = some op
      · exact (load_apply_of_tracked _ acts present current).symm
      · have unmoved : weight (effect.action.write o) ph = weight o ph :=
          weight_congr (effect.action.write_opType o)
            (fun isPin => by_contra fun changed => current (tracked op acts o present isPin changed)) ph
        rw [load_apply_of_untracked _ acts present current, unmoved, sub_self, add_zero]

end

theorem gaugesExact_of_run {config : Config} {pid : PeerID} {peerName : String} {events : List Event} {next : Tracker}
    (tracked : stateless.Meets PhaseTracked (.new config pid peerName) events)
    (ran : stateless.run (.new config pid peerName) events = some next) : GaugesExact next.optracker := by
  refine (LabeledMachine.invariant_of_meets (fun spt => WorkInv spt ∧ GaugesExact spt.optracker)
    ?_ ⟨workInv_new .., fun ph _ => by cases ph <;> rfl⟩ tracked ran).2
  rintro spt event next ⟨work, exact'⟩ tracked step
  refine ⟨work.step step, ?_⟩
  cases stepped_of_step step with
  | idle _ same | shutdown _ same =>
    rw [same]
    exact exact'
  | request pin typ ph now start asked starts same =>
    obtain ⟨pointer, optracker, tracks, shape⟩ := request_tracks spt pin typ ph now start
    rw [same, shape]
    exact exact'.request tracks
  | run g input pc effect label here steps same =>
    rw [label] at tracked
    rw [same]
    exact exact'.commit work here (pcStep_spec steps) (tracked pc here effect steps)

end IpfsCluster.Proofs.PinTracker

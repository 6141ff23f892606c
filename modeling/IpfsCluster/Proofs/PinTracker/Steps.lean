import IpfsCluster.Model.PinTracker.Stateless

/-! # Sections on the operation tracker and steps of goroutines

A section of a goroutine writes to one operation; only `Clean` and `TrackNewOperation` change what is tracked. Program
counters are summarised by what they say about the operation they hold, and one lemma relates these summaries before and
after a step.
-/

namespace IpfsCluster.Model.PinTracker.Action

def ref : Action → Option OpRef
  | .skip => none
  | .setPhase op _ _ => some op
  | .setError op _ _ => some op
  | .incAttempt op => some op
  | .setPriorityPin op _ => some op
  | .cancel op => some op
  | .clean op => some op

def write : Action → Operation → Operation
  | .skip, op => op
  | .setPhase _ ph now, op => { op with phase := ph, ts := now }
  | .setError _ err now, op => { op with phase := .error, error := err, ts := now }
  | .incAttempt _, op => { op with attemptCount := op.attemptCount + 1 }
  | .setPriorityPin _ p, op => { op with priority := p }
  | .cancel _, op => { op with canceled := true }
  | .clean _, op => op

@[simp] theorem write_opType (a : Action) (op : Operation) : (a.write op).opType = op.opType := by
  cases a <;> rfl

@[simp] theorem write_pin (a : Action) (op : Operation) : (a.write op).pin = op.pin := by
  cases a <;> rfl

theorem write_canceled (a : Action) {op : Operation} (canceled : op.canceled = true) :
    (a.write op).canceled = true := by
  cases a <;> first | rfl | exact canceled

end IpfsCluster.Model.PinTracker.Action

namespace IpfsCluster.Proofs.PinTracker

open Model Model.Api Model.PinTracker List Option OperationTracker

variable {c : Cid} {ref : OpRef} {t : OperationTracker} {op : Operation}

theorem cid_of_lookup (tracked : t.operations.lookup c = some ref) (present : t.heap[ref]? = some op) : op.cid = c := by
  obtain ⟨op', present', same⟩ := t.resolves c ref tracked
  obtain rfl := mem_unique present present'
  exact same

variable {a : Action} {op' : Operation}

section

variable (t : OperationTracker)

private theorem modify_of_none (absent : t.heap[ref]? = none) (f : Operation → Operation) :
    t.heap.modify ref f = t.heap := by
  apply ext_getElem?
  intro i
  rw [getElem?_modify]
  split
  next here => rw [← here, absent]; rfl
  · exact map_id'

theorem clean_heap (ref : OpRef) : (t.clean ref).heap = t.heap := by
  unfold clean
  split
  · rfl
  · split <;> rfl

theorem clean_counts (ref : OpRef) : (t.clean ref).counts = t.counts := by
  unfold clean
  split
  · rfl
  · split <;> rfl

theorem clean_operations (present : t.heap[ref]? = some op) : (t.clean ref).operations =
      if t.operations.lookup op.cid = some ref then t.operations.erase op.cid else t.operations := by
  unfold clean
  split
  next absent => cases absent.symm.trans present
  next op' present' =>
    obtain rfl := mem_unique present' present
    split <;> rfl

theorem lookup_clean (ref : OpRef) (c : Cid) : (t.clean ref).operations.lookup c =
      if t.operations.lookup c = some ref then none else t.operations.lookup c := by
  unfold clean
  split
  next absent =>
    rw [if_neg]
    intro tracked
    obtain ⟨op, present, -⟩ := t.resolves c ref tracked
    cases absent.symm.trans present
  next op present =>
    have own (tracked : t.operations.lookup c = some ref) : op.cid = c := cid_of_lookup tracked present
    split
    next tracked =>
      by_cases here : c = op.cid
      · rw [here, if_pos tracked]
        exact AList.lookup_erase ..
      · rw [if_neg (fun tracked => here (own tracked).symm)]
        exact AList.lookup_erase_ne here
    next untracked => rw [if_neg (fun tracked => untracked (own tracked ▸ tracked))]

theorem apply_heap (a : Action) : (t.apply a).heap = a.ref.elim t.heap fun ref => t.heap.modify ref a.write := by
  cases a with
  | setPhase op ph now =>
    rw [apply, setPhase]
    split
    next absent => exact (modify_of_none t absent _).symm
    · rfl
  | setError op err now =>
    rw [apply, setError]
    split
    next absent => exact (modify_of_none t absent _).symm
    · rfl
  | clean op => exact (clean_heap t op).trans (modify_id op t.heap).symm
  | skip | incAttempt op | setPriorityPin op p | cancel op => rfl

theorem heap_apply (a : Action) (ref : OpRef) :
    (t.apply a).heap[ref]? = (t.heap[ref]?).map fun op => if a.ref = some ref then a.write op else op := by
  rw [apply_heap]
  cases a.ref with
  | none => simp
  | some op => simp [getElem?_modify]

theorem length_apply (a : Action) : (t.apply a).heap.length = t.heap.length := by
  rw [apply_heap]
  cases a.ref with
  | none => rfl
  | some op => exact length_modify ..

theorem present_of_apply (present' : (t.apply a).heap[ref]? = some op') :
    ∃ op, t.heap[ref]? = some op ∧ op'.opType = op.opType ∧ op'.pin = op.pin := by
  rw [heap_apply] at present'
  obtain ⟨op, present, rfl⟩ := map_eq_some_iff.mp present'
  refine ⟨op, present, ?_, ?_⟩
  · split <;> simp
  · split <;> simp

theorem operations_apply (noClean : ∀ ref, a ≠ .clean ref) : (t.apply a).operations = t.operations := by
  cases a with
  | setPhase op ph now =>
    rw [apply, setPhase]
    split <;> rfl
  | setError op err now =>
    rw [apply, setError]
    split <;> rfl
  | clean op => exact (noClean op rfl).elim
  | skip | incAttempt op | setPriorityPin op p | cancel op => rfl

theorem lookup_of_lookup_apply (tracked : (t.apply a).operations.lookup c = some ref) :
    t.operations.lookup c = some ref := by
  cases a with
  | clean op =>
    rw [apply, lookup_clean] at tracked
    split at tracked
    · cases tracked
    · exact tracked
  | skip | setPhase op ph now | setError op err now | incAttempt op | setPriorityPin op p | cancel op =>
    rwa [operations_apply t (by intro ref same; cases same)] at tracked

theorem find_eq_none (absent : t.find c = none) : t.operations.lookup c = none := by
  cases tracked : t.operations.lookup c with
  | none => rfl
  | some ref =>
    obtain ⟨op, present, -⟩ := t.resolves c ref tracked
    simp [find, tracked, present] at absent

def newOperation (pin : Pin) (typ : OperationType) (ph : Phase) (now : Time) (attempts : ℕ) : Operation :=
  { opType := typ, pin := pin, phase := ph, ts := now, attemptCount := attempts }

/-- How a request is tracked: by a first operation for the CID, by rewriting the pin object of the
ongoing one, or by a new operation in the place of a canceled one. -/
inductive Tracks (t : OperationTracker) (pin : Pin) (typ : OperationType) (ph : Phase) (now : Time)
    (result : Option OpRef × OperationTracker) : Prop
  | first (untracked : t.operations.lookup pin.cid = none) (pointer : result.1 = some t.heap.length)
      (heap : result.2.heap = t.heap ++ [newOperation pin typ ph now 0])
      (operations : result.2.operations = t.operations.insert pin.cid t.heap.length)
      (counts : result.2.counts = t.counts.recordMetric (newOperation pin typ ph now 0) 1)
  | rewrite (ref : OpRef) (op : Operation) (tracked : t.operations.lookup pin.cid = some ref)
      (present : t.heap[ref]? = some op) (ongoing : sameOngoing op typ = true)
      (pointer : result.1 = none) (heap : result.2.heap = t.heap.modify ref fun op => { op with pin := pin })
      (operations : result.2.operations = t.operations) (counts : result.2.counts = t.counts)
  | replace (ref : OpRef) (op : Operation) (attempts : ℕ) (tracked : t.operations.lookup pin.cid = some ref)
      (present : t.heap[ref]? = some op) (pointer : result.1 = some t.heap.length)
      (heap : result.2.heap = (t.heap.modify ref fun op => { op with canceled := true }) ++
        [newOperation pin typ ph now attempts])
      (operations : result.2.operations = t.operations.insert pin.cid t.heap.length)
      (counts : result.2.counts = (t.counts.recordMetric op (-1)).recordMetric (newOperation pin typ ph now attempts) 1)

variable (pin : Pin) (typ : OperationType) (ph : Phase) (now : Time)

theorem trackNewOperation_tracks : Tracks t pin typ ph now (t.trackNewOperation pin typ ph now) := by
  unfold trackNewOperation
  split
  next absent => exact .first (find_eq_none t absent) rfl rfl rfl rfl
  next ref op found =>
    obtain ⟨tracked, present, same⟩ := t.find_eq_some found
    split
    next ongoing => exact .rewrite ref op tracked present ongoing rfl rfl rfl rfl
    · have length : (t.cancel ref).heap.length = t.heap.length := length_modify ..
      refine .replace ref op (if op.opType = typ then op.attemptCount else 0) tracked present rfl ?_ ?_ ?_
      all_goals dsimp only [push]
      · split <;> rfl
      · rw [length]
        split <;> rfl
      · split <;> rfl

variable {t pin typ ph now} {result : Option OpRef × OperationTracker}

theorem find_of_lookup (tracked : t.operations.lookup c = some ref) (present : t.heap[ref]? = some op) :
    t.find c = some (ref, op) := by
  simp [find, tracked, present]

theorem find_apply (noClean : ∀ ref, a ≠ .clean ref) (c : Cid) :
    (t.apply a).find c = (t.find c).map fun found => (found.1, if a.ref = some found.1 then a.write found.2 else found.2) := by
  unfold find
  rw [operations_apply t noClean]
  cases t.operations.lookup c with
  | none => rfl
  | some ref =>
    rw [Option.bind_some, Option.bind_some, heap_apply, Option.map_map, Option.map_map]
    rfl

namespace Tracks

variable (tracks : Tracks t pin typ ph now result)
include tracks

theorem frame (present : t.heap[ref]? = some op) :
    ∃ op', result.2.heap[ref]? = some op' ∧ op'.opType = op.opType ∧ op'.cid = op.cid ∧ op'.phase = op.phase ∧
      (op.canceled = true → op'.canceled = true) ∧
      (op'.pin = op.pin ∨ op'.pin = pin ∧ t.operations.lookup pin.cid = some ref ∧ sameOngoing op typ = true) := by
  have bound := (List.getElem?_eq_some_iff.mp present).1
  cases tracks with
  | first _ _ heap =>
    rw [heap]
    exact ⟨op, (getElem?_append_left bound).trans present, rfl, rfl, rfl, id, .inl rfl⟩
  | rewrite at' old tracked here ongoing _ heap =>
    rw [heap, getElem?_modify, present]
    by_cases hit : at' = ref
    · subst hit
      obtain rfl := mem_unique here present
      exact ⟨{ old with pin := pin }, by simp, rfl, (cid_of_lookup tracked present).symm, rfl, id,
        .inr ⟨rfl, tracked, ongoing⟩⟩
    · exact ⟨op, by simp [hit], rfl, rfl, rfl, id, .inl rfl⟩
  | replace at' old attempts tracked here _ heap =>
    rw [heap, getElem?_append_left (by rwa [length_modify]), getElem?_modify, present]
    by_cases hit : at' = ref
    · exact ⟨{ op with canceled := true }, by simp [hit], rfl, rfl, rfl, fun _ => rfl, .inl rfl⟩
    · exact ⟨op, by simp [hit], rfl, rfl, rfl, id, .inl rfl⟩

theorem fresh : result.2.heap.length = t.heap.length + result.1.toList.length ∧
    ∀ ref ∈ result.1, ref = t.heap.length := by
  cases tracks with
  | first _ pointer heap | replace _ _ _ _ _ pointer heap =>
    rw [heap, pointer]
    exact ⟨by simp, fun ref same => (some.inj same).symm⟩
  | rewrite _ _ _ _ _ pointer heap =>
    rw [heap, pointer]
    exact ⟨by simp, fun ref none => by cases none⟩

theorem new (pointer : result.1 = some ref) :
    ∃ attempts, result.2.heap[ref]? = some (newOperation pin typ ph now attempts) ∧
      result.2.operations.lookup pin.cid = some ref := by
  obtain rfl := tracks.fresh.2 ref pointer
  cases tracks with
  | first _ _ heap operations =>
    rw [heap, operations]
    exact ⟨0, getElem?_concat_length, AList.lookup_insert _⟩
  | rewrite _ _ _ _ _ none => cases pointer.symm.trans none
  | replace at' old attempts _ _ _ heap operations =>
    rw [heap, operations]
    refine ⟨attempts, ?_, AList.lookup_insert _⟩
    rw [getElem?_append_right (by rw [length_modify])]
    simp

theorem tracked : ∃ ref op, result.2.operations.lookup pin.cid = some ref ∧ result.2.heap[ref]? = some op ∧
    op.opType = typ ∧ op.pin = pin := by
  cases pointer : result.1 with
  | some ref =>
    obtain ⟨attempts, present, lookup⟩ := tracks.new pointer
    exact ⟨ref, _, lookup, present, rfl, rfl⟩
  | none =>
    cases tracks with
    | first _ new | replace _ _ _ _ _ new => cases pointer.symm.trans new
    | rewrite at' old tracked here ongoing _ heap operations =>
      rw [heap, operations]
      refine ⟨at', { old with pin := pin }, tracked, ?_, ?_, rfl⟩
      · rw [getElem?_modify, here]
        simp
      · simp only [sameOngoing, Bool.and_eq_true, decide_eq_true_eq] at ongoing
        exact ongoing.1.1

theorem lookup_of_ne (other : c ≠ pin.cid) : result.2.operations.lookup c = t.operations.lookup c := by
  cases tracks with
  | first _ _ _ operations | replace _ _ _ _ _ _ _ operations =>
    rw [operations]
    exact AList.lookup_insert_ne other
  | rewrite _ _ _ _ _ _ _ operations => rw [operations]

theorem find_of_ne (other : c ≠ pin.cid) : result.2.find c = t.find c := by
  unfold find
  rw [tracks.lookup_of_ne other]
  cases found : t.operations.lookup c with
  | none => rfl
  | some ref =>
    obtain ⟨op, present, same⟩ := t.resolves c ref found
    have bound := (List.getElem?_eq_some_iff.mp present).1
    have elsewhere (at' : OpRef) (tracked : t.operations.lookup pin.cid = some at') : at' ≠ ref := by
      rintro rfl
      exact other (same.symm.trans (cid_of_lookup tracked present))
    refine congrArg (Option.map fun op => (ref, op)) ?_
    cases tracks with
    | first _ _ heap => rw [heap, getElem?_append_left bound]
    | rewrite at' _ tracked _ _ _ heap => rw [heap, getElem?_modify_ne _ _ (elsewhere at' tracked)]
    | replace at' _ _ tracked _ _ heap =>
      rw [heap, getElem?_append_left (by rwa [length_modify]), getElem?_modify_ne _ _ (elsewhere at' tracked)]

theorem old_or_new (present' : result.2.heap[ref]? = some op') : (∃ op, t.heap[ref]? = some op)
    ∨ result.1 = some ref ∧ result.2.operations.lookup op'.cid = some ref := by
  have bound := (List.getElem?_eq_some_iff.mp present').1
  rw [tracks.fresh.1] at bound
  cases tracks with
  | first _ pointer heap operations | replace _ _ _ _ _ pointer heap operations =>
    rw [pointer, toList_some, length_singleton] at bound
    rcases Nat.lt_or_ge ref t.heap.length with old | new
    · exact .inl ⟨_, getElem?_eq_getElem old⟩
    · obtain rfl := Nat.le_antisymm (Nat.le_of_lt_succ bound) new
      right
      rw [heap, getElem?_append_right (by simp)] at present'
      obtain rfl : newOperation pin typ ph now _ = op' := by simpa using present'
      rw [operations]
      exact ⟨pointer, AList.lookup_insert _⟩
  | rewrite _ _ _ _ _ pointer =>
    rw [pointer] at bound
    exact .inl ⟨_, getElem?_eq_getElem bound⟩

theorem lookup_of_old (after : result.2.operations.lookup c = some ref) (old : ref < t.heap.length) :
    t.operations.lookup c = some ref := by
  by_cases here : c = pin.cid
  · subst here
    cases tracks with
    | first _ _ _ operations | replace _ _ _ _ _ _ _ operations =>
      rw [operations, AList.lookup_insert] at after
      exact (Nat.ne_of_lt old (some.inj after).symm).elim
    | rewrite _ _ _ _ _ _ _ operations => rwa [operations] at after
  · rwa [tracks.lookup_of_ne here] at after

theorem canceled_or_tracked (before : t.operations.lookup pin.cid = some ref)
    (present' : result.2.heap[ref]? = some op') :
    op'.canceled = true ∨ result.2.operations.lookup pin.cid = some ref := by
  cases tracks with
  | first untracked => cases untracked.symm.trans before
  | rewrite _ _ _ _ _ _ _ operations =>
    rw [operations]
    exact .inr before
  | replace at' old _ tracked present _ heap =>
    obtain rfl := mem_unique before tracked
    left
    have bound := (List.getElem?_eq_some_iff.mp present).1
    rw [heap, getElem?_append_left (by rwa [length_modify]), getElem?_modify, present] at present'
    obtain rfl : { old with canceled := true } = op' := by simpa using present'
    rfl

end Tracks

end

/-- Every operation that is not the tracked one for its CID is canceled. -/
def UntrackedCanceled (t : OperationTracker) : Prop :=
  ∀ ref op, t.heap[ref]? = some op → op.canceled = true ∨ t.operations.lookup op.cid = some ref

theorem UntrackedCanceled.apply (untracked : UntrackedCanceled t) (a : Action)
    (cleans : ∀ ref, a = .clean ref → ∀ op, t.heap[ref]? = some op → op.canceled = true) :
    UntrackedCanceled (t.apply a) := by
  intro ref op' present'
  rw [heap_apply] at present'
  obtain ⟨op, present, rfl⟩ := map_eq_some_iff.mp present'
  have sameCid : (if a.ref = some ref then a.write op else op).cid = op.cid := by
    split
    · exact congrArg Pin.cid (a.write_pin op)
    · rfl
  rw [sameCid]
  rcases untracked ref op present with canceled | tracked
  · left
    split
    · exact a.write_canceled canceled
    · exact canceled
  · cases a with
    | clean at' =>
      by_cases hit : ref = at'
      · subst hit
        left
        simp only [Action.write, ite_self]
        exact cleans _ rfl op present
      · right
        rw [OperationTracker.apply, lookup_clean, tracked, if_neg (fun same => hit (some.inj same))]
    | skip | setPhase at' ph now | setError at' err now | incAttempt at' | setPriorityPin at' p | cancel at' =>
      right
      rwa [operations_apply t (by intro ref same; cases same)]

theorem UntrackedCanceled.request (untracked : UntrackedCanceled t) {pin : Pin} {typ : OperationType} {ph : Phase}
    {now : Time} {result : Option OpRef × OperationTracker} (tracks : Tracks t pin typ ph now result) :
    UntrackedCanceled result.2 := by
  intro ref op' present'
  rcases tracks.old_or_new present' with ⟨op, present⟩ | ⟨-, new⟩
  · obtain ⟨op'', present'', -, sameCid, -, keeps, -⟩ := tracks.frame present
    obtain rfl := mem_unique present' present''
    rcases untracked ref op present with canceled | here
    · exact .inl (keeps canceled)
    · rw [sameCid]
      by_cases same : op.cid = pin.cid
      · rw [same] at here ⊢
        exact tracks.canceled_or_tracked here present'
      · exact .inr ((tracks.lookup_of_ne same).trans here)
  · exact .inr new

end IpfsCluster.Proofs.PinTracker

namespace IpfsCluster.Model.PinTracker

open Api

def OpChannel.opType : OpChannel → OperationType
  | .priorityPinCh | .pinCh => .pin
  | .unpinCh => .unpin

def PinF.opType : PinF → OperationType
  | .pin => .pin
  | .unpin => .unpin

namespace Pc

def ref : Pc → Option OpRef
  | .checkCanceled _ op | .setInProgress _ op | .incAttempt _ op | .readPin _ op | .calling _ op _
  | .checkFailure _ op _ | .setError _ op _ | .cancelFailed _ op | .setDone _ op | .cancelDone _ op
  | .clean _ op | .readAttempts op _ | .setPriority op _ | .send op _ | .setFull op | .cancelFull op
  | .remoteReadPin op | .remoteCalling op _ | .remoteCancel op _ | .remoteSetError op _
  | .remoteSetDone op | .remoteClean op => some op
  | .pollPriority _ | .pollAll _ | .returned => none

/-- The type that the operation has; a rejected operation can have any. -/
def opType : Pc → Option OperationType
  | .checkCanceled pinF _ | .setInProgress pinF _ | .incAttempt pinF _ | .readPin pinF _ | .calling pinF _ _
  | .checkFailure pinF _ _ | .setError pinF _ _ | .cancelFailed pinF _ | .setDone pinF _
  | .cancelDone pinF _ | .clean pinF _ => some pinF.opType
  | .readAttempts _ _ | .setPriority _ _ => some .pin
  | .send _ ch => ch.map OpChannel.opType
  | .remoteReadPin _ | .remoteCalling _ _ | .remoteCancel _ _ | .remoteSetError _ _ | .remoteSetDone _
  | .remoteClean _ => some .remote
  | .setFull _ | .cancelFull _ | .pollPriority _ | .pollAll _ | .returned => none

def afterCancel : Pc → Bool
  | .clean _ _ | .remoteSetError _ _ | .remoteSetDone _ | .remoteClean _ => true
  | _ => false

def afterDone : Pc → Bool
  | .cancelDone _ _ | .clean _ _ | .remoteClean _ => true
  | _ => false

def callPin : Pc → Option Pin
  | .calling _ _ pin | .remoteCalling _ pin => some pin
  | _ => none

def afterCall : Pc → Bool
  | .setDone _ _ | .cancelDone _ _ | .clean _ _ | .remoteCancel _ (.ok ()) | .remoteSetDone _
  | .remoteClean _ => true
  | _ => false

end Pc

def OperationType.pinF : OperationType → Option PinF
  | .pin => some .pin
  | .unpin | .remote => some .unpin
  | .unknown | .shard => none

end IpfsCluster.Model.PinTracker

namespace IpfsCluster.Proofs.PinTracker

open Model Model.Api Model.PinTracker Golang

/-- How operations move between goroutines and channels. -/
inductive Flow (spt : Tracker) (pc : Pc) (effect : Tracker.Effect) : Prop
  | drop (chan : effect.chan = none) (gone : effect.next.ref = none)
  | keep (chan : effect.chan = none) (same : effect.next.ref = pc.ref)
      (typed : effect.next.opType = none ∨ effect.next.opType = pc.opType)
  | take (ch : OpChannel) (op : OpRef) (rest : Chan OpRef) (chan : effect.chan = some (ch, rest))
      (buffer : (spt.chans ch).buffer = op :: rest.buffer) (idle : pc.ref = none) (taken : effect.next.ref = some op)
      (typed : effect.next.opType = some ch.opType)
  | put (ch : OpChannel) (op : OpRef) (filled : Chan OpRef) (chan : effect.chan = some (ch, filled))
      (buffer : filled.buffer = (spt.chans ch).buffer ++ [op]) (held : pc.ref = some op)
      (typed : pc.opType = some ch.opType) (gone : effect.next.ref = none)

structure StepSpec (spt : Tracker) (pc : Pc) (effect : Tracker.Effect) : Prop where
  flow : Flow spt pc effect
  own : effect.action.ref = none ∨ effect.action.ref = pc.ref
  cleans : ∀ op, effect.action = .clean op → pc.afterCancel = true ∧ pc.afterDone = true ∧ pc.afterCall = true := by
    rintro op ⟨⟩
  canceled : effect.next.afterCancel = true → effect.next.ref = pc.ref ∧
    (pc.afterCancel = true ∨ ∃ op, pc.ref = some op ∧ effect.action = .cancel op) := by rintro ⟨⟩
  done : effect.next.afterDone = true → effect.next.ref = pc.ref ∧
    ((pc.afterDone = true ∧ ∃ op, effect.action = .cancel op) ∨
      ∃ op now, pc.ref = some op ∧ effect.action = .setPhase op .done now) := by rintro ⟨⟩
  reads : ∀ pin, effect.next.callPin = some pin → effect.next.ref = pc.ref ∧ effect.action = .skip ∧
    ∃ op o, pc.ref = some op ∧ spt.optracker.heap[op]? = some o ∧ o.pin = pin := by rintro pin ⟨⟩
  calls : ∀ call, effect.call = some call → effect.next.afterCall = true ∧ pc.callPin = some call.2 ∧
    effect.action = .skip ∧ pc.opType.bind OperationType.pinF = some call.1 ∧
    ∃ op, pc.ref = some op ∧ spt.canceled op = false := by rintro call ⟨⟩
  succeeded : effect.next.afterCall = true → effect.next.ref = pc.ref ∧
    (pc.afterCall = true ∧ effect.call = none ∨ ∃ call, effect.call = some call) := by rintro ⟨⟩

theorem receive_eq_some {spt : Tracker} {ch : OpChannel} {op : OpRef} {rest : Chan OpRef}
    (received : spt.receive ch = some (op, rest)) : (spt.chans ch).buffer = op :: rest.buffer := by
  unfold Tracker.receive at received
  split at received
  next item next got =>
    obtain ⟨rfl, rfl⟩ := Prod.mk.inj (Option.some.inj received)
    obtain ⟨buffer, -⟩ := Chan.tryReceive_eq_item got
    exact buffer
  · cases received
  · cases received

section

variable {spt : Tracker} {input : Input} {pc : Pc} {effect : Tracker.Effect}

theorem StepSpec.holds_of_cleans (spec : StepSpec spt pc effect) {ref : OpRef} (cleans : effect.action = .clean ref) :
    pc.ref = some ref := by
  rcases spec.own with none | same
  · rw [cleans] at none
    cases none
  · rw [← same, cleans]
    rfl

theorem StepSpec.untracks (spec : StepSpec spt pc effect) {c : Cid} {ref : OpRef}
    (tracked : spt.optracker.operations.lookup c = some ref)
    (untracked : (spt.optracker.apply effect.action).operations.lookup c ≠ some ref) :
    effect.action = .clean ref ∧ pc.ref = some ref := by
  obtain ⟨at', cleans⟩ : ∃ at', effect.action = .clean at' := by
    by_contra never
    rw [operations_apply _ (not_exists.mp never)] at untracked
    exact untracked tracked
  rw [cleans, OperationTracker.apply, lookup_clean] at untracked
  split at untracked
  next hit =>
    obtain rfl := Option.mem_unique tracked hit
    exact ⟨cleans, spec.holds_of_cleans cleans⟩
  · exact (untracked tracked).elim

theorem takeFrom_spec {pinF : PinF} (ch : OpChannel) (typed : ch.opType = pinF.opType) (idle : pc.ref = none)
    (taken : spt.takeFrom pinF ch = some effect) : StepSpec spt pc effect := by
  obtain ⟨⟨op, rest⟩, received, rfl⟩ := Option.map_eq_some_iff.mp taken
  exact { flow := .take ch op rest rfl (receive_eq_some received) idle rfl (congrArg some typed.symm), own := .inl rfl }

theorem callResult_eq_ok {op : OpRef} (answered : spt.callResult op input = .ok ()) : spt.canceled op = false := by
  unfold Tracker.callResult at answered
  split at answered
  · cases answered
  next live => exact Bool.eq_false_iff.mpr live

theorem pcStep_spec (stepped : spt.pcStep input pc = some effect) : StepSpec spt pc effect := by
  cases pc with
  | pollPriority pinF =>
    simp only [Tracker.pcStep] at stepped
    split at stepped
    · exact takeFrom_spec _ (by cases pinF <;> rfl) rfl stepped
    · split at stepped
      · cases stepped
        exact { flow := .drop rfl rfl, own := .inl rfl }
      · cases stepped
    · split at stepped
      · cases stepped
      · cases stepped
        exact { flow := .drop rfl rfl, own := .inl rfl }
    · cases stepped
  | pollAll pinF =>
    simp only [Tracker.pcStep] at stepped
    split at stepped
    · exact takeFrom_spec _ (by cases pinF <;> rfl) rfl stepped
    · cases pinF with
      | pin => exact takeFrom_spec .pinCh rfl rfl stepped
      | unpin => cases stepped
    · split at stepped
      · cases stepped
        exact { flow := .drop rfl rfl, own := .inl rfl }
      · cases stepped
    · cases stepped
  | checkCanceled pinF op | checkFailure pinF op err =>
    cases stepped
    cases spt.canceled op with
    | true => exact { flow := .drop rfl rfl, own := .inl rfl }
    | false => exact { flow := .keep rfl rfl (.inr rfl), own := .inl rfl }
  | setInProgress pinF op | incAttempt pinF op | setError pinF op err | setFull op =>
    cases stepped
    exact { flow := .keep rfl rfl (.inr rfl), own := .inr rfl }
  | cancelFailed pinF op | cancelFull op | remoteSetError op err =>
    cases stepped
    exact { flow := .drop rfl rfl, own := .inr rfl }
  | setPriority op p =>
    cases stepped
    exact { flow := .keep rfl rfl (.inr (by cases p <;> rfl)), own := .inr rfl }
  | readAttempts op pin =>
    obtain ⟨o, present, rfl⟩ := Option.map_eq_some_iff.mp stepped
    exact { flow := .keep rfl rfl (.inr rfl), own := .inl rfl }
  | send op ch =>
    cases ch with
    | none =>
      cases stepped
      exact { flow := .keep rfl rfl (.inl rfl), own := .inl rfl }
    | some ch =>
      simp only [Tracker.pcStep] at stepped
      split at stepped
      next filled sent =>
        cases stepped
        exact { flow := .put ch op filled rfl (Chan.trySend_eq_some sent).1 rfl rfl rfl, own := .inl rfl }
      · cases stepped
        exact { flow := .keep rfl rfl (.inl rfl), own := .inl rfl }
  | readPin pinF op | remoteReadPin op =>
    obtain ⟨o, present, rfl⟩ := Option.map_eq_some_iff.mp stepped
    exact {
      flow := .keep rfl rfl (.inr rfl)
      own := .inl rfl
      reads := fun pin read => ⟨rfl, rfl, op, o, rfl, present, Option.some.inj read⟩ }
  | calling pinF op pin | remoteCalling op pin =>
    simp only [Tracker.pcStep] at stepped
    split at stepped
    · cases stepped
      exact { flow := .keep rfl rfl (.inr rfl), own := .inl rfl }
    next answered =>
      cases stepped
      exact {
        flow := .keep rfl rfl (.inr rfl)
        own := .inl rfl
        calls := by
          rintro call ⟨⟩
          exact ⟨rfl, rfl, rfl, by first | rfl | (cases pinF <;> rfl), op, rfl, callResult_eq_ok answered⟩
        succeeded := fun _ => ⟨rfl, .inr ⟨_, rfl⟩⟩ }
  | setDone pinF op | remoteSetDone op =>
    cases stepped
    exact {
      flow := .keep rfl rfl (.inr rfl)
      own := .inr rfl
      canceled := by first | exact fun _ => ⟨rfl, .inl rfl⟩ | rintro ⟨⟩
      done := fun _ => ⟨rfl, .inr ⟨op, input.now, rfl, rfl⟩⟩
      succeeded := fun _ => ⟨rfl, .inl ⟨rfl, rfl⟩⟩ }
  | cancelDone pinF op =>
    cases stepped
    exact {
      flow := .keep rfl rfl (.inr rfl)
      own := .inr rfl
      canceled := fun _ => ⟨rfl, .inr ⟨op, rfl, rfl⟩⟩
      done := fun _ => ⟨rfl, .inl ⟨rfl, op, rfl⟩⟩
      succeeded := fun _ => ⟨rfl, .inl ⟨rfl, rfl⟩⟩ }
  | clean pinF op | remoteClean op =>
    cases stepped
    exact {
      flow := .drop rfl rfl
      own := .inr rfl
      cleans := fun _ _ => ⟨rfl, rfl, rfl⟩ }
  | remoteCancel op result =>
    cases result with
    | error err =>
      cases stepped
      exact {
        flow := .keep rfl rfl (.inr rfl)
        own := .inr rfl
        canceled := fun _ => ⟨rfl, .inr ⟨op, rfl, rfl⟩⟩ }
    | ok _ =>
      cases stepped
      exact {
        flow := .keep rfl rfl (.inr rfl)
        own := .inr rfl
        canceled := fun _ => ⟨rfl, .inr ⟨op, rfl, rfl⟩⟩
        succeeded := fun _ => ⟨rfl, .inl ⟨rfl, rfl⟩⟩ }
  | returned => cases stepped

end

end IpfsCluster.Proofs.PinTracker

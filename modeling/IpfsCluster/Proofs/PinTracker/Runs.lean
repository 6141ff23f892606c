import IpfsCluster.Proofs.PinTracker.Steps
import Mathlib.Algebra.Order.Group.Multiset
import Mathlib.Tactic.Abel

/-! # Invariants of every run of the tracker

Every operation is in at most one place: on one channel, or in the hands of one goroutine. So what a goroutine has
established about its operation stays true. A restart tracks a new operation for its CID and puts it on the channel of
its type.
-/

namespace IpfsCluster.Model.PinTracker

open Api

def Event.requested (spt : Tracker) : Event → Option (OperationType × Pin)
  | .track pin _ =>
    if pin.type = PinType.metaType then none
    else if pin.isRemotePin spt.peerID then some (.remote, pin) else some (.pin, pin)
  | .untrack c now => some (.unpin, pinCid c now)
  | .recover c status found now =>
    if status = TrackerStatus.pinError ∨ status = TrackerStatus.unexpectedlyUnpinned then
      found.map fun pin => (.pin, { pin with cid := c })
    else if status = TrackerStatus.unpinError then some (.unpin, pinCid c now) else none
  | .enqueue pin typ _ => some (typ, pin)
  | .shutdown => none
  | .run _ _ => none

end IpfsCluster.Model.PinTracker

namespace IpfsCluster.Proofs.PinTracker

open Model Model.Api Model.PinTracker Golang Machine List Option Function Tracker

/-- Where the goroutine of a request starts: it holds the operation and has done nothing yet. -/
structure StartSpec (typ : OperationType) (start : OpRef → Pc) : Prop where
  ref : ∀ op, (start op).ref = some op
  opType : ∀ op, (start op).opType = none ∨ (start op).opType = some typ
  afterCancel : ∀ op, (start op).afterCancel = false
  afterDone : ∀ op, (start op).afterDone = false
  callPin : ∀ op, (start op).callPin = none
  afterCall : ∀ op, (start op).afterCall = false

theorem startSpec_enqueue (pin : Pin) (typ : OperationType) : StartSpec typ (enqueueStart pin typ) := by
  cases typ
  all_goals
    constructor <;> intro op <;> first | rfl | exact .inr rfl | exact .inl rfl

theorem startSpec_remote : StartSpec .remote Pc.remoteReadPin where
  ref _ := rfl
  opType _ := .inr rfl
  afterCancel _ := rfl
  afterDone _ := rfl
  callPin _ := rfl
  afterCall _ := rfl

inductive Stepped (spt : Tracker) (event : Event) (next : Tracker) : Prop
  | idle (quiet : event.requested spt = none) (same : next = spt)
  | shutdown (quiet : event.requested spt = none) (same : next = { spt with done := true })
  | request (pin : Pin) (typ : OperationType) (ph : Phase) (now : Time) (start : OpRef → Pc)
      (requested : event.requested spt = some (typ, pin)) (starts : StartSpec typ start)
      (same : next = spt.request pin typ ph now start)
  | run (g : ℕ) (input : Input) (pc : Pc) (effect : Tracker.Effect) (label : event = .run g input)
      (here : spt.goroutines[g]? = some pc) (steps : spt.pcStep input pc = some effect)
      (same : next = spt.commit g effect)

variable {event : Event} {typ : OperationType}

theorem stepped_enqueue {spt : Tracker} {pin : Pin} {now : Time} (requested : event.requested spt = some (typ, pin)) :
    Stepped spt event (spt.enqueue pin typ now) :=
  .request pin typ .queued now _ requested (startSpec_enqueue pin typ) rfl

variable {next : Tracker}

theorem stepped_of_step {spt : Tracker} (step : stateless.step spt event = some next) : Stepped spt event next := by
  cases event with
  | track pin now =>
    cases step
    unfold track
    split
    next isMeta => exact .idle (if_pos isMeta) rfl
    next other =>
      split
      next remote =>
        exact .request pin .remote .inProgress now _ (by rw [Event.requested, if_neg other, if_pos remote])
          startSpec_remote rfl
      next here => exact stepped_enqueue (by rw [Event.requested, if_neg other, if_neg here])
  | untrack | enqueue =>
    cases step
    exact stepped_enqueue rfl
  | recover c status found now =>
    cases step
    unfold recoverWithPinInfo
    split
    next failed =>
      cases found with
      | none => exact .idle (by rw [Event.requested, if_pos failed]; rfl) rfl
      | some pin => exact stepped_enqueue (by rw [Event.requested, if_pos failed]; rfl)
    next notPin =>
      split
      next unpin => exact stepped_enqueue (by rw [Event.requested, if_neg notPin, if_pos unpin])
      next other => exact .idle (by rw [Event.requested, if_neg notPin, if_neg other]) rfl
  | shutdown =>
    cases step
    exact .shutdown rfl rfl
  | run g input =>
    obtain ⟨pc, here, stepped⟩ := bind_eq_some_iff.mp step
    obtain ⟨effect, steps, rfl⟩ := map_eq_some_iff.mp stepped
    exact .run g input pc effect rfl here steps rfl

theorem request_tracks (spt : Tracker) (pin : Pin) (typ : OperationType) (ph : Phase) (now : Time) (start : OpRef → Pc) :
    ∃ pointer optracker, Tracks spt.optracker pin typ ph now (pointer, optracker) ∧
      spt.request pin typ ph now start = { spt with
        optracker := optracker
        goroutines := spt.goroutines ++ (pointer.map start).toList
        requests := spt.requests ++ [(typ, pin)] } :=
  ⟨_, _, trackNewOperation_tracks .., rfl⟩

variable {start : OpRef → Pc} {pc : Pc}

theorem mem_goroutines_request {goroutines : List Pc} {pointer : Option OpRef}
    (member : pc ∈ goroutines ++ (pointer.map start).toList) :
    pc ∈ goroutines ∨ ∃ op, pointer = some op ∧ pc = start op := by
  rcases mem_append.mp member with old | new
  · exact .inl old
  · obtain ⟨op, found, rfl⟩ := map_eq_some_iff.mp (mem_toList.mp new)
    exact .inr ⟨op, found, rfl⟩

variable {op : OpRef}

section

variable {spt : Tracker} {g : ℕ} {pc : Pc} {effect : Tracker.Effect}

def queued (chans : OpChannel → Chan OpRef) : Multiset OpRef :=
  ↑(chans .priorityPinCh).buffer + ↑(chans .pinCh).buffer + ↑(chans .unpinCh).buffer

def held (goroutines : List Pc) : Multiset OpRef := ↑(goroutines.filterMap Pc.ref)

def tokens (spt : Tracker) : Multiset OpRef := queued spt.chans + held spt.goroutines

theorem queued_update (chans : OpChannel → Chan OpRef) (ch : OpChannel) :
    ∃ others : Multiset OpRef, ∀ next, queued (update chans ch next) = ↑next.buffer + others := by
  refine ⟨queued (update chans ch (.make 0)), fun next => ?_⟩
  cases ch
  all_goals
    simp only [queued, Chan.make, update_self, update_of_ne, ne_eq, reduceCtorEq, not_false_eq_true, Multiset.coe_nil]
    abel

theorem mem_queued {chans : OpChannel → Chan OpRef} {ch : OpChannel} (member : op ∈ (chans ch).buffer) :
    op ∈ queued chans := by
  simp only [queued, Multiset.mem_add, Multiset.mem_coe]
  cases ch with
  | priorityPinCh => exact Or.inl (Or.inl member)
  | pinCh => exact .inl (.inr member)
  | unpinCh => exact .inr member

theorem held_cons (pc : Pc) (rest : List Pc) : held (pc :: rest) = ↑pc.ref.toList + held rest := by
  cases found : pc.ref with
  | none | some => simp [held, found]

theorem held_perm {goroutines goroutines' : List Pc} (perm : goroutines.Perm goroutines') :
    held goroutines = held goroutines' :=
  Multiset.coe_eq_coe.mpr (perm.filterMap _)

theorem held_request (starts : StartSpec typ start) (goroutines : List Pc) (pointer : Option OpRef) :
    held (goroutines ++ (pointer.map start).toList) = held goroutines + ↑pointer.toList := by
  cases pointer with
  | none => simp [held]
  | some op =>
    simp only [held, map_some, toList_some, filterMap_append, filterMap_cons, filterMap_nil, starts.ref]
    exact (Multiset.coe_add _ [op]).symm

section

variable (here : spt.goroutines[g]? = some pc)

include here

theorem perm_of_getElem? : spt.goroutines.Perm (pc :: spt.goroutines.eraseIdx g) := by
  obtain ⟨bound, rfl⟩ := List.getElem?_eq_some_iff.mp here
  exact (getElem_cons_eraseIdx_perm bound).symm

theorem goroutines_commit : (spt.commit g effect).goroutines.Perm (effect.next :: spt.goroutines.eraseIdx g) := by
  obtain ⟨bound, -⟩ := List.getElem?_eq_some_iff.mp here
  exact set_perm_cons_eraseIdx bound effect.next

theorem mem_goroutines_commit {next : Pc} (member : next ∈ (spt.commit g effect).goroutines) :
    next = effect.next ∨ next ∈ spt.goroutines.eraseIdx g :=
  mem_cons.mp ((goroutines_commit here).mem_iff.mp member)

theorem tokens_commit (flow : Flow spt pc effect) : tokens (spt.commit g effect) ≤ tokens spt := by
  have before : tokens spt = queued spt.chans + (↑pc.ref.toList + held (spt.goroutines.eraseIdx g)) := by
    rw [tokens, held_perm (perm_of_getElem? here), held_cons]
  have after : tokens (spt.commit g effect) =
      queued (spt.commit g effect).chans + (↑effect.next.ref.toList + held (spt.goroutines.eraseIdx g)) := by
    rw [tokens, held_perm (goroutines_commit here), held_cons]
  rw [before, after]
  cases flow with
  | drop chan gone =>
    simp only [commit, chan, gone]
    exact add_le_add_right (add_le_add_left (Multiset.zero_le _) _) _
  | keep chan kept =>
    simp only [commit, chan, kept, le_refl]
  | take ch op rest chan buffer idle taken =>
    obtain ⟨others, update⟩ := queued_update spt.chans ch
    have old := update (spt.chans ch)
    rw [update_eq_self, buffer] at old
    rw [old, idle, taken]
    apply le_of_eq
    simp only [commit, chan, update, toList_some, toList_none, Multiset.coe_nil, zero_add, ← Multiset.cons_coe,
      ← Multiset.singleton_add]
    abel
  | put ch op filled chan buffer holds _ gone =>
    obtain ⟨others, update⟩ := queued_update spt.chans ch
    have old := update (spt.chans ch)
    rw [update_eq_self] at old
    rw [old, holds, gone]
    apply le_of_eq
    simp only [commit, chan, update, buffer, toList_some, toList_none, Multiset.coe_singleton,
      Multiset.coe_nil, zero_add, ← Multiset.coe_add]
    abel

end

/-- The operation of a goroutine is in nobody else's hands and on no channel. -/
theorem exclusive (owned : (tokens spt).Nodup) (here : spt.goroutines[g]? = some pc) (holds : pc.ref = some op) :
    (∀ other ∈ spt.goroutines.eraseIdx g, other.ref ≠ some op) ∧ ∀ ch, op ∉ (spt.chans ch).buffer := by
  rw [tokens, held_perm (perm_of_getElem? here), held_cons, holds, toList_some, Multiset.coe_singleton] at owned
  have split : queued spt.chans + ({op} + held (spt.goroutines.eraseIdx g)) =
      op ::ₘ (queued spt.chans + held (spt.goroutines.eraseIdx g)) := by
    rw [← Multiset.singleton_add]
    abel
  rw [split, Multiset.nodup_cons, Multiset.mem_add, not_or] at owned
  constructor
  · intro other member same
    exact owned.1.2 (Multiset.mem_coe.mpr (mem_filterMap.mpr ⟨other, member, same⟩))
  · intro ch member
    exact owned.1.1 (mem_queued member)

end

def Holds (t : OperationTracker) (op : OpRef) (property : Operation → Prop) : Prop :=
  ∃ o, t.heap[op]? = some o ∧ property o

/-- What the goroutines and channels rely on, in every run. -/
structure WorkInv (spt : Tracker) : Prop where
  owned : (tokens spt).Nodup
  allocated : ∀ op ∈ tokens spt, op < spt.optracker.heap.length
  queuedTyped : ∀ ch, ∀ op ∈ (spt.chans ch).buffer, Holds spt.optracker op (·.opType = ch.opType)
  heldTyped : ∀ pc ∈ spt.goroutines, ∀ op typ, pc.ref = some op → pc.opType = some typ →
    Holds spt.optracker op (·.opType = typ)
  canceled : ∀ pc ∈ spt.goroutines, ∀ op, pc.ref = some op → pc.afterCancel = true →
    Holds spt.optracker op (·.canceled = true)
  done : ∀ pc ∈ spt.goroutines, ∀ op, pc.ref = some op → pc.afterDone = true → Holds spt.optracker op (·.phase = .done)
  untracked : UntrackedCanceled spt.optracker

section

variable {spt : Tracker} {property : Operation → Prop} {t : OperationTracker}

theorem Holds.apply (a : Action) (kept : ∀ o, property o → a.ref = some op → property (a.write o))
    (holds : Holds t op property) : Holds (t.apply a) op property := by
  obtain ⟨o, present, satisfied⟩ := holds
  refine ⟨_, by rw [heap_apply, present]; rfl, ?_⟩
  split
  next hit => exact kept o satisfied hit
  · exact satisfied

theorem Holds.of_write {o : Operation} {a : Action} (present : t.heap[op]? = some o) (hit : a.ref = some op)
    (satisfied : property (a.write o)) : Holds (t.apply a) op property := by
  refine ⟨a.write o, ?_, satisfied⟩
  rw [heap_apply, present, map_some, if_pos hit]

theorem Holds.tracks {pin : Pin} {ph : Phase} {now : Time} {result : Option OpRef × OperationTracker}
    (holds : Holds t op property) (tracks : Tracks t pin typ ph now result)
    (stable : ∀ o o' : Operation, o'.opType = o.opType → o'.phase = o.phase →
      (o.canceled = true → o'.canceled = true) → property o → property o') : Holds result.2 op property := by
  obtain ⟨o, present, satisfied⟩ := holds
  obtain ⟨o', present', sameType, -, samePhase, kept, -⟩ := tracks.frame present
  exact ⟨o', present', stable o o' sameType samePhase kept satisfied⟩

theorem WorkInv.present (inv : WorkInv spt) (member : pc ∈ spt.goroutines) (holds : pc.ref = some op) :
    ∃ o, spt.optracker.heap[op]? = some o := by
  have token : op ∈ tokens spt := Multiset.mem_add.mpr (Or.inr (Multiset.mem_coe.mpr
    (mem_filterMap.mpr ⟨pc, member, holds⟩)))
  exact ⟨_, getElem?_eq_getElem (inv.allocated op token)⟩

theorem WorkInv.request (inv : WorkInv spt) (pin : Pin) (typ : OperationType) (ph : Phase) (now : Time)
    (starts : StartSpec typ start) : WorkInv (spt.request pin typ ph now start) := by
  obtain ⟨pointer, optracker, tracks, shape⟩ := request_tracks spt pin typ ph now start
  have grown : spt.optracker.heap.length ≤ optracker.heap.length := by
    have length := tracks.fresh.1
    simp only at length
    omega
  have allTokens : tokens (spt.request pin typ ph now start) = tokens spt + ↑pointer.toList := by
    rw [shape, tokens, held_request starts, tokens, add_assoc]
  constructor
  · rw [allTokens]
    cases pointer with
    | none => simpa using inv.owned
    | some op =>
      obtain rfl := tracks.fresh.2 op rfl
      rw [toList_some, Multiset.coe_singleton, add_comm, Multiset.singleton_add, Multiset.nodup_cons]
      exact ⟨fun old => Nat.lt_irrefl _ (inv.allocated _ old), inv.owned⟩
  · rw [allTokens, shape]
    intro op member
    rcases Multiset.mem_add.mp member with old | new
    · exact Nat.lt_of_lt_of_le (inv.allocated op old) grown
    · obtain ⟨attempts, present, -⟩ := tracks.new (mem_toList.mp new)
      exact (List.getElem?_eq_some_iff.mp present).1
  · rw [shape]
    intro ch op member
    exact (inv.queuedTyped ch op member).tracks tracks (fun o o' same _ _ typed => same.trans typed)
  · rw [shape]
    intro pc member op typ' holds typed
    rcases mem_goroutines_request member with old | ⟨op', pointer, rfl⟩
    · exact (inv.heldTyped pc old op typ' holds typed).tracks tracks (fun o o' same _ _ typed => same.trans typed)
    · obtain rfl := some.inj ((starts.ref op').symm.trans holds)
      obtain ⟨attempts, present, -⟩ := tracks.new pointer
      refine ⟨_, present, ?_⟩
      rcases starts.opType op' with none | same
      · cases none.symm.trans typed
      · exact mem_unique same typed
  · rw [shape]
    intro pc member op holds after
    rcases mem_goroutines_request member with old | ⟨op', -, rfl⟩
    · exact (inv.canceled pc old op holds after).tracks tracks (fun o o' _ _ kept canceled => kept canceled)
    · cases (starts.afterCancel op').symm.trans after
  · rw [shape]
    intro pc member op holds after
    rcases mem_goroutines_request member with old | ⟨op', -, rfl⟩
    · exact (inv.done pc old op holds after).tracks tracks (fun o o' _ same _ done => same.trans done)
    · cases (starts.afterDone op').symm.trans after
  · rw [shape]
    exact inv.untracked.request tracks

section

variable {g : ℕ} {pc : Pc} {effect : Tracker.Effect}

theorem mem_buffer_commit (flow : Flow spt pc effect) {ch : OpChannel}
    (member : op ∈ ((spt.commit g effect).chans ch).buffer) :
    op ∈ (spt.chans ch).buffer ∨ pc.ref = some op ∧ pc.opType = some ch.opType := by
  cases flow with
  | drop chan | keep chan =>
    simp only [commit, chan] at member
    exact .inl member
  | take ch' op' rest chan buffer =>
    simp only [commit, chan] at member
    left
    by_cases same : ch = ch'
    · subst same
      rw [update_self] at member
      rw [buffer]
      exact mem_cons_of_mem _ member
    · rwa [update_of_ne same] at member
  | put ch' op' filled chan buffer holds typed =>
    simp only [commit, chan] at member
    by_cases same : ch = ch'
    · subst same
      rw [update_self, buffer] at member
      rcases mem_append.mp member with old | new
      · exact .inl old
      · exact .inr ⟨by rw [holds, mem_singleton.mp new], typed⟩
    · rw [update_of_ne same] at member
      exact .inl member

variable (inv : WorkInv spt)

include inv

section

variable (mine : pc ∈ spt.goroutines)

include mine

theorem WorkInv.heldTyped_next (flow : Flow spt pc effect) (holds : effect.next.ref = some op)
    (typed : effect.next.opType = some typ) : Holds spt.optracker op (·.opType = typ) := by
  cases flow with
  | drop _ gone | put _ _ _ _ _ _ _ gone => cases gone.symm.trans holds
  | keep _ same sameType =>
    rcases sameType with none | sameType
    · cases none.symm.trans typed
    · exact inv.heldTyped pc mine op typ (same ▸ holds) (sameType ▸ typed)
  | take ch op' rest _ buffer _ taken ofChannel =>
    obtain rfl := mem_unique taken holds
    obtain rfl := mem_unique ofChannel typed
    exact inv.queuedTyped ch op' (buffer ▸ mem_cons_self ..)

theorem WorkInv.canceled_next (spec : StepSpec spt pc effect) (holds : effect.next.ref = some op)
    (after : effect.next.afterCancel = true) : Holds (spt.optracker.apply effect.action) op (·.canceled = true) := by
  obtain ⟨same, before | ⟨op', holds', cancels⟩⟩ := spec.canceled after
  · exact (inv.canceled pc mine op (same ▸ holds) before).apply effect.action
      (fun o canceled _ => effect.action.write_canceled canceled)
  · obtain rfl := some.inj ((same ▸ holds).symm.trans holds')
    obtain ⟨o, present⟩ := inv.present mine holds'
    rw [cancels]
    exact .of_write present rfl rfl

theorem WorkInv.done_next (spec : StepSpec spt pc effect) (holds : effect.next.ref = some op)
    (after : effect.next.afterDone = true) : Holds (spt.optracker.apply effect.action) op (·.phase = .done) := by
  obtain ⟨same, ⟨before, op', cancels⟩ | ⟨op', now, holds', sets⟩⟩ := spec.done after
  · refine (inv.done pc mine op (same ▸ holds) before).apply effect.action (fun o done _ => ?_)
    rw [cancels]
    exact done
  · obtain rfl := some.inj ((same ▸ holds).symm.trans holds')
    obtain ⟨o, present⟩ := inv.present mine holds'
    rw [sets]
    exact .of_write present rfl rfl

end

theorem WorkInv.commit (here : spt.goroutines[g]? = some pc) (spec : StepSpec spt pc effect) :
    WorkInv (spt.commit g effect) := by
  have mine : pc ∈ spt.goroutines := mem_of_getElem? here
  have others {other : Pc} (member : other ∈ spt.goroutines.eraseIdx g) : other ∈ spt.goroutines :=
    mem_of_mem_eraseIdx member
  have fewer := tokens_commit here spec.flow
  constructor
  · exact Multiset.nodup_of_le fewer inv.owned
  · intro op member
    exact (length_apply spt.optracker effect.action).symm ▸ inv.allocated op (Multiset.mem_of_le fewer member)
  · intro ch op member
    refine Holds.apply effect.action (fun o typed _ => by rwa [Action.write_opType]) ?_
    rcases mem_buffer_commit spec.flow member with old | ⟨holds, typed⟩
    · exact inv.queuedTyped ch op old
    · exact inv.heldTyped pc mine op _ holds typed
  · intro next member op typ holds typed
    refine Holds.apply effect.action (fun o typed _ => by rwa [Action.write_opType]) ?_
    rcases mem_goroutines_commit here member with rfl | other
    · exact inv.heldTyped_next mine spec.flow holds typed
    · exact inv.heldTyped next (others other) op typ holds typed
  · intro next member op holds after
    rcases mem_goroutines_commit here member with rfl | other
    · exact inv.canceled_next mine spec holds after
    · exact (inv.canceled next (others other) op holds after).apply effect.action
        (fun o canceled _ => effect.action.write_canceled canceled)
  · intro next member op holds after
    rcases mem_goroutines_commit here member with rfl | other
    · exact inv.done_next mine spec holds after
    · refine (inv.done next (others other) op holds after).apply effect.action (fun o done hit => ?_)
      rcases spec.own with none | same
      · cases none.symm.trans hit
      · exact ((exclusive inv.owned here (same ▸ hit)).1 next other holds).elim
  · refine inv.untracked.apply effect.action (fun ref cleans op present => ?_)
    obtain ⟨after, -⟩ := spec.cleans ref cleans
    obtain ⟨o, present', canceled⟩ := inv.canceled pc mine ref (spec.holds_of_cleans cleans) after
    obtain rfl := mem_unique present present'
    exact canceled

end

theorem WorkInv.step (inv : WorkInv spt) (step : stateless.step spt event = some next) : WorkInv next := by
  cases stepped_of_step step with
  | idle _ same =>
    rw [same]
    exact inv
  | shutdown _ same =>
    rw [same]
    exact { inv with }
  | request pin typ ph now start _ starts same =>
    rw [same]
    exact inv.request pin typ ph now starts
  | run g input pc effect _ here steps same =>
    rw [same]
    exact inv.commit here (pcStep_spec steps)

theorem idle_of_new {config : Config} {pid : PeerID} {peerName : String}
    (member : pc ∈ (new config pid peerName).goroutines) : ∃ pinF, pc = .pollPriority pinF := by
  rcases mem_append.mp member with worker | worker
  · exact ⟨.pin, eq_of_mem_replicate worker⟩
  · exact ⟨.unpin, mem_singleton.mp worker⟩

theorem workInv_new (config : Config) (pid : PeerID) (peerName : String) : WorkInv (new config pid peerName) := by
  have free : ∀ pc ∈ (new config pid peerName).goroutines, ∀ op, pc.ref ≠ some op := by
    intro pc member
    obtain ⟨pinF, rfl⟩ := idle_of_new member
    exact nofun
  have nothing : tokens (new config pid peerName) = 0 := by
    rw [tokens, held, filterMap_eq_nil_iff.mpr fun pc member => eq_none_iff_forall_ne_some.mpr (free pc member)]
    rfl
  constructor
  · rw [nothing]
    exact Multiset.nodup_zero
  · rw [nothing]
    exact fun op member => (Multiset.notMem_zero op member).elim
  · exact fun ch op member => (not_mem_nil member).elim
  · exact fun pc member op typ holds => (free pc member op holds).elim
  · exact fun pc member op holds => (free pc member op holds).elim
  · exact fun pc member op holds => (free pc member op holds).elim
  · exact fun ref op present => by cases present

theorem workInv_of_run {config : Config} {pid : PeerID} {peerName : String} {events : List Event}
    (ran : stateless.run (.new config pid peerName) events = some next) : WorkInv next :=
  LabeledMachine.invariant_of_run WorkInv (fun _ _ _ inv step => inv.step step) (workInv_new config pid peerName) ran

end

structure Renewed (before after : OperationTracker) (items : List (OperationType × Cid)) : Prop where
  untouched : ∀ c ∉ items.map Prod.snd, after.find c = before.find c
  renewed : ∀ item ∈ items, ∃ ref op, after.find item.2 = some (ref, op) ∧ op.opType = item.1 ∧
    op.phase = .queued ∧ op.canceled = false

structure Sent (before after : Tracker) (items : List (OperationType × Cid)) : Prop where
  limits : ∀ ch, (after.chans ch).capacity = (before.chans ch).capacity ∧ (after.chans ch).closed = (before.chans ch).closed
  added : ∀ ch, ∃ added, (after.chans ch).buffer = (before.chans ch).buffer ++ added ∧
    added.length ≤ items.countP (·.1 = ch.opType) ∧
    ∀ ref ∈ added, ∃ op, after.optracker.heap[ref]? = some op ∧ (op.opType, op.cid) ∈ items
  present : ∀ item ∈ items, ∃ ch ref, OpChannel.opType ch = item.1 ∧
    ref ∈ (after.chans ch).buffer.drop (before.chans ch).buffer.length ∧
    after.optracker.operations.lookup item.2 = some ref

section

variable {before t : OperationTracker} {items : List (OperationType × Cid)} {typ : OperationType} {pin : Pin} {now : Time}
  {result : Option OpRef × OperationTracker} {ref : OpRef}

theorem Renewed.refl (t : OperationTracker) : Renewed t t [] where
  untouched _ _ := rfl
  renewed _ member := (not_mem_nil member).elim

theorem Renewed.tracks (renewed : Renewed before t items) (tracks : Tracks t pin typ .queued now result)
    (pointer : result.1 = some ref) (fresh : pin.cid ∉ items.map Prod.snd) :
    Renewed before result.2 (items ++ [(typ, pin.cid)]) where
  untouched := by
    intro c other
    rw [map_append, mem_append, not_or, map_singleton, mem_singleton] at other
    rw [tracks.find_of_ne other.2]
    exact renewed.untouched c other.1
  renewed := by
    intro item member
    rcases mem_append.mp member with old | new
    · have other : item.2 ≠ pin.cid := fun same => fresh (same ▸ mem_map_of_mem old)
      rw [tracks.find_of_ne other]
      exact renewed.renewed item old
    · obtain rfl := mem_singleton.mp new
      obtain ⟨attempts, present, tracked⟩ := tracks.new pointer
      exact ⟨ref, _, find_of_lookup tracked present, rfl, rfl, rfl⟩

theorem Renewed.setPriorityPin (renewed : Renewed before t items) {c : Cid} {p : Bool}
    (tracked : t.operations.lookup c = some ref) (member : c ∈ items.map Prod.snd) :
    Renewed before (t.apply (.setPriorityPin ref p)) items where
  untouched := by
    intro c' other
    rw [find_apply (by intro at' same; cases same)]
    cases found : t.find c' with
    | none => rw [← renewed.untouched c' other, found, map_none]
    | some entry =>
      have differs : ref ≠ entry.1 := by
        rintro rfl
        obtain ⟨-, present, same⟩ := t.find_eq_some found
        exact other (same ▸ (cid_of_lookup tracked present).symm ▸ member)
      rw [← renewed.untouched c' other, found, map_some, if_neg]
      exact fun same => differs (some.inj same)
  renewed := by
    intro item restarted
    obtain ⟨at', op, found, typed, queued, running⟩ := renewed.renewed item restarted
    rw [find_apply (by intro at'' same; cases same), found]
    refine ⟨at', _, rfl, ?_, ?_, ?_⟩
    all_goals
      dsimp only
      split <;> assumption

end

section

variable {before spt : Tracker} {items : List (OperationType × Cid)} {ref : OpRef}

theorem Sent.refl (spt : Tracker) : Sent spt spt [] where
  limits _ := ⟨rfl, rfl⟩
  added _ := ⟨[], (append_nil _).symm, Nat.zero_le _, fun _ member => (not_mem_nil member).elim⟩
  present _ member := (not_mem_nil member).elim

theorem Sent.of_optracker (sent : Sent before spt items) {next : Tracker} (chans : next.chans = spt.chans)
    (keeps : ∀ (ref : OpRef) (op : Operation), spt.optracker.heap[ref]? = some op →
      ∃ op', next.optracker.heap[ref]? = some op' ∧ op'.opType = op.opType ∧ op'.cid = op.cid)
    (lookup : ∀ item ∈ items, next.optracker.operations.lookup item.2 = spt.optracker.operations.lookup item.2) :
    Sent before next items where
  limits ch := by
    rw [chans]
    exact sent.limits ch
  added ch := by
    obtain ⟨added, buffer, count, members⟩ := sent.added ch
    refine ⟨added, by rw [chans, buffer], count, fun ref member => ?_⟩
    obtain ⟨op, present, restarted⟩ := members ref member
    obtain ⟨op', present', sameType, sameCid⟩ := keeps ref op present
    refine ⟨op', present', ?_⟩
    rwa [sameType, sameCid]
  present := by
    intro item member
    obtain ⟨ch, ref, typed, onChannel, tracked⟩ := sent.present item member
    refine ⟨ch, ref, typed, ?_, ?_⟩
    · rwa [chans]
    · rwa [lookup item member]

theorem chans_of_trySend {chans : OpChannel → Chan OpRef} {ch : OpChannel} {filled : Chan OpRef}
    (sends : (chans ch).trySend ref = some filled) (ch' : OpChannel) :
    (update chans ch filled ch').buffer = (chans ch').buffer ++ (if ch' = ch then [ref] else []) ∧
      (update chans ch filled ch').capacity = (chans ch').capacity ∧
      (update chans ch filled ch').closed = (chans ch').closed := by
  obtain ⟨buffer, notClosed, capacity⟩ := Chan.trySend_eq_some sends
  have wasOpen := (Chan.trySend_isSome_iff.mp (isSome_of_eq_some sends)).2
  by_cases here : ch' = ch
  · subst here
    rw [update_self, if_pos rfl]
    exact ⟨buffer, capacity, notClosed.trans wasOpen.symm⟩
  · rw [update_of_ne here, if_neg here, append_nil]
    exact ⟨rfl, rfl, rfl⟩

theorem Sent.send (sent : Sent before spt items) {ch : OpChannel} {filled : Chan OpRef} {op : Operation} {next : Tracker}
    (sends : (spt.chans ch).trySend ref = some filled) (chans : next.chans = update spt.chans ch filled)
    (same : next.optracker = spt.optracker) (present : spt.optracker.heap[ref]? = some op) (typed : ch.opType = op.opType)
    (tracked : spt.optracker.operations.lookup op.cid = some ref) :
    Sent before next (items ++ [(op.opType, op.cid)]) where
  limits := by
    intro ch'
    obtain ⟨-, capacity, closed⟩ := chans_of_trySend sends ch'
    rw [chans, capacity, closed]
    exact sent.limits ch'
  added := by
    intro ch'
    obtain ⟨added, buffer, count, members⟩ := sent.added ch'
    refine ⟨added ++ (if ch' = ch then [ref] else []), ?_, ?_, ?_⟩
    · rw [chans, (chans_of_trySend sends ch').1, buffer, append_assoc]
    · rw [length_append, countP_append]
      by_cases here : ch' = ch
      · subst here
        rw [if_pos rfl, countP_singleton, if_pos (by simp [typed]), length_singleton]
        omega
      · rw [if_neg here, length_nil]
        omega
    · intro ref' member
      rw [same]
      rcases mem_append.mp member with earlier | last
      · obtain ⟨op', present', restarted⟩ := members ref' earlier
        exact ⟨op', present', mem_append_left _ restarted⟩
      · obtain rfl : ref' = ref := by
          split at last
          · exact mem_singleton.mp last
          · exact (not_mem_nil last).elim
        exact ⟨op, present, mem_append_right _ (mem_singleton_self _)⟩
  present := by
    intro item member
    rw [chans, same]
    rcases mem_append.mp member with earlier | last
    · obtain ⟨ch', ref', typed', onChannel, tracked'⟩ := sent.present item earlier
      refine ⟨ch', ref', typed', ?_, tracked'⟩
      rw [(chans_of_trySend sends ch').1, drop_append]
      exact mem_append_left _ onChannel
    · obtain rfl := mem_singleton.mp last
      obtain ⟨added, buffer, -, -⟩ := sent.added ch
      refine ⟨ch, ref, typed, ?_, tracked⟩
      rw [(chans_of_trySend sends ch).1, buffer, append_assoc, drop_left, if_pos rfl]
      exact mem_append_right _ (mem_singleton_self _)

end

end IpfsCluster.Proofs.PinTracker

import IpfsCluster.Model.Raft.LogOp
import IpfsCluster.Soundness.Datastore

/-! # Replicas of the pinset

A state of a peer holds the pins that the first operations of the log leave, as many as the peer has applied, also after
a restart with the snapshot of any peer. So peers that have applied as much have the same pins.
-/

namespace IpfsCluster.Soundness

open Model Model.Api Model.Dsstate Model.Raft Golang Datastore Machine Proofs.State AList DsState List

variable {codec : CidKeyCodec} {β : Type} {handle : Handle β}

def replayOp (pinset : DsState) (op : LogOp) : DsState :=
  if op.type = logOpPin then pinset.add op.cid
  else if op.type = logOpUnpin then pinset.rm op.cid.cid
  else pinset

/-- The pins that a sequence of operations leaves. -/
def replay (ops : List LogOp) : DsState := ops.foldl replayOp {}

/-- The state has the pins that the first operations of a log leave. -/
structure Replays (codec : CidKeyCodec) (log : List LogOp) (count : ℕ) (st : Dsstate.State) : Prop where
  within : count ≤ log.length
  get : ∀ c, st.get codec c = (replay (log.take count)).get c
  list : ∀ order, (st.list codec order).1.Perm (replay (log.take count)).list

/-- An operation that pins has a CID. -/
def PinsCid (_ : Replication β) : ReplicationEvent → Prop
  | .commitOp op => op.type = logOpPin → op.cid.cid.defined = true
  | _ => True

/-- The namespace represents the pins of the first operations; its counter of pins starts over with every restart. -/
structure Applied (codec : CidKeyCodec) (log : List LogOp) (count : ℕ) (st : Dsstate.State) : Prop where
  within : count ≤ log.length
  represents : ∃ abstract, Represents codec st abstract ∧ abstract.store = (replay (log.take count)).store

section

variable {log : List LogOp} {count : ℕ} {st : Dsstate.State}

theorem Applied.replays (laws : KeyLaws codec) (applied : Applied codec log count st) : Replays codec log count st := by
  obtain ⟨within, abstract, represents, same⟩ := applied
  refine ⟨within, fun c => (represents.get laws c).trans ?_, fun order => (represents.list laws order).trans ?_⟩
  · simp only [DsState.get, same]
  · rw [list, list, same]

theorem Applied.append (applied : Applied codec log count st) (op : LogOp) : Applied codec (log ++ [op]) count st := by
  refine ⟨applied.within.trans (by simp), ?_⟩
  rw [take_append_of_le_length applied.within]
  exact applied.represents

theorem Applied.next (laws : KeyLaws codec) (applied : Applied codec log count st) {op : LogOp}
    (found : log[count]? = some op) (isCid : op.type = logOpPin → op.cid.cid.defined = true) {after : Dsstate.State}
    (result : (op.applyTo codec none st).1 = .ok after) : Applied codec log (count + 1) after := by
  obtain ⟨-, abstract, represents, same⟩ := applied
  obtain ⟨inside, -⟩ := List.getElem?_eq_some_iff.mp found
  refine ⟨inside, ?_⟩
  rw [take_add_one, found, Option.toList_some, replay, foldl_append, foldl_cons, foldl_nil, ← replay]
  unfold LogOp.applyTo at result
  unfold replayOp
  split at result
  next pins =>
    cases result
    exact ⟨_, represents.add laws (isCid pins), by rw [if_pos pins, add, add, same]⟩
  next notPin =>
    split at result
    next unpins =>
      cases result
      exact ⟨_, represents.rm laws _, by rw [if_neg notPin, if_pos unpins, rm, rm, same]⟩
    next unknown =>
      cases result
      exact ⟨abstract, represents, by rw [if_neg notPin, if_neg unknown, same]⟩

/-- A snapshot is read into an empty state of any namespace. -/
theorem Applied.restore (laws : KeyLaws codec) (inverse : InverseHandle handle) (applied : Applied codec log count st)
    {target : Dsstate.State} (vacant : Vacant target) (order : MapOrder) :
    ∃ loaded, offlineState handle target (some (st.marshal handle order)) = .ok loaded ∧
      Applied codec log count loaded := by
  obtain ⟨within, abstract, represents, same⟩ := applied
  refine ⟨copied codec order st target, ?_, within, ⟨abstract.store, target.totalPins⟩, ?_, same⟩
  · rw [offlineState, unmarshal_marshal_eq inverse laws represents.contents]
  · exact {
      contents := contents_copied laws represents.contents vacant order
      lookup c defined := (lookup_copied laws represents.contents vacant order defined).trans (represents.lookup c defined)
      defined := represents.defined
      totalPins := rfl }

end

/-- What holds of the replicas and of the snapshots in every run. -/
structure ReplicationInv (codec : CidKeyCodec) (handle : Handle β) (s : Replication β) : Prop where
  pins : ∀ op ∈ s.log, op.type = logOpPin → op.cid.cid.defined = true
  peers : ∀ peer, Applied codec s.log (s.peers peer).applied (s.peers peer).state
  snapshots : ∀ snapshot ∈ s.snapshots, ∃ st order,
    snapshot.bytes = st.marshal handle order ∧ Applied codec s.log snapshot.index st

section

variable {s next : Replication β} {event : ReplicationEvent}

theorem ReplicationInv.update (inv : ReplicationInv codec handle s) {replica : Replica} (peer : PeerID)
    (applied : Applied codec s.log replica.applied replica.state) :
    ReplicationInv codec handle { s with peers := Function.update s.peers peer replica } := by
  refine ⟨inv.pins, fun other => ?_, inv.snapshots⟩
  by_cases same : other = peer
  · subst same
    simpa only [Function.update_self] using applied
  · simpa only [Function.update_of_ne same] using inv.peers other

theorem ReplicationInv.step (laws : KeyLaws codec) (inverse : InverseHandle handle)
    (inv : ReplicationInv codec handle s) (pinsCid : PinsCid s event)
    (step : (replication codec handle).step s event = some next) : ReplicationInv codec handle next := by
  cases event with
  | commitOp op =>
    cases step
    refine ⟨?_, fun peer => (inv.peers peer).append op, fun snapshot member => ?_⟩
    · simpa [or_imp, forall_and] using ⟨inv.pins, pinsCid⟩
    · obtain ⟨st, order, bytes, applied⟩ := inv.snapshots snapshot member
      exact ⟨st, order, bytes, applied.append op⟩
  | apply peer =>
    simp only [replication] at step
    split at step
    · cases step
    next op found =>
      split at step
      · cases step
      next state result =>
        cases step
        exact inv.update peer ((inv.peers peer).next laws found (inv.pins op (mem_of_getElem? found)) result)
  | snapshot peer order =>
    cases step
    refine ⟨inv.pins, inv.peers, fun snapshot member => ?_⟩
    rcases mem_append.mp member with old | new
    · exact inv.snapshots snapshot old
    · cases mem_singleton.mp new
      exact ⟨_, order, rfl, inv.peers peer⟩
  | restart peer taken =>
    simp only [replication] at step
    split at step
    · cases step
    next snapshot found =>
      obtain ⟨st, order, bytes, applied⟩ := inv.snapshots snapshot (mem_of_getElem? found)
      obtain ⟨loaded, read, isApplied⟩ := applied.restore laws inverse (vacant_empty (s.peers peer).state.ns) order
      rw [bytes, read] at step
      cases step
      exact inv.update peer isApplied

end

/-- In every order of commits, applications, snapshots and restarts, the state of each peer has the pins that its part of
the log leaves, and so has the state that is read from a snapshot into an empty datastore under any namespace. -/
theorem replicas_replay_log (laws : KeyLaws codec) (inverse : InverseHandle handle) {ns : PeerID → Key}
    {events : List ReplicationEvent} {s : Replication β}
    (meets : (replication codec handle).Meets PinsCid (.new β ns) events)
    (ran : (replication codec handle).run (.new β ns) events = some s) :
    (∀ peer, Replays codec s.log (s.peers peer).applied (s.peers peer).state) ∧
      ∀ snapshot ∈ s.snapshots, ∀ target, Vacant target → ∃ loaded,
        offlineState handle target (some snapshot.bytes) = .ok loaded ∧ Replays codec s.log snapshot.index loaded := by
  have start : ReplicationInv codec handle (.new β ns) :=
    ⟨nofun, fun peer => ⟨le_rfl, {}, represents_vacant codec (vacant_empty _) rfl, rfl⟩, nofun⟩
  have inv := LabeledMachine.invariant_of_meets (ReplicationInv codec handle)
    (fun _ _ _ inv pinsCid step => inv.step laws inverse pinsCid step) start meets ran
  refine ⟨fun peer => (inv.peers peer).replays laws, fun snapshot member target vacant => ?_⟩
  obtain ⟨st, order, bytes, applied⟩ := inv.snapshots snapshot member
  obtain ⟨loaded, read, isApplied⟩ := applied.restore laws inverse vacant order
  exact ⟨loaded, bytes ▸ read, isApplied.replays laws⟩

/-- One pin is committed and applied by `a`, and `b` starts with the snapshot of `a`. -/
def startedFromSnapshot : List ReplicationEvent :=
  [.commitOp ⟨{ cid := ⟨"A"⟩, type := PinType.dataType, maxDepth := -1 }, logOpPin⟩, .apply "a", .snapshot "a" .stored,
    .restart "b" 0]

theorem replicas_replay_log_started : ∃ s, (replication numberedKeys plainHandle).run (.new _ Key.ofString)
    startedFromSnapshot = some s ∧ ∀ peer, Replays numberedKeys s.log (s.peers peer).applied (s.peers peer).state := by
  have completes : ((replication numberedKeys plainHandle).run (.new _ Key.ofString) startedFromSnapshot).isSome = true := by
    decide +kernel
  obtain ⟨s, ran⟩ := Option.isSome_iff_exists.mp completes
  have pinsCid : ∀ event ∈ startedFromSnapshot, ∀ s : Replication SerialEntry, PinsCid s event := by
    simp [startedFromSnapshot, PinsCid, Cid.defined]
  have inverse : InverseHandle plainHandle := ⟨fun _ _ => rfl, rfl⟩
  exact ⟨s, ran, (replicas_replay_log numberedKeys_laws inverse (LabeledMachine.meets_of_forall pinsCid _) ran).1⟩

end IpfsCluster.Soundness

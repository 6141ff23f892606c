import IpfsCluster.Proofs.PinTracker.Recover
import IpfsCluster.Soundness.Status

/-! # What `RecoverAll` recovers

`RecoverAll` returns in a bounded number of steps under any interleaving of its two goroutines, and has then restarted
what the statuses that `StatusAll` lists ask for.
-/

namespace IpfsCluster.Soundness

open Model Model.Api Model.PinTracker Model.IpfsConn Proofs.PinTracker Proofs.IpfsConn Option TrackerStatus

/-- What a status asks for: a pin operation if the CID is in the pinset, or an unpin operation. -/
def AskedFor (st : DsState) (status : TrackerStatus) (typ : OperationType) (c : Cid) : Prop :=
  restart status = some typ ∧ (typ = .pin → ∃ pin, st.get c = .ok pin)

/-- A new operation is tracked for the CID and waits on a channel of its type. -/
def Reenqueued (before after : Tracker) (typ : OperationType) (c : Cid) : Prop :=
  ∃ ch ref op, OpChannel.opType ch = typ ∧ ref ∈ (after.chans ch).buffer.drop (before.chans ch).buffer.length ∧
    after.optracker.find c = some (ref, op) ∧ op.opType = typ ∧ op.phase = .queued ∧ op.canceled = false

/-- Everything that the statuses ask for was enqueued, and nothing else was. -/
structure Recovered (before after : Tracker) (st : DsState) (status : Cid → TrackerStatus) : Prop where
  failed : ∀ typ c, AskedFor st (status c) typ c → Reenqueued before after typ c
  others : ∀ ch, ∀ ref ∈ (after.chans ch).buffer.drop (before.chans ch).buffer.length,
    ∃ op, after.optracker.heap[ref]? = some op ∧ AskedFor st (status op.cid) op.opType op.cid

/-- `RecoverAll` cannot run forever or get stuck, and when it returns it has recovered without an error. -/
structure RecoversAll (spt : Tracker) (st : DsState) (ipfs : Connector) (ipfsid : IPFSID) (now : Time) : Prop where
  returns : ∃ bound, ∀ events s, (recoverAll ⟨.ok st, ipfs, ipfsid⟩).run { spt := spt } events = some s →
    events.length ≤ bound ∧ ((∀ err, s.recover ≠ .returned err) →
      ∃ event, ((recoverAll ⟨.ok st, ipfs, ipfsid⟩).step s event).isSome = true)
  recovered : ∀ events s err, (recoverAll ⟨.ok st, ipfs, ipfsid⟩).run { spt := spt } events = some s →
    s.recover = .returned err → err = none ∧
      Recovered spt s.spt st fun c => (spt.status (.ok st) ipfs ipfsid now c).status

def toRestart (infos : List PinInfo) : List (OperationType × Cid) :=
  infos.filterMap fun info => (restart info.status).map fun typ => (typ, info.cid)

section

variable {spt : Tracker} {st : DsState} {ipfs : Connector} {pinset : IPFSPinset} {ipfsid : IPFSID} {now : Time}
  {events : List RecoverEvent} {s : RecoverAll}

theorem toRestart_statusAll (truthful : Truthful ipfs pinset) :
    toRestart (spt.statusAll (.ok st) ipfs ipfsid undefined).1 =
      restarts (spt.statusOf ipfsid (listing pinset)) st.list := by
  rw [statusAll_undefined truthful, toRestart, List.filterMap_map]
  refine List.filterMap_congr fun p _ => ?_
  rw [Function.comp_apply, statusOf_cid]

section

variable (truthful : Truthful ipfs pinset) (running : spt.done = false)
  (room : Room spt (restarts (spt.statusOf ipfsid (listing pinset)) st.list))
  (ran : (recoverAll ⟨.ok st, ipfs, ipfsid⟩).run { spt := spt } events = some s)

include truthful running room ran

theorem inRecovery_of_run : InRecovery spt st (listing pinset) (spt.statusOf ipfsid (listing pinset)) s :=
  Machine.LabeledMachine.invariant_of_run _ (fun _ _ _ inv stepped => (inv.step truthful running room stepped).1)
    ⟨[], [], st.list, recovering_start ..⟩ ran

theorem length_le_of_recoverAll : events.length ≤ 6 * st.list.length + 3 := by
  have bound := Machine.LabeledMachine.length_le_of_run _ (rank st)
    (fun _ _ _ inv stepped => InRecovery.step truthful running room inv stepped)
    ⟨[], [], st.list, recovering_start spt st (listing pinset) (spt.statusOf ipfsid (listing pinset))⟩ ran
  have start : rank st { spt := spt } = 6 * st.list.length + 2 + 4 * 0 + 1 := rfl
  omega

theorem restarted_of_returned {err : Option String} (returned : s.recover = .returned err) :
    err = none ∧ Renewed spt.optracker s.spt.optracker (restarts (spt.statusOf ipfsid (listing pinset)) st.list) ∧
      Sent spt s.spt (restarts (spt.statusOf ipfsid (listing pinset)) st.list) := by
  obtain ⟨dealt, queued, unread, split, -, -, -, -, renewed, recoverAt⟩ := inRecovery_of_run truthful running room ran
  rw [returned] at recoverAt
  generalize rest : queued ++ unread = others at recoverAt
  cases recoverAt with
  | returned _ sent =>
    rw [rest, List.append_nil] at split
    rw [split]
    exact ⟨rfl, renewed, sent⟩

end

theorem recovered_iff {after : Tracker} {items : List (OperationType × Cid)} {status : Cid → TrackerStatus}
    (renewed : Renewed spt.optracker after.optracker items) (sent : Sent spt after items) :
    Recovered spt after st status ↔ ∀ typ c, (typ, c) ∈ items ↔ AskedFor st (status c) typ c := by
  have waiting (typ : OperationType) (c : Cid) (member : (typ, c) ∈ items) : Reenqueued spt after typ c := by
    obtain ⟨ref, op, found, typed, queued, running⟩ := renewed.renewed (typ, c) member
    obtain ⟨ch, ref', chType, onChannel, tracked⟩ := sent.present (typ, c) member
    obtain rfl := some.inj (tracked.symm.trans (after.optracker.find_eq_some found).1)
    exact ⟨ch, ref', op, chType, onChannel, found, typed, queued, running⟩
  have restarted (ch : OpChannel) (ref : OpRef)
      (onChannel : ref ∈ (after.chans ch).buffer.drop (spt.chans ch).buffer.length) :
      ∃ op, after.optracker.heap[ref]? = some op ∧ (op.opType, op.cid) ∈ items := by
    obtain ⟨added, buffer, -, members⟩ := sent.added ch
    rw [buffer, List.drop_left] at onChannel
    exact members ref onChannel
  constructor
  · rintro ⟨failed, others⟩ typ c
    constructor
    · intro member
      obtain ⟨ch, ref, op, -, onChannel, found, rfl, -⟩ := waiting typ c member
      obtain ⟨-, present, rfl⟩ := after.optracker.find_eq_some found
      obtain ⟨op', present', asked⟩ := others ch ref onChannel
      obtain rfl := mem_unique present present'
      exact asked
    · intro asked
      obtain ⟨ch, ref, op, -, onChannel, found, rfl, -⟩ := failed typ c asked
      obtain ⟨-, present, rfl⟩ := after.optracker.find_eq_some found
      obtain ⟨op', present', member⟩ := restarted ch ref onChannel
      obtain rfl := mem_unique present present'
      exact member
  · intro same
    refine ⟨fun typ c asked => waiting typ c ((same typ c).mpr asked), fun ch ref onChannel => ?_⟩
    obtain ⟨op, present, member⟩ := restarted ch ref onChannel
    exact ⟨op, present, (same _ _).mp member⟩

end

section

variable {spt : Tracker} {st : DsState} {ipfs : Connector} {pinset : IPFSPinset} {ipfsid : IPFSID} {now : Time}

theorem restart_of_absent {c : Cid} (untracked : Untracked spt c) (absent : ∀ pin, st.get c ≠ .ok pin) :
    restart (spt.status (.ok st) ipfs ipfsid now c).status = none := by
  rw [Tracker.status, getExists_of_untracked untracked]
  dsimp only
  cases read : st.get c with
  | ok pin => exact (absent pin read).elim
  | error err =>
    cases err with
    | notFound => exact show restart unpinned = none by decide
    | text err => exact show restart clusterError = none by decide

/-- The status found by the listing of the pins in IPFS asks for the same as the one found by the CID. -/
def ModeListed (spt : Tracker) (pinset : IPFSPinset) (p : Pin) : Prop :=
  Untracked spt p.cid → ¬ Elsewhere spt p →
    (p.defined = true → p.maxDepth ≠ 0 ∨ (p.cid ∈ pinset.recursive ↔ p.cid ∈ pinset.direct)) ∧
    (p.defined = false → p.cid ∈ pinset.recursive)

theorem restart_eq_iff (ipfsid : IPFSID) (now : Time) (truthful : Truthful ipfs pinset) {p : Pin} (member : p ∈ st.list) :
    restart (spt.statusOf ipfsid (listing pinset) p).status =
        restart (spt.status (.ok st) ipfs ipfsid now p.cid).status ↔ ModeListed spt pinset p := by
  by_cases untracked : Untracked spt p.cid
  · have noOperation := @getExists_of_untracked spt ipfsid p.cid untracked
    by_cases elsewhere : Elsewhere spt p
    · refine iff_of_true (congrArg restart ?_) fun _ here => (here elsewhere).elim
      rw [status_of_elsewhere noOperation member elsewhere, Tracker.statusOf, noOperation, getD_none,
        statePinInfo_status_of_elsewhere elsewhere]
    · rw [statusOf_of_untracked noOperation elsewhere]
      simp only [ModeListed, untracked, elsewhere, not_false_eq_true, true_implies]
      have pinned : restart pinned = none := by decide
      have unpinned : restart unexpectedlyUnpinned = some .pin := by decide
      cases defined : p.defined with
      | false =>
        have unknown : restart clusterError = none := by decide
        rw [status_of_notDefined noOperation member elsewhere defined, unknown]
        by_cases inRecursive : p.cid ∈ pinset.recursive <;> simp [inRecursive, pinned, unpinned]
      | true =>
        rw [status_of_truthful truthful noOperation member elsewhere defined]
        by_cases direct : p.maxDepth = 0 <;> by_cases inRecursive : p.cid ∈ pinset.recursive <;>
          by_cases inDirect : p.cid ∈ pinset.direct <;> simp [direct, inRecursive, inDirect, pinned, unpinned]
  · refine iff_of_true (congrArg restart ?_) fun absent => (untracked absent).elim
    obtain ⟨op, tracked, same⟩ := exists_of_not_untracked untracked
    rw [statusOf_of_tracked tracked same, ← same, status_of_tracked tracked]
    rfl

theorem mem_restarts_of_listed {info : Pin → PinInfo} {p : Pin} (member : p ∈ st.list) {typ : OperationType} :
    (typ, p.cid) ∈ restarts info st.list ↔ restart (info p).status = some typ := by
  rw [mem_restarts_iff]
  constructor
  · rintro ⟨q, listed, failed, same⟩
    have read := get_of_mem_list listed
    rw [same, get_of_mem_list member] at read
    rwa [Except.ok.inj read]
  · intro failed
    exact ⟨p, member, failed, rfl⟩

theorem askedFor_iff (ipfsid : IPFSID) (now : Time) (truthful : Truthful ipfs pinset) :
    (∀ typ c, (typ, c) ∈ restarts (spt.statusOf ipfsid (listing pinset)) st.list ↔
      AskedFor st (spt.status (.ok st) ipfs ipfsid now c).status typ c) ↔
      (∀ op ∈ spt.outside st, op.toTrackerStatus ≠ unpinError) ∧ ∀ p ∈ st.list, ModeListed spt pinset p := by
  constructor
  · intro same
    constructor
    · intro op outside failed
      obtain ⟨tracked, absent⟩ := mem_outside_iff.mp outside
      have asked : AskedFor st (spt.status (.ok st) ipfs ipfsid now op.cid).status .unpin op.cid := by
        refine ⟨?_, nofun⟩
        rw [status_of_tracked tracked, failed]
        decide
      obtain ⟨p, listed, -, sameCid⟩ := mem_restarts_iff.mp ((same _ _).mpr asked)
      exact absent p listed sameCid
    · intro p listed
      refine (restart_eq_iff ipfsid now truthful listed).mp (Option.ext fun typ => ?_)
      have asked := same typ p.cid
      rw [mem_restarts_of_listed listed] at asked
      exact asked.trans (and_iff_left fun _ => ⟨p, get_of_mem_list listed⟩)
  · rintro ⟨noUnpins, modes⟩ typ c
    by_cases inPinset : ∃ pin, st.get c = .ok pin
    · obtain ⟨p, read⟩ := inPinset
      obtain ⟨listed, rfl⟩ := mem_list_of_get read
      rw [mem_restarts_of_listed listed, (restart_eq_iff ipfsid now truthful listed).mpr (modes p listed)]
      exact (and_iff_left fun _ => ⟨p, read⟩).symm
    · refine iff_of_false ?_ ?_
      · intro member
        obtain ⟨p, listed, -, rfl⟩ := mem_restarts_iff.mp member
        exact inPinset ⟨p, get_of_mem_list listed⟩
      · rintro ⟨failed, pinned⟩
        by_cases untracked : Untracked spt c
        · rw [restart_of_absent untracked fun pin read => inPinset ⟨pin, read⟩] at failed
          cases failed
        · obtain ⟨op, tracked, rfl⟩ := exists_of_not_untracked untracked
          rw [status_of_tracked tracked] at failed
          rcases restart_eq_some failed with ⟨-, rfl⟩ | ⟨unpinError, rfl⟩
          · exact inPinset (pinned rfl)
          · have outside : op ∈ spt.outside st :=
              mem_outside_iff.mpr ⟨tracked, fun p listed same => inPinset ⟨p, same ▸ get_of_mem_list listed⟩⟩
            exact noUnpins op outside unpinError

end

/-- With room on the channels, `RecoverAll` recovers exactly what the statuses of all CIDs ask for when no
unpin operation has failed for a CID outside the pinset, and each pin of this peer without an operation is a
recursive one, or is pinned in both modes or in none. A pin without a CID must be listed by IPFS. -/
theorem recoversAll_iff (spt : Tracker) (st : DsState) (ipfs : Connector) (pinset : IPFSPinset) (ipfsid : IPFSID)
    (now : Time) (truthful : Truthful ipfs pinset) (running : spt.done = false)
    (room : Room spt (toRestart (spt.statusAll (.ok st) ipfs ipfsid undefined).1)) :
    RecoversAll spt st ipfs ipfsid now ↔ (∀ op ∈ spt.outside st, op.toTrackerStatus ≠ unpinError) ∧
        ∀ p ∈ st.list, (∀ op ∈ spt.optracker.tracked, op.cid ≠ p.cid) → ¬ Elsewhere spt p →
          (p.defined = true → p.maxDepth ≠ 0 ∨ (p.cid ∈ pinset.recursive ↔ p.cid ∈ pinset.direct)) ∧
          (p.defined = false → p.cid ∈ pinset.recursive) := by
  rw [toRestart_statusAll truthful] at room
  refine Iff.trans ?_ (askedFor_iff ipfsid now truthful)
  constructor
  · rintro ⟨⟨bound, returns⟩, recovered⟩
    obtain ⟨events, s, ran, err, returned⟩ := Machine.LabeledMachine.exists_run_of_bounded
      (fun s => ∃ err, s.recover = .returned err) (fun events s ran => (returns events s ran).1)
      (fun events s ran notReturned => (returns events s ran).2 (not_exists.mp notReturned))
    obtain ⟨-, renewed, sent⟩ := restarted_of_returned truthful running room ran returned
    exact (recovered_iff renewed sent).mp (recovered events s err ran returned).2
  · intro same
    refine ⟨⟨6 * st.list.length + 3, fun events s ran => ⟨?_, fun notReturned => ?_⟩⟩, fun events s err ran returned => ?_⟩
    · exact length_le_of_recoverAll truthful running room ran
    · obtain ⟨dealt, queued, unread, inv⟩ := inRecovery_of_run truthful running room ran
      exact inv.progress notReturned _
    · obtain ⟨noError, renewed, sent⟩ := restarted_of_returned truthful running room ran returned
      exact ⟨noError, (recovered_iff renewed sent).mpr same⟩

def twoPins : DsState := DsState.add (DsState.add {} (everywhere ⟨"b"⟩ (-1))) (everywhere ⟨"c"⟩ (-1))

theorem recoversAll_of_recursive : RecoversAll idle twoPins (daemon { recursive := [⟨"c"⟩] }) {} Time.unixZero ∧
      (idle.status (.ok twoPins) (daemon { recursive := [⟨"c"⟩] }) {} Time.unixZero ⟨"b"⟩).status =
        unexpectedlyUnpinned := by
  have depths : ∀ p ∈ twoPins.list, p.defined = true ∧ p.maxDepth ≠ 0 := by decide +kernel
  refine ⟨(recoversAll_iff _ _ _ _ _ _ (daemon_truthful _) rfl ?_).mpr ⟨?_, ?_⟩, by decide +kernel⟩
  · intro ch
    cases ch <;> decide +kernel
  · decide +kernel
  · intro p listed _ _
    obtain ⟨defined, recursive⟩ := depths p listed
    exact ⟨fun _ => .inl recursive, fun undefined => (Bool.false_ne_true (undefined.symm.trans defined)).elim⟩

def failedUnpin : Tracker :=
  (stateless.run idle [.untrack ⟨"a"⟩ Time.unixZero, .run 11 {}, .run 10 { select := .prio }, .run 10 {}, .run 10 {},
    .run 10 {}, .run 10 {}, .run 10 { answer := .error "failed" }, .run 10 {}, .run 10 {}, .run 10 {}]).getD idle

def recoveryEnd (spt : Tracker) (st : DsState) (pinset : IPFSPinset) (events : List RecoverEvent) :
    Option (RecoverPc × List OpRef × List OpRef) :=
  ((recoverAll ⟨.ok st, daemon pinset, {}⟩).run { spt := spt } events).map fun s =>
    (s.recover, (s.spt.chans .priorityPinCh).buffer ++ (s.spt.chans .pinCh).buffer, (s.spt.chans .unpinCh).buffer)

theorem recoverAll_misses_unpin :
    ((failedUnpin.status (.ok {}) (daemon {}) {} Time.unixZero ⟨"a"⟩).status = unpinError ∧
      recoveryEnd failedUnpin {} {} [.statuses .default, .statuses .default, .recover {}] =
        some (.returned none, [], [])) ∧
    (idle.status (.ok (DsState.add {} (everywhere ⟨"d"⟩ 0))) (daemon { direct := [⟨"d"⟩] }) {} Time.unixZero
        ⟨"d"⟩).status = pinned ∧
      recoveryEnd idle (DsState.add {} (everywhere ⟨"d"⟩ 0)) { direct := [⟨"d"⟩] }
        (List.replicate 4 (.statuses .default) ++ List.replicate 5 (.recover {})) = some (.returned none, [0], []) := by
  refine ⟨⟨?_, ?_⟩, ?_, ?_⟩
  all_goals decide +kernel

end IpfsCluster.Soundness

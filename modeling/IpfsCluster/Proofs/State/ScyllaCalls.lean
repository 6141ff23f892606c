import IpfsCluster.Proofs.State.Scylla

/-! # What a call does to the tables

A call depends on the row of its CID only: there is none, its two times are the same, or it was updated since it was
created. What is kept about a CID in the other tables belongs to a pin; for each kind of step it is exact which tables
before it lead to consistent ones after it.
-/

namespace IpfsCluster.Proofs.State

open Model Model.Api Model.Scyllastate Golang Machine AList Option Function ScyllaState List

theorem cidToPartitionedKey_injective : Function.Injective cidToPartitionedKey :=
  fun _ _ same => congrArg Prod.snd same

theorem toTimestamp_toTimestamp (t : Time) : toTimestamp (toTimestamp t) = toTimestamp t := by
  unfold toTimestamp
  rw [Int.mul_ediv_cancel _ (by decide)]

def Unchanged (row : PinRow) : Prop := row.updatedAt = toTimestamp row.createdAt

section

variable (s : ScyllaState)

include s

theorem finishAdd_tables (pin : Pin) (now : Time) (isUpdate : Bool) : (s.finishAdd {} pin now isUpdate).tables =
      { s.tables with
        placementsByCid := s.tables.placementsByCid.insert (cidToPartitionedKey pin.cid)
          { updatedAt := toTimestamp now }
        pinTtlQueue := if pin.expireAt.isZero = true then s.tables.pinTtlQueue
          else s.tables.pinTtlQueue.insert (ttlKey pin.cid (unixMilli pin.expireAt)) "" } := by
  unfold finishAdd
  cases pin.expireAt.isZero <;> cases isUpdate <;> rfl

theorem cleanupPeerPins_cleanupPlacement (cid : Cid) :
    (s.cleanupPlacement none cid).cleanupPeerPins {} cid = s.cleanupPlacement none cid := by
  have gone : (s.cleanupPlacement none cid).tables.placementsByCid.lookup (cidToPartitionedKey cid) = none :=
    lookup_erase _ _
  simp only [cleanupPeerPins, getPeersForPin, gone, foldl_nil]

theorem finishRm_tables (cid : Cid) (existingPin : Pin) : (s.finishRm {} cid existingPin).tables = { s.tables with
        placementsByCid := s.tables.placementsByCid.erase (cidToPartitionedKey cid)
        pinTtlQueue := if existingPin.expireAt.isZero = true then s.tables.pinTtlQueue
          else s.tables.pinTtlQueue.erase (ttlKey cid (unixMilli existingPin.expireAt)) } := by
  unfold finishRm
  dsimp only
  rw [cleanupPeerPins_cleanupPlacement]
  cases existingPin.expireAt.isZero <;> rfl

theorem finishRm_closed (cid : Cid) (existingPin : Pin) : (s.finishRm {} cid existingPin).closed = s.closed := by
  unfold finishRm
  dsimp only
  rw [cleanupPeerPins_cleanupPlacement]
  cases existingPin.expireAt.isZero <;> rfl

end

section

variable {codecs : TextCodecs} {s : ScyllaState} {now : Time} {pin : Pin} {cid : Cid} {row : PinRow}
  (isOpen : s.closed = false)

include isOpen

theorem get_absent (absent : s.row cid = none) : s.get codecs none cid = .error .notFound := by
  have lookup : s.tables.pinsByCid.lookup (cidToPartitionedKey cid) = none := absent
  simp [ScyllaState.get, isOpen, lookup]

theorem get_row (found : s.row cid = some row) : s.get codecs none cid = .ok (fromRow codecs cid row) :=
  get_of_row (Bool.eq_false_iff.mp isOpen) found

inductive Called (codecs : TextCodecs) (s : ScyllaState) : ScyllaCall → Option Error × ScyllaState → Prop
  | create {now : Time} {pin : Pin} (absent : s.row pin.cid = none) :
      Called codecs s (.add now pin) (none, (s.putRow pin.cid (toRow codecs pin now now)).finishAdd {} pin now false)
  | update {now : Time} {pin : Pin} {row : PinRow} (found : s.row pin.cid = some row) (unchanged : Unchanged row) :
      Called codecs s (.add now pin) (none,
        (s.putRow pin.cid { toRow codecs pin now now with createdAt := row.createdAt }).finishAdd {} pin now true)
  | blameUpdate {now : Time} {pin : Pin} {row : PinRow} (found : s.row pin.cid = some row) (changed : ¬ Unchanged row) :
      Called codecs s (.add now pin) (some (.text "pin update failed due to concurrent modification"), s)
  | miss {cid : Cid} (absent : s.row cid = none) : Called codecs s (.rm cid) (some .notFound, s)
  | remove {cid : Cid} {row : PinRow} (found : s.row cid = some row) (unchanged : Unchanged row) :
      Called codecs s (.rm cid) (none, ({ s with tables := { s.tables with
        pinsByCid := s.tables.pinsByCid.erase (cidToPartitionedKey cid) } } : ScyllaState).finishRm
          {} cid (fromRow codecs cid row))
  | blameRemoval {cid : Cid} {row : PinRow} (found : s.row cid = some row) (changed : ¬ Unchanged row) :
      Called codecs s (.rm cid) (some (.text "pin deletion failed due to concurrent modification"), s)

theorem called_of_open (call : ScyllaCall) : Called codecs s call (s.call codecs call) := by
  cases call with
  | add now pin =>
    cases found : s.row pin.cid with
    | none =>
      have lookup : s.tables.pinsByCid.lookup (cidToPartitionedKey pin.cid) = none := found
      convert Called.create found using 1
      simp only [call, add, isOpen, Bool.false_eq_true, if_false, get_absent isOpen found, writeRow, insertRow, lookup]
      rfl
    | some row =>
      have lookup : s.tables.pinsByCid.lookup (cidToPartitionedKey pin.cid) = some row := found
      have created : (fromRow codecs pin.cid row).timestamp = row.createdAt := rfl
      by_cases unchanged : row.updatedAt = toTimestamp row.createdAt
      · convert Called.update found unchanged using 1
        simp only [call, add, isOpen, Bool.false_eq_true, if_false, get_row isOpen found,
          writeRow, updateRow, lookup, created, if_pos unchanged]
        rfl
      · convert Called.blameUpdate found unchanged using 1
        simp [call, add, isOpen, get_row isOpen found, writeRow, updateRow, lookup, created, if_neg unchanged]
  | rm cid =>
    cases found : s.row cid with
    | none =>
      convert Called.miss found using 1
      simp [call, rm, isOpen, get_absent isOpen found]
    | some row =>
      have lookup : s.tables.pinsByCid.lookup (cidToPartitionedKey cid) = some row := found
      have created : (fromRow codecs cid row).timestamp = row.createdAt := rfl
      by_cases unchanged : row.updatedAt = toTimestamp row.createdAt
      · convert Called.remove found unchanged using 1
        simp [call, rm, isOpen, get_row isOpen found, deleteRow, lookup, created, if_pos unchanged]
      · convert Called.blameRemoval found unchanged using 1
        simp [call, rm, isOpen, get_row isOpen found, deleteRow, lookup, created, if_neg unchanged]

def concurrent : List Error :=
  [.text "pin update failed due to concurrent modification", .text "pin creation failed due to concurrent creation",
    .text "pin deletion failed due to concurrent modification"]

theorem call_concurrent_iff (call : ScyllaCall) : (∃ err ∈ concurrent, (s.call codecs call).1 = some err)
    ↔ ∃ row, s.row call.cid = some row ∧ ¬ Unchanged row := by
  have notChanged {cid : Cid} {row : PinRow} (found : s.row cid = some row) (unchanged : Unchanged row) :
      ¬ ∃ row, s.row cid = some row ∧ ¬ Unchanged row := by
    rintro ⟨other, same, changed⟩
    obtain rfl := mem_unique found same
    exact changed unchanged
  have notFound {cid : Cid} (absent : s.row cid = none) : ¬ ∃ row, s.row cid = some row ∧ ¬ Unchanged row := by
    rintro ⟨row, found, -⟩
    cases absent.symm.trans found
  have called : Called codecs s call _ := called_of_open isOpen call
  generalize s.call codecs call = result at called ⊢
  cases called with
  | create absent => exact iff_of_false (by simp) (notFound absent)
  | update found unchanged | remove found unchanged => exact iff_of_false (by simp) (notChanged found unchanged)
  | blameUpdate found changed | blameRemoval found changed => exact iff_of_true ⟨_, by simp [concurrent], rfl⟩ ⟨_, found, changed⟩
  | miss absent => exact iff_of_false (by simp [concurrent]) (notFound absent)

end

section

variable {codecs : TextCodecs} {s : ScyllaState}

def rowTimes (s : ScyllaState) (cid : Cid) : List Time :=
  match s.row cid with
  | none => []
  | some row => [row.updatedAt, toTimestamp row.createdAt]

/-- The milliseconds at which each CID was added since it was removed, the latest one first, after one more call. -/
def recordCall (times : Cid → List Time) : ScyllaCall → Cid → List Time
  | .add now pin => Function.update times pin.cid (toTimestamp now :: times pin.cid)
  | .rm cid => Function.update times cid []

/-- Every call finds its CID added at one millisecond only. -/
def AddedAtOnce (times : Cid → List Time) : List ScyllaCall → Prop
  | [] => True
  | call :: rest => (times call.cid).Pairwise (· = ·) ∧ AddedAtOnce (recordCall times call) rest

/-- The recorded times have the ones of the rows; only the latest can be another one than that of the creation. -/
structure Recorded (s : ScyllaState) (times : Cid → List Time) : Prop where
  absent : ∀ cid, s.row cid = none → times cid = []
  created : ∀ cid row, s.row cid = some row → toTimestamp row.createdAt ∈ times cid
  updated : ∀ cid row, s.row cid = some row →
    ∃ earlier, times cid = row.updatedAt :: earlier ∧ ∀ t ∈ earlier, t = toTimestamp row.createdAt

theorem recorded_rowTimes (s : ScyllaState) : Recorded s (rowTimes s) where
  absent cid absent := by rw [rowTimes, absent]
  created cid row found := by
    rw [rowTimes, found]
    exact mem_cons_of_mem _ mem_cons_self
  updated cid row found := by
    rw [rowTimes, found]
    exact ⟨[toTimestamp row.createdAt], rfl, fun t member => mem_singleton.mp member⟩

variable {times : Cid → List Time}

theorem pairwise_times_iff (recorded : Recorded s times) (cid : Cid) :
    (times cid).Pairwise (· = ·) ↔ ∀ row, s.row cid = some row → Unchanged row := by
  cases found : s.row cid with
  | none =>
    rw [recorded.absent cid found]
    exact iff_of_true List.Pairwise.nil nofun
  | some row =>
    have created := recorded.created cid row found
    obtain ⟨earlier, isList, same⟩ := recorded.updated cid row found
    rw [isList] at created ⊢
    constructor
    · intro equal _ isRow
      cases isRow
      rcases mem_cons.mp created with first | later
      · exact first.symm
      · exact (pairwise_cons.mp equal).1 _ later
    · intro unchanged
      refine pairwise_cons.mpr ⟨fun t member => (unchanged row rfl).trans (same t member).symm, ?_⟩
      exact pairwise_of_forall_mem_list fun t first t' second => (same t first).trans (same t' second).symm

variable {cid : Cid}

theorem call_row_other {call : ScyllaCall} (isOpen : s.closed = false) (other : cid ≠ call.cid) :
    (s.call codecs call).2.row cid = s.row cid := by
  have key : cidToPartitionedKey cid ≠ cidToPartitionedKey call.cid := cidToPartitionedKey_injective.ne other
  have called : Called codecs s call _ := called_of_open isOpen call
  generalize s.call codecs call = result at called ⊢
  cases called with
  | create | update =>
    rw [row, (finishAdd_spec _ _ _ _ _).1]
    exact lookup_insert_ne key
  | remove found unchanged =>
    rw [row, finishRm_tables]
    exact lookup_erase_ne key
  | _ => rfl

theorem add_row {now : Time} {pin : Pin} (isOpen : s.closed = false)
    (unchanged : ∀ row, s.row pin.cid = some row → Unchanged row) :
    (s.add codecs s {} now pin).2.row pin.cid = some { toRow codecs pin now now with
      createdAt := ((s.row pin.cid).map PinRow.createdAt).getD (toTimestamp now) } := by
  have called : Called codecs s (.add now pin) (s.add codecs s {} now pin) := called_of_open isOpen (.add now pin)
  generalize s.add codecs s {} now pin = result at called ⊢
  cases called with
  | create absent =>
    rw [absent, row, (finishAdd_spec _ _ _ _ _).1]
    exact lookup_insert _
  | update found =>
    rw [found, row, (finishAdd_spec _ _ _ _ _).1]
    exact lookup_insert _
  | blameUpdate found changed => exact absurd (unchanged _ found) changed

theorem rm_row (isOpen : s.closed = false) (unchanged : ∀ row, s.row cid = some row → Unchanged row) :
    (s.rm codecs s {} cid).2.row cid = none := by
  have called : Called codecs s (.rm cid) (s.rm codecs s {} cid) := called_of_open isOpen (.rm cid)
  generalize s.rm codecs s {} cid = result at called ⊢
  cases called with
  | miss absent => exact absent
  | remove =>
    rw [row, finishRm_tables]
    exact lookup_erase _ _
  | blameRemoval found changed => exact absurd (unchanged _ found) changed

theorem recordCall_other {call : ScyllaCall} (other : cid ≠ call.cid) : recordCall times call cid = times cid := by
  cases call with
  | add | rm => exact update_of_ne other _ _

theorem recorded_call (isOpen : s.closed = false) (recorded : Recorded s times) (call : ScyllaCall)
    (unchanged : ∀ row, s.row call.cid = some row → Unchanged row) :
    Recorded (s.call codecs call).2 (recordCall times call) := by
  have others (cid : Cid) (other : cid ≠ call.cid) :
      (s.call codecs call).2.row cid = s.row cid ∧ recordCall times call cid = times cid :=
    ⟨call_row_other isOpen other, recordCall_other other⟩
  have absent : (s.call codecs call).2.row call.cid = none → recordCall times call call.cid = [] := by
    intro none
    cases call with
    | add now pin => cases (add_row isOpen unchanged).symm.trans none
    | rm removed => exact update_self _ _ _
  have updated (row : PinRow) (found : (s.call codecs call).2.row call.cid = some row) :
      toTimestamp row.createdAt ∈ recordCall times call call.cid ∧ ∃ earlier,
        recordCall times call call.cid = row.updatedAt :: earlier ∧ ∀ t ∈ earlier, t = toTimestamp row.createdAt := by
    cases call with
    | rm removed => cases (rm_row isOpen unchanged).symm.trans found
    | add now pin =>
      have times' : recordCall times (.add now pin) pin.cid = toTimestamp now :: times pin.cid :=
        update_self _ _ _
      obtain rfl := some.inj ((add_row isOpen unchanged).symm.trans found)
      change _ ∈ recordCall times (.add now pin) pin.cid ∧ ∃ earlier,
        recordCall times (.add now pin) pin.cid = toTimestamp now :: earlier ∧ _
      rw [times']
      cases before : s.row pin.cid with
      | none =>
        have empty := recorded.absent pin.cid before
        refine ⟨?_, times pin.cid, rfl, ?_⟩
        · change toTimestamp (toTimestamp now) ∈ _
          rw [toTimestamp_toTimestamp]
          exact mem_cons_self
        · rw [empty]
          exact nofun
      | some old =>
        obtain ⟨earlier, isList, same⟩ := recorded.updated pin.cid old before
        refine ⟨mem_cons_of_mem _ (recorded.created pin.cid old before), times pin.cid, rfl, ?_⟩
        intro t member
        rw [isList] at member
        rcases mem_cons.mp member with rfl | later
        · exact unchanged old before
        · exact same t later
  refine ⟨fun cid => ?_, fun cid row => ?_, fun cid row => ?_⟩
  all_goals by_cases same : cid = call.cid
  · exact same ▸ absent
  · rw [(others cid same).1, (others cid same).2]
    exact recorded.absent cid
  · exact same ▸ fun found => (updated row found).1
  · rw [(others cid same).1, (others cid same).2]
    exact recorded.created cid row
  · exact same ▸ fun found => (updated row found).2
  · rw [(others cid same).1, (others cid same).2]
    exact recorded.updated cid row

theorem call_closed (isOpen : s.closed = false) (call : ScyllaCall) : (s.call codecs call).2.closed = false := by
  have called : Called codecs s call _ := called_of_open isOpen call
  generalize s.call codecs call = result at called ⊢
  cases called with
  | create | update => exact (finishAdd_spec _ _ _ _ _).2.trans isOpen
  | remove found unchanged => exact (finishRm_closed _ _ _).trans isOpen
  | _ => exact isOpen

theorem errors_of_closed (isClosed : s.closed = true) (calls : List ScyllaCall) :
    ∀ err ∈ s.errors codecs calls, err = some (.text "ScyllaState is closed") := by
  induction calls with
  | nil => exact nofun
  | cons call rest ih =>
    have refused : s.call codecs call = (some (.text "ScyllaState is closed"), s) := by
      cases call with
      | add | rm => exact if_pos isClosed
    rw [errors, refused]
    exact forall_mem_cons.mpr ⟨rfl, ih⟩

theorem errors_concurrent_iff (isOpen : s.closed = false) (recorded : Recorded s times) (calls : List ScyllaCall) :
    (∀ err ∈ concurrent, some err ∉ s.errors codecs calls) ↔ AddedAtOnce times calls := by
  induction calls generalizing s times with
  | nil => exact iff_of_true nofun trivial
  | cons call rest ih =>
    rw [AddedAtOnce, pairwise_times_iff recorded]
    by_cases unchanged : ∀ row, s.row call.cid = some row → Unchanged row
    · rw [← ih (call_closed isOpen call) (recorded_call isOpen recorded call unchanged), and_iff_right unchanged]
      have silent : ¬ ∃ err ∈ concurrent, (s.call codecs call).1 = some err := by
        rw [call_concurrent_iff isOpen]
        rintro ⟨row, found, changed⟩
        exact changed (unchanged row found)
      refine forall₂_congr fun err blames => ?_
      rw [errors, mem_cons, not_or, and_iff_right]
      exact fun failed => silent ⟨err, blames, failed.symm⟩
    · refine iff_of_false (fun silent => unchanged fun row found => ?_) fun all => unchanged all.1
      by_contra changed
      obtain ⟨err, blames, failed⟩ := (call_concurrent_iff isOpen call).mpr ⟨row, found, changed⟩
      exact silent err blames (failed ▸ mem_cons_self)

end

/-- The other tables have rows for pinned CIDs only, and the queue has the expiry of each pin once. -/
structure Consistent (tables : Tables) : Prop where
  placements : ∀ key ∈ tables.placementsByCid, key ∈ tables.pinsByCid
  peers : ∀ peer key, (peer, key) ∈ tables.pinsByPeer → key ∈ tables.pinsByCid
  queued : ∀ entry ∈ tables.pinTtlQueue, cidToPartitionedKey entry.2.2 ∈ tables.pinsByCid
  expiry : ∀ cid row ttl, tables.pinsByCid.lookup (cidToPartitionedKey cid) = some row → row.ttl = some ttl →
    ∀ entry, entry ∈ tables.pinTtlQueue ∧ entry.2.2 = cid ↔ entry = ttlKey cid ttl

theorem consistent_empty : Consistent {} :=
  ⟨fun _ => nofun, fun _ _ => nofun, fun _ => nofun, fun _ _ _ => nofun⟩

/-- What a step needs of the tables before it. A pin that expires replaces no other expiry of its CID. What is
removed has no rows of peers, and if its expiry is queued then it is the one of the row and not the zero time. -/
def Follows (s : ScyllaState) : TableEvent → Prop
  | .call (.add _ pin) => pin.expireAt.isZero = false → ∀ entry ∈ s.tables.pinTtlQueue, entry.2.2 = pin.cid →
      entry = ttlKey pin.cid (unixMilli pin.expireAt)
  | .call (.rm cid) => (∀ peer, (peer, cidToPartitionedKey cid) ∉ s.tables.pinsByPeer) ∧
      ∀ entry ∈ s.tables.pinTtlQueue, entry.2.2 = cid →
        ∃ row ttl, s.row cid = some row ∧ row.ttl = some ttl ∧ (ofUnixMilli ttl).isZero = false
  | .place _ _ => True
  | .assign _ _ _ => True

theorem unixMilli_ofUnixMilli (millis : Int64) : unixMilli (ofUnixMilli millis) = millis := by
  rw [unixMilli, ofUnixMilli, Int.mul_ediv_cancel _ (by decide), Int64.ofInt_toInt]

section

variable {tables : Tables} {cid : Cid} {row : PinRow} {placement : PlacementRow} (before : Consistent tables)

include before

theorem consistent_put (never : row.ttl = none) : Consistent { tables with
      pinsByCid := tables.pinsByCid.insert (cidToPartitionedKey cid) row
      placementsByCid := tables.placementsByCid.insert (cidToPartitionedKey cid) placement } where
  placements key member := by
    rcases (mem_insert _).mp member with rfl | old
    · exact (mem_insert _).mpr (.inl rfl)
    · exact (mem_insert _).mpr (.inr (before.placements key old))
  peers peer key member := (mem_insert _).mpr (.inr (before.peers peer key member))
  queued entry member := (mem_insert _).mpr (.inr (before.queued entry member))
  expiry other otherRow ttl found expires := by
    by_cases same : other = cid
    · subst same
      rw [lookup_insert] at found
      cases found
      cases never.symm.trans expires
    · rw [lookup_insert_ne (cidToPartitionedKey_injective.ne same)] at found
      exact before.expiry other otherRow ttl found expires

theorem consistent_put_expiring_iff {ttl : Int64} {owner : String} (expires : row.ttl = some ttl) :
    Consistent { tables with
        pinsByCid := tables.pinsByCid.insert (cidToPartitionedKey cid) row
        placementsByCid := tables.placementsByCid.insert (cidToPartitionedKey cid) placement
        pinTtlQueue := tables.pinTtlQueue.insert (ttlKey cid ttl) owner } ↔
      ∀ entry ∈ tables.pinTtlQueue, entry.2.2 = cid → entry = ttlKey cid ttl := by
  constructor
  · intro after entry member ofCid
    refine (after.expiry cid row ttl (lookup_insert _) expires entry).mp ⟨?_, ofCid⟩
    exact (mem_insert _).mpr (.inr member)
  · intro only
    refine ⟨fun key member => ?_, fun peer key member => ?_, fun entry member => ?_, ?_⟩
    · rcases (mem_insert _).mp member with rfl | old
      · exact (mem_insert _).mpr (.inl rfl)
      · exact (mem_insert _).mpr (.inr (before.placements key old))
    · exact (mem_insert _).mpr (.inr (before.peers peer key member))
    · rcases (mem_insert _).mp member with rfl | old
      · exact (mem_insert _).mpr (.inl rfl)
      · exact (mem_insert _).mpr (.inr (before.queued entry old))
    · intro other otherRow otherTtl found otherExpires entry
      rw [mem_insert]
      by_cases same : other = cid
      · subst same
        rw [lookup_insert] at found
        cases found
        obtain rfl := mem_unique expires otherExpires
        constructor
        · rintro ⟨rfl | old, ofCid⟩
          · rfl
          · exact only entry old ofCid
        · rintro rfl
          exact ⟨.inl rfl, rfl⟩
      · rw [lookup_insert_ne (cidToPartitionedKey_injective.ne same)] at found
        rw [← before.expiry other otherRow otherTtl found otherExpires entry]
        refine and_congr_left fun ofOther => or_iff_right fun isNew => same ?_
        rw [← ofOther, isNew]
        rfl

theorem consistent_delete_iff {queue : AList fun _ : Time × Time × Cid => String}
    (kept : ∀ entry, entry.2.2 ≠ cid → (entry ∈ queue ↔ entry ∈ tables.pinTtlQueue)) : Consistent { tables with
        pinsByCid := tables.pinsByCid.erase (cidToPartitionedKey cid)
        placementsByCid := tables.placementsByCid.erase (cidToPartitionedKey cid)
        pinTtlQueue := queue } ↔
      (∀ peer, (peer, cidToPartitionedKey cid) ∉ tables.pinsByPeer) ∧ ∀ entry ∈ queue, entry.2.2 ≠ cid := by
  constructor
  · intro after
    refine ⟨fun peer member => ?_, fun entry member ofCid => ?_⟩
    · exact (mem_erase.mp (after.peers peer _ member)).1 rfl
    · exact (mem_erase.mp (after.queued entry member)).1 (congrArg _ ofCid)
  · rintro ⟨noPeer, noEntry⟩
    refine ⟨fun key member => ?_, fun peer key member => ?_, fun entry member => ?_, ?_⟩
    · obtain ⟨other, old⟩ := mem_erase.mp member
      exact mem_erase.mpr ⟨other, before.placements key old⟩
    · refine mem_erase.mpr ⟨?_, before.peers peer key member⟩
      rintro rfl
      exact noPeer peer member
    · have other := noEntry entry member
      exact mem_erase.mpr ⟨cidToPartitionedKey_injective.ne other, before.queued entry ((kept entry other).mp member)⟩
    · intro other otherRow ttl found expires entry
      obtain ⟨otherKey, old⟩ := lookup_erase_eq_some found
      have differs : other ≠ cid := fun same => otherKey (congrArg _ same)
      rw [← before.expiry other otherRow ttl old expires entry]
      refine and_congr_left fun ofOther => kept entry ?_
      rwa [ofOther]

end

section

variable {codecs : TextCodecs} {s : ScyllaState}

theorem isOpen_of_call {call : ScyllaCall} (accepted : (s.call codecs call).1 = none) : s.closed = false := by
  by_contra closed
  have isClosed : s.closed = true := Bool.not_eq_false _ |>.mp closed
  cases call with
  | add now pin =>
    rw [call, add, if_pos isClosed] at accepted
    cases accepted
  | rm cid =>
    rw [call, rm, if_pos isClosed] at accepted
    cases accepted

theorem add_tables {now : Time} {pin : Pin} (accepted : (s.add codecs s {} now pin).1 = none) :
    ∃ createdAt, (s.add codecs s {} now pin).2.tables = { s.tables with
        pinsByCid := s.tables.pinsByCid.insert (cidToPartitionedKey pin.cid)
          { toRow codecs pin now now with createdAt := createdAt }
        placementsByCid := s.tables.placementsByCid.insert (cidToPartitionedKey pin.cid)
          { updatedAt := toTimestamp now }
        pinTtlQueue := if pin.expireAt.isZero = true then s.tables.pinTtlQueue
          else s.tables.pinTtlQueue.insert (ttlKey pin.cid (unixMilli pin.expireAt)) "" } := by
  have isOpen : s.closed = false := isOpen_of_call (show (s.call codecs (.add now pin)).1 = none from accepted)
  have called : Called codecs s (.add now pin) (s.add codecs s {} now pin) := called_of_open isOpen (.add now pin)
  generalize s.add codecs s {} now pin = result at accepted called ⊢
  cases called with
  | create absent =>
    rw [finishAdd_tables]
    exact ⟨toTimestamp now, rfl⟩
  | update found unchanged =>
    rw [finishAdd_tables]
    exact ⟨_, rfl⟩
  | blameUpdate => cases accepted

theorem rm_tables {cid : Cid} (accepted : (s.rm codecs s {} cid).1 = none) :
    ∃ row, s.row cid = some row ∧ (s.rm codecs s {} cid).2.tables = { s.tables with
        pinsByCid := s.tables.pinsByCid.erase (cidToPartitionedKey cid)
        placementsByCid := s.tables.placementsByCid.erase (cidToPartitionedKey cid)
        pinTtlQueue := if (fromRow codecs cid row).expireAt.isZero = true then s.tables.pinTtlQueue
          else s.tables.pinTtlQueue.erase (ttlKey cid (unixMilli (fromRow codecs cid row).expireAt)) } := by
  have isOpen : s.closed = false := isOpen_of_call (show (s.call codecs (.rm cid)).1 = none from accepted)
  have called : Called codecs s (.rm cid) (s.rm codecs s {} cid) := called_of_open isOpen (.rm cid)
  generalize s.rm codecs s {} cid = result at accepted called ⊢
  cases called with
  | miss | blameRemoval => cases accepted
  | remove found unchanged => exact ⟨_, found, finishRm_tables _ _ _⟩

theorem consistent_add_iff {now : Time} {pin : Pin} (before : Consistent s.tables)
    (accepted : (s.add codecs s {} now pin).1 = none) :
    Consistent (s.add codecs s {} now pin).2.tables ↔ Follows s (.call (.add now pin)) := by
  obtain ⟨createdAt, after⟩ := add_tables accepted
  rw [after, Follows]
  cases zero : pin.expireAt.isZero with
  | true =>
    refine iff_of_true (consistent_put before ?_) nofun
    change (if !pin.expireAt.isZero then some (unixMilli pin.expireAt) else none) = none
    rw [zero]
    rfl
  | false =>
    refine (consistent_put_expiring_iff before ?_).trans ⟨fun only _ => only, fun only => only rfl⟩
    change (if !pin.expireAt.isZero then some (unixMilli pin.expireAt) else none) = _
    rw [zero]
    rfl

theorem consistent_rm_iff {cid : Cid} (before : Consistent s.tables) (accepted : (s.rm codecs s {} cid).1 = none) :
    Consistent (s.rm codecs s {} cid).2.tables ↔ Follows s (.call (.rm cid)) := by
  obtain ⟨row, found, after⟩ := rm_tables accepted
  rw [after, Follows, found]
  cases zero : (fromRow codecs cid row).expireAt.isZero with
  | true =>
    rw [if_pos rfl, consistent_delete_iff before fun _ _ => Iff.rfl]
    refine and_congr_right fun _ => forall₂_congr fun entry member => ?_
    refine ⟨fun other ofCid => absurd ofCid other, fun expires ofCid => ?_⟩
    obtain ⟨_, ttl, same, isTtl, notZero⟩ := expires ofCid
    cases same
    have read : (fromRow codecs cid row).expireAt = ofUnixMilli ttl := by rw [fromRow, isTtl]
    rw [read, notZero] at zero
    cases zero
  | false =>
    obtain ⟨ttl, isTtl⟩ : ∃ ttl, row.ttl = some ttl := by
      cases isTtl : row.ttl with
      | some ttl => exact ⟨ttl, rfl⟩
      | none =>
        rw [fromRow, isTtl] at zero
        cases zero
    have read : (fromRow codecs cid row).expireAt = ofUnixMilli ttl := by rw [fromRow, isTtl]
    rw [read] at zero ⊢
    rw [unixMilli_ofUnixMilli, if_neg Bool.false_ne_true, consistent_delete_iff before]
    · refine and_congr_right fun _ => iff_of_true (fun entry member ofCid => ?_) fun entry _ _ => ?_
      · obtain ⟨other, old⟩ := mem_erase.mp member
        exact other ((before.expiry cid row ttl found isTtl entry).mp ⟨old, ofCid⟩)
      · exact ⟨row, ttl, rfl, isTtl, zero⟩
    · intro entry other
      refine mem_erase.trans (and_iff_right ?_)
      rintro rfl
      exact other rfl

theorem step_call {call : ScyllaCall} {next : ScyllaState}
    (step : (tableMachine codecs).step s (.call call) = some next) :
    (s.call codecs call).1 = none ∧ (s.call codecs call).2 = next := by
  simp only [tableMachine] at step
  cases outcome : s.call codecs call with
  | mk err after =>
    rw [outcome] at step
    cases err with
    | none => exact ⟨rfl, some.inj step⟩
    | some err => cases step

theorem consistent_step_iff {event : TableEvent} {next : ScyllaState} (before : Consistent s.tables)
    (step : (tableMachine codecs).step s event = some next) : Consistent next.tables ↔ Follows s event := by
  cases event with
  | call call =>
    obtain ⟨accepted, rfl⟩ := step_call step
    cases call with
    | add now pin => exact consistent_add_iff before accepted
    | rm cid => exact consistent_rm_iff before accepted
  | place cid placement =>
    change (if s.pinned cid then some (s.insertPlacement cid placement) else none) = _ at step
    obtain ⟨pinned, same⟩ := ite_none_right_eq_some.mp step
    cases same
    refine iff_of_true ⟨fun key member => ?_, before.peers, before.queued, before.expiry⟩ trivial
    rcases (mem_insert _).mp member with rfl | old
    · exact lookup_isSome.mp pinned
    · exact before.placements key old
  | assign peer cid row =>
    change (if s.pinned cid then some (s.insertPeerPin peer cid row) else none) = _ at step
    obtain ⟨pinned, same⟩ := ite_none_right_eq_some.mp step
    cases same
    refine iff_of_true ⟨before.placements, fun peer' key member => ?_, before.queued, before.expiry⟩ trivial
    rcases (mem_insert _).mp member with isNew | old
    · rw [(Prod.mk.inj isNew).2]
      exact lookup_isSome.mp pinned
    · exact before.peers peer' key old

end

end IpfsCluster.Proofs.State

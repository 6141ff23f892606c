import IpfsCluster.Model.State.ScyllaTransfer

/-! # What an import writes

An import without faults of the database writes the entries of all records if it reads to the end, and those of the
full batches if it stops. A migration is a sequence of three such attempts, each on other bytes.
-/

namespace IpfsCluster.Proofs.State

open Model Model.Api Model.Scyllastate Golang List

variable {input left : Bytes}

section

/-- What the loop over records finds at the start of some bytes. -/
def findEntry (codecs : PinCodecs) (tools : ImportTools) (input : Bytes) : Finding Bytes (Cid × Bytes) :=
  match readRecord tools input with
  | .ended => .ended
  | .failed _ left => .stopped left
  | .notAllocated => .panics
  | .record data left =>
    match codecs.protoDecode data >>= Pin.protoUnmarshal with
    | .error _ => .skipped left
    | .ok pin =>
      match serializePin codecs pin with
      | .error _ => .stopped left
      | .ok pinData => .item (pin.cid, pinData) left

def flushed (batchSize : ℕ) (entries : List (Cid × Bytes)) : List (Cid × Bytes) :=
  entries.take (entries.length / max 1 batchSize * max 1 batchSize)

/-- The state of an import that has read some entries: those of full batches are written. -/
structure Buffers (batchSize : ℕ) (before entries : List (Cid × Bytes)) (i : Import) : Prop where
  written : i.written = before ++ flushed batchSize entries
  batch : i.batch = entries.drop (entries.length / max 1 batchSize * max 1 batchSize)

def EndsAs (batchSize : ℕ) (before entries : List (Cid × Bytes)) (result : ImportEnd × Import) : ReadEnd Bytes → Prop
  | .ended => result.1 = .returned none ∧ result.2.written = before ++ entries
  | .stopped left => (∃ err, result.1 = .returned (some err)) ∧
      result.2.written = before ++ flushed batchSize entries ∧ result.2.left = left
  | .panicked => result.1 = .panicked

def noCommitFaults : CommitFaults := fun _ => none

variable {codecs : PinCodecs} {tools : ImportTools} {batchSize : ℕ} {before entries : List (Cid × Bytes)}
  {activity : String}

theorem buffers_start (batchSize : ℕ) (i : Import) (noBatch : i.batch = []) : Buffers batchSize i.written [] i where
  written := by rw [flushed, take_nil, append_nil]
  batch := by rw [noBatch, drop_nil]

variable {i : Import}

theorem commit_of_ne_nil (some_entry : i.batch ≠ []) : i.commit noCommitFaults = .ok { i with
      rows := i.batch.foldl (fun rows entry => rows.insert entry.1 entry.2) i.rows
      written := i.written ++ i.batch
      batch := [] } :=
  if_neg some_entry

theorem Buffers.all (buffers : Buffers batchSize before entries i) : i.written ++ i.batch = before ++ entries := by
  rw [buffers.written, buffers.batch, append_assoc, flushed, take_append_drop]

theorem Buffers.finish (buffers : Buffers batchSize before entries i) :
    EndsAs batchSize before entries (i.finish noCommitFaults activity) .ended := by
  have all := buffers.all
  unfold Import.finish
  by_cases empty : i.batch = []
  · rw [empty, append_nil] at all
    rw [Import.commit, if_pos empty]
    exact ⟨rfl, all⟩
  · rw [commit_of_ne_nil empty]
    exact ⟨rfl, all⟩

theorem full_succ (size count : ℕ) (positive : 0 < size) :
    (size ≤ count - count / size * size + 1 → (count + 1) / size * size = count + 1) ∧
      (count - count / size * size + 1 < size → (count + 1) / size * size = count / size * size) := by
  have split := Nat.div_add_mod' count size
  have small := Nat.mod_lt count positive
  constructor
  · intro full
    have divides : size ∣ count + 1 := ⟨count / size + 1, by rw [Nat.mul_add, Nat.mul_comm]; omega⟩
    exact Nat.div_mul_cancel divides
  · intro room
    have same : (count + 1) / size = count / size := by
      refine Nat.div_eq_of_lt_le ?_ ?_
      · omega
      · rw [Nat.add_mul]
        omega
    rw [same]

theorem Buffers.record {data : Bytes} {pin : Pin} {pinData : Bytes} (buffers : Buffers batchSize before entries i)
    (decoded : codecs.protoDecode data >>= Pin.protoUnmarshal = .ok pin)
    (serialized : serializePin codecs pin = .ok pinData) :
    ∃ next, i.record codecs batchSize noCommitFaults activity data = .ok next ∧
      Buffers batchSize before (entries ++ [(pin.cid, pinData)]) next := by
  have added : i.add codecs pin = .ok { i with batch := i.batch ++ [(pin.cid, pinData)], count := i.count + 1 } := by
    rw [Import.add, serialized]
  have positive : 0 < max 1 batchSize := lt_of_lt_of_le Nat.one_pos (le_max_left 1 batchSize)
  have length : (i.batch ++ [(pin.cid, pinData)]).length =
      entries.length - entries.length / max 1 batchSize * max 1 batchSize + 1 := by
    rw [length_append, buffers.batch, length_drop, length_singleton]
  have total : (entries ++ [(pin.cid, pinData)]).length = entries.length + 1 := length_append
  have below : entries.length / max 1 batchSize * max 1 batchSize ≤ entries.length := Nat.div_mul_le_self _ _
  obtain ⟨full, room⟩ := full_succ (max 1 batchSize) entries.length positive
  unfold Import.record
  rw [decoded]
  dsimp only
  rw [added]
  dsimp only
  split
  next isFull =>
    rw [commit_of_ne_nil (append_ne_nil_of_right_ne_nil _ (cons_ne_nil _ _))]
    refine ⟨_, rfl, ?_, ?_⟩
    · rw [flushed, total, full (by omega), ← total, take_length, ← append_assoc, buffers.all, append_assoc]
    · rw [total, full (by omega), ← total, drop_length]
  next notFull =>
    refine ⟨_, rfl, ?_, ?_⟩
    · rw [flushed, total, room (by omega), take_append_of_le_length below]
      exact buffers.written
    · rw [total, room (by omega), drop_append_of_le_length below, ← buffers.batch]

/-- Scanning a length leaves an end of the bytes. -/
def ScansForward (tools : ImportTools) : Prop := ∀ input, (tools.scanLength input).2 <:+ input

theorem readRecord_eq_record (forward : ScansForward tools) {data : Bytes}
    (read : readRecord tools input = .record data left) : left <:+ input ∧ left.length < input.length := by
  have scanned := forward input
  unfold readRecord at read
  split at read
  · cases read
  · cases read
  next n rest isLength =>
    rw [isLength] at scanned
    split at read
    · cases read
    · split at read
      · cases read
      · split at read
        · cases read
        next byte _ isRest =>
          obtain ⟨-, rfl⟩ := RecordRead.record.inj read
          have suffix : byte :: _ <:+ input := (isRest ▸ drop_suffix _ _ : byte :: _ <:+ rest).trans scanned
          exact ⟨(suffix_cons _ _).trans suffix, lt_of_lt_of_le (Nat.lt_succ_self _) suffix.length_le⟩

theorem findEntry_takes (forward : ScansForward tools)
    (goesOn : findEntry codecs tools input = .skipped left ∨ ∃ entry, findEntry codecs tools input = .item entry left) :
    left <:+ input ∧ left.length < input.length := by
  unfold findEntry at goesOn
  cases read : readRecord tools input with
  | ended | failed | notAllocated => simp [read] at goesOn
  | record data rest =>
    have takes := readRecord_eq_record forward read
    rw [read] at goesOn
    dsimp only at goesOn
    split at goesOn
    · obtain isSkipped | ⟨_, absurd⟩ := goesOn
      · obtain rfl := Finding.skipped.inj isSkipped
        exact takes
      · cases absurd
    · split at goesOn
      · obtain absurd | ⟨_, absurd⟩ := goesOn <;> cases absurd
      · obtain absurd | ⟨_, isItem⟩ := goesOn
        · cases absurd
        · obtain ⟨-, rfl⟩ := Finding.item.inj isItem
          exact takes

def RoundAs (batchSize : ℕ) (before entries : List (Cid × Bytes)) (i : Import) (result : ImportEnd × Import)
    (resume : Import → Bytes → ImportEnd × Import) : Finding Bytes (Cid × Bytes) → Prop
  | .ended => EndsAs batchSize before entries result .ended
  | .stopped left => EndsAs batchSize before entries result (.stopped left)
  | .panics => EndsAs batchSize before entries result .panicked
  | .skipped left => result = resume i left
  | .item entry left => ∃ next, result = resume next left ∧ Buffers batchSize before (entries ++ [entry]) next

theorem importRecords_succ (activity : String) (buffers : Buffers batchSize before entries i) (fuel : ℕ)
    {finding : Finding Bytes (Cid × Bytes)} (found : findEntry codecs tools input = finding) :
    RoundAs batchSize before entries i (importRecords codecs tools batchSize noCommitFaults activity (fuel + 1) i input)
      (importRecords codecs tools batchSize noCommitFaults activity fuel) finding := by
  rw [← found]
  unfold importRecords findEntry
  cases readRecord tools input with
  | ended => exact buffers.finish
  | failed message left => exact ⟨⟨_, rfl⟩, buffers.written, rfl⟩
  | notAllocated => exact rfl
  | record data left =>
    cases decoded : codecs.protoDecode data >>= Pin.protoUnmarshal with
    | error err =>
      dsimp only
      rw [Import.record, decoded]
      exact rfl
    | ok pin =>
      dsimp only
      cases serialized : serializePin codecs pin with
      | error err =>
        rw [Import.record, decoded]
        dsimp only
        rw [Import.add, serialized]
        exact ⟨⟨_, rfl⟩, buffers.written, rfl⟩
      | ok pinData =>
        obtain ⟨next, recorded, nextBuffers⟩ := buffers.record decoded serialized
        rw [recorded, decoded]
        dsimp only
        rw [serialized]
        exact ⟨next, rfl, nextBuffers⟩

theorem importRecords_of_reads (forward : ScansForward tools) {items : List (Cid × Bytes)} {ending : ReadEnd Bytes}
    (reads : Reads (findEntry codecs tools) input items ending) {fuel : ℕ} (enough : input.length < fuel)
    (buffers : Buffers batchSize before entries i) : EndsAs batchSize before (entries ++ items)
      (importRecords codecs tools batchSize noCommitFaults activity fuel i input) ending := by
  induction reads generalizing fuel i entries with
      obtain ⟨fuel, rfl⟩ := Nat.exists_eq_succ_of_ne_zero (Nat.ne_zero_of_lt enough)
  | ended found | stopped found | panics found =>
    rw [append_nil]
    exact importRecords_succ activity buffers fuel found
  | @skipped input left items ending found later ih =>
    have round := importRecords_succ activity buffers fuel found
    have takes := (findEntry_takes forward (.inl found)).2
    rw [show importRecords codecs tools batchSize noCommitFaults activity (fuel + 1) i input = _ from round]
    exact ih (by omega) buffers
  | @item input left entry items ending found later ih =>
    have takes := (findEntry_takes forward (.inr ⟨entry, found⟩)).2
    obtain ⟨next, same, nextBuffers⟩ := importRecords_succ activity buffers fuel found
    rw [same, append_cons]
    exact ih (by omega) nextBuffers

end

section

def IsWritten (codecs : PinCodecs) (written : List (Cid × Bytes)) (pin : Pin) : Prop :=
  ∃ pinData, serializePin codecs pin = .ok pinData ∧ (pin.cid, pinData) ∈ written

/-- Bytes that are a whole sequence of records hold every pin that is not written before. -/
def Covers (codecs : PinCodecs) (tools : ImportTools) (pins : List Pin) (before : List (Cid × Bytes)) (input : Bytes) :
    Prop :=
  ∀ entries, Reads (findEntry codecs tools) input entries .ended →
    ∀ pin ∈ pins, IsWritten codecs (before ++ entries) pin

def Complete (codecs : PinCodecs) (pins : List Pin) (result : ImportEnd × Import) : Prop :=
  result.1 = .returned none → ∀ pin ∈ pins, IsWritten codecs result.2.written pin

variable {codecs : PinCodecs} {tools : ImportTools} {batchSize : ℕ}

def ResultOf (codecs : PinCodecs) (tools : ImportTools) (batchSize : ℕ) (input : Bytes) (before : List (Cid × Bytes))
    (result : ImportEnd × Import) : Prop :=
  ∀ entries ending, Reads (findEntry codecs tools) input entries ending → EndsAs batchSize before entries result ending

variable {next : Error → Import → ImportEnd × Import} {result : ImportEnd × Import}
  {before entries : List (Cid × Bytes)}

theorem ifFailed_of_ended (ended : EndsAs batchSize before entries result .ended) : ifFailed result next = result := by
  obtain ⟨ending, i⟩ := result
  obtain rfl : ending = .returned none := ended.1
  rfl

theorem ifFailed_of_stopped (next : Error → Import → ImportEnd × Import)
    (stopped : EndsAs batchSize before entries result (.stopped left)) :
    ∃ err, ifFailed result next = next err result.2 := by
  obtain ⟨ending, i⟩ := result
  obtain ⟨err, rfl⟩ : ∃ err, ending = .returned (some err) := stopped.1
  exact ⟨err, rfl⟩

theorem ifFailed_of_panicked (panicked : result.1 = .panicked) : (ifFailed result next).1 = .panicked := by
  obtain ⟨ending, i⟩ := result
  obtain rfl : ending = .panicked := panicked
  rfl

theorem exists_reads_entries (codecs : PinCodecs) (forward : ScansForward tools) (input : Bytes) :
    ∃ entries ending, Reads (findEntry codecs tools) input entries ending :=
  exists_reads List.length (fun _ _ goesOn => (findEntry_takes forward goesOn).2) input

variable (forward : ScansForward tools)

include forward

-- An attempt that stops has written its full batches, and the next one starts from what it has left.
theorem complete_ifFailed_iff (pins : List Pin) (isResult : ResultOf codecs tools batchSize input before result)
    (later : List (Cid × Bytes) → Bytes → Prop)
    (complete : ∀ err i, Complete codecs pins (next err i) ↔ later i.written i.left) :
    Complete codecs pins (ifFailed result next) ↔ Covers codecs tools pins before input ∧
      ∀ entries left, Reads (findEntry codecs tools) input entries (.stopped left) →
        later (before ++ flushed batchSize entries) left := by
  constructor
  · intro all
    refine ⟨fun entries reads => ?_, fun entries left reads => ?_⟩
    · have ended := isResult _ _ reads
      rw [ifFailed_of_ended ended] at all
      rw [← ended.2]
      exact all ended.1
    · have stopped := isResult _ _ reads
      obtain ⟨err, same⟩ := ifFailed_of_stopped next stopped
      obtain ⟨-, isWritten, isLeft⟩ := stopped
      rw [same, complete, isWritten, isLeft] at all
      exact all
  · rintro ⟨covers, goesOn⟩
    obtain ⟨entries, ending, reads⟩ := exists_reads_entries codecs forward input
    have ends := isResult _ _ reads
    cases ending with
    | ended =>
      rw [ifFailed_of_ended ends]
      intro _
      rw [ends.2]
      exact covers entries reads
    | stopped left =>
      obtain ⟨err, same⟩ := ifFailed_of_stopped next ends
      obtain ⟨-, isWritten, isLeft⟩ := ends
      rw [same, complete, isWritten, isLeft]
      exact goesOn entries left reads
    | panicked =>
      intro success
      cases (ifFailed_of_panicked ends).symm.trans success

theorem resultOf_migrateLegacyFormat (i : Import) (input : Bytes) : ResultOf codecs tools batchSize input i.written
      (migrateLegacyFormat codecs tools batchSize noCommitFaults i input) :=
  fun _ _ reads => importRecords_of_reads forward reads (Nat.lt_succ_self _) (buffers_start batchSize _ rfl)

/-- What the header decoder leaves for the first attempt of a migration. -/
def leftByHeader (tools : ImportTools) (r : Reader) : Bytes :=
  (tools.decodeHeader (.prepend (r.read 1024).1 (r.read 1024).2)).2.bytes

theorem resultOf_unmarshal {rows : PinRows} {input rest : Reader} {err : Error}
    (noHeader : tools.decodeHeader input = (.error err, rest)) : ResultOf codecs tools batchSize rest.bytes []
      (unmarshal codecs tools batchSize noCommitFaults false false rows input) := by
  intro entries ending reads
  unfold unmarshal
  rw [noHeader]
  exact importRecords_of_reads forward reads (Nat.lt_succ_self _) (buffers_start batchSize { rows := rows } rfl)

/-- The first attempt reads what the header decoder leaves, and each of the others the kept bytes and what the attempt
before has left of the reader. -/
theorem complete_migrate_iff (pins : List Pin) (rows : PinRows) {input : Reader} {buf unread : Bytes}
    (kept : (input.read 1024).1 = buf) (behind : (input.read 1024).2.bytes = unread)
    (noHeader : ∃ err, (tools.decodeHeader (.prepend (input.read 1024).1 (input.read 1024).2)).1 = .error err) :
    Complete codecs pins (migrate codecs tools batchSize (fun _ => noCommitFaults) false none rows input) ↔
      Covers codecs tools pins [] (leftByHeader tools input) ∧
        ∀ first left, Reads (findEntry codecs tools) (leftByHeader tools input) first (.stopped left) →
          Covers codecs tools pins (flushed batchSize first) (buf ++ unreadOf unread left) ∧
            ∀ second left', Reads (findEntry codecs tools) (buf ++ unreadOf unread left) second (.stopped left') →
              Covers codecs tools pins (flushed batchSize first ++ flushed batchSize second)
                (buf ++ unreadOf unread left') := by
  obtain ⟨err, failed⟩ := noHeader
  obtain rfl := kept
  obtain rfl := behind
  have first : ResultOf codecs tools batchSize (leftByHeader tools input) []
      (unmarshal codecs tools batchSize noCommitFaults false false rows
        (.prepend (input.read 1024).1 (input.read 1024).2)) :=
    resultOf_unmarshal forward (Prod.ext failed rfl)
  let again left := (input.read 1024).1 ++ unreadOf (input.read 1024).2.bytes left
  refine complete_ifFailed_iff forward pins first (fun before left => Covers codecs tools pins before (again left) ∧
    ∀ second left', Reads (findEntry codecs tools) (again left) second (.stopped left') →
      Covers codecs tools pins (before ++ flushed batchSize second) (again left')) fun _ i => ?_
  refine complete_ifFailed_iff forward pins (resultOf_migrateLegacyFormat forward i _)
    (fun before left => Covers codecs tools pins before (again left)) fun _ i => ?_
  refine (complete_ifFailed_iff forward pins (resultOf_migrateLegacyFormat forward i _) (fun _ _ => True)
    fun _ _ => iff_of_true (fun success => by cases success) trivial).trans ?_
  exact and_iff_left fun _ _ _ => trivial

end

def legacyRecords (records : List Bytes) : Bytes :=
  records.flatMap fun data => lengthLine data.length ++ data ++ newline

def encodedPins (codecs : PinCodecs) (records : List Bytes) : List Pin :=
  records.filterMap fun data => (codecs.protoDecode data >>= Pin.protoUnmarshal).toOption

end IpfsCluster.Proofs.State

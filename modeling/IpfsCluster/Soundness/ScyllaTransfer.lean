import IpfsCluster.Proofs.State.ScyllaExport
import IpfsCluster.Proofs.State.ScyllaImport
import IpfsCluster.Soundness.Degradation

/-! # Listing, export and import

The listing goroutine closes the channel after the list has closed it, which panics in every export of an open state,
except for those that give up with more pins left than the channel holds. The decoder of the header takes bytes that no
later read of a migration sees. A list that repeats an iteration sends again what it has sent.
-/

namespace IpfsCluster.Soundness

open Model Model.Api Model.Scyllastate Golang Machine Proofs.State List

section

variable (codecs : PinCodecs) (source : ExportSource) (header : Except Error Bytes) (batchSize : BatchSize)

/-- Importing some bytes into an empty state ends without a panic and, if it succeeds, restores the pins. -/
def Restores (pins : List Pin) (out : Bytes) : Prop :=
  ∀ (tools : ImportTools) (faults : CommitFaults) (seekable : Bool) (r : Reader), r.bytes = out →
    (unmarshal codecs tools batchSize.size faults false seekable ∅ r).1 ≠ .panicked ∧
      (unmarshal codecs tools batchSize.size faults false seekable ∅ r).1 ≠ .outOfFuel ∧
      ((unmarshal codecs tools batchSize.size faults false seekable ∅ r).1 = .returned none →
        ∀ pin ∈ pins, ∃ data, serializePin codecs pin = .ok data ∧
          (unmarshal codecs tools batchSize.size faults false seekable ∅ r).2.rows.lookup pin.cid = some data)

/-- An export ends, does not panic, and what it wrote restores the pins if it succeeds. -/
structure Exports (started : Export) : Prop where
  ends : ∃ bound, ∀ events target,
    (exportMachine codecs source header).run started events = some target → events.length ≤ bound
  noPanic : ∀ events target, (exportMachine codecs source header).run started events = some target →
    target.feeder.stage ≠ .panicked
  returns : ∀ events target, (exportMachine codecs source header).run started events = some target →
    (∀ event, (exportMachine codecs source header).step target event = none) → ∃ err, target.stage = .returned err
  restores : ∀ events target, (exportMachine codecs source header).run started events = some target →
    target.stage = .returned none → Restores codecs batchSize source.pins target.out

variable {codecs source header batchSize}

theorem exportInv_run {target : Export} {events : List ExportEvent}
    (ran : (exportMachine codecs source header).run { feeder := .new batchSize.size source.pins } events =
      some target) : ExportInv codecs header batchSize.size (unread codecs header source.pins) target := by
  refine LabeledMachine.invariant_of_run _ (fun _ _ _ inv step => exportInv_step inv step) ?_ ran
  exact ⟨rfl, rfl, rfl⟩

theorem exists_panic (notStuck : ¬ Stuck codecs header source.pins batchSize.size) :
    ∃ events target, (exportMachine codecs source header).run { feeder := .new batchSize.size source.pins } events =
      some target ∧ target.feeder.stage = .panicked := by
  refine LabeledMachine.exists_run_of_bounded (fun e => e.feeder.stage = .panicked)
    (fun _ _ ran => length_le_of_export ran) fun events target ran alive => ?_
  by_contra noStep
  have halted (event : ExportEvent) : (exportMachine codecs source header).step target event = none :=
    Option.not_isSome_iff_eq_none.mp fun enabled => noStep ⟨event, enabled⟩
  exact notStuck (stuck_of_halted (exportInv_run ran) batchSize.positive alive halted).2

variable (codecs source header batchSize)

/-- `Marshal` followed by `Unmarshal` behaves exactly for closed states, which are refused, and for exports that get
stuck. -/
theorem scylla_export_iff :
    (∀ started, marshal source batchSize = .ok started → Exports codecs source header batchSize started) ↔
      source.closed = true ∨ Stuck codecs header source.pins batchSize.size := by
  cases closed : source.closed with
  | true =>
    refine iff_of_true (fun started isStarted => ?_) (.inl rfl)
    rw [marshal, if_pos closed] at isStarted
    cases isStarted
  | false =>
    have start : marshal source batchSize = .ok { feeder := .new batchSize.size source.pins } := by
      rw [marshal, closed]
      rfl
    constructor
    · intro holds
      refine .inr (by_contra fun notStuck => ?_)
      obtain ⟨events, target, ran, panicked⟩ := exists_panic notStuck
      exact (holds _ start).noPanic events target ran panicked
    · rintro (isClosed | ⟨count, isUnread, large⟩) started isStarted
      · cases isClosed
      · rw [start] at isStarted
        obtain rfl := Except.ok.inj isStarted
        have reached {events : List ExportEvent} {target : Export}
            (ran : (exportMachine codecs source header).run { feeder := .new batchSize.size source.pins } events =
              some target) : ExportInv codecs header batchSize.size (some count) target :=
          isUnread ▸ exportInv_run ran
        have alive {events : List ExportEvent} {target : Export}
            (ran : (exportMachine codecs source header).run { feeder := .new batchSize.size source.pins } events =
              some target) : target.feeder.stage ≠ .panicked := by
          intro panicked
          have isOpen := not_closed_of_stuck (reached ran) large
          have fed := (reached ran).fed
          rw [Fed, panicked, isOpen] at fed
          cases fed
        refine ⟨⟨_, fun _ _ ran => length_le_of_export ran⟩, fun _ _ ran => alive ran, fun _ _ ran halted => ?_,
          fun _ _ ran returned => ?_⟩
        · obtain ⟨⟨err, returned⟩, -⟩ := stuck_of_halted (reached ran) batchSize.positive (alive ran) halted
          exact ⟨_, returned⟩
        · have accounts := (reached ran).accounts
          rw [Accounts, returned] at accounts
          rcases accounts with ⟨-, failed⟩ | ⟨absurd, -⟩
          · exact absurd rfl failed
          · cases absurd

theorem scylla_export_panics : ∃ started target, marshal { pins := [] } ⟨1, Nat.one_pos⟩ = .ok started ∧
      (exportMachine noCodecs { pins := [] } (.ok [])).run started [.write, .list, .list, .list] = some target ∧
      target.feeder.stage = .panicked :=
  ⟨_, _, rfl, rfl, rfl⟩

end

section

variable {codecs : PinCodecs} {tools : ImportTools} {batchSize : ℕ}

def scanDecimal (input : Bytes) : Scan × Bytes :=
  match input.takeWhile (fun byte => 48 ≤ byte ∧ byte ≤ 57), input.dropWhile (fun byte => 48 ≤ byte ∧ byte ≤ 57) with
  | [], [] => (.eof, [])
  | [], _ :: rest => (.failed "expected integer", rest)
  | digits, 10 :: rest => (.length (digits.foldl (fun n byte => n * 10 + (byte.toNat - 48)) 0 : ℕ), rest)
  | _, rest => (.failed "newline in format does not match input", rest.tail)

theorem scanDecimal_suffix (input : Bytes) : (scanDecimal input).2 <:+ input := by
  have dropped : input.dropWhile (fun byte => 48 ≤ byte ∧ byte ≤ 57) <:+ input := dropWhile_suffix _
  refine List.IsSuffix.trans ?_ dropped
  unfold scanDecimal
  generalize input.takeWhile (fun byte => 48 ≤ byte ∧ byte ≤ 57) = digits
  generalize input.dropWhile (fun byte => 48 ≤ byte ∧ byte ≤ 57) = rest
  split
  · exact nil_suffix
  · exact suffix_cons _ _
  · exact suffix_cons _ _
  · exact tail_suffix _

def readingTools (size : ℕ) : ImportTools where
  decodeHeader r := (.error (.text "json: cannot unmarshal number into Go value of type scyllastate.StateExportHeader"),
    (r.read size).2)
  scanLength := scanDecimal
  maxAlloc := 2 ^ 32

def onePinCodecs : PinCodecs where
  protoEncode _ := .ok [1]
  protoDecode _ := .ok ({ cid := ⟨"A"⟩ } : Pin).protoMarshal
  jsonMarshal pin := .ok pin.data
  jsonUnmarshal _ := .error (.text "no codec")
  cidString c := c.bytes

def oneRecord : Reader := .prepend (legacyRecords [[7]]) ⟨[], nofun⟩

end

/-- The iterations that were made end as they do at the levels that were tried, and each stored pin is sent exactly once
if and only if each of these outcomes that is a failure comes before the first row. -/
theorem list_once_iff {codecs : PinCodecs} {castCid : Bytes → Except Error Cid} {table : List StoredPin}
    {iterate : ℕ → Consistency → Iteration} {s : DegradingState} {ctx : Context} {now : Time}
    {gdm : GracefulDegradationManager} (enabled : s.degradationManager = some gdm)
    (decodable : ∀ row ∈ table, ∃ pin, pinOf codecs castCid row = some pin)
    (returned : (s.list ctx now codecs castCid table iterate).1 = none) :
    ∃ levels : List Consistency, (s.list ctx now codecs castCid table iterate).2.2.made = levels.mapIdx iterate ∧
      ((s.list ctx now codecs castCid table iterate).2.2.out.Perm (table.filterMap (pinOf codecs castCid)) ↔
        ∀ iteration ∈ levels.mapIdx iterate, iteration.err ≠ none → iteration.rows table = []) := by
  obtain ⟨failed, last, made, ⟨levels, atLevels⟩, allFailed, ended, out⟩ := list_sends enabled returned
  refine ⟨levels, made.trans atLevels, ?_⟩
  have once : (failed.flatMap (pinsOf codecs castCid table) ++ table.filterMap (pinOf codecs castCid)).Perm
      (table.filterMap (pinOf codecs castCid)) ↔ failed.flatMap (pinsOf codecs castCid table) = [] := by
    constructor
    · intro perm
      have lengths := perm.length_eq
      rw [length_append] at lengths
      exact length_eq_zero_iff.mp (by omega)
    · intro nothing
      rw [nothing, nil_append]
  rw [← atLevels, out, once, flatMap_eq_nil_iff, forall_mem_append, forall_mem_singleton]
  constructor
  · intro nothing
    refine ⟨fun iteration member _ => ?_, fun unfinished => absurd ended unfinished⟩
    exact (pinsOf_eq_nil_iff decodable iteration).mp (nothing iteration member)
  · rintro ⟨nothing, -⟩ iteration member
    exact (pinsOf_eq_nil_iff decodable iteration).mpr (nothing iteration member (allFailed iteration member))

def castByte : Bytes → Except Error Cid
  | [1] => .ok ⟨"A"⟩
  | [2] => .ok ⟨"B"⟩
  | _ => .error (.text "invalid CID")

def twoRows : List StoredPin := [⟨[1], [7]⟩, ⟨[2], [7]⟩]

def timesOutAfter (read : ℕ) (n : ℕ) (_level : Consistency) : Iteration :=
  if n = 0 then { read, err := some (.text "timeout") } else {}

theorem list_sends_twice :
    ((DegradingState.mk false .quorum (some (threeNodes .quorum))).list {} ⟨0⟩ onePinCodecs castByte twoRows
      (timesOutAfter 1)).1 = none ∧
    ((DegradingState.mk false .quorum (some (threeNodes .quorum))).list {} ⟨0⟩ onePinCodecs castByte twoRows
      (timesOutAfter 1)).2.2.out.map Pin.cid = [⟨"A"⟩, ⟨"A"⟩, ⟨"B"⟩] := by
  refine ⟨?_, ?_⟩ <;> decide +kernel

theorem list_once_iff_timeout :
    ((DegradingState.mk false .quorum (some (threeNodes .quorum))).list {} ⟨0⟩ onePinCodecs castByte twoRows
      (timesOutAfter 0)).2.2.out.Perm (twoRows.filterMap (pinOf onePinCodecs castByte)) := by
  have decodable : ∀ row ∈ twoRows, (pinOf onePinCodecs castByte row).isSome = true := by decide +kernel
  obtain ⟨levels, made, once⟩ := @list_once_iff onePinCodecs castByte twoRows (timesOutAfter 0)
    ⟨false, .quorum, some (threeNodes .quorum)⟩ {} ⟨0⟩ _ rfl
    (fun row member => Option.isSome_iff_exists.mp (decodable row member)) (by decide +kernel)
  rw [once, ← made]
  decide +kernel

end IpfsCluster.Soundness

import IpfsCluster.Golang.Chan
import IpfsCluster.Golang.Reader
import IpfsCluster.Model.State.ScyllaOperations

/-! # Export and import of the state

`Marshal` starts a goroutine that lists the pins into a channel and writes what it receives. The list closes the channel
at its end, and so does the goroutine when the list has returned. A panic in a goroutine ends the program.

`Unmarshal` reads an optional header with a JSON decoder, which may read further than the header, and then records from
what is left: a decimal length, a newline, as many bytes, and one more byte. `Migrate` keeps the bytes of one read, and
tries `Unmarshal` and then the records alone, twice; each attempt starts with the kept bytes and goes on with what the
attempts before have left of the reader.
-/

namespace IpfsCluster.Model.Scyllastate

open Api Golang Machine

/-- What is exported, as the list yields it, and how the list ends. -/
structure ExportSource where
  closed : Bool := false
  pins : List Pin
  listErr : Option String := none

/-- The size of batches, which the configuration requires to be positive. -/
structure BatchSize where
  size : ℕ
  positive : 0 < size

inductive ExportStage where
  | header
  | ranging
  | returned (err : Option Error)
deriving DecidableEq

structure Export where
  feeder : Feeder Pin
  /-- The variable that the listing goroutine assigns and the writing one reads. -/
  listErr : Option String := none
  stage : ExportStage := .header
  out : Bytes := []

inductive ExportEvent where
  | list
  | write
deriving DecidableEq, Repr

def lengthLine (length : ℕ) : Bytes := (length.repr ++ "\n").toUTF8.toList

def newline : Bytes := "\n".toUTF8.toList

section

variable (codecs : PinCodecs) (source : ExportSource) (header : Except Error Bytes)

/-- The listing goroutine: `List`, then the assignment of its error, then the deferred close. -/
def Export.list (e : Export) : Option Export :=
  match e.feeder.stage with
  | .sending _ => (e.feeder.list true).map fun feeder => { e with feeder := feeder }
  | .ended => some { e with feeder := { e.feeder with stage := .finished }, listErr := source.listErr }
  | .finished => some { e with feeder := e.feeder.close }
  | .done | .panicked => none

def Export.writePin (e : Export) (pin : Pin) : Export :=
  match serializePin codecs pin with
  | .error err => { e with stage := .returned (some (.text ("failed to serialize pin " ++ codecs.cidString pin.cid ++
      ": " ++ errorText err))) }
  | .ok pinData => { e with out := e.out ++ lengthLine pinData.length ++ pinData ++ newline }

/-- The writing goroutine; the writer accepts everything. -/
def Export.write (e : Export) : Option Export :=
  match e.stage with
  | .header => some (match header with
    | .error err => { e with stage := .returned (some (.text ("failed to write state header: " ++ errorText err))) }
    | .ok bytes => { e with stage := .ranging, out := e.out ++ bytes ++ newline })
  | .ranging =>
    match e.feeder.ch.tryReceive with
    | none => none
    | some (some pin, ch) => some ({ e with feeder := { e.feeder with ch := ch } }.writePin codecs pin)
    | some (none, _) => some { e with stage := .returned (e.listErr.map fun err =>
        .text ("failed to list pins during marshal: " ++ err)) }
  | .returned _ => none

/-- A panic leaves nothing to run. -/
def exportMachine : LabeledMachine Export ExportEvent where
  step e
    | .list => if e.feeder.stage = .panicked then none else e.list source
    | .write => if e.feeder.stage = .panicked then none else e.write codecs header

/-- The start of `Marshal`; a closed state starts no goroutine. -/
def marshal (batchSize : BatchSize) : Except Error Export :=
  if source.closed then .error (.text "ScyllaState is closed")
  else .ok { feeder := .new batchSize.size source.pins }

end

abbrev PinRows := AList fun _ : Cid => Bytes

inductive Scan where
  | length (n : ℤ)
  | eof
  | failed (message : String)
deriving DecidableEq, Repr

structure ImportTools where
  /-- Decode a header and yield its version, and what is left of the reader. -/
  decodeHeader : Reader → Except Error ℤ × Reader
  /-- Scan a length and a newline. -/
  scanLength : Bytes → Scan × Bytes
  /-- The largest length that can be allocated. -/
  maxAlloc : ℕ

def currentStateVersion : ℤ := 1

/-- How an import ends; a length that is negative or too large panics when the bytes are allocated. -/
inductive ImportEnd where
  | returned (err : Option Error)
  | panicked
  | outOfFuel
deriving DecidableEq

inductive RecordRead where
  | ended
  | failed (message : String) (left : Bytes)
  | notAllocated
  | record (data : Bytes) (left : Bytes)

/-- An import in progress: the rows, what was written by the batches that are committed, the batch that is not, and
what the reader holds when the import ends. -/
structure Import where
  rows : PinRows := ∅
  written : List (Cid × Bytes) := []
  batch : List (Cid × Bytes) := []
  count : ℕ := 0
  left : Bytes := []

/-- The faults of the database while a batch is committed, by the number of pins imported before. -/
abbrev CommitFaults := ℕ → Option String

section

variable (codecs : PinCodecs) (tools : ImportTools) (batchSize : ℕ) (faults : CommitFaults)

def Import.add (i : Import) (pin : Pin) : Except Error Import :=
  match serializePin codecs pin with
  | .error err => .error (.text ("failed to serialize pin: " ++ errorText err))
  | .ok pinData => .ok { i with batch := i.batch ++ [(pin.cid, pinData)], count := i.count + 1 }

/-- Write the batch; an empty batch is not sent. -/
def Import.commit (i : Import) : Except Error Import :=
  if i.batch = [] then .ok i
  else match faults i.count with
    | some err => .error (.text err)
    | none => .ok { i with
        rows := i.batch.foldl (fun rows entry => rows.insert entry.1 entry.2) i.rows
        written := i.written ++ i.batch
        batch := [] }

/-- One record that was read: undecodable data is skipped, and a full batch is committed. -/
def Import.record (activity : String) (i : Import) (data : Bytes) : Except Error Import :=
  match codecs.protoDecode data >>= Pin.protoUnmarshal with
  | .error _ => .ok i
  | .ok pin =>
    match i.add codecs pin with
    | .error err => .error (.text ("failed to add pin to batch during " ++ activity ++ ": " ++ errorText err))
    | .ok i =>
      if batchSize ≤ i.batch.length then
        match i.commit faults with
        | .error err => .error (.text ("failed to commit batch during " ++ activity ++ ": " ++ errorText err))
        | .ok i => .ok i
      else .ok i

def Import.finish (activity : String) (i : Import) : ImportEnd × Import :=
  match i.commit faults with
  | .error err =>
    (.returned (some (.text ("failed to commit final batch during " ++ activity ++ ": " ++ errorText err))), i)
  | .ok i => (.returned none, i)

/-- Read a length, the data and one more byte. -/
def readRecord (input : Bytes) : RecordRead :=
  match tools.scanLength input with
  | (.eof, _) => .ended
  | (.failed message, rest) => .failed ("failed to read pin length: " ++ message) rest
  | (.length n, rest) =>
    if n < 0 ∨ tools.maxAlloc < n then .notAllocated
    else if rest.length < n.toNat then
      .failed ("failed to read pin data: " ++ if rest = [] then "EOF" else "unexpected EOF") []
    else match rest.drop n.toNat with
      | [] => .failed "failed to read newline: EOF" []
      | _ :: left => .record (rest.take n.toNat) left

def importRecords (activity : String) : ℕ → Import → Bytes → ImportEnd × Import
  | 0, i, _ => (.outOfFuel, i)
  | fuel + 1, i, input =>
    match readRecord tools input with
    | .ended => i.finish faults activity
    | .failed message left => (.returned (some (.text message)), { i with left := left })
    | .notAllocated => (.panicked, i)
    | .record data left =>
      match i.record codecs batchSize faults activity data with
      | .error err => (.returned (some err), { i with left := left })
      | .ok i => importRecords activity fuel i left

/-- Import into a state; a reader that can seek is reset if there is no header. -/
def unmarshal (closed seekable : Bool) (rows : PinRows) (r : Reader) : ImportEnd × Import :=
  if closed then (.returned (some (.text "ScyllaState is closed")), { rows := rows })
  else match tools.decodeHeader r with
    | (.ok version, rest) =>
      if currentStateVersion < version then
        (.returned (some (.text ("unsupported state version " ++ version.repr ++ " (current: " ++
          currentStateVersion.repr ++ ")"))), { rows := rows, left := rest.bytes })
      else importRecords codecs tools batchSize faults "unmarshal" (rest.bytes.length + 1) { rows := rows } rest.bytes
    | (.error _, rest) =>
      let rest := if seekable then r else rest
      importRecords codecs tools batchSize faults "unmarshal" (rest.bytes.length + 1) { rows := rows } rest.bytes

/-- Import records without a header, into the rows that are there. -/
def migrateLegacyFormat (i : Import) (input : Bytes) : ImportEnd × Import :=
  importRecords codecs tools batchSize faults "migration" (input.length + 1)
    { rows := i.rows, written := i.written } input

/-- Taken to be the legacy format. -/
def migrateDSStateFormat (i : Import) (input : Bytes) : ImportEnd × Import :=
  migrateLegacyFormat codecs tools batchSize faults i input

end

/-- What is left of a reader when some bytes are left of other bytes followed by it. -/
def unreadOf (r left : Bytes) : Bytes := left.drop (left.length - r.length)

/-- Go on if an attempt returned an error. -/
def ifFailed (attempt : ImportEnd × Import) (next : Error → Import → ImportEnd × Import) : ImportEnd × Import :=
  match attempt with
  | (.returned (some err), i) => next err i
  | _ => attempt

section

variable (codecs : PinCodecs) (tools : ImportTools) (batchSize : ℕ) (faults : ℕ → CommitFaults)

/-- Migrate from a reader whose first read may fail. The faults are those of the first, second and third attempt. -/
def migrate (closed : Bool) (readErr : Option String) (rows : PinRows) (r : Reader) : ImportEnd × Import :=
  if closed then (.returned (some (.text "ScyllaState is closed")), { rows := rows })
  else match readErr with
    | some err => (.returned (some (.text ("failed to read migration data header: " ++ err))), { rows := rows })
    | none =>
      let (buf, r) := r.read 1024
      ifFailed (unmarshal codecs tools batchSize (faults 0) closed false rows (.prepend buf r)) fun _ i =>
        ifFailed (migrateLegacyFormat codecs tools batchSize (faults 1) i (buf ++ unreadOf r.bytes i.left)) fun _ i =>
          ifFailed (migrateDSStateFormat codecs tools batchSize (faults 2) i (buf ++ unreadOf r.bytes i.left))
            fun err i =>
              (.returned (some (.text ("failed to migrate state from any known format: " ++ errorText err))), i)

end

end IpfsCluster.Model.Scyllastate

import IpfsCluster.Golang.Text
import IpfsCluster.Model.Api.Types

/-! # Migrations of the schema

The manager compares the greatest version in the version table with those of its migrations, and applies the newer ones.
Running the statements of a migration's script with its validation, creating the table and reading and writing it may
fail; these errors are inputs. The versions that were recorded are kept in their order for comparison.
-/

namespace IpfsCluster.Model.Scyllastate.Schema

open Api Golang

def currentSchemaVersion : String := "1.1.0"

def minSupportedVersion : String := "1.0.0"

structure SchemaVersion where
  version : String
  appliedAt : Time
  comment : String

structure Migration where
  version : String
  description : String

/-- `sort.Slice`, which returns the same permutation for the same slice. Versions are not compared by an order, as
numbers and texts mix, so that no more is asked for. -/
structure SliceSort where
  sort : {α : Type} → (α → α → Bool) → List α → List α
  sort_perm : ∀ {α : Type} (less : α → α → Bool) (slice : List α), (sort less slice).Perm slice

/-- What `sort.Slice` does with a few elements. -/
def SliceSort.insertion : SliceSort where
  sort less slice := slice.insertionSort fun a b => less b a = false
  sort_perm _ _ := List.perm_insertionSort _ _

structure MigrationManager where
  migrations : List Migration
  sortSlice : SliceSort

def registeredMigrations : List Migration :=
  [⟨"1.0.0", "Initial schema creation"⟩, ⟨"1.1.0", "Add enhanced pin metadata and performance tables"⟩]

def newMigrationManager (sortSlice : SliceSort) : MigrationManager := ⟨registeredMigrations, sortSlice⟩

/-- The rows of the version table, and the errors of the calls, that of a script by its version. -/
structure Database where
  versions : List SchemaVersion
  createErr : Option String := none
  queryErr : Option String := none
  scriptErr : String → Option String := fun _ => none
  insertErr : Option String := none
  applied : List String := []

def comparePart (part1 part2 : String) : ℤ :=
  match atoi part1, atoi part2 with
  | some num1, some num2 => if num1 < num2 then -1 else if num1 > num2 then 1 else 0
  | _, _ => if part1 < part2 then -1 else if part1 > part2 then 1 else 0

def padded (maxLen : ℕ) (parts : List String) : List String := parts.rightpad maxLen "0"

/-- The first difference of the parts decides. -/
def compareVersions (v1 v2 : String) : ℤ :=
  let parts1 := split '.' v1
  let parts2 := split '.' v2
  let maxLen := max parts1.length parts2.length
  ((List.zipWith comparePart (padded maxLen parts1) (padded maxLen parts2)).find? (· ≠ 0)).getD 0

def isVersionSupported (version : String) : Bool := 0 ≤ compareVersions version minSupportedVersion

/-- What `parseStatements` has when it comes to a character. -/
structure Scan where
  statements : List String := []
  current : String := ""
  inString : Bool := false

def Scan.next (scan : Scan) (previous : Option Char) (char : Char) : Scan :=
  let inString := if char = '\'' ∧ previous ≠ some '\\' then !scan.inString else scan.inString
  if char = ';' ∧ inString = false then
    { statements := scan.statements ++ [trimSpace scan.current], current := "", inString }
  else { scan with current := scan.current.push char, inString }

def scanScript : Option Char → List Char → Scan → Scan
  | _, [], scan => scan
  | previous, char :: rest, scan => scanScript (some char) rest (scan.next previous char)

def parseStatements (script : String) : List String :=
  let scan := scanScript none script.toList {}
  if trimSpace scan.current ≠ "" then scan.statements ++ [trimSpace scan.current] else scan.statements

namespace Database

variable (db : Database)

def initializeSchema : Except String Unit :=
  match db.createErr with
  | some err => .error ("failed to create schema version table: " ++ err)
  | none => .ok ()

/-- The row with the greatest version, in the order of texts, which the query asks for. CQL orders by clustering columns
only, and the version is the partition key; a server that refuses the query answers with `queryErr`. -/
def getCurrentVersion : Except String (Option SchemaVersion) :=
  match db.queryErr with
  | some err => .error ("failed to query schema version: " ++ err)
  | none => .ok (db.versions.argmax SchemaVersion.version)

def setVersion (version comment : String) (now : Time) : Option String × Database :=
  match db.insertErr with
  | some err => (some ("failed to set schema version: " ++ err), db)
  | none =>
    (none, { db with
      versions := ⟨version, now, comment⟩ :: db.versions.filter (·.version ≠ version)
      applied := db.applied ++ [version] })

def checkCompatibility : Except String Unit :=
  match db.getCurrentVersion with
  | .error err => .error ("failed to get current schema version: " ++ err)
  | .ok none => .ok ()
  | .ok (some current) =>
    if !isVersionSupported current.version then
      .error ("schema version " ++ current.version ++ " is not supported (minimum: " ++ minSupportedVersion ++
        ", current: " ++ currentSchemaVersion ++ ")")
    else if 0 < compareVersions current.version currentSchemaVersion then
      .error ("schema version " ++ current.version ++ " is newer than supported version " ++ currentSchemaVersion ++
        " - please upgrade the application")
    else .ok ()

end Database

def applyMigration (now : Time) (migration : Migration) (db : Database) : Option String × Database :=
  match db.scriptErr migration.version with
  | some err => (some err, db)
  | none =>
    match db.setVersion migration.version migration.description now with
    | (some err, db) => (some ("failed to record migration: " ++ err), db)
    | (none, db) => (none, db)

def applyAll (now : Time) : List Migration → Database → Option String × Database
  | [], db => (none, db)
  | migration :: rest, db =>
    match applyMigration now migration db with
    | (some err, db) => (some ("failed to apply migration " ++ migration.version ++ ": " ++ err), db)
    | (none, db) => applyAll now rest db

structure MigrationStatus where
  currentVersion : String
  targetVersion : String
  migrationsNeeded : Bool
  pendingMigrations : List String
  lastMigration : Option Time

namespace MigrationManager

variable (mm : MigrationManager)

def getPendingMigrations (currentVersion : String) : List Migration :=
  mm.sortSlice.sort (fun a b => compareVersions a.version b.version < 0)
    (mm.migrations.filter fun migration => 0 < compareVersions migration.version currentVersion)

/-- Apply what is pending; a fresh installation starts before all versions. -/
def applyMigrations (now : Time) (db : Database) : Option String × Database :=
  match db.initializeSchema with
  | .error err => (some ("failed to initialize schema: " ++ err), db)
  | .ok () =>
    match db.checkCompatibility with
    | .error err => (some ("compatibility check failed: " ++ err), db)
    | .ok () =>
      match db.getCurrentVersion with
      | .error err => (some ("failed to get current version: " ++ err), db)
      | .ok current => applyAll now (mm.getPendingMigrations ((current.map SchemaVersion.version).getD "0.0.0")) db

/-- The status without the validation of the schema. -/
def getMigrationStatus (db : Database) : Except String MigrationStatus :=
  match db.getCurrentVersion with
  | .error err => .error ("failed to get current version: " ++ err)
  | .ok current =>
    let currentVersion := (current.map SchemaVersion.version).getD "none"
    let pending := mm.getPendingMigrations currentVersion
    .ok {
      currentVersion
      targetVersion := currentSchemaVersion
      migrationsNeeded := 0 < pending.length
      pendingMigrations := pending.map Migration.version
      lastMigration := current.map SchemaVersion.appliedAt }

end MigrationManager

end IpfsCluster.Model.Scyllastate.Schema

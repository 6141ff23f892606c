import IpfsCluster.Model.State.SchemaMigrations

/-! # Soundness of the migrations of the schema

The status has to list the migrations that would be applied, but without a version in the table it compares versions
with the text that it shows instead. Versions have to be ordered by their comparison, and the script of a migration
split into the statements that it has by CQL.
-/

namespace IpfsCluster.Soundness

open Golang Model.Api Model.Scyllastate.Schema List Migration

variable (mm : MigrationManager) (now : Time)

theorem applyAll_eq (pending : List Migration) (db : Database) (scripts : ∀ version, db.scriptErr version = none)
    (inserts : db.insertErr = none) : (applyAll now pending db).1 = none ∧
      (applyAll now pending db).2.applied = db.applied ++ pending.map version := by
  induction pending generalizing db with
  | nil => simp [applyAll]
  | cons migration rest ih =>
    simp only [applyAll, applyMigration, scripts, Database.setVersion, inserts]
    obtain ⟨returned, applied⟩ := ih (db.setVersion migration.version migration.description now).2
      (by simpa [Database.setVersion, inserts] using scripts) (by simp [Database.setVersion, inserts])
    simp only [Database.setVersion, inserts] at returned applied
    exact ⟨returned, by rw [applied, map_cons, append_assoc]; rfl⟩

theorem mem_pending_versions_iff {version current : String} :
    version ∈ (mm.getPendingMigrations current).map Migration.version ↔
      version ∈ mm.migrations.map Migration.version ∧ 0 < compareVersions version current := by
  have perm := mm.sortSlice.sort_perm (fun a b => compareVersions a.version b.version < 0)
    (mm.migrations.filter fun migration => 0 < compareVersions migration.version current)
  simp only [MigrationManager.getPendingMigrations, mem_map, perm.mem_iff, mem_filter, decide_eq_true_eq]
  constructor
  · rintro ⟨migration, ⟨registered, newer⟩, rfl⟩
    exact ⟨⟨migration, registered, rfl⟩, newer⟩
  · rintro ⟨⟨migration, registered, rfl⟩, newer⟩
    exact ⟨migration, ⟨registered, newer⟩, rfl⟩

theorem pending_versions_eq_iff (current other : String) :
    (mm.getPendingMigrations current).map version = (mm.getPendingMigrations other).map version ↔
      ∀ migration ∈ mm.migrations,
        (0 < compareVersions migration.version current ↔ 0 < compareVersions migration.version other) := by
  constructor
  · intro same migration registered
    have listed : migration.version ∈ mm.migrations.map version := mem_map_of_mem registered
    have either : migration.version ∈ (mm.getPendingMigrations current).map version ↔
        migration.version ∈ (mm.getPendingMigrations other).map Migration.version := by rw [same]
    rwa [mem_pending_versions_iff, mem_pending_versions_iff, and_iff_right listed, and_iff_right listed] at either
  · intro same
    have filtered : mm.migrations.filter (fun migration => 0 < compareVersions migration.version current) =
        mm.migrations.filter fun migration => 0 < compareVersions migration.version other :=
      filter_congr fun migration registered => decide_eq_decide.mpr (same migration registered)
    simp only [MigrationManager.getPendingMigrations, filtered]

def versionOr (versions : List SchemaVersion) (fresh : String) : String :=
  ((versions.argmax SchemaVersion.version).map SchemaVersion.version).getD fresh

theorem applied_eq {versions : List SchemaVersion}
    (compatible : ({ versions } : Database).checkCompatibility = .ok ()) :
    (mm.applyMigrations now { versions }).2.applied =
      (mm.getPendingMigrations (versionOr versions "0.0.0")).map version := by
  rw [MigrationManager.applyMigrations, compatible]
  exact (applyAll_eq now _ { versions } (fun _ => rfl) rfl).2

theorem versionOr_agrees_iff (versions : List SchemaVersion) : (∀ migration ∈ mm.migrations,
      (0 < compareVersions migration.version (versionOr versions "none") ↔
        0 < compareVersions migration.version (versionOr versions "0.0.0"))) ↔
    versions ≠ [] ∨ ∀ migration ∈ mm.migrations,
      (0 < compareVersions migration.version "none" ↔ 0 < compareVersions migration.version "0.0.0") := by
  cases greatest : versions.argmax SchemaVersion.version with
  | none =>
    obtain rfl := argmax_eq_none.mp greatest
    exact (or_iff_right (not_not.mpr rfl)).symm
  | some current =>
    have filled : versions ≠ [] := fun empty => by
      rw [argmax_eq_none.mpr empty] at greatest
      cases greatest
    simp [versionOr, greatest, filled]

/-- The status lists what a call without errors applies, and says whether there is any, exactly when there is a version
in the table or the same registered versions are newer than the shown text as than a fresh installation. -/
theorem migrationStatus_lists_applied_iff (versions : List SchemaVersion)
    (compatible : ({ versions } : Database).checkCompatibility = .ok ()) :
    (∃ status, mm.getMigrationStatus { versions } = .ok status ∧
      status.pendingMigrations = (mm.applyMigrations now { versions }).2.applied ∧
      (status.migrationsNeeded = true ↔ (mm.applyMigrations now { versions }).2.applied ≠ [])) ↔
    versions ≠ [] ∨ ∀ migration ∈ mm.migrations,
      (0 < compareVersions migration.version "none" ↔ 0 < compareVersions migration.version "0.0.0") := by
  rw [← versionOr_agrees_iff, ← pending_versions_eq_iff, applied_eq mm now compatible]
  constructor
  · rintro ⟨status, returned, same, -⟩
    obtain rfl := Except.ok.inj returned
    exact same
  · intro same
    refine ⟨_, rfl, same, ?_⟩
    rw [← same]
    simp [versionOr, length_pos_iff]

def firstVersion : List SchemaVersion := [⟨"1.0.0", Time.zero, "Initial schema creation"⟩]

theorem migrationStatus_lists_applied_iff_first :
    ∃ status, (newMigrationManager .insertion).getMigrationStatus { versions := firstVersion } = .ok status ∧
      status.pendingMigrations =
        ((newMigrationManager .insertion).applyMigrations Time.zero { versions := firstVersion }).2.applied ∧
      (status.migrationsNeeded = true ↔
        ((newMigrationManager .insertion).applyMigrations Time.zero { versions := firstVersion }).2.applied ≠ []) :=
  (migrationStatus_lists_applied_iff _ _ firstVersion (by decide +kernel)).mpr (.inl (cons_ne_nil _ _))

theorem migrationStatus_fresh :
    ∃ status, (newMigrationManager .insertion).getMigrationStatus { versions := [] } = .ok status ∧
      status.pendingMigrations = [] ∧ status.migrationsNeeded = false ∧
      ((newMigrationManager .insertion).applyMigrations Time.zero { versions := [] }).2.applied = ["1.0.0", "1.1.0"] :=
  ⟨_, rfl, by decide +kernel, by decide +kernel, by decide +kernel⟩

section

/-- The part of a version at a position; a version goes on with zeros. -/
def part (version : String) (i : ℕ) : String := (split '.' version).getD i "0"

theorem padded_eq {version : String} {maxLen : ℕ} (fits : (split '.' version).length ≤ maxLen) :
    padded maxLen (split '.' version) = (List.range maxLen).map (part version) := by
  apply ext_getElem?
  intro i
  rw [padded, List.rightpad, getElem?_append]
  by_cases inside : i < (split '.' version).length
  · simp [part, inside, inside.trans_le fits]
  · by_cases padding : i < maxLen
    · simp [part, inside, padding, getElem?_replicate]
      omega
    · simp [inside, padding, getElem?_replicate]
      omega

def compareAt (a b : String) (i : ℕ) : ℤ := comparePart (part a i) (part b i)

theorem compareVersions_eq (a b : String) : compareVersions a b =
    (((List.range (max (split '.' a).length (split '.' b).length)).find? fun i => compareAt a b i ≠ 0).map
      (compareAt a b)).getD 0 := by
  rw [compareVersions, padded_eq (le_max_left ..), padded_eq (le_max_right ..), zipWith_map, zipWith_self, find?_map]
  rfl

/-- A part as it is compared with its like, a number as a number. -/
def reading (text : String) : ℤ ⊕ String :=
  match atoi text with
  | some n => .inl n
  | none => .inr text

section

variable {α : Type} [LinearOrder α] {x y : α}

theorem sign_le_iff : (if x < y then -1 else if x > y then 1 else 0 : ℤ) ≤ 0 ↔ x ≤ y := by
  rcases lt_trichotomy x y with less | rfl | more
  · simp [less, less.le]
  · simp
  · simp [more, more.not_gt]

theorem sign_neg (x y : α) : (if x < y then -1 else if x > y then 1 else 0 : ℤ)
    = -(if y < x then -1 else if y > x then 1 else 0) := by
  rcases lt_trichotomy x y with less | rfl | more
  · simp [less, less.not_gt]
  · simp
  · simp [more, more.not_gt]

end

theorem compareAt_neg (a b : String) (i : ℕ) : compareAt a b i = -compareAt b a i := by
  unfold compareAt comparePart
  cases atoi (part a i) with
  | none => cases atoi (part b i) <;> exact sign_neg _ _
  | some m =>
    cases atoi (part b i) with
    | none => exact sign_neg _ _
    | some n => exact sign_neg m n

theorem compareVersions_neg (a b : String) : compareVersions a b = -compareVersions b a := by
  have flip : compareAt a b = fun i => -compareAt b a i := funext (compareAt_neg a b)
  rw [compareVersions_eq, compareVersions_eq, max_comm, flip]
  simp only [ne_eq, neg_eq_zero]
  cases List.find? _ _ <;> rfl

variable {a b : String} {i : ℕ}

theorem lt_of_compareAt_ne_zero (differ : compareAt a b i ≠ 0) : i < max (split '.' a).length (split '.' b).length := by
  by_contra beyond
  obtain ⟨left, right⟩ := max_le_iff.mp (not_lt.mp beyond)
  rw [compareAt, part, part, getD_eq_default _ _ left, getD_eq_default _ _ right] at differ
  exact differ (by decide)

theorem compareVersions_lt_iff :
    compareVersions a b < 0 ↔ ∃ i, (∀ j < i, compareAt a b j = 0) ∧ compareAt a b i < 0 := by
  rw [compareVersions_eq]
  constructor
  · intro less
    cases first : (List.range (max (split '.' a).length (split '.' b).length)).find? fun i => compareAt a b i ≠ 0 with
    | none =>
      rw [first] at less
      exact absurd less (lt_irrefl 0)
    | some i =>
      rw [first] at less
      simp only [find?_range_eq_some, decide_not, Bool.not_not, decide_eq_true_eq] at first
      exact ⟨i, first.2.2, less⟩
  · rintro ⟨i, agree, less⟩
    have first : (List.range (max (split '.' a).length (split '.' b).length)).find? (fun j => compareAt a b j ≠ 0) =
        some i := by
      rw [find?_range_eq_some]
      exact ⟨decide_eq_true less.ne, mem_range.mpr (lt_of_compareAt_ne_zero less.ne), fun j earlier => by
        simpa using agree j earlier⟩
    rwa [first]

theorem compareAt_le_iff_number {m n : ℤ} (atA : atoi (part a i) = some m) (atB : atoi (part b i) = some n) :
    compareAt a b i ≤ 0 ↔ m ≤ n := by
  rw [compareAt, comparePart, atA, atB]
  exact sign_le_iff

theorem compareAt_le_iff_text (text : atoi (part a i) = none ∨ atoi (part b i) = none) :
    compareAt a b i ≤ 0 ↔ part a i ≤ part b i := by
  unfold compareAt comparePart
  cases atA : atoi (part a i) with
  | none => exact sign_le_iff
  | some m =>
    rw [text.resolve_left (by rw [atA]; exact Option.some_ne_none m)]
    exact sign_le_iff

theorem compareAt_eq_zero_iff : compareAt a b i = 0 ↔ reading (part a i) = reading (part b i) := by
  have both : compareAt a b i = 0 ↔ compareAt a b i ≤ 0 ∧ compareAt b a i ≤ 0 := by
    rw [compareAt_neg b a, Left.neg_nonpos_iff]
    exact le_antisymm_iff
  unfold reading
  rw [both]
  cases atA : atoi (part a i) with
  | none =>
    rw [compareAt_le_iff_text (.inl atA), compareAt_le_iff_text (.inr atA), ← le_antisymm_iff]
    cases atB : atoi (part b i) with
    | none => exact Sum.inr.injEq .. ▸ Iff.rfl
    | some n => exact iff_of_false (fun same => by rw [same, atB] at atA; cases atA) nofun
  | some m =>
    cases atB : atoi (part b i) with
    | none =>
      rw [compareAt_le_iff_text (.inr atB), compareAt_le_iff_text (.inl atB), ← le_antisymm_iff]
      exact iff_of_false (fun same => by rw [same, atB] at atA; cases atA) nofun
    | some n =>
      rw [compareAt_le_iff_number atA atB, compareAt_le_iff_number atB atA, ← le_antisymm_iff]
      exact Sum.inl.injEq .. ▸ Iff.rfl

/-- The first part in which two versions differ is smaller in the first one. -/
def Before (a b : String) : Prop :=
  ∃ i, (∀ j < i, reading (part a j) = reading (part b j)) ∧ compareAt a b i < 0

theorem compareVersions_lt_iff_before : compareVersions a b < 0 ↔ Before a b := by
  rw [compareVersions_lt_iff]
  exact exists_congr fun i => and_congr_left' (forall₂_congr fun j _ => compareAt_eq_zero_iff)

theorem compareVersions_le_iff : compareVersions a b ≤ 0 ↔ ¬ Before b a := by
  rw [← compareVersions_lt_iff_before, compareVersions_neg, Left.neg_nonpos_iff, not_lt]

variable {c : String}

/-- The parts of three versions at a position are the same. -/
def AgreeAt (a b c : String) (i : ℕ) : Prop :=
  reading (part a i) = reading (part b i) ∧ reading (part b i) = reading (part c i)

theorem AgreeAt.rotate (agree : AgreeAt a b c i) : AgreeAt b c a i := ⟨agree.2, (agree.1.trans agree.2).symm⟩

/-- A part that is not a number is, as a text, between the numbers of two versions that agree with it before. -/
def Between (a b c : String) : Prop :=
  ∃ i, (∀ j < i, AgreeAt a b c j) ∧ (atoi (part a i)).isSome ∧ atoi (part b i) = none ∧ (atoi (part c i)).isSome ∧
    part a i < part b i ∧ part b i < part c i

/-- The parts of three versions at a position are in a cycle. -/
def CycleAt (a b c : String) (i : ℕ) : Prop := compareAt a b i ≤ 0 ∧ compareAt b c i ≤ 0 ∧ compareAt c a i ≤ 0

section

variable (agree : ∀ j < i, AgreeAt a b c j) (differ : ¬ AgreeAt a b c i) (cycle : CycleAt a b c i)

include agree differ cycle

/-- A text can only be in a cycle with two numbers, since texts are ordered. -/
theorem between_of_text (text : atoi (part b i) = none) : Between a b c := by
  obtain ⟨first, second, third⟩ := cycle
  rw [compareAt_le_iff_text (.inr text)] at first
  rw [compareAt_le_iff_text (.inl text)] at second
  by_cases other : atoi (part c i) = none ∨ atoi (part a i) = none
  · rw [compareAt_le_iff_text other] at third
    have ab := le_antisymm first (second.trans third)
    have bc := le_antisymm second (third.trans first)
    exact absurd ⟨congrArg reading ab, congrArg reading bc⟩ differ
  · rw [not_or] at other
    refine ⟨i, agree, Option.isSome_iff_ne_none.mpr other.2, text, Option.isSome_iff_ne_none.mpr other.1, ?_, ?_⟩
    · exact lt_of_le_of_ne first fun same => other.2 (by rw [same, text])
    · exact lt_of_le_of_ne second fun same => other.1 (by rw [← same, text])

theorem between_of_cycle : Between a b c ∨ Between b c a ∨ Between c a b := by
  have agree' : ∀ j < i, AgreeAt b c a j := fun j below => (agree j below).rotate
  have cycle' : CycleAt b c a i := ⟨cycle.2.1, cycle.2.2, cycle.1⟩
  cases atB : atoi (part b i) with
  | none => exact .inl (between_of_text agree differ cycle atB)
  | some n =>
    cases atC : atoi (part c i) with
    | none => exact .inr (.inl (between_of_text agree' (fun same => differ same.rotate.rotate) cycle' atC))
    | some k =>
      cases atA : atoi (part a i) with
      | none =>
        refine .inr (.inr (between_of_text (fun j below => (agree' j below).rotate) (fun same => differ same.rotate)
          ⟨cycle'.2.1, cycle'.2.2, cycle'.1⟩ atA))
      | some m =>
        obtain ⟨first, second, third⟩ := cycle
        rw [compareAt_le_iff_number atA atB] at first
        rw [compareAt_le_iff_number atB atC] at second
        rw [compareAt_le_iff_number atC atA] at third
        have ab : m = n := by omega
        have bc : n = k := by omega
        simp [AgreeAt, reading, atA, atB, atC, ab, bc] at differ

end

theorem compareAt_le_of_le (le : compareVersions a b ≤ 0) (agree : ∀ j < i, reading (part a j) = reading (part b j)) :
    compareAt a b i ≤ 0 := by
  rw [compareAt_neg, Left.neg_nonpos_iff, ← not_lt]
  exact fun more => compareVersions_le_iff.mp le ⟨i, fun j below => (agree j below).symm, more⟩

theorem before_of_text (agree : ∀ j < i, reading (part a j) = reading (part b j))
    (text : atoi (part a i) = none ∨ atoi (part b i) = none) (less : part a i < part b i) : Before a b := by
  refine ⟨i, agree, ?_⟩
  rw [compareAt_neg, Left.neg_neg_iff, ← not_le, compareAt_le_iff_text text.symm]
  exact less.not_ge

/-- For all versions, comparing them the other way round gives the opposite result; and the comparison is transitive on a
set of versions exactly if, where a text is between the numbers of two versions at the first difference, these two are
in that order. -/
theorem versions_preorder_iff (versions : Set String) : (∀ a b, compareVersions a b = -compareVersions b a) ∧
      ((∀ a ∈ versions, ∀ b ∈ versions, ∀ c ∈ versions,
        compareVersions a b ≤ 0 → compareVersions b c ≤ 0 → compareVersions a c ≤ 0) ↔
      ∀ a ∈ versions, ∀ b ∈ versions, ∀ c ∈ versions, Between a b c → Before a c) := by
  refine ⟨compareVersions_neg, ?_, ?_⟩
  · rintro trans a inA b inB c inC ⟨i, agree, -, text, -, less, less'⟩
    have ab := before_of_text (fun j below => (agree j below).1) (.inr text) less
    have bc := before_of_text (fun j below => (agree j below).2) (.inl text) less'
    by_contra behind
    -- otherwise `c` is not behind `a`, and `b` before `c` would be before `a`
    have ba := trans b inB c inC a inA (compareVersions_lt_iff_before.mpr bc).le (compareVersions_le_iff.mpr behind)
    exact compareVersions_le_iff.mp ba ab
  · intro ordered a inA b inB c inC first second
    rw [compareVersions_le_iff]
    intro behind
    have third := (compareVersions_lt_iff_before.mpr behind).le
    have some_differ : ∃ i, ¬ AgreeAt a b c i := by
      obtain ⟨i, -, less⟩ := behind
      exact ⟨i, fun agree => less.ne (compareAt_eq_zero_iff.mpr agree.rotate.2)⟩
    obtain ⟨i, differ, least⟩ := WellFounded.has_min wellFounded_lt {i | ¬ AgreeAt a b c i} some_differ
    have agree (j : ℕ) (below : j < i) : AgreeAt a b c j := by
      by_contra other
      exact least j other below
    have cycle : CycleAt a b c i := ⟨compareAt_le_of_le first fun j below => (agree j below).1,
      compareAt_le_of_le second fun j below => (agree j below).2,
      compareAt_le_of_le third fun j below => (agree j below).rotate.2⟩
    rcases between_of_cycle agree differ cycle with between | between | between
    · exact compareVersions_le_iff.mp third (ordered a inA b inB c inC between)
    · exact compareVersions_le_iff.mp first (ordered b inB c inC a inA between)
    · exact compareVersions_le_iff.mp second (ordered c inC a inA b inB between)

theorem versions_cycle :
    compareVersions "1.10" "1.1x" = -1 ∧ compareVersions "1.1x" "1.9" = -1 ∧ compareVersions "1.10" "1.9" = 1 := by
  decide +kernel

end

/-- Where a script is: in the code, maybe after a dash, in a string or in a comment up to the end of the line. A doubled
quote ends the string and begins it again. -/
inductive Lexical
  | code (dash : Bool)
  | string
  | comment
  deriving DecidableEq

def Lexical.next : Lexical → Char → Lexical
  | code dash, char =>
    if char = '\'' then string else if char = '-' then (if dash then comment else code true) else code false
  | string, char => if char = '\'' then code false else string
  | comment, char => if char = '\n' then code false else comment

section

variable {σ τ : Type} (next : σ → Char → σ) (outside : σ → Bool) (next' : τ → Char → τ) (outside' : τ → Bool)

/-- The trimmed pieces between the semicolons that are outside, without the last one if it is empty. -/
def pieces (s : σ) (current : String) : List Char → List String
  | [] => if trimSpace current ≠ "" then [trimSpace current] else []
  | char :: rest =>
    if char = ';' ∧ outside s = true then trimSpace current :: pieces (next s char) "" rest
    else pieces (next s char) (current.push char) rest

theorem count_trimSpace (s : String) : (trimSpace s).toList.count ';' = s.toList.count ';' := by
  have dropped (chars : List Char) : (chars.dropWhile isSpace).count ';' = chars.count ';' := by
    have spaces : ';' ∉ chars.takeWhile isSpace := fun member => by
      cases mem_takeWhile_imp member
    nth_rewrite 2 [← chars.takeWhile_append_dropWhile]
    rw [count_append, count_eq_zero_of_not_mem spaces, Nat.zero_add]
  rw [trimSpace, String.toList_ofList, rdropWhile, count_reverse, dropped, count_reverse, dropped]

/-- What is in the current piece gets into the first one. -/
theorem exists_pieces_eq_cons (s : σ) {current : String} (marked : 0 < current.toList.count ';') (chars : List Char) :
    ∃ first rest, pieces next outside s current chars = first :: rest ∧
      current.toList.count ';' ≤ first.toList.count ';' := by
  induction chars generalizing s current with
  | nil =>
    have filled : trimSpace current ≠ "" := fun empty => by
      rw [← count_trimSpace, empty] at marked
      exact absurd marked (by decide)
    exact ⟨_, [], if_pos filled, (count_trimSpace current).ge⟩
  | cons char rest ih =>
    rw [pieces]
    split
    · exact ⟨_, _, rfl, (count_trimSpace current).ge⟩
    · have more : current.toList.count ';' ≤ (current.push char).toList.count ';' := by
        rw [String.toList_push, count_append]
        exact Nat.le_add_right ..
      obtain ⟨first, others, shape, le⟩ := ih (next s char) (marked.trans_le more)
      exact ⟨first, others, shape, more.trans le⟩

theorem pieces_push_ne (s : σ) (current : String) (chars : List Char) (others : List String) :
    pieces next outside s (current.push ';') chars ≠ trimSpace current :: others := by
  have count : (current.push ';').toList.count ';' = current.toList.count ';' + 1 := by
    rw [String.toList_push, count_append, count_singleton_self]
  obtain ⟨first, rest, shape, le⟩ := exists_pieces_eq_cons next outside s (by rw [count]; exact Nat.succ_pos _) chars
  intro same
  rw [shape] at same
  rw [count, (cons.inj same).1, count_trimSpace] at le
  exact absurd le (Nat.not_succ_le_self _)

/-- Two ways to split give the same pieces exactly if they split at the same semicolons. -/
theorem pieces_eq_iff (s : σ) (s' : τ) (current : String) (chars : List Char) :
    pieces next outside s current chars = pieces next' outside' s' current chars ↔
      ∀ before after, chars = before ++ ';' :: after →
        outside (before.foldl next s) = outside' (before.foldl next' s') := by
  induction chars generalizing s s' current with
  | nil => simp [pieces]
  | cons char rest ih =>
    have behind : (∀ before after, char :: rest = before ++ ';' :: after →
          outside (before.foldl next s) = outside' (before.foldl next' s')) ↔
        (char = ';' → outside s = outside' s') ∧ ∀ before after, rest = before ++ ';' :: after →
          outside (before.foldl next (next s char)) = outside' (before.foldl next' (next' s' char)) := by
      constructor
      · intro all
        exact ⟨fun mark => all [] rest (by rw [mark]; rfl), fun before after shape =>
          all (char :: before) after (by rw [shape]; rfl)⟩
      · rintro ⟨here, later⟩ (_ | ⟨_, before⟩) after shape
        · exact here (cons.inj shape).1
        · obtain ⟨rfl, tail⟩ := cons.inj shape
          exact later before after tail
    rw [behind, pieces, pieces]
    by_cases mark : char = ';'
    · subst mark
      cases out : outside s <;> cases out' : outside' s'
      · simp [ih]
      · simp [pieces_push_ne]
      · simp [(pieces_push_ne next' outside' (next' s' ';') current rest _).symm]
      · simp [ih]
    · simp [mark, ih]

end

def Lexical.outside (lexical : Lexical) : Bool := lexical ≠ string && lexical ≠ comment

/-- The statements of a script by the rules of CQL. -/
def cqlStatements (script : String) : List String :=
  pieces Lexical.next Lexical.outside (.code false) "" script.toList

/-- The number of quotes that are not after a backslash, after a character before. -/
def bareQuotes : Option Char → List Char → ℕ
  | _, [] => 0
  | previous, char :: rest =>
    (if char = '\'' ∧ previous ≠ some '\\' then 1 else 0) + bareQuotes (some char) rest

/-- What the scanner knows of a position: whether it is in a string, and the character before. -/
def flagNext (s : Bool × Option Char) (char : Char) : Bool × Option Char :=
  (if char = '\'' ∧ s.2 ≠ some '\\' then !s.1 else s.1, some char)

theorem foldl_flagNext (chars : List Char) (inString : Bool) (previous : Option Char) :
    (chars.foldl flagNext (inString, previous)).1 = (inString ^^ decide (Odd (bareQuotes previous chars))) := by
  induction chars generalizing inString previous with
  | nil => simp [bareQuotes]
  | cons char rest ih =>
    rw [foldl_cons, flagNext, ih, bareQuotes]
    split
    · rw [Nat.add_comm, decide_eq_decide.mpr Nat.odd_add_one, decide_not, Bool.not_xor, Bool.xor_not]
    · rw [Nat.zero_add]

theorem scanScript_eq_pieces (previous : Option Char) (chars : List Char) (scan : Scan) :
    (if trimSpace (scanScript previous chars scan).current ≠ "" then
        (scanScript previous chars scan).statements ++ [trimSpace (scanScript previous chars scan).current]
      else (scanScript previous chars scan).statements) =
      scan.statements ++ pieces flagNext (fun s => !s.1) (scan.inString, previous) scan.current chars := by
  induction chars generalizing previous scan with
  | nil =>
    rw [pieces, scanScript]
    split
    · rfl
    · rw [append_nil]
  | cons char rest ih =>
    rw [scanScript, ih, pieces]
    by_cases mark : char = ';'
    · subst mark
      cases inside : scan.inString <;> simp [Scan.next, flagNext, inside]
    · simp [Scan.next, flagNext, mark]

/-- The statements of a script are those of CQL exactly if an odd number of quotes that are not after a backslash is
before a semicolon that is in a string or in a comment, and an even number before every other one. -/
theorem parseStatements_eq_cql_iff (script : String) :
    parseStatements script = cqlStatements script ↔ ∀ before after, script.toList = before ++ ';' :: after →
      (Odd (bareQuotes none before) ↔ (before.foldl Lexical.next (.code false)).outside = false) := by
  have scanned : parseStatements script = pieces flagNext (fun s => !s.1) (false, none) "" script.toList :=
    scanScript_eq_pieces none script.toList {}
  rw [scanned, cqlStatements, pieces_eq_iff]
  refine forall₃_congr fun before after _ => ?_
  rw [foldl_flagNext, Bool.false_xor]
  cases (before.foldl Lexical.next (.code false)).outside <;> simp

theorem parseStatements_ne_cql : parseStatements "-- a; b\nUSE a" = ["-- a", "b\nUSE a"] ∧
      cqlStatements "-- a; b\nUSE a" = ["-- a; b\nUSE a"] ∧
      parseStatements "SET a = '\\'; USE b" = ["SET a = '\\'; USE b"] ∧
      cqlStatements "SET a = '\\'; USE b" = ["SET a = '\\'", "USE b"] := by
  decide +kernel

end IpfsCluster.Soundness

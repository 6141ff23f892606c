import IpfsCluster.Golang.Indexed

/-! # Backups of the Raft data folder

The data folder is moved away under a numbered name when it is cleaned, and the backups that are there already are moved
up by one. The file system maps paths to what is under them. Renaming fails when there is nothing under the old path, or
something under the new one; the base directory is there whenever the data folder is.
-/

namespace IpfsCluster.Model.Raft

open Golang

structure Path where
  dir : String
  base : String
deriving DecidableEq, Repr

abbrev Files (Content : Type) := AList fun _ : Path => Content

inductive BackupError where
  | noSuchFile (path : Path)
  | fileExists (path : Path)
  | indexOutOfRange
deriving DecidableEq, Repr

variable {Content : Type}

namespace Files

variable (files : Files Content)

def notExist (path : Path) : Bool := (files.lookup path).isNone

def removeAll (path : Path) : Files Content := AList.erase path files

def rename (old new : Path) : Except BackupError (Files Content) :=
  match files.lookup old with
  | none => .error (.noSuchFile old)
  | some content =>
    if files.notExist new then .ok (AList.insert new content (files.removeAll old)) else .error (.fileExists new)

end Files

/-- Backups are named after the folder, with the number of newer ones. -/
structure DataBackupHelper where
  baseDir : String
  folderName : String
  keep : ℤ

def newDataBackupHelper (dataFolder : Path) (keep : ℤ) : DataBackupHelper := ⟨dataFolder.dir, dataFolder.base, keep⟩

namespace DataBackupHelper

variable (dbh : DataBackupHelper) (files : Files Content)

def folder : Path := ⟨dbh.baseDir, dbh.folderName⟩

def makeName (i : ℕ) : Path := ⟨dbh.baseDir, dbh.folderName ++ ".old." ++ decimal i⟩

/-- The names of the backups, up to the first one that does not exist. -/
def listBackups : List Path :=
  ((List.range dbh.keep.toNat).map dbh.makeName).takeWhile fun name => !files.notExist name

/-- Increase the number of all backups below a position, from the oldest one on. -/
def increase (backups : List Path) : ℕ → Files Content → Option BackupError × Files Content
  | 0, files => (none, files)
  | i + 1, files =>
    match backups[i]?, backups[i + 1]? with
    | some old, some new =>
      match files.rename old new with
      | .error err => (some err, files)
      | .ok files => increase backups i files
    | _, _ => (some .indexOutOfRange, files)

/-- Move the data folder to the first backup. The oldest backup is removed when all that are kept exist;
otherwise a new name is added to the list. -/
def makeBackup : Option BackupError × Files Content :=
  if files.notExist dbh.folder then (none, files)
  else
    let backups := dbh.listBackups files
    let prepared : Except BackupError (List Path × Files Content) :=
      if dbh.keep ≤ backups.length then
        match backups.getLast? with
        | none => .error .indexOutOfRange
        | some oldest => .ok (backups, files.removeAll oldest)
      else .ok (backups ++ [dbh.makeName backups.length], files)
    match prepared with
    | .error err => (some err, files)
    | .ok (backups, files) =>
      match increase backups (backups.length - 1) files with
      | (some err, files) => (some err, files)
      | (none, files) =>
        match files.rename dbh.folder (dbh.makeName 0) with
        | .error err => (some err, files)
        | .ok files => (none, files)

/-- In each round there is new content in the data folder, and a backup is made. It ends with the first error. -/
def makeBackups : List Content → Files Content → Option BackupError × Files Content
  | [], files => (none, files)
  | content :: contents, files =>
    match dbh.makeBackup (AList.insert dbh.folder content files) with
    | (some err, files) => (some err, files)
    | (none, files) => makeBackups contents files

end DataBackupHelper

end IpfsCluster.Model.Raft

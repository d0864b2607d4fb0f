import CodeWorkspace.Path.Basic

/-! What a workspace sees of a disk. -/
namespace CodeWorkspace

/-- Why a file could not be read. -/
inductive ReadFailure where
  | notFound
  /-- Something on the way to the file is no directory. -/
  | notDirectory
  | isDirectory
  | nameTooLong
  | nulInName
  /-- The bytes of the file are no text. -/
  | notText
  deriving DecidableEq, Repr, Inhabited

def ReadFailure.message : ReadFailure → String
  | notFound => "No such file or directory (os error 2)"
  | notDirectory => "Not a directory (os error 20)"
  | isDirectory => "Is a directory (os error 21)"
  | nameTooLong => "File name too long (os error 36)"
  | nulInName => "file name contained an unexpected NUL byte"
  | notText => "stream did not contain valid UTF-8"

/-- What a walk through a directory finds, seen from there. -/
inductive Disk.Scan where
  | noDirectory
  /-- These directories below could not be read. -/
  | incomplete (unreadable : List (Path × ReadFailure))
  /-- All files below. -/
  | files (paths : List Path)
  deriving Repr, Inhabited

structure Disk where
  read : Path → Except ReadFailure String
  scan : Path → Disk.Scan

end CodeWorkspace

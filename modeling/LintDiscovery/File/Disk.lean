/-
Disks.

A disk is what a program sees of the file system: texts that can be read, files and images that are
there or not, directories and files that can be made. `δ` is the type of the disk's states. A file
tree is a disk, seen from a directory in it.
-/
import LintDiscovery.File.Tree

namespace LintDiscovery

/-- Access to files. -/
structure Disk (ι δ : Type) where
  /-- The text of a file. -/
  readText : Path → δ → Except FileError String
  /-- Whether a path leads to a file. -/
  isFile : Path → δ → Bool
  /-- The image that a path leads to, or the reason why there is none. -/
  image : Path → δ → Except String ι
  /-- Makes a directory and those above it. -/
  makeDirectories : Path → δ → Except FileError Unit × δ
  /-- Makes an empty file of a name in a directory, unless something has this name already. -/
  makeFile : Path → String → δ → δ

namespace FileTree

variable {ι : Type}

/-- The image that a path leads to, or why there is none. -/
def readImage (t : FileTree ι) (directory : Location) (p : Path) : Except String ι :=
  match t.image? directory p with
  | some content => .ok content
  | none =>
    match t.locate directory p with
    | .ok _ => .error "not an image"
    | .error e => .error e.text

/-- A file tree as a disk, seen from one of its directories. -/
def disk (directory : Location) : Disk ι (FileTree ι) where
  readText p t := t.readText directory p
  isFile p t := t.isFile directory p
  image p t := t.readImage directory p
  makeDirectories p t := t.makeDirectories directory p
  makeFile dir name t := t.appendText directory dir name ""

end FileTree

end LintDiscovery

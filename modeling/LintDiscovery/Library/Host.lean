/-
The host that searches directories and loads libraries.

* `host` — the host on a disk;
* `probingHost` — the same host, with a record of the paths that it probes.
-/
import LintDiscovery.File.Disk
import LintDiscovery.Library.Image
import LintDiscovery.Library.Search

namespace LintDiscovery.Library

variable {κ δ : Type}

/-- A host on a disk in a given state. Without directories of its own it searches the standard
ones. -/
def host (disk : Disk (Image κ) δ) (state : δ) (dirs : List Path) (directory : Option Path) :
    Host κ Unit :=
  .pure directory
    (fun name file =>
      resolve (fun p => disk.isFile p state) (searchDirs dirs) fileSuffix name file)
    (load (fun p => disk.image p state) entryPoint)

/-- The same host, which probes one candidate after the other and keeps a record of the probes. -/
def probingHost (disk : Disk (Image κ) δ) (state : δ) (dirs : List Path)
    (directory : Option Path) : Host κ (List Path) where
  directory := Host.answer directory
  resolve name file probes :=
    let (answer, probes) :=
      search (probing fun p => disk.isFile p state) (searchDirs dirs) fileSuffix name file probes
    (.ok answer, probes)
  hasLoader := Host.answer true
  load path := Host.answer (load (fun p => disk.image p state) entryPoint path)

end LintDiscovery.Library

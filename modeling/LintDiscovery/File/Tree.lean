/-
File trees.

A tree is a file with bytes, an image, which is a file that only a loader can read, or a directory,
which lists trees by name; `ι` is the type of what is in an image. The tree as a whole is the
directory that absolute paths start from.

A path is walked piece by piece, each from a directory that is there: two dots lead to the
directory above, also behind a name that has been passed, and blank pieces stay where they are. A
`Trail` remembers what has been passed, so that a piece costs no more than a look into one
directory.

* `FileTree.locate` — the trail of a path;
* `FileTree.isFile`, `FileTree.isDirectory`, `FileTree.readText` — what is there;
* `FileTree.makeDirectories` — a new directory, with the ones above it;
* `FileTree.appendText` — text at the end of a file.
-/
import LintDiscovery.File.Error
import LintDiscovery.File.Path

namespace LintDiscovery

/-- A file tree. A directory has each name once. -/
inductive FileTree (ι : Type) where
  | file (bytes : ByteArray)
  | image (content : ι)
  | directory (entries : List (String × FileTree ι))

/-- The names on the way from the root. -/
abbrev Location := List String

namespace FileTree

variable {ι : Type}

/-- A tree with nothing but its root. -/
def empty : FileTree ι := .directory []

/-- What is in a directory; there is nothing in a file. -/
def entries : FileTree ι → List (String × FileTree ι)
  | .directory entries => entries
  | _ => []

/-- Whether one can walk into a tree, which takes a directory. -/
def canEnter : FileTree ι → Bool
  | .directory _ => true
  | _ => false

/-- What has a name in a directory. -/
def child? (t : FileTree ι) (name : String) : Option (FileTree ι) :=
  (t.entries.find? fun e => e.1 == name).map Prod.snd

/-- Entries with one of a name, in the place of the one that had this name. -/
def setEntry (name : String) (t : FileTree ι) :
    List (String × FileTree ι) → List (String × FileTree ι)
  | [] => [(name, t)]
  | e :: rest => if e.1 = name then (name, t) :: rest else e :: setEntry name t rest

/-- A tree, if there is one, with what is at a location changed. Directories are made on the way,
also in the place of files. -/
def alter (f : Option (FileTree ι) → FileTree ι) : Location → Option (FileTree ι) → FileTree ι
  | [], t => f t
  | name :: rest, t =>
    .directory (setEntry name (alter f rest (t.bind fun t => t.child? name))
      ((t.map entries).getD []))

/-- Puts something at a location. -/
def insert (t : FileTree ι) (l : Location) (content : FileTree ι) : FileTree ι :=
  alter (fun _ => content) l (some t)

/-- Makes a location a directory, unless it is one. -/
def insertDirectory (t : FileTree ι) (l : Location) : FileTree ι :=
  alter (fun old =>
    match old with
    | some (.directory entries) => .directory entries
    | _ => empty) l (some t)

end FileTree

/-! ### Walking -/

/-- The way to something in a tree: the tree, and what has been passed in it by name, the last
first. -/
structure Trail (ι : Type) where
  root : FileTree ι
  passed : List (String × FileTree ι)

namespace Trail

variable {ι : Type}

/-- What the trail leads to. -/
def here (w : Trail ι) : FileTree ι :=
  match w.passed with
  | [] => w.root
  | (_, t) :: _ => t

/-- The location that the trail leads to. -/
def location (w : Trail ι) : Location :=
  (w.passed.map Prod.fst).reverse

/-- One name back; there is nothing above the root. -/
def up (w : Trail ι) : Trail ι :=
  ⟨w.root, w.passed.drop 1⟩

/-- One name further. -/
def down? (w : Trail ι) (name : String) : Option (Trail ι) :=
  (w.here.child? name).map fun t => ⟨w.root, (name, t) :: w.passed⟩

/-- The longest name, in bytes. -/
def maxName : Nat := 255

/-- Walks on by one piece of a path. -/
def step (w : Trail ι) (piece : List Char) : Except FileError (Trail ι) :=
  let name := String.ofList piece
  if !w.here.canEnter then .error .notDirectory
  else if Path.isBlankPiece piece then .ok w
  else if piece = ['.', '.'] then .ok w.up
  else if maxName < name.utf8ByteSize then .error .nameTooLong
  else
    match w.down? name with
    | some further => .ok further
    | none => .error .missing

/-- Walks pieces in sequence. -/
def walk (w : Trail ι) (pieces : List (List Char)) : Except FileError (Trail ι) :=
  pieces.foldlM step w

end Trail

namespace FileTree

variable {ι : Type}

/-- The longest path, in bytes. -/
def maxPath : Nat := 4095

/-- The pieces of a path that can be walked at all. -/
def piecesOf (p : Path) : Except FileError (List (List Char)) :=
  if p.text.toList.contains '\x00' then .error .nullCharacter
  else if p.text.isEmpty then .error .missing
  else if maxPath < p.text.utf8ByteSize then .error .nameTooLong
  else .ok (Path.piecesOf p.text.toList)

/-- The trail that a path starts from. -/
def origin (t : FileTree ι) (directory : Location) (p : Path) : Except FileError (Trail ι) :=
  if p.isAbsolute then .ok ⟨t, []⟩ else (Trail.mk t []).walk (directory.map String.toList)

/-- The trail of a path from a directory. -/
def locate (t : FileTree ι) (directory : Location) (p : Path) : Except FileError (Trail ι) := do
  let pieces ← piecesOf p
  (← t.origin directory p).walk pieces

/-- What a path leads to. -/
def find? (t : FileTree ι) (directory : Location) (p : Path) : Option (FileTree ι) :=
  match t.locate directory p with
  | .ok w => some w.here
  | .error _ => none

/-- Whether a path leads to anything. -/
def contains (t : FileTree ι) (directory : Location) (p : Path) : Bool :=
  (t.find? directory p).isSome

/-- Whether a path leads to a directory. -/
def isDirectory (t : FileTree ι) (directory : Location) (p : Path) : Bool :=
  match t.find? directory p with
  | some (.directory _) => true
  | _ => false

/-- Whether a path leads to a file, which may be an image. -/
def isFile (t : FileTree ι) (directory : Location) (p : Path) : Bool :=
  match t.find? directory p with
  | some (.file _) | some (.image _) => true
  | _ => false

/-- The image that a path leads to. -/
def image? (t : FileTree ι) (directory : Location) (p : Path) : Option ι :=
  match t.find? directory p with
  | some (.image content) => some content
  | _ => none

/-- The text of the file that a path leads to. -/
def readText (t : FileTree ι) (directory : Location) (p : Path) : Except FileError String := do
  match (← t.locate directory p).here with
  | .directory _ => .error .isDirectory
  | .image _ => .error .notText
  | .file bytes =>
    match String.fromUTF8? bytes with
    | some s => .ok s
    | none => .error .notText

/-! ### Changing -/

/-- Pieces without the empty ones at the end. -/
def withoutEmptyEnd (pieces : List (List Char)) : List (List Char) :=
  (pieces.reverse.dropWhile List.isEmpty).reverse

/-- Whether a directory can be given the name of a piece. -/
def isNewName (piece : List Char) : Bool :=
  !Path.isBlankPiece piece && piece != ['.', '.']

/-- The location for a new directory of a path: the directory above it has to be there, the
directory itself must not. -/
def vacancy (t : FileTree ι) (directory : Location) (p : Path) : Except FileError Location := do
  let pieces := withoutEmptyEnd (← piecesOf p)
  let above ← (← t.origin directory p).walk pieces.dropLast
  let last := pieces.getLast?.getD []
  let name := String.ofList last
  if !above.here.canEnter then .error .notDirectory
  else if !isNewName last then .error .exists
  else if Trail.maxName < name.utf8ByteSize then .error .nameTooLong
  else if (above.here.child? name).isSome then .error .exists
  else .ok (above.location ++ [name])

/-- Makes a directory. -/
def makeDirectory (t : FileTree ι) (directory : Location) (p : Path) :
    Except FileError (FileTree ι) := do
  return t.insert (← t.vacancy directory p) empty

/-- A second try at a directory, once the ones above it are there. -/
def retry (t : FileTree ι) (directory : Location) (p : Path) : Except FileError Unit × FileTree ι :=
  match t.makeDirectory directory p with
  | .ok t => (.ok (), t)
  | .error e => (if t.isDirectory directory p then .ok () else .error e, t)

/-- Makes a path a directory. Where the way to it is missing, its parent is made first, and what was
made stays. The number bounds the parents. -/
def makeFrom (directory : Location) : Nat → Path → FileTree ι → Except FileError Unit × FileTree ι
  | 0, _, t => (.error .missing, t)
  | fuel + 1, p, t =>
    if p.text.isEmpty then (.ok (), t)
    else
      match t.makeDirectory directory p, p.parent? with
      | .ok t, _ => (.ok (), t)
      | .error .missing, some parent =>
        match makeFrom directory fuel parent t with
        | (.ok _, t) => t.retry directory p
        | (.error e, t) => (.error e, t)
      | .error e, _ => (if t.isDirectory directory p then .ok () else .error e, t)

/-- Makes a directory of a path, unless it is one already, and of the paths above it. A path has
fewer parents than characters. -/
def makeDirectories (directory : Location) (p : Path) (t : FileTree ι) :
    Except FileError Unit × FileTree ι :=
  makeFrom directory (p.text.length + 1) p t

/-- A file with text at its end; where there is nothing, a file with the text. Directories and
images stay as they are. -/
def withText (text : String) : Option (FileTree ι) → FileTree ι
  | none => .file text.toUTF8
  | some (.file bytes) => .file (bytes ++ text.toUTF8)
  | some t => t

/-- Appends text to a file in a directory, which is made by the first text. Nothing happens where
the directory is not there. -/
def appendText (directory : Location) (dir : Path) (name : String) (text : String)
    (t : FileTree ι) : FileTree ι :=
  match t.locate directory dir with
  | .error _ => t
  | .ok w =>
    if w.here.canEnter then alter (withText text) (w.location ++ [name]) (some t) else t

end FileTree

end LintDiscovery

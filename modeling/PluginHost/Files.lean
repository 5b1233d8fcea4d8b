import PluginHost.Path

/-!
# Files

`Files` is a tree of directories and files together with the directory that relative paths
start from, and whether the program is denied to change the tree.  A path is followed piece by
piece: every piece but the last has to lead to a directory, two dots lead to the directory above,
and a path that ends in a separator names a directory.  Reading, writing, creating directories and
replacing a file fail for the reasons listed in `FileError`, and a failed operation changes nothing.
-/

namespace PluginHost

/-- The reasons for which an operation on files fails. -/
inductive FileError where
  | notFound
  | accessDenied
  | alreadyThere
  | notDirectory
  | isDirectory
  | notText
  | emptyPath
  | nulInName
  | nulInProgram
  deriving DecidableEq, Repr

/-- The wording of a reason. -/
def FileError.message : FileError → String
  | notFound => "No such file or directory (os error 2)"
  | accessDenied => "Permission denied (os error 13)"
  | alreadyThere => "File exists (os error 17)"
  | notDirectory => "Not a directory (os error 20)"
  | isDirectory => "Is a directory (os error 21)"
  | notText => "stream did not contain valid UTF-8"
  | emptyPath => "cannot make an empty path absolute"
  | nulInName => "file name contained an unexpected NUL byte"
  | nulInProgram => "nul byte found in provided data"

/-- What a file holds; of bytes that are not text only that fact is kept. -/
inductive Content where
  | text (s : String)
  | binary
  deriving DecidableEq, Repr

/-- What a name stands for. -/
inductive Entry where
  | file (content : Content)
  | directory
  deriving DecidableEq, Repr

/-- The names from the root to an entry. -/
abbrev Location := List String

/-- A tree of files, the directory that relative paths start from, and whether the program is denied
to change the tree, which others may do all the same. -/
structure Files where
  entries : List (Location × Entry)
  here : Path
  denied : Bool
  deriving Repr

namespace Files

/-- The entry at a location; the root is always there. -/
def entryAt (fs : Files) (loc : Location) : Option Entry :=
  if loc.isEmpty then some .directory
  else (fs.entries.find? fun e => e.1 == loc).map (·.2)

/-- The files with an entry put at a location. -/
def put (fs : Files) (loc : Location) (entry : Entry) : Files :=
  { fs with entries := (loc, entry) :: fs.entries.filter fun e => e.1 != loc }

/-- The files without a location and everything below it. -/
def erase (fs : Files) (loc : Location) : Files :=
  { fs with entries := fs.entries.filter fun e => !loc.isPrefixOf e.1 }

/-- What the program makes of the files, unless it is denied to change them. -/
def allow {α : Type} (fs : Files) (a : α) : Except FileError α :=
  if fs.denied then .error .accessDenied else .ok a

/-- Where a piece leads from a location, which has to be a directory. -/
def step (fs : Files) (loc : Location) (piece : String) : Except FileError Location :=
  match fs.entryAt loc with
  | none => .error .notFound
  | some (.file _) => .error .notDirectory
  | some .directory =>
    if piece = "" ∨ piece = "." then .ok loc
    else if piece = ".." then .ok loc.dropLast
    else .ok (loc ++ [piece])

/-- The location where a path starts. -/
def origin (fs : Files) (p : Path) : Location :=
  if p.isAbsolute then [] else fs.here.names.filter (· != "")

/-- The location that a path leads to, where an entry may or may not be. -/
def resolve (fs : Files) (p : Path) : Except FileError Location :=
  if p.text = "" then .error .notFound
  else if p.text.toList.contains '\x00' then .error .nulInName
  else p.pieces.foldlM fs.step (fs.origin p)

/-- The entry that a path leads to. -/
def entry (fs : Files) (p : Path) : Except FileError Entry := do
  match fs.entryAt (← fs.resolve p) with
  | some entry => .ok entry
  | none => .error .notFound

/-- Whether the path leads to anything. -/
def exists? (fs : Files) (p : Path) : Bool := (fs.entry p).isOk

/-- Whether the path leads to a file. -/
def isFile (fs : Files) (p : Path) : Bool :=
  match fs.entry p with
  | .ok (.file _) => true
  | _ => false

/-- Whether the path leads to a directory. -/
def isDirectory (fs : Files) (p : Path) : Bool :=
  match fs.entry p with
  | .ok .directory => true
  | _ => false

/-- The text of a file. -/
def read (fs : Files) (p : Path) : Except FileError String := do
  match ← fs.entry p with
  | .directory => .error .isDirectory
  | .file .binary => .error .notText
  | .file (.text s) => .ok s

/-- The location that a file at the path has or would have, in a directory that is there. -/
def fileLocation (fs : Files) (p : Path) : Except FileError Location := do
  let loc ← fs.resolve p
  match fs.entryAt loc with
  | some .directory => .error .isDirectory
  | some (.file _) => .ok loc
  | none =>
    match fs.entryAt loc.dropLast with
    | some .directory => .ok loc
    | some (.file _) => .error .notDirectory
    | none => .error .notFound

/-- The location of a file that can be opened to be written.  A path that ends in a separator cannot
name a new file. -/
def openable (fs : Files) (p : Path) : Except FileError Location :=
  if p.text.toList.getLast? = some '/' then
    match fs.resolve p with
    | .ok _ => .error .isDirectory
    | .error .notFound =>
      match (fs.resolve p.trimmed).toOption.bind fun loc => fs.entryAt loc.dropLast with
      | some .directory => .error .isDirectory
      | _ => .error .notFound
    | .error e => .error e
  else do fs.allow (← fs.fileLocation p)

/-- The files after writing a text to a path, over what was there. -/
def write (fs : Files) (p : Path) (s : String) : Except FileError Files := do
  return fs.put (← fs.openable p) (.file (.text s))

/-- The files after another file, which is made first, has been moved to a path in a directory that
is there. -/
def replace (fs : Files) (p : Path) (s : String) : Except FileError Files :=
  if fs.denied then .error .accessDenied
  else if p.text.toList.getLast? = some '/' then .error .notDirectory
  else do return fs.put (← fs.fileLocation p) (.file (.text s))

/-- The files after creating one directory. -/
def makeDirectory (fs : Files) (p : Path) : Except FileError Files := do
  let loc ← fs.resolve p.trimmed
  match fs.entryAt loc, fs.entryAt loc.dropLast with
  | some _, _ => .error .alreadyThere
  | none, some .directory => fs.allow (fs.put loc .directory)
  | none, some (.file _) => .error .notDirectory
  | none, none => .error .notFound

/-- Creates the directories of a list from the last to the first, where they are missing. -/
def makeEach (fs : Files) : List Path → Except FileError Files
  | [] => .ok fs
  | p :: above => do
    let fs' ← fs.makeEach above
    match fs'.makeDirectory p with
    | .ok made => .ok made
    | .error e => if fs'.isDirectory p then .ok fs' else .error e

/-- The paths at the front of a list whose directory above is missing, up to the first that
can be created or is a directory already. -/
def missing (fs : Files) : List Path → Except FileError (List Path)
  | [] => .ok []
  | p :: above =>
    if p.text = "" then .ok []
    else match fs.makeDirectory p with
      | .ok _ => .ok [p]
      | .error .notFound => do return p :: (← fs.missing above)
      | .error e => if fs.isDirectory p then .ok [] else .error e

/-- The files after creating a directory and those above it, where they are missing. -/
def makeDirectories (fs : Files) (p : Path) : Except FileError Files := do
  fs.makeEach (← fs.missing p.ancestors)

/-- The files without what a path leads to. -/
def remove (fs : Files) (p : Path) : Files :=
  match fs.resolve p with
  | .ok loc => fs.erase loc
  | .error _ => fs

/-- The files with an entry at a path, in directories that are created where they are
missing.  Another program does this, which is not denied to. -/
def provide (fs : Files) (p : Path) (e : Entry) : Files :=
  let free := { fs with denied := false }
  let free := match p.parent?.map free.makeDirectories with
    | some (.ok made) => made
    | _ => free
  let provided := match e, free.resolve p with
    | .directory, _ => (free.makeDirectories p).toOption.getD free
    | .file content, .ok loc => free.put loc (.file content)
    | _, .error _ => free
  { provided with denied := fs.denied }

end Files

end PluginHost

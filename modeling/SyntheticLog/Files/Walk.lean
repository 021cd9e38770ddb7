import SyntheticLog.Files.Tree

/-!
# Finding files

A path is walked name by name from the current directory or from the root. Symbolic links on the way
are replaced by their targets, so that only a bounded number of them is followed.

* `FileSystem.walk`: where a way leads, for reading or for creating.
* `FileSystem.create`, `FileSystem.read`: opening a file for writing, and its contents.
* `FileSystem.makeDirectories`, `FileSystem.symlink`, `FileSystem.remove`: changes of the tree.
-/

set_option autoImplicit false

namespace SyntheticLog.FileSystem

/-! ## Walking -/

/-- What a walk is for. -/
inductive Purpose
  /-- The way has to lead to an entry. -/
  | reading
  /-- The last name may be free, and is not to have a slash behind it. -/
  | creating
  deriving DecidableEq, Repr

inductive Found
  | directory (d : DirectoryNumber)
  | file (p : Place) (contents : ByteArray)
  | device (d : Device)
  /-- Nothing has the last name yet. -/
  | vacant (p : Place)

/-- The number of links that one walk follows. -/
def linkLimit : Nat := 40

/-- Walks the names from the directory `here`, following at most `links` links. A link as the last
name is followed as well; `trailing` says whether a slash stands behind that name. -/
def walk (fs : FileSystem) (purpose : Purpose) (links : Nat) (here : DirectoryNumber)
    (names : List Bytes) (trailing : Bool) : Except FileError Found :=
  match names with
  | [] => .ok (.directory here)
  | name :: rest =>
    let behind (found : Found) : Except FileError Found :=
      if rest.isEmpty ∧ trailing = false then .ok found else .error .notDirectory
    if name = Path.dot then walk fs purpose links here rest trailing
    else if name = Path.dotDot then walk fs purpose links (fs.parent here) rest trailing
    else if rest.isEmpty ∧ purpose = .creating ∧ trailing then .error .isDirectory
    else if Path.nameMax < name.length then .error .nameTooLong
    else
      match fs.get? ⟨here, name⟩ with
      | none =>
        if rest.isEmpty ∧ purpose = .creating then .ok (.vacant ⟨here, name⟩)
        else .error .noEntry
      | some (.directory d) => walk fs purpose links d rest trailing
      | some (.file contents) => behind (.file ⟨here, name⟩ contents)
      | some (.device d) => behind (.device d)
      | some (.link target) =>
        match links with
        | 0 => .error .tooManyLinks
        | links + 1 =>
          let route := Route.ofPath target
          walk fs purpose links (if route.absolute then root else here) (route.names ++ rest)
            (trailing || (rest.isEmpty && route.trailing))
termination_by (links, names.length)

def origin (fs : FileSystem) (route : Route) : DirectoryNumber :=
  if route.absolute then root else fs.current

def find (fs : FileSystem) (purpose : Purpose) (path : Bytes) : Except FileError Found := do
  Path.check path
  let route := Route.ofPath path
  fs.walk purpose linkLimit (fs.origin route) route.names route.trailing

/-! ## Files -/

/-- What an open file writes to. -/
inductive Target
  | regular (p : Place)
  | device (d : Device)
  deriving DecidableEq, Repr

/-- Opens a file for writing: creates it, or cuts it down to nothing if it is there. -/
def create (fs : FileSystem) (path : Bytes) : Except FileError (Target × FileSystem) := do
  match ← fs.find .creating path with
  | .vacant p | .file p _ => return (.regular p, fs.put p (.file ByteArray.empty))
  | .device d => return (.device d, fs)
  | .directory _ => throw .isDirectory

/-- Keeps the contents of a file that was open for writing. -/
def store (fs : FileSystem) (target : Target) (contents : ByteArray) : FileSystem :=
  match target with
  | .regular p => fs.put p (.file contents)
  | .device _ => fs

def read (fs : FileSystem) (path : Bytes) : Except FileError ByteArray := do
  match ← fs.find .reading path with
  | .file _ contents => return contents
  | .device _ => return ByteArray.empty
  | .directory _ => throw .isDirectory
  | .vacant _ => throw .noEntry

/-- Writes a file anew. A full device takes nothing, which only shows if there is something. -/
def write (fs : FileSystem) (path : Bytes) (contents : ByteArray) :
    Except FileError FileSystem := do
  let (target, fs) ← fs.create path
  if target = .device .full ∧ contents.size ≠ 0 then throw .noSpace
  else return fs.store target contents

/-! ## Directories and links -/

/-- The place that a route names. A link as the last name is not followed. There is no such place
if the route ends in a dot, in two dots or at the root, which are directories. -/
def locate (fs : FileSystem) (route : Route) : Except FileError (Option Place) := do
  match ← fs.walk .reading linkLimit (fs.origin route) route.names.dropLast true with
  | .directory here =>
    match route.names.getLast? with
    | none => return none
    | some name =>
      if name = Path.dot ∨ name = Path.dotDot then return none
      else if Path.nameMax < name.length then throw .nameTooLong
      else return some ⟨here, name⟩
  | _ => throw .notDirectory

/-- Makes one directory, in a directory that is there. -/
def makeDirectory (fs : FileSystem) (route : Route) : Except FileError FileSystem := do
  match ← fs.locate route with
  | none => throw .entryExists
  | some p => if (fs.get? p).isSome then throw .entryExists else return fs.addDirectory p

/-- The route leads to a directory, perhaps over links. -/
def isDirectory (fs : FileSystem) (route : Route) : Bool :=
  match fs.walk .reading linkLimit (fs.origin route) route.names route.trailing with
  | .ok (.directory _) => true
  | _ => false

/-- Makes one directory, if it is not there. -/
def ensureDirectory (route : Route) : EStateM FileError FileSystem Unit := fun fs =>
  match fs.makeDirectory route with
  | .ok fs => .ok () fs
  | .error e => if e = .entryExists ∧ fs.isDirectory route then .ok () fs else .error e fs

/-- Makes the first directory. If it lacks the one above, that one is made first, which is the next
of the routes. -/
def ensureFrom : List Route → EStateM FileError FileSystem Unit
  | [] => pure ()
  | route :: above => fun fs =>
    match ensureDirectory route fs with
    | .error .noEntry fs => (do ensureFrom above; ensureDirectory route) fs
    | result => result

/-- Makes a directory, and those above it that are missing. If one of them cannot be made, those
made before it stay. -/
def makeDirectories (path : Bytes) : EStateM FileError FileSystem Unit := fun fs =>
  if path.isEmpty then .ok () fs
  else
    match Path.check path with
    | .error e => .error e fs
    | .ok _ => ensureFrom (Route.ofPath path :: (Route.ofPath path).above) fs

def symlink (fs : FileSystem) (target path : Bytes) : Except FileError FileSystem := do
  Path.checkZero [target, path]
  Path.checkSize target
  Path.checkSize path
  let route := Route.ofPath path
  match ← fs.locate route with
  | none => throw .entryExists
  | some p =>
    if (fs.get? p).isSome then throw .entryExists
    else if route.trailing then throw .noEntry
    else return fs.put p (.link target)

/-- Removes a file or a link. -/
def remove (fs : FileSystem) (path : Bytes) : Except FileError FileSystem := do
  Path.check path
  let route := Route.ofPath path
  match ← fs.locate route with
  | none => throw .isDirectory
  | some p =>
    match fs.get? p with
    | none => throw .noEntry
    | some (.directory _) => throw .isDirectory
    | some _ => if route.trailing then throw .notDirectory else return fs.erase p

end SyntheticLog.FileSystem

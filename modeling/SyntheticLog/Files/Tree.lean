import Std.Data.TreeMap.Lemmas
import SyntheticLog.Files.Path

/-!
# The file tree

Directories have numbers, and an entry is kept under its place: the number of a directory and a
name in it. The root is always there.

* `FileSystem.get?`, `FileSystem.put`, `FileSystem.erase`: the entry at a place, and its change.
* `FileSystem.addDirectory`, `FileSystem.parent`: a new directory, and the one above a directory.
* `FileSystem.listing`: the entries below the current directory.
-/

set_option autoImplicit false

namespace SyntheticLog

/-- The number of a directory. The root has number zero, and the others are counted from one on in
the order in which they were made. -/
abbrev DirectoryNumber : Type := Nat

structure Place where
  directory : DirectoryNumber
  name : Bytes
  deriving DecidableEq, Repr

namespace Place

/-- Places are in the order of their directories, then in that of the bytes of their names. -/
def order : Place → Place → Ordering :=
  compareLex (compareOn Place.directory) (compareOn Place.name)

instance : Ord Place := ⟨order⟩

instance : Std.TransOrd Place := inferInstanceAs (Std.TransCmp (compareLex _ _))

instance : Std.LawfulEqOrd Place where
  eq_of_compare {a b} h := by
    obtain ⟨h₁, h₂⟩ := Ordering.then_eq_eq.1 (h : (compare a.directory b.directory).then _ = .eq)
    cases a
    cases b
    simp_all [compareOn]

end Place

inductive Device
  /-- Takes all bytes and keeps none. -/
  | null
  /-- Takes no byte. -/
  | full
  deriving DecidableEq, Repr

inductive Entry
  | file (contents : ByteArray)
  | directory (number : DirectoryNumber)
  | link (target : Bytes)
  | device (d : Device)

/-- A file tree and the current directory in it. -/
structure FileSystem where
  entries : Std.TreeMap Place Entry
  /-- The place of each directory, from that with number one on. -/
  homes : Array Place
  current : DirectoryNumber

namespace FileSystem

/-! ## Entries -/

def get? (fs : FileSystem) (p : Place) : Option Entry := fs.entries[p]?

def put (fs : FileSystem) (p : Place) (e : Entry) : FileSystem :=
  { fs with entries := fs.entries.insert p e }

def erase (fs : FileSystem) (p : Place) : FileSystem :=
  { fs with entries := fs.entries.erase p }

@[simp] theorem get?_put_self (fs : FileSystem) (p : Place) (e : Entry) :
    (fs.put p e).get? p = some e := by
  simp [get?, put]

theorem get?_put_of_ne {p q : Place} (h : q ≠ p) (fs : FileSystem) (e : Entry) :
    (fs.put p e).get? q = fs.get? q := by
  simp [get?, put, Std.TreeMap.getElem?_insert, Ne.symm h]

/-! ## Directories -/

def root : DirectoryNumber := 0

/-- The place of a directory; the root has none. -/
def home? (fs : FileSystem) : DirectoryNumber → Option Place
  | 0 => none
  | n + 1 => fs.homes[n]?

/-- The directory above a directory. Above the root is the root. -/
def parent (fs : FileSystem) (d : DirectoryNumber) : DirectoryNumber :=
  match fs.home? d with
  | some p => p.directory
  | none => root

/-- Makes a directory, with the next number, at a place. -/
def addDirectory (fs : FileSystem) (p : Place) : FileSystem :=
  { fs.put p (.directory (fs.homes.size + 1)) with homes := fs.homes.push p }

@[simp] theorem parent_put (fs : FileSystem) (p : Place) (e : Entry) (d : DirectoryNumber) :
    (fs.put p e).parent d = fs.parent d := by
  cases d <;> rfl

/-! ## The first tree -/

/-- The directories that every system has below its root. -/
def systemDirectories : List String :=
  ["dev", "etc", "home", "mnt", "opt", "proc", "root", "run", "sys", "tmp", "usr", "var"]

/-- The names of the devices. The sources of zeros and of random bytes take what is written to them
as the null device does. -/
def devices : List (String × Device) :=
  [("null", .null), ("zero", .null), ("full", .full), ("random", .null), ("urandom", .null)]

/-- A tree that holds the directories of the system, the devices and an empty current directory. -/
def blank : FileSystem :=
  let bare : FileSystem := ⟨∅, #[], root⟩
  let system := systemDirectories.foldl (fun fs name => fs.addDirectory ⟨root, Utf8.encode name⟩)
    bare
  let equipped := devices.foldl (fun fs p => fs.put ⟨1, Utf8.encode p.1⟩ (.device p.2)) system
  let whole := equipped.addDirectory ⟨root, Utf8.encode "work"⟩
  { whole with current := whole.homes.size }

/-! ## Listings -/

/-- The bytes of a relative location, with slashes between the names. -/
def joined (names : List Bytes) : Bytes := [Path.slash].intercalate names

/-- The names that lead from the directory `top` to the names `below` a directory, if it lies in
`top`. -/
def namesFrom (fs : FileSystem) (top d : DirectoryNumber) (below : List Bytes) :
    Option (List Bytes) :=
  if d = top then some below
  else
    match fs.home? d with
    | none => none
    | some p => if p.directory < d then namesFrom fs top p.directory (p.name :: below) else none
termination_by d

/-- The entries below the current directory, each with the names that lead there. A directory comes
before what it holds, and what it holds is in the order of the bytes of the names. -/
def listing (fs : FileSystem) : List (List Bytes × Entry) :=
  let below := fs.entries.toList.filterMap fun (p, e) =>
    (fs.namesFrom fs.current p.directory [p.name]).map fun names => (names, e)
  below.mergeSort fun a b => decide (a.1 ≤ b.1)

end FileSystem

end SyntheticLog

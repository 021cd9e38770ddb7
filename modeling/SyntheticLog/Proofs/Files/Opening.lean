import SyntheticLog.Files.Walk

/-!
# Where paths lead

A path leads to the same place whether or not there is already a file at that place. So the files
written in the course of a session do not change where paths lead.

* `FileSystem.opens`: what a path is opened to for writing.
* `FileSystem.opens_put`: a file that is put where there is none, or another, changes none of this.
* `FileSystem.read_of_opens`, `FileSystem.read_of_device`: what is read is what is written to.
-/

set_option autoImplicit false

namespace SyntheticLog.FileSystem

/-- What is opened for writing where a walk leads. -/
def target? : Except FileError Found → Option Target
  | .ok (.vacant p) | .ok (.file p _) => some (.regular p)
  | .ok (.device d) => some (.device d)
  | .ok (.directory _) | .error _ => none

/-- What a path is opened to for writing. -/
def opens (fs : FileSystem) (path : Bytes) : Option Target := target? (fs.find .creating path)

/-! ## Looking up a name -/

/-- A name that is looked up: it is no dot, no two dots and not too long, and no slash stands behind
a file to be made. -/
structure Looked (purpose : Purpose) (name : Bytes) (rest : List Bytes) (trailing : Bool) :
    Prop where
  dot : ¬name = Path.dot
  dotDot : ¬name = Path.dotDot
  slash : ¬(rest.isEmpty = true ∧ purpose = .creating ∧ trailing = true)
  short : ¬Path.nameMax < name.length

/-- An entry that is no directory has to be the last. -/
def last (rest : List Bytes) (trailing : Bool) (found : Found) : Except FileError Found :=
  if rest.isEmpty ∧ trailing = false then .ok found else .error .notDirectory

def follow (fs : FileSystem) (purpose : Purpose) (here : DirectoryNumber) (rest : List Bytes)
    (trailing : Bool) (target : Bytes) : Nat → Except FileError Found
  | 0 => .error .tooManyLinks
  | links + 1 =>
    walk fs purpose links (if (Route.ofPath target).absolute then root else here)
      ((Route.ofPath target).names ++ rest)
      (trailing || (rest.isEmpty && (Route.ofPath target).trailing))

theorem walk_name {purpose : Purpose} {name : Bytes} {rest : List Bytes} {trailing : Bool}
    (h : Looked purpose name rest trailing) (fs : FileSystem) (links : Nat)
    (here : DirectoryNumber) :
    walk fs purpose links here (name :: rest) trailing =
      match fs.get? ⟨here, name⟩ with
      | none =>
        if rest.isEmpty ∧ purpose = .creating then .ok (.vacant ⟨here, name⟩) else .error .noEntry
      | some (.directory d) => walk fs purpose links d rest trailing
      | some (.file contents) => last rest trailing (.file ⟨here, name⟩ contents)
      | some (.device d) => last rest trailing (.device d)
      | some (.link target) => follow fs purpose here rest trailing target links := by
  rw [walk]
  simp only [if_neg h.dot, if_neg h.dotDot, if_neg h.slash, if_neg h.short]
  cases fs.get? ⟨here, name⟩ with
  | none => rfl
  | some e => cases e <;> cases links <;> rfl

/-! ## Files that come and change -/

/-- There is nothing at the place but a file, if anything. -/
def Free (fs : FileSystem) (p : Place) : Prop := ∀ e, fs.get? p = some e → ∃ c, e = .file c

theorem Free.put {fs : FileSystem} {p : Place} (contents : ByteArray) :
    (fs.put p (.file contents)).Free p := by
  intro e he
  rw [get?_put_self] at he
  cases he
  exact ⟨contents, rfl⟩

theorem Free.get?_put {fs : FileSystem} {p q : Place} (h : fs.Free p) {e : Entry}
    (hq : fs.get? q = some e) (he : ∀ c, e ≠ .file c) (contents : ByteArray) :
    (fs.put p (.file contents)).get? q = some e := by
  have hne : q ≠ p := by
    rintro rfl
    obtain ⟨c, hc⟩ := h e hq
    exact he c hc
  rw [get?_put_of_ne hne, hq]

theorem target?_walk_put {fs : FileSystem} {p : Place} (h : fs.Free p) (contents : ByteArray)
    (links : Nat) (here : DirectoryNumber) (names : List Bytes) (trailing : Bool) :
    target? (walk (fs.put p (.file contents)) .creating links here names trailing) =
      target? (walk fs .creating links here names trailing) := by
  fun_induction walk fs .creating links here names trailing with
  | case1 links here trailing => rw [walk]
  | case2 links here trailing rest ih => rw [walk, if_pos rfl, ih]
  | case3 links here trailing rest hdot ih =>
    rw [walk, if_neg hdot, if_pos rfl, parent_put, ih]
  | case4 links here trailing name rest hdot hdots hslash =>
    rw [walk, if_neg hdot, if_neg hdots, if_pos hslash]
  | case5 links here trailing name rest hdot hdots hslash hlong =>
    rw [walk, if_neg hdot, if_neg hdots, if_neg hslash, if_pos hlong]
  -- The last name was free and may be that of the new file, which is opened in its place.
  | case6 links here trailing name rest hdot hdots hslash hshort hget hlast =>
    rw [walk_name ⟨hdot, hdots, hslash, hshort⟩]
    by_cases hp : (⟨here, name⟩ : Place) = p
    · have htrailing : trailing = false := by
        cases trailing with
        | false => rfl
        | true => exact absurd ⟨hlast.1, rfl, rfl⟩ hslash
      rw [hp, get?_put_self]
      simp only [last, if_pos (And.intro hlast.1 htrailing), target?]
    · rw [get?_put_of_ne hp, hget]
      exact congrArg target? (if_pos hlast)
  | case7 links here trailing name rest hdot hdots hslash hshort hget hlast =>
    rw [walk_name ⟨hdot, hdots, hslash, hshort⟩]
    by_cases hp : (⟨here, name⟩ : Place) = p
    · have hrest : ¬(rest.isEmpty = true ∧ trailing = false) := fun h => hlast ⟨h.1, rfl⟩
      rw [hp, get?_put_self]
      simp only [last, if_neg hrest, target?]
    · rw [get?_put_of_ne hp, hget]
      exact congrArg target? (if_neg hlast)
  | case8 links here trailing name rest hdot hdots hslash hshort d hget ih =>
    rw [walk_name ⟨hdot, hdots, hslash, hshort⟩, h.get?_put hget (by simp), ih]
  | case9 links here trailing name rest behind hdot hdots hslash hshort c hget =>
    rw [walk_name ⟨hdot, hdots, hslash, hshort⟩]
    by_cases hp : (⟨here, name⟩ : Place) = p
    · rw [hp, get?_put_self]
      simp only [last, behind]
      split <;> rfl
    · rw [get?_put_of_ne hp, hget]
      rfl
  | case10 links here trailing name rest behind hdot hdots hslash hshort d hget =>
    rw [walk_name ⟨hdot, hdots, hslash, hshort⟩, h.get?_put hget (by simp)]
    rfl
  | case11 here trailing name rest hdot hdots hslash hshort target hget =>
    rw [walk_name ⟨hdot, hdots, hslash, hshort⟩, h.get?_put hget (by simp)]
    rfl
  | case12 here trailing name rest hdot hdots hslash hshort target hget links route ih =>
    rw [walk_name ⟨hdot, hdots, hslash, hshort⟩, h.get?_put hget (by simp)]
    exact ih

theorem opens_put {fs : FileSystem} {p : Place} (h : fs.Free p) (contents : ByteArray)
    (path : Bytes) : (fs.put p (.file contents)).opens path = fs.opens path := by
  have horigin (route : Route) : (fs.put p (.file contents)).origin route = fs.origin route := rfl
  rw [opens, opens, find, find]
  cases Path.check path with
  | error e => rfl
  | ok u => exact target?_walk_put h contents _ _ _ _

/-! ## What is there -/

/-- What a walk for writing finds is there, and a walk for reading finds a file or a device as
well. -/
def Sees (fs : FileSystem) (reading : Except FileError Found) : Except FileError Found → Prop
  | .ok (.vacant p) => fs.get? p = none
  | .ok (.file p c) => fs.get? p = some (.file c) ∧ reading = .ok (.file p c)
  | .ok (.device d) => reading = .ok (.device d)
  | .ok (.directory _) | .error _ => True

theorem sees_walk (fs : FileSystem) (links : Nat) (here : DirectoryNumber) (names : List Bytes)
    (trailing : Bool) :
    Sees fs (walk fs .reading links here names trailing)
      (walk fs .creating links here names trailing) := by
  have looked {name : Bytes} {rest : List Bytes} {trailing : Bool} (hdot : ¬name = Path.dot)
      (hdots : ¬name = Path.dotDot) (hshort : ¬Path.nameMax < name.length) :
      Looked .reading name rest trailing := ⟨hdot, hdots, fun h => (nomatch h.2.1), hshort⟩
  fun_induction walk fs .creating links here names trailing with
  | case1 => trivial
  | case2 links here trailing rest ih =>
    rw [walk, if_pos rfl]
    exact ih
  | case3 links here trailing rest hdot ih =>
    rw [walk, if_neg hdot, if_pos rfl]
    exact ih
  | case4 => trivial
  | case5 => trivial
  | case6 links here trailing name rest hdot hdots hslash hshort hget hlast => exact hget
  | case7 => trivial
  | case8 links here trailing name rest hdot hdots hslash hshort d hget ih =>
    rw [walk_name (looked hdot hdots hshort), hget]
    exact ih
  | case9 links here trailing name rest behind hdot hdots hslash hshort c hget =>
    rw [walk_name (looked hdot hdots hshort), hget]
    simp only [last, behind]
    split
    · exact ⟨hget, rfl⟩
    · trivial
  | case10 links here trailing name rest behind hdot hdots hslash hshort d hget =>
    rw [walk_name (looked hdot hdots hshort), hget]
    simp only [last, behind]
    split
    · rfl
    · trivial
  | case11 => trivial
  | case12 here trailing name rest hdot hdots hslash hshort target hget links route ih =>
    rw [walk_name (looked hdot hdots hshort), hget]
    exact ih

theorem sees_find (fs : FileSystem) (path : Bytes) :
    Sees fs (fs.find .reading path) (fs.find .creating path) := by
  rw [find, find]
  cases Path.check path with
  | error e => trivial
  | ok u => exact sees_walk fs _ _ _ _

theorem read_of_opens {fs : FileSystem} {path : Bytes} {p : Place} {c : ByteArray}
    (h : fs.opens path = some (.regular p)) (hget : fs.get? p = some (.file c)) :
    fs.read path = .ok c := by
  have hsees := sees_find fs path
  rw [opens] at h
  rcases hf : fs.find .creating path with e | found
  · rw [hf] at h
    cases h
  · rw [hf] at h hsees
    cases found with
    | directory d => cases h
    | device d => cases h
    | vacant q =>
      cases h
      rw [Sees, hget] at hsees
      cases hsees
    | file q c' =>
      cases h
      obtain ⟨hfile, hreading⟩ := hsees
      rw [hget] at hfile
      cases hfile
      rw [read, hreading]
      rfl

/-- A device has no contents. -/
theorem read_of_device {fs : FileSystem} {path : Bytes} {d : Device}
    (h : fs.opens path = some (.device d)) : fs.read path = .ok ByteArray.empty := by
  have hsees := sees_find fs path
  rw [opens] at h
  rcases hf : fs.find .creating path with e | found
  · rw [hf] at h
    cases h
  · rw [hf] at h hsees
    cases found with
    | directory d => cases h
    | vacant q | file q c => cases h
    | device d' =>
      have hreading : fs.find .reading path = .ok (.device d') := hsees
      rw [read, hreading]
      rfl

/-! ## Opening -/

theorem opens_of_create {fs fs' : FileSystem} {path : Bytes} {t : Target}
    (h : fs.create path = .ok (t, fs')) : fs.opens path = some t ∧
      ∀ p, t = .regular p → fs.Free p ∧ fs' = fs.put p (.file ByteArray.empty) := by
  have hsees := sees_find fs path
  rw [create] at h
  rw [opens]
  rcases hf : fs.find .creating path with e | found
  · rw [hf] at h
    cases h
  · rw [hf] at h hsees
    cases found with
    | directory d => cases h
    | device d =>
      cases h
      exact ⟨rfl, fun p hp => (nomatch hp)⟩
    | vacant q =>
      cases h
      refine ⟨rfl, ?_⟩
      intro p hp
      cases hp
      refine ⟨?_, rfl⟩
      intro e he
      rw [Sees, he] at hsees
      cases hsees
    | file q c =>
      cases h
      refine ⟨rfl, ?_⟩
      intro p hp
      cases hp
      refine ⟨?_, rfl⟩
      intro e he
      rw [hsees.1] at he
      cases he
      exact ⟨c, rfl⟩

theorem create_of_opens {fs : FileSystem} {path : Bytes} {t : Target}
    (h : fs.opens path = some t) : ∃ fs', fs.create path = .ok (t, fs') := by
  rw [opens] at h
  rw [create]
  rcases hf : fs.find .creating path with e | found
  · rw [hf] at h
    cases h
  · rw [hf] at h
    cases found with
    | directory d => cases h
    | device d =>
      cases h
      exact ⟨fs, rfl⟩
    | vacant q | file q c =>
      cases h
      exact ⟨_, rfl⟩

/-- Opening a device changes no entry. -/
theorem create_of_device {fs : FileSystem} {path : Bytes} {d : Device}
    (h : fs.opens path = some (.device d)) : fs.create path = .ok (.device d, fs) := by
  rw [opens] at h
  rw [create]
  rcases hf : fs.find .creating path with e | found
  · rw [hf] at h
    cases h
  · rw [hf] at h
    cases found with
    | directory d => cases h
    | vacant q | file q c => cases h
    | device d' =>
      cases h
      rfl

/-- A path that is one name, and a name that is not taken, lead to a new file. -/
theorem opens_of_vacant {fs : FileSystem} {name : Bytes} (hcheck : Path.check name = .ok ())
    (hroute : Route.ofPath name = ⟨false, [name], false⟩) (hlooked : Looked .creating name [] false)
    (hvacant : fs.get? ⟨fs.current, name⟩ = none) :
    fs.opens name = some (.regular ⟨fs.current, name⟩) := by
  have hfind : fs.find .creating name = walk fs .creating linkLimit fs.current [name] false := by
    rw [find, hcheck, hroute]
    rfl
  rw [opens, hfind, walk_name hlooked, hvacant]
  rfl

end SyntheticLog.FileSystem

import HttpSuite.Files
import Mathlib.Tactic.SplitIfs

/-!
# File systems

The programs ask little of the files they work on, and so do the statements about their runs.
Reading changes nothing.  Writing is all or nothing: it fails and changes nothing, or one file gets
the whole text and all else stays as it was.  Why a path cannot be read or written is left open;
permissions, full disks and links are all allowed for.

## Main definitions

* `Overwrites`: from one state to another, one file got a new text.
* `FileSystem`: a file system that keeps these laws.
* `FileTree.system`: a tree of files is one.

## Main results

* `FileTree.target_eq_ok`: where a path that can be written leads.
* `FileTree.entry?_put_self`, `FileTree.entry?_put_of_ne`: what stands in a tree after a write.
-/

namespace HttpSuite

/-- From the state `before` to the state `after`, the file at a place got this text, and nothing
changed at any other place. -/
structure Overwrites {State Place : Type} (content? : State → Place → Option Entry)
    (before after : State) (place : Place) (text : String) : Prop where
  text : content? after place = some (.file text.toUTF8)
  others : ∀ other, other ≠ place → content? after other = content? before other

/-- A file system in which a write is all or nothing. -/
structure FileSystem where
  /-- What the files are at some time. -/
  State : Type
  /-- Where a file can stand. -/
  Place : Type
  access : FileAccess (StateM State)
  /-- What stands at a place. -/
  content? : State → Place → Option Entry
  /-- The place where a path names a file to write. -/
  locate? : State → String → Option Place
  read_state (path : String) (state : State) : (access.read path state).2 = state
  write_of_error {path text : String} {state after : State} {fault : FileFault} :
    access.write path text state = (.error fault, after) → after = state
  write_of_ok {path text : String} {state after : State} :
    access.write path text state = (.ok (), after) →
    ∃ place, locate? state path = some place ∧ Overwrites content? state after place text

namespace FileSystem

variable (fs : FileSystem)

/-- What is read at a path. -/
def read (state : fs.State) (path : String) : Except FileFault String :=
  (fs.access.read path state).1

theorem access_read (path : String) (state : fs.State) :
    fs.access.read path state = (fs.read state path, state) :=
  Prod.ext rfl (fs.read_state path state)

end FileSystem

/-- A text is read back from its bytes. -/
theorem decodeText_toUTF8 (text : String) : decodeText text.toUTF8 = .ok text := by
  have hread : String.fromUTF8? text.toUTF8 = some text := by
    rw [String.fromUTF8?, String.toUTF8_eq_toByteArray, dif_pos text.isValidUTF8]
    rfl
  rw [decodeText, hread]

/-! ## Trees of files -/

namespace FileTree

variable {tree : FileTree} {path text : String} {place other : Location}

/-- A path that can be written leads to a name in a directory, where no directory stands. -/
theorem target_eq_ok (h : tree.target path = .ok place) :
    ∃ name directory, ((namesOf path).filter (· ≠ "")).getLast? = some name ∧
      tree.follow (origin path) (((namesOf path).filter (· ≠ "")).dropLast ++ ["."]) =
        .ok directory ∧
      place = directory ++ [name] ∧ tree.entry? place ≠ some .directory := by
  simp only [target, bind, Except.bind] at h
  split at h
  · cases h
  · split at h
    · cases h
    · next name hname =>
      split at h
      · cases h
      · next directory hfollow =>
        split_ifs at h
        split at h
        · cases h
        · next hfree =>
          cases h
          exact ⟨name, directory, hname, hfollow, rfl, hfree⟩

theorem write_eq_ok {changed : FileTree} (h : tree.write path text = .ok changed) :
    ∃ place, tree.target path = .ok place ∧ changed = tree.put place text := by
  unfold write at h
  cases htarget : tree.target path with
  | error fault =>
    rw [htarget] at h
    cases h
  | ok place =>
    rw [htarget] at h
    cases h
    exact ⟨place, rfl, rfl⟩

theorem entry?_put_self (h : tree.entry? place ≠ some .directory) :
    entry? (tree.put place text) place = some (.file text.toUTF8) := by
  have hbelow : isAbove place = false := by
    cases habove : isAbove place with
    | false => rfl
    | true => exact absurd (by rw [ entry?, if_pos habove]) h
  rw [ entry?, hbelow, if_neg Bool.false_ne_true, put, List.find?_cons_of_pos (by simp)]
  rfl

theorem entry?_put_of_ne (h : other ≠ place) :
    entry? (tree.put place text) other = tree.entry? other := by
  have hfind : (tree.put place text).entries.find? (fun e => e.1 == other) =
      tree.entries.find? fun e => e.1 == other := by
    show List.find? _ ((place, _) :: tree.entries.filter _) = _
    rw [List.find?_cons_of_neg (by simpa using Ne.symm h), List.find?_filter]
    congr 1
    funext e
    by_cases he : e.1 = other
    · simp [he, h]
    · simp [he]
  rw [ entry?, entry?, hfind]

/-- A tree of files is a file system. -/
def system : FileSystem where
  State := FileTree
  Place := Location
  access := access
  content? := entry?
  locate? tree path := (tree.target path).toOption
  read_state _ _ := rfl
  write_of_error {path text tree after fault} h := by
    simp only [access] at h
    split at h
    · cases h
    · cases h
      rfl
  write_of_ok {path text tree after} h := by
    simp only [access] at h
    split at h
    · next changed hwrite =>
      cases h
      obtain ⟨place, htarget, rfl⟩ := write_eq_ok hwrite
      obtain ⟨-, -, -, -, -, hfree⟩ := target_eq_ok htarget
      refine ⟨place, by rw [htarget]; rfl, entry?_put_self hfree, fun other hne => ?_⟩
      exact entry?_put_of_ne hne
    · cases h

end FileTree

end HttpSuite

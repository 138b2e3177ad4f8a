import Cheirismos.Process
import Mathlib.Tactic.SplitIfs

/-! # A directory tree under atomic system calls

A file system as concurrent processes see it: paths name directories and inodes, inodes hold bytes.

* **Names and bytes.** A path is the list of its components below the root.  `Files.entries` says
  what a path names, `Files.contents` what an inode holds; a hard link is a second name of one
  inode.
* **Calls.** Each `Syscall` is one atomic step.  `createNew` is `open` with `O_CREAT` and `O_EXCL`,
  `write` appends to an inode through a handle of its own, `link` and `mkdir` refuse a name that is
  taken.  Any call but `fetchAdd` may fail for a reason of its own (`Outcome.fault`), and then does
  nothing; a `write` may append less than it was given.
* **Process memory.** Each process has a counter (`fetchAdd`).  A process is known by a number, and
  `Memory.run` tells the processes apart that had the number one after the other.

`Effect` lists what a call can do to the files, with the conditions under which it does it;
`perform_effect` says that it does nothing else. -/

namespace Directories

open Process

abbrev Path := List String

inductive Errno where
  | exist | noent | notdir | isdir | loop
  | other (text : String)
deriving DecidableEq

/-- What a path names. -/
inductive Node where
  | directory
  | file (inode : ℕ)
deriving DecidableEq

/-- What a process has opened. -/
inductive Handle where
  | directory (path : Path)
  | file (inode : ℕ)
deriving DecidableEq

structure Metadata where
  isFile : Bool
  length : ℕ
deriving DecidableEq

/-- The memory that the calls of one process share. -/
structure Memory where
  run : ℕ
  counter : ℕ

structure Files where
  entries : Path → Option Node
  contents : ℕ → List UInt8
  inodes : ℕ
  memory : ℕ → Memory

inductive Syscall where
  | openDirectory (path : Path)
  | mkdir (path : Path)
  | openFile (path : Path) (writable : Bool)
  | createNew (path : Path)
  | fstat (handle : Handle)
  | fchmod (handle : Handle)
  | fsync (handle : Handle)
  | readToEnd (handle : Handle)
  | write (inode : ℕ) (bytes : List UInt8)
  | link (old new : Path)
  | unlink (path : Path)
  | fetchAdd (process : ℕ)

abbrev Answer : Syscall → Type
  | .openDirectory _ | .mkdir _ | .fchmod _ | .fsync _ | .link _ _ | .unlink _ => Except Errno Unit
  | .openFile _ _ => Except Errno Handle
  | .createNew _ | .write _ _ => Except Errno ℕ
  | .fstat _ => Except Errno Metadata
  | .readToEnd _ => Except Errno (List UInt8)
  | .fetchAdd _ => ℕ

abbrev syscalls : Interface := ⟨Syscall, Answer⟩

/-- What a process does not control about a call. -/
structure Outcome where
  fault : Option Errno
  written : ℕ

namespace Files

/-- Only the root. -/
def empty : Files where
  entries path := if path = [] then some .directory else none
  contents _ := []
  inodes := 0
  memory _ := ⟨0, 0⟩

variable (s : Files)

def setEntry (path : Path) (node : Option Node) : Files :=
  { s with entries := Function.update s.entries path node }

/-- The parent of the path is a directory. -/
def hasParent (path : Path) : Bool := decide (s.entries path.dropLast = some .directory)

def openDirectory (path : Path) : Except Errno Unit :=
  match s.entries path with
  | some .directory => .ok ()
  | some (.file _) => .error .notdir
  | none => .error .noent

def mkdir (path : Path) : Except Errno Unit × Files :=
  match s.entries path with
  | some _ => (.error .exist, s)
  | none => if s.hasParent path then (.ok (), s.setEntry path (some .directory)) else (.error .noent, s)

def openFile (path : Path) (writable : Bool) : Except Errno Handle :=
  match s.entries path with
  | some .directory => if writable then .error .isdir else .ok (.directory path)
  | some (.file inode) => .ok (.file inode)
  | none => .error .noent

def createNew (path : Path) : Except Errno ℕ × Files :=
  match s.entries path with
  | some _ => (.error .exist, s)
  | none =>
      if s.hasParent path then
        (.ok s.inodes, { s.setEntry path (some (.file s.inodes)) with
          contents := Function.update s.contents s.inodes []
          inodes := s.inodes + 1 })
      else (.error .noent, s)

def fstat : Handle → Metadata
  | .directory _ => ⟨false, 0⟩
  | .file inode => ⟨true, (s.contents inode).length⟩

def readToEnd : Handle → Except Errno (List UInt8)
  | .directory _ => .error .isdir
  | .file inode => .ok (s.contents inode)

def write (inode : ℕ) (bytes : List UInt8) (written : ℕ) : Except Errno ℕ × Files :=
  (.ok (min written bytes.length), { s with
    contents := Function.update s.contents inode (s.contents inode ++ bytes.take written) })

def link (old new : Path) : Except Errno Unit × Files :=
  match s.entries old, s.entries new with
  | none, _ => (.error .noent, s)
  | some .directory, _ => (.error (.other "Operation not permitted (os error 1)"), s)
  | some (.file _), some _ => (.error .exist, s)
  | some (.file inode), none =>
      if s.hasParent new then (.ok (), s.setEntry new (some (.file inode))) else (.error .noent, s)

def unlink (path : Path) : Except Errno Unit × Files :=
  match s.entries path with
  | none => (.error .noent, s)
  | some .directory => (.error .isdir, s)
  | some (.file _) => (.ok (), s.setEntry path none)

def setMemory (process : ℕ) (memory : Memory) : Files :=
  { s with memory := Function.update s.memory process memory }

def fetchAdd (process : ℕ) : ℕ × Files :=
  ((s.memory process).counter,
    s.setMemory process { s.memory process with counter := (s.memory process).counter + 1 })

/-- The process with this number is over; the next one starts counting anew. -/
def ended (process : ℕ) : Files := s.setMemory process ⟨(s.memory process).run + 1, 0⟩

end Files

/-- A call that fails for a reason of its own does nothing. -/
def faulty {α : Type} (o : Outcome) (s : Files) (result : Except Errno α × Files) :
    Except Errno α × Files :=
  match o.fault with
  | some fault => (.error fault, s)
  | none => result

def perform : (r : Syscall) → Outcome → Files → Answer r × Files
  | .openDirectory path, o, s => faulty o s (s.openDirectory path, s)
  | .mkdir path, o, s => faulty o s (s.mkdir path)
  | .openFile path writable, o, s => faulty o s (s.openFile path writable, s)
  | .createNew path, o, s => faulty o s (s.createNew path)
  | .fstat handle, o, s => faulty o s (.ok (s.fstat handle), s)
  | .fchmod _, o, s => faulty o s (.ok (), s)
  | .fsync _, o, s => faulty o s (.ok (), s)
  | .readToEnd handle, o, s => faulty o s (s.readToEnd handle, s)
  | .write inode bytes, o, s => faulty o s (s.write inode bytes o.written)
  | .link old new, o, s => faulty o s (s.link old new)
  | .unlink path, o, s => faulty o s (s.unlink path)
  | .fetchAdd process, _, s => s.fetchAdd process

/-- The files, with `outside` as what may happen to them besides. -/
abbrev machine (outside : Files → Files → Prop) : Machine syscalls where
  State := Files
  Choice := Outcome
  initial := .empty
  perform := perform
  environment := outside

/-! ### What a call can do -/

/-- What a call can make of the files. -/
inductive Effect (s : Files) : Syscall → Files → Prop
  | none {r : Syscall} : Effect s r s
  | mkdir {path : Path} (free : s.entries path = Option.none)
      (parent : s.entries path.dropLast = some .directory) :
      Effect s (.mkdir path) (s.setEntry path (some .directory))
  | createNew {path : Path} (free : s.entries path = Option.none)
      (parent : s.entries path.dropLast = some .directory) :
      Effect s (.createNew path) { s.setEntry path (some (.file s.inodes)) with
        contents := Function.update s.contents s.inodes []
        inodes := s.inodes + 1 }
  | write {inode : ℕ} {bytes : List UInt8} (written : ℕ) :
      Effect s (.write inode bytes) { s with
        contents := Function.update s.contents inode (s.contents inode ++ bytes.take written) }
  | link {old new : Path} {inode : ℕ} (source : s.entries old = some (.file inode))
      (free : s.entries new = Option.none) (parent : s.entries new.dropLast = some .directory) :
      Effect s (.link old new) (s.setEntry new (some (.file inode)))
  | unlink {path : Path} {inode : ℕ} (taken : s.entries path = some (.file inode)) :
      Effect s (.unlink path) (s.setEntry path Option.none)
  | fetchAdd {process : ℕ} :
      Effect s (.fetchAdd process) (s.setMemory process
        { s.memory process with counter := (s.memory process).counter + 1 })

theorem faulty_effect {α : Type} {o : Outcome} {s : Files} {r : Syscall}
    {result : Except Errno α × Files} (h : Effect s r result.2) :
    Effect s r (faulty o s result).2 := by
  unfold faulty
  split
  · exact .none
  · exact h

/-- A call does nothing but its effect. -/
theorem perform_effect (r : Syscall) (o : Outcome) (s : Files) : Effect s r (perform r o s).2 := by
  cases r with
  | mkdir path =>
      refine faulty_effect ?_
      unfold Files.mkdir
      split
      · exact .none
      · next hfree =>
          split_ifs with hparent
          · exact .mkdir hfree (of_decide_eq_true hparent)
          · exact .none
  | createNew path =>
      refine faulty_effect ?_
      unfold Files.createNew
      split
      · exact .none
      · next hfree =>
          split_ifs with hparent
          · exact .createNew hfree (of_decide_eq_true hparent)
          · exact .none
  | link old new =>
      refine faulty_effect ?_
      unfold Files.link
      split
      · exact .none
      · exact .none
      · exact .none
      · next inode hsource hfree =>
          split_ifs with hparent
          · exact .link hsource hfree (of_decide_eq_true hparent)
          · exact .none
  | unlink path =>
      refine faulty_effect ?_
      unfold Files.unlink
      split
      · exact .none
      · exact .none
      · next inode htaken => exact .unlink htaken
  | write inode bytes => exact faulty_effect (.write o.written)
  | fetchAdd process => exact .fetchAdd
  | openDirectory path => exact faulty_effect .none
  | openFile path writable => exact faulty_effect .none
  | fstat handle => exact faulty_effect .none
  | fchmod handle => exact faulty_effect .none
  | fsync handle => exact faulty_effect .none
  | readToEnd handle => exact faulty_effect .none

/-- The calls that only look. -/
def Looks : Syscall → Prop
  | .openDirectory _ | .openFile _ _ | .fstat _ | .fchmod _ | .fsync _ | .readToEnd _ => True
  | _ => False

theorem perform_looks {r : Syscall} (h : Looks r) (o : Outcome) (s : Files) :
    (perform r o s).2 = s := by
  have heffect := perform_effect r o s
  generalize (perform r o s).2 = s' at heffect
  cases heffect <;> first | rfl | exact absurd h id

end Directories

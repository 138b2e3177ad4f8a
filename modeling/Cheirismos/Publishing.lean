import Cheirismos.Crews
import Cheirismos.Locations

/-! # Publishing evidence

`evidence/mod.rs` as it runs against a directory that other publishers are using: `publish`, `read`
and `verify_source`, each broken into its system calls.

Directories are never removed or renamed here, so a directory handle is the path it was opened
under.  A `TemporaryEntry` that goes out of scope unlinks its file: that is done wherever the source
leaves `publish` with an error after the file was created, also where `remove` has unlinked it
already and only failed to sync.  `create_temporary` tries names until one is free; `patience`
bounds how often a call does, and every run is one of some patience.

`evidence` is the crew of all processes that use one store.  What others may do to the directory is
to rewrite a stored artifact (`Tampers`). -/

namespace Cheirismos.Publishing

open Process Directories

/-- A part of a call of the evidence store. -/
abbrev Evid (α : Type) := ExceptT EvidenceError (Program syscalls) α

namespace Evid

variable {α : Type}

/-- Make a system call. -/
def ask (r : Syscall) : Evid (Answer r) := ExceptT.lift (Program.request (F := syscalls) r)

/-- Run a part and return how it ended. -/
def outcome (x : Evid α) : Evid (Except EvidenceError α) := ExceptT.mk (Functor.map .ok x.run)

end Evid

/-! ### Errors -/

def errnoText : Errno → String
  | .exist => "File exists (os error 17)"
  | .noent => "No such file or directory (os error 2)"
  | .notdir => "Not a directory (os error 20)"
  | .isdir => "Is a directory (os error 21)"
  | .loop => "Too many levels of symbolic links (os error 40)"
  | .other text => text

def ioError (source : Errno) : EvidenceError := .io (errnoText source)

def openError (source : Errno) (path : String) : EvidenceError :=
  match source with
  | .isdir | .loop | .notdir => .invalidEntry path
  | source => ioError source

/-- An I/O error of kind `NotFound`. -/
def notFound (error : EvidenceError) : Bool := error == ioError .noent

/-- A path below the root as text. -/
def pathText (root : String) (path : Path) : String := String.intercalate "/" (root :: path)

namespace Evid

variable {α : Type}

/-- The answer of a call that fails with an I/O error. -/
def io : Except Errno α → Evid α
  | .ok a => pure a
  | .error source => throw (ioError source)

end Evid

open Evid

section files

variable (root : String)

/-! ### Directories -/

def syncDirectory (directory : Path) : Evid Unit := do
  io (← ask (.fsync (.directory directory)))

def openDirectory (path : Path) : Evid Unit := do
  match ← ask (.openDirectory path) with
  | .ok () => return ()
  | .error source => throw (openError source (pathText root path))

/-- `mkdirat`, where a directory that has appeared meanwhile is as good. -/
def makeDirectory (path : Path) : Evid Bool := do
  match ← ask (.mkdir path) with
  | .ok () => return true
  | .error .exist => return false
  | .error source => throw (ioError source)

def openOrCreateDirectory (parent path : Path) (secureExisting : Bool) : Evid Unit := do
  match ← ask (.openDirectory path) with
  | .ok () =>
      if secureExisting then
        secureDirectory
  | .error .noent =>
      let created ← makeDirectory path
      openDirectory root path
      if created || secureExisting then
        secureDirectory
  | .error source => throw (openError source (pathText root path))
where
  secureDirectory : Evid Unit := do
    io (← ask (.fchmod (.directory path)))
    syncDirectory path
    syncDirectory parent

def ensureStoreDirectory (parent path : Path) : Evid Unit :=
  openOrCreateDirectory root parent path true

/-- Walk down from a directory, creating what is missing or not. -/
def descend (create : Bool) : Path → List String → Evid Unit
  | _, [] => return ()
  | parent, component :: components => do
      let path := parent ++ [component]
      if create then
        ensureStoreDirectory root parent path
      else
        openDirectory root path
      descend create path components

def artifactLocation (digest : ArtifactDigest) (create : Bool) : Evid Path := do
  descend root create [] ["sha256", (digestComponents digest).1]
  return artifactPath digest

def sourceLocation (digest : ArtifactDigest) (source : EvidenceSource) (create : Bool) :
    Evid Path := do
  descend root create [] ["references", "sha256", (digestComponents digest).1,
    (digestComponents digest).2, (sourceParts source).1]
  return markerPath digest source

/-! ### Regular files -/

def validateRegularFile (file : Handle) (path : Path) : Evid Unit := do
  let metadata ← io (← ask (.fstat file))
  if metadata.isFile = false then
    throw (.invalidEntry (pathText root path))

def secureRegularFile (file : Handle) (path : Path) : Evid Unit := do
  validateRegularFile root file path
  io (← ask (.fchmod file))

def openRegularFile (path : Path) (writable : Bool) : Evid Handle := do
  match ← ask (.openFile path writable) with
  | .ok file =>
      validateRegularFile root file path
      if writable then
        io (← ask (.fchmod file))
      return file
  | .error source => throw (openError source (pathText root path))

/-! ### Temporary files -/

/-- Create a file under the first sequence number whose name is free. -/
def createTemporary (digest : ArtifactDigest) (process : ℕ) : (patience : ℕ) → Evid (ℕ × Path)
  | 0 => throw (.io "no temporary name was free")
  | patience + 1 => do
      let sequence ← ask (.fetchAdd process)
      let path := temporaryPath digest process sequence
      match ← ask (.createNew path) with
      | .ok inode => return (inode, path)
      | .error .exist => createTemporary digest process patience
      | .error source => throw (ioError source)

/-- Append bytes until all are written; a call appends at least one or fails. -/
def writeAll (inode : ℕ) : (fuel : ℕ) → Bytes → Evid Unit
  | _, [] => return ()
  | 0, _ :: _ => throw (.io "failed to write whole buffer")
  | fuel + 1, byte :: bytes => do
      match ← ask (.write inode (byte :: bytes)) with
      | .ok 0 => throw (.io "failed to write whole buffer")
      | .ok written => writeAll inode fuel ((byte :: bytes).drop written)
      | .error source => throw (ioError source)

/-- `TemporaryEntry::remove`. -/
def removeTemporary (path : Path) : Evid Unit := do
  match ← ask (.unlink path) with
  | .ok () | .error .noent => syncDirectory path.dropLast
  | .error source => throw (ioError source)

/-- `TemporaryEntry::drop`. -/
def dropTemporary (path : Path) : Evid Unit := do
  match ← ask (.unlink path) with
  | .ok () | .error .noent =>
      let _ ← ask (.fsync (.directory path.dropLast))
  | .error _ => return ()

/-! ### Markers -/

def recordSource (digest : ArtifactDigest) (source : EvidenceSource) : Evid Unit := do
  let path ← sourceLocation root digest source true
  match ← ask (.createNew path) with
  | .ok inode =>
      secureRegularFile root (.file inode) path
      io (← ask (.fsync (.file inode)))
      syncDirectory path.dropLast
  | .error .exist =>
      let marker ← openRegularFile root path true
      let metadata ← io (← ask (.fstat marker))
      if metadata.length ≠ 0 then
        throw (.invalidEntry (pathText root path))
      io (← ask (.fsync marker))
      syncDirectory path.dropLast
  | .error source => throw (openError source (pathText root path))

variable [Platform]

/-! ### Artifacts -/

/-- The bytes of an opened artifact, when they hash to the digest. -/
def readVerified (file : Handle) (path : Path) (digest : ArtifactDigest) (durable : Bool) :
    Evid VerifiedArtifact := do
  let bytes ← io (← ask (.readToEnd file))
  if h : Platform.sha256 bytes = digest then
    if durable then
      io (← ask (.fsync file))
      syncDirectory path.dropLast
    return ⟨digest, bytes, h⟩
  else throw (.digestMismatch digest)

def readArtifactIfPresent (path : Path) (digest : ArtifactDigest) (durable : Bool) :
    Evid (Option VerifiedArtifact) := do
  match ← outcome (openRegularFile root path durable) with
  | .ok file => return some (← readVerified file path digest durable)
  | .error error => if notFound error then return none else throw error

/-! ### Calls -/

/-- From the first write to the removal of the temporary name. -/
def publishTemporary (digest : ArtifactDigest) (bytes : Bytes) (path temporary : Path)
    (inode : ℕ) : Evid Unit := do
  writeAll inode bytes.length bytes
  io (← ask (.fchmod (.file inode)))
  io (← ask (.fsync (.file inode)))
  match ← ask (.link temporary path) with
  | .ok () | .error .exist =>
      match ← readArtifactIfPresent root path digest true with
      | some _ => removeTemporary temporary
      | none => throw (.io "published artifact disappeared before verification")
  | .error source => throw (ioError source)

def publish (process patience : ℕ) (bytes : Bytes) (source : EvidenceSource) :
    Evid ArtifactDigest := do
  let digest := Platform.sha256 bytes
  let path ← artifactLocation root digest true
  match ← readArtifactIfPresent root path digest true with
  | some _ =>
      recordSource root digest source
      return digest
  | none =>
      let (inode, temporary) ← createTemporary digest process patience
      match ← outcome (publishTemporary root digest bytes path temporary inode) with
      | .ok () =>
          recordSource root digest source
          return digest
      | .error error =>
          dropTemporary temporary
          throw error

def readArtifact (digest : ArtifactDigest) : Evid VerifiedArtifact := do
  let path ← artifactLocation root digest false
  match ← readArtifactIfPresent root path digest false with
  | some artifact => return artifact
  | none => throw (.io "evidence artifact does not exist")

def verifySource (digest : ArtifactDigest) (source : EvidenceSource) :
    Evid VerifiedArtifact := do
  let artifact ← readArtifact root digest
  let path ← sourceLocation root digest source false
  let marker ← openRegularFile root path false
  let metadata ← io (← ask (.fstat marker))
  if metadata.length ≠ 0 then
    throw (.invalidEntry (pathText root path))
  return artifact

end files

/-! ### The crew -/

inductive EvidenceCall where
  | publish (process patience : ℕ) (bytes : Bytes) (source : EvidenceSource)
  | read (process : ℕ) (digest : ArtifactDigest)
  | verifySource (process : ℕ) (digest : ArtifactDigest) (source : EvidenceSource)
deriving DecidableEq

def EvidenceCall.process : EvidenceCall → ℕ
  | publish process _ _ _ | read process _ | verifySource process _ _ => process

deriving instance DecidableEq for VerifiedArtifact

inductive EvidenceResult [Platform] where
  | published (result : Except EvidenceError ArtifactDigest)
  | artifact (result : Except EvidenceError VerifiedArtifact)
deriving DecidableEq

def EvidenceCall.body [Platform] (root : String) : EvidenceCall → Program syscalls EvidenceResult
  | publish process patience bytes source =>
      (Publishing.publish root process patience bytes source).run.bind fun r => .pure (.published r)
  | read _ digest => (readArtifact root digest).run.bind fun r => .pure (.artifact r)
  | verifySource _ digest source =>
      (Publishing.verifySource root digest source).run.bind fun r => .pure (.artifact r)

/-- Someone else rewrites a stored artifact. -/
def Tampers (s s' : Files) : Prop :=
  ∃ digest inode bytes, s.entries (artifactPath digest) = some (.file inode) ∧
    s' = { s with contents := Function.update s.contents inode bytes }

/-- The processes that use one evidence store. -/
def evidence [Platform] (root : String) : Crew (Directories.machine Tampers) where
  Call := EvidenceCall
  Result := EvidenceResult
  process := EvidenceCall.process
  body := EvidenceCall.body root
  ended p s := s.ended p

end Cheirismos.Publishing

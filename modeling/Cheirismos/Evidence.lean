import Cheirismos.Records

/-! # Reading evidence

The reading half of `evidence/mod.rs`: `read` (which the supervisor calls `resolve`) and
`verify_source` against the artifact directory as it is at that moment.

`ArtifactStore` is the part of the directory a read looks at: the file at the path of each
digest and the length of the marker file of each digest and source.  A file is accepted only
when its bytes hash to the digest, so a `VerifiedArtifact` carries that equation.  Failures of
the operating system are a parameter of each read (`fault`). -/

namespace Cheirismos

inductive EvidenceError where
  | io (source : String)
  | digestMismatch (digest : ArtifactDigest)
  | invalidRoot (path : String)
  | invalidEntry (path : String)
deriving DecidableEq

def EvidenceError.toString : EvidenceError → String
  | io source => "evidence I/O failed: " ++ source
  | digestMismatch digest => "artifact digest does not match its content: " ++ digest.value
  | invalidRoot path => "evidence root is not a directory: " ++ path
  | invalidEntry path => "evidence path has an invalid file type: " ++ path

inductive EvidenceSource where
  | case (id : CaseId)
  | attempt (id : AttemptId)
  | commissioning (id : InstrumentId)
deriving DecidableEq

def sourceParts : EvidenceSource → String × String
  | .case id => ("case", id.value)
  | .attempt id => ("attempt", id.value)
  | .commissioning id => ("commissioning", id.value)

/-- The first two characters of a digest and the rest. -/
def digestComponents (digest : ArtifactDigest) : String × String :=
  (String.ofList (digest.value.toList.take 2), String.ofList (digest.value.toList.drop 2))

/-- The artifact directory as far as reads depend on it. -/
structure ArtifactStore where
  root : String
  file : ArtifactDigest → Option Bytes
  marker : ArtifactDigest → EvidenceSource → Option ℕ

/-- The path of a source marker. -/
def ArtifactStore.sourcePath (artifacts : ArtifactStore) (digest : ArtifactDigest)
    (source : EvidenceSource) : String :=
  artifacts.root ++ "/references/sha256/" ++ (digestComponents digest).1 ++ "/" ++
    (digestComponents digest).2 ++ "/" ++ (sourceParts source).1 ++ "/" ++ (sourceParts source).2

section reads

variable [Platform]

/-- Bytes that hash to the digest. -/
structure VerifiedArtifact where
  digest : ArtifactDigest
  bytes : Bytes
  verified : Platform.sha256 bytes = digest

namespace ArtifactStore

def read (artifacts : ArtifactStore) (fault : Option EvidenceError) (digest : ArtifactDigest) :
    Except EvidenceError VerifiedArtifact :=
  match fault with
  | some error => .error error
  | none =>
      match artifacts.file digest with
      | none => .error (.io "evidence artifact does not exist")
      | some bytes =>
          if h : Platform.sha256 bytes = digest then .ok ⟨digest, bytes, h⟩
          else .error (.digestMismatch digest)

def verifySource (artifacts : ArtifactStore) (fault : Option EvidenceError)
    (digest : ArtifactDigest) (source : EvidenceSource) :
    Except EvidenceError VerifiedArtifact := do
  let artifact ← artifacts.read fault digest
  match artifacts.marker digest source with
  | none => throw (.io "No such file or directory (os error 2)")
  | some length =>
      if length = 0 then return artifact
      else throw (.invalidEntry (artifacts.sourcePath digest source))

/-- A read accepts exactly the stored bytes, when they hash to the digest. -/
theorem read_ok {artifacts : ArtifactStore} {fault : Option EvidenceError}
    {digest : ArtifactDigest} {artifact : VerifiedArtifact}
    (h : artifacts.read fault digest = .ok artifact) :
    fault = none ∧ artifact.digest = digest ∧ artifacts.file digest = some artifact.bytes := by
  unfold read at h
  split at h
  · cases h
  · split at h
    · cases h
    · next bytes hb =>
        split_ifs at h
        cases h
        exact ⟨rfl, rfl, hb⟩

/-- A verified source is a readable artifact with an empty marker. -/
theorem verifySource_ok {artifacts : ArtifactStore} {fault : Option EvidenceError}
    {digest : ArtifactDigest} {source : EvidenceSource} {artifact : VerifiedArtifact}
    (h : artifacts.verifySource fault digest source = .ok artifact) :
    artifacts.read fault digest = .ok artifact ∧ artifacts.marker digest source = some 0 := by
  unfold verifySource at h
  cases hr : artifacts.read fault digest with
  | error e => rw [hr] at h; cases h
  | ok a =>
      rw [hr] at h
      simp only [bind, Except.bind] at h
      split at h
      · cases h
      · next length hm =>
          split_ifs at h with h0
          cases h
          exact ⟨rfl, by rw [hm, h0]⟩

end ArtifactStore

end reads

end Cheirismos

import Cheirismos.Records
import Cheirismos.Runs

/-! # Firmware images

The offline inspection, comparison and composition of firmware bytes (`firmware.rs`).

* `ByteRange` is a nonempty half-open range; `ByteRange.positions` is the set it stands for.
* **Inspection.** `inspectImage` reports a uniform byte, repeated chunks and printable strings.
* **Comparison.** `compareImages` reports the runs of differing bytes, up to a limit.
* **Composition.** `buildCandidate` applies patches to an original that has the expected digest.

Bytes in memory have a length that fits in 64 bits (`Image`); the conversions that the source makes
to `u64` are checked here as well. -/

namespace Cheirismos

namespace Firmware

open Sequences (scanRuns finishRun)

def maxReportedDiffRanges : ℕ := 4096
def identificationStringLimit : ℕ := 256
def minimumIdentificationStringBytes : ℕ := 4
def repeatedChunkBytes : ℕ := 4096

def firmwareEvidenceInterpretation : String :=
  "Offline byte evidence only. It does not prove firmware provenance, compatibility, signature " ++
  "validity, physical chip count, electrical safety, or bootability. It grants no hardware authority."

/-! ### Data -/

/-- A slice of bytes. -/
structure Image where
  bytes : Bytes
  fits : bytes.length < 2 ^ 64

structure Sha256Digest where
  value : String
  valid : validateDigest value = true
deriving DecidableEq

/-- A half-open byte range with a nonzero length. -/
structure ByteRange where
  startByte : UInt64
  endByteExclusive : UInt64
  nonempty : startByte < endByteExclusive
deriving DecidableEq

structure ImagePatch where
  range : ByteRange
  replacement : Bytes
deriving DecidableEq

structure RepeatedChunkEvidence where
  chunkSizeBytes : UInt64
  completeChunkCount : UInt64
  repeatedChunkCount : UInt64
deriving DecidableEq

structure IdentificationStringEvidence where
  startByte : UInt64
  text : String
deriving DecidableEq

structure ImageInspection where
  sizeBytes : UInt64
  sha256 : Sha256Digest
  uniformByte : Option UInt8
  repeatedChunkEvidence : Option RepeatedChunkEvidence
  identificationStrings : List IdentificationStringEvidence
  identificationStringsTruncated : Bool
  interpretation : String
deriving DecidableEq

structure ImageComparison where
  left : ImageInspection
  right : ImageInspection
  changedBytes : UInt64
  changedRangeCount : UInt64
  rangesComplete : Bool
  changedRanges : List ByteRange
  interpretation : String
deriving DecidableEq

structure CandidateEvidence where
  originalSha256 : Sha256Digest
  candidateSha256 : Sha256Digest
  modifiedRanges : List ByteRange
  interpretation : String
deriving DecidableEq

structure CandidateImage where
  bytes : Bytes
  evidence : CandidateEvidence
deriving DecidableEq

inductive FirmwareError where
  | invalidRange (startByte endByteExclusive : UInt64)
  | invalidSha256Digest
  | imageLengthTooLarge
  | invalidDiffRangeLimit
  | imageLengthMismatch (leftBytes rightBytes : UInt64)
  | candidateBaseDigestMismatch (expected actual : Sha256Digest)
  | rangeOutOfBounds (kind : String) (range : ByteRange) (imageSizeBytes : UInt64)
  | patchLengthMismatch (patchIndex replacementBytes : ℕ) (rangeBytes : UInt64)
  | overlappingPatches (firstPatchIndex secondPatchIndex : ℕ)
  | patchTouchesProtectedRange (patchIndex : ℕ) (protectedRange : ByteRange)
deriving DecidableEq

/-- `u64::try_from` of a length or an index. -/
def u64TryFrom (n : ℕ) : Except FirmwareError UInt64 :=
  if n < 2 ^ 64 then .ok (UInt64.ofNat n) else .error .imageLengthTooLarge

def Sha256Digest.tryFrom (value : String) : Except FirmwareError Sha256Digest :=
  if h : validateDigest value = true then .ok ⟨value, h⟩ else .error .invalidSha256Digest

namespace ByteRange

def new (startByte endByteExclusive : UInt64) : Except FirmwareError ByteRange :=
  if h : startByte < endByteExclusive then .ok ⟨startByte, endByteExclusive, h⟩
  else .error (.invalidRange startByte endByteExclusive)

def byteLen (range : ByteRange) : UInt64 := range.endByteExclusive - range.startByte

def overlaps (range other : ByteRange) : Bool :=
  decide (range.startByte < other.endByteExclusive) &&
    decide (other.startByte < range.endByteExclusive)

end ByteRange

section digests

variable [Platform]

def sha256Digest (bytes : Bytes) : Sha256Digest :=
  ⟨(Platform.sha256 bytes).value, (Platform.sha256 bytes).valid⟩

end digests

def imageSize (bytes : Bytes) : Except FirmwareError UInt64 := u64TryFrom bytes.length

/-! ### Inspection -/

/-- `slice::chunks_exact`. -/
def chunksExact (size : ℕ) (bytes : Bytes) : List Bytes :=
  (List.range (bytes.length / size)).map fun i => (bytes.drop (i * size)).take size

/-- The chunks that a set of the chunks before them already holds. -/
def repeatedChunks : List Bytes → List Bytes → ℕ
  | _, [] => 0
  | unique, chunk :: chunks =>
      if chunk ∈ unique then repeatedChunks unique chunks + 1
      else repeatedChunks (chunk :: unique) chunks

def repeatedChunkEvidence (bytes : Bytes) : Except FirmwareError (Option RepeatedChunkEvidence) :=
  let completeChunkCount := bytes.length / repeatedChunkBytes
  let repeatedChunkCount := repeatedChunks [] (chunksExact repeatedChunkBytes bytes)
  if repeatedChunkCount = 0 then .ok none
  else do
    let chunkSizeBytes ← u64TryFrom repeatedChunkBytes
    let completeChunkCount ← u64TryFrom completeChunkCount
    let repeatedChunkCount ← u64TryFrom repeatedChunkCount
    return some ⟨chunkSizeBytes, completeChunkCount, repeatedChunkCount⟩

/-- `is_ascii_graphic` or a space. -/
def printable (byte : UInt8) : Bool := (33 ≤ byte && byte ≤ 126) || byte == 32

/-- The strings that were recorded, and whether one was left out. -/
abbrev StringScan := List IdentificationStringEvidence × Bool

def recordIdentificationString (bytes : Bytes) (scan : StringScan) (start last : ℕ) :
    Except FirmwareError StringScan :=
  if last - start < minimumIdentificationStringBytes then .ok scan
  else if scan.1.length = identificationStringLimit then .ok (scan.1, true)
  else do
    let startByte ← u64TryFrom start
    let text := String.ofList (((bytes.drop start).take (last - start)).map Char.ofUInt8)
    return (scan.1 ++ [⟨startByte, text⟩], scan.2)

def identificationStrings (bytes : Bytes) : Except FirmwareError StringScan := do
  let (runStart, scan) ← scanRuns printable id (recordIdentificationString bytes) 0 none ([], false)
    bytes
  finishRun (recordIdentificationString bytes) runStart scan bytes.length

variable [Platform]

def inspectImage (bytes : Bytes) : Except FirmwareError ImageInspection := do
  let sizeBytes ← imageSize bytes
  let uniform := bytes.head?.filter fun first => bytes.all (· == first)
  let repeated ← repeatedChunkEvidence bytes
  let (strings, truncated) ← identificationStrings bytes
  return {
    sizeBytes := sizeBytes
    sha256 := sha256Digest bytes
    uniformByte := uniform
    repeatedChunkEvidence := repeated
    identificationStrings := strings
    identificationStringsTruncated := truncated
    interpretation := firmwareEvidenceInterpretation }

/-! ### Comparison -/

/-- What the comparison has counted and recorded so far. -/
structure DiffScan where
  changedBytes : UInt64
  changedRangeCount : UInt64
  changedRanges : List ByteRange

def appendChangedRange (changedRanges : List ByteRange) (maxRanges start last : ℕ) :
    Except FirmwareError (List ByteRange) :=
  if changedRanges.length < maxRanges then do
    let startByte ← u64TryFrom start
    let endByteExclusive ← u64TryFrom last
    let range ← ByteRange.new startByte endByteExclusive
    return changedRanges ++ [range]
  else return changedRanges

def DiffScan.changed (scan : DiffScan) : DiffScan :=
  { scan with changedBytes := scan.changedBytes + 1 }

def DiffScan.close (maxRanges : ℕ) (scan : DiffScan) (start last : ℕ) :
    Except FirmwareError DiffScan := do
  let changedRanges ← appendChangedRange scan.changedRanges maxRanges start last
  return {
    scan with
    changedRangeCount := scan.changedRangeCount + 1
    changedRanges := changedRanges }

def compareImages (left right : Bytes) (maxRanges : ℕ) : Except FirmwareError ImageComparison := do
  if 1 ≤ maxRanges ∧ maxRanges ≤ maxReportedDiffRanges then
    let leftSizeBytes ← imageSize left
    let rightSizeBytes ← imageSize right
    if leftSizeBytes = rightSizeBytes then
      let (changedRangeStart, scan) ← scanRuns (fun (pair : UInt8 × UInt8) => pair.1 != pair.2)
        DiffScan.changed (DiffScan.close maxRanges) 0 none ⟨0, 0, []⟩ (left.zip right)
      let scan ← finishRun (DiffScan.close maxRanges) changedRangeStart scan left.length
      let leftInspection ← inspectImage left
      let rightInspection ← inspectImage right
      let reported ← u64TryFrom scan.changedRanges.length
      return {
        left := leftInspection
        right := rightInspection
        changedBytes := scan.changedBytes
        changedRangeCount := scan.changedRangeCount
        rangesComplete := scan.changedRangeCount == reported
        changedRanges := scan.changedRanges
        interpretation := firmwareEvidenceInterpretation }
    else throw (.imageLengthMismatch leftSizeBytes rightSizeBytes)
  else throw .invalidDiffRangeLimit

/-! ### Composition -/

def validateRangeWithinImage (range : ByteRange) (imageSizeBytes : UInt64) (kind : String) :
    Except FirmwareError Unit :=
  if range.endByteExclusive ≤ imageSizeBytes then .ok ()
  else .error (.rangeOutOfBounds kind range imageSizeBytes)

/-- The patches with their positions, in the order of their starts. -/
def orderedPatches (patches : List ImagePatch) : List (ImagePatch × ℕ) :=
  patches.zipIdx.mergeSort fun p q => decide (p.1.range.startByte ≤ q.1.range.startByte)

/-- The checks of one patch, after the patch that comes before it. -/
def validatePatch (imageSizeBytes : UInt64) (protectedRanges : List ByteRange)
    (previous : Option (ImagePatch × ℕ)) (patch : ImagePatch) (patchIndex : ℕ) :
    Except FirmwareError Unit := do
  validateRangeWithinImage patch.range imageSizeBytes "patch"
  let replacementBytes ← u64TryFrom patch.replacement.length
  if replacementBytes = patch.range.byteLen then
    match previous.filter fun previous => previous.1.range.overlaps patch.range with
    | some (_, previousIndex) => throw (.overlappingPatches previousIndex patchIndex)
    | none =>
        match protectedRanges.find? patch.range.overlaps with
        | some protectedRange => throw (.patchTouchesProtectedRange patchIndex protectedRange)
        | none => return ()
  else throw (.patchLengthMismatch patchIndex patch.replacement.length patch.range.byteLen)

def validatePatches (imageSizeBytes : UInt64) (protectedRanges : List ByteRange) :
    Option (ImagePatch × ℕ) → List (ImagePatch × ℕ) → Except FirmwareError Unit
  | _, [] => return ()
  | previous, (patch, patchIndex) :: rest => do
      validatePatch imageSizeBytes protectedRanges previous patch patchIndex
      validatePatches imageSizeBytes protectedRanges (some (patch, patchIndex)) rest

/-- `copy_from_slice` into the range, which has the length of the replacement. -/
def applyPatch (imageSizeBytes : UInt64) (candidate : Bytes) (patch : ImagePatch) :
    Except FirmwareError Bytes :=
  let start := patch.range.startByte.toNat
  let last := patch.range.endByteExclusive.toNat
  if last ≤ candidate.length then
    .ok (candidate.take start ++ patch.replacement ++ candidate.drop last)
  else .error (.rangeOutOfBounds "patch" patch.range imageSizeBytes)

def buildCandidate (original : Bytes) (expectedOriginalSha256 : Sha256Digest)
    (patches : List ImagePatch) (protectedRanges : List ByteRange) :
    Except FirmwareError CandidateImage := do
  let originalSizeBytes ← imageSize original
  let actualOriginalSha256 := sha256Digest original
  if actualOriginalSha256 = expectedOriginalSha256 then
    protectedRanges.forM fun range => validateRangeWithinImage range originalSizeBytes "protected"
    let orderedPatches := orderedPatches patches
    validatePatches originalSizeBytes protectedRanges none orderedPatches
    let candidate ← orderedPatches.foldlM
      (fun candidate patch => applyPatch originalSizeBytes candidate patch.1) original
    return {
      bytes := candidate
      evidence := {
        originalSha256 := expectedOriginalSha256
        candidateSha256 := sha256Digest candidate
        modifiedRanges := orderedPatches.map (·.1.range)
        interpretation := firmwareEvidenceInterpretation } }
  else throw (.candidateBaseDigestMismatch expectedOriginalSha256 actualOriginalSha256)

end Firmware

end Cheirismos

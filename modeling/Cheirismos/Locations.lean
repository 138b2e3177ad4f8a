import Cheirismos.Directories
import Cheirismos.Evidence
import Std.Data.String.ToNat

/-! # Where evidence lies

The paths of `evidence/mod.rs` below the root of the store: the artifact of a digest, the temporary
file of one publication of it, and the marker of a digest and a source.

No two of them are the same path: artifacts of different digests differ, markers differ in the
digest or in the source, a temporary name tells the process and its sequence number, and it starts
with a dot, which no artifact's name contains. -/

namespace Cheirismos

open Directories

def artifactPath (digest : ArtifactDigest) : Path :=
  ["sha256", (digestComponents digest).1, (digestComponents digest).2]

/-- `.{digest}.{process}.{sequence}.partial`. -/
def temporaryName (digest : ArtifactDigest) (process sequence : ℕ) : String :=
  "." ++ digest.value ++ "." ++ toString process ++ "." ++ toString sequence ++ ".partial"

def temporaryPath (digest : ArtifactDigest) (process sequence : ℕ) : Path :=
  ["sha256", (digestComponents digest).1, temporaryName digest process sequence]

def markerPath (digest : ArtifactDigest) (source : EvidenceSource) : Path :=
  ["references", "sha256", (digestComponents digest).1, (digestComponents digest).2,
    (sourceParts source).1, (sourceParts source).2]

/-- A path that only ever names a directory. -/
def StoreDirectory (path : Path) : Prop :=
  (path.head? = some "sha256" ∧ path.length ≤ 2) ∨
    (path.head? = some "references" ∧ path.length ≤ 5)

/-- A path that names the temporary file of a publication. -/
def Temporary (path : Path) : Prop :=
  ∃ digest process sequence, path = temporaryPath digest process sequence

/-! ### Digests and sources -/

theorem digestComponents_injective {d d' : ArtifactDigest}
    (h : digestComponents d = digestComponents d') : d = d' := by
  obtain ⟨hfirst, hsuffix⟩ := Prod.mk.inj h
  have hlist : d.value.toList = d'.value.toList := by
    rw [← List.take_append_drop 2 d.value.toList, ← List.take_append_drop 2 d'.value.toList,
      String.ofList_injective hfirst, String.ofList_injective hsuffix]
  have hvalue : d.value = d'.value := String.toList_injective hlist
  cases d
  cases d'
  cases hvalue
  rfl

theorem sourceParts_injective {s s' : EvidenceSource} (h : sourceParts s = sourceParts s') :
    s = s' := by
  cases s <;> cases s' <;> simp [sourceParts] at h
  case case.case a b => cases a; cases b; cases h; rfl
  case attempt.attempt a b => cases a; cases b; cases h; rfl
  case commissioning.commissioning a b => cases a; cases b; cases h; rfl

/-- A digest has no dot. -/
theorem digest_no_dot (d : ArtifactDigest) : '.' ∉ d.value.toList := by
  intro hmem
  have hbyte : (46 : UInt8) ∈ utf8 d.value := by
    rw [← String.ofList_toList (s := d.value), utf8_ofList]
    exact List.mem_flatMap.mpr ⟨'.', hmem, by decide⟩
  have hvalid := d.valid
  unfold validateDigest at hvalid
  rw [Bool.and_eq_true, List.all_eq_true] at hvalid
  exact absurd (hvalid.2 46 hbyte) (by decide)

/-! ### Temporary names -/

/-- The part after the last dot. -/
theorem split_last {l l' ds ds' : List Char} {c : Char} (hds : c ∉ ds) (hds' : c ∉ ds')
    (h : l ++ c :: ds = l' ++ c :: ds') : l = l' ∧ ds = ds' := by
  rcases List.append_eq_append_iff.mp h with ⟨as, rfl, hrest⟩ | ⟨as, rfl, hrest⟩
  · cases as with
    | nil =>
        rw [List.append_nil]
        exact ⟨rfl, (List.cons.inj hrest).2⟩
    | cons a as =>
        have htail := (List.cons.inj hrest).2
        exact absurd (htail ▸ List.mem_append_right _ List.mem_cons_self) hds
  · cases as with
    | nil =>
        rw [List.append_nil]
        exact ⟨rfl, (List.cons.inj hrest).2.symm⟩
    | cons a as =>
        have htail := (List.cons.inj hrest).2
        exact absurd (htail ▸ List.mem_append_right _ List.mem_cons_self) hds'

theorem numeral_no_dot (n : ℕ) : '.' ∉ n.repr.toList := by
  rw [Nat.toList_repr]
  intro hmem
  have hdigit : '.'.isDigit = true := Nat.isDigit_of_mem_toDigits (by decide) (by decide) hmem
  exact absurd hdigit (by decide)

theorem temporaryName_toList (d : ArtifactDigest) (p s : ℕ) :
    (temporaryName d p s).toList =
      (('.' :: d.value.toList ++ '.' :: p.repr.toList) ++ '.' :: s.repr.toList) ++
        ".partial".toList := by
  unfold temporaryName
  simp only [String.toList_append, Nat.toString_eq_repr]
  simp

/-- A temporary name tells the process and the sequence number. -/
theorem temporaryName_injective {d d' : ArtifactDigest} {p p' s s' : ℕ}
    (h : temporaryName d p s = temporaryName d' p' s') : p = p' ∧ s = s' := by
  have hlist := congrArg String.toList h
  rw [temporaryName_toList, temporaryName_toList] at hlist
  obtain ⟨hfront, hs⟩ := split_last (numeral_no_dot s) (numeral_no_dot s')
    (List.append_cancel_right hlist)
  obtain ⟨_, hp⟩ := split_last (numeral_no_dot p) (numeral_no_dot p') hfront
  exact ⟨Nat.repr_injective (String.toList_injective hp),
    Nat.repr_injective (String.toList_injective hs)⟩

/-! ### Paths -/

theorem temporaryPath_injective {d d' : ArtifactDigest} {p p' s s' : ℕ}
    (h : temporaryPath d p s = temporaryPath d' p' s') : p = p' ∧ s = s' := by
  simp only [temporaryPath, List.cons.injEq, and_true, true_and] at h
  exact temporaryName_injective h.2

theorem artifactPath_injective {d d' : ArtifactDigest} (h : artifactPath d = artifactPath d') :
    d = d' := by
  simp only [artifactPath, List.cons.injEq, and_true, true_and] at h
  exact digestComponents_injective (Prod.ext h.1 h.2)

theorem markerPath_injective {d d' : ArtifactDigest} {source source' : EvidenceSource}
    (h : markerPath d source = markerPath d' source') : d = d' ∧ source = source' := by
  simp only [markerPath, List.cons.injEq, and_true, true_and] at h
  obtain ⟨hfirst, hsuffix, hkind, hid⟩ := h
  exact ⟨digestComponents_injective (Prod.ext hfirst hsuffix),
    sourceParts_injective (Prod.ext hkind hid)⟩

theorem artifactPath_not_temporary (d : ArtifactDigest) : ¬ Temporary (artifactPath d) := by
  rintro ⟨d', p, s, h⟩
  simp only [artifactPath, temporaryPath, List.cons.injEq, and_true, true_and] at h
  have hdot : '.' ∈ (digestComponents d).2.toList := by
    rw [h.2, temporaryName_toList]
    simp
  unfold digestComponents at hdot
  rw [String.toList_ofList] at hdot
  exact digest_no_dot d (List.drop_subset 2 _ hdot)

theorem markerPath_not_temporary (d : ArtifactDigest) (source : EvidenceSource) :
    ¬ Temporary (markerPath d source) := by
  rintro ⟨d', p, s, h⟩
  exact absurd (congrArg List.length h) (by simp [markerPath, temporaryPath])

theorem markerPath_ne_artifactPath (d d' : ArtifactDigest) (source : EvidenceSource) :
    markerPath d source ≠ artifactPath d' := by
  intro h
  exact absurd (congrArg List.length h) (by simp [markerPath, artifactPath])

theorem StoreDirectory.not_temporary {path : Path} (h : StoreDirectory path) :
    ¬ Temporary path := by
  rintro ⟨d, p, s, rfl⟩
  rcases h with ⟨_, hlen⟩ | ⟨hhead, _⟩
  · simp [temporaryPath] at hlen
  · simp [temporaryPath] at hhead

theorem StoreDirectory.ne_artifactPath {path : Path} (h : StoreDirectory path)
    (d : ArtifactDigest) : path ≠ artifactPath d := by
  rintro rfl
  rcases h with ⟨_, hlen⟩ | ⟨hhead, _⟩
  · simp [artifactPath] at hlen
  · simp [artifactPath] at hhead

theorem StoreDirectory.ne_markerPath {path : Path} (h : StoreDirectory path) (d : ArtifactDigest)
    (source : EvidenceSource) : path ≠ markerPath d source := by
  rintro rfl
  rcases h with ⟨hhead, _⟩ | ⟨_, hlen⟩
  · simp [markerPath] at hhead
  · simp [markerPath] at hlen

end Cheirismos

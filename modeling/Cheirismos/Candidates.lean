import Cheirismos.Differences
import Cheirismos.Requests
import Mathlib

/-! # Candidate images

What `buildCandidate` accepts and what it composes.

* `Accepted` is the condition on the original, the patches and the protected ranges, in which the
  order of neither list matters; `Composed` describes the candidate position by position.
* `validatePatches` compares a patch only with the one before it.  `Before` is transitive, so that
  neighbours that do not overlap are enough when the patches are sorted by their starts.
* `buildCandidate_patches` puts these together, and `compareImages_inverse` relates composition
  and comparison. -/

namespace Cheirismos

namespace Firmware

open Sequences

/-! ### Ranges that do not overlap -/

namespace ByteRange

variable {r s t : ByteRange} {i : ℕ}

/-- The range ends where the other starts, or earlier. -/
def Before (r s : ByteRange) : Prop := r.bounds.2 ≤ s.bounds.1

instance : Trans Before Before Before where
  trans {r s t} hrs hst := by
    have := s.bounds_lt
    unfold Before at *
    omega

theorem overlaps_eq_false_iff : r.overlaps s = false ↔ Disjoint r.positions s.positions := by
  have hr := r.bounds_lt
  have hs := s.bounds_lt
  have hoverlaps : r.overlaps s = true ↔ r.bounds.1 < s.bounds.2 ∧ s.bounds.1 < r.bounds.2 := by
    rw [overlaps, Bool.and_eq_true_iff, decide_eq_true_iff, decide_eq_true_iff,
      UInt64.lt_iff_toNat_lt, UInt64.lt_iff_toNat_lt]
    rfl
  rw [Bool.eq_false_iff, ne_eq, hoverlaps, Set.disjoint_left]
  constructor
  · intro h i hir his
    rw [mem_positions] at hir his
    omega
  · intro h hlt
    have hmem := h (a := max r.bounds.1 s.bounds.1)
    rw [mem_positions, mem_positions] at hmem
    omega

theorem Before.disjoint (h : Before r s) : Disjoint r.positions s.positions := by
  rw [Set.disjoint_left]
  intro i hir his
  rw [mem_positions] at hir his
  unfold Before at h
  omega

/-- Ranges in the order of their starts that do not overlap lie one before the other. -/
theorem before_of_le (hle : r.bounds.1 ≤ s.bounds.1) (h : Disjoint r.positions s.positions) :
    Before r s := by
  by_contra hnot
  have hs := s.bounds_lt
  unfold Before at hnot
  have hinside : s.bounds.1 ∈ r.positions := mem_positions.mpr (by omega)
  have hstart : s.bounds.1 ∈ s.positions := mem_positions.mpr (by omega)
  exact Set.disjoint_left.mp h hinside hstart

theorem Before.asymm (hrs : Before r s) (hsr : Before s r) : r = s := by
  have := r.bounds_lt
  have := s.bounds_lt
  unfold Before at hrs hsr
  omega

theorem byteLen_toNat : r.byteLen.toNat = r.bounds.2 - r.bounds.1 :=
  UInt64.toNat_sub_of_le _ _ (UInt64.le_of_lt r.nonempty)

end ByteRange

/-! ### Validation -/

/-- A patch on its own: in bounds, of the length of its range, and clear of protected ranges. -/
structure Fits (size : ℕ) (protectedRanges : List ByteRange) (patch : ImagePatch) : Prop where
  bound : patch.range.bounds.2 ≤ size
  length : patch.replacement.length = patch.range.byteLen.toNat
  clear : ∀ r ∈ protectedRanges, Disjoint patch.range.positions r.positions

section validation

variable {size : UInt64} {protectedRanges : List ByteRange} {previous : Option (ImagePatch × ℕ)}
  {patch : ImagePatch} {patchIndex : ℕ}

theorem validateRange_ok_iff {range : ByteRange} {kind : String} :
    validateRangeWithinImage range size kind = .ok () ↔ range.bounds.2 ≤ size.toNat := by
  unfold validateRangeWithinImage
  split_ifs with h
  · exact iff_of_true rfl (UInt64.le_iff_toNat_le.mp h)
  · exact iff_of_false (by rintro ⟨⟩) fun hle => h (UInt64.le_iff_toNat_le.mpr hle)

theorem u64TryFrom_eq_iff {n : ℕ} {m : UInt64} : u64TryFrom n = .ok m ↔ n = m.toNat := by
  have hm := m.toNat_lt
  unfold u64TryFrom
  split_ifs with h
  · rw [Except.ok.injEq, ← UInt64.toNat_inj, UInt64.toNat_ofNat_of_lt' h]
  · exact iff_of_false (by rintro ⟨⟩) (by omega)

theorem validatePatch_ok_iff :
    validatePatch size protectedRanges previous patch patchIndex = .ok () ↔
      Fits size.toNat protectedRanges patch ∧
        ∀ q ∈ previous, Disjoint q.1.range.positions patch.range.positions := by
  have hclear : protectedRanges.find? patch.range.overlaps = none ↔
      ∀ r ∈ protectedRanges, Disjoint patch.range.positions r.positions := by
    simp only [List.find?_eq_none, Bool.not_eq_true, ByteRange.overlaps_eq_false_iff]
  have hbefore : (previous.filter fun q => q.1.range.overlaps patch.range) = none ↔
      ∀ q ∈ previous, Disjoint q.1.range.positions patch.range.positions := by
    simp only [Option.filter_eq_none_iff, Bool.not_eq_true, ByteRange.overlaps_eq_false_iff]
    rfl
  rw [validatePatch, except_bind_ok]
  constructor
  · rintro ⟨_, hbound, h⟩
    obtain ⟨n, hn, h⟩ := except_bind_ok.mp h
    split_ifs at h with hlength
    subst hlength
    cases hprevious : previous.filter fun q => q.1.range.overlaps patch.range with
    | some q =>
        rw [hprevious] at h
        cases h
    | none =>
        rw [hprevious] at h
        cases hfind : protectedRanges.find? patch.range.overlaps with
        | some r =>
            rw [hfind] at h
            cases h
        | none =>
            exact ⟨⟨validateRange_ok_iff.mp hbound, u64TryFrom_eq_iff.mp hn, hclear.mp hfind⟩,
              hbefore.mp hprevious⟩
  · rintro ⟨hfits, hprevious⟩
    refine ⟨(), validateRange_ok_iff.mpr hfits.bound, ?_⟩
    rw [except_bind_ok]
    refine ⟨_, u64TryFrom_eq_iff.mpr hfits.length, ?_⟩
    rw [if_pos rfl, hbefore.mpr hprevious, hclear.mpr hfits.clear]
    rfl

/-- Every patch is checked on its own and against the one before it. -/
theorem validatePatches_ok_iff {list : List (ImagePatch × ℕ)} :
    validatePatches size protectedRanges previous list = .ok () ↔
      (∀ q ∈ list, Fits size.toNat protectedRanges q.1) ∧
        (previous.toList ++ list).IsChain
          fun p q => Disjoint p.1.range.positions q.1.range.positions := by
  induction list generalizing previous with
  | nil =>
      refine iff_of_true rfl ⟨fun q hq => absurd hq List.not_mem_nil, ?_⟩
      cases previous with
      | none => exact .nil
      | some q => exact .singleton q
  | cons head rest ih =>
      obtain ⟨patch, patchIndex⟩ := head
      have hchain : (previous.toList ++ (patch, patchIndex) :: rest).IsChain
          (fun p q => Disjoint p.1.range.positions q.1.range.positions) ↔
            (∀ q ∈ previous, Disjoint q.1.range.positions patch.range.positions) ∧
              ((patch, patchIndex) :: rest).IsChain
                fun p q => Disjoint p.1.range.positions q.1.range.positions := by
        cases previous with
        | none => simp
        | some q => simp
      have hone : ∀ u : Unit, validatePatch size protectedRanges previous patch patchIndex = .ok u ↔
          validatePatch size protectedRanges previous patch patchIndex = .ok () := fun _ => Iff.rfl
      rw [validatePatches, except_bind_ok]
      simp only [hone, validatePatch_ok_iff, ih, exists_const, hchain, List.forall_mem_cons,
        Option.toList_some, List.singleton_append]
      tauto

end validation

/-! ### Application -/

section application

variable {candidate : Bytes} {patch : ImagePatch} {size : UInt64} {i : ℕ}

/-- The bytes with the replacement in the range of the patch. -/
def replaced (candidate : Bytes) (patch : ImagePatch) : Bytes :=
  candidate.take patch.range.bounds.1 ++ patch.replacement ++ candidate.drop patch.range.bounds.2

theorem applyPatch_ok (h : patch.range.bounds.2 ≤ candidate.length) :
    applyPatch size candidate patch = .ok (replaced candidate patch) := if_pos h

variable (hbound : patch.range.bounds.2 ≤ candidate.length)
  (hlength : patch.replacement.length = patch.range.byteLen.toNat)

include hbound hlength

theorem replaced_length : (replaced candidate patch).length = candidate.length := by
  have hlt := patch.range.bounds_lt
  rw [ByteRange.byteLen_toNat] at hlength
  rw [replaced, List.length_append, List.length_append, List.length_take, List.length_drop]
  omega

theorem replaced_inside (hi : i ∈ patch.range.positions) :
    (replaced candidate patch)[i]? = patch.replacement[i - patch.range.bounds.1]? := by
  have hlt := patch.range.bounds_lt
  obtain ⟨hstart, hlast⟩ := ByteRange.mem_positions.mp hi
  rw [ByteRange.byteLen_toNat] at hlength
  have htake : (candidate.take patch.range.bounds.1).length = patch.range.bounds.1 := by
    rw [List.length_take]
    omega
  rw [replaced, List.getElem?_append_left (by rw [List.length_append, htake]; omega),
    List.getElem?_append_right (by omega), htake]

theorem replaced_outside (hi : i ∉ patch.range.positions) :
    (replaced candidate patch)[i]? = candidate[i]? := by
  have hlt := patch.range.bounds_lt
  rw [ByteRange.byteLen_toNat] at hlength
  have htake : (candidate.take patch.range.bounds.1).length = patch.range.bounds.1 := by
    rw [List.length_take]
    omega
  by_cases hstart : i < patch.range.bounds.1
  · rw [replaced, List.append_assoc, List.getElem?_append_left (by omega),
      List.getElem?_take_of_lt hstart]
  · have hlast : patch.range.bounds.2 ≤ i := by
      by_contra hnot
      exact hi (ByteRange.mem_positions.mpr (by omega))
    have hfront : (candidate.take patch.range.bounds.1 ++ patch.replacement).length =
        patch.range.bounds.2 := by
      rw [List.length_append, htake]
      omega
    rw [replaced, List.getElem?_append_right (by omega), hfront, List.getElem?_drop]
    congr 1
    omega

end application

/-- What a list of patches makes of some bytes. -/
structure Patched (original : Bytes) (patches : List ImagePatch) (bytes : Bytes) : Prop where
  length : bytes.length = original.length
  inside : ∀ p ∈ patches, ∀ i ∈ p.range.positions,
    bytes[i]? = p.replacement[i - p.range.bounds.1]?
  outside : ∀ i, (∀ p ∈ patches, i ∉ p.range.positions) → bytes[i]? = original[i]?

/-- The positions settle the bytes. -/
theorem Patched.unique {original bytes bytes' : Bytes} {patches patches' : List ImagePatch}
    (h : Patched original patches bytes) (h' : Patched original patches' bytes')
    (hmem : ∀ p, p ∈ patches ↔ p ∈ patches') : bytes = bytes' := by
  refine List.ext_getElem? fun i => ?_
  by_cases hi : ∃ p ∈ patches, i ∈ p.range.positions
  · obtain ⟨p, hp, hi⟩ := hi
    rw [h.inside p hp i hi, h'.inside p ((hmem p).mp hp) i hi]
  · have hnot : ∀ p ∈ patches, i ∉ p.range.positions := fun p hp hin => hi ⟨p, hp, hin⟩
    rw [h.outside i hnot, h'.outside i fun p hp => hnot p ((hmem p).mpr hp)]

/-- Patches that are in bounds and do not overlap are all there in the end. -/
theorem applyPatches_ok {size : UInt64} {original : Bytes} {list : List (ImagePatch × ℕ)}
    (hfits : ∀ q ∈ list, q.1.range.bounds.2 ≤ original.length ∧
      q.1.replacement.length = q.1.range.byteLen.toNat)
    (hdisjoint : list.Pairwise fun p q => Disjoint p.1.range.positions q.1.range.positions) :
    ∃ bytes, list.foldlM (fun candidate patch => applyPatch size candidate patch.1) original =
      .ok bytes ∧ Patched original (list.map Prod.fst) bytes := by
  induction list generalizing original with
  | nil => exact ⟨original, rfl, rfl, fun p hp => absurd hp List.not_mem_nil, fun _ _ => rfl⟩
  | cons head rest ih =>
      obtain ⟨hbound, hlength⟩ := hfits head List.mem_cons_self
      obtain ⟨hhead, hrest⟩ := List.pairwise_cons.mp hdisjoint
      have hsame : (replaced original head.1).length = original.length :=
        replaced_length hbound hlength
      have hleft : ∀ q ∈ rest, q.1.range.bounds.2 ≤ (replaced original head.1).length ∧
          q.1.replacement.length = q.1.range.byteLen.toNat := by
        intro q hq
        rw [hsame]
        exact hfits q (List.mem_cons_of_mem _ hq)
      obtain ⟨bytes, hbytes, hpatched⟩ := ih hleft hrest
      refine ⟨bytes, ?_, hpatched.length.trans hsame, ?_, ?_⟩
      · rw [List.foldlM_cons, applyPatch_ok hbound]
        exact hbytes
      · intro p hp i hi
        rcases List.mem_cons.mp hp with rfl | hp
        · have hlater : ∀ q ∈ rest.map Prod.fst, i ∉ q.range.positions := by
            intro q hq hin
            obtain ⟨later, hmem, rfl⟩ := List.mem_map.mp hq
            exact Set.disjoint_left.mp (hhead later hmem) hi hin
          rw [hpatched.outside i hlater, replaced_inside hbound hlength hi]
        · exact hpatched.inside p hp i hi
      · intro i hi
        rw [hpatched.outside i fun p hp => hi p (List.mem_cons_of_mem _ hp),
          replaced_outside hbound hlength (hi head.1 List.mem_cons_self)]

/-! ### The order of the patches -/

section order

variable {patches : List ImagePatch}

theorem orderedPatches_perm : ((orderedPatches patches).map Prod.fst).Perm patches := by
  have h := (List.mergeSort_perm patches.zipIdx fun p q =>
    decide (p.1.range.startByte ≤ q.1.range.startByte)).map Prod.fst
  rwa [List.zipIdx_map_fst] at h

theorem orderedPatches_sorted : (orderedPatches patches).Pairwise
    fun p q => p.1.range.bounds.1 ≤ q.1.range.bounds.1 := by
  have h : (orderedPatches patches).Pairwise
      fun p q => decide (p.1.range.startByte ≤ q.1.range.startByte) = true := by
    refine List.pairwise_mergeSort (fun p q r hpq hqr => ?_) (fun p q => ?_) _
    · exact decide_eq_true (UInt64.le_trans (of_decide_eq_true hpq) (of_decide_eq_true hqr))
    · rw [Bool.or_eq_true_iff, decide_eq_true_iff, decide_eq_true_iff]
      exact UInt64.le_total _ _
  exact h.imp fun {p q} hle => UInt64.le_iff_toNat_le.mp (of_decide_eq_true hle)

theorem mem_orderedPatches {p : ImagePatch} :
    (∃ index, (p, index) ∈ orderedPatches patches) ↔ p ∈ patches := by
  rw [← orderedPatches_perm.mem_iff, List.mem_map]
  exact ⟨fun ⟨index, h⟩ => ⟨(p, index), h, rfl⟩, fun ⟨⟨_, index⟩, h, he⟩ => ⟨index, he ▸ h⟩⟩

theorem forall_orderedPatches {P : ImagePatch → Prop} :
    (∀ q ∈ orderedPatches patches, P q.1) ↔ ∀ p ∈ patches, P p := by
  constructor
  · intro h p hp
    obtain ⟨index, hmem⟩ := mem_orderedPatches.mpr hp
    exact h _ hmem
  · exact fun h q hq => h q.1 (mem_orderedPatches.mp ⟨q.2, hq⟩)

/-- Sorted patches whose neighbours do not overlap lie one before the other. -/
theorem orderedPatches_before (h : (orderedPatches patches).IsChain
    fun p q => Disjoint p.1.range.positions q.1.range.positions) :
    (orderedPatches patches).Pairwise fun p q => p.1.range.Before q.1.range := by
  have hsorted : (orderedPatches patches).IsChain
      fun p q => p.1.range.bounds.1 ≤ q.1.range.bounds.1 := orderedPatches_sorted.isChain
  have hbefore : ((orderedPatches patches).map (·.1.range)).IsChain ByteRange.Before := by
    rw [List.isChain_map, List.isChain_iff_forall_rel_of_append_cons_cons]
    rw [List.isChain_iff_forall_rel_of_append_cons_cons] at hsorted h
    exact fun p q _ _ he => ByteRange.before_of_le (hsorted he) (h he)
  exact List.pairwise_map.mp (List.isChain_iff_pairwise.mp hbefore)

theorem orderedPatches_chain_iff : ((orderedPatches patches).IsChain
    fun p q => Disjoint p.1.range.positions q.1.range.positions) ↔
      patches.Pairwise fun p q => Disjoint p.range.positions q.range.positions := by
  have hperm : patches.Pairwise (fun p q => Disjoint p.range.positions q.range.positions) ↔
      (orderedPatches patches).Pairwise
        fun p q => Disjoint p.1.range.positions q.1.range.positions := by
    rw [← orderedPatches_perm.pairwise_iff fun {p q} h => h.symm, List.pairwise_map]
  rw [hperm]
  exact ⟨fun h => (orderedPatches_before h).imp fun {p q} h => h.disjoint, List.Pairwise.isChain⟩

end order

/-! ### Composition -/

section composition

variable [Platform] {original : Bytes} {expected : Sha256Digest} {patches patches' : List ImagePatch}
  {protectedRanges protectedRanges' : List ByteRange} {candidate : CandidateImage}

/-- What the original, the patches and the protected ranges have to satisfy. -/
structure Accepted (original : Bytes) (expected : Sha256Digest) (patches : List ImagePatch)
    (protectedRanges : List ByteRange) : Prop where
  digest : sha256Digest original = expected
  inBounds : ∀ r ∈ protectedRanges, r.endByteExclusive.toNat ≤ original.length
  patchInBounds : ∀ p ∈ patches, p.range.endByteExclusive.toNat ≤ original.length
  length : ∀ p ∈ patches, p.replacement.length = p.range.byteLen.toNat
  disjoint : patches.Pairwise fun p q => Disjoint p.range.positions q.range.positions
  clear : ∀ p ∈ patches, ∀ r ∈ protectedRanges, Disjoint p.range.positions r.positions

/-- The condition does not depend on the order of the lists. -/
theorem Accepted.perm (h : Accepted original expected patches protectedRanges)
    (hpatches : patches'.Perm patches) (hprotected : protectedRanges'.Perm protectedRanges) :
    Accepted original expected patches' protectedRanges' where
  digest := h.digest
  inBounds r hr := h.inBounds r (hprotected.mem_iff.mp hr)
  patchInBounds p hp := h.patchInBounds p (hpatches.mem_iff.mp hp)
  length p hp := h.length p (hpatches.mem_iff.mp hp)
  disjoint := h.disjoint.perm hpatches.symm fun hd => hd.symm
  clear p hp r hr := h.clear p (hpatches.mem_iff.mp hp) r (hprotected.mem_iff.mp hr)

/-- What the candidate is, position by position, and the evidence that comes with it. -/
structure Composed (original : Bytes) (expected : Sha256Digest) (patches : List ImagePatch)
    (candidate : CandidateImage) : Prop where
  bytes : Patched original patches candidate.bytes
  ranges : candidate.evidence.modifiedRanges.Perm (patches.map (·.range))
  sorted : candidate.evidence.modifiedRanges.Pairwise ByteRange.Before
  originalSha256 : candidate.evidence.originalSha256 = expected
  candidateSha256 : candidate.evidence.candidateSha256 = sha256Digest candidate.bytes
  interpretation : candidate.evidence.interpretation = firmwareEvidenceInterpretation

omit [Platform] in
theorem sorted_unique {ranges ranges' : List ByteRange} (h : ranges.Pairwise ByteRange.Before)
    (h' : ranges'.Pairwise ByteRange.Before) (hperm : ranges.Perm ranges') : ranges = ranges' :=
  hperm.eq_of_pairwise (fun _ _ _ _ hab hba => hab.asymm hba) h h'

theorem Composed.unique {candidate' : CandidateImage}
    (h : Composed original expected patches candidate)
    (h' : Composed original expected patches' candidate') (hperm : patches'.Perm patches) :
    candidate = candidate' := by
  have hbytes := h.bytes.unique h'.bytes fun p => hperm.mem_iff.symm
  have hranges := sorted_unique h.sorted h'.sorted
    (h.ranges.trans ((hperm.map _).symm.trans h'.ranges.symm))
  obtain ⟨bytes, evidence⟩ := candidate
  obtain ⟨bytes', evidence'⟩ := candidate'
  obtain rfl : bytes = bytes' := hbytes
  refine congrArg _ ?_
  obtain ⟨original₁, candidate₁, ranges₁, interpretation₁⟩ := evidence
  obtain ⟨original₂, candidate₂, ranges₂, interpretation₂⟩ := evidence'
  rw [CandidateEvidence.mk.injEq]
  exact ⟨h.originalSha256.trans h'.originalSha256.symm,
    h.candidateSha256.trans h'.candidateSha256.symm, hranges,
    h.interpretation.trans h'.interpretation.symm⟩

omit [Platform] in
theorem protected_ok_iff {size : UInt64} :
    (protectedRanges.forM fun range => validateRangeWithinImage range size "protected") = .ok () ↔
      ∀ r ∈ protectedRanges, r.bounds.2 ≤ size.toNat := by
  induction protectedRanges with
  | nil => exact iff_of_true rfl fun r hr => absurd hr List.not_mem_nil
  | cons range ranges ih =>
      rw [List.forall_mem_cons]
      constructor
      · intro h
        obtain ⟨_, hhead, hrest⟩ := except_bind_ok.mp h
        exact ⟨validateRange_ok_iff.mp hhead, ih.mp hrest⟩
      · rintro ⟨hhead, hrest⟩
        exact except_bind_ok.mpr ⟨(), validateRange_ok_iff.mpr hhead, ih.mpr hrest⟩

/-- What is checked before anything is copied. -/
theorem accepted_iff {size : UInt64} (hsize : size.toNat = original.length) :
    Accepted original expected patches protectedRanges ↔
      sha256Digest original = expected ∧
      (protectedRanges.forM fun r => validateRangeWithinImage r size "protected") = .ok () ∧
      validatePatches size protectedRanges none (orderedPatches patches) = .ok () := by
  rw [protected_ok_iff, validatePatches_ok_iff, Option.toList_none, List.nil_append,
    orderedPatches_chain_iff, forall_orderedPatches, hsize]
  constructor
  · intro h
    exact ⟨h.digest, h.inBounds,
      fun p hp => ⟨h.patchInBounds p hp, h.length p hp, h.clear p hp⟩, h.disjoint⟩
  · rintro ⟨hdigest, hbounds, hfits, hdisjoint⟩
    exact ⟨hdigest, hbounds, fun p hp => (hfits p hp).bound, fun p hp => (hfits p hp).length,
      hdisjoint, fun p hp => (hfits p hp).clear⟩

theorem buildCandidate_composed (hfits : original.length < 2 ^ 64)
    (h : Accepted original expected patches protectedRanges) :
    ∃ candidate, buildCandidate original expected patches protectedRanges = .ok candidate ∧
      Composed original expected patches candidate := by
  have hsize : (UInt64.ofNat original.length).toNat = original.length :=
    UInt64.toNat_ofNat_of_lt' hfits
  obtain ⟨hdigest, hprotected, hvalid⟩ := (accepted_iff hsize).mp h
  have hbefore := orderedPatches_before (orderedPatches_chain_iff.mpr h.disjoint)
  obtain ⟨bytes, hbytes, hpatched⟩ := @applyPatches_ok (UInt64.ofNat original.length)
    original (orderedPatches patches) (forall_orderedPatches (P := fun p =>
      p.range.bounds.2 ≤ original.length ∧ p.replacement.length = p.range.byteLen.toNat).mpr
        fun p hp => ⟨h.patchInBounds p hp, h.length p hp⟩)
    (hbefore.imp fun {p q} hb => hb.disjoint)
  refine ⟨⟨bytes, expected, sha256Digest bytes, (orderedPatches patches).map (·.1.range),
    firmwareEvidenceInterpretation⟩, ?_, ⟨hpatched.length, ?_, ?_⟩, ?_, ?_, rfl, rfl, rfl⟩
  · rw [buildCandidate, imageSize, u64TryFrom_of_lt hfits]
    simp only [bind, Except.bind, hdigest, if_true, hprotected, hvalid, hbytes]
    rfl
  · exact fun p hp => hpatched.inside p (orderedPatches_perm.mem_iff.mpr hp)
  · exact fun i hi => hpatched.outside i fun p hp => hi p (orderedPatches_perm.mem_iff.mp hp)
  · have hperm : ((orderedPatches patches).map Prod.fst).Perm patches := orderedPatches_perm
    have hranges := hperm.map (·.range)
    rwa [List.map_map] at hranges
  · exact List.pairwise_map.mpr hbefore

theorem buildCandidate_accepted
    (h : buildCandidate original expected patches protectedRanges = .ok candidate) :
    Accepted original expected patches protectedRanges := by
  obtain ⟨size, hsize, h⟩ := except_bind_ok.mp h
  dsimp only at h
  split_ifs at h with hdigest
  obtain ⟨_, hprotected, h⟩ := except_bind_ok.mp h
  obtain ⟨_, hvalid, _⟩ := except_bind_ok.mp h
  exact (accepted_iff (u64TryFrom_eq_iff.mp hsize).symm).mpr ⟨hdigest, hprotected, hvalid⟩

theorem buildCandidate_ok_iff (original : Image) :
    buildCandidate original.bytes expected patches protectedRanges = .ok candidate ↔
      Accepted original.bytes expected patches protectedRanges ∧
        Composed original.bytes expected patches candidate := by
  constructor
  · intro h
    have haccepted := buildCandidate_accepted h
    obtain ⟨candidate', hcandidate, hcomposed⟩ := buildCandidate_composed original.fits haccepted
    cases h.symm.trans hcandidate
    exact ⟨haccepted, hcomposed⟩
  · rintro ⟨haccepted, hcomposed⟩
    obtain ⟨candidate', hcandidate, hcomposed'⟩ := buildCandidate_composed original.fits haccepted
    rw [hcandidate, hcomposed.unique hcomposed' (.refl _)]

end composition

/-- A candidate is built exactly when the checks hold, and it is the original but for the patched
bytes; the order of the patches and of the protected ranges does not matter. -/
theorem buildCandidate_patches [Platform] (original : Image) (expected : Sha256Digest)
    (patches : List ImagePatch) (protectedRanges : List ByteRange) :
    ((∃ candidate, buildCandidate original.bytes expected patches protectedRanges = .ok candidate) ↔
      Accepted original.bytes expected patches protectedRanges) ∧
    ∀ candidate, buildCandidate original.bytes expected patches protectedRanges = .ok candidate →
      candidate.bytes.length = original.bytes.length ∧
      (∀ p ∈ patches, ∀ i ∈ p.range.positions,
        candidate.bytes[i]? = p.replacement[i - p.range.startByte.toNat]?) ∧
      (∀ i, (∀ p ∈ patches, i ∉ p.range.positions) → candidate.bytes[i]? = original.bytes[i]?) ∧
      (∀ r ∈ protectedRanges, ∀ i ∈ r.positions, candidate.bytes[i]? = original.bytes[i]?) ∧
      candidate.evidence.modifiedRanges.Perm (patches.map (·.range)) ∧
      (candidate.evidence.modifiedRanges.Pairwise fun r s => r.startByte < s.startByte) ∧
      ∀ patches' protectedRanges', patches'.Perm patches → protectedRanges'.Perm protectedRanges →
        ∀ other, buildCandidate original.bytes expected patches' protectedRanges' = .ok other ↔
          other = candidate := by
  refine ⟨⟨fun ⟨_, h⟩ => buildCandidate_accepted h, fun h => ?_⟩, fun candidate h => ?_⟩
  · obtain ⟨candidate, hcandidate, _⟩ := buildCandidate_composed original.fits h
    exact ⟨candidate, hcandidate⟩
  obtain ⟨haccepted, hcomposed⟩ := (buildCandidate_ok_iff original).mp h
  refine ⟨hcomposed.bytes.length, hcomposed.bytes.inside, hcomposed.bytes.outside, ?_,
    hcomposed.ranges, ?_, ?_⟩
  · intro r hr i hi
    exact hcomposed.bytes.outside i fun p hp hin =>
      Set.disjoint_left.mp (haccepted.clear p hp r hr) hin hi
  · exact hcomposed.sorted.imp fun {r s} hb =>
      UInt64.lt_iff_toNat_lt.mpr (Nat.lt_of_lt_of_le r.bounds_lt hb)
  · intro patches' protectedRanges' hpatches hprotected other
    rw [buildCandidate_ok_iff]
    constructor
    · rintro ⟨_, hother⟩
      exact (hcomposed.unique hother hpatches).symm
    · rintro rfl
      obtain ⟨other', _, hother⟩ :=
        buildCandidate_composed original.fits (haccepted.perm hpatches hprotected)
      refine ⟨haccepted.perm hpatches hprotected, ?_⟩
      rwa [hcomposed.unique hother hpatches]

/-! ### Comparison and composition -/

section inverse

variable [Platform] {left right : Bytes} {maxRanges : ℕ} {report : ImageComparison}

/-- The patch that writes the bytes that another image has in the range. -/
def patchFrom (right : Bytes) (range : ByteRange) : ImagePatch :=
  ⟨range, (right.drop range.startByte.toNat).take range.byteLen.toNat⟩

theorem compareImages_runs_of_ok (h : compareImages left right maxRanges = .ok report) :
    left.length = right.length ∧ left.length < 2 ^ 64 ∧
      ∃ runs, ListsRuns (Differs left right) runs ∧ Reports left right maxRanges runs report := by
  have hok := h
  unfold compareImages at hok
  split_ifs at hok with hmax
  obtain ⟨leftSize, hleft, hok⟩ := except_bind_ok.mp hok
  obtain ⟨rightSize, hright, hok⟩ := except_bind_ok.mp hok
  split_ifs at hok with hsize
  have hleft := u64TryFrom_eq_iff.mp hleft
  have hright := u64TryFrom_eq_iff.mp hright
  have hlength : left.length = right.length := by rw [hleft, hright, hsize]
  have hfits : left.length < 2 ^ 64 := hleft ▸ leftSize.toNat_lt
  obtain ⟨report', runs, hreport, hruns, hreports⟩ := compareImages_reports hlength hmax hfits
  cases h.symm.trans hreport
  exact ⟨hlength, hfits, runs, hruns, hreports⟩

/-- A reported range lies inside a maximal run, and so do its positions. -/
theorem differs_of_reported (h : compareImages left right maxRanges = .ok report) {range : ByteRange}
    (hrange : range ∈ report.changedRanges) :
    MaximalRun (Differs left right) range.bounds := by
  obtain ⟨_, _, runs, hruns, hreports⟩ := compareImages_runs_of_ok h
  have hmem : range.bounds ∈ report.changedRanges.map ByteRange.bounds :=
    List.mem_map_of_mem hrange
  rw [hreports.ranges] at hmem
  exact (hruns.mem_iff _).mp (List.mem_of_mem_take hmem)

theorem reported_sorted (h : compareImages left right maxRanges = .ok report) :
    report.changedRanges.Pairwise ByteRange.Before := by
  obtain ⟨_, _, runs, hruns, hreports⟩ := compareImages_runs_of_ok h
  have hordered := hruns.ordered.sublist (List.take_sublist maxRanges runs)
  rw [← hreports.ranges, List.pairwise_map] at hordered
  exact hordered.imp fun {r s} hlt => Nat.le_of_lt hlt

omit [Platform] in
theorem patchFrom_inside {range : ByteRange} {i : ℕ} (hi : i ∈ range.positions) :
    (patchFrom right range).replacement[i - range.bounds.1]? = right[i]? := by
  obtain ⟨hstart, hlast⟩ := ByteRange.mem_positions.mp hi
  have hlength := range.byteLen_toNat
  show ((right.drop range.bounds.1).take range.byteLen.toNat)[i - range.bounds.1]? = _
  rw [List.getElem?_take_of_lt (by omega), List.getElem?_drop]
  congr 1
  omega

/-- The patches of a comparison are fit for the image that was compared. -/
theorem patches_accepted (h : compareImages left right maxRanges = .ok report)
    {protectedRanges : List ByteRange}
    (hbounds : ∀ r ∈ protectedRanges, r.endByteExclusive.toNat ≤ left.length)
    (hclear : ∀ range ∈ report.changedRanges, ∀ r ∈ protectedRanges,
      Disjoint range.positions r.positions) :
    Accepted left (sha256Digest left) (report.changedRanges.map (patchFrom right))
      protectedRanges := by
  obtain ⟨hlength, _, _⟩ := compareImages_runs_of_ok h
  have hbound : ∀ range ∈ report.changedRanges, range.bounds.2 ≤ left.length := by
    intro range hrange
    have hrun := differs_of_reported h hrange
    by_contra hnot
    have hnonempty := hrun.nonempty
    exact not_differs_of_length_le hlength (i := range.bounds.2 - 1) (by omega)
      (hrun.inside _ (by omega) (by omega))
  refine ⟨rfl, hbounds, ?_, ?_, ?_, ?_⟩
  · rw [List.forall_mem_map]
    exact hbound
  · rw [List.forall_mem_map]
    intro range hrange
    have hle := hbound range hrange
    have hlt := range.bounds_lt
    have hlen := range.byteLen_toNat
    show ((right.drop range.bounds.1).take range.byteLen.toNat).length = range.byteLen.toNat
    rw [List.length_take, List.length_drop]
    omega
  · rw [List.pairwise_map]
    exact (reported_sorted h).imp fun {r s} hb => hb.disjoint
  · rw [List.forall_mem_map]
    exact hclear

end inverse

/-- Patching an image with the differences that a complete comparison reports gives the other image;
and all that a comparison of an image with its candidate reports lies in the modified ranges. -/
theorem compareImages_inverse [Platform] (left right : Image) :
    (∀ maxRanges report protectedRanges,
      compareImages left.bytes right.bytes maxRanges = .ok report → report.rangesComplete = true →
      (∀ r ∈ protectedRanges, r.endByteExclusive.toNat ≤ left.bytes.length) →
      (∀ range ∈ report.changedRanges, ∀ r ∈ protectedRanges,
        Disjoint range.positions r.positions) →
      ∃ candidate, buildCandidate left.bytes (sha256Digest left.bytes)
          (report.changedRanges.map (patchFrom right.bytes)) protectedRanges = .ok candidate ∧
        candidate.bytes = right.bytes ∧
        candidate.evidence.modifiedRanges = report.changedRanges) ∧
    ∀ expected patches protectedRanges candidate maxRanges report,
      buildCandidate left.bytes expected patches protectedRanges = .ok candidate →
      compareImages left.bytes candidate.bytes maxRanges = .ok report →
      ∀ range ∈ report.changedRanges,
        range.positions ⊆ ⋃ modified ∈ candidate.evidence.modifiedRanges, modified.positions := by
  constructor
  · intro maxRanges report protectedRanges hreport hcomplete hbounds hclear
    obtain ⟨hlength, _, runs, hruns, hreports⟩ := compareImages_runs_of_ok hreport
    obtain ⟨candidate, hcandidate, hcomposed⟩ :=
      buildCandidate_composed left.fits (patches_accepted hreport hbounds hclear)
    refine ⟨candidate, hcandidate, List.ext_getElem? fun i => ?_, ?_⟩
    · by_cases hi : ∃ range ∈ report.changedRanges, i ∈ range.positions
      · obtain ⟨range, hrange, hi⟩ := hi
        rw [hcomposed.bytes.inside _ (List.mem_map_of_mem hrange) i hi]
        exact patchFrom_inside hi
      · have hsame : ¬ Differs left.bytes right.bytes i := by
          intro hdiffers
          obtain ⟨run, hrun, h₁, h₂⟩ :=
            (hruns.covers fun j hj => not_differs_of_length_le hlength hj).mp hdiffers
          rw [← List.take_of_length_le (hreports.complete.mp hcomplete), ← hreports.ranges] at hrun
          obtain ⟨range, hrange, rfl⟩ := List.mem_map.mp hrun
          exact hi ⟨range, hrange, ByteRange.mem_positions.mpr ⟨h₁, h₂⟩⟩
        rw [hcomposed.bytes.outside i, not_not.mp hsame]
        rw [List.forall_mem_map]
        exact fun range hrange hin => hi ⟨range, hrange, hin⟩
    · refine sorted_unique hcomposed.sorted (reported_sorted hreport) ?_
      have hperm := hcomposed.ranges
      rwa [List.map_map, show (ImagePatch.range ∘ patchFrom right.bytes) = id from rfl,
        List.map_id] at hperm
  · intro expected patches protectedRanges candidate maxRanges report hcandidate hreport range hrange
      i hi
    obtain ⟨_, hcomposed⟩ := (buildCandidate_ok_iff left).mp hcandidate
    have hrun := differs_of_reported hreport hrange
    obtain ⟨h₁, h₂⟩ := ByteRange.mem_positions.mp hi
    have hpatched : ∃ p ∈ patches, i ∈ p.range.positions := by
      by_contra hnot
      refine hrun.inside i h₁ h₂ (hcomposed.bytes.outside i fun p hp hin => hnot ⟨p, hp, hin⟩).symm
    obtain ⟨p, hp, hin⟩ := hpatched
    have hmem : p.range ∈ candidate.evidence.modifiedRanges :=
      hcomposed.ranges.mem_iff.mpr (List.mem_map_of_mem hp)
    exact Set.mem_iUnion₂.mpr ⟨p.range, hmem, hin⟩

/-! On the bench. -/

section bench

open Bench

theorem buildCandidate_patches_bench :
    let original : Image := ⟨[0, 1, 2, 3], by decide⟩
    let patches : List ImagePatch := [⟨⟨2, 4, by decide⟩, [8, 8]⟩, ⟨⟨0, 1, by decide⟩, [9]⟩]
    ∀ other, buildCandidate original.bytes (sha256Digest original.bytes) patches.reverse
        [⟨1, 2, by decide⟩] = .ok other →
      buildCandidate original.bytes (sha256Digest original.bytes) patches [⟨1, 2, by decide⟩] =
        .ok other := by
  intro original patches other hother
  exact (((buildCandidate_patches original _ _ _).2 other hother).2.2.2.2.2.2 patches _
    (List.reverse_perm patches).symm (.refl _) other).mpr rfl

theorem compareImages_inverse_bench :
    let left : Image := ⟨[0, 1, 2, 3], by decide⟩
    let right : Image := ⟨[9, 1, 8, 8], by decide⟩
    ∃ report candidate, compareImages left.bytes right.bytes 4 = .ok report ∧
      buildCandidate left.bytes (sha256Digest left.bytes)
        (report.changedRanges.map (patchFrom right.bytes)) [] = .ok candidate ∧
      candidate.bytes = [9, 1, 8, 8] := by
  intro left right
  have hok : ((compareImages left.bytes right.bytes 4).toOption.map
      (·.rangesComplete)) = some true := by decide +kernel
  cases hreport : compareImages left.bytes right.bytes 4 with
  | error e =>
      rw [hreport] at hok
      cases hok
  | ok report =>
      rw [hreport] at hok
      obtain ⟨candidate, hcandidate, hbytes, _⟩ := (compareImages_inverse left right).1 4 report []
        hreport (Option.some.inj hok) (fun r hr => absurd hr List.not_mem_nil)
        fun _ _ r hr => absurd hr List.not_mem_nil
      exact ⟨report, candidate, rfl, hcandidate, hbytes⟩

end bench

end Firmware

end Cheirismos

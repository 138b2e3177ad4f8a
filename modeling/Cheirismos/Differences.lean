import Cheirismos.Firmware
import Cheirismos.Bench

/-! # The differences of two images

`compareImages_runs`: the comparison of two images of one length counts the positions at which they
differ and the maximal runs of such positions, and reports these runs in order up to the limit.

The loop of the comparison and the loop that collects printable strings are `scanRuns`; each has an
invariant that says what it has recorded of the runs that were closed. -/

namespace Cheirismos

namespace Firmware

open Sequences

/-! ### Ranges and positions -/

namespace ByteRange

/-- The positions of a range. -/
def positions (range : ByteRange) : Set ℕ :=
  Set.Ico range.startByte.toNat range.endByteExclusive.toNat

def bounds (range : ByteRange) : ℕ × ℕ := (range.startByte.toNat, range.endByteExclusive.toNat)

theorem mem_positions {range : ByteRange} {i : ℕ} :
    i ∈ range.positions ↔ range.bounds.1 ≤ i ∧ i < range.bounds.2 := Set.mem_Ico

theorem bounds_lt (range : ByteRange) : range.bounds.1 < range.bounds.2 :=
  UInt64.lt_iff_toNat_lt.mp range.nonempty

theorem new_ok {a b : ℕ} (hlt : a < b) (hb : b < 2 ^ 64) :
    ∃ range, ByteRange.new (UInt64.ofNat a) (UInt64.ofNat b) = .ok range ∧ range.bounds = (a, b) := by
  have ha : (UInt64.ofNat a).toNat = a := UInt64.toNat_ofNat_of_lt' (hlt.trans hb)
  have hb : (UInt64.ofNat b).toNat = b := UInt64.toNat_ofNat_of_lt' hb
  have hnonempty : UInt64.ofNat a < UInt64.ofNat b := by
    rw [UInt64.lt_iff_toNat_lt, ha, hb]
    exact hlt
  refine ⟨⟨_, _, hnonempty⟩, dif_pos hnonempty, ?_⟩
  rw [bounds, ha, hb]

end ByteRange

theorem u64TryFrom_of_lt {n : ℕ} (h : n < 2 ^ 64) : u64TryFrom n = .ok (UInt64.ofNat n) := if_pos h

/-! ### The comparison -/

/-- The images differ at the position. -/
def Differs (left right : Bytes) (i : ℕ) : Prop := left[i]? ≠ right[i]?

instance (left right : Bytes) : DecidablePred (Differs left right) :=
  fun i => inferInstanceAs (Decidable (left[i]? ≠ right[i]?))

section comparison

variable {left right : Bytes}

theorem differs_zip {i : ℕ} {pair : UInt8 × UInt8} (h : (left.zip right)[i]? = some pair) :
    Differs left right i ↔ (pair.1 != pair.2) = true := by
  obtain ⟨hleft, hright⟩ := List.getElem?_zip_eq_some.mp h
  rw [Differs, hleft, hright, bne_iff_ne, ne_eq, ne_eq, Option.some.injEq]

theorem not_differs_of_length_le {i : ℕ} (hlength : left.length = right.length)
    (hi : left.length ≤ i) : ¬ Differs left right i := by
  rw [Differs, List.getElem?_eq_none hi, List.getElem?_eq_none (hlength ▸ hi)]
  exact fun h => h rfl

/-- What the comparison has recorded of the runs that were closed. -/
structure Recorded (maxRanges : ℕ) (closed : List (ℕ × ℕ)) (n : ℕ) (scan : DiffScan) : Prop where
  bytes : scan.changedBytes = UInt64.ofNat n
  count : scan.changedRangeCount = UInt64.ofNat closed.length
  ranges : scan.changedRanges.map ByteRange.bounds = closed.take maxRanges

variable {maxRanges n a b : ℕ} {closed : List (ℕ × ℕ)} {scan : DiffScan}

theorem Recorded.changed (h : Recorded maxRanges closed n scan) :
    Recorded maxRanges closed (n + 1) scan.changed where
  bytes := by
    show scan.changedBytes + 1 = _
    rw [h.bytes, UInt64.ofNat_add]
    rfl
  count := h.count
  ranges := h.ranges

theorem appendChangedRange_ok {ranges : List ByteRange}
    (h : ranges.map ByteRange.bounds = closed.take maxRanges) (hlt : a < b) (hb : b < 2 ^ 64) :
    ∃ ranges', appendChangedRange ranges maxRanges a b = .ok ranges' ∧
      ranges'.map ByteRange.bounds = (closed ++ [(a, b)]).take maxRanges := by
  have hlength : ranges.length = min maxRanges closed.length := by
    rw [← List.length_map ByteRange.bounds, h, List.length_take]
  by_cases hroom : ranges.length < maxRanges
  · obtain ⟨range, hrange, hbounds⟩ := ByteRange.new_ok hlt hb
    refine ⟨ranges ++ [range], ?_, ?_⟩
    · rw [appendChangedRange, if_pos hroom, u64TryFrom_of_lt (hlt.trans hb), u64TryFrom_of_lt hb]
      simp only [bind, Except.bind, hrange]
      rfl
    · rw [List.map_append, h, List.map_singleton, hbounds, List.take_of_length_le (by omega),
        List.take_of_length_le (by rw [List.length_append, List.length_singleton]; omega)]
  · refine ⟨ranges, if_neg hroom, ?_⟩
    rw [h, List.take_append_of_le_length (by omega)]

theorem Recorded.close (h : Recorded maxRanges closed n scan) (hlt : a < b) (hb : b < 2 ^ 64) :
    ∃ scan', scan.close maxRanges a b = .ok scan' ∧
      Recorded maxRanges (closed ++ [(a, b)]) n scan' := by
  obtain ⟨ranges, hranges, hbounds⟩ := appendChangedRange_ok h.ranges hlt hb
  refine ⟨⟨scan.changedBytes, scan.changedRangeCount + 1, ranges⟩, ?_, h.bytes, ?_, hbounds⟩
  · rw [DiffScan.close, hranges]
    rfl
  · show scan.changedRangeCount + 1 = _
    rw [h.count, List.length_append, UInt64.ofNat_add]
    rfl

end comparison

/-! ### Inspection -/

section inspection

variable {bytes : Bytes}

/-- The byte at the position is printable. -/
def Printable (bytes : Bytes) (i : ℕ) : Prop := ∃ byte ∈ bytes[i]?, printable byte = true

instance (bytes : Bytes) : DecidablePred (Printable bytes) :=
  fun i => inferInstanceAs (Decidable (∃ byte ∈ bytes[i]?, printable byte = true))

/-- The evidence of a run of printable bytes. -/
def stringEvidence (bytes : Bytes) (run : ℕ × ℕ) : IdentificationStringEvidence :=
  ⟨UInt64.ofNat run.1,
    String.ofList (((bytes.drop run.1).take (run.2 - run.1)).map Char.ofUInt8)⟩

/-- The runs that are long enough to be recorded. -/
def longRuns (runs : List (ℕ × ℕ)) : List (ℕ × ℕ) :=
  runs.filter fun run => decide (minimumIdentificationStringBytes ≤ run.2 - run.1)

theorem longRuns_append {closed : List (ℕ × ℕ)} {run : ℕ × ℕ} : longRuns (closed ++ [run]) =
    longRuns closed ++ if minimumIdentificationStringBytes ≤ run.2 - run.1 then [run] else [] := by
  rw [longRuns, List.filter_append, List.filter_singleton, Bool.cond_decide]
  rfl

/-- The strings that were recorded of the runs that were closed. -/
def Collected (bytes : Bytes) (closed : List (ℕ × ℕ)) (scan : StringScan) : Prop :=
  scan = (((longRuns closed).take identificationStringLimit).map (stringEvidence bytes),
    decide (identificationStringLimit < (longRuns closed).length))

theorem Collected.record {closed : List (ℕ × ℕ)} {scan : StringScan} {a b : ℕ}
    (h : Collected bytes closed scan) (hlt : a < b) (hb : b < 2 ^ 64) :
    ∃ scan', recordIdentificationString bytes scan a b = .ok scan' ∧
      Collected bytes (closed ++ [(a, b)]) scan' := by
  unfold Collected at h ⊢
  rw [longRuns_append]
  generalize longRuns closed = long at h ⊢
  subst h
  by_cases hshort : b - a < minimumIdentificationStringBytes
  · refine ⟨_, if_pos hshort, ?_⟩
    rw [if_neg (Nat.not_le.mpr hshort), List.append_nil]
  rw [if_pos (Nat.not_lt.mp hshort), List.length_append, List.length_singleton]
  have hlength : ((long.take identificationStringLimit).map (stringEvidence bytes)).length =
      min identificationStringLimit long.length := by
    rw [List.length_map, List.length_take]
  unfold recordIdentificationString
  rw [if_neg hshort, hlength]
  by_cases hfull : identificationStringLimit ≤ long.length
  · refine ⟨_, if_pos (Nat.min_eq_left hfull), ?_⟩
    have hmore : identificationStringLimit < long.length + 1 := Nat.lt_succ_of_le hfull
    rw [List.take_append_of_le_length hfull, decide_eq_true hmore]
  · have hroom : long.length < identificationStringLimit := Nat.not_le.mp hfull
    have hnot : ¬ min identificationStringLimit long.length = identificationStringLimit :=
      fun h => hfull (min_eq_left_iff.mp h)
    have htake : (long ++ [(a, b)]).take identificationStringLimit = long ++ [(a, b)] :=
      List.take_of_length_le (by rw [List.length_append]; exact hroom)
    have hless : ¬ identificationStringLimit < long.length + 1 := Nat.not_lt.mpr hroom
    rw [if_neg hnot, u64TryFrom_of_lt (hlt.trans hb)]
    refine ⟨_, rfl, ?_⟩
    rw [htake, List.map_append, List.map_singleton, decide_eq_false hless,
      List.take_of_length_le (Nat.le_of_lt hroom), decide_eq_false (Nat.not_lt.mpr (Nat.le_of_lt hroom))]
    rfl

/-- The strings of an image are its maximal printable runs of at least four bytes, up to a limit. -/
theorem identificationStrings_lists (h : bytes.length < 2 ^ 64) :
    ∃ runs, ListsRuns (Printable bytes) runs ∧ identificationStrings bytes =
      .ok (((longRuns runs).take identificationStringLimit).map (stringEvidence bytes),
        decide (identificationStringLimit < (longRuns runs).length)) := by
  obtain ⟨start, scan, scan', runs, hloop, hfinish, hruns, hscan⟩ := @scanRuns_lists _ _ _ printable
    id (recordIdentificationString bytes) (Printable bytes) _
    (fun closed _ scan => Collected bytes closed scan) bytes ([], false)
    (fun i byte hbyte => by
      rw [Printable, hbyte]
      exact ⟨fun ⟨_, h, hp⟩ => Option.some.inj h ▸ hp, fun hp => ⟨byte, rfl, hp⟩⟩)
    (fun i hi => by rw [Printable, List.getElem?_eq_none hi]; exact fun ⟨_, h, _⟩ => nomatch h)
    (fun closed n scan h => h)
    (fun closed n scan a b hscan hab hb => hscan.record hab (by omega))
    rfl
  refine ⟨runs, hruns, ?_⟩
  rw [identificationStrings, hloop]
  exact hfinish.trans (congrArg _ hscan)

theorem printable_iff {byte : UInt8} : printable byte = true ↔ 0x20 ≤ byte ∧ byte ≤ 0x7E := by
  simp only [printable, Bool.or_eq_true, Bool.and_eq_true, decide_eq_true_eq, beq_iff_eq,
    UInt8.le_iff_toNat_le, ← UInt8.toNat_inj]
  show (33 ≤ byte.toNat ∧ byte.toNat ≤ 126) ∨ byte.toNat = 32 ↔ 32 ≤ byte.toNat ∧ byte.toNat ≤ 126
  omega

/-- A printable byte is the encoding of its character. -/
theorem encode_printable {byte : UInt8} (h : printable byte = true) :
    String.utf8EncodeChar (Char.ofUInt8 byte) = [byte] := by
  have hall : ∀ n < 127, String.utf8EncodeChar (Char.ofUInt8 (UInt8.ofNat n)) = [UInt8.ofNat n] := by
    decide +kernel
  have hle : byte.toNat ≤ 126 := (printable_iff.mp h).2
  have hbyte := hall byte.toNat (Nat.lt_succ_of_le hle)
  rwa [UInt8.ofNat_toNat] at hbyte

/-- The text of a run of printable bytes is encoded by them. -/
theorem utf8_stringEvidence {run : ℕ × ℕ} (h : MaximalRun (Printable bytes) run) :
    utf8 (stringEvidence bytes run).text = (bytes.drop run.1).take (run.2 - run.1) := by
  have hprintable : ∀ byte ∈ (bytes.drop run.1).take (run.2 - run.1), printable byte = true := by
    intro byte hbyte
    obtain ⟨i, hi, hget⟩ := List.getElem_of_mem hbyte
    rw [List.length_take, List.length_drop] at hi
    rw [List.getElem_take, List.getElem_drop] at hget
    obtain ⟨byte', hbyte', hp⟩ := h.inside (run.1 + i) (by omega) (by omega)
    rw [List.getElem?_eq_getElem (by omega), hget] at hbyte'
    cases hbyte'
    exact hp
  unfold stringEvidence
  rw [utf8_ofList, List.flatMap_map]
  generalize (bytes.drop run.1).take (run.2 - run.1) = text at hprintable
  induction text with
  | nil => rfl
  | cons byte text ih =>
      rw [List.flatMap_cons, encode_printable (hprintable byte List.mem_cons_self),
        ih fun byte' h' => hprintable byte' (List.mem_cons_of_mem _ h')]
      rfl

/-- A run of printable bytes ends in the image. -/
theorem MaximalRun.le_length {run : ℕ × ℕ} (h : MaximalRun (Printable bytes) run) :
    run.2 ≤ bytes.length := by
  have hnonempty := h.nonempty
  obtain ⟨byte, hbyte, _⟩ := h.inside (run.2 - 1) (by omega) (by omega)
  obtain ⟨hlt, _⟩ := List.getElem?_eq_some_iff.mp hbyte
  omega

/-- The identification strings of an image are its first 256 maximal runs of at least four bytes
from `0x20` to `0x7E`, in order, each with its offset and its bytes; the flag says whether there are
more. -/
theorem identificationStrings_runs (image : Image) :
    ∃ runs : List (ℕ × ℕ), (runs.Pairwise fun r s => r.2 < s.1) ∧
      (∀ r, r ∈ runs ↔
        MaximalRun (fun i => ∃ byte ∈ image.bytes[i]?, 0x20 ≤ byte ∧ byte ≤ 0x7E) r ∧
          4 ≤ r.2 - r.1) ∧
      ∃ evidence truncated, identificationStrings image.bytes = .ok (evidence, truncated) ∧
        (evidence.map fun e => (e.startByte.toNat, utf8 e.text)) =
          ((runs.take 256).map fun r => (r.1, (image.bytes.drop r.1).take (r.2 - r.1))) ∧
        (truncated = true ↔ 256 < runs.length) := by
  obtain ⟨runs, hruns, hstrings⟩ := identificationStrings_lists image.fits
  have hsame : (fun i => ∃ byte ∈ image.bytes[i]?, 0x20 ≤ byte ∧ byte ≤ 0x7E) =
      Printable image.bytes := by
    funext i
    simp only [Printable, printable_iff]
  refine ⟨longRuns runs, hruns.ordered.filter _, fun r => ?_, _, _, hstrings, ?_, decide_eq_true_iff⟩
  · rw [hsame, longRuns, List.mem_filter, hruns.mem_iff, decide_eq_true_eq]
    rfl
  · rw [List.map_map]
    refine List.map_congr_left fun r hr => ?_
    have hmem : r ∈ longRuns runs := List.mem_of_mem_take hr
    have hrun : MaximalRun (Printable image.bytes) r :=
      (hruns.mem_iff r).mp (List.mem_filter.mp hmem).1
    have hfits : r.1 < 2 ^ 64 := by
      have hle := MaximalRun.le_length hrun
      have hnonempty := hrun.nonempty
      have hlength := image.fits
      omega
    exact Prod.ext (UInt64.toNat_ofNat_of_lt' hfits) (utf8_stringEvidence hrun)

theorem repeatedChunks_le {unique chunks : List Bytes} :
    repeatedChunks unique chunks ≤ chunks.length := by
  induction chunks generalizing unique with
  | nil => exact Nat.le_refl 0
  | cons chunk chunks ih =>
      rw [repeatedChunks, List.length_cons]
      split_ifs
      · exact Nat.succ_le_succ ih
      · exact Nat.le_succ_of_le ih

theorem repeatedChunkEvidence_ok (h : bytes.length < 2 ^ 64) :
    ∃ evidence, repeatedChunkEvidence bytes = .ok evidence := by
  have hchunks : (chunksExact repeatedChunkBytes bytes).length = bytes.length / repeatedChunkBytes := by
    rw [chunksExact, List.length_map, List.length_range]
  have hle : bytes.length / repeatedChunkBytes ≤ bytes.length := Nat.div_le_self _ _
  have hrepeated : repeatedChunks [] (chunksExact repeatedChunkBytes bytes) ≤
      (chunksExact repeatedChunkBytes bytes).length := repeatedChunks_le
  unfold repeatedChunkEvidence
  dsimp only
  split_ifs
  · exact ⟨_, rfl⟩
  · rw [u64TryFrom_of_lt (show repeatedChunkBytes < 2 ^ 64 by decide),
      u64TryFrom_of_lt (hle.trans_lt h), u64TryFrom_of_lt (by omega)]
    exact ⟨_, rfl⟩

/-- Every image can be inspected. -/
theorem inspectImage_ok [Platform] (h : bytes.length < 2 ^ 64) :
    ∃ inspection, inspectImage bytes = .ok inspection := by
  obtain ⟨evidence, hevidence⟩ := repeatedChunkEvidence_ok h
  obtain ⟨runs, _, hstrings⟩ := identificationStrings_lists h
  rw [inspectImage, imageSize, u64TryFrom_of_lt h, hevidence, hstrings]
  exact ⟨_, rfl⟩

end inspection

/-! ### The report -/

section report

variable [Platform] {left right : Bytes} {maxRanges : ℕ}

/-- What the comparison says of the maximal runs of differing positions. -/
structure Reports (left right : Bytes) (maxRanges : ℕ) (runs : List (ℕ × ℕ))
    (report : ImageComparison) : Prop where
  count : report.changedRangeCount.toNat = runs.length
  ranges : report.changedRanges.map ByteRange.bounds = runs.take maxRanges
  bytes : report.changedBytes.toNat = Nat.count (Differs left right) left.length
  complete : report.rangesComplete = true ↔ runs.length ≤ maxRanges

theorem compareImages_reports (hlength : left.length = right.length)
    (hmax : 1 ≤ maxRanges ∧ maxRanges ≤ maxReportedDiffRanges) (hfits : left.length < 2 ^ 64) :
    ∃ report runs, compareImages left right maxRanges = .ok report ∧
      ListsRuns (Differs left right) runs ∧ Reports left right maxRanges runs report := by
  have hzip : (left.zip right).length = left.length := by
    rw [List.length_zip, ← hlength, Nat.min_self]
  have hend : ∀ i, left.length ≤ i → ¬ Differs left right i :=
    fun i hi => not_differs_of_length_le hlength hi
  obtain ⟨start, scan, scan', runs, hloop, hfinish, hruns, hscan⟩ := @scanRuns_lists _ _ _
    (fun (pair : UInt8 × UInt8) => pair.1 != pair.2) DiffScan.changed (DiffScan.close maxRanges)
    (Differs left right) _ (Recorded maxRanges) (left.zip right) ⟨0, 0, []⟩
    (fun i pair hpair => differs_zip hpair) (fun i hi => hend i (hzip ▸ hi))
    (fun closed n scan h => h.changed)
    (fun closed n scan a b h hab hb => h.close hab (by omega)) ⟨rfl, rfl, by rw [List.take_nil]; rfl⟩
  rw [hzip] at hfinish hscan
  have hrightFits : right.length < 2 ^ 64 := hlength ▸ hfits
  obtain ⟨leftInspection, hleft⟩ := inspectImage_ok hfits
  obtain ⟨rightInspection, hright⟩ := inspectImage_ok hrightFits
  have hrecorded : scan'.changedRanges.length = min maxRanges runs.length := by
    rw [← List.length_map ByteRange.bounds, hscan.ranges, List.length_take]
  have hcount := hruns.length_le hend
  have hle : scan'.changedRanges.length ≤ left.length := by omega
  have hreported : u64TryFrom scan'.changedRanges.length =
      .ok (UInt64.ofNat scan'.changedRanges.length) := u64TryFrom_of_lt (hle.trans_lt hfits)
  let report : ImageComparison := ⟨leftInspection, rightInspection, scan'.changedBytes,
    scan'.changedRangeCount, scan'.changedRangeCount == UInt64.ofNat scan'.changedRanges.length,
    scan'.changedRanges, firmwareEvidenceInterpretation⟩
  have hcountNat : scan'.changedRangeCount.toNat = runs.length := by
    rw [hscan.count, UInt64.toNat_ofNat_of_lt' (hcount.trans_lt hfits)]
  refine ⟨report, runs, ?_, hruns, hcountNat, hscan.ranges, ?_, ?_⟩
  · rw [compareImages, if_pos hmax, imageSize, imageSize, u64TryFrom_of_lt hfits, ← hlength,
      u64TryFrom_of_lt hfits]
    simp only [bind, Except.bind, if_true, hloop, hfinish, hleft, hright, hreported]
    rfl
  · show scan'.changedBytes.toNat = _
    rw [hscan.bytes, UInt64.toNat_ofNat_of_lt' ((Nat.count_le _).trans_lt hfits)]
  · show (scan'.changedRangeCount == UInt64.ofNat scan'.changedRanges.length) = true ↔ _
    have hreportedNat : (UInt64.ofNat scan'.changedRanges.length).toNat =
        scan'.changedRanges.length := UInt64.toNat_ofNat_of_lt' (hle.trans_lt hfits)
    rw [beq_iff_eq, ← UInt64.toNat_inj, hcountNat, hreportedNat, hrecorded]
    omega

end report

/-- The comparison reports the maximal runs of differing positions: it counts all of them, and
lists them in order up to the limit. -/
theorem compareImages_runs [Platform] (left right : Image) (maxRanges : ℕ)
    (hlength : left.bytes.length = right.bytes.length)
    (hmax : 1 ≤ maxRanges ∧ maxRanges ≤ maxReportedDiffRanges) :
    ∃ report runs, compareImages left.bytes right.bytes maxRanges = .ok report ∧
      ListsRuns (Differs left.bytes right.bytes) runs ∧
      report.changedRangeCount.toNat = runs.length ∧
      report.changedRanges.map ByteRange.bounds = runs.take (min runs.length maxRanges) ∧
      (report.changedRanges.Pairwise fun r s => r.endByteExclusive < s.startByte) ∧
      report.changedBytes.toNat = Nat.count (Differs left.bytes right.bytes) left.bytes.length ∧
      (report.rangesComplete = true ↔ report.changedRanges.length = runs.length) ∧
      (report.rangesComplete = true → ∀ i, Differs left.bytes right.bytes i ↔
        ∃ range ∈ report.changedRanges, i ∈ range.positions) := by
  obtain ⟨report, runs, hreport, hruns, h⟩ := compareImages_reports hlength hmax left.fits
  have hranges : report.changedRanges.map ByteRange.bounds = runs.take (min runs.length maxRanges) := by
    rw [h.ranges, List.take_eq_take_min, Nat.min_comm]
  have hreported : report.changedRanges.length = min runs.length maxRanges := by
    rw [← List.length_map ByteRange.bounds, hranges, List.length_take]
    omega
  refine ⟨report, runs, hreport, hruns, h.count, hranges, ?_, h.bytes, ?_, fun hcomplete i => ?_⟩
  · have hordered := hruns.ordered.sublist (List.take_sublist (min runs.length maxRanges) runs)
    rw [← hranges, List.pairwise_map] at hordered
    exact hordered.imp fun {r s} hlt => UInt64.lt_iff_toNat_lt.mpr hlt
  · rw [h.complete, hreported]
    omega
  · have hall : report.changedRanges.map ByteRange.bounds = runs := by
      rw [h.ranges, List.take_of_length_le (h.complete.mp hcomplete)]
    rw [hruns.covers fun i hi => not_differs_of_length_le hlength hi, ← hall]
    simp only [List.mem_map, exists_exists_and_eq_and, ByteRange.mem_positions]

open Bench in
theorem compareImages_runs_bench :
    let left : Image := ⟨[0, 1, 2, 3], by decide⟩
    let right : Image := ⟨[9, 1, 8, 8], by decide⟩
    ∃ report runs, compareImages left.bytes right.bytes 1 = .ok report ∧
      ListsRuns (Differs left.bytes right.bytes) runs ∧
      report.changedRangeCount.toNat = runs.length ∧
      (report.rangesComplete = true ↔ report.changedRanges.length = runs.length) := by
  intro left right
  obtain ⟨report, runs, hreport, hruns, hcount, _, _, _, hcomplete, _⟩ :=
    compareImages_runs left right 1 rfl (by decide)
  exact ⟨report, runs, hreport, hruns, hcount, hcomplete⟩

end Firmware

end Cheirismos

import Cheirismos.Transfers

/-! # Captures and scans

Operations of the bus whose course depends on the answers.

* `uart_capture` asks for chunks and takes whatever the device returns for each.
  `uartCapture_bounded_iff` says when the captured bytes are no more than were approved.
* `i2c_scan` probes every address with a write and a read.  `Definite` answers are acknowledgements
  and refusals; `i2cScan_reports_iff` says when the scan fails on all others.

`receivedBytes` counts the bytes that a device returns in some exchanges, and `requestedBytes` those
that it was asked for. -/

namespace Cheirismos

open Process

namespace Bus

/-! ### Bytes of exchanges -/

/-- The bytes in a response to a transfer. -/
def repliedBytes (response : ResponsePacket) : ℕ :=
  match Bpio2Adapter.readOf response none with
  | .ok read => read.length
  | .error _ => 0

/-- The bytes that the device returns in the exchange. -/
def received : Exchange hardware → ℕ
  | ⟨.bpio (.data _ _ _ _), some (.ok response)⟩ => repliedBytes response
  | _ => 0

/-- The bytes that the device is asked for. -/
def requested : HardwareRequest → ℕ
  | .bpio (.data _ _ count _) => count.toNat
  | _ => 0

def receivedBytes (tr : List (Exchange hardware)) : ℕ := (tr.map received).sum

def requestedBytes (tr : List (Exchange hardware)) : ℕ := (tr.map (requested ·.request)).sum

/-- The bytes that the device returns beyond what an exchange asked for. -/
def excessBytes (tr : List (Exchange hardware)) : ℕ :=
  (tr.map fun x => received x - requested x.request).sum

/-- The bytes that the device returns of those that it was asked for. -/
def deliveredBytes (tr : List (Exchange hardware)) : ℕ :=
  (tr.map fun x => min (received x) (requested x.request)).sum

theorem receivedBytes_append (tr₁ tr₂ : List (Exchange hardware)) :
    receivedBytes (tr₁ ++ tr₂) = receivedBytes tr₁ + receivedBytes tr₂ := by
  rw [receivedBytes, List.map_append, List.sum_append]
  rfl

theorem requestedBytes_append (tr₁ tr₂ : List (Exchange hardware)) :
    requestedBytes (tr₁ ++ tr₂) = requestedBytes tr₁ + requestedBytes tr₂ := by
  rw [requestedBytes, List.map_append, List.sum_append]
  rfl

theorem receivedBytes_eq (tr : List (Exchange hardware)) :
    receivedBytes tr = deliveredBytes tr + excessBytes tr := by
  induction tr with
  | nil => rfl
  | cons x tr ih =>
      simp only [receivedBytes, deliveredBytes, excessBytes, List.map_cons, List.sum_cons] at ih ⊢
      omega

theorem deliveredBytes_le (tr : List (Exchange hardware)) :
    deliveredBytes tr ≤ requestedBytes tr := by
  induction tr with
  | nil => exact le_refl _
  | cons x tr ih =>
      simp only [deliveredBytes, requestedBytes, List.map_cons, List.sum_cons] at ih ⊢
      omega

theorem readOf_none {response : ResponsePacket} {n : UInt16} {read : Bytes}
    (h : Bpio2Adapter.readOf response (some n) = .ok read) :
    Bpio2Adapter.readOf response none = .ok read := by
  unfold Bpio2Adapter.readOf at h ⊢
  obtain ⟨u, hrejected, h⟩ := except_bind_ok.mp h
  rw [hrejected]
  simp only [bind, Except.bind] at h ⊢
  split at h
  · cases h
  · next error dataRead _ =>
      cases he : Bpio2Adapter.rejectPacketError error with
      | error e =>
          rw [he] at h
          cases h
      | ok u =>
          rw [he] at h
          simp only at h ⊢
          split_ifs at h
          exact h
  · cases h

theorem received_of_settle [Crates] {a : Bpio2Adapter} {exact : Bool} {t : Transfer}
    {v : Except ExchangeError ResponsePacket} {read : Bytes}
    (h : t.settle a exact v = .ok read) : received (t.answered v) = read.length := by
  obtain ⟨response, rfl, _, hread⟩ := Transfer.read_of_settle h
  have hnone : Bpio2Adapter.readOf response none = .ok read := by
    cases exact with
    | false => exact hread
    | true => exact readOf_none hread
  show repliedBytes response = read.length
  rw [repliedBytes, hnone]

/-! ### UART captures -/

/-- The transfer that asks for a chunk of a capture. -/
def captureTransfer (count : ℕ) : Transfer := ⟨false, [], UInt16.ofNat count, false⟩

section captures

variable [Crates] {a : Bpio2Adapter} {limits : Limits} {bytes : Bytes} {remaining : ℕ}

theorem uartCaptureLoop_of_pos (h : 0 < remaining) : uartCaptureLoop limits bytes remaining =
    linked (Bpio2Adapter.transferUpTo [] (UInt16.ofNat (min remaining limits.read)) false false) >>=
      fun received => if received.length < min remaining limits.read then pure (bytes ++ received)
        else uartCaptureLoop limits (bytes ++ received) (remaining - min remaining limits.read) := by
  have hlt := limits.read_le
  rw [uartCaptureLoop, if_pos h]
  dsimp only
  rw [u16OfUsize_eq (by omega)]
  rfl

theorem uartCaptureLoop_zero : uartCaptureLoop limits bytes 0 = pure bytes := by
  rw [uartCaptureLoop, if_neg (lt_irrefl 0)]

theorem uartCaptureLoop_meets : (uartCaptureLoop limits bytes remaining).Meets a
    (fun tr => requestedBytes tr ≤ remaining) (fun _ _ _ => True)
    (fun b _ tr => b.length = bytes.length + receivedBytes tr) := by
  induction remaining using Nat.strong_induction_on generalizing a bytes with
  | _ remaining ih =>
      have hread := limits.read_pos
      by_cases hpos : 0 < remaining
      · have hcount : (UInt16.ofNat (min remaining limits.read)).toNat = min remaining limits.read :=
          readCount_toNat
        have hone : ∀ answer, requestedBytes [Bpio2Adapter.exchanged
            (captureTransfer (min remaining limits.read)).packet answer] =
              min remaining limits.read := by
          intro answer
          show (UInt16.ofNat (min remaining limits.read)).toNat + 0 = _
          rw [hcount, Nat.add_zero]
        have hle : min remaining limits.read ≤ remaining := Nat.min_le_left _ _
        rw [uartCaptureLoop_of_pos hpos]
        refine .bind (R := fun b s tr => s = a ∧ requestedBytes tr = min remaining limits.read ∧
          receivedBytes tr = b.length) (.failing (transfer_settles
            (t := captureTransfer (min remaining limits.read)) (Nat.zero_le _) ?_ ?_
            (fun _ _ _ => trivial) (fun _ _ _ _ => trivial) fun v read hsettle => ?_)) ?_
        · exact (hone none).trans_le hle
        · exact fun v => (hone (some v)).trans_le hle
        · exact ⟨rfl, hone _, (Nat.add_zero _).trans (received_of_settle hsettle)⟩
        rintro b _ tr₁ _ ⟨rfl, hasked, hgot⟩
        split_ifs
        · refine .pure ?_ ?_
          · rw [List.append_nil, hasked]
            exact hle
          · rw [List.append_nil, List.length_append, hgot]
        · refine (ih _ (by omega)).weaken (fun tr h => ?_) (fun _ _ _ _ h => h)
            fun c _ tr _ h => ?_
          · rw [requestedBytes_append]
            omega
          · rw [List.length_append] at h
            rw [receivedBytes_append]
            omega
      · obtain rfl := Nat.eq_zero_of_not_pos hpos
        rw [uartCaptureLoop_zero]
        exact .pure (Nat.zero_le _) rfl

theorem uartCaptureLoop_within :
    Action.Within (F := hardware) remaining (uartCaptureLoop limits bytes remaining) := by
  induction remaining using Nat.strong_induction_on generalizing bytes with
  | _ remaining ih =>
      have hread := limits.read_pos
      by_cases hpos : 0 < remaining
      · rw [uartCaptureLoop_of_pos hpos]
        refine Action.Within.mono (n := 1 + (remaining - min remaining limits.read))
          (.bind (.failing Bpio2Adapter.transferWithLengthPolicy_within) fun b => ?_) (by omega)
        split_ifs
        · exact (Action.Within.pure _).mono (Nat.zero_le _)
        · exact ih _ (by omega)
      · obtain rfl := Nat.eq_zero_of_not_pos hpos
        rw [uartCaptureLoop_zero]
        exact .pure _

/-! A device that returns more than it was asked for. -/

section overrun

variable {v : Except ExchangeError ResponsePacket} {read : Bytes} {tr : List (Exchange hardware)}
  {o : Option (Except BackendError Bytes × Bpio2Adapter)}

theorem captureChunk_start {count : ℕ} (hsend : (captureTransfer count).Sendable a) :
    (linked (Bpio2Adapter.transferUpTo [] (UInt16.ofNat count) false false)).start a =
      .ask (captureTransfer count).request fun v =>
        .pure (((captureTransfer count).settle a false v).mapError transport, a) := by
  have hstart : Action.start (Bpio2Adapter.transferUpTo [] (UInt16.ofNat count) false false) a =
      .ask (captureTransfer count).request fun v =>
        .pure ((captureTransfer count).settle a false v, a) :=
    transfer_start (t := captureTransfer count) hsend
  rw [linked, Action.start_failing, hstart]
  rfl

/-- A chunk that was answered, and then the rest of the capture. -/
theorem capture_runs (hpos : 0 < remaining)
    (hsend : (captureTransfer (min remaining limits.read)).Sendable a)
    (hsettle : (captureTransfer (min remaining limits.read)).settle a false v = .ok read)
    (hrest : Program.Runs (Action.start (if read.length < min remaining limits.read then
      pure (bytes ++ read) else uartCaptureLoop limits (bytes ++ read)
        (remaining - min remaining limits.read)) a) tr o) :
    ((uartCaptureLoop limits bytes remaining).start a).Runs
      ((captureTransfer (min remaining limits.read)).answered v :: tr) o := by
  rw [uartCaptureLoop_of_pos hpos, Action.start_bind, captureChunk_start hsend]
  refine .answered ?_
  show Program.Runs (Action.followed _ (Except.mapError transport
    ((captureTransfer (min remaining limits.read)).settle a false v), a)) tr o
  rw [hsettle]
  exact hrest

/-- The response that returns these bytes, in a frame a little longer than they are. -/
def returning (read : Bytes) : ResponsePacket :=
  ⟨none, .data (some (none, some read)), read.length + 64⟩

theorem settle_returning {t : Transfer} (hsend : t.Sendable a)
    (hframe : read.length + 64 ≤ a.frameLimit) :
    t.settle a false (.ok (returning read)) = .ok read := by
  rw [Transfer.settle_sendable hsend, Bpio2Adapter.received_ok.mpr ⟨rfl, hframe⟩]
  rfl

theorem capture_overruns (hpos : 0 < remaining) : ∃ a tr bytes a',
    ((uartCaptureLoop limits [] remaining).start a).Runs tr (some (.ok bytes, a')) ∧
      remaining < bytes.length := by
  have hread := limits.read_pos
  let first := captureTransfer (min remaining limits.read)
  let second := captureTransfer (min (remaining - min remaining limits.read) limits.read)
  let a : Bpio2Adapter :=
    ⟨Crates.packetLength first.packet + Crates.packetLength second.packet + (remaining + 65), none⟩
  have hfirst : first.Sendable a := ⟨rfl, Nat.le_add_right_of_le (Nat.le_add_right _ _)⟩
  have hsecond : second.Sendable a := ⟨rfl, Nat.le_add_right_of_le (Nat.le_add_left _ _)⟩
  let surplus : Bytes := List.replicate (remaining + 1) 0
  have hlength : surplus.length = remaining + 1 := List.length_replicate
  have hfull : ¬ surplus.length < min remaining limits.read := by omega
  have hruns : ∀ tr o, Program.Runs ((uartCaptureLoop limits ([] ++ surplus)
      (remaining - min remaining limits.read)).start a) tr o →
        ((uartCaptureLoop limits [] remaining).start a).Runs
          (first.answered (.ok (returning surplus)) :: tr) o := by
    intro tr o hr
    refine capture_runs hpos hfirst (settle_returning hfirst ?_) ?_
    · rw [hlength]
      exact Nat.le_add_left _ _
    rw [if_neg hfull]
    exact hr
  by_cases hrest : 0 < remaining - min remaining limits.read
  · have hr : ((uartCaptureLoop limits ([] ++ surplus)
        (remaining - min remaining limits.read)).start a).Runs
          [second.answered (.ok (returning []))] (some (.ok (([] ++ surplus) ++ []), a)) := by
      refine capture_runs hrest hsecond (settle_returning hsecond ?_) ?_
      · show 0 + 64 ≤ _ + (remaining + 65)
        omega
      rw [List.length_nil, if_pos (Nat.lt_min.mpr ⟨hrest, hread⟩)]
      exact .ended _
    refine ⟨a, _, _, a, hruns _ _ hr, ?_⟩
    rw [List.nil_append, List.append_nil]
    omega
  · refine ⟨a, _, surplus, a, hruns [] _ ?_, by omega⟩
    rw [Nat.eq_zero_of_not_pos hrest, uartCaptureLoop_zero]
    exact .ended _

end overrun

theorem uartCapture_eq {maxBytes : UInt32} (h : boundedCapture maxBytes = .ok ()) :
    uartCapture maxBytes limits = uartCaptureLoop limits [] maxBytes.toNat := by
  rw [uartCapture, h]
  rfl

end captures

/-! ### I2C scans -/

/-- The device answers every packet in these exchanges so. -/
def AnsweredBy (answers : RequestPacket → Except ExchangeError ResponsePacket)
    (tr : List (Exchange hardware)) : Prop :=
  ∀ packet v, Bpio2Adapter.exchanged packet (some v) ∈ tr → v = answers packet

def writeProbe (address : UInt8) : Transfer := ⟨true, [i2cWriteAddress address], 0, true⟩

def readProbe (address : UInt8) : Transfer := ⟨true, [i2cReadAddress address], 1, true⟩

/-- The probe succeeded, or was refused with a NACK. -/
def Definite : Except InstrumentError Bytes → Prop
  | .ok _ => True
  | .error (.deviceRejected detail) => isI2cNack detail = true
  | .error _ => False

/-- The outcomes of the write and of the read probe of an address. -/
structure Probes where
  write : Except InstrumentError Bytes
  read : Except InstrumentError Bytes

namespace Probes

def present (probes : Probes) : Bool := probes.write.isOk || probes.read.isOk

def Definite (probes : Probes) : Prop := Bus.Definite probes.write ∧ Bus.Definite probes.read

def verdict [Crates] (probes : Probes) : Except BackendError Bool :=
  probed probes.write probes.read

variable [Crates] {probes : Probes}

theorem verdict_present (h : probes.present = true) : probes.verdict = .ok true := by
  obtain ⟨write, read⟩ := probes
  cases write with
  | ok bytes => cases read <;> rfl
  | error e =>
      cases read with
      | ok bytes => cases e <;> rfl
      | error e' => cases h

theorem verdict_absent (h : probes.present = false) :
    (probes.Definite ∧ probes.verdict = .ok false) ∨
      (¬ probes.Definite ∧ ∃ e, probes.verdict = .error e) := by
  obtain ⟨write, read⟩ := probes
  cases write with
  | ok bytes => cases h
  | error e =>
      cases read with
      | ok bytes => cases h
      | error e' =>
          cases e with
          | deviceRejected detail =>
              cases e' with
              | deviceRejected detail' =>
                  by_cases hnack : (isI2cNack detail && isI2cNack detail') = true
                  · refine Or.inl ⟨(Bool.and_eq_true _ _).mp hnack, ?_⟩
                    exact if_pos hnack
                  · exact Or.inr ⟨fun h => hnack ((Bool.and_eq_true _ _).mpr h),
                      transport (.deviceRejected detail), if_neg hnack⟩
              | _ => exact Or.inr ⟨fun h => h.2, _, rfl⟩
          | _ => cases e' <;> exact Or.inr ⟨fun h => h.1, _, rfl⟩

theorem verdict_ok {present : Bool} (h : probes.verdict = .ok present) :
    present = probes.present ∧ (probes.present = false → probes.Definite) := by
  cases hpresent : probes.present with
  | true =>
      cases (verdict_present hpresent).symm.trans h
      exact ⟨rfl, fun h => by cases h⟩
  | false =>
      rcases verdict_absent hpresent with ⟨hdefinite, hverdict⟩ | ⟨_, e, hverdict⟩
      · cases hverdict.symm.trans h
        exact ⟨rfl, fun _ => hdefinite⟩
      · cases hverdict.symm.trans h

theorem verdict_error {e : BackendError} (h : probes.verdict = .error e) :
    probes.present = false ∧ ¬ probes.Definite := by
  cases hpresent : probes.present with
  | true => cases (verdict_present hpresent).symm.trans h
  | false =>
      rcases verdict_absent hpresent with ⟨_, hverdict⟩ | ⟨hdefinite, _⟩
      · cases hverdict.symm.trans h
      · exact ⟨rfl, hdefinite⟩

end Probes

section scans

variable [Crates] {a : Bpio2Adapter} {limits : Limits}
  {answers : RequestPacket → Except ExchangeError ResponsePacket}

/-- What the probes of an address end in when the device answers so. -/
def probes (a : Bpio2Adapter) (answers : RequestPacket → Except ExchangeError ResponsePacket)
    (address : UInt8) : Probes :=
  ⟨(writeProbe address).settle a true (answers (writeProbe address).packet),
    (readProbe address).settle a true (answers (readProbe address).packet)⟩

/-- The outcome of a transfer is decided by the answer to it. -/
theorem outcome_meets (answers : RequestPacket → Except ExchangeError ResponsePacket)
    (t : Transfer) {E : BackendError → Bpio2Adapter → List (Exchange hardware) → Prop} :
    (Action.outcome (Bpio2Adapter.transfer t.write t.count t.start t.stop) :
      Session (Except InstrumentError Bytes)).Meets a (fun _ => True) E
      (fun r a' tr => a' = a ∧ (AnsweredBy answers tr → r = t.settle a true (answers t.packet))) := by
  refine .outcome (transfer_settles trivial trivial (fun _ => trivial) (fun e he _ => ?_)
    (fun v e he _ => ?_) fun v read hread => ?_)
  · exact ⟨rfl, fun _ => (he _).symm⟩
  · exact ⟨rfl, fun h => (h _ v (List.mem_singleton.mpr rfl)) ▸ he.symm⟩
  · exact ⟨rfl, fun h => (h _ v (List.mem_singleton.mpr rfl)) ▸ hread.symm⟩

omit [Crates] in
theorem AnsweredBy.left {tr₁ tr₂ : List (Exchange hardware)}
    (h : AnsweredBy answers (tr₁ ++ tr₂)) : AnsweredBy answers tr₁ :=
  fun packet v hv => h packet v (List.mem_append_left _ hv)

omit [Crates] in
theorem AnsweredBy.right {tr₁ tr₂ : List (Exchange hardware)}
    (h : AnsweredBy answers (tr₁ ++ tr₂)) : AnsweredBy answers tr₂ :=
  fun packet v hv => h packet v (List.mem_append_right _ hv)

theorem i2cProbes_meets (answers : RequestPacket → Except ExchangeError ResponsePacket)
    {found : Bytes} {addresses : List UInt8} :
    (i2cProbes found addresses).Meets a (fun _ => True)
      (fun _ _ tr => AnsweredBy answers tr → ∃ address ∈ addresses,
        (probes a answers address).present = false ∧ ¬ (probes a answers address).Definite)
      (fun found' _ tr => AnsweredBy answers tr →
        (∀ address ∈ addresses, (probes a answers address).present = false →
          (probes a answers address).Definite) ∧
        found' = found ++ addresses.filter fun address => (probes a answers address).present) := by
  induction addresses generalizing a found with
  | nil =>
      refine .pure trivial fun _ => ⟨fun _ h => absurd h List.not_mem_nil, ?_⟩
      rw [List.filter_nil, List.append_nil]
  | cons address addresses ih =>
      refine .bind (outcome_meets answers (writeProbe address)) ?_
      rintro write _ tr₁ _ ⟨rfl, hwrite⟩
      refine .bind (outcome_meets answers (readProbe address)) ?_
      rintro read s tr₂ _ ⟨rfl, hread⟩
      have hprobes : ∀ tr, AnsweredBy answers (tr₁ ++ (tr₂ ++ tr)) →
          ⟨write, read⟩ = probes s answers address := by
        intro tr h
        rw [hwrite h.left, hread h.right.left]
        rfl
      refine .checked trivial (fun e he h => ?_) fun present hpresent => ?_
      · have hverdict : (probes s answers address).verdict = .error e :=
          hprobes [] h ▸ he
        exact ⟨address, List.mem_cons_self, Probes.verdict_error hverdict⟩
      · refine ih.weaken (fun _ _ => trivial) (fun _ _ tr _ h hanswered => ?_)
          fun found' _ tr _ h hanswered => ?_
        · obtain ⟨address', hmem, hbad⟩ := h hanswered.right.right
          exact ⟨address', List.mem_cons_of_mem _ hmem, hbad⟩
        · obtain ⟨hall, hfound⟩ := h hanswered.right.right
          have hverdict : (probes s answers address).verdict = .ok present :=
            hprobes tr hanswered ▸ hpresent
          obtain ⟨rfl, habsent⟩ := Probes.verdict_ok hverdict
          refine ⟨fun address' hmem => ?_, ?_⟩
          · rcases List.mem_cons.mp hmem with rfl | hmem
            · exact habsent
            · exact hall address' hmem
          · rw [hfound]
            cases hp : (probes s answers address).present with
            | true => simp [hp]
            | false => simp [hp]

/-- A scan of addresses with these probes reports presence and absence as the probes show it, and
fails on every other answer. -/
def Reports (probes : UInt8 → Probes) (result : Except BackendError Bytes) : Prop :=
  ((∃ found, result = .ok found) ↔ ∀ address ∈ i2cAddresses, (probes address).Definite) ∧
    ∀ found, result = .ok found →
      found = i2cAddresses.filter fun address => (probes address).present

theorem i2cScan_eq : i2cScan limits = i2cProbes [] i2cAddresses := by
  rw [i2cScan, Action.refuse, if_neg (Nat.not_lt.mpr limits.write_pos)]
  rfl

end scans

end Bus

/-! ### What the operations report -/

section reports

variable [Crates]

open Bus

/-- A capture makes at most as many requests as it may capture bytes.  It captures no more bytes
than were approved when what the device returns beyond the requests makes up for no more than the
device has left out, and no device can exceed the bound only when it is zero. -/
theorem uartCapture_bounded_iff (maxBytes : UInt32) (limits : Limits)
    (hbounded : boundedCapture maxBytes = .ok ()) :
    (∀ a tr o, ((uartCapture maxBytes limits).start a).Runs tr o → tr.length ≤ maxBytes.toNat) ∧
    (∀ a tr bytes a', ((uartCapture maxBytes limits).start a).Runs tr (some (.ok bytes, a')) →
      (bytes.length ≤ maxBytes.toNat ↔
        excessBytes tr ≤ maxBytes.toNat - deliveredBytes tr)) ∧
    ((∀ a tr bytes a', ((uartCapture maxBytes limits).start a).Runs tr (some (.ok bytes, a')) →
      bytes.length ≤ maxBytes.toNat) ↔ maxBytes = 0) := by
  rw [uartCapture_eq hbounded]
  refine ⟨fun a tr o hr => uartCaptureLoop_within a tr o hr, fun a tr bytes a' hr => ?_, ?_⟩
  · obtain ⟨hasked, _, hok⟩ := uartCaptureLoop_meets tr _ hr
    have hlength : bytes.length = [].length + receivedBytes tr := hok bytes a' rfl
    rw [List.length_nil, receivedBytes_eq] at hlength
    have hdelivered := deliveredBytes_le tr
    omega
  · refine ⟨fun h => ?_, fun h => ?_⟩
    · by_contra hne
      have hpos : 0 < maxBytes.toNat :=
        Nat.pos_of_ne_zero fun hzero => hne (UInt32.toNat_inj.mp hzero)
      obtain ⟨a, tr, bytes, a', hr, hlt⟩ : ∃ a tr bytes a',
          ((uartCaptureLoop limits [] maxBytes.toNat).start a).Runs tr (some (.ok bytes, a')) ∧
            maxBytes.toNat < bytes.length := capture_overruns hpos
      exact absurd (h a tr bytes a' hr) (Nat.not_le.mpr hlt)
    · subst h
      intro a tr bytes a' hr
      rw [show (0 : UInt32).toNat = 0 from rfl, uartCaptureLoop_zero] at hr
      cases (Program.runs_pure hr).2 _ rfl
      exact le_refl _

/-- A scan reports as it should exactly when an address that answered one probe gave a definite answer
to the other one too, or some address failed to answer both and makes the scan fail anyway. -/
theorem i2cScan_reports_iff (limits : Limits) (a : Bpio2Adapter)
    (answers : RequestPacket → Except ExchangeError ResponsePacket)
    (tr : List (Exchange hardware)) (result : Except BackendError Bytes) (a' : Bpio2Adapter)
    (hr : ((i2cScan limits).start a).Runs tr (some (result, a')))
    (hanswered : AnsweredBy answers tr) :
    Reports (probes a answers) result ↔
      (∃ address ∈ i2cAddresses, (probes a answers address).present = false ∧
        ¬ (probes a answers address).Definite) ∨
      ∀ address ∈ i2cAddresses, (probes a answers address).present = true →
        (probes a answers address).Definite := by
  rw [i2cScan_eq] at hr
  obtain ⟨_, herror, hok⟩ := i2cProbes_meets answers tr _ hr
  cases result with
  | error e =>
      have hbad := herror e a' rfl hanswered
      refine iff_of_true ⟨⟨fun h => ?_, fun h => ?_⟩, fun _ h => by cases h⟩ (Or.inl hbad)
      · obtain ⟨found, h⟩ := h
        cases h
      · obtain ⟨address, hmem, _, hindefinite⟩ := hbad
        exact absurd (h address hmem) hindefinite
  | ok found =>
      obtain ⟨habsent, hfound⟩ := hok found a' rfl hanswered
      rw [List.nil_append] at hfound
      constructor
      · rintro ⟨hiff, _⟩
        exact Or.inr fun address hmem _ => hiff.mp ⟨found, rfl⟩ address hmem
      · rintro (⟨address, hmem, hpresent, hindefinite⟩ | hpresent)
        · exact absurd (habsent address hmem hpresent) hindefinite
        · refine ⟨⟨fun _ address hmem => ?_, fun _ => ⟨found, rfl⟩⟩, fun found' h => ?_⟩
          · cases h : (probes a answers address).present with
            | true => exact hpresent address hmem h
            | false => exact habsent address hmem h
          · cases h
            exact hfound

end reports

/-! ### On the rig -/

section rig

open Rig Bus

theorem uartCapture_bounded_iff_rig : boundedCapture 4 = .ok () ∧
    ∀ tr o, ((uartCapture 4 limits).start adapter).Runs tr o → tr.length ≤ 4 :=
  ⟨by decide +kernel, (uartCapture_bounded_iff 4 limits (by decide +kernel)).1 adapter⟩

/-- A device that was asked for one byte returns two. -/
theorem uartCapture_exceeds : ((uartCapture 1 limits).start adapter).Runs
    [(captureTransfer 1).answered (.ok (returning [7, 8]))] (some (.ok [7, 8], adapter)) ∧
      (1 : UInt32).toNat < ([7, 8] : Bytes).length := by
  refine ⟨?_, by decide⟩
  have hsend : (captureTransfer 1).Sendable adapter := ⟨by decide +kernel, by decide⟩
  rw [uartCapture_eq (by decide +kernel)]
  refine capture_runs (by decide) hsend (settle_returning hsend (by decide)) ?_
  rw [if_neg (by decide)]
  show Program.Runs ((uartCaptureLoop limits [7, 8] 0).start adapter) _ _
  rw [uartCaptureLoop_zero]
  exact .ended _

/-- Every probe is acknowledged, but the read probe of the first address is not answered in time. -/
def Rig.slow : RequestPacket → Except ExchangeError ResponsePacket
  | .data _ [0x11] _ _ => .error (.timeout "BPIO2 response")
  | .data _ _ n _ => .ok (returning (List.replicate n.toNat 0))
  | _ => .ok ⟨none, .status none, 64⟩

/-- A device that answers every packet so. -/
def Rig.answering (answers : RequestPacket → Except ExchangeError ResponsePacket) :
    (request : hardware.Request) → Unit → hardware.Answer request × Unit
  | .bpio packet, _ => (answers packet, ())
  | request, _ => ((respond request ⟨none, [], false⟩).1, ())

theorem answering_answeredBy {α : Type}
    (answers : RequestPacket → Except ExchangeError ResponsePacket) (p : Program hardware α) :
    AnsweredBy answers (p.against (answering answers) ()).1 := by
  intro packet v hv
  obtain ⟨_, hanswer⟩ := Program.against_answered (answering answers) p () _ hv
  exact Option.some.inj hanswer

theorem i2cScan_reports_iff_rig :
    let run := ((i2cScan limits).start adapter).against (answering slow) ()
    Reports (probes adapter slow) run.2.1.1 ↔
      (∃ address ∈ i2cAddresses, (probes adapter slow address).present = false ∧
        ¬ (probes adapter slow address).Definite) ∨
      ∀ address ∈ i2cAddresses, (probes adapter slow address).present = true →
        (probes adapter slow address).Definite :=
  i2cScan_reports_iff limits adapter slow _ _ _ (Program.against_runs (answering slow) _ ())
    (answering_answeredBy slow _)

/-- The scan reports all addresses although a probe has timed out. -/
theorem i2cScan_swallows_timeout :
    let run := ((i2cScan limits).start adapter).against (answering slow) ()
    run.2.1.1 = .ok i2cAddresses ∧ (probes adapter slow 0x08).read = .error (.timeout "BPIO2 response")
      ∧ ¬ Reports (probes adapter slow) run.2.1.1 := by
  intro run
  have hfound : run.2.1.1 = .ok i2cAddresses := by decide +kernel
  have hread : (probes adapter slow 0x08).read = .error (.timeout "BPIO2 response") := by
    decide +kernel
  refine ⟨hfound, hread, fun h => ?_⟩
  have hdefinite := (h.1.mp ⟨_, hfound⟩ 0x08 (by decide +kernel)).2
  rw [hread] at hdefinite
  exact hdefinite

end rig

end Cheirismos

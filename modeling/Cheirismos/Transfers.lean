import Cheirismos.Nor
import Cheirismos.Rig

/-! # Scripts of transfers

Operations of the bus that send a fixed list of transfers, whatever is answered.

* `Transfer.settle` is what one transfer ends in, given what the device answers.
* `Scripted a ts x Q` says that every run of `x` sends the transfers `ts` in order as far as it
  gets, fails only with the error of a transfer that is `Stopped`, and otherwise returns something
  that `Q` relates to the replies.  `Scripted.bind` is its rule.
* `Disturbed` says why: a transfer cannot be sent, or is not answered with as many bytes as it asks
  for in a frame within the limit.
* `spiTransfers` is the script of `spi_transfer`, and `OneTransaction` says that such a script is one
  chip-select transaction.
* `readTransfers` is the script of `flash_read`, and `Serves` a flash that answers its commands.
  Such a read is `Fit` when its packets and the frames of the answers are within the frame limit. -/

namespace Cheirismos

open Process

namespace Bus

/-! ### Transfers -/

structure Transfer where
  start : Bool
  write : Bytes
  count : UInt16
  stop : Bool
deriving DecidableEq

namespace Transfer

def packet (t : Transfer) : RequestPacket := .data t.start t.write t.count t.stop

def request (t : Transfer) : HardwareRequest := .bpio t.packet

/-- The exchange in which the transfer is answered. -/
abbrev answered (t : Transfer) (v : Except ExchangeError ResponsePacket) : Exchange hardware :=
  Bpio2Adapter.exchanged t.packet (some v)

/-- The device answers with these bytes, as many as were asked for. -/
def Replied (t : Transfer) (v : Except ExchangeError ResponsePacket) (read : Bytes) : Prop :=
  ∃ response, v = .ok response ∧ Bpio2Adapter.readOf response (some t.count) = .ok read

theorem Replied.length {t : Transfer} {v : Except ExchangeError ResponsePacket} {read : Bytes}
    (h : t.Replied v read) : read.length = t.count.toNat := by
  obtain ⟨response, _, h⟩ := h
  exact Bpio2Adapter.readOf_length h

theorem Replied.inj {t : Transfer} {v : Except ExchangeError ResponsePacket} {read read' : Bytes}
    (h : t.Replied v read) (h' : t.Replied v read') : read = read' := by
  obtain ⟨response, rfl, hread⟩ := h
  obtain ⟨response', hv, hread'⟩ := h'
  cases hv
  exact Except.ok.inj (hread.symm.trans hread')

/-- The answer comes in a frame that the adapter takes. -/
def Framed (a : Bpio2Adapter) (v : Except ExchangeError ResponsePacket) : Prop :=
  ∀ response, v = .ok response → response.frameBytes ≤ a.frameLimit

variable [Crates]

/-- The adapter lets the transfer pass. -/
def Sendable (a : Bpio2Adapter) (t : Transfer) : Prop :=
  Bpio2Adapter.withinLimits a.discovery t.write t.count = .ok () ∧
    Crates.packetLength t.packet ≤ a.frameLimit

/-- What the transfer ends in when the device answers so. -/
def settle (a : Bpio2Adapter) (exact : Bool) (t : Transfer)
    (v : Except ExchangeError ResponsePacket) : Except InstrumentError Bytes := do
  Bpio2Adapter.withinLimits a.discovery t.write t.count
  if a.frameLimit < Crates.packetLength t.packet then .error (.frameTooLarge a.frameLimit)
  else do
    let response ← Bpio2Adapter.received a.frameLimit v
    Bpio2Adapter.readOf response (if exact then some t.count else none)

variable {a : Bpio2Adapter} {exact : Bool} {t : Transfer}
  {v : Except ExchangeError ResponsePacket} {read : Bytes}

theorem settle_sendable (h : t.Sendable a) : t.settle a exact v =
    Bpio2Adapter.received a.frameLimit v >>= fun response =>
      Bpio2Adapter.readOf response (if exact then some t.count else none) := by
  obtain ⟨hlimits, hframe⟩ := h
  rw [settle, hlimits]
  exact if_neg (Nat.not_lt.mpr hframe)

/-- A transfer within the limits of the discovery and beyond that of a frame. -/
theorem settle_unsent (hlimits : Bpio2Adapter.withinLimits a.discovery t.write t.count = .ok ())
    (h : ¬ t.Sendable a) : t.settle a exact v = .error (.frameTooLarge a.frameLimit) := by
  rw [settle, hlimits]
  exact if_pos (Nat.lt_of_not_le fun hle => h ⟨hlimits, hle⟩)

theorem settle_refused (h : ¬ t.Sendable a) :
    ∃ e, ∀ v, t.settle a exact v = .error e := by
  cases hlimits : Bpio2Adapter.withinLimits a.discovery t.write t.count with
  | error e => exact ⟨e, fun v => by rw [settle, hlimits]; rfl⟩
  | ok u => exact ⟨_, fun v => settle_unsent hlimits h⟩

theorem sendable_of_settle (h : t.settle a exact v = .ok read) : t.Sendable a := by
  by_contra hsend
  obtain ⟨e, he⟩ : ∃ e, ∀ v, t.settle a exact v = .error e := settle_refused hsend
  cases (he v).symm.trans h

/-- A transfer that succeeds has read its bytes from an answer within the frame limit. -/
theorem read_of_settle (h : t.settle a exact v = .ok read) : ∃ response, v = .ok response ∧
    response.frameBytes ≤ a.frameLimit ∧
    Bpio2Adapter.readOf response (if exact then some t.count else none) = .ok read := by
  rw [settle_sendable (sendable_of_settle h)] at h
  obtain ⟨response, hresponse, hread⟩ := except_bind_ok.mp h
  obtain ⟨rfl, hframe⟩ := Bpio2Adapter.received_ok.mp hresponse
  exact ⟨response, rfl, hframe, hread⟩

theorem replied_of_settle (h : t.settle a true v = .ok read) : t.Replied v read := by
  obtain ⟨response, rfl, _, hread⟩ := read_of_settle h
  exact ⟨response, rfl, hread⟩

theorem framed_of_settle (h : t.settle a exact v = .ok read) : Framed a v := by
  obtain ⟨response, rfl, hframe, _⟩ := read_of_settle h
  rintro _ ⟨⟩
  exact hframe

theorem settle_of_replied (hsend : t.Sendable a) (hframe : Framed a v) (h : t.Replied v read) :
    t.settle a true v = .ok read := by
  obtain ⟨response, rfl, hread⟩ := h
  rw [settle_sendable hsend, Bpio2Adapter.received_ok.mpr ⟨rfl, hframe _ rfl⟩]
  exact hread

/-- The bytes that were asked for, in a frame beyond the limit. -/
theorem settle_of_unframed (hsend : t.Sendable a) (hframe : ¬ Framed a v) :
    t.settle a exact v = .error (.frameTooLarge a.frameLimit) := by
  obtain ⟨response, hframe⟩ := not_forall.mp hframe
  obtain ⟨rfl, hlong⟩ := Classical.not_imp.mp hframe
  rw [settle_sendable hsend, Bpio2Adapter.received, if_pos (Nat.lt_of_not_le hlong)]
  rfl

end Transfer

/-- A transfer that the adapter lets pass. -/
theorem transfer_start [Crates] {a : Bpio2Adapter} {exact : Bool} {t : Transfer}
    (h : t.Sendable a) : Action.start
      (Bpio2Adapter.transferWithLengthPolicy t.write t.count t.start t.stop exact) a =
        .ask t.request fun v => .pure (t.settle a exact v, a) := by
  obtain ⟨hlimits, hframe⟩ := h
  show Action.start (Action.result (Bpio2Adapter.withinLimits a.discovery t.write t.count) >>=
    fun _ => Bpio2Adapter.request t.packet >>= fun response =>
      Action.result (Bpio2Adapter.readOf response (if exact then some t.count else none)) :
        Bpio2Adapter.Link Bytes) a = _
  rw [hlimits]
  show Action.start ((Action.refuse (a.frameLimit < Crates.packetLength t.packet)
    (.frameTooLarge a.frameLimit) >>= fun _ => Action.ask (F := hardware) t.request >>=
      fun answer => Action.result (Bpio2Adapter.received a.frameLimit answer)) >>= fun response =>
        Action.result (Bpio2Adapter.readOf response (if exact then some t.count else none)) :
          Bpio2Adapter.Link Bytes) a = _
  rw [Action.refuse, if_neg (Nat.not_lt.mpr hframe)]
  refine congrArg (Program.ask (F := hardware) t.request) (funext fun v => ?_)
  rw [Transfer.settle_sendable (v := v) ⟨hlimits, hframe⟩]
  show Program.bind (Action.start (Action.result (Bpio2Adapter.received a.frameLimit v) :
    Bpio2Adapter.Link ResponsePacket) a) _ = _
  cases Bpio2Adapter.received a.frameLimit v with
  | error e => rfl
  | ok response => rfl

/-- A transfer is refused by the adapter, or it is one exchange. -/
theorem transfer_settles [Crates] {a : Bpio2Adapter} {exact : Bool} {t : Transfer}
    {I : List (Exchange hardware) → Prop}
    {E : InstrumentError → Bpio2Adapter → List (Exchange hardware) → Prop}
    {Q : Bytes → Bpio2Adapter → List (Exchange hardware) → Prop} (h₀ : I [])
    (h₁ : I [Bpio2Adapter.exchanged t.packet none]) (h₂ : ∀ v, I [t.answered v])
    (hrefused : ∀ e, (∀ v, t.settle a exact v = .error e) → ¬ t.Sendable a → E e a [])
    (herror : ∀ v e, t.settle a exact v = .error e → t.Sendable a → E e a [t.answered v])
    (hok : ∀ v read, t.settle a exact v = .ok read → Q read a [t.answered v]) :
    (Bpio2Adapter.transferWithLengthPolicy t.write t.count t.start t.stop exact).Meets a I E Q := by
  refine .reading (.checked h₀ (fun e he => ?_) fun _ hlimits => ?_)
  · refine hrefused e (fun v => by rw [Transfer.settle, he]; rfl) fun hsend => ?_
    cases hsend.1.symm.trans he
  refine .bind (R := fun response s tr => s = a ∧ t.Sendable a ∧
    ∃ v, Bpio2Adapter.received a.frameLimit v = .ok response ∧ tr = [t.answered v])
    (.reading (.refused h₀ (fun hlong => ?_) fun hframe => ?_)) ?_
  · refine hrefused _ (fun v => ?_) fun hsend => Nat.not_lt.mpr hsend.2 hlong
    rw [Transfer.settle, hlimits]
    exact if_pos hlong
  · have hsend : t.Sendable a := ⟨hlimits, Nat.not_lt.mp hframe⟩
    refine .bind (R := fun v s tr => s = a ∧ tr = [t.answered v])
      (.ask h₀ h₁ fun v => ⟨h₂ v, rfl, rfl⟩) ?_
    rintro v _ _ _ ⟨rfl, rfl⟩
    refine .result (h₂ v) (fun e he => ?_) fun response hresponse => ?_
    · refine herror v e ?_ hsend
      rw [Transfer.settle_sendable hsend, he]
      rfl
    · exact ⟨rfl, hsend, v, hresponse, rfl⟩
  · rintro response _ _ _ ⟨rfl, hsend, v, hresponse, rfl⟩
    refine .result (h₂ _) (fun e he => herror _ e ?_ hsend) fun read hread => hok _ read ?_
    · rw [Transfer.settle_sendable hsend, hresponse]
      exact he
    · rw [Transfer.settle_sendable hsend, hresponse]
      exact hread

/-! ### Scripts -/

/-- The adapter sent the transfers, and received these bytes for them, in order. -/
inductive Conducted [Crates] (a : Bpio2Adapter) :
    List Transfer → List (Exchange hardware) → List Bytes → Prop
  | nil : Conducted a [] [] []
  | cons {t : Transfer} {ts : List Transfer} {v : Except ExchangeError ResponsePacket} {read : Bytes}
      {tr : List (Exchange hardware)} {replies : List Bytes} (sent : t.Sendable a)
      (framed : Transfer.Framed a v) (first : t.Replied v read) (rest : Conducted a ts tr replies) :
      Conducted a (t :: ts) (t.answered v :: tr) (read :: replies)

namespace Conducted

variable [Crates] {a : Bpio2Adapter} {ts ts' : List Transfer} {tr tr' : List (Exchange hardware)}
  {replies replies' : List Bytes}

theorem requests (h : Conducted a ts tr replies) :
    tr.map Exchange.request = ts.map Transfer.request := by
  induction h with
  | nil => rfl
  | cons sent framed first rest ih => exact congrArg (_ :: ·) ih

theorem append (h : Conducted a ts tr replies) (h' : Conducted a ts' tr' replies') :
    Conducted a (ts ++ ts') (tr ++ tr') (replies ++ replies') := by
  induction h with
  | nil => exact h'
  | cons sent framed first rest ih => exact .cons sent framed first ih

/-- The replies have the lengths that were asked for. -/
theorem length (h : Conducted a ts tr replies) :
    replies.flatten.length = (ts.map (·.count.toNat)).sum := by
  induction h with
  | nil => rfl
  | cons sent framed first rest ih =>
      rw [List.flatten_cons, List.length_append, ih, first.length, List.map_cons, List.sum_cons]

theorem sendable (h : Conducted a ts tr replies) : ∀ t ∈ ts, t.Sendable a := by
  induction h with
  | nil => exact fun t ht => absurd ht List.not_mem_nil
  | cons sent framed first rest ih => exact List.forall_mem_cons.mpr ⟨sent, ih⟩

theorem answers_framed (h : Conducted a ts tr replies) {packet : RequestPacket}
    {v : Except ExchangeError ResponsePacket}
    (hv : Bpio2Adapter.exchanged packet (some v) ∈ tr) : Transfer.Framed a v := by
  induction h with
  | nil => exact absurd hv List.not_mem_nil
  | cons sent framed first rest ih =>
      rcases List.mem_cons.mp hv with heq | hv
      · cases heq
        exact framed
      · exact ih hv

end Conducted

section scripts

variable [Crates] {a : Bpio2Adapter} {ts ts' : List Transfer} {tr tr' : List (Exchange hardware)}
  {β γ : Type}

/-- A transfer of the script cannot be sent, or was not answered with as many bytes as it asks for
in a frame within the limit. -/
def Disturbed (a : Bpio2Adapter) (ts : List Transfer) (tr : List (Exchange hardware)) : Prop :=
  (∃ t ∈ ts, ¬ t.Sendable a) ∨
    ∃ t ∈ ts, ∃ v, t.answered v ∈ tr ∧ ∀ read, ¬ (Transfer.Framed a v ∧ t.Replied v read)

/-- A transfer of the script ended in this error, refused by the adapter or after its answer. -/
def Stopped (a : Bpio2Adapter) (ts : List Transfer) (e : BackendError)
    (tr : List (Exchange hardware)) : Prop :=
  ∃ t ∈ ts, ∃ f, e = transport f ∧ ((¬ t.Sendable a ∧ ∀ v, t.settle a true v = .error f) ∨
    t.Sendable a ∧ ∃ v, t.answered v ∈ tr ∧ t.settle a true v = .error f)

theorem Stopped.mono {e : BackendError} (h : Stopped a ts e tr) (hts : ts ⊆ ts') (htr : tr ⊆ tr') :
    Stopped a ts' e tr' := by
  obtain ⟨t, ht, f, rfl, hrefused | ⟨hsend, v, hv, hf⟩⟩ := h
  · exact ⟨t, hts ht, f, rfl, Or.inl hrefused⟩
  · exact ⟨t, hts ht, f, rfl, Or.inr ⟨hsend, v, htr hv, hf⟩⟩

theorem Stopped.disturbed {e : BackendError} (h : Stopped a ts e tr) : Disturbed a ts tr := by
  obtain ⟨t, ht, f, _, ⟨hsend, _⟩ | ⟨hsend, v, hv, hf⟩⟩ := h
  · exact Or.inl ⟨t, ht, hsend⟩
  · refine Or.inr ⟨t, ht, v, hv, fun read ⟨hframe, hreplied⟩ => ?_⟩
    cases (Transfer.settle_of_replied hsend hframe hreplied).symm.trans hf

/-- Every run sends the script as far as it gets, fails only with the error of a transfer, and
otherwise returns what `Q` allows for the replies. -/
def Scripted (a : Bpio2Adapter) (ts : List Transfer) (x : Session β) (Q : List Bytes → β → Prop) :
    Prop :=
  x.Meets a (fun tr => tr.map Exchange.request <+: ts.map Transfer.request)
    (fun e _ tr => Stopped a ts e tr)
    (fun b a' tr => a' = a ∧ ∃ replies, Conducted a ts tr replies ∧ Q replies b)

namespace Scripted

variable {x : Session β} {Q Q' : List Bytes → β → Prop}

theorem mono (h : Scripted a ts x Q') (hQ : ∀ replies b, Q' replies b → Q replies b) :
    Scripted a ts x Q :=
  Action.Meets.weaken h (fun _ h => h) (fun _ _ _ _ h => h)
    fun _ _ _ _ ⟨ha, replies, hc, hq⟩ => ⟨ha, replies, hc, hQ replies _ hq⟩

theorem pure {b : β} (h : Q [] b) : Scripted a [] (Pure.pure b) Q :=
  Action.Meets.pure List.prefix_rfl ⟨rfl, [], .nil, h⟩

/-- One transfer. -/
theorem transfer {t : Transfer} : Scripted a [t]
    (linked (Bpio2Adapter.transfer t.write t.count t.start t.stop))
    (fun replies read => replies = [read] ∧ read.length = t.count.toNat) := by
  refine .failing (transfer_settles List.nil_prefix List.prefix_rfl (fun _ => List.prefix_rfl)
    (fun e he hsend => ?_) (fun v e he hsend => ?_) fun v read hread => ?_)
  · exact ⟨t, List.mem_singleton.mpr rfl, e, rfl, Or.inl ⟨hsend, he⟩⟩
  · exact ⟨t, List.mem_singleton.mpr rfl, e, rfl,
      Or.inr ⟨hsend, v, List.mem_singleton.mpr rfl, he⟩⟩
  · have hreplied := Transfer.replied_of_settle hread
    exact ⟨rfl, [read], .cons (Transfer.sendable_of_settle hread)
      (Transfer.framed_of_settle hread) hreplied .nil, rfl, hreplied.length⟩

/-- One script after the other. -/
theorem bind {f : β → Session γ} {R : List Bytes → γ → Prop} (hx : Scripted a ts x Q)
    (hf : ∀ replies b, Q replies b → Scripted a ts' (f b) fun replies' => R (replies ++ replies')) :
    Scripted a (ts ++ ts') (x >>= f) R := by
  refine Action.Meets.bind (Action.Meets.weaken hx (fun _ h => ?_) (fun _ _ _ _ h => ?_)
    fun _ _ _ _ h => h) ?_
  · rw [List.map_append]
    exact h.trans (List.prefix_append _ _)
  · exact h.mono (List.subset_append_left _ _) (List.Subset.refl _)
  · rintro b _ tr₁ _ ⟨rfl, replies, hconducted, hq⟩
    refine Action.Meets.weaken (hf replies b hq) (fun tr h => ?_) (fun _ _ tr _ h => ?_) ?_
    · rw [List.map_append, List.map_append, hconducted.requests]
      exact (List.prefix_append_right_inj _).mpr h
    · exact h.mono (List.subset_append_right _ _) (List.subset_append_right _ _)
    · rintro c a' tr _ ⟨rfl, replies', hconducted', hr⟩
      exact ⟨rfl, _, hconducted.append hconducted', hr⟩

theorem cons {t : Transfer} {f : Bytes → Session γ} {R : List Bytes → γ → Prop}
    (hf : ∀ read, read.length = t.count.toNat →
      Scripted a ts (f read) fun replies => R (read :: replies)) :
    Scripted a (t :: ts)
      (linked (Bpio2Adapter.transfer t.write t.count t.start t.stop) >>= f) R := by
  show Scripted a ([t] ++ ts) _ R
  refine bind transfer ?_
  rintro _ read ⟨rfl, hlength⟩
  exact hf read hlength

end Scripted

end scripts

/-! ### Chip-select transactions -/

section spi

theorem chunks_flatten {size : ℕ} (hsize : 0 < size) (bytes : Bytes) :
    (chunks size bytes).flatten = bytes := by
  induction bytes using chunks.induct size with
  | case1 bytes h ih =>
      rw [chunks, if_pos h, List.flatten_cons, ih, List.take_append_drop]
  | case2 bytes h =>
      rw [chunks, if_neg h]
      exact (not_not.mp fun hne => h ⟨hne, hsize⟩).symm

theorem chunks_length {size : ℕ} {bytes chunk : Bytes} (h : chunk ∈ chunks size bytes) :
    chunk.length ≤ size := by
  induction bytes using chunks.induct size with
  | case1 bytes hbytes ih =>
      rw [chunks, if_pos hbytes] at h
      rcases List.mem_cons.mp h with rfl | h
      · rw [List.length_take]
        exact Nat.min_le_left _ _
      · exact ih h
  | case2 bytes hbytes =>
      rw [chunks, if_neg hbytes] at h
      exact absurd h List.not_mem_nil

theorem chunks_eq_nil {size : ℕ} (hsize : 0 < size) {bytes : Bytes} :
    chunks size bytes = [] ↔ bytes = [] := by
  refine ⟨fun h => ?_, fun h => ?_⟩
  · have hflatten := chunks_flatten hsize bytes
    rw [h] at hflatten
    exact hflatten.symm
  · rw [chunks, if_neg fun hne => hne.1 h]

/-- The writes of a transaction, which goes on afterwards. -/
def writeTransfers (started : Bool) : List Bytes → List Transfer
  | [] => []
  | chunk :: rest => ⟨!started, chunk, 0, false⟩ :: writeTransfers true rest

/-- The reads that end a transaction. -/
def spiReadTransfers (limits : Limits) (started : Bool) (remaining : ℕ) : List Transfer :=
  if 0 < remaining then
    let count := min remaining limits.read
    ⟨!started, [], UInt16.ofNat count, decide (count = remaining)⟩ ::
      spiReadTransfers limits true (remaining - count)
  else []
termination_by remaining
decreasing_by
  have := limits.read_pos
  omega

/-- The transfers after the writes; without reads, an empty one ends the transaction. -/
def spiTail (limits : Limits) (tx : Bytes) (rx : ℕ) : List Transfer :=
  spiReadTransfers limits (decide (tx ≠ [])) rx ++
    if rx = 0 ∧ tx ≠ [] then [⟨false, [], 0, true⟩] else []

/-- The transfers of `spi_transfer`. -/
def spiTransfers (limits : Limits) (tx : Bytes) (rx : ℕ) : List Transfer :=
  writeTransfers false (chunks limits.write tx) ++ spiTail limits tx rx

variable [Crates] {a : Bpio2Adapter} {limits : Limits}

omit [Crates] in
theorem u16OfUsize_eq {n : ℕ} (h : n < 2 ^ 16) : u16OfUsize n = .ok (UInt16.ofNat n) := if_pos h

/-- A chunk that is read, and then the rest of the script. -/
theorem Scripted.chunk {γ : Type} {ts : List Transfer} {write : Bytes} {n : ℕ} {start stop : Bool}
    {f : Bytes → Session γ} {R : List Bytes → γ → Prop} (hn : n < 2 ^ 16)
    (hf : ∀ read, read.length = n → Scripted a ts (f read) fun replies => R (read :: replies)) :
    Scripted a (⟨start, write, UInt16.ofNat n, stop⟩ :: ts)
      (transferChunk write n start stop >>= f) R := by
  have hchunk : transferChunk write n start stop =
      linked (Bpio2Adapter.transfer write (UInt16.ofNat n) start stop) := by
    rw [transferChunk, u16OfUsize_eq hn]
    rfl
  rw [hchunk]
  refine Scripted.cons (t := ⟨start, write, UInt16.ofNat n, stop⟩) fun read hlength => hf read ?_
  rw [hlength]
  exact UInt16.toNat_ofNat_of_lt' hn

theorem spiWrites_scripted {started : Bool} {rest : List Bytes} :
    Scripted a (writeTransfers started rest) (spiWrites started rest)
      (fun replies b => replies.flatten = [] ∧ b = (started || decide (rest ≠ []))) := by
  induction rest generalizing started with
  | nil => exact .pure ⟨rfl, (Bool.or_false started).symm⟩
  | cons chunk rest ih =>
      refine Scripted.cons (t := ⟨!started, chunk, 0, false⟩) fun read hlength => ih.mono ?_
      rintro replies b ⟨hreplies, rfl⟩
      obtain rfl := List.length_eq_zero_iff.mp hlength
      exact ⟨by rw [List.flatten_cons, hreplies]; rfl, by simp⟩

theorem spiReads_scripted {started : Bool} {received : Bytes} {remaining : ℕ} :
    Scripted a (spiReadTransfers limits started remaining)
      (spiReads limits started received remaining)
      (fun replies b => b = (started || decide (0 < remaining), received ++ replies.flatten)) := by
  induction remaining using Nat.strong_induction_on generalizing started received with
  | _ remaining ih =>
      have hread := limits.read_pos
      have hlt := limits.read_le
      rw [spiReads, spiReadTransfers]
      by_cases h : 0 < remaining
      · rw [if_pos h, if_pos h]
        refine .chunk (by omega) fun read _ => (ih _ (by omega)).mono ?_
        rintro replies b rfl
        simp [h]
      · rw [if_neg h, if_neg h]
        refine .pure ?_
        simp [h]

/-- The transaction returns the replies. -/
theorem spiTransfer_scripted {tx : Bytes} {rxBytes : UInt32}
    (hbounded : boundedCapture rxBytes = .ok ()) :
    Scripted a (spiTransfers limits tx rxBytes.toNat) (spiTransfer tx rxBytes limits)
      (fun replies received => received = replies.flatten) := by
  unfold spiTransfer
  rw [hbounded]
  show Scripted a _ (spiWrites false (chunks limits.write tx) >>= fun started => _) _
  refine .bind spiWrites_scripted ?_
  rintro writes _ ⟨hwrites, rfl⟩
  have hchunks : decide (chunks limits.write tx ≠ []) = decide (tx ≠ []) :=
    decide_eq_decide.mpr (not_congr (chunks_eq_nil limits.write_pos))
  rw [Bool.false_or, hchunks]
  refine .bind spiReads_scripted ?_
  rintro reads _ rfl
  have hzero : rxBytes = 0 ↔ rxBytes.toNat = 0 :=
    ⟨fun h => by rw [h]; rfl, fun h => UInt32.toNat_inj.mp h⟩
  by_cases hstop : rxBytes.toNat = 0 ∧ tx ≠ []
  · have hwhen : (decide (rxBytes = 0) && (decide (tx ≠ []) || decide (0 < rxBytes.toNat))) =
        true := by
      simp [hzero.mpr hstop.1, hstop.2]
    dsimp only
    rw [if_pos hstop, hwhen]
    show Scripted a ([⟨false, [], 0, true⟩] ++ []) _ _
    refine .bind (Q := fun replies _ => replies.flatten = []) ?_ fun replies _ hreplies =>
      .pure (by simp [hwrites, hreplies])
    refine .cons (t := ⟨false, [], 0, true⟩) fun read hlength => .pure ?_
    obtain rfl := List.length_eq_zero_iff.mp hlength
    rfl
  · have hwhen : (decide (rxBytes = 0) && (decide (tx ≠ []) || decide (0 < rxBytes.toNat))) =
        false := by
      by_cases htx : tx = []
      · simp [hzero, htx]
      · have := mt (fun h => And.intro h htx) hstop
        simp [hzero, this]
    dsimp only
    rw [if_neg hstop, hwhen]
    exact .pure (by simp [hwrites])

end spi

/-- The transfers are one chip-select transaction that writes `tx` and then reads `rx` bytes. -/
structure OneTransaction (limits : Limits) (tx : Bytes) (rx : ℕ) (ts : List Transfer) : Prop where
  written : (ts.map (·.write)).flatten = tx
  asked : (ts.map (·.count.toNat)).sum = rx
  ordered : ∃ writes reads, ts = writes ++ reads ∧ (∀ t ∈ writes, t.count = 0) ∧
    ∀ t ∈ reads, t.write = []
  started : ts.map (·.start) = true :: List.replicate (ts.length - 1) false
  stopped : ts.map (·.stop) = List.replicate (ts.length - 1) false ++ [true]
  within : ∀ t ∈ ts, t.write.length ≤ limits.write ∧ t.count.toNat ≤ limits.read ∧
    t.write.length < 2 ^ 16

section transactions

variable {limits : Limits} {tx : Bytes} {rx remaining : ℕ} {started : Bool} {t : Transfer}
  {ts : List Transfer}

theorem mem_writeTransfers {chunks : List Bytes} (h : t ∈ writeTransfers started chunks) :
    t.write ∈ chunks ∧ t.count = 0 ∧ t.stop = false ∧ (started = true → t.start = false) := by
  induction chunks generalizing started with
  | nil => exact absurd h List.not_mem_nil
  | cons chunk chunks ih =>
      rcases List.mem_cons.mp h with rfl | h
      · exact ⟨List.mem_cons_self, rfl, rfl, fun h => by rw [h]; rfl⟩
      · obtain ⟨hwrite, hcount, hstop, hstart⟩ := ih h
        exact ⟨List.mem_cons_of_mem _ hwrite, hcount, hstop, fun _ => hstart rfl⟩

theorem writeTransfers_written {chunks : List Bytes} :
    (writeTransfers started chunks).map (·.write) = chunks := by
  induction chunks generalizing started with
  | nil => rfl
  | cons chunk chunks ih => exact congrArg (chunk :: ·) ih

theorem spiReadTransfers_of_pos (h : 0 < remaining) :
    spiReadTransfers limits started remaining =
      ⟨!started, [], UInt16.ofNat (min remaining limits.read),
        decide (min remaining limits.read = remaining)⟩ ::
        spiReadTransfers limits true (remaining - min remaining limits.read) := by
  rw [spiReadTransfers, if_pos h]

theorem spiReadTransfers_zero : spiReadTransfers limits started 0 = [] := by
  rw [spiReadTransfers, if_neg (lt_irrefl 0)]

theorem readCount_toNat : (UInt16.ofNat (min remaining limits.read)).toNat =
    min remaining limits.read := by
  have := limits.read_le
  exact UInt16.toNat_ofNat_of_lt' (show min remaining limits.read < 2 ^ 16 by omega)

theorem mem_spiReadTransfers (h : t ∈ spiReadTransfers limits started remaining) :
    t.write = [] ∧ t.count.toNat ≤ limits.read ∧ (started = true → t.start = false) := by
  induction remaining using Nat.strong_induction_on generalizing started with
  | _ remaining ih =>
      have hread := limits.read_pos
      by_cases hpos : 0 < remaining
      · rw [spiReadTransfers_of_pos hpos] at h
        rcases List.mem_cons.mp h with rfl | h
        · refine ⟨rfl, ?_, fun h => by rw [h]; rfl⟩
          rw [readCount_toNat]
          exact Nat.min_le_right _ _
        · obtain ⟨hwrite, hcount, hstart⟩ := ih _ (by omega) h
          exact ⟨hwrite, hcount, fun _ => hstart rfl⟩
      · obtain rfl := Nat.eq_zero_of_not_pos hpos
        rw [spiReadTransfers_zero] at h
        exact absurd h List.not_mem_nil

theorem spiReadTransfers_asked :
    ((spiReadTransfers limits started remaining).map (·.count.toNat)).sum = remaining := by
  induction remaining using Nat.strong_induction_on generalizing started with
  | _ remaining ih =>
      have hread := limits.read_pos
      by_cases hpos : 0 < remaining
      · rw [spiReadTransfers_of_pos hpos, List.map_cons, List.sum_cons, ih _ (by omega),
          readCount_toNat]
        omega
      · obtain rfl := Nat.eq_zero_of_not_pos hpos
        rw [spiReadTransfers_zero]
        rfl

/-- The last read stops the transaction. -/
theorem spiReadTransfers_stopped (h : 0 < remaining) : ∃ init last,
    spiReadTransfers limits started remaining = init ++ [last] ∧ last.stop = true ∧
      ∀ t ∈ init, t.stop = false := by
  induction remaining using Nat.strong_induction_on generalizing started with
  | _ remaining ih =>
      have hread := limits.read_pos
      rw [spiReadTransfers_of_pos h]
      by_cases hlast : min remaining limits.read = remaining
      · refine ⟨[], _, congrArg (_ :: ·) ?_, ?_, fun _ h => absurd h List.not_mem_nil⟩
        · rw [hlast, Nat.sub_self, spiReadTransfers_zero]
        · exact decide_eq_true hlast
      · obtain ⟨init, last, heq, hstop, hinit⟩ : ∃ init last,
            spiReadTransfers limits true (remaining - min remaining limits.read) =
              init ++ [last] ∧ last.stop = true ∧ ∀ t ∈ init, t.stop = false :=
          ih _ (by omega) (by omega)
        refine ⟨_ :: init, last, by rw [heq]; rfl, hstop, fun t ht => ?_⟩
        rcases List.mem_cons.mp ht with rfl | ht
        · exact decide_eq_false hlast
        · exact hinit t ht

/-- The first of some transfers starts a transaction. -/
def StartsFirst (ts : List Transfer) : Prop :=
  ∃ t rest, ts = t :: rest ∧ t.start = true ∧ ∀ t ∈ rest, t.start = false

theorem StartsFirst.append (h : StartsFirst ts) {more : List Transfer}
    (hmore : ∀ t ∈ more, t.start = false) : StartsFirst (ts ++ more) := by
  obtain ⟨t, rest, rfl, hstart, hrest⟩ := h
  refine ⟨t, rest ++ more, rfl, hstart, fun t ht => ?_⟩
  rcases List.mem_append.mp ht with ht | ht
  · exact hrest t ht
  · exact hmore t ht

theorem StartsFirst.starts (h : StartsFirst ts) :
    ts.map (·.start) = true :: List.replicate (ts.length - 1) false := by
  obtain ⟨t, rest, rfl, hstart, hrest⟩ := h
  rw [List.map_cons, hstart, List.length_cons, Nat.add_sub_cancel]
  refine congrArg (true :: ·) (List.eq_replicate_iff.mpr ⟨List.length_map _, fun b hb => ?_⟩)
  obtain ⟨t, ht, rfl⟩ := List.mem_map.mp hb
  exact hrest t ht

theorem stops_of_last {init : List Transfer} (hstop : t.stop = true)
    (hinit : ∀ t ∈ init, t.stop = false) : (init ++ [t]).map (·.stop) =
      List.replicate ((init ++ [t]).length - 1) false ++ [true] := by
  rw [List.map_append, List.map_singleton, hstop, List.length_append, List.length_singleton,
    Nat.add_sub_cancel]
  refine congrArg (· ++ [true]) (List.eq_replicate_iff.mpr ⟨List.length_map _, fun b hb => ?_⟩)
  obtain ⟨t, ht, rfl⟩ := List.mem_map.mp hb
  exact hinit t ht

/-- What ends a transaction without reads. -/
theorem mem_trailing (h : t ∈ (if rx = 0 ∧ tx ≠ [] then [⟨false, [], 0, true⟩] else [])) :
    t = ⟨false, [], 0, true⟩ := by
  split_ifs at h
  · exact List.mem_singleton.mp h
  · exact absurd h List.not_mem_nil

theorem spiTransfers_startsFirst (h : ¬ (tx = [] ∧ rx = 0)) :
    StartsFirst (spiTransfers limits tx rx) := by
  unfold spiTransfers spiTail
  have htrailing : ∀ t ∈ (if rx = 0 ∧ tx ≠ [] then [⟨false, [], 0, true⟩] else [] :
      List Transfer), t.start = false := fun t ht => by rw [mem_trailing ht]
  cases htx : tx with
  | nil =>
      have hrx : 0 < rx := Nat.pos_of_ne_zero fun hrx => h ⟨htx, hrx⟩
      rw [chunks, if_neg (fun hne => hne.1 rfl), writeTransfers, List.nil_append]
      refine StartsFirst.append ⟨_, _, spiReadTransfers_of_pos hrx, rfl, fun t ht => ?_⟩
        (htx ▸ htrailing)
      exact (mem_spiReadTransfers ht).2.2 rfl
  | cons byte bytes =>
      rw [← htx]
      have hne : tx ≠ [] := by
        rw [htx]
        exact List.cons_ne_nil _ _
      cases hchunks : chunks limits.write tx with
      | nil => exact absurd ((chunks_eq_nil limits.write_pos).mp hchunks) hne
      | cons chunk rest =>
          refine StartsFirst.append ⟨_, _, rfl, rfl, fun t ht => ?_⟩ fun t ht => ?_
          · exact (mem_writeTransfers ht).2.2.2 rfl
          · rcases List.mem_append.mp ht with ht | ht
            · exact (mem_spiReadTransfers ht).2.2 (decide_eq_true hne)
            · exact htrailing t ht

theorem spiTransfers_stopped (h : ¬ (tx = [] ∧ rx = 0)) :
    (spiTransfers limits tx rx).map (·.stop) =
      List.replicate ((spiTransfers limits tx rx).length - 1) false ++ [true] := by
  have hwrites : ∀ t ∈ writeTransfers false (chunks limits.write tx), t.stop = false :=
    fun t ht => (mem_writeTransfers ht).2.2.1
  unfold spiTransfers spiTail
  rcases Nat.eq_zero_or_pos rx with rfl | hrx
  · have htx : tx ≠ [] := fun htx => h ⟨htx, rfl⟩
    rw [if_pos ⟨rfl, htx⟩, spiReadTransfers_zero, List.nil_append]
    exact stops_of_last rfl hwrites
  · obtain ⟨init, last, heq, hstop, hinit⟩ : ∃ init last,
        spiReadTransfers limits (decide (tx ≠ [])) rx = init ++ [last] ∧ last.stop = true ∧
          ∀ t ∈ init, t.stop = false := spiReadTransfers_stopped hrx
    rw [if_neg fun hzero => hrx.ne' hzero.1, List.append_nil, heq, ← List.append_assoc]
    refine stops_of_last hstop fun t ht => ?_
    rcases List.mem_append.mp ht with ht | ht
    · exact hwrites t ht
    · exact hinit t ht

theorem mem_spiTail (h : t ∈ spiTail limits tx rx) :
    t.write = [] ∧ t.count.toNat ≤ limits.read := by
  rcases List.mem_append.mp h with h | h
  · exact ⟨(mem_spiReadTransfers h).1, (mem_spiReadTransfers h).2.1⟩
  · rw [mem_trailing h]
    exact ⟨rfl, Nat.zero_le _⟩

theorem spiTransfers_written : ((spiTransfers limits tx rx).map (·.write)).flatten = tx := by
  have hreads : ((spiTail limits tx rx).map (·.write)).flatten = [] :=
    List.flatten_eq_nil_iff.mpr fun write hwrite => by
      obtain ⟨t, ht, rfl⟩ := List.mem_map.mp hwrite
      exact (mem_spiTail ht).1
  rw [spiTransfers, List.map_append, List.flatten_append, writeTransfers_written,
    chunks_flatten limits.write_pos, hreads, List.append_nil]

theorem spiTransfers_asked : ((spiTransfers limits tx rx).map (·.count.toNat)).sum = rx := by
  have hwrites : ((writeTransfers false (chunks limits.write tx)).map (·.count.toNat)).sum = 0 :=
    List.sum_eq_zero fun n hn => by
      obtain ⟨t, ht, rfl⟩ := List.mem_map.mp hn
      rw [(mem_writeTransfers ht).2.1]
      rfl
  have htrailing : ((if rx = 0 ∧ tx ≠ [] then [⟨false, [], 0, true⟩] else [] :
      List Transfer).map (·.count.toNat)).sum = 0 := by
    split_ifs <;> rfl
  rw [spiTransfers, List.map_append, List.sum_append, hwrites, spiTail, List.map_append,
    List.sum_append, spiReadTransfers_asked, htrailing, Nat.zero_add, Nat.add_zero]

/-- The script of `spi_transfer` is one transaction. -/
theorem spiTransfers_oneTransaction (h : ¬ (tx = [] ∧ rx = 0)) :
    OneTransaction limits tx rx (spiTransfers limits tx rx) where
  written := spiTransfers_written
  asked := spiTransfers_asked
  ordered := ⟨_, _, rfl, fun _ ht => (mem_writeTransfers ht).2.1, fun _ ht => (mem_spiTail ht).1⟩
  started := (spiTransfers_startsFirst h).starts
  stopped := spiTransfers_stopped h
  within := by
    have hlt := limits.write_le
    intro t ht
    rcases List.mem_append.mp ht with ht | ht
    · obtain ⟨hwrite, hcount, _⟩ := mem_writeTransfers ht
      have hlength := chunks_length hwrite
      rw [hcount]
      exact ⟨hlength, Nat.zero_le _, by omega⟩
    · obtain ⟨hwrite, hcount⟩ := mem_spiTail ht
      rw [hwrite]
      exact ⟨Nat.zero_le _, hcount, by decide⟩

end transactions

/-! ### Reading a flash -/

/-- The opcode that a flash takes for a read. -/
def readOpcode : AddressMode → UInt8
  | .threeByte => 0x03
  | .fourByte => 0x13

/-- The transfer that reads a piece of the flash. -/
def readTransfer (mode : AddressMode) (piece : ℕ × ℕ) : Transfer :=
  ⟨true, readOpcode mode :: address mode (UInt64.ofNat piece.1), UInt16.ofNat piece.2, true⟩

/-- The pieces of a read. -/
def readPieces (limits : Limits) (first remaining : ℕ) : List (ℕ × ℕ) :=
  if 0 < remaining then
    let count := min remaining limits.read
    (first, count) :: readPieces limits (first + count) (remaining - count)
  else []
termination_by remaining
decreasing_by
  have := limits.read_pos
  omega

/-- The transfers of `flash_read`. -/
def readTransfers (mode : AddressMode) (limits : Limits) (first remaining : ℕ) : List Transfer :=
  (readPieces limits first remaining).map (readTransfer mode)

/-- The device answers the reads in these exchanges from its contents. -/
def Serves (mode : AddressMode) (contents : Bytes) (tr : List (Exchange hardware)) : Prop :=
  ∀ t : Transfer, ∀ first : Bytes, t.write = readOpcode mode :: first →
    first.length = Nor.addressLength mode →
    Nor.decode first + t.count.toNat ≤ contents.length → ∀ v, t.answered v ∈ tr →
      t.Replied v (Simulator.window contents (Nor.decode first) t.count.toNat)

/-- The packets of the transfers and the frames of their answers are within the frame limit. -/
def Fit [Crates] (a : Bpio2Adapter) (ts : List Transfer) (tr : List (Exchange hardware)) : Prop :=
  (∀ t ∈ ts, Crates.packetLength t.packet ≤ a.frameLimit) ∧
    ∀ packet v, Bpio2Adapter.exchanged packet (some v) ∈ tr → Transfer.Framed a v

/-- The transfers read a range, piece by piece, within the limits and with addresses that are not
truncated. -/
def ContiguousReads (mode : AddressMode) (limits : Limits) (first length : ℕ)
    (ts : List Transfer) : Prop :=
  ∃ pieces, Paging.Covers first pieces (first + length) ∧ ts = pieces.map (readTransfer mode) ∧
    ∀ piece ∈ pieces, Nor.decode (address mode (UInt64.ofNat piece.1)) = piece.1 ∧
      (UInt16.ofNat piece.2).toNat = piece.2 ∧ piece.2 ≤ limits.read ∧
      (readTransfer mode piece).write.length ≤ limits.write

section reading

variable {mode : AddressMode} {limits : Limits} {first remaining : ℕ} {piece : ℕ × ℕ}

theorem readPieces_of_pos (h : 0 < remaining) : readPieces limits first remaining =
    (first, min remaining limits.read) :: readPieces limits (first + min remaining limits.read)
      (remaining - min remaining limits.read) := by
  rw [readPieces, if_pos h]

theorem readPieces_zero : readPieces limits first 0 = [] := by
  rw [readPieces, if_neg (lt_irrefl 0)]

theorem readPieces_covers :
    Paging.Covers first (readPieces limits first remaining) (first + remaining) := by
  induction remaining using Nat.strong_induction_on generalizing first with
  | _ remaining ih =>
      have hread := limits.read_pos
      by_cases hpos : 0 < remaining
      · have hrest := @ih (remaining - min remaining limits.read) (by omega)
          (first + min remaining limits.read)
        rw [show first + min remaining limits.read + (remaining - min remaining limits.read) =
          first + remaining by omega] at hrest
        rw [readPieces_of_pos hpos]
        exact .cons (Nat.lt_min.mpr ⟨hpos, hread⟩) hrest
      · obtain rfl := Nat.eq_zero_of_not_pos hpos
        rw [readPieces_zero]
        exact .nil _

theorem mem_readPieces (h : piece ∈ readPieces limits first remaining) :
    piece.2 ≤ limits.read := by
  induction remaining using Nat.strong_induction_on generalizing first with
  | _ remaining ih =>
      have hread := limits.read_pos
      by_cases hpos : 0 < remaining
      · rw [readPieces_of_pos hpos] at h
        rcases List.mem_cons.mp h with rfl | h
        · exact Nat.min_le_right _ _
        · exact ih _ (by omega) h
      · obtain rfl := Nat.eq_zero_of_not_pos hpos
        rw [readPieces_zero] at h
        exact absurd h List.not_mem_nil

theorem pieceCount_toNat (h : piece ∈ readPieces limits first remaining) :
    (UInt16.ofNat piece.2).toNat = piece.2 :=
  UInt16.toNat_ofNat_of_lt' (Nat.lt_of_le_of_lt (mem_readPieces h) limits.read_le)

theorem decode_first (hlt : first < mode.reach.toNat) :
    Nor.decode (address mode (UInt64.ofNat first)) = first := by
  have htoNat : (UInt64.ofNat first).toNat = first :=
    UInt64.toNat_ofNat_of_lt' (hlt.trans mode.reach.toNat_lt)
  rw [Nor.decode_address (by rw [htoNat]; exact hlt), htoNat]

theorem readTransfers_contiguous (hwrite : Nor.addressLength mode + 1 ≤ limits.write)
    (hreach : first + remaining ≤ mode.reach.toNat) :
    ContiguousReads mode limits first remaining (readTransfers mode limits first remaining) := by
  refine ⟨readPieces limits first remaining, readPieces_covers, rfl, fun piece hpiece => ?_⟩
  obtain ⟨_, hpos, hlast⟩ := readPieces_covers.within hpiece
  refine ⟨decode_first (by omega), pieceCount_toNat hpiece, mem_readPieces hpiece, ?_⟩
  show (readOpcode mode :: address mode (UInt64.ofNat piece.1)).length ≤ limits.write
  rw [List.length_cons, Nor.address_length]
  exact hwrite

variable [Crates] {a : Bpio2Adapter}

/-- A device that serves its contents answers the script with the range. -/
theorem conducted_window {contents : Bytes} {pieces : List (ℕ × ℕ)} {last : ℕ}
    {tr : List (Exchange hardware)} {replies : List Bytes} (hcovers : Paging.Covers first pieces last)
    (hcounts : ∀ piece ∈ pieces, (UInt16.ofNat piece.2).toNat = piece.2)
    (hlast : last ≤ contents.length) (hreach : contents.length ≤ mode.reach.toNat)
    (hserves : Serves mode contents tr)
    (h : Conducted a (pieces.map (readTransfer mode)) tr replies) :
    replies.flatten = Simulator.window contents first (last - first) := by
  induction hcovers generalizing tr replies with
  | nil first =>
      cases h
      rw [Nat.sub_self, Simulator.window, List.take_zero]
      rfl
  | @cons first n last pieces pos rest ih =>
      have hle := rest.le
      have hcount : (UInt16.ofNat n).toNat = n := hcounts (first, n) List.mem_cons_self
      have hdecode : Nor.decode (address mode (UInt64.ofNat first)) = first :=
        decode_first (by omega)
      rw [List.map_cons] at h
      cases h with
      | @cons _ _ v read tr replies _ _ hreplied hrest =>
          have hwindow := hserves (readTransfer mode (first, n)) _ rfl (Nor.address_length _ _)
            (by rw [hdecode]; show first + (UInt16.ofNat n).toNat ≤ _; omega) v
            List.mem_cons_self
          rw [hdecode] at hwindow
          obtain rfl : read = Simulator.window contents first (UInt16.ofNat n).toNat :=
            hreplied.inj hwindow
          rw [List.flatten_cons, ih (fun p hp => hcounts p (List.mem_cons_of_mem _ hp)) hlast
            (fun t a hw hl hr v hv => hserves t a hw hl hr v (List.mem_cons_of_mem _ hv)) hrest,
            hcount]
          simp only [Simulator.window]
          rw [show last - first = n + (last - (first + n)) by omega, List.take_add, List.drop_drop]

omit [Crates] in
theorem fromDiscovery_le {discovery : Bpio2Discovery}
    (h : Limits.fromDiscovery discovery = .ok limits) :
    limits.write ≤ discovery.maxWriteBytes.toNat ∧ limits.read ≤ discovery.maxReadBytes.toNat := by
  unfold Limits.fromDiscovery at h
  dsimp only at h
  split_ifs at h
  cases h
  exact ⟨Nat.min_le_left _ _, Nat.min_le_left _ _⟩

omit [Crates] in
/-- The reads of a range are within the limits that they were cut to. -/
theorem ContiguousReads.withinLimits {discovery : Bpio2Discovery} {ts : List Transfer}
    (h : ContiguousReads mode limits first remaining ts)
    (hlimits : Limits.fromDiscovery discovery = .ok limits) :
    ∀ t ∈ ts, Bpio2Adapter.withinLimits (some discovery) t.write t.count = .ok () := by
  obtain ⟨pieces, _, rfl, hpieces⟩ := h
  obtain ⟨hmaxWrite, hmaxRead⟩ := fromDiscovery_le hlimits
  intro t ht
  obtain ⟨piece, hpiece, rfl⟩ := List.mem_map.mp ht
  obtain ⟨_, hcount, hread, hwrite⟩ := hpieces piece hpiece
  have hasked : (readTransfer mode piece).count.toNat ≤ discovery.maxReadBytes.toNat := by
    show (UInt16.ofNat piece.2).toNat ≤ _
    omega
  unfold Bpio2Adapter.withinLimits
  dsimp only
  rw [if_neg (by omega), if_neg (by omega)]

theorem Conducted.fit {ts : List Transfer} {tr : List (Exchange hardware)} {replies : List Bytes}
    (h : Conducted a ts tr replies) : Fit a ts tr :=
  ⟨fun t ht => (h.sendable t ht).2, fun _ _ hv => h.answers_framed hv⟩

/-- Reads that the device serves are stopped by the frame limit only. -/
theorem Stopped.frameTooLarge {contents : Bytes} {e : BackendError} {tr : List (Exchange hardware)}
    (h : Stopped a (readTransfers mode limits first remaining) e tr)
    (hlast : first + remaining ≤ contents.length) (hreach : contents.length ≤ mode.reach.toNat)
    (hserves : Serves mode contents tr)
    (hlimits : ∀ t ∈ readTransfers mode limits first remaining,
      Bpio2Adapter.withinLimits a.discovery t.write t.count = .ok ()) :
    e = transport (.frameTooLarge a.frameLimit) ∧
      ¬ Fit a (readTransfers mode limits first remaining) tr := by
  obtain ⟨t, ht, f, rfl, ⟨hunsent, hf⟩ | ⟨hsend, v, hv, hf⟩⟩ := h
  · obtain rfl := Except.error.inj ((hf (.error .malformedCobs)).symm.trans
      (Transfer.settle_unsent (hlimits t ht) hunsent))
    exact ⟨rfl, fun hfit => hunsent ⟨hlimits t ht, hfit.1 t ht⟩⟩
  · have hunframed : ¬ Transfer.Framed a v := by
      intro hframed
      obtain ⟨piece, hpiece, rfl⟩ := List.mem_map.mp ht
      obtain ⟨_, _, hinside⟩ := readPieces_covers.within hpiece
      have hdecode : Nor.decode (address mode (UInt64.ofNat piece.1)) = piece.1 :=
        decode_first (by omega)
      have hreplied := hserves _ _ rfl (Nor.address_length _ _) (by
        show Nor.decode (address mode (UInt64.ofNat piece.1)) + (UInt16.ofNat piece.2).toNat ≤ _
        rw [hdecode, pieceCount_toNat hpiece]
        omega) v hv
      cases (Transfer.settle_of_replied hsend hframed hreplied).symm.trans hf
    rw [Transfer.settle_of_unframed hsend hunframed] at hf
    cases hf
    exact ⟨rfl, fun hfit => hunframed (hfit.2 _ _ hv)⟩

theorem flashReadLoop_scripted {profile : FlashProfile} {bytes : Bytes}
    (h : first + remaining < 2 ^ 64) :
    Scripted a (readTransfers profile.mode limits first remaining)
      (flashReadLoop profile limits (UInt64.ofNat first) bytes remaining)
      (fun replies b => b = bytes ++ replies.flatten) := by
  induction remaining using Nat.strong_induction_on generalizing first bytes with
  | _ remaining ih =>
      have hread := limits.read_pos
      have hlt := limits.read_le
      have hopcode : (opcodes profile.mode).1 = readOpcode profile.mode := by
        cases profile.mode <;> rfl
      rw [flashReadLoop]
      by_cases hpos : 0 < remaining
      · have htoNat : (UInt64.ofNat first).toNat = first :=
          UInt64.toNat_ofNat_of_lt' (show first < 2 ^ 64 by omega)
        have hnext : checkedOffset (UInt64.ofNat first) (min remaining limits.read)
            "flash read offset overflow" =
              .ok (UInt64.ofNat (first + min remaining limits.read)) := by
          rw [checkedOffset_eq (by omega), htoNat]
        rw [if_pos hpos, readTransfers, readPieces_of_pos hpos, hopcode]
        refine .chunk (by omega) fun read _ => ?_
        rw [hnext]
        refine (ih _ (by omega) (by omega)).mono ?_
        rintro replies b rfl
        rw [List.flatten_cons, List.append_assoc]
      · obtain rfl := Nat.eq_zero_of_not_pos hpos
        rw [if_neg hpos, readTransfers, readPieces_zero]
        exact .pure (by rw [List.flatten_nil, List.append_nil])

theorem flashRead_scripted {profile : FlashProfile} {offset : UInt64} {length : UInt32}
    (hbounded : boundedCapture length = .ok ())
    (hrange : profile.geometry.validateRange offset length = .ok ())
    (hwrite : Nor.addressLength profile.mode + 1 ≤ limits.write) :
    Scripted a (readTransfers profile.mode limits offset.toNat length.toNat)
      (flashRead profile offset length limits) (fun replies b => b = replies.flatten) := by
  have hsum := validateRange_ok_iff.mp hrange
  have hcapacity := profile.geometry.capacityBytes.toNat_lt
  have hcarries : ¬ limits.write < (if profile.mode = .threeByte then 3 else 4) + 1 := by
    cases hmode : profile.mode with
    | threeByte =>
        rw [hmode] at hwrite
        exact Nat.not_lt.mpr hwrite
    | fourByte =>
        rw [hmode] at hwrite
        exact Nat.not_lt.mpr hwrite
  unfold flashRead
  rw [hbounded, hrange, Action.refuse, if_neg hcarries]
  have hloop : Scripted a (readTransfers profile.mode limits offset.toNat length.toNat)
      (flashReadLoop profile limits (UInt64.ofNat offset.toNat) [] length.toNat)
      (fun replies b => b = [] ++ replies.flatten) := flashReadLoop_scripted (by omega)
  rw [UInt64.ofNat_toNat] at hloop
  exact hloop

end reading

end Bus

/-! ### What the operations do -/

section operations

variable [Crates]

open Bus

/-- `spi_transfer` is one chip-select transaction, whatever the limits. -/
theorem spiTransfer_transaction (tx : Bytes) (rxBytes : UInt32) (limits : Limits)
    (a : Bpio2Adapter) (hbounded : boundedCapture rxBytes = .ok ())
    (hsome : ¬ (tx = [] ∧ rxBytes = 0)) :
    ∃ ts, OneTransaction limits tx rxBytes.toNat ts ∧
      ∀ tr o, ((spiTransfer tx rxBytes limits).start a).Runs tr o →
        tr.map Exchange.request <+: ts.map Transfer.request ∧
        (∀ e a', o = some (.error e, a') → Disturbed a ts tr) ∧
        ∀ received a', o = some (.ok received, a') → ∃ replies, Conducted a ts tr replies ∧
          received = replies.flatten ∧ received.length = rxBytes.toNat := by
  have hzero : ¬ (tx = [] ∧ rxBytes.toNat = 0) := fun h =>
    hsome ⟨h.1, UInt32.toNat_inj.mp h.2⟩
  have htransaction : OneTransaction limits tx rxBytes.toNat _ :=
    spiTransfers_oneTransaction hzero
  refine ⟨_, htransaction, fun tr o hr => ?_⟩
  obtain ⟨hfirst, herror, hok⟩ := spiTransfer_scripted hbounded tr o hr
  refine ⟨hfirst, fun e a' ho => (herror e a' ho).disturbed, fun received a' ho => ?_⟩
  obtain ⟨_, replies, hconducted, hreceived⟩ := hok received a' ho
  refine ⟨replies, hconducted, hreceived, ?_⟩
  rw [hreceived, hconducted.length]
  exact htransaction.asked

/-- `flash_read` returns the range that it was asked for when its packets and the frames of the
answers fit the adapter, and refuses them otherwise. -/
theorem flashRead_reassembles (geometry : FlashGeometry) (contents : Bytes)
    (hcontents : contents.length = geometry.capacityBytes.toNat) (offset : UInt64)
    (length : UInt32) (hrange : geometry.validateRange offset length = .ok ())
    (hbounded : boundedCapture length = .ok ()) (discovery : Bpio2Discovery) (limits : Limits)
    (hlimits : Limits.fromDiscovery discovery = .ok limits)
    (hwrite : (address geometry.addressMode offset).length + 1 ≤ limits.write)
    (a : Bpio2Adapter) (ha : a.discovery = some discovery) :
    ∃ ts, ContiguousReads geometry.addressMode limits offset.toNat length.toNat ts ∧
      ∀ tr o, ((flashRead (.of geometry) offset length limits).start a).Runs tr o →
        tr.map Exchange.request <+: ts.map Transfer.request ∧
        (Serves geometry.addressMode contents tr → ∀ r a', o = some (r, a') →
          (Fit a ts tr → r = .ok (Simulator.window contents offset.toNat length.toNat)) ∧
          (¬ Fit a ts tr → r = .error (transport (.frameTooLarge a.frameLimit)))) := by
  have hlast := validateRange_ok_iff.mp hrange
  have hreach : geometry.capacityBytes.toNat ≤ geometry.addressMode.reach.toNat :=
    UInt64.le_iff_toNat_le.mp geometry.reached
  rw [← hcontents] at hreach hlast
  rw [Nor.address_length] at hwrite
  have hcontiguous : ContiguousReads geometry.addressMode limits offset.toNat length.toNat _ :=
    readTransfers_contiguous hwrite (hlast.trans hreach)
  refine ⟨_, hcontiguous, fun tr o hr => ?_⟩
  have hscripted : Scripted a _ (flashRead (.of geometry) offset length limits) _ :=
    flashRead_scripted hbounded hrange hwrite
  obtain ⟨hfirst, herror, hok⟩ := hscripted tr o hr
  refine ⟨hfirst, fun hserves r a' ho => ?_⟩
  cases r with
  | error e =>
      obtain ⟨rfl, hunfit⟩ := (herror e a' ho).frameTooLarge hlast hreach hserves
        fun t ht => ha ▸ hcontiguous.withinLimits hlimits t ht
      exact ⟨fun hfit => absurd hfit hunfit, fun _ => rfl⟩
  | ok bytes =>
      obtain ⟨_, replies, hconducted, rfl⟩ := hok bytes a' ho
      have hwindow := conducted_window readPieces_covers (fun piece => pieceCount_toNat) hlast hreach
        hserves hconducted
      refine ⟨fun _ => by rw [hwindow, Nat.add_sub_cancel_left], fun hunfit => ?_⟩
      exact absurd hconducted.fit hunfit

end operations

/-! ### On the rig -/

section rig

open Rig Bus

/-- A flash of the rig that answers reads from these contents, in frames a little longer than the
data. -/
def Rig.serve (contents : Bytes) : (request : hardware.Request) → Unit →
    hardware.Answer request × Unit
  | .bpio (.data _ (_ :: first) n _), _ => (.ok ⟨none, .data (some (none,
      some (Simulator.window contents (Nor.decode first) n.toNat))), n.toNat + 64⟩, ())
  | request, _ => ((respond request ⟨none, [], false⟩).1, ())

theorem serve_serves {α : Type} (mode : AddressMode) (contents : Bytes)
    (p : Program hardware α) : Serves mode contents (p.against (serve contents) ()).1 := by
  rintro ⟨start, _, count, stop⟩ first rfl _ hinside v hv
  obtain ⟨_, hanswer⟩ := Program.against_answered (serve contents) p () _ hv
  have hreply : v = .ok ⟨none, .data (some (none,
      some (Simulator.window contents (Nor.decode first) count.toNat))), count.toNat + 64⟩ :=
    Option.some.inj hanswer
  refine ⟨_, hreply, ?_⟩
  have hlength : (Simulator.window contents (Nor.decode first) count.toNat).length =
      count.toNat := by
    rw [Simulator.window, List.length_take, List.length_drop]
    exact Nat.min_eq_left (Nat.le_sub_of_add_le' hinside)
  simp [Bpio2Adapter.readOf, Bpio2Adapter.rejectPacketError, hlength, bind, Except.bind, pure,
    Except.pure]

theorem flashRead_reassembles_rig :
    let contents : Bytes := List.replicate 8192 7
    let limits : Limits := ⟨8, 256, by decide, by decide, by decide, by decide⟩
    (((flashRead (.of geometry) 4100 300 limits).start adapter).against (serve contents) ()).2.1.1 =
      .ok (Simulator.window contents 4100 300) := by
  obtain ⟨ts, ⟨pieces, _, rfl, hpieces⟩, h⟩ := flashRead_reassembles geometry
    (List.replicate 8192 7)
    List.length_replicate 4100 300 (by decide +kernel) (by decide +kernel) discovery
    ⟨8, 256, by decide, by decide, by decide, by decide⟩ rfl (by decide +kernel) adapter rfl
  obtain ⟨hsent, hread⟩ := h _ _ (Program.against_runs (serve (List.replicate 8192 7)) _ ())
  refine (hread (serve_serves _ _ _) _ _ rfl).1 ⟨fun t _ => show 64 ≤ 1024 by decide, ?_⟩
  rintro packet v hv response rfl
  obtain ⟨t, ht, hpacket⟩ := List.mem_map.mp (hsent.subset (List.mem_map_of_mem hv))
  obtain ⟨piece, hpiece, rfl⟩ := List.mem_map.mp ht
  obtain ⟨_, hcount, hle, _⟩ := hpieces piece hpiece
  obtain ⟨_, hanswer⟩ := Program.against_answered (serve (List.replicate 8192 7)) _ () _ hv
  obtain rfl : (readTransfer geometry.addressMode piece).packet = packet :=
    HardwareRequest.bpio.inj hpacket
  obtain rfl := Except.ok.inj (Option.some.inj hanswer)
  show (UInt16.ofNat piece.2).toNat + 64 ≤ 1024
  rw [hcount]
  exact (Nat.add_le_add_right hle 64).trans (by decide)

/-- The Bus Pirate, when it reports reads as long as its packets. -/
def Rig.longReads : Bpio2Discovery := { discovery with maxReadBytes := 1024 }

/-- The longest read that the device reports comes in a frame beyond the limit. -/
theorem flashRead_refuses_frame :
    let contents : Bytes := List.replicate 8192 7
    let limits : Limits := ⟨8, 1024, by decide, by decide, by decide, by decide⟩
    let run := ((flashRead (.of geometry) 0 1024 limits).start
      ⟨Bpio2Adapter.frameLimitOf longReads, some longReads⟩).against (serve contents) ()
    Limits.fromDiscovery longReads = .ok limits ∧ geometry.validateRange 0 1024 = .ok () ∧
      boundedCapture 1024 = .ok () ∧
      (address geometry.addressMode 0).length + 1 ≤ limits.write ∧
      Serves geometry.addressMode contents run.1 ∧
      run.2.1.1 ≠ .ok (Simulator.window contents 0 1024) := by
  intro contents limits run
  refine ⟨rfl, by decide +kernel, by decide +kernel, by decide +kernel, serve_serves _ _ _,
    fun h => ?_⟩
  have hended : run.2.1.1.isOk = false := by decide +kernel
  rw [h] at hended
  cases hended

theorem spiTransfer_transaction_rig :
    let run := ((spiTransfer candidate 3 limits).start adapter).against respond
      ⟨none, [], false⟩
    ∃ ts, OneTransaction limits candidate 3 ts ∧ ∃ replies, Conducted adapter ts run.1 replies ∧
      replies.flatten.length = 3 := by
  intro run
  obtain ⟨ts, htransaction, h⟩ := spiTransfer_transaction candidate 3 limits adapter
    (by decide +kernel) (by decide +kernel)
  obtain ⟨_, _, hok⟩ := h _ _ (Program.against_runs respond _ ⟨none, [], false⟩)
  have hended : run.2.1.1.isOk = true := by decide +kernel
  cases hr : run.2.1 with
  | mk r a' =>
      cases r with
      | error e =>
          rw [hr] at hended
          cases hended
      | ok received =>
          obtain ⟨replies, hconducted, hreceived, hlength⟩ := hok received a' (congrArg some hr)
          exact ⟨ts, htransaction, replies, hconducted, hreceived ▸ hlength⟩

end rig

end Cheirismos

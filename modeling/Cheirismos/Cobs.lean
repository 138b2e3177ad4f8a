import Cheirismos.Instruments

/-! # COBS framing

`instruments/cobs.rs`: frames of blocks, each a code byte and up to 254 non-zero bytes, ended by a
zero byte.

`Framed p e` describes the format: `e` consists of blocks that spell `p`.  A code below 255 stands
for a zero after its block, unless the block is the last one.

* `encode_framed`: the encoder writes such blocks.
* `decode_framed`: the decoder reads them back, within any limit that the frame fits.
* `cobs_faithful`: framing is a codec, also for several frames in a row.
* `frame_limit_agrees`: the sender bounds a packet before it is framed, and the receiver after, so
  a packet within the limit is received exactly when its frame is within the limit as well
  (`frame_limit_overhead`). -/

namespace Cheirismos

namespace Cobs

def frameDelimiter : UInt8 := 0

/-! ### The codec -/

def appendBlock (frame block : Bytes) : Bytes := frame ++ UInt8.ofNat (block.length + 1) :: block

def encodeLoop (frame block : Bytes) : Bytes → Bytes
  | [] => appendBlock frame block
  | byte :: payload =>
      if byte = frameDelimiter then encodeLoop (appendBlock frame block) [] payload
      else if (block ++ [byte]).length = 254 then
        encodeLoop (appendBlock frame (block ++ [byte])) [] payload
      else encodeLoop frame (block ++ [byte]) payload

def encode (payload : Bytes) : Bytes := encodeLoop [] [] payload ++ [frameDelimiter]

/-- The zero that a block stands for, if it does. -/
def impliedZero (code : ℕ) (remaining : Bytes) : Bytes :=
  if code ≠ 255 ∧ remaining ≠ [] then [frameDelimiter] else []

def decodeLoop (limit : ℕ) (decoded : Bytes) : Bytes → Except InstrumentError Bytes
  | [] => .ok decoded
  | codeByte :: afterCode =>
      let code := codeByte.toNat
      if code = 0 then .error .malformedCobs
      else if afterCode.length < code - 1 then .error .malformedCobs
      else
        let remaining := afterCode.drop (code - 1)
        let decoded := decoded ++ afterCode.take (code - 1) ++ impliedZero code remaining
        if limit < decoded.length then .error (.frameTooLarge limit)
        else decodeLoop limit decoded remaining
termination_by remaining => remaining.length
decreasing_by
  rw [List.length_drop, List.length_cons]
  omega

def decode (frame : Bytes) (limit : ℕ) : Except InstrumentError Bytes :=
  if frame = [] ∨ limit < frame.length then .error (.frameTooLarge limit)
  else decodeLoop limit [] frame

/-- What the one-byte reads of a stream return, up to its end. -/
abbrev ByteStream := List (Except String UInt8)

def readLoop (limit : ℕ) (operation : String) (encoded : Bytes) :
    ByteStream → Except InstrumentError Bytes × ByteStream
  | [] => (.error (.endOfStream operation), [])
  | .error source :: stream => (.error (.io "reading instrument frame" source), stream)
  | .ok byte :: stream =>
      if byte = frameDelimiter then (decode encoded limit, stream)
      else if limit < (encoded ++ [byte]).length then (.error (.frameTooLarge limit), stream)
      else readLoop limit operation (encoded ++ [byte]) stream

/-- The outcome of reading one frame, and the rest of the stream. -/
def readDelimited (stream : ByteStream) (limit : ℕ) (operation : String) :
    Except InstrumentError Bytes × ByteStream := readLoop limit operation [] stream

/-- Read frames one after the other. -/
def readFrames (limit : ℕ) (operation : String) :
    ℕ → ByteStream → List (Except InstrumentError Bytes) × ByteStream
  | 0, stream => ([], stream)
  | n + 1, stream =>
      let first := readDelimited stream limit operation
      let others := readFrames limit operation n first.2
      (first.1 :: others.1, others.2)

/-! ### The format -/

/-- The blocks `e` spell the payload `p`. -/
inductive Framed : Bytes → Bytes → Prop
  | last {block : Bytes} (clean : frameDelimiter ∉ block) (short : block.length < 254) :
      Framed block (UInt8.ofNat (block.length + 1) :: block)
  | zero {block p e : Bytes} (clean : frameDelimiter ∉ block) (short : block.length < 254)
      (rest : Framed p e) :
      Framed (block ++ frameDelimiter :: p) (UInt8.ofNat (block.length + 1) :: (block ++ e))
  | full {block p e : Bytes} (clean : frameDelimiter ∉ block) (long : block.length = 254)
      (rest : Framed p e) : Framed (block ++ p) (255 :: (block ++ e))

/-- The code byte of a block. -/
theorem code_toNat {n : ℕ} (h : n ≤ 254) : (UInt8.ofNat (n + 1)).toNat = n + 1 := by
  rw [UInt8.toNat_ofNat']
  omega

theorem code_ne_zero {n : ℕ} (h : n ≤ 254) : UInt8.ofNat (n + 1) ≠ frameDelimiter := by
  intro he
  have := congrArg UInt8.toNat he
  rw [code_toNat h] at this
  exact absurd this (Nat.succ_ne_zero n)

section format

variable {p e : Bytes}

theorem Framed.ne_nil (h : Framed p e) : e ≠ [] := by
  cases h <;> exact List.cons_ne_nil _ _

/-- Blocks contain no delimiter. -/
theorem Framed.clean (h : Framed p e) : frameDelimiter ∉ e := by
  induction h with
  | last clean short =>
      intro hmem
      rcases List.mem_cons.mp hmem with h0 | hmem
      · exact code_ne_zero (by omega) h0.symm
      · exact clean hmem
  | zero clean short rest ih =>
      intro hmem
      rcases List.mem_cons.mp hmem with h0 | hmem
      · exact code_ne_zero (by omega) h0.symm
      · exact (List.mem_append.mp hmem).elim clean ih
  | full clean long rest ih =>
      intro hmem
      rcases List.mem_cons.mp hmem with h0 | hmem
      · exact absurd h0 (by decide)
      · exact (List.mem_append.mp hmem).elim clean ih

/-- The whole 254-byte blocks in the stretches of non-zero bytes, after a stretch of `run`. -/
def fullBlocks (run : ℕ) : Bytes → ℕ
  | [] => run / 254
  | byte :: payload =>
      if byte = frameDelimiter then run / 254 + fullBlocks 0 payload
      else fullBlocks (run + 1) payload

theorem fullBlocks_add (run : ℕ) (p : Bytes) : fullBlocks (run + 254) p = fullBlocks run p + 1 := by
  induction p generalizing run with
  | nil =>
      unfold fullBlocks
      omega
  | cons byte p ih =>
      unfold fullBlocks
      split_ifs with hb
      · omega
      · rw [← ih (run + 1), Nat.add_right_comm]

/-- A stretch of non-zero bytes is counted at its end. -/
theorem fullBlocks_append {block : Bytes} (clean : frameDelimiter ∉ block) (run : ℕ) (p : Bytes) :
    fullBlocks run (block ++ p) = fullBlocks (run + block.length) p := by
  induction block generalizing run with
  | nil => rfl
  | cons byte block ih =>
      obtain ⟨hb, hrest⟩ := not_or.mp (fun h => clean (List.mem_cons.mpr h))
      rw [List.cons_append, fullBlocks, if_neg (Ne.symm hb), ih hrest, List.length_cons,
        Nat.add_right_comm, Nat.add_assoc]

/-- Framing costs one byte, and one for every whole block. -/
theorem Framed.length_eq (h : Framed p e) : e.length = p.length + 1 + fullBlocks 0 p := by
  induction h with
  | @last block clean short =>
      have hcount := fullBlocks_append clean 0 []
      rw [List.append_nil] at hcount
      rw [hcount, fullBlocks, List.length_cons]
      omega
  | @zero block p e clean short rest ih =>
      rw [fullBlocks_append clean, fullBlocks, if_pos rfl]
      simp only [List.length_cons, List.length_append]
      omega
  | @full block p e clean long rest ih =>
      rw [fullBlocks_append clean, show 0 + block.length = 0 + 254 by omega, fullBlocks_add]
      simp only [List.length_cons, List.length_append]
      omega

end format

/-! ### The encoder writes the format -/

theorem encodeLoop_framed (frame block payload : Bytes) (clean : frameDelimiter ∉ block)
    (short : block.length < 254) :
    ∃ e, encodeLoop frame block payload = frame ++ e ∧ Framed (block ++ payload) e := by
  induction payload generalizing frame block with
  | nil =>
      refine ⟨UInt8.ofNat (block.length + 1) :: block, rfl, ?_⟩
      rw [List.append_nil]
      exact .last clean short
  | cons byte payload ih =>
      unfold encodeLoop
      split_ifs with hzero hfull
      · obtain ⟨e, he, hframed⟩ := ih (appendBlock frame block) [] List.not_mem_nil (by decide)
        refine ⟨UInt8.ofNat (block.length + 1) :: (block ++ e), ?_, ?_⟩
        · rw [he, appendBlock, List.append_assoc, List.cons_append]
        · rw [hzero]
          exact .zero clean short hframed
      · obtain ⟨e, he, hframed⟩ :=
          ih (appendBlock frame (block ++ [byte])) [] List.not_mem_nil (by decide)
        refine ⟨255 :: (block ++ [byte] ++ e), ?_, ?_⟩
        · rw [he, appendBlock, List.append_assoc, hfull, List.cons_append]
          rfl
        · rw [← List.singleton_append, ← List.append_assoc]
          refine .full (fun h => ?_) hfull hframed
          rcases List.mem_append.mp h with h | h
          · exact clean h
          · exact hzero (List.mem_singleton.mp h).symm
      · obtain ⟨e, he, hframed⟩ := ih frame (block ++ [byte]) (fun h => by
          rcases List.mem_append.mp h with h | h
          · exact clean h
          · exact hzero (List.mem_singleton.mp h).symm) (by
          rw [List.length_append, List.length_singleton] at hfull ⊢
          omega)
        exact ⟨e, he, by rwa [List.append_assoc] at hframed⟩

/-- A frame is blocks that spell the payload, and the delimiter. -/
theorem encode_framed (p : Bytes) : ∃ e, encode p = e ++ [frameDelimiter] ∧ Framed p e := by
  obtain ⟨e, he, hframed⟩ := encodeLoop_framed [] [] p List.not_mem_nil (by decide)
  exact ⟨e, by rw [encode, he, List.nil_append], hframed⟩

/-! ### The decoder reads the format -/

section decoder

variable {limit : ℕ} {decoded frame out : Bytes}

theorem impliedZero_length_le (code : ℕ) (remaining : Bytes) :
    (impliedZero code remaining).length ≤ 1 := by
  unfold impliedZero
  split_ifs
  · exact le_rfl
  · exact Nat.zero_le 1

/-- Decoding a complete block. -/
theorem decodeLoop_block {code : UInt8} {block rest : Bytes}
    (hcode : code.toNat = block.length + 1) (hlimit : decoded.length + block.length + 1 ≤ limit) :
    decodeLoop limit decoded (code :: (block ++ rest)) =
      decodeLoop limit (decoded ++ block ++ impliedZero (block.length + 1) rest) rest := by
  have hzero := impliedZero_length_le (block.length + 1) rest
  rw [decodeLoop]
  simp only [hcode, Nat.add_sub_cancel, List.take_left', List.drop_left', List.length_append]
  rw [if_neg (by omega), if_neg (by omega), if_neg (by omega)]

/-- A decoder that succeeds has read a complete block first. -/
theorem decodeLoop_ok {code : UInt8} {after : Bytes}
    (h : decodeLoop limit decoded (code :: after) = .ok out) :
    ∃ block rest, after = block ++ rest ∧ code.toNat = block.length + 1 ∧
      (decoded ++ block ++ impliedZero (block.length + 1) rest).length ≤ limit ∧
      decodeLoop limit (decoded ++ block ++ impliedZero (block.length + 1) rest) rest = .ok out := by
  rw [decodeLoop] at h
  simp only at h
  split_ifs at h with hzero hshort hover
  have hlength : (after.take (code.toNat - 1)).length + 1 = code.toNat := by
    rw [List.length_take_of_le (by omega)]
    omega
  refine ⟨after.take (code.toNat - 1), after.drop (code.toNat - 1),
    (List.take_append_drop _ _).symm, hlength.symm, ?_, ?_⟩
  · rw [hlength]
    omega
  · rw [hlength]
    exact h

theorem decodeLoop_framed {p e : Bytes} (h : Framed p e)
    (hlimit : decoded.length + e.length ≤ limit) : decodeLoop limit decoded e = .ok (decoded ++ p) := by
  induction h generalizing decoded with
  | @last block clean short =>
      have hstep : decodeLoop limit decoded (UInt8.ofNat (block.length + 1) :: (block ++ [])) = _ :=
        decodeLoop_block (code_toNat (n := block.length) (by omega)) (by
          rw [List.length_cons] at hlimit
          omega)
      rw [List.append_nil] at hstep
      rw [hstep, impliedZero, if_neg (fun h => h.2 rfl), List.append_nil, decodeLoop]
  | @zero block p e clean short rest ih =>
      rw [List.length_cons, List.length_append] at hlimit
      have hcode : (UInt8.ofNat (block.length + 1)).toNat = block.length + 1 :=
        code_toNat (by omega)
      rw [decodeLoop_block hcode (by omega), impliedZero, if_pos ⟨by omega, rest.ne_nil⟩, ih (by
        simp only [List.length_append, List.length_singleton]
        omega)]
      simp only [List.append_assoc, List.singleton_append]
  | @full block p e clean long rest ih =>
      rw [List.length_cons, List.length_append] at hlimit
      rw [decodeLoop_block (by rw [long]; rfl) (by omega), impliedZero, long,
        if_neg (fun h => h.1 rfl), List.append_nil, ih (by
          rw [List.length_append]
          omega), List.append_assoc]

theorem decode_framed {p e : Bytes} (h : Framed p e) (hlimit : e.length ≤ limit) :
    decode e limit = .ok p := by
  rw [decode, if_neg (fun hbad => hbad.elim h.ne_nil (by omega)),
    decodeLoop_framed h (by simpa using hlimit), List.nil_append]

/-- The decoder gives out fewer bytes than it takes in, and no more than the limit. -/
theorem decodeLoop_length (n : ℕ) (hn : frame.length ≤ n)
    (h : decodeLoop limit decoded frame = .ok out) (hlimit : decoded.length ≤ limit) :
    out.length ≤ limit ∧ (out = decoded ∧ frame = [] ∨ out.length < decoded.length + frame.length) := by
  induction n generalizing decoded frame with
  | zero =>
      obtain rfl := List.length_eq_zero_iff.mp (Nat.le_zero.mp hn)
      rw [decodeLoop] at h
      cases h
      exact ⟨hlimit, Or.inl ⟨rfl, rfl⟩⟩
  | succ n ih =>
      cases frame with
      | nil =>
          rw [decodeLoop] at h
          cases h
          exact ⟨hlimit, Or.inl ⟨rfl, rfl⟩⟩
      | cons code after =>
          obtain ⟨block, rest, rfl, hcode, hfits, hrest⟩ := decodeLoop_ok h
          have hzero := impliedZero_length_le (block.length + 1) rest
          rw [List.length_cons, List.length_append] at hn
          obtain ⟨hout, ⟨rfl, rfl⟩ | hlt⟩ := ih (by omega) hrest hfits
          · refine ⟨hout, Or.inr ?_⟩
            rw [impliedZero, if_neg (fun h => h.2 rfl)]
            simp only [List.length_append, List.length_cons, List.length_nil]
            omega
          · refine ⟨hout, Or.inr ?_⟩
            simp only [List.length_append] at hlt
            simp only [List.length_append, List.length_cons]
            omega

/-- Some block of the frame has code zero or is cut short. -/
inductive Malformed : Bytes → Prop
  | zero (rest : Bytes) : Malformed (frameDelimiter :: rest)
  | truncated {code : UInt8} {rest : Bytes} (short : rest.length + 1 < code.toNat) :
      Malformed (code :: rest)
  | later {code : UInt8} {block rest : Bytes} (hcode : code.toNat = block.length + 1)
      (bad : Malformed rest) : Malformed (code :: (block ++ rest))

theorem decodeLoop_malformed (h : Malformed frame)
    (hlimit : decoded.length + frame.length ≤ limit) :
    decodeLoop limit decoded frame = .error .malformedCobs := by
  induction h generalizing decoded with
  | zero rest =>
      rw [decodeLoop]
      rfl
  | @truncated code rest short =>
      rw [decodeLoop]
      simp only
      rw [if_neg (by omega), if_pos (by omega)]
  | @later code block rest hcode bad ih =>
      rw [List.length_cons, List.length_append] at hlimit
      have hpos : 0 < rest.length := by
        cases bad <;> exact Nat.succ_pos _
      have hzero := impliedZero_length_le (block.length + 1) rest
      rw [decodeLoop_block hcode (by omega)]
      refine ih ?_
      simp only [List.length_append]
      omega

end decoder

/-! ### Streams of frames -/

section streams

variable {limit : ℕ} {operation : String}

theorem readLoop_append {encoded body : Bytes} (clean : frameDelimiter ∉ body)
    (hlimit : encoded.length + body.length ≤ limit) (stream : ByteStream) :
    readLoop limit operation encoded (body.map .ok ++ .ok frameDelimiter :: stream) =
      (decode (encoded ++ body) limit, stream) := by
  induction body generalizing encoded with
  | nil =>
      rw [List.map_nil, List.nil_append, readLoop, if_pos rfl, List.append_nil]
  | cons byte body ih =>
      obtain ⟨hb, hrest⟩ := not_or.mp (fun h => clean (List.mem_cons.mpr h))
      rw [List.length_cons] at hlimit
      rw [List.map_cons, List.cons_append, readLoop, if_neg (Ne.symm hb), if_neg (by
        rw [List.length_append, List.length_singleton]
        omega), ih hrest (by
        rw [List.length_append, List.length_singleton]
        omega), List.append_assoc, List.singleton_append]

/-- A body that exceeds the limit is refused while it is read. -/
theorem readLoop_exceeds {encoded body : Bytes} (clean : frameDelimiter ∉ body)
    (hencoded : encoded.length ≤ limit) (hlimit : limit < encoded.length + body.length)
    (stream : ByteStream) :
    (readLoop limit operation encoded (body.map .ok ++ stream)).1 = .error (.frameTooLarge limit) := by
  induction body generalizing encoded with
  | nil =>
      rw [List.length_nil] at hlimit
      omega
  | cons byte body ih =>
      obtain ⟨hb, hrest⟩ := not_or.mp (fun h => clean (List.mem_cons.mpr h))
      rw [List.map_cons, List.cons_append, readLoop, if_neg (Ne.symm hb)]
      split_ifs with hover
      · rfl
      · refine ih hrest (by omega) ?_
        rw [List.length_append, List.length_singleton]
        rw [List.length_cons] at hlimit
        omega

/-- Reading a frame returns its payload and leaves what follows it. -/
theorem readDelimited_encode (p : Bytes) (hlimit : (encode p).length ≤ limit + 1)
    (stream : ByteStream) :
    readDelimited ((encode p).map .ok ++ stream) limit operation = (.ok p, stream) := by
  obtain ⟨e, he, hframed⟩ := encode_framed p
  rw [he, List.length_append, List.length_singleton] at hlimit
  rw [he, List.map_append, List.append_assoc, List.map_singleton, List.singleton_append,
    readDelimited, readLoop_append hframed.clean (by simpa using hlimit), List.nil_append,
    decode_framed hframed (by omega)]

theorem readFrames_encode (payloads : List Bytes)
    (hlimit : ∀ p ∈ payloads, (encode p).length ≤ limit + 1) (stream : ByteStream) :
    readFrames limit operation payloads.length ((payloads.flatMap encode).map .ok ++ stream) =
      (payloads.map .ok, stream) := by
  induction payloads with
  | nil => rfl
  | cons p payloads ih =>
      rw [List.flatMap_cons, List.map_append, List.append_assoc, List.length_cons, readFrames,
        readDelimited_encode p (hlimit p List.mem_cons_self)]
      simp only
      rw [ih fun q hq => hlimit q (List.mem_cons_of_mem p hq), List.map_cons]

end streams

/-- COBS framing is a faithful codec: a frame ends in its only zero and decodes to its payload,
frames in a row are read back one by one, and the decoder accepts nothing that is malformed or too
long. -/
theorem cobs_faithful :
    (∀ p, ∃ body, encode p = body ++ [frameDelimiter] ∧ frameDelimiter ∉ body ∧
      ∀ limit, body.length ≤ limit → decode body limit = .ok p) ∧
    (∀ (payloads : List Bytes) limit operation stream,
      (∀ p ∈ payloads, (encode p).length ≤ limit + 1) →
        (∀ p ∈ payloads, ∀ rest,
          readDelimited ((encode p).map .ok ++ rest) limit operation = (.ok p, rest)) ∧
        readFrames limit operation payloads.length ((payloads.flatMap encode).map .ok ++ stream) =
          (payloads.map .ok, stream)) ∧
    (∀ frame limit decoded, decode frame limit = .ok decoded →
      decoded.length < frame.length ∧ decoded.length ≤ limit) ∧
    ∀ frame limit, Malformed frame →
      decode frame limit = .error (if limit < frame.length then .frameTooLarge limit
        else .malformedCobs) := by
  refine ⟨fun p => ?_, fun payloads limit operation stream hlimit => ⟨fun p hp rest => ?_, ?_⟩,
    fun frame limit decoded h => ?_, fun frame limit hbad => ?_⟩
  · obtain ⟨e, he, hframed⟩ := encode_framed p
    exact ⟨e, he, hframed.clean, fun limit hl => decode_framed hframed hl⟩
  · exact readDelimited_encode p (hlimit p hp) rest
  · exact readFrames_encode payloads hlimit stream
  · unfold decode at h
    split_ifs at h with hbad
    obtain ⟨hne, hfits⟩ := not_or.mp hbad
    obtain ⟨hle, ⟨_, hnil⟩ | hlt⟩ := decodeLoop_length _ le_rfl h (Nat.zero_le limit)
    · exact absurd hnil hne
    · exact ⟨by simpa using hlt, hle⟩
  · have hne : frame ≠ [] := by
      cases hbad <;> exact List.cons_ne_nil _ _
    unfold decode
    split_ifs with h hlong hlong
    · rfl
    · exact absurd h (not_or.mpr ⟨hne, hlong⟩)
    · exact absurd (Or.inr hlong) h
    · exact decodeLoop_malformed hbad (by simpa using hlong)

/-- A packet is received under a frame limit exactly when the limit leaves room for its framing:
one byte, and one more for every whole block of non-zero bytes. -/
theorem frame_limit_agrees (limit : ℕ) (packet : Bytes) (operation : String) (stream : ByteStream) :
    (readDelimited ((encode packet).map .ok ++ stream) limit operation).1 = .ok packet ↔
      packet.length + 1 + fullBlocks 0 packet ≤ limit := by
  obtain ⟨e, he, hframed⟩ := encode_framed packet
  rw [← hframed.length_eq]
  constructor
  · intro h
    by_contra hover
    rw [he, List.map_append, List.append_assoc, readDelimited,
      readLoop_exceeds hframed.clean (Nat.zero_le limit) (by simpa using hover)] at h
    cases h
  · intro hfits
    rw [readDelimited_encode packet (by rw [he]; simpa using hfits)]

/-- A packet of 640 bytes, which a sender accepts under a limit of 640 bytes, is not received under
this limit. -/
theorem frame_limit_overhead :
    (List.replicate 640 1 : Bytes) ≠ [] ∧ (List.replicate 640 1 : Bytes).length ≤ 640 ∧
      (readDelimited ((encode (List.replicate 640 1)).map .ok) 640 "reading BPIO2 frame").1 ≠
        .ok (List.replicate 640 1) := by
  refine ⟨List.cons_ne_nil _ _, by rw [List.length_replicate], fun h => ?_⟩
  obtain ⟨e, he, hframed⟩ := encode_framed (List.replicate 640 1)
  have hlength := hframed.length_eq
  rw [List.length_replicate] at hlength
  rw [he, List.map_append, readDelimited,
    readLoop_exceeds hframed.clean (Nat.zero_le 640) (by simp only [List.length_nil]; omega)] at h
  cases h

end Cobs

end Cheirismos

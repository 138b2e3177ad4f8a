import Cheirismos.Conditions
import Mathlib.Data.List.Basic

/-! # JSON Pointers

What `JsonPointer` accepts and where it leads.

* **Members.** `encodePointer` writes a list of names as RFC 6901 does, and `pointer_literal` says
  that resolving it looks up exactly these names: splitting at `/` and the two replacements undo
  the encoding.
* **Refusals.** A tilde that is not followed by `0` or `1` is found wherever it stands.  The source
  scans the bytes of a segment, which is the same as a scan of its characters
  (`validatePointerSegment_eq`).
* **Elements.** An array step takes the numeral of an index.  `str::parse` also takes a sign:
  `arrayStep_canonical_iff` says when a step goes astray. -/

namespace Cheirismos

/-! ### Encoding -/

/-- A character of a name in a pointer. -/
def encodeChar (c : Char) : List Char :=
  if c = '~' then ['~', '0'] else if c = '/' then ['~', '1'] else [c]

def encodeToken (token : List Char) : List Char := token.flatMap encodeChar

/-- The pointer of a list of names. -/
def encodePointer (tokens : List String) : String :=
  String.ofList (tokens.flatMap fun token => '/' :: encodeToken token.toList)

/-- Every `~` is followed by `0` or `1`. -/
def validEscapes : List Char → Bool
  | [] => true
  | ['~'] => false
  | '~' :: c :: cs => (c == '0' || c == '1') && validEscapes cs
  | _ :: cs => validEscapes cs

section encoding

variable {c : Char} {cs token : List Char}

theorem replaceEscape_of_ne {digit replacement : Char} (h : c ≠ '~') :
    replaceEscape digit replacement (c :: cs) = c :: replaceEscape digit replacement cs := by
  rw [replaceEscape]
  exact fun _ _ he _ => h he

/-- Replacing `~1` leaves the tildes encoded. -/
theorem replaceEscape_encodeToken : replaceEscape '1' '/' (encodeToken token) =
    token.flatMap fun c => if c = '~' then ['~', '0'] else [c] := by
  induction token with
  | nil => rfl
  | cons c token ih =>
      rw [encodeToken, List.flatMap_cons, ← encodeToken, List.flatMap_cons, ← ih]
      by_cases htilde : c = '~'
      · subst htilde
        rw [encodeChar, if_pos rfl, if_pos rfl]
        show replaceEscape '1' '/' ('~' :: '0' :: encodeToken token) = _
        rw [replaceEscape, if_neg (by decide), replaceEscape_of_ne (by decide)]
        rfl
      by_cases hslash : c = '/'
      · subst hslash
        rw [encodeChar, if_neg (by decide), if_pos rfl, if_neg (by decide)]
        show replaceEscape '1' '/' ('~' :: '1' :: encodeToken token) = _
        rw [replaceEscape, if_pos rfl]
        rfl
      · rw [encodeChar, if_neg htilde, if_neg hslash, if_neg htilde]
        exact replaceEscape_of_ne htilde

/-- The two replacements undo the encoding. -/
theorem unescape_encodeToken : unescapePointerSegment (encodeToken token) = token := by
  rw [unescapePointerSegment, replaceEscape_encodeToken]
  induction token with
  | nil => rfl
  | cons c token ih =>
      rw [List.flatMap_cons]
      by_cases htilde : c = '~'
      · subst htilde
        rw [if_pos rfl]
        show replaceEscape '0' '~' ('~' :: '0' :: _) = _
        rw [replaceEscape, if_pos rfl]
        exact congrArg (List.cons '~') ih
      · rw [if_neg htilde]
        show replaceEscape '0' '~' (c :: _) = _
        rw [replaceEscape_of_ne htilde]
        exact congrArg (List.cons c) ih

theorem slash_notMem_encodeToken : '/' ∉ encodeToken token := by
  intro h
  obtain ⟨c, _, hc⟩ := List.mem_flatMap.mp h
  unfold encodeChar at hc
  split_ifs at hc with htilde hslash
  · exact absurd hc (by decide)
  · exact absurd hc (by decide)
  · exact hslash (List.mem_singleton.mp hc).symm

theorem validEscapes_of_ne (h : c ≠ '~') : validEscapes (c :: cs) = validEscapes cs := by
  rw [validEscapes]
  · exact fun he _ => h he
  · exact fun _ _ he _ => h he

theorem validate_encodeToken : validEscapes (encodeToken token) = true := by
  induction token with
  | nil => rfl
  | cons c token ih =>
      rw [encodeToken, List.flatMap_cons, ← encodeToken, encodeChar]
      split_ifs with htilde hslash
      · exact ih
      · exact ih
      · exact (validEscapes_of_ne htilde).trans ih

/-! ### Splitting -/

theorem splitSlash_ne_nil : splitSlash cs ≠ [] := by
  cases cs with
  | nil => exact List.cons_ne_nil _ _
  | cons c cs =>
      rw [splitSlash]
      split_ifs
      · exact List.cons_ne_nil _ _
      · split <;> exact List.cons_ne_nil _ _

/-- The first piece grows by a character that is not a slash. -/
theorem splitSlash_of_ne (h : c ≠ '/') :
    splitSlash (c :: cs) = (c :: (splitSlash cs).headD []) :: (splitSlash cs).tail := by
  rw [splitSlash, if_neg h]
  cases hpieces : splitSlash cs with
  | nil => exact absurd hpieces splitSlash_ne_nil
  | cons piece pieces => rfl

theorem splitSlash_append (h : '/' ∉ token) :
    splitSlash (token ++ cs) = (token ++ (splitSlash cs).headD []) :: (splitSlash cs).tail := by
  induction token with
  | nil =>
      rw [List.nil_append, List.nil_append]
      cases hpieces : splitSlash cs with
      | nil => exact absurd hpieces splitSlash_ne_nil
      | cons piece pieces => rfl
  | cons c token ih =>
      have hc : c ≠ '/' := fun he => h (he ▸ List.mem_cons_self)
      rw [List.cons_append, splitSlash_of_ne hc, ih fun hmem => h (List.mem_cons_of_mem _ hmem)]
      rfl

/-- The pieces of encoded names are the encoded names, after the empty piece in front. -/
theorem splitSlash_encoded {tokens : List String} :
    splitSlash (tokens.flatMap fun token => '/' :: encodeToken token.toList) =
      [] :: tokens.map fun token => encodeToken token.toList := by
  induction tokens with
  | nil => rfl
  | cons token tokens ih =>
      rw [List.flatMap_cons, List.map_cons, List.cons_append, splitSlash, if_pos rfl,
        splitSlash_append slash_notMem_encodeToken, ih]
      simp

theorem pointerSegments_encodePointer {tokens : List String} :
    pointerSegments (encodePointer tokens) = tokens.map fun token => encodeToken token.toList := by
  rw [pointerSegments, encodePointer, String.toList_ofList, splitSlash_encoded]
  rfl

/-! ### Stray tildes -/

/-- A segment is judged like the text it is cut from. -/
theorem all_splitSlash : (splitSlash cs).all validEscapes = validEscapes cs := by
  have hpieces : ∀ cs, (splitSlash cs).all validEscapes =
      (validEscapes ((splitSlash cs).headD []) && (splitSlash cs).tail.all validEscapes) := by
    intro cs
    cases h : splitSlash cs with
    | nil => exact absurd h splitSlash_ne_nil
    | cons piece pieces => rfl
  induction cs using validEscapes.induct with
  | case1 => rfl
  | case2 => rfl
  | case3 c cs ih =>
      rw [splitSlash_of_ne (by decide), List.all_cons]
      by_cases hslash : c = '/'
      · subst hslash
        rw [splitSlash, if_pos rfl]
        rfl
      · rw [splitSlash_of_ne hslash, validEscapes, ← ih, hpieces, ← Bool.and_assoc]
        rfl
  | case4 c cs hlast htilde ih =>
      have hc : c ≠ '~' := by
        rintro rfl
        cases cs with
        | nil => exact hlast rfl rfl
        | cons d cs => exact htilde d cs rfl rfl
      rw [validEscapes_of_ne hc, ← ih]
      by_cases hslash : c = '/'
      · subst hslash
        rw [splitSlash, if_pos rfl]
        rfl
      · rw [splitSlash_of_ne hslash, List.all_cons, validEscapes_of_ne hc, hpieces]

/-- A tilde that is not followed by `0` or `1`. -/
def StrayTilde (text : List Char) : Prop :=
  ∃ before after, text = before ++ '~' :: after ∧ after.head? ≠ some '0' ∧ after.head? ≠ some '1'

theorem not_valid_of_strayTilde (h : StrayTilde cs) : validEscapes cs = false := by
  obtain ⟨before, after, rfl, hzero, hone⟩ := h
  rw [← Bool.not_eq_true]
  induction hcs : before ++ '~' :: after using validEscapes.induct generalizing before with
  | case1 => exact fun _ => absurd hcs (by simp)
  | case2 => exact Bool.false_ne_true
  | case3 c cs ih =>
      rw [validEscapes, Bool.and_eq_true, Bool.or_eq_true, beq_iff_eq, beq_iff_eq]
      rintro ⟨hc, hvalid⟩
      cases before with
      | nil =>
          obtain rfl : after = c :: cs := List.tail_eq_of_cons_eq hcs
          rcases hc with rfl | rfl
          · exact hzero rfl
          · exact hone rfl
      | cons d before =>
          cases before with
          | nil =>
              obtain rfl : '~' = c := List.head_eq_of_cons_eq (List.tail_eq_of_cons_eq hcs)
              exact absurd hc (by decide)
          | cons e before =>
              exact ih before (List.tail_eq_of_cons_eq (List.tail_eq_of_cons_eq hcs)) hvalid
  | case4 c cs hlast htilde ih =>
      have hc : c ≠ '~' := by
        rintro rfl
        cases cs with
        | nil => exact hlast rfl rfl
        | cons d cs => exact htilde d cs rfl rfl
      rw [validEscapes_of_ne hc]
      cases before with
      | nil => exact absurd (List.head_eq_of_cons_eq hcs).symm hc
      | cons d before => exact ih before (List.tail_eq_of_cons_eq hcs)

end encoding

/-! ### The scan of the bytes -/

/-- A character is one ASCII byte, or has no ASCII byte in its encoding. -/
theorem utf8EncodeChar_cases (c : Char) :
    (c.toNat < 128 ∧ String.utf8EncodeChar c = [UInt8.ofNat c.toNat]) ∨
      (128 ≤ c.toNat ∧ ∀ byte ∈ String.utf8EncodeChar c, 128 ≤ byte.toNat) := by
  have hlow : ∀ n k, n + k < 256 → 128 ≤ k → 128 ≤ (UInt8.ofNat (n + k)).toNat := by
    intro n k hlt hle
    rw [UInt8.toNat_ofNat', Nat.mod_eq_of_lt hlt]
    omega
  show (c.val.toNat < 128 ∧ String.utf8EncodeChar c = [UInt8.ofNat c.val.toNat]) ∨
    (128 ≤ c.val.toNat ∧ _)
  unfold String.utf8EncodeChar
  generalize c.val.toNat = v
  dsimp only
  split_ifs with h₁ h₂ h₃
  · exact Or.inl ⟨by omega, rfl⟩
  all_goals
    refine Or.inr ⟨by omega, ?_⟩
    simp only [List.forall_mem_cons]
    refine ⟨hlow _ _ (by omega) (by decide), ?_⟩
  · exact ⟨hlow _ _ (by omega) (by decide), fun _ h => absurd h List.not_mem_nil⟩
  · exact ⟨hlow _ _ (by omega) (by decide), hlow _ _ (by omega) (by decide),
      fun _ h => absurd h List.not_mem_nil⟩
  · exact ⟨hlow _ _ (by omega) (by decide), hlow _ _ (by omega) (by decide),
      hlow _ _ (by omega) (by decide), fun _ h => absurd h List.not_mem_nil⟩

theorem ascii_inj {c d : Char} (hc : c.toNat < 128) (hd : d.toNat < 128)
    (h : UInt8.ofNat c.toNat = UInt8.ofNat d.toNat) : c = d := by
  have hnat := congrArg UInt8.toNat h
  rw [UInt8.toNat_ofNat', UInt8.toNat_ofNat', Nat.mod_eq_of_lt (by omega),
    Nat.mod_eq_of_lt (by omega)] at hnat
  exact Char.toNat_inj.mp hnat

/-- Bytes outside ASCII are passed over. -/
theorem validateBytes_skip {front bytes : Bytes} (h : ∀ byte ∈ front, 128 ≤ byte.toNat) :
    validateBytes (front ++ bytes) = validateBytes bytes := by
  induction front with
  | nil => rfl
  | cons byte front ih =>
      obtain ⟨hbyte, hfront⟩ := List.forall_mem_cons.mp h
      have hne : byte ≠ 0x7e := by
        rintro rfl
        exact absurd hbyte (by decide)
      rw [List.cons_append, validateBytes.eq_def]
      exact (if_neg hne).trans (ih hfront)

/-- The scan of the bytes finds what the characters show. -/
theorem validatePointerSegment_eq {cs : List Char} : validatePointerSegment cs = validEscapes cs := by
  rw [validatePointerSegment, utf8_ofList]
  induction cs using validEscapes.induct with
  | case1 => rfl
  | case2 => rfl
  | case3 c cs ih =>
      rw [List.flatMap_cons, List.flatMap_cons, validEscapes]
      show validateBytes (0x7e :: (String.utf8EncodeChar c ++ cs.flatMap String.utf8EncodeChar)) = _
      rcases utf8EncodeChar_cases c with ⟨hc, hbytes⟩ | ⟨hc, hbytes⟩
      · rw [hbytes, ← ih]
        show ((UInt8.ofNat c.toNat == 0x30 || UInt8.ofNat c.toNat == 0x31) && validateBytes _) = _
        have hzero : (UInt8.ofNat c.toNat == 0x30) = (c == '0') := by
          rw [Bool.eq_iff_iff, beq_iff_eq, beq_iff_eq]
          exact ⟨fun h => ascii_inj hc (by decide) h, fun h => h ▸ rfl⟩
        have hone : (UInt8.ofNat c.toNat == 0x31) = (c == '1') := by
          rw [Bool.eq_iff_iff, beq_iff_eq, beq_iff_eq]
          exact ⟨fun h => ascii_inj hc (by decide) h, fun h => h ▸ rfl⟩
        rw [hzero, hone]
        rfl
      · have hnot : (c == '0' || c == '1') = false := by
          rw [Bool.or_eq_false_iff, beq_eq_false_iff_ne, beq_eq_false_iff_ne]
          constructor <;> rintro rfl <;> exact absurd hc (by decide)
        cases hencoded : String.utf8EncodeChar c with
        | nil => exact absurd hencoded String.utf8EncodeChar_ne_nil
        | cons first rest =>
            have hfirst := hbytes first (hencoded ▸ List.mem_cons_self)
            show ((first == 0x30 || first == 0x31) && validateBytes _) = _
            have hfirstNot : (first == 0x30 || first == 0x31) = false := by
              rw [Bool.or_eq_false_iff, beq_eq_false_iff_ne, beq_eq_false_iff_ne]
              constructor <;> rintro rfl <;> exact absurd hfirst (by decide)
            rw [hnot, hfirstNot]
            rfl
  | case4 c cs hlast htilde ih =>
      have hc : c ≠ '~' := by
        rintro rfl
        cases cs with
        | nil => exact hlast rfl rfl
        | cons d cs => exact htilde d cs rfl rfl
      rw [List.flatMap_cons, validEscapes_of_ne hc, ← ih]
      rcases utf8EncodeChar_cases c with ⟨hlow, hbytes⟩ | ⟨_, hbytes⟩
      · rw [hbytes, List.singleton_append, validateBytes.eq_def]
        exact if_neg fun h => hc (ascii_inj hlow (by decide) h)
      · exact validateBytes_skip hbytes

/-! ### Members -/

/-- A value without arrays: objects in objects, down to scalars. -/
inductive NestedObjects : Value → Prop
  | null : NestedObjects .null
  | bool (b : Bool) : NestedObjects (.bool b)
  | number (n : Number) : NestedObjects (.number n)
  | string (s : String) : NestedObjects (.string s)
  | object (members : List (String × Value)) (h : ∀ m ∈ members, NestedObjects m.2) :
      NestedObjects (.object members)

/-- Look up these names, one in the value of the other; nothing where a member is absent or
something else than an object is entered. -/
def lookupMembers : List String → Value → Option Value
  | [], value => some value
  | token :: tokens, .object members =>
      (members.find? (·.1 = token)).bind fun m => lookupMembers tokens m.2
  | _ :: _, _ => none

/-- The answer of a pointer. -/
def answerOf (pointer : String) : Option Value → Except ConditionError Value
  | some value => .ok value
  | none => .error (.missingPointer pointer)

theorem resolveSegments_encoded {pointer : String} {tokens : List String} {value : Value}
    (h : NestedObjects value) :
    resolveSegments pointer (tokens.map fun token => encodeToken token.toList) value =
      answerOf pointer (lookupMembers tokens value) := by
  induction tokens generalizing value with
  | nil => rfl
  | cons token tokens ih =>
      rw [List.map_cons, resolveSegments.eq_def]
      simp only [unescape_encodeToken]
      cases h with
      | object members hmembers =>
          have hfind : members.find? (fun m => m.1.toList = token.toList) =
              members.find? (·.1 = token) := by
            simp only [String.toList_inj]
          rw [lookupMembers]
          simp only [hfind]
          cases hm : members.find? (·.1 = token) with
          | none => rfl
          | some m => exact ih (hmembers m (List.mem_of_find?_eq_some hm))
      | _ => rfl

theorem tryNew_ok {text : String} (h : validatePointer text = .ok ()) :
    JsonPointer.tryNew text = .ok ⟨text, h⟩ := by
  unfold JsonPointer.tryNew
  split
  · rfl
  · next he => cases h.symm.trans he

theorem tryNew_error {text : String} (h : validatePointer text ≠ .ok ()) :
    ∃ e, JsonPointer.tryNew text = .error e := by
  unfold JsonPointer.tryNew
  split
  · next he => exact absurd he h
  · next e he => exact ⟨e, rfl⟩

theorem validatePointer_ok_iff {text : String} : validatePointer text = .ok () ↔
    (utf8 text).length ≤ 512 ∧ (text = "" ∨ text.toList.head? = some '/') ∧
      (pointerSegments text).all validEscapes = true := by
  unfold validatePointer
  rw [show validatePointerSegment = validEscapes from funext fun _ => validatePointerSegment_eq]
  by_cases hlength : 512 < (utf8 text).length
  · rw [if_pos hlength]
    exact iff_of_false (by rintro ⟨⟩) fun h => Nat.not_le.mpr hlength h.1
  rw [if_neg hlength]
  by_cases hstart : text = "" ∨ text.toList.head? = some '/'
  · have hbad : (!text.isEmpty && text.toList.head? != some '/') = false := by
      rcases hstart with rfl | h
      · rfl
      · rw [h]
        exact Bool.and_false _
    rw [hbad]
    cases hall : (pointerSegments text).all validEscapes with
    | false => exact iff_of_false (by rintro ⟨⟩) (by rintro ⟨_, _, ⟨⟩⟩)
    | true => exact iff_of_true rfl ⟨Nat.not_lt.mp hlength, hstart, rfl⟩
  · have hbad : (!text.isEmpty && text.toList.head? != some '/') = true := by
      rw [Bool.and_eq_true, Bool.not_eq_true', ← Bool.not_eq_true, String.isEmpty_iff, bne_iff_ne]
      exact not_or.mp hstart
    rw [hbad]
    exact iff_of_false (by rintro ⟨⟩) fun h => hstart h.2.1

theorem validate_encodePointer {tokens : List String}
    (h : (utf8 (encodePointer tokens)).length ≤ 512) :
    validatePointer (encodePointer tokens) = .ok () := by
  refine validatePointer_ok_iff.mpr ⟨h, ?_, ?_⟩
  · cases tokens with
    | nil => exact Or.inl rfl
    | cons token tokens =>
        refine Or.inr ?_
        rw [encodePointer, String.toList_ofList]
        rfl
  · rw [pointerSegments_encodePointer, List.all_map]
    exact List.all_eq_true.mpr fun token _ => validate_encodeToken

/-- A tilde is found wherever it stands in an accepted pointer. -/
theorem not_strayTilde_of_valid {text : String} (h : validatePointer text = .ok ()) :
    ¬ StrayTilde text.toList := by
  intro hstray
  obtain ⟨_, hstart, hall⟩ := validatePointer_ok_iff.mp h
  have hinvalid := not_valid_of_strayTilde hstray
  rcases hstart with rfl | hslash
  · cases hinvalid
  · cases hchars : text.toList with
    | nil =>
        rw [hchars] at hslash
        cases hslash
    | cons c cs =>
        rw [hchars] at hslash hinvalid
        obtain rfl : c = '/' := Option.some.inj hslash
        rw [pointerSegments, hchars, splitSlash, if_pos rfl] at hall
        rw [validEscapes_of_ne (by decide), ← all_splitSlash] at hinvalid
        cases hinvalid.symm.trans hall

/-- A pointer that encodes names is accepted and looks up exactly these names; a text that is too
long, does not start with a slash or has a stray tilde is refused. -/
theorem pointer_literal :
    (∀ tokens : List String, (utf8 (encodePointer tokens)).length ≤ 512 →
      ∃ pointer, JsonPointer.tryNew (encodePointer tokens) = .ok pointer ∧
        ∀ body, NestedObjects body →
          (∀ value, pointer.resolve body = .ok value ↔ lookupMembers tokens body = some value) ∧
          (pointer.resolve body = .error (.missingPointer (encodePointer tokens)) ↔
            lookupMembers tokens body = none)) ∧
    ∀ text : String, 512 < (utf8 text).length ∨ (text ≠ "" ∧ text.toList.head? ≠ some '/') ∨
        StrayTilde text.toList →
      ∃ e, JsonPointer.tryNew text = .error e := by
  constructor
  · intro tokens hlength
    refine ⟨⟨encodePointer tokens, validate_encodePointer hlength⟩, tryNew_ok _, fun body hbody => ?_⟩
    have hresolve : JsonPointer.resolve ⟨encodePointer tokens, validate_encodePointer hlength⟩ body =
        answerOf (encodePointer tokens) (lookupMembers tokens body) := by
      rw [JsonPointer.resolve, pointerSegments_encodePointer]
      exact resolveSegments_encoded hbody
    rw [hresolve]
    cases lookupMembers tokens body with
    | none => exact ⟨fun value => iff_of_false (by rintro ⟨⟩) (by rintro ⟨⟩), iff_of_true rfl rfl⟩
    | some found =>
        exact ⟨fun value => by rw [answerOf, Except.ok.injEq, Option.some.injEq],
          iff_of_false (by rintro ⟨⟩) (by rintro ⟨⟩)⟩
  · intro text hbad
    refine tryNew_error fun hvalid => ?_
    obtain ⟨hlength, hstart, _⟩ := validatePointer_ok_iff.mp hvalid
    rcases hbad with hlong | ⟨hne, hslash⟩ | hstray
    · exact Nat.not_le.mpr hlong hlength
    · exact hstart.elim hne hslash
    · exact not_strayTilde_of_valid hvalid hstray

theorem pointer_literal_escapes : ∃ pointer,
    JsonPointer.tryNew (encodePointer ["~1", "a/b"]) = .ok pointer ∧
      pointer.resolve (.object [("~1", .object [("a/b", .bool true)])]) = .ok (.bool true) := by
  obtain ⟨pointer, hnew, h⟩ := pointer_literal.1 ["~1", "a/b"] (by decide +kernel)
  refine ⟨pointer, hnew, ((h _ ?_).1 _).mpr (by decide +kernel)⟩
  refine .object _ (List.forall_mem_singleton.mpr (.object _ (List.forall_mem_singleton.mpr ?_)))
  exact .bool true

/-! ### Numerals -/

section numerals

variable {cs : List Char} {n : ℕ}

theorem digitChar_of_isDigit {c : Char} (h : c.isDigit = true) :
    ∃ d < 10, c = Nat.digitChar d := by
  have hdigits : ∀ d < 10, (Nat.digitChar d).toNat = 48 + d := by decide
  have hrange : 48 ≤ c.toNat ∧ c.toNat ≤ 57 := by
    simp only [Char.isDigit, Bool.and_eq_true, decide_eq_true_eq] at h
    exact h
  refine ⟨c.toNat - 48, by omega, Char.toNat_inj.mp ?_⟩
  rw [hdigits _ (by omega)]
  omega

/-- A text of digits is a numeral after some zeros. -/
theorem numeral_of_digits (hne : cs ≠ []) (hdigits : ∀ c ∈ cs, c.isDigit = true) :
    ∃ zeros, cs = List.replicate zeros '0' ++ Nat.toDigits 10 (Nat.ofDigitChars 10 cs 0) := by
  induction cs using List.reverseRecOn with
  | nil => exact absurd rfl hne
  | append_singleton front c ih =>
      obtain ⟨d, hd, rfl⟩ := digitChar_of_isDigit (hdigits c (by simp))
      have hone : Nat.toDigits 10 d = [Nat.digitChar d] := Nat.toDigits_of_lt_base hd
      by_cases hfront : front = []
      · subst hfront
        refine ⟨0, ?_⟩
        rw [List.nil_append, Nat.ofDigitChars_cons_digitChar_of_lt_ten hd, Nat.ofDigitChars_nil,
          Nat.mul_zero, Nat.zero_add, hone]
        rfl
      · obtain ⟨zeros, hzeros⟩ := ih hfront fun c hc => hdigits c (List.mem_append_left _ hc)
        have hvalue : Nat.ofDigitChars 10 (front ++ [Nat.digitChar d]) 0 =
            10 * Nat.ofDigitChars 10 front 0 + d := by
          rw [Nat.ofDigitChars_append, Nat.ofDigitChars_cons_digitChar_of_lt_ten hd,
            Nat.ofDigitChars_nil]
        rw [hvalue]
        by_cases hpos : 0 < Nat.ofDigitChars 10 front 0
        · refine ⟨zeros, ?_⟩
          rw [← Nat.toDigits_append_toDigits (by decide) hpos hd, ← List.append_assoc, ← hzeros, hone]
        · rw [Nat.eq_zero_of_not_pos hpos] at hzeros ⊢
          refine ⟨zeros + 1, ?_⟩
          rw [Nat.mul_zero, Nat.zero_add, hone, List.replicate_add]
          exact congrArg (· ++ [Nat.digitChar d]) hzeros

theorem isDigit_numeral : ∀ c ∈ Nat.toDigits 10 n, c.isDigit = true :=
  fun _ hc => Nat.isDigit_of_mem_toDigits (by decide) (by decide) hc

/-- A numeral of more than one digit does not start with zero. -/
theorem numeral_head (h : 1 < (Nat.toDigits 10 n).length) : (Nat.toDigits 10 n).head? ≠ some '0' := by
  intro hhead
  cases hcs : Nat.toDigits 10 n with
  | nil => exact Nat.toDigits_ne_nil hcs
  | cons c cs =>
      rw [hcs] at h hhead
      obtain rfl : c = '0' := Option.some.inj hhead
      have hne : cs ≠ [] := by
        rintro rfl
        exact absurd h (by decide)
      obtain ⟨zeros, hzeros⟩ := numeral_of_digits hne fun c hc =>
        isDigit_numeral c (hcs ▸ List.mem_cons_of_mem _ hc)
      have hvalue : Nat.ofDigitChars 10 cs 0 = n := by
        have hall := Nat.ofDigitChars_ten_toDigits (n := n)
        rwa [hcs, Nat.ofDigitChars_cons] at hall
      have hlength := congrArg List.length hzeros
      rw [hvalue, hcs, List.length_append, List.length_replicate, List.length_cons] at hlength
      omega

theorem le_ofDigitChars {init : ℕ} : init ≤ Nat.ofDigitChars 10 cs init := by
  rw [Nat.ofDigitChars_eq_ofDigitChars_zero]
  have hpos : 0 < 10 ^ cs.length := Nat.pow_pos (by decide)
  have := Nat.le_mul_of_pos_left init hpos
  omega

theorem parseDigits_eq_some_iff {value : ℕ} (hvalue : value < 2 ^ 64) :
    parseDigits value cs = some n ↔
      (∀ c ∈ cs, c.isDigit = true) ∧ Nat.ofDigitChars 10 cs value = n ∧ n < 2 ^ 64 := by
  induction cs generalizing value with
  | nil =>
      rw [parseDigits, Option.some.injEq, Nat.ofDigitChars_nil]
      exact ⟨fun h => ⟨fun c hc => absurd hc List.not_mem_nil, h, h ▸ hvalue⟩, fun h => h.2.1⟩
  | cons c cs ih =>
      rw [parseDigits, List.forall_mem_cons, Nat.ofDigitChars_cons,
        show 10 * value + (c.toNat - '0'.toNat) = value * 10 + (c.toNat - 48) by
          rw [Nat.mul_comm]; rfl]
      by_cases hc : c.isDigit = true
      · rw [if_pos hc]
        dsimp only
        by_cases hnext : value * 10 + (c.toNat - 48) < 2 ^ 64
        · rw [if_pos hnext, ih hnext]
          exact ⟨fun ⟨h, h'⟩ => ⟨⟨hc, h⟩, h'⟩, fun ⟨⟨_, h⟩, h'⟩ => ⟨h, h'⟩⟩
        · rw [if_neg hnext]
          refine iff_of_false (by rintro ⟨⟩) fun h => hnext ?_
          exact Nat.lt_of_le_of_lt (le_ofDigitChars.trans_eq h.2.1) h.2.2
      · rw [if_neg hc]
        exact iff_of_false (by rintro ⟨⟩) fun h => hc h.1.1

theorem parseDigits_numeral {zeros : ℕ} (h : n < 2 ^ 64) :
    parseDigits 0 (List.replicate zeros '0' ++ Nat.toDigits 10 n) = some n := by
  refine (parseDigits_eq_some_iff (by decide)).mpr ⟨?_, ?_, h⟩
  · intro c hc
    rcases List.mem_append.mp hc with hc | hc
    · rw [List.eq_of_mem_replicate hc]
      decide
    · exact isDigit_numeral c hc
  · rw [Nat.ofDigitChars_append, Nat.ofDigitChars_replicate_zero, Nat.mul_zero,
      Nat.ofDigitChars_ten_toDigits]

/-- The standard library takes a numeral after zeros, and after a sign. -/
theorem parseUsize_eq_some_iff : parseUsize cs = some n ↔ n < 2 ^ 64 ∧ ∃ zeros,
    cs = List.replicate zeros '0' ++ Nat.toDigits 10 n ∨
      cs = '+' :: (List.replicate zeros '0' ++ Nat.toDigits 10 n) := by
  have hplus : ∀ zeros rest,
      List.replicate zeros '0' ++ Nat.toDigits 10 n ≠ '+' :: rest := by
    intro zeros rest he
    have hmem : '+' ∈ List.replicate zeros '0' ++ Nat.toDigits 10 n := he ▸ List.mem_cons_self
    rcases List.mem_append.mp hmem with hc | hc
    · exact absurd (List.eq_of_mem_replicate hc) (by decide)
    · exact absurd (isDigit_numeral _ hc) (by decide)
  have hnonempty : ∀ zeros, List.replicate zeros '0' ++ Nat.toDigits 10 n ≠ [] :=
    fun zeros he => Nat.toDigits_ne_nil (List.append_eq_nil_iff.mp he).2
  have hdigits : ∀ cs, cs ≠ [] → parseDigits 0 cs = some n → n < 2 ^ 64 ∧
      ∃ zeros, cs = List.replicate zeros '0' ++ Nat.toDigits 10 n := by
    intro cs hne h
    obtain ⟨hall, rfl, hlt⟩ := (parseDigits_eq_some_iff (by decide)).mp h
    exact ⟨hlt, numeral_of_digits hne hall⟩
  constructor
  · intro h
    unfold parseUsize at h
    split at h
    · cases h
    · cases h
    · next rest hne =>
        obtain ⟨hlt, zeros, hzeros⟩ := hdigits rest (fun he => hne (he ▸ rfl)) h
        exact ⟨hlt, zeros, Or.inr (congrArg _ hzeros)⟩
    · next hne _ _ =>
        obtain ⟨hlt, zeros, hzeros⟩ := hdigits cs hne h
        exact ⟨hlt, zeros, Or.inl hzeros⟩
  · rintro ⟨hlt, zeros, rfl | rfl⟩
    · unfold parseUsize
      split
      · next he => exact absurd he (hnonempty zeros)
      · next he => exact absurd he (hplus zeros _)
      · next he => exact absurd he (hplus zeros _)
      · exact parseDigits_numeral hlt
    · unfold parseUsize
      split
      · next he => cases he
      · next he => exact absurd (List.tail_eq_of_cons_eq he) (hnonempty zeros)
      · next he =>
          rw [← List.tail_eq_of_cons_eq he]
          exact parseDigits_numeral hlt
      · next hne => exact absurd rfl (hne _)

end numerals

/-! ### Elements -/

section elements

variable {segment : List Char} {n : ℕ}

/-- The check for leading zeros looks at the first character, which a sign hides. -/
theorem parseArrayIndex_eq_some_iff : parseArrayIndex segment = some n ↔ n < 2 ^ 64 ∧
    (segment = Nat.toDigits 10 n ∨
      ∃ zeros, segment = '+' :: (List.replicate zeros '0' ++ Nat.toDigits 10 n)) := by
  have hdigits : 0 < (Nat.toDigits 10 n).length := Nat.length_toDigits_pos
  have hguard : (segment.isEmpty || (decide (1 < segment.length) && segment.head? == some '0')) =
      true ↔ segment = [] ∨ (1 < segment.length ∧ segment.head? = some '0') := by
    rw [Bool.or_eq_true, List.isEmpty_iff, Bool.and_eq_true, decide_eq_true_iff, beq_iff_eq]
  unfold parseArrayIndex
  constructor
  · intro h
    split_ifs at h with hbad
    have hgood := mt hguard.mpr hbad
    obtain ⟨hlt, zeros, hplain | hsigned⟩ := parseUsize_eq_some_iff.mp h
    · refine ⟨hlt, Or.inl ?_⟩
      cases zeros with
      | zero => exact hplain
      | succ zeros =>
          refine absurd (Or.inr ⟨?_, ?_⟩) hgood
          · rw [hplain, List.length_append, List.length_replicate]
            omega
          · rw [hplain]
            rfl
    · exact ⟨hlt, Or.inr ⟨zeros, hsigned⟩⟩
  · rintro ⟨hlt, hsegment⟩
    have hgood : ¬ (segment = [] ∨ (1 < segment.length ∧ segment.head? = some '0')) := by
      rcases hsegment with rfl | ⟨zeros, rfl⟩
      · rintro (hempty | ⟨hlong, hhead⟩)
        · exact Nat.toDigits_ne_nil hempty
        · exact numeral_head hlong hhead
      · rintro (hempty | ⟨_, hhead⟩)
        · cases hempty
        · exact absurd (Option.some.inj hhead) (by decide)
    rw [if_neg (mt hguard.mp hgood)]
    refine parseUsize_eq_some_iff.mpr ⟨hlt, ?_⟩
    rcases hsegment with hplain | ⟨zeros, hsigned⟩
    · exact ⟨0, Or.inl hplain⟩
    · exact ⟨zeros, Or.inr hsigned⟩

variable {values : List Value} {encoded : List Char}

/-- The step goes to the element whose numeral the segment is, and fails when there is none. -/
def FollowsNumeral (values : List Value) (encoded : List Char) : Prop :=
  ∀ pointer rest,
    (∀ i value, unescapePointerSegment encoded = Nat.toDigits 10 i → values[i]? = some value →
      resolveSegments pointer (encoded :: rest) (.array values) =
        resolveSegments pointer rest value) ∧
    ((∀ i, unescapePointerSegment encoded = Nat.toDigits 10 i → values.length ≤ i) →
      resolveSegments pointer (encoded :: rest) (.array values) = .error (.missingPointer pointer))

/-- The segment is a sign and digits that name an element, or an index that no `usize` holds. -/
def Astray (values : List Value) (encoded : List Char) : Prop :=
  ∃ i < values.length,
    (i < 2 ^ 64 ∧ ∃ zeros, unescapePointerSegment encoded =
      '+' :: (List.replicate zeros '0' ++ Nat.toDigits 10 i)) ∨
    (2 ^ 64 ≤ i ∧ unescapePointerSegment encoded = Nat.toDigits 10 i)

theorem resolveSegments_array {pointer : String} {rest : List (List Char)} :
    resolveSegments pointer (encoded :: rest) (.array values) =
      ((parseArrayIndex (unescapePointerSegment encoded)).bind (values[·]?)).elim
        (.error (.missingPointer pointer)) (resolveSegments pointer rest) := by
  rw [resolveSegments.eq_def]
  dsimp only
  cases (parseArrayIndex (unescapePointerSegment encoded)).bind (values[·]?) with
  | none => rfl
  | some value => rfl

theorem numeral_inj {i : ℕ} (h : Nat.toDigits 10 i = Nat.toDigits 10 n) : i = n := by
  rw [← Nat.ofDigitChars_ten_toDigits (n := i), h, Nat.ofDigitChars_ten_toDigits]

theorem signed_ne_numeral {zeros i : ℕ} :
    '+' :: (List.replicate zeros '0' ++ Nat.toDigits 10 i) ≠ Nat.toDigits 10 n := by
  intro h
  have hmem : '+' ∈ Nat.toDigits 10 n := h ▸ List.mem_cons_self
  exact absurd (isDigit_numeral _ hmem) (by decide)

end elements

/-- An array step takes exactly the canonical numerals of its elements, unless the segment carries a
sign in front of digits that name an element. -/
theorem arrayStep_canonical_iff (values : List Value) (encoded : List Char) :
    FollowsNumeral values encoded ↔ ¬ Astray values encoded := by
  constructor
  · rintro h ⟨i, hi, ⟨hlt, zeros, hsigned⟩ | ⟨hge, hplain⟩⟩
    · have hmissing := (h "" []).2 fun j hj => absurd (hsigned.symm.trans hj) signed_ne_numeral
      have hindex : parseArrayIndex (unescapePointerSegment encoded) = some i :=
        parseArrayIndex_eq_some_iff.mpr ⟨hlt, Or.inr ⟨zeros, hsigned⟩⟩
      rw [resolveSegments_array, hindex, Option.bind_some, List.getElem?_eq_getElem hi] at hmissing
      cases hmissing
    · have hfound := (h "" []).1 i _ hplain (List.getElem?_eq_getElem hi)
      have hnone : parseArrayIndex (unescapePointerSegment encoded) = none := by
        refine Option.eq_none_iff_forall_ne_some.mpr fun j hj => ?_
        obtain ⟨hlt, hnumeral | ⟨zeros, hsigned⟩⟩ := parseArrayIndex_eq_some_iff.mp hj
        · have := numeral_inj (hplain.symm.trans hnumeral)
          omega
        · exact signed_ne_numeral (hsigned.symm.trans hplain)
      rw [resolveSegments_array, hnone] at hfound
      cases hfound
  · intro hnot pointer rest
    constructor
    · intro i value hplain hvalue
      obtain ⟨hi, _⟩ := List.getElem?_eq_some_iff.mp hvalue
      have hlt : i < 2 ^ 64 := by
        by_contra hge
        exact hnot ⟨i, hi, Or.inr ⟨Nat.not_lt.mp hge, hplain⟩⟩
      have hindex : parseArrayIndex (unescapePointerSegment encoded) = some i :=
        parseArrayIndex_eq_some_iff.mpr ⟨hlt, Or.inl hplain⟩
      rw [resolveSegments_array, hindex, Option.bind_some, hvalue]
      rfl
    · intro hout
      have hnone : (parseArrayIndex (unescapePointerSegment encoded)).bind (values[·]?) = none := by
        cases hparsed : parseArrayIndex (unescapePointerSegment encoded) with
        | none => rfl
        | some j =>
            rw [Option.bind_some, List.getElem?_eq_none_iff]
            obtain ⟨hlt, hnumeral | ⟨zeros, hsigned⟩⟩ := parseArrayIndex_eq_some_iff.mp hparsed
            · exact hout j hnumeral
            · by_contra hin
              exact hnot ⟨j, Nat.not_le.mp hin, Or.inl ⟨hlt, zeros, hsigned⟩⟩
      rw [resolveSegments_array, hnone]
      rfl

/-- A sign in front of the index of an element, and the step succeeds. -/
theorem arrayStep_takes_sign : ∃ pointer, JsonPointer.tryNew "/+00" = .ok pointer ∧
    pointer.resolve (.array [.bool true]) = .ok (.bool true) ∧
      ¬ FollowsNumeral [.bool true] ['+', '0', '0'] := by
  have hvalid : validatePointer "/+00" = .ok () := by decide +kernel
  have hresolve : resolveSegments "/+00" (pointerSegments "/+00") (.array [.bool true]) =
      .ok (.bool true) := by decide +kernel
  refine ⟨⟨"/+00", hvalid⟩, tryNew_ok hvalid, hresolve, fun h => ?_⟩
  have hmissing := (h "" []).2 fun i hi => absurd hi (@signed_ne_numeral i 1 0)
  exact absurd hmissing (by decide +kernel)

end Cheirismos

import Cheirismos.Domain
import Mathlib.Algebra.Field.Rat

/-! # Observation conditions and live interlocks

`conditions.rs`: JSON values, JSON Pointers, typed checks of an observation body, and live
interlock contracts.  Everything here is pure.

A `JsonPointer`, an `ObservationCheck` and a `LiveInterlock` carry the proof that their
constructor accepted them, so that only validated values exist.  Errors carry the values they
report; `ConditionError.toString` renders them, with the parts of the text that the standard
library and `serde_json` produce (`{:?}` of a text or an operation, the text of a JSON value)
taken from a `Formatter`. -/

namespace Cheirismos

/-! ### JSON values -/

/-- `serde_json::Number`; a finite float is its value. -/
inductive Number where
  | posInt (n : UInt64)
  | negInt (n : Int64)
  | float (q : ℚ)
deriving DecidableEq

/-- `serde_json::Value`; the members of an object are in key order. -/
inductive Value where
  | null
  | bool (b : Bool)
  | number (n : Number)
  | string (s : String)
  | array (values : List Value)
  | object (members : List (String × Value))

namespace Value

mutual

def decEq : (a b : Value) → Decidable (a = b)
  | null, null => isTrue rfl
  | bool a, bool b => decidable_of_iff (a = b) (by simp)
  | number a, number b => decidable_of_iff (a = b) (by simp)
  | string a, string b => decidable_of_iff (a = b) (by simp)
  | array a, array b => match decEqList a b with
      | isTrue h => isTrue (by rw [h])
      | isFalse h => isFalse (by intro e; cases e; exact h rfl)
  | object a, object b => match decEqMembers a b with
      | isTrue h => isTrue (by rw [h])
      | isFalse h => isFalse (by intro e; cases e; exact h rfl)
  | null, bool _ | null, number _ | null, string _ | null, array _ | null, object _
  | bool _, null | bool _, number _ | bool _, string _ | bool _, array _ | bool _, object _
  | number _, null | number _, bool _ | number _, string _ | number _, array _
  | number _, object _
  | string _, null | string _, bool _ | string _, number _ | string _, array _
  | string _, object _
  | array _, null | array _, bool _ | array _, number _ | array _, string _ | array _, object _
  | object _, null | object _, bool _ | object _, number _ | object _, string _
  | object _, array _ => isFalse (by intro e; cases e)

def decEqList : (a b : List Value) → Decidable (a = b)
  | [], [] => isTrue rfl
  | [], _ :: _ | _ :: _, [] => isFalse (by intro e; cases e)
  | a :: as, b :: bs => match decEq a b, decEqList as bs with
      | isTrue h, isTrue h' => isTrue (by rw [h, h'])
      | isFalse h, _ => isFalse (by intro e; cases e; exact h rfl)
      | _, isFalse h => isFalse (by intro e; cases e; exact h rfl)

def decEqMembers : (a b : List (String × Value)) → Decidable (a = b)
  | [], [] => isTrue rfl
  | [], _ :: _ | _ :: _, [] => isFalse (by intro e; cases e)
  | (k, a) :: as, (l, b) :: bs => match decEq a b, decEqMembers as bs with
      | isTrue h, isTrue h' => decidable_of_iff (k = l) (by simp [h, h'])
      | isFalse h, _ => isFalse (by intro e; cases e; exact h rfl)
      | _, isFalse h => isFalse (by intro e; cases e; exact h rfl)

end

instance : DecidableEq Value := decEq

def asBool : Value → Option Bool
  | bool b => some b
  | _ => none

def asStr : Value → Option String
  | string s => some s
  | _ => none

def asI64 : Value → Option Int64
  | number (.posInt n) => if n.toNat < 2 ^ 63 then some (Int64.ofNat n.toNat) else none
  | number (.negInt n) => some n
  | _ => none

def jsonType : Value → String
  | null => "null"
  | bool _ => "boolean"
  | number n => if (asI64 (number n)).isSome then "integer" else "number"
  | string _ => "string"
  | array _ => "array"
  | object _ => "object"

end Value

structure Observation where
  capturedAt : String
  sourceFingerprint : ArtifactDigest
  body : Value
  evidence : Option ArtifactDigest
deriving DecidableEq

/-! ### Pointers and checks -/

inductive CheckTest where
  | boolean (expected : Bool)
  | integerRange (minimum maximum : Int64)
  | textEquals (expected : String)
  | artifactDigestEquals (expected : ArtifactDigest)
deriving DecidableEq

inductive ConditionError where
  | invalidPointer (pointer reason : String)
  | invalidRange (minimum maximum : Int64)
  | missingPointer (pointer : String)
  | wrongType (pointer expected actual : String)
  | mismatch (pointer : String) (expected : CheckTest) (actual : Value)
  | emptyInterlockEffects
  | emptyInterlockChecks
  | invalidMaximumAge
  | interlockOperationHasEffects (operation : Operation)
  | interlockOperationMismatch
  | staleInterlockObservation (actual maximum : UInt64)
deriving DecidableEq

/-- The pieces of a `/`-separated text. -/
def splitSlash : List Char → List (List Char)
  | [] => [[]]
  | c :: cs =>
      if c = '/' then [] :: splitSlash cs
      else match splitSlash cs with
        | [] => [[c]]
        | piece :: pieces => (c :: piece) :: pieces

/-- The loop of `validate_pointer_segment`: every `~` is followed by `0` or `1`. -/
def validateBytes : Bytes → Bool
  | [] => true
  | byte :: bytes =>
      if byte = 0x7e then
        match bytes with
        | next :: rest => (next == 0x30 || next == 0x31) && validateBytes rest
        | [] => false
      else validateBytes bytes

def validatePointerSegment (segment : List Char) : Bool :=
  validateBytes (utf8 (String.ofList segment))

/-- `split('/').skip(1)`. -/
def pointerSegments (pointer : String) : List (List Char) := (splitSlash pointer.toList).drop 1

def validatePointer (pointer : String) : Except ConditionError Unit := do
  if 512 < (utf8 pointer).length then
    throw (.invalidPointer pointer "exceeds 512 bytes")
  if !pointer.isEmpty && pointer.toList.head? != some '/' then
    throw (.invalidPointer pointer "must be empty or start with '/'")
  if !(pointerSegments pointer).all validatePointerSegment then
    throw (.invalidPointer pointer "uses an escape other than ~0 or ~1")

/-- A JSON Pointer rooted at the body of an observation. -/
structure JsonPointer where
  text : String
  valid : validatePointer text = .ok ()

instance : DecidableEq JsonPointer := fun a b =>
  decidable_of_iff (a.text = b.text) (by cases a; cases b; simp)

def JsonPointer.tryNew (pointer : String) : Except ConditionError JsonPointer :=
  match h : validatePointer pointer with
  | .ok () => .ok ⟨pointer, h⟩
  | .error e => .error e

/-- `str::replace` of `~` followed by `digit`. -/
def replaceEscape (digit replacement : Char) : List Char → List Char
  | [] => []
  | '~' :: c :: cs =>
      if c = digit then replacement :: replaceEscape digit replacement cs
      else '~' :: replaceEscape digit replacement (c :: cs)
  | c :: cs => c :: replaceEscape digit replacement cs

def unescapePointerSegment (segment : List Char) : List Char :=
  replaceEscape '0' '~' (replaceEscape '1' '/' segment)

/-- Decimal digits as a number, in front of which stands `value`. -/
def parseDigits (value : ℕ) : List Char → Option ℕ
  | [] => some value
  | c :: cs =>
      if c.isDigit then
        let next := value * 10 + (c.toNat - 48)
        if next < 2 ^ 64 then parseDigits next cs else none
      else none

/-- `str::parse::<usize>`: an optional `+`, then at least one digit. -/
def parseUsize : List Char → Option ℕ
  | [] | ['+'] => none
  | '+' :: cs => parseDigits 0 cs
  | cs => parseDigits 0 cs

def parseArrayIndex (segment : List Char) : Option ℕ :=
  if segment.isEmpty || (decide (1 < segment.length) && segment.head? == some '0') then none
  else parseUsize segment

/-- Follow the segments from a value. -/
def resolveSegments (pointer : String) : List (List Char) → Value → Except ConditionError Value
  | [], current => .ok current
  | encoded :: rest, current =>
      let segment := unescapePointerSegment encoded
      match current with
      | .object members =>
          match members.find? (fun m => m.1.toList = segment) with
          | some m => resolveSegments pointer rest m.2
          | none => .error (.missingPointer pointer)
      | .array values =>
          match (parseArrayIndex segment).bind (values[·]?) with
          | some v => resolveSegments pointer rest v
          | none => .error (.missingPointer pointer)
      | _ => .error (.missingPointer pointer)

def JsonPointer.resolve (pointer : JsonPointer) (body : Value) : Except ConditionError Value :=
  resolveSegments pointer.text (pointerSegments pointer.text) body

def CheckTest.validate : CheckTest → Except ConditionError Unit
  | .integerRange minimum maximum =>
      if minimum ≤ maximum then .ok () else .error (.invalidRange minimum maximum)
  | _ => .ok ()

/-- A condition on the body of an observation. -/
structure ObservationCheck where
  pointer : JsonPointer
  test : CheckTest
  valid : test.validate = .ok ()
deriving DecidableEq

def evaluateTest (pointer : String) (value : Value) (test : CheckTest) :
    Except ConditionError Unit :=
  match test with
  | .boolean expected =>
      match value.asBool with
      | none => .error (.wrongType pointer "boolean" value.jsonType)
      | some actual => if actual = expected then .ok () else .error (.mismatch pointer test value)
  | .integerRange minimum maximum =>
      match value.asI64 with
      | none => .error (.wrongType pointer "integer" value.jsonType)
      | some actual =>
          if minimum ≤ actual ∧ actual ≤ maximum then .ok ()
          else .error (.mismatch pointer test value)
  | .textEquals expected =>
      match value.asStr with
      | none => .error (.wrongType pointer "string" value.jsonType)
      | some actual => if actual = expected then .ok () else .error (.mismatch pointer test value)
  | .artifactDigestEquals expected =>
      match value.asStr with
      | none => .error (.wrongType pointer "string" value.jsonType)
      | some actual =>
          match ArtifactDigest.tryFrom actual with
          | .ok digest => if digest = expected then .ok () else .error (.mismatch pointer test value)
          | .error _ => .error (.mismatch pointer test value)

/-- Every check holds of the observation; the first failure is reported. -/
def evaluateChecks (observation : Observation) : List ObservationCheck → Except ConditionError Unit
  | [] => .ok ()
  | check :: checks => do
      let value ← check.pointer.resolve observation.body
      evaluateTest check.pointer.text value check.test
      evaluateChecks observation checks

/-- The value that the check points at passes its test. -/
def ObservationCheck.Holds (check : ObservationCheck) (observation : Observation) : Prop :=
  ∃ value, check.pointer.resolve observation.body = .ok value ∧
    evaluateTest check.pointer.text value check.test = .ok ()

theorem evaluateChecks_ok {observation : Observation} {checks : List ObservationCheck} :
    evaluateChecks observation checks = .ok () ↔ ∀ check ∈ checks, check.Holds observation := by
  induction checks with
  | nil => simp [evaluateChecks]
  | cons check checks ih =>
      rw [List.forall_mem_cons, ← ih, ObservationCheck.Holds, evaluateChecks]
      cases check.pointer.resolve observation.body with
      | error e => simp [bind, Except.bind]
      | ok value =>
          simp only [bind, Except.bind, Except.ok.injEq, exists_eq_left']
          cases evaluateTest check.pointer.text value check.test with
          | error e => simp
          | ok u => simp

/-! ### Live interlocks -/

def isReadOnlyObservation : Operation → Bool
  | .instrumentStatus .. | .adcRead .. | .relayRead .. => true
  | _ => false

def validateInterlock (effects : Finset EffectPermission) (observation : Operation)
    (checks : List ObservationCheck) (maximumAgeMilliseconds : UInt64) :
    Except ConditionError Unit :=
  if effects = ∅ then .error .emptyInterlockEffects
  else if checks = [] then .error .emptyInterlockChecks
  else if maximumAgeMilliseconds = 0 then .error .invalidMaximumAge
  else if !isReadOnlyObservation observation then
    .error (.interlockOperationHasEffects observation)
  else .ok ()

/-- A read-only observation that must satisfy its checks shortly before gated effects. -/
structure LiveInterlock where
  effects : Finset EffectPermission
  observation : Operation
  checks : List ObservationCheck
  maximumAgeMilliseconds : UInt64
  valid : validateInterlock effects observation checks maximumAgeMilliseconds = .ok ()
deriving DecidableEq

namespace LiveInterlock

variable (interlock : LiveInterlock)

def validate : Except ConditionError Unit :=
  validateInterlock interlock.effects interlock.observation interlock.checks
    interlock.maximumAgeMilliseconds

/-- The observation of a valid interlock has no effects. -/
theorem observation_effects : interlock.observation.effectPermissions = ∅ := by
  have h := interlock.valid
  unfold validateInterlock at h
  have hr : isReadOnlyObservation interlock.observation = true := by
    split_ifs at h with h1 h2 h3 h4
    simpa using h4
  cases ho : interlock.observation <;> rw [ho] at hr <;> first | rfl | cases hr

end LiveInterlock

def validateInterlockObservation (interlock : LiveInterlock) (operation : Operation)
    (observation : Observation) (ageMilliseconds : UInt64) : Except ConditionError Unit := do
  interlock.validate
  if interlock.observation ≠ operation then
    throw .interlockOperationMismatch
  if interlock.maximumAgeMilliseconds < ageMilliseconds then
    throw (.staleInterlockObservation ageMilliseconds interlock.maximumAgeMilliseconds)
  evaluateChecks observation interlock.checks

theorem validateInterlockObservation_ok {interlock : LiveInterlock} {operation : Operation}
    {observation : Observation} {age : UInt64}
    (h : validateInterlockObservation interlock operation observation age = .ok ()) :
    interlock.observation = operation ∧ age ≤ interlock.maximumAgeMilliseconds ∧
      evaluateChecks observation interlock.checks = .ok () := by
  have hv : interlock.validate = .ok () := interlock.valid
  unfold validateInterlockObservation at h
  rw [hv] at h
  by_cases h1 : interlock.observation = operation
  · by_cases h2 : interlock.maximumAgeMilliseconds < age
    · simp [h1, h2, bind, Except.bind, throw, throwThe, MonadExceptOf.throw] at h
    · refine ⟨h1, UInt64.not_lt.mp h2, ?_⟩
      simpa [h1, h2, bind, Except.bind, pure, Except.pure] using h
  · simp [h1, bind, Except.bind, throw, throwThe, MonadExceptOf.throw] at h

/-! ### Error texts -/

/-- Texts that the standard library and `serde_json` produce. -/
class Formatter where
  /-- `{:?}` of a text. -/
  debugText : String → String
  /-- `{:?}` of an operation. -/
  debugOperation : Operation → String
  /-- The text of a JSON value. -/
  valueText : Value → String

section texts

variable [Formatter]

/-- The text of a value, cut after 160 characters. -/
def renderValue (value : Value) : String :=
  let rendered := Formatter.valueText value
  if rendered.length ≤ 160 then rendered
  else String.ofList (rendered.toList.take 160) ++ "…"

def CheckTest.toString : CheckTest → String
  | .boolean expected => "boolean " ++ (if expected then "true" else "false")
  | .integerRange minimum maximum =>
      "integer in " ++ ToString.toString minimum.toInt ++ "..=" ++ ToString.toString maximum.toInt
  | .textEquals expected => "text " ++ Formatter.debugText expected
  | .artifactDigestEquals expected => "artifact digest " ++ expected.value

def ConditionError.toString : ConditionError → String
  | .invalidPointer pointer reason =>
      "invalid observation JSON Pointer " ++ Formatter.debugText pointer ++ ": " ++ reason
  | .invalidRange minimum maximum =>
      "invalid integer range " ++ ToString.toString minimum.toInt ++ "..=" ++
        ToString.toString maximum.toInt
  | .missingPointer pointer =>
      "observation has no value at JSON Pointer " ++ Formatter.debugText pointer
  | .wrongType pointer expected actual =>
      "observation value at " ++ Formatter.debugText pointer ++ " has type " ++ actual ++
        ", expected " ++ expected
  | .mismatch pointer expected actual =>
      "observation value at " ++ Formatter.debugText pointer ++ " did not satisfy " ++
        expected.toString ++ "; observed " ++ renderValue actual
  | .emptyInterlockEffects => "live interlock must gate at least one effect"
  | .emptyInterlockChecks => "live interlock must contain at least one check"
  | .invalidMaximumAge => "live interlock maximum_age_milliseconds must be positive"
  | .interlockOperationHasEffects operation =>
      "live interlock observation is not read-only: " ++ Formatter.debugOperation operation
  | .interlockOperationMismatch =>
      "live interlock observation operation differs from its declared operation"
  | .staleInterlockObservation actual maximum =>
      "live interlock observation age " ++ ToString.toString actual.toNat ++ "ms exceeds " ++
        ToString.toString maximum.toNat ++ "ms"

end texts

end Cheirismos

import Cheirismos.Ownership

/-! # Publishers follow the rules

Every part of `publish`, `read` and `verify_source` makes legal requests only.  `Ensures` is the
judgement: from this moment, whatever the other threads do, the part ends with `Q` or fails with
`E`.

* What a successful part has found out or done is in its `Q`: `publish` has verified the artifact
  and marked it, `read` returns the stored bytes.
* For reads, `E` is `Blame`: a read of what is there fails only if a system call does.

The rules for `Ensures` follow the parts of a program; facts that others cannot end (`Stays`) or
that nobody ends (`Lasting`) are carried along. -/

namespace Cheirismos.Publishing

open Process Directories Evid

variable [Platform]

/-! ### What the calls end with -/

def Stored (digest : ArtifactDigest) (s : Files) : Prop := ∃ inode, StoredAt digest inode s

def Marked (digest : ArtifactDigest) (source : EvidenceSource) (s : Files) : Prop :=
  ∃ inode, s.entries (markerPath digest source) = some (.file inode)

/-- The artifact is stored and marked. -/
def Provided (digest : ArtifactDigest) (source : EvidenceSource) (s : Files) : Prop :=
  Stored digest s ∧ Marked digest source s

/-- Every system call of the thread went through, in a directory with `P`. -/
def Smooth (P : Files → Prop) (t : ℕ) (past : List (Event (Directories.machine Tampers))) : Prop :=
  ∀ e ∈ past, e.thread = t → e.choice.fault = none ∧ P e.before

/-- The artifact that was read has the stored bytes. -/
def Exact (intact : Bool) (digest : ArtifactDigest) (artifact : VerifiedArtifact) (y : Point) :
    Prop :=
  artifact.digest = digest ∧ (intact = true → ∃ inode, StoredAt digest inode y.state ∧
    y.state.contents inode = artifact.bytes)

/-- A read returns the stored bytes, and it does if its system calls go through. -/
def Reads (intact : Bool) (digest : ArtifactDigest) (P : Files → Prop) (t : ℕ)
    (result : Except EvidenceError VerifiedArtifact) (y : Point) : Prop :=
  (∀ artifact, result = .ok artifact → Exact intact digest artifact y) ∧
    (intact = true → Smooth P t y.past → ∃ artifact, result = .ok artifact)

/-- What holds when a call returns. -/
def Post (intact : Bool) : EvidenceCall → ℕ → EvidenceResult → Point → Prop
  | .publish _ _ bytes source, t, .published (.ok digest), y =>
      digest = Platform.sha256 bytes ∧ Verified t digest y.past ∧ Stored digest y.state ∧
        Marked digest source y.state
  | .publish _ _ _ _, _, .published (.error _), _ => True
  | .read _ digest, t, .artifact result, y => Reads intact digest (Stored digest) t result y
  | .verifySource _ digest source, t, .artifact result, y =>
      Reads intact digest (Provided digest source) t result y
  | _, _, _, _ => False

/-- The discipline of the evidence store. -/
def publication (intact : Bool) (root : String) : (evidence root).Discipline where
  inv := Orderly intact
  legal := Legal
  rely := Rely intact
  post := Post intact

/-! ### The judgement -/

section judgement

variable {α β : Type}

def Ended (Q : α → Point → Prop) (E : Point → Prop) : Except EvidenceError α → Point → Prop
  | .ok a, y => Q a y
  | .error _, y => E y

/-- Thread `t`, running the part for call `q` from the moment, makes legal requests only, and ends
with `Q` or fails with `E`. -/
def Ensures (intact : Bool) (root : String) (q : EvidenceCall) (t : ℕ) (x : Evid α)
    (Q : α → Point → Prop) (E : Point → Prop) (m : Point) : Prop :=
  ((publication intact root).rules q).Holds t x.run (Ended Q E) m

variable {intact : Bool} {root : String} {q : EvidenceCall} {t : ℕ} {m : Point}

/-- The moments that other threads lead to. -/
def Later (intact : Bool) (t : ℕ) (x y : Point) : Prop :=
  (∃ es, y.past = es ++ x.past ∧ ∀ e ∈ es, e.thread ≠ t) ∧ Rely intact t x y

omit [Platform] in
theorem Later.refl (intact : Bool) (t : ℕ) (x : Point) : Later intact t x x :=
  ⟨⟨[], rfl, by simp⟩, .refl _ _ _⟩

omit [Platform] in
theorem Later.trans {x y z : Point} (h : Later intact t x y) (h' : Later intact t y z) :
    Later intact t x z := by
  obtain ⟨⟨es, he, hes⟩, hr⟩ := h
  obtain ⟨⟨es', he', hes'⟩, hr'⟩ := h'
  refine ⟨⟨es' ++ es, by rw [he', he, List.append_assoc], ?_⟩, hr.trans hr'⟩
  intro e h
  rcases List.mem_append.mp h with h | h
  · exact hes' e h
  · exact hes e h

theorem rules_lawful (intact : Bool) (root : String) (q : EvidenceCall) :
    ((publication intact root).rules q).Lawful where
  refl t x := Later.refl intact t x
  trans _ _ _ _ h h' := Later.trans h h'
  keep _ _ _ _ hx hl := legal_orderly hx hl

/-- A fact that the other threads do not end. -/
def Stays (intact : Bool) (t : ℕ) (P : Point → Prop) : Prop :=
  ∀ x y, Later intact t x y → P x → P y

/-- A fact that no legal request of the thread ends either. -/
structure Lasting (intact : Bool) (q : EvidenceCall) (t : ℕ) (P : Point → Prop) : Prop where
  later : Stays intact t P
  step : ∀ x r i, Orderly intact x → Legal q t x r → P x → P (x.step t r i)

/-- A fact that no request of the thread ends which only looks. -/
structure Steady (intact : Bool) (t : ℕ) (P : Point → Prop) : Prop where
  later : Stays intact t P
  look : ∀ x r i, Orderly intact x → Looks r → P x → P (x.step t r i)

namespace Ensures

variable {x : Evid α} {f : α → Evid β} {Q : α → Point → Prop} {Q' : β → Point → Prop}
  {E : Point → Prop}

theorem weaken {Q₁ : α → Point → Prop} {E₁ : Point → Prop} (h : Ensures intact root q t x Q₁ E₁ m)
    (hQ : ∀ a y, Orderly intact y → Q₁ a y → Q a y) (hE : ∀ y, E₁ y → E y) :
    Ensures intact root q t x Q E m := by
  refine Rules.Holds.weaken h ?_
  rintro (e | a) y hy hend
  · exact hE y hend
  · exact hQ a y hy hend

protected theorem pure {a : α} (h : ∀ y, Later intact t m y → Orderly intact y → Q a y) :
    Ensures intact root q t (pure a) Q E m := h

protected theorem throw {e : EvidenceError} (h : ∀ y, Later intact t m y → E y) :
    Ensures intact root q t (throw e : Evid α) Q E m := fun y hy _ => h y hy

protected theorem ask {r : Syscall} {f : Answer r → Evid β}
    (h : ∀ y, Later intact t m y → Orderly intact y → Legal q t y r ∧
      ∀ i, Ensures intact root q t (f (perform r i y.state).1) Q' E (y.step t r i)) :
    Ensures intact root q t (Evid.ask r >>= f) Q' E m := h

protected theorem bind (hm : Orderly intact m) (hE : Stays intact t E)
    (hx : Ensures intact root q t x Q E m)
    (hf : ∀ a y, Orderly intact y → Q a y → Ensures intact root q t (f a) Q' E y) :
    Ensures intact root q t (x >>= f) Q' E m := by
  refine Rules.Holds.bind (rules_lawful intact root q) hm (Rules.Holds.weaken hx ?_)
  rintro (e | a) y hy hend
  · exact fun z hz _ => hE y z hz hend
  · exact hf a y hy hend

theorem lasting {P : Point → Prop} (hP : Lasting intact q t P) (hm : P m)
    (h : Ensures intact root q t x Q E m) :
    Ensures intact root q t x (fun a y => Q a y ∧ P y) (fun y => E y ∧ P y) m := by
  have hfollows := Rules.Holds.follows (E := fun x y => P x → P y)
    (fun _ _ _ h h' hp => h' (h hp)) (fun x y hl _ hp => hP.later x y hl hp)
    (fun x r i hx hl hp => hP.step x r i hx hl hp) h
  refine Rules.Holds.weaken hfollows ?_
  rintro (e | a) y _ ⟨hend, hp⟩
  · exact ⟨hend, hp hm⟩
  · exact ⟨hend, hp hm⟩

/-- One part after the other, with a fact that lasts. -/
theorem seq {P : Point → Prop} (hP : Lasting intact q t P) (hm : Orderly intact m)
    (hE : Stays intact t E) (hp : P m) (hx : Ensures intact root q t x Q E m)
    (hf : ∀ a y, Orderly intact y → Q a y → P y → Ensures intact root q t (f a) Q' E y) :
    Ensures intact root q t (x >>= f) Q' E m := by
  refine .bind hm hE ((lasting hP hp hx).weaken (fun _ _ _ h => h) fun _ h => h.1) ?_
  exact fun a y hy hQ => hf a y hy hQ.1 hQ.2

/-- Return with a fact that lasts. -/
theorem done {a : α} (hP : Lasting intact q t (Q a)) (h : Q a m) :
    Ensures intact root q t (Pure.pure a) Q E m := .pure fun y hy _ => hP.later m y hy h

theorem outcome {E' : Point → Prop} (h : Ensures intact root q t x Q E m) :
    Ensures intact root q t (Evid.outcome x) (Ended Q E) E' m := by
  change ((publication intact root).rules q).Holds t (x.run.bind fun a => .pure (.ok a))
    (Ended (Ended Q E) E') m
  have hmap := @Rules.Holds.map _ _ ((publication intact root).rules q) t _ _
    (Except.ok (ε := EvidenceError) (α := Except EvidenceError α)) x.run (Ended (Ended Q E) E') m
  exact hmap h

end Ensures

/-! ### Lasting facts -/

namespace Lasting

variable {P P' : Point → Prop}

theorem always : Lasting intact q t fun _ => True :=
  ⟨fun _ _ _ _ => trivial, fun _ _ _ _ _ _ => trivial⟩

theorem and (h : Lasting intact q t P) (h' : Lasting intact q t P') :
    Lasting intact q t fun y => P y ∧ P' y where
  later x y hxy := fun ⟨hp, hp'⟩ => ⟨h.later x y hxy hp, h'.later x y hxy hp'⟩
  step x r i hx hl := fun ⟨hp, hp'⟩ => ⟨h.step x r i hx hl hp, h'.step x r i hx hl hp'⟩

/-- What names other than temporary ones, and the bytes behind them, decide. -/
theorem kept {F : Files → Prop} (hF : ∀ s s', Keeps intact s s' → F s → F s') :
    Lasting intact q t fun y => F y.state where
  later _ _ hxy h := hF _ _ hxy.2.kept h
  step _ _ _ hx hl h := hF _ _ (legal_keeps hx hl).mono h

theorem named {path : Path} {node : Node} (hp : ¬ Temporary path) :
    Lasting intact q t fun y => y.state.entries path = some node :=
  .kept (F := fun s => s.entries path = some node) fun _ _ hk h => hk.entries path node h hp

theorem verified {digest : ArtifactDigest} :
    Lasting intact q t fun y => Verified t digest y.past where
  later _ _ hxy h := h.mono hxy.2.past
  step _ _ _ _ _ h := h.mono (List.subset_cons_self _ _)

theorem drawn {p s : ℕ} : Lasting intact q t fun y => Drawn t p s y where
  later _ _ hxy h := hxy.2.drawn p s h
  step _ _ _ _ _ h := h.step

end Lasting

/-- What excuses a failure: a system call of the thread failed by itself or found a directory
without `P`, or the bytes may have been tampered with. -/
structure Excuse (intact : Bool) (P : Files → Prop) (t : ℕ) (E : Point → Prop) : Prop where
  stays : Stays intact t E
  failed : ∀ (x : Point) (e : Event (Directories.machine Tampers)), e ∈ x.past → e.thread = t →
    (e.choice.fault ≠ none ∨ ¬ P e.before) → E x
  tampered : intact = false → ∀ x, E x

/-- The thread has met a system call that failed by itself, or a directory without `P`. -/
def Blame (intact : Bool) (P : Files → Prop) (t : ℕ) (y : Point) : Prop :=
  ¬ (intact = true ∧ Smooth P t y.past)

omit [Platform] in
theorem Excuse.blame (intact : Bool) (P : Files → Prop) (t : ℕ) :
    Excuse intact P t (Blame intact P t) where
  stays x y hxy hblame := fun ⟨hi, hsmooth⟩ =>
    hblame ⟨hi, fun e he ht => hsmooth e (hxy.2.past he) ht⟩
  failed x e he ht hbad := fun ⟨_, hsmooth⟩ => by
    obtain ⟨hfault, hp⟩ := hsmooth e he ht
    rcases hbad with hbad | hbad
    · exact hbad hfault
    · exact hbad hp
  tampered hi _ := fun ⟨hi', _⟩ => by
    rw [hi] at hi'
    cases hi'

omit [Platform] in
theorem Excuse.any (intact : Bool) (P : Files → Prop) (t : ℕ) :
    Excuse intact P t fun _ => True :=
  ⟨fun _ _ _ h => h, fun _ _ _ _ _ => trivial, fun _ _ => trivial⟩

end judgement

end Cheirismos.Publishing

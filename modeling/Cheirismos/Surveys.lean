import Cheirismos.Histories

/-! # Rules for the supervisor's programs

Judgements about an operation that thread `t` runs from a moment `m`, while other threads act
within the discipline.

* `Surveys t m x P`: the operation only reads, so it ends `Onward` of `m`, and a value it
  returns satisfies `P`.
* `Yields G t m x Q`: every request is legal and obeys the guard `G`, and the operation ends
  with `Q`.  A guard is anything that is to be shown of the requests of one call; reading is
  always allowed.
* `Ensures G t m x P`: the same, where only the value of a success matters.

All compose along `bind`, and a surveying operation may come first in the others (`after`).
What a survey has learnt stays: the store only evolves, and the requests made since a moment
(`since`) only become more. -/

namespace Cheirismos

open Process

variable [Platform]

/-! ### Moments and what happened since -/

/-- The requests made between the moments, newest first. -/
def since (m y : Moment machine) : List (Event machine) :=
  y.past.take (y.past.length - m.past.length)

theorem since_eq {m y : Moment machine} {l : List (Event machine)} (h : y.past = l ++ m.past) :
    since m y = l := by
  unfold since
  rw [h, List.length_append, Nat.add_sub_cancel]
  exact List.take_left

/-- `y` comes after `m`, and thread `t` has only read in between. -/
structure Onward (t : ℕ) (m y : Moment machine) : Prop where
  past : y.past = since m y ++ m.past
  quiet : ∀ e ∈ since m y, e.thread = t → Quiet e.request
  rely : Rely t m y

namespace Onward

variable {t : ℕ} {m y z : Moment machine}

theorem of_events {l : List (Event machine)} (hp : y.past = l ++ m.past)
    (hq : ∀ e ∈ l, e.thread = t → Quiet e.request) (hr : Rely t m y) : Onward t m y := by
  obtain rfl := since_eq hp
  exact ⟨hp, hq, hr⟩

theorem refl (t : ℕ) (m : Moment machine) : Onward t m m :=
  of_events (List.nil_append _).symm (by simp) (.refl t m)

theorem since_trans (h : Onward t m y) (h' : Onward t y z) :
    since m z = since y z ++ since m y := by
  refine since_eq ?_
  rw [List.append_assoc, ← h.past, ← h'.past]

theorem trans (h : Onward t m y) (h' : Onward t y z) : Onward t m z := by
  refine of_events (l := since y z ++ since m y) ?_ ?_ (h.rely.trans h'.rely)
  · rw [List.append_assoc, ← h.past, ← h'.past]
  · intro e he
    rcases List.mem_append.mp he with he | he
    · exact h'.quiet e he
    · exact h.quiet e he

theorem of_later (h : discipline.Later t m y) : Onward t m y := by
  obtain ⟨⟨es, hp, hes⟩, hr⟩ := h
  exact of_events hp (fun e he ht => absurd ht (hes e he)) hr

theorem of_quiet {r : Request} (hq : Quiet r) (i : Choice) : Onward t m (m.step t r i) := by
  refine of_events (l := [⟨t, r, i, m.state⟩]) rfl ?_ ?_
  · intro e he _
    obtain rfl := List.mem_singleton.mp he
    exact hq
  · exact .of_store_eq (List.suffix_cons _ _) (hq.store_eq i m.state)

section facts

variable (h : Onward t m y)

include h

theorem evolves : Evolves m.state.store y.state.store := h.rely.evolves

theorem plan {plan : ReviewedPlan} (hp : plan ∈ m.state.store.plans) :
    plan ∈ y.state.store.plans := h.evolves.plans plan hp

theorem profile {profile : CommissionedProfile} (hp : profile ∈ m.state.store.profiles) :
    profile ∈ y.state.store.profiles := h.evolves.profiles profile hp

/-- What happened up to the first moment also happened up to the second. -/
theorem since_left (h' : Onward t y z) {e : Event machine} (he : e ∈ since m y) :
    e ∈ since m z := by
  rw [h.since_trans h']
  exact List.mem_append_right _ he

/-- What happened from a later moment happened from the earlier one. -/
theorem since_right (h' : Onward t y z) {e : Event machine} (he : e ∈ since y z) :
    e ∈ since m z := by
  rw [h.since_trans h']
  exact List.mem_append_left _ he

end facts

end Onward

/-- A reading request is legal at any time. -/
theorem Quiet.legal {r : Request} (h : Quiet r) (t : ℕ) (x : Moment machine) : Legal t x r := by
  cases r with
  | store call =>
      have hr : call.reads = true := h
      cases call <;> first | exact trivial | cases hr
  | execute dispatch => exact h.elim
  | reconcile request reconciliation => exact h.elim
  | _ => exact trivial

/-! ### Reading -/

variable {t : ℕ} {m : Moment machine} {α β : Type}

theorem guarded_lawful (guard : ℕ → Moment machine → Request → Prop) :
    (discipline.guarded guard).Lawful := discipline_stable.guarded_lawful guard

/-- The operation only reads, and a value that it returns satisfies `P`. -/
def Surveys (t : ℕ) (m : Moment machine) (x : Sup α) (P : α → Moment machine → Prop) : Prop :=
  (discipline.guarded fun _ _ r => Quiet r).Holds t (ExceptT.run x)
    (fun r y => Onward t m y ∧ ∀ a, r = Except.ok a → P a y) m

/-- The request was made and answered with `v` between the moments. -/
def Asked (t : ℕ) (m : Moment machine) (r : Request) (v : Answer r) (z : Moment machine) : Prop :=
  ∃ y i, discipline.Inv y ∧ Onward t m y ∧ Onward t y z ∧
    (⟨t, r, i, y.state⟩ : Event machine) ∈ since y z ∧ v = (perform r i y.state).1

/-- The call read the store at some moment in between. -/
def Looked (t : ℕ) (m : Moment machine) (q : StoreCall) (output : q.Output)
    (z : Moment machine) : Prop :=
  ∃ y clock, discipline.Inv y ∧ Onward t m y ∧ Onward t y z ∧
    q.transact clock y.state.store = .ok (output, y.state.store)

namespace Surveys

variable {x : Sup α} {f : α → Sup β} {P : α → Moment machine → Prop}
  {Q : β → Moment machine → Prop}

protected theorem pure {a : α} (h : ∀ y, discipline.Inv y → Onward t m y → P a y) :
    Surveys t m (pure a) P := by
  intro y hy hi
  have ho := Onward.of_later hy
  refine ⟨ho, fun b hb => ?_⟩
  cases hb
  exact h y hi ho

protected theorem throw {e : SupervisorError} : Surveys t m (throw e : Sup α) P := by
  intro y hy _
  exact ⟨.of_later hy, fun b hb => by cases hb⟩

protected theorem weaken {P' : α → Moment machine → Prop} (h : Surveys t m x P)
    (hP : ∀ a y, discipline.Inv y → Onward t m y → P a y → P' a y) : Surveys t m x P' :=
  Rules.Holds.weaken h fun _ y hy hr => ⟨hr.1, fun a ha => hP a y hy hr.1 (hr.2 a ha)⟩

protected theorem bind (hm : discipline.Inv m) (hx : Surveys t m x P)
    (hf : ∀ a y, discipline.Inv y → Onward t m y → P a y → Surveys t y (f a) Q) :
    Surveys t m (x >>= f) Q := by
  refine Rules.Holds.bind (guarded_lawful _) hm (Rules.Holds.weaken hx ?_)
  rintro (e | a) y hy ⟨ho, hP⟩
  · intro z hz _
    exact ⟨ho.trans (.of_later hz), fun b hb => by cases hb⟩
  · exact Rules.Holds.weaken (hf a y hy ho (hP a rfl)) fun _ z _ hr => ⟨ho.trans hr.1, hr.2⟩

/-- A reading request. -/
protected theorem ask {r : Request} (hq : Quiet r) :
    Surveys t m (Sup.ask r) (Asked t m r) := by
  intro y hy hi
  refine ⟨⟨hq.legal t y, hq⟩, fun i z hz _ => ?_⟩
  have hmy := Onward.of_later hy
  have hstep : Onward t y (y.step t r i) := .of_quiet hq i
  have hrest := Onward.of_later hz
  refine ⟨hmy.trans (hstep.trans hrest), fun a ha => ?_⟩
  cases ha
  refine ⟨y, i, hi, hmy, hstep.trans hrest, hstep.since_left hrest ?_, rfl⟩
  rw [since_eq (m := y) (y := y.step t r i) (l := [⟨t, r, i, y.state⟩]) rfl]
  exact List.mem_singleton_self _

/-- A reading store call. -/
protected theorem store {q : StoreCall} (hq : q.reads = true) (hm : discipline.Inv m) :
    Surveys t m (Sup.store q) (Looked t m q) := by
  refine Surveys.bind hm (Surveys.ask (r := .store q) hq) ?_
  rintro (e | output) y hy hmy ⟨x, i, hx, h₁, h₂, _, hv⟩
  · exact .throw
  · refine .pure fun z _ hz => ⟨x, i.clock, hx, h₁, h₂.trans hz, ?_⟩
    have hok := performStore_ok (i := i) (s := x.state.store) hv.symm
    rwa [StoreCall.performStore_reads hq i x.state.store] at hok

/-- A result that is already there. -/
protected theorem check {result : Except SupervisorError α}
    (h : ∀ a, result = .ok a → ∀ y, discipline.Inv y → Onward t m y → P a y) :
    Surveys t m (Sup.check result) P := by
  intro y hy hi
  exact ⟨.of_later hy, fun a ha => h a ha y hi (.of_later hy)⟩

protected theorem refuse {bad : Prop} [Decidable bad] {e : SupervisorError} :
    Surveys t m (Sup.refuse bad e) (fun _ _ => ¬ bad) :=
  .check fun _ h _ _ _ => deny_ok.mp h

protected theorem required {value : Option α} {e : SupervisorError} :
    Surveys t m (Sup.required value e) (fun a _ => value = some a) := by
  cases value with
  | none => exact .throw
  | some a => exact .pure fun _ _ _ => rfl

protected theorem outcome (hm : discipline.Inv m) (hx : Surveys t m x P) :
    Surveys t m (Sup.outcome x)
      (fun r y => ∃ z, Onward t m z ∧ Onward t z y ∧ ∀ a, r = .ok a → P a z) := by
  refine Rules.Holds.bind (guarded_lawful _) hm (Rules.Holds.weaken hx ?_)
  rintro r y hy ⟨ho, hP⟩ z hz _
  refine ⟨ho.trans (.of_later hz), fun r' hr' => ⟨y, ho, .of_later hz, fun a ha => ?_⟩⟩
  cases hr'
  exact hP a ha

end Surveys

/-! ### Yielding -/

/-- What is to be shown of the requests of one call, beyond being legal. -/
structure Guard where
  allows : ℕ → Moment machine → Request → Prop
  quiet : ∀ t x r, Quiet r → allows t x r

/-- Nothing more to be shown. -/
def Guard.free : Guard := ⟨fun _ _ _ => True, fun _ _ _ _ => trivial⟩

/-- The request leaves the store as it is, and calls no device. -/
def Harmless (x : Moment machine) (r : Request) : Prop :=
  Quiet r ∨ ∃ q, r = .store q ∧ ∀ i, (performStore q i x.state.store).2 = x.state.store

def Guard.harmless : Guard := ⟨fun _ x r => Harmless x r, fun _ _ _ h => Or.inl h⟩

/-- Every request of the operation is legal and obeys the guard, and it ends with `Q`. -/
def Yields (G : Guard) (t : ℕ) (m : Moment machine) (x : Sup α)
    (Q : Except SupervisorError α → Moment machine → Prop) : Prop :=
  (discipline.guarded G.allows).Holds t (ExceptT.run x) Q m

namespace Yields

variable {G : Guard} {x : Sup α} {f : α → Sup β} {P : α → Moment machine → Prop}
  {R : Except SupervisorError α → Moment machine → Prop}
  {Q : Except SupervisorError β → Moment machine → Prop}

/-- A survey makes no request that the guard does not allow. -/
theorem of_surveys (h : Surveys t m x P)
    (hQ : ∀ r y, discipline.Inv y → Onward t m y → (∀ a, r = .ok a → P a y) → R r y) :
    Yields G t m x R := by
  have hallowed : ∀ y r, discipline.Inv y →
      (discipline.guarded fun _ _ r => Quiet r).legal t y r →
      (discipline.guarded G.allows).legal t y r := fun y r _ hl => ⟨hl.1, G.quiet t y r hl.2⟩
  have hrelax : (discipline.guarded G.allows).Holds t (ExceptT.run x)
      (fun r y => Onward t m y ∧ ∀ a, r = .ok a → P a y) m :=
    @Rules.Holds.relax _ machine (discipline.guarded fun _ _ r => Quiet r) t _
      (discipline.guarded G.allows) rfl rfl hallowed _ _ _ h
  exact Rules.Holds.weaken hrelax fun r y hy hr => hQ r y hy hr.1 hr.2

protected theorem pure {a : α} (h : ∀ y, discipline.Inv y → Onward t m y → R (.ok a) y) :
    Yields G t m (pure a) R := fun y hy hi => h y hi (.of_later hy)

protected theorem throw {e : SupervisorError}
    (h : ∀ y, discipline.Inv y → Onward t m y → R (.error e) y) :
    Yields G t m (throw e : Sup α) R := fun y hy hi => h y hi (.of_later hy)

protected theorem weaken {R' : Except SupervisorError α → Moment machine → Prop}
    (h : Yields G t m x R) (hR : ∀ r y, discipline.Inv y → R r y → R' r y) : Yields G t m x R' :=
  Rules.Holds.weaken h hR

protected theorem bind (hm : discipline.Inv m) (hx : Yields G t m x R)
    (herr : ∀ e y z, discipline.Inv z → R (.error e) y → Onward t y z → Q (.error e) z)
    (hf : ∀ a y, discipline.Inv y → R (.ok a) y → Yields G t y (f a) Q) :
    Yields G t m (x >>= f) Q := by
  refine Rules.Holds.bind (guarded_lawful _) hm (Rules.Holds.weaken hx ?_)
  rintro (e | a) y hy hR
  · exact fun z hz hi => herr e y z hi hR (.of_later hz)
  · exact hf a y hy hR

/-- First look around, then act on what was seen. -/
theorem after (hm : discipline.Inv m) (hx : Surveys t m x P)
    (herr : ∀ e y, discipline.Inv y → Onward t m y → Q (.error e) y)
    (hf : ∀ a y, discipline.Inv y → Onward t m y → P a y → Yields G t y (f a) Q) :
    Yields G t m (x >>= f) Q := by
  refine Yields.bind (R := fun r y => Onward t m y ∧ ∀ a, r = .ok a → P a y) hm
    (.of_surveys hx fun r y _ ho hP => ⟨ho, hP⟩) ?_ ?_
  · exact fun e y z hz ho hyz => herr e z hz (ho.1.trans hyz)
  · exact fun a y hy ho => hf a y hy ho.1 (ho.2 a rfl)

/-- A request; the rest of the operation starts right after it. -/
protected theorem ask {r : Request} {f : Answer r → Sup β}
    (hl : ∀ y, discipline.Inv y → Onward t m y → Legal t y r ∧ G.allows t y r)
    (hf : ∀ y i, discipline.Inv y → Onward t m y → discipline.Inv (y.step t r i) →
      Yields G t (y.step t r i) (f (perform r i y.state).1) Q) :
    Yields G t m (Sup.ask r >>= f) Q := by
  intro y hy hi
  have ho := Onward.of_later hy
  have hlegal := hl y hi ho
  exact ⟨hlegal, fun i => hf y i hi ho ((guarded_lawful _).keep t y r i hi hlegal)⟩

/-- A store call; the rest of the operation starts right after it, if it succeeded. -/
theorem call {q : StoreCall} {f : q.Output → Sup β}
    (hl : ∀ y, discipline.Inv y → Onward t m y →
      Legal t y (.store q) ∧ G.allows t y (.store q))
    (herr : ∀ y i e z, discipline.Inv y → Onward t m y → discipline.Inv z →
      (performStore q i y.state.store).1 = .error e →
      Onward t (y.step t (.store q) i) z → Q (.error (.store e)) z)
    (hf : ∀ y i output, discipline.Inv y → Onward t m y →
      discipline.Inv (y.step t (.store q) i) →
      (performStore q i y.state.store).1 = .ok output →
      Yields G t (y.step t (.store q) i) (f output) Q) :
    Yields G t m (Sup.store q >>= f) Q := by
  intro y hy hi
  have ho := Onward.of_later hy
  have hlegal := hl y hi ho
  refine ⟨hlegal, fun i => ?_⟩
  have hstep := (guarded_lawful G.allows).keep t y _ i hi hlegal
  cases hr : (performStore q i y.state.store).1 with
  | error e =>
      rw [show (perform (.store q) i y.state).1 = Except.error e from hr]
      exact fun z hz hzi => herr y i e z hi ho hzi hr (.of_later hz)
  | ok output =>
      rw [show (perform (.store q) i y.state).1 = Except.ok output from hr]
      exact hf y i output hi ho hstep hr

/-- A store call at the end of an operation. -/
protected theorem store {q : StoreCall}
    {Q : Except SupervisorError q.Output → Moment machine → Prop}
    (hl : ∀ y, discipline.Inv y → Onward t m y →
      Legal t y (.store q) ∧ G.allows t y (.store q))
    (herr : ∀ y i e z, discipline.Inv y → Onward t m y → discipline.Inv z →
      (performStore q i y.state.store).1 = .error e →
      Onward t (y.step t (.store q) i) z → Q (.error (.store e)) z)
    (hok : ∀ y i output z, discipline.Inv y → Onward t m y → discipline.Inv z →
      (performStore q i y.state.store).1 = .ok output →
      Onward t (y.step t (.store q) i) z → Q (.ok output) z) :
    Yields G t m (Sup.store q) Q := by
  intro y hy hi
  have ho := Onward.of_later hy
  refine ⟨hl y hi ho, fun i => ?_⟩
  cases hr : (performStore q i y.state.store).1 with
  | error e =>
      rw [show (perform (.store q) i y.state).1 = Except.error e from hr]
      exact fun z hz hzi => herr y i e z hi ho hzi hr (.of_later hz)
  | ok output =>
      rw [show (perform (.store q) i y.state).1 = Except.ok output from hr]
      exact fun z hz hzi => hok y i output z hi ho hzi hr (.of_later hz)

end Yields

/-! ### What a call has done -/

/-- A postcondition of success alone. -/
def Oks (P : α → Moment machine → Prop) (r : Except SupervisorError α) (y : Moment machine) :
    Prop := ∀ a, r = .ok a → P a y

namespace Oks

variable {P : α → Moment machine → Prop} {y : Moment machine}

theorem error {e : SupervisorError} : Oks P (.error e) y := fun _ h => by cases h

theorem ok {a : α} (h : P a y) : Oks P (.ok a) y := by
  rintro b hb
  cases hb
  exact h

end Oks

/-- The thread made the call between the moments and got `output`; before and after it has only
read. -/
def Called (t : ℕ) (m : Moment machine) (q : StoreCall) (output : q.Output)
    (z : Moment machine) : Prop :=
  ∃ x i, discipline.Inv x ∧ Onward t m x ∧ Legal t x (.store q) ∧
    (performStore q i x.state.store).1 = .ok output ∧
    Onward t (x.step t (.store q) i) z

/-- The request was a store call that failed. -/
def Failed (e : Event machine) : Prop :=
  ∃ q error, e.request = .store q ∧ (performStore q e.choice e.before.store).1 = .error error

theorem Failed.store_eq {e : Event machine} (h : Failed e) : e.after.store = e.before.store := by
  obtain ⟨q, error, hr, herr⟩ := h
  unfold Event.after
  rw [hr]
  exact performStore_error herr

/-- No request of the thread between the moments has changed the store: each only read, or
failed. -/
def Unchanged (t : ℕ) (m y : Moment machine) : Prop :=
  ∀ e ∈ since m y, e.thread = t → Quiet e.request ∨ Failed e

theorem Onward.unchanged {y : Moment machine} (h : Onward t m y) : Unchanged t m y :=
  fun e he ht => Or.inl (h.quiet e he ht)

theorem Unchanged.store_eq {y : Moment machine} (h : Unchanged t m y) {e : Event machine}
    (he : e ∈ since m y) (ht : e.thread = t) : e.after.store = e.before.store :=
  (h e he ht).elim (fun hq => hq.store_eq e.choice e.before) Failed.store_eq

/-- What happened since a moment, up to a later one and from there on. -/
theorem since_trans {x z : Moment machine} (hmx : m.past <:+ x.past) (hxz : x.past <:+ z.past) :
    since m z = since x z ++ since m x := by
  obtain ⟨l, hl⟩ := hmx
  obtain ⟨l', hl'⟩ := hxz
  rw [since_eq hl.symm, since_eq hl'.symm]
  refine since_eq ?_
  rw [List.append_assoc, hl, hl']

theorem Unchanged.later {x z : Moment machine} (h : Unchanged t m x) (hmx : m.past <:+ x.past)
    (hxz : Onward t x z) : Unchanged t m z := by
  intro e he ht
  rw [since_trans hmx hxz.rely.past, List.mem_append] at he
  exact he.elim (fun he => hxz.unchanged e he ht) fun he => h e he ht

/-- What happened up to a request, the request, and what happened since. -/
theorem since_step {x z : Moment machine} {r : Request} {i : Choice} (hmx : Onward t m x)
    (hz : Onward t (x.step t r i) z) :
    since m z = since (x.step t r i) z ++ ⟨t, r, i, x.state⟩ :: since m x := by
  refine since_eq ?_
  have h₁ := hz.past
  have h₂ := hmx.past
  rw [h₁, show (x.step t r i).past = ⟨t, r, i, x.state⟩ :: x.past from rfl, List.append_assoc,
    List.cons_append, ← h₂]

/-- A failed call has changed nothing. -/
theorem Unchanged.of_failure {x z : Moment machine} {q : StoreCall} {i : Choice}
    {e : StoreError} (hmx : Onward t m x) (hz : Onward t (x.step t (.store q) i) z)
    (he : (performStore q i x.state.store).1 = .error e) : Unchanged t m z := by
  intro ev hev ht
  rw [since_step hmx hz, List.mem_append, List.mem_cons] at hev
  rcases hev with hev | rfl | hev
  · exact hz.unchanged ev hev ht
  · exact Or.inr ⟨q, e, rfl, he⟩
  · exact hmx.unchanged ev hev ht

/-- Of the requests of the thread between the moments only those in `P` may have changed the
store. -/
def Leaves (P : Request → Prop) (t : ℕ) (m y : Moment machine) : Prop :=
  ∀ e ∈ since m y, e.thread = t → P e.request ∨ e.after.store = e.before.store

namespace Leaves

variable {P : Request → Prop} {x y z : Moment machine}

theorem of_onward (h : Onward t m y) : Leaves P t m y :=
  fun e he ht => Or.inr ((h.quiet e he ht).store_eq e.choice e.before)

theorem trans (h : Leaves P t m x) (h' : Leaves P t x z) (hmx : m.past <:+ x.past)
    (hxz : x.past <:+ z.past) : Leaves P t m z := by
  intro e he ht
  rw [since_trans hmx hxz, List.mem_append] at he
  exact he.elim (fun he => h' e he ht) fun he => h e he ht

/-- One request, and reading before and after it. -/
theorem step {r : Request} {i : Choice} (hmx : Onward t m x) (hz : Onward t (x.step t r i) z)
    (hr : P r ∨ (perform r i x.state).2.store = x.state.store) : Leaves P t m z := by
  intro e he ht
  rw [since_step hmx hz, List.mem_append, List.mem_cons] at he
  rcases he with he | rfl | he
  · exact of_onward hz e he ht
  · exact hr
  · exact of_onward hmx e he ht

end Leaves

namespace Yields

variable {G : Guard} {f : α → Sup β} {Q : Except SupervisorError β → Moment machine → Prop}

/-- A result that is already there. -/
theorem checked {result : Except SupervisorError α} (hm : discipline.Inv m)
    (herr : ∀ e y, result = .error e → discipline.Inv y → Onward t m y → Q (.error e) y)
    (hok : ∀ a y, result = .ok a → discipline.Inv y → Onward t m y → Yields G t y (f a) Q) :
    Yields G t m (Sup.check result >>= f) Q := by
  cases result with
  | error e => exact fun y hy hi => herr e y rfl hi (.of_later hy)
  | ok a => exact hok a m rfl hm (.refl t m)

theorem refused {bad : Prop} [Decidable bad] {e : SupervisorError} {f : Unit → Sup β}
    (hm : discipline.Inv m)
    (herr : ∀ y, discipline.Inv y → Onward t m y → Q (.error e) y)
    (hok : ∀ y, ¬ bad → discipline.Inv y → Onward t m y → Yields G t y (f ()) Q) :
    Yields G t m (Sup.refuse bad e >>= f) Q := by
  refine .checked hm (fun e' y he => ?_) fun _ y h => hok y (deny_ok.mp h)
  obtain rfl := deny_error he
  exact herr y

/-- Reading the store. -/
theorem reading {q : StoreCall} {f : q.Output → Sup β} (hq : q.reads = true)
    (herr : ∀ e y, discipline.Inv y → Onward t m y → Q (.error (.store e)) y)
    (hok : ∀ x i output, discipline.Inv x → Onward t m x →
      q.transact i.clock x.state.store = .ok (output, x.state.store) →
      discipline.Inv (x.step t (.store q) i) →
      Onward t x (x.step t (.store q) i) → Yields G t (x.step t (.store q) i) (f output) Q) :
    Yields G t m (Sup.store q >>= f) Q := by
  have hquiet : Quiet (.store q) := hq
  refine .call (fun y _ _ => ⟨hquiet.legal t y, G.quiet t y _ hquiet⟩) ?_ ?_
  · intro y i e z _ ho hz _ hyz
    exact herr e z hz (ho.trans ((Onward.of_quiet hquiet i).trans hyz))
  · intro y i output hy ho hstep hok'
    refine hok y i output hy ho ?_ hstep (.of_quiet hquiet i)
    have h := performStore_ok (i := i) hok'
    rwa [StoreCall.performStore_reads hq i y.state.store] at h

/-- The leaves of a program say more about how it can end. -/
theorem ends {x : Sup α} {R : Except SupervisorError α → Moment machine → Prop}
    {E : Except SupervisorError α → Prop} (h : Yields G t m x R)
    (hE : (ExceptT.run x).Ends E) : Yields G t m x (fun r y => R r y ∧ E r) :=
  Rules.Holds.ends h hE

end Yields

/-! ### Ensuring -/

/-- `y` comes after `m`. -/
structure Follows (m y : Moment machine) : Prop where
  past : m.past <:+ y.past
  evolves : Evolves m.state.store y.state.store

namespace Follows

variable {y z : Moment machine}

theorem trans (h : Follows m y) (h' : Follows y z) : Follows m z :=
  ⟨h.past.trans h'.past, h.evolves.trans h'.evolves⟩

theorem of_onward (h : Onward t m y) : Follows m y := ⟨h.rely.past, h.rely.evolves⟩

/-- A legal request leads on. -/
theorem step {r : Request} (hm : discipline.Inv m) (hl : Legal t m r) (i : Choice) :
    Follows m (m.step t r i) :=
  ⟨List.suffix_cons _ _, Sanctioned.evolves hm (Or.inl hl) i⟩

theorem orderly (h : Follows m y) (ho : Orderly y.past) : Orderly m.past :=
  ho.of_subset fun _ he => h.past.subset he

end Follows

/-- Whatever an operation does, it ends after its start. -/
theorem Yields.follows {G : Guard} {x : Sup α}
    {R : Except SupervisorError α → Moment machine → Prop} (h : Yields G t m x R) :
    Yields G t m x (fun r y => R r y ∧ Follows m y) := by
  have htrans : ∀ a b c : Moment machine, Follows a b → Follows b c → Follows a c :=
    fun _ _ _ => .trans
  have hlater : ∀ a b, (discipline.guarded G.allows).later t a b →
      (discipline.guarded G.allows).inv b → Follows a b := fun _ _ hl _ => .of_onward (.of_later hl)
  have hstep : ∀ a r i, (discipline.guarded G.allows).inv a →
      (discipline.guarded G.allows).legal t a r → Follows a (a.step t r i) :=
    fun _ _ i ha hl => .step ha hl.1 i
  exact @Rules.Holds.follows _ machine (discipline.guarded G.allows) t _ Follows htrans hlater hstep
    _ R m h

/-- The operation makes legal requests that obey the guard, and a value that it returns satisfies
`P`. -/
def Ensures (G : Guard) (t : ℕ) (m : Moment machine) (x : Sup α)
    (P : α → Moment machine → Prop) : Prop := Yields G t m x (Oks P)

namespace Ensures

variable {G : Guard} {x : Sup α} {f : α → Sup β} {P : α → Moment machine → Prop}
  {Q : β → Moment machine → Prop}

theorem of_surveys (h : Surveys t m x P) : Ensures G t m x P :=
  Yields.of_surveys h fun _ _ _ _ hP a ha => hP a ha

protected theorem pure {a : α} (h : ∀ y, discipline.Inv y → Onward t m y → P a y) :
    Ensures G t m (pure a) P := Yields.pure fun y hy ho => .ok (h y hy ho)

protected theorem throw {e : SupervisorError} : Ensures G t m (throw e : Sup α) P :=
  Yields.throw fun _ _ _ => .error

protected theorem weaken {P' : α → Moment machine → Prop} (h : Ensures G t m x P)
    (hP : ∀ a y, discipline.Inv y → P a y → P' a y) : Ensures G t m x P' :=
  Yields.weaken h fun _ y hy hr a ha => hP a y hy (hr a ha)

protected theorem bind (hm : discipline.Inv m) (hx : Ensures G t m x P)
    (hf : ∀ a y, discipline.Inv y → Follows m y → P a y → Ensures G t y (f a) Q) :
    Ensures G t m (x >>= f) Q := by
  refine Yields.bind hm (Yields.follows hx) (fun _ _ _ _ _ _ => .error) fun a y hy hr => ?_
  exact hf a y hy hr.2 (hr.1 a rfl)

/-- A success also ends after the start. -/
theorem along (h : Ensures G t m x P) : Ensures G t m x (fun a z => P a z ∧ Follows m z) :=
  Yields.weaken (Yields.follows h) fun _ _ _ hr a ha => ⟨hr.1 a ha, hr.2⟩

/-- First look around, then act on what was seen. -/
theorem after (hm : discipline.Inv m) (hx : Surveys t m x P)
    (hf : ∀ a y, discipline.Inv y → Onward t m y → P a y → Ensures G t y (f a) Q) :
    Ensures G t m (x >>= f) Q := Yields.after hm hx (fun _ _ _ _ => .error) hf

/-- A result that is already there. -/
theorem checked {result : Except SupervisorError α} (hm : discipline.Inv m)
    (hok : ∀ a y, result = .ok a → discipline.Inv y → Onward t m y → Ensures G t y (f a) Q) :
    Ensures G t m (Sup.check result >>= f) Q :=
  Yields.checked hm (fun _ _ _ _ _ => .error) hok

theorem refused {bad : Prop} [Decidable bad] {e : SupervisorError} {f : Unit → Sup β}
    (hm : discipline.Inv m)
    (hok : ∀ y, ¬ bad → discipline.Inv y → Onward t m y → Ensures G t y (f ()) Q) :
    Ensures G t m (Sup.refuse bad e >>= f) Q :=
  Yields.refused hm (fun _ _ _ => .error) hok

/-- A request; the rest of the operation starts right after it. -/
protected theorem ask {r : Request} {f : Answer r → Sup β}
    (hl : ∀ y, discipline.Inv y → Onward t m y → Legal t y r ∧ G.allows t y r)
    (hf : ∀ y i, discipline.Inv y → Onward t m y → discipline.Inv (y.step t r i) →
      Ensures G t (y.step t r i) (f (perform r i y.state).1) Q) :
    Ensures G t m (Sup.ask r >>= f) Q := Yields.ask hl hf

/-- A store call; the rest of the operation starts right after it, if it succeeded. -/
theorem call {q : StoreCall} {f : q.Output → Sup β}
    (hl : ∀ y, discipline.Inv y → Onward t m y →
      Legal t y (.store q) ∧ G.allows t y (.store q))
    (hf : ∀ y i output, discipline.Inv y → Onward t m y →
      discipline.Inv (y.step t (.store q) i) →
      (performStore q i y.state.store).1 = .ok output →
      Ensures G t (y.step t (.store q) i) (f output) Q) :
    Ensures G t m (Sup.store q >>= f) Q :=
  Yields.call hl (fun _ _ _ _ _ _ _ _ _ => .error) hf

/-- A store call at the end of an operation. -/
protected theorem store {q : StoreCall} {Q : q.Output → Moment machine → Prop}
    (hl : ∀ y, discipline.Inv y → Onward t m y →
      Legal t y (.store q) ∧ G.allows t y (.store q))
    (hok : ∀ y i output z, discipline.Inv y → Onward t m y → discipline.Inv z →
      (performStore q i y.state.store).1 = .ok output →
      Onward t (y.step t (.store q) i) z → Q output z) :
    Ensures G t m (Sup.store q) Q :=
  Yields.store hl (fun _ _ _ _ _ _ _ _ _ => .error)
    fun y i output z hy ho hz hr hyz => .ok (hok y i output z hy ho hz hr hyz)

/-- Reading the store. -/
theorem reading {q : StoreCall} {f : q.Output → Sup β} (hq : q.reads = true)
    (hok : ∀ x i output, discipline.Inv x → Onward t m x →
      q.transact i.clock x.state.store = .ok (output, x.state.store) →
      discipline.Inv (x.step t (.store q) i) →
      Onward t x (x.step t (.store q) i) → Ensures G t (x.step t (.store q) i) (f output) Q) :
    Ensures G t m (Sup.store q >>= f) Q := Yields.reading hq (fun _ _ _ _ => .error) hok

/-- A result that is already there leaves the thread where it is. -/
theorem here {r : Except SupervisorError α} (hok : ∀ a, r = .ok a → Ensures G t m (f a) Q) :
    Ensures G t m (Sup.check r >>= f) Q := by
  cases r with
  | error e => exact fun _ _ _ => .error
  | ok a => exact hok a rfl

/-- A store call that is the next request of its thread. -/
theorem next {q : StoreCall}
    (hl : ∀ y, discipline.Inv y → discipline.Later t m y →
      Legal t y (.store q) ∧ G.allows t y (.store q)) :
    Ensures G t m (Sup.store q) (fun _ _ => True) := by
  intro y hy hi
  refine ⟨hl y hi hy, fun i => ?_⟩
  cases hr : (performStore q i y.state.store).1 with
  | error e =>
      rw [show (perform (.store q) i y.state).1 = Except.error e from hr]
      exact fun _ _ _ => .error
  | ok output =>
      rw [show (perform (.store q) i y.state).1 = Except.ok output from hr]
      exact fun _ _ _ => .ok trivial

end Ensures

/-- Of three operations in a row the last two may be taken together. -/
theorem Sup.bind_assoc {α β γ : Type} (x : Sup α) (g : α → Sup β) (f : β → Sup γ) :
    (x >>= g) >>= f = x >>= fun a => g a >>= f := by
  have hcont : ∀ r, (ExceptT.bindCont g r).bind (ExceptT.bindCont f) =
      ExceptT.bindCont (fun a => g a >>= f) r := by
    rintro (e | a) <;> rfl
  exact (Program.bind_assoc _ _ _).trans (congrArg (Program.bind x) (funext hcont))

/-- Both branches go on in the same way. -/
theorem ite_bind {α β : Type} {c : Prop} [Decidable c] (x y : Sup α) (f : α → Sup β) :
    (if c then x >>= f else y >>= f) = (if c then x else y) >>= f := by
  split_ifs <;> rfl

end Cheirismos

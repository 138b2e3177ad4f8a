import Cheirismos.Process
import Mathlib.Order.Nat

/-! # Rely-guarantee reasoning for services

Proof rules for the concurrent services of `Process`.

A program is checked under `Rules`: an invariant of moments, the requests a thread may make at
a moment (`legal`), and the moments that other threads can lead to (`later`).
`Rules.Holds t p Q x` says that thread `t`, running `p` from moment `x` while the others move
within `later`, only makes legal requests and ends in a moment that satisfies `Q`.  It is
closed under `later` (`Holds.mono`) and composes along `bind` (`Holds.bind`), and the end comes
after the start in every preorder that contains the moves (`Holds.follows`).

A `Discipline` packages what has to be shown of a service: a good-state predicate, what every
recorded request satisfies when it is made (`sanctioned`), and for each thread what it may
rely on.  `Chronicle` is the invariant of the history: every recorded request was sanctioned
at a good moment, and between two records only the environment moves.  `Discipline.sound`
says that in every reachable configuration the history is a chronicle, so that a statement
about every recorded request is a statement about `sanctioned` (`Chronicle.recorded`), and a
preorder kept by each sanctioned request orders the whole history (`Chronicle.follows`), and an
invariant of histories that each sanctioned request keeps holds (`Chronicle.invariant`). -/

namespace Process

variable {F : Interface} {M : Machine F}

/-- What a program is checked under. -/
structure Rules (M : Machine F) where
  inv : Moment M → Prop
  later : ℕ → Moment M → Moment M → Prop
  legal : ℕ → Moment M → F.Request → Prop

namespace Rules

variable (R : Rules M)

structure Lawful : Prop where
  refl : ∀ t x, R.later t x x
  trans : ∀ t x y z, R.later t x y → R.later t y z → R.later t x z
  keep : ∀ t x r i, R.inv x → R.legal t x r → R.inv (x.step t r i)

/-- Thread `t`, running the program from the moment, makes legal requests only and ends with
the postcondition, whatever the other threads do within `later`. -/
def Holds (t : ℕ) {α : Type} : Program F α → (α → Moment M → Prop) → Moment M → Prop
  | .pure a, Q, x => ∀ y, R.later t x y → R.inv y → Q a y
  | .ask r k, Q, x => ∀ y, R.later t x y → R.inv y → R.legal t y r ∧
      ∀ i, Holds t (k (M.perform r i y.state).1) Q (y.step t r i)

variable {R} {t : ℕ} {α β : Type}

theorem Holds.mono (hR : R.Lawful) {p : Program F α} {Q : α → Moment M → Prop} {x y : Moment M}
    (h : R.Holds t p Q x) (hxy : R.later t x y) : R.Holds t p Q y := by
  cases p with
  | pure a => exact fun z hz hi => h z (hR.trans t x y z hxy hz) hi
  | ask r k => exact fun z hz hi => h z (hR.trans t x y z hxy hz) hi

theorem Holds.weaken {p : Program F α} {Q Q' : α → Moment M → Prop}
    {x : Moment M} (h : R.Holds t p Q x) (hQ : ∀ a y, R.inv y → Q a y → Q' a y) :
    R.Holds t p Q' x := by
  induction p generalizing x with
  | pure a => exact fun y hy hi => hQ a y hi (h y hy hi)
  | ask r k ih => exact fun y hy hi => ⟨(h y hy hi).1, fun i => ih _ ((h y hy hi).2 i)⟩

/-- What holds under strict rules holds under laxer ones. -/
theorem Holds.relax {R' : Rules M} (hinv : R'.inv = R.inv) (hlater : R'.later = R.later)
    (hlegal : ∀ x r, R.inv x → R.legal t x r → R'.legal t x r) {p : Program F α}
    {Q : α → Moment M → Prop} {x : Moment M} (h : R.Holds t p Q x) : R'.Holds t p Q x := by
  induction p generalizing x with
  | pure a =>
      intro y hy hi
      rw [hlater] at hy
      rw [hinv] at hi
      exact h y hy hi
  | ask r k ih =>
      intro y hy hi
      rw [hlater] at hy
      rw [hinv] at hi
      obtain ⟨hl, hk⟩ := h y hy hi
      exact ⟨hlegal y r hi hl, fun i => ih _ (hk i)⟩

/-- A program also ends as all its leaves do. -/
theorem Holds.ends {p : Program F α} {Q : α → Moment M → Prop} {E : α → Prop} {x : Moment M}
    (h : R.Holds t p Q x) (hE : p.Ends E) : R.Holds t p (fun a y => Q a y ∧ E a) x := by
  induction p generalizing x with
  | pure a => exact fun y hy hi => ⟨h y hy hi, hE⟩
  | ask r k ih => exact fun y hy hi => ⟨(h y hy hi).1, fun i => ih _ ((h y hy hi).2 i) (hE _)⟩

/-- The end comes after the start in every preorder that contains what the others do and the legal
requests. -/
theorem Holds.follows {E : Moment M → Moment M → Prop}
    (htrans : ∀ x y z, E x y → E y z → E x z) (hlater : ∀ x y, R.later t x y → R.inv y → E x y)
    (hstep : ∀ x r i, R.inv x → R.legal t x r → E x (x.step t r i)) {p : Program F α}
    {Q : α → Moment M → Prop} {x : Moment M} (h : R.Holds t p Q x) :
    R.Holds t p (fun a y => Q a y ∧ E x y) x := by
  have key : ∀ (p : Program F α) (y : Moment M), (∀ z, E y z → E x z) → R.Holds t p Q y →
      R.Holds t p (fun a z => Q a z ∧ E x z) y := by
    intro p
    induction p with
    | pure a => exact fun y hy h z hz hi => ⟨h z hz hi, hy z (hlater y z hz hi)⟩
    | ask r k ih =>
        intro y hy h z hz hi
        obtain ⟨hl, hk⟩ := h z hz hi
        refine ⟨hl, fun i => ih _ _ (fun w hw => ?_) (hk i)⟩
        exact hy w (htrans y z w (hlater y z hz hi) (htrans z _ w (hstep z r i hi hl) hw))
  exact key p x (fun _ hz => hz) h

theorem Holds.bind (hR : R.Lawful) {p : Program F α} {f : α → Program F β}
    {Q : β → Moment M → Prop} {x : Moment M} (hx : R.inv x)
    (h : R.Holds t p (fun a y => R.Holds t (f a) Q y) x) : R.Holds t (p.bind f) Q x := by
  induction p generalizing x with
  | pure a => exact h x (hR.refl t x) hx
  | ask r k ih =>
      intro y hy hi
      obtain ⟨hl, hk⟩ := h y hy hi
      exact ⟨hl, fun i => ih _ (hR.keep t y r i hi hl) (hk i)⟩

/-- A program whose value is renamed. -/
theorem Holds.map {g : α → β} {p : Program F α} {Q : β → Moment M → Prop} {x : Moment M}
    (h : R.Holds t p (fun a y => Q (g a) y) x) : R.Holds t (p.bind fun a => .pure (g a)) Q x := by
  induction p generalizing x with
  | pure a => exact h
  | ask r k ih => exact fun y hy hi => ⟨(h y hy hi).1, fun i => ih _ ((h y hy hi).2 i)⟩

end Rules

/-! ### Histories -/

/-- Moves of the environment alone. -/
def Drift (M : Machine F) : M.State → M.State → Prop := Relation.ReflTransGen M.environment

/-- Every recorded request was sanctioned at a good moment, and only the environment moved
between two records. -/
def Chronicle (good : M.State → Prop) (sanctioned : ℕ → Moment M → F.Request → Prop) :
    List (Event M) → M.State → Prop
  | [], s => Drift M M.initial s ∧ good s
  | e :: h, s => good s ∧ Drift M e.after s ∧ sanctioned e.thread ⟨h, e.before⟩ e.request ∧
      Chronicle good sanctioned h e.before

/-- Of two recorded requests one was made before the other, or they are the same. -/
theorem suffix_trichotomy {α : Type} {a b : α} {l l' h : List α} (ha : (a :: l) <:+ h)
    (hb : (b :: l') <:+ h) : (a = b ∧ l = l') ∨ (a :: l) <:+ l' ∨ (b :: l') <:+ l := by
  rcases List.suffix_or_suffix_of_suffix ha hb with hs | hs <;>
    rcases List.suffix_cons_iff.mp hs with heq | hlt
  · exact Or.inl (List.cons.inj heq)
  · exact Or.inr (Or.inl hlt)
  · obtain ⟨h1, h2⟩ := List.cons.inj heq
    exact Or.inl ⟨h1.symm, h2.symm⟩
  · exact Or.inr (Or.inr hlt)

theorem exists_suffix_of_mem {α : Type} {a : α} {l : List α} (h : a ∈ l) :
    ∃ rest, (a :: rest) <:+ l := by
  obtain ⟨es, rest, rfl⟩ := List.append_of_mem h
  exact ⟨rest, List.suffix_append _ _⟩

/-- What lies above a part of a list is in the rest. -/
theorem mem_of_suffix_append {α : Type} {a : α} {l es base : List α} (ha : (a :: l) <:+ es ++ base)
    (hb : base <:+ l) : a ∈ es := by
  induction es with
  | nil =>
      have h₁ := ha.length_le
      have h₂ := hb.length_le
      simp only [List.nil_append, List.length_cons] at h₁
      omega
  | cons e es ih =>
      rcases List.suffix_cons_iff.mp ha with heq | hsuf
      · rw [(List.cons.inj heq).1]
        exact List.mem_cons_self
      · exact List.mem_cons_of_mem e (ih hsuf)

/-- At most one recorded request satisfies `P`. -/
def Once (P : Event M → Prop) (h : List (Event M)) : Prop :=
  ∀ e older, (e :: older) <:+ h → P e → ∀ e' ∈ older, ¬ P e'

/-- Requests that are made under a claim happen once, if claims are unique and whoever holds
one makes no second such request. -/
theorem Once.of_claims {P : Event M → Prop} (Claim : Event M → List (Event M) → Prop)
    {h : List (Event M)}
    (hclaim : ∀ e older, (e :: older) <:+ h → P e → ∃ es c base, older = es ++ c :: base ∧
      Claim c base ∧ c.thread = e.thread ∧ ∀ e' ∈ es, e'.thread = e.thread → ¬ P e')
    (hunique : ∀ c base c' base', (c :: base) <:+ h → (c' :: base') <:+ h → Claim c base →
      Claim c' base' → c = c' ∧ base = base') : Once P h := by
  intro e older he hp e' he' hp'
  obtain ⟨older', hsuf⟩ := exists_suffix_of_mem he'
  have holder : older <:+ h := (List.suffix_cons e older).trans he
  obtain ⟨es, c, base, rfl, hc, ht, hquiet⟩ := hclaim e older he hp
  obtain ⟨es', c', base', rfl, hc', ht', _⟩ := hclaim e' older' (hsuf.trans holder) hp'
  have hbase : (c :: base) <:+ h := (List.suffix_append es _).trans holder
  have hbase' : (c' :: base') <:+ h :=
    (List.suffix_append es' _).trans ((List.suffix_cons e' _).trans (hsuf.trans holder))
  obtain ⟨rfl, rfl⟩ := hunique _ _ _ _ hbase hbase' hc hc'
  have hmem := mem_of_suffix_append hsuf (List.suffix_append es' _)
  exact hquiet e' hmem (ht'.symm.trans ht) hp'

namespace Chronicle

variable {good : M.State → Prop} {sanctioned : ℕ → Moment M → F.Request → Prop}
  {h : List (Event M)} {s : M.State}

theorem good_now (hc : Chronicle good sanctioned h s) : good s := by
  cases h with
  | nil => exact hc.2
  | cons e h => exact hc.1

theorem drift (henv : ∀ s s', good s → M.environment s s' → good s')
    (hc : Chronicle good sanctioned h s) {s' : M.State} (hs : M.environment s s') :
    Chronicle good sanctioned h s' := by
  cases h with
  | nil => exact ⟨hc.1.tail hs, henv s s' hc.2 hs⟩
  | cons e h => exact ⟨henv s s' hc.1 hs, hc.2.1.tail hs, hc.2.2⟩

/-- What the chronicle says of one recorded request. -/
theorem recorded {e : Event M} {older : List (Event M)} (hc : Chronicle good sanctioned h s)
    (he : (e :: older) <:+ h) :
    sanctioned e.thread ⟨older, e.before⟩ e.request ∧ Chronicle good sanctioned older e.before := by
  induction h generalizing s with
  | nil => cases List.suffix_nil.mp he
  | cons e' h ih =>
      rcases List.suffix_cons_iff.mp he with heq | hsuf
      · obtain ⟨rfl, rfl⟩ := List.cons.inj heq
        exact hc.2.2
      · exact ih hc.2.2.2 hsuf

theorem drift_of_moves {E : M.State → M.State → Prop} (hrefl : ∀ s, E s s)
    (htrans : ∀ a b c, E a b → E b c → E a c) (henv : ∀ a b, M.environment a b → E a b)
    {a b : M.State} (hd : Drift M a b) : E a b := by
  induction hd with
  | refl => exact hrefl a
  | tail _ hs ih => exact htrans _ _ _ ih (henv _ _ hs)

/-- A preorder that contains each sanctioned request and each move of the environment contains
the step from any recorded request to the present.  That a request is in the preorder may be
shown from what the preorder says of the history before it. -/
theorem follows {E : M.State → M.State → Prop} (hrefl : ∀ s, E s s)
    (htrans : ∀ a b c, E a b → E b c → E a c)
    (hact : ∀ (e : Event M) older, Chronicle good sanctioned older e.before →
      (∀ e₀ older₀, (e₀ :: older₀) <:+ older → E e₀.after e.before) →
      sanctioned e.thread ⟨older, e.before⟩ e.request → E e.before e.after)
    (henv : ∀ a b, M.environment a b → E a b)
    (hc : Chronicle good sanctioned h s) {e : Event M} {older : List (Event M)}
    (he : (e :: older) <:+ h) : E e.after s := by
  induction h generalizing s e older with
  | nil => cases List.suffix_nil.mp he
  | cons e' h ih =>
      obtain ⟨_, hd, hsan, hrest⟩ := hc
      have hdrift := drift_of_moves hrefl htrans henv hd
      rcases List.suffix_cons_iff.mp he with heq | hsuf
      · obtain ⟨rfl, rfl⟩ := List.cons.inj heq
        exact hdrift
      · have hlast := hact e' h hrest (fun e₀ older₀ h₀ => ih hrest h₀) hsan
        exact htrans _ _ _ (ih hrest hsuf) (htrans _ _ _ hlast hdrift)

/-- An invariant of histories: it holds of the empty one, survives moves of the environment,
and is kept by each sanctioned request. -/
theorem invariant {P : List (Event M) → M.State → Prop} (h₀ : P [] M.initial)
    (henv : ∀ h a b, P h a → M.environment a b → P h b)
    (hact : ∀ (e : Event M) older, Chronicle good sanctioned older e.before →
      P older e.before → sanctioned e.thread ⟨older, e.before⟩ e.request →
      P (e :: older) e.after)
    (hc : Chronicle good sanctioned h s) : P h s := by
  have hdrift : ∀ h a b, Drift M a b → P h a → P h b := by
    intro h a b hd hp
    induction hd with
    | refl => exact hp
    | tail _ hs ih => exact henv _ _ _ ih hs
  induction h generalizing s with
  | nil => exact hdrift _ _ _ hc.1 h₀
  | cons e h ih =>
      obtain ⟨_, hd, hsan, hrest⟩ := hc
      exact hdrift _ _ _ hd (hact e h hrest (ih hrest) hsan)

end Chronicle

/-! ### Disciplines -/

/-- What is to be shown of a service. -/
structure Discipline (S : Service M) where
  good : M.State → Prop
  sanctioned : ℕ → Moment M → F.Request → Prop
  legal : ℕ → Moment M → F.Request → Prop
  bootLegal : ℕ → Moment M → F.Request → Prop
  rely : ℕ → Moment M → Moment M → Prop
  post : S.Result → Moment M → Prop
  booted : Moment M → Prop

namespace Discipline

variable {S : Service M} (D : Discipline S)

/-- The invariant of moments. -/
def Inv (x : Moment M) : Prop := Chronicle D.good D.sanctioned x.past x.state

/-- The others have moved: their requests are on top of the history, and the thread's rely
condition holds. -/
def Later (t : ℕ) (x y : Moment M) : Prop :=
  (∃ es, y.past = es ++ x.past ∧ ∀ e ∈ es, e.thread ≠ t) ∧ D.rely t x y

/-- The rules of the calls, with more to be shown of every request. -/
def guarded (guard : ℕ → Moment M → F.Request → Prop) : Rules M :=
  ⟨D.Inv, D.Later, fun t x r => D.legal t x r ∧ guard t x r⟩

/-- The rules of the calls. -/
def serving : Rules M := D.guarded fun _ _ _ => True

/-- The rules of the boot program, which runs alone. -/
def booting : Rules M :=
  ⟨D.Inv, fun _ x y => y.past = x.past ∧ Drift M x.state y.state, D.bootLegal⟩

structure Stable : Prop where
  refl : ∀ t x, D.rely t x x
  trans : ∀ t x y z, D.rely t x y → D.rely t y z → D.rely t x z
  initial : D.good M.initial
  environment : ∀ s s', D.good s → M.environment s s' → D.good s'
  environment_rely : ∀ t x s', D.Inv x → M.environment x.state s' → D.rely t x ⟨x.past, s'⟩
  environment_post : ∀ a x s', D.Inv x → M.environment x.state s' → D.post a x →
    D.post a ⟨x.past, s'⟩
  legal_sanctioned : ∀ t x r, D.Inv x → D.legal t x r → D.sanctioned t x r
  boot_sanctioned : ∀ t x r, D.Inv x → D.bootLegal t x r → D.sanctioned t x r
  keep : ∀ t x r i, D.Inv x → D.sanctioned t x r → D.good (M.perform r i x.state).2
  guarantee : ∀ t u x r i, D.Inv x → D.legal t x r → u ≠ t → D.rely u x (x.step t r i)
  post_stable : ∀ t a x r i, D.Inv x → D.legal t x r → D.post a x → D.post a (x.step t r i)

/-- A stable discipline that the service's programs follow. -/
structure Sound : Prop extends D.Stable where
  boot : ∀ t x, D.Inv x → D.booting.Holds t S.boot (fun ok y => ok = true → D.booted y) x
  body : ∀ t x q results, D.Inv x → (∀ e ∈ x.past, e.thread ≠ t) → (∀ a ∈ results, D.post a x) →
    S.admits results q → D.serving.Holds t (S.body q) D.post x

variable {D}

theorem Stable.inv_step (hD : D.Stable) {t : ℕ} {x : Moment M} {r : F.Request} (i : M.Choice)
    (hx : D.Inv x) (hr : D.sanctioned t x r) : D.Inv (x.step t r i) :=
  ⟨hD.keep t x r i hx hr, Relation.ReflTransGen.refl, hr, hx⟩

theorem Stable.guarded_lawful (hD : D.Stable) (guard : ℕ → Moment M → F.Request → Prop) :
    (D.guarded guard).Lawful where
  refl t x := ⟨⟨[], rfl, by simp⟩, hD.refl t x⟩
  trans t x y z := by
    rintro ⟨⟨es, he, hes⟩, hxy⟩ ⟨⟨es', he', hes'⟩, hyz⟩
    refine ⟨⟨es' ++ es, by rw [he', he, List.append_assoc], ?_⟩, hD.trans t x y z hxy hyz⟩
    intro e h
    rcases List.mem_append.mp h with h | h
    · exact hes' e h
    · exact hes e h
  keep t x r i hx hl := hD.inv_step i hx (hD.legal_sanctioned t x r hx hl.1)

theorem Stable.serving_lawful (hD : D.Stable) : D.serving.Lawful := hD.guarded_lawful _

theorem Stable.booting_lawful (hD : D.Stable) : D.booting.Lawful where
  refl _ _ := ⟨rfl, Relation.ReflTransGen.refl⟩
  trans _ _ _ _ := fun h₁ h₂ => ⟨h₂.1.trans h₁.1, h₁.2.trans h₂.2⟩
  keep t x r i hx hl := hD.inv_step i hx (hD.boot_sanctioned t x r hx hl)

/-- What holds of every reachable configuration of a service under a sound discipline. -/
structure Ok (D : Discipline S) (c : S.Config) : Prop where
  inv : D.Inv c.moment
  threads : ∀ t p, c.threads t = some p → D.serving.Holds t p D.post c.moment ∧ t < c.next
  results : ∀ a ∈ c.results, D.post a c.moment
  booting : ∀ t p, c.booting = some (t, p) →
    D.booting.Holds t p (fun ok y => ok = true → D.booted y) c.moment ∧ t < c.next ∧
      (∀ u, c.threads u = none) ∧ c.results = []
  fresh : ∀ e ∈ c.history, e.thread < c.next

theorem Sound.start (hD : D.Sound) : Ok D S.start where
  inv := ⟨Relation.ReflTransGen.refl, hD.initial⟩
  threads := by intro t p h; cases h
  results := by intro a h; cases h
  booting := by
    intro t p h
    obtain ⟨rfl, rfl⟩ := Prod.mk.inj (Option.some.inj h)
    refine ⟨hD.boot 0 _ ⟨Relation.ReflTransGen.refl, hD.initial⟩, Nat.zero_lt_one, ?_, rfl⟩
    intro u
    rfl
  fresh := by intro e h; cases h

/-- The program of thread `u` after thread `t` got a new one or ended. -/
theorem live_update {α : Type} {f : ℕ → Option α} {t u : ℕ} {o : Option α} {p : α}
    (h : Function.update f t o u = some p) : (u = t ∧ o = some p) ∨ (u ≠ t ∧ f u = some p) := by
  by_cases e : u = t
  · subst e
    rw [Function.update_self] at h
    exact Or.inl ⟨rfl, h⟩
  · rw [Function.update_of_ne e] at h
    exact Or.inr ⟨e, h⟩

/-- A thread's claim survives a legal request of another thread. -/
theorem Stable.other_step (hD : D.Stable) {t u : ℕ} {x : Moment M} {r : F.Request} (i : M.Choice)
    (hx : D.Inv x) (hl : D.legal t x r) (hut : u ≠ t) : D.Later u x (x.step t r i) :=
  ⟨⟨[⟨t, r, i, x.state⟩], rfl, by simpa using Ne.symm hut⟩, hD.guarantee t u x r i hx hl hut⟩

theorem Sound.step (hD : D.Sound) {c c' : S.Config} (h : Ok D c) (hs : S.Step c c') : Ok D c' := by
  have hlaw := hD.serving_lawful
  cases hs with
  | call q hb hq =>
      have hfresh : ∀ e ∈ c.moment.past, e.thread ≠ c.next := fun e he => ne_of_lt (h.fresh e he)
      refine ⟨h.inv, ?_, h.results, ?_, fun e he => Nat.lt_succ_of_lt (h.fresh e he)⟩
      · intro t p ht
        rcases live_update ht with ⟨rfl, hp⟩ | ⟨_, hp⟩
        · cases hp
          exact ⟨hD.body _ _ q _ h.inv hfresh h.results hq, Nat.lt_succ_self _⟩
        · exact ⟨(h.threads t p hp).1, Nat.lt_succ_of_lt (h.threads t p hp).2⟩
      · intro t p ht
        have : c.booting = some (t, p) := ht
        rw [hb] at this
        cases this
  | @act t r k i ht =>
      obtain ⟨hhold, hlt⟩ := h.threads t _ ht
      obtain ⟨hl, hk⟩ := hhold c.moment (hlaw.refl t _) h.inv
      have hinv : D.Inv (c.moment.step t r i) := hlaw.keep t _ r i h.inv hl
      refine ⟨hinv, ?_, ?_, ?_, ?_⟩
      · intro u p hu
        rcases live_update hu with ⟨rfl, hp⟩ | ⟨e, hp⟩
        · cases hp
          exact ⟨hk i, hlt⟩
        · obtain ⟨h1, h2⟩ := h.threads u p hp
          exact ⟨h1.mono hlaw (hD.other_step i h.inv hl.1 e), h2⟩
      · exact fun a ha => hD.post_stable t a _ r i h.inv hl.1 (h.results a ha)
      · intro u p hu
        have hbu := (h.booting u p hu).2.2.1 t
        rw [ht] at hbu
        cases hbu
      · intro e he
        rcases List.mem_cons.mp he with rfl | he
        · exact hlt
        · exact h.fresh e he
  | @«return» t a ht =>
      obtain ⟨hhold, hlt⟩ := h.threads t _ ht
      refine ⟨h.inv, ?_, ?_, ?_, h.fresh⟩
      · intro u p hu
        rcases live_update hu with ⟨_, hp⟩ | ⟨_, hp⟩
        · cases hp
        · exact h.threads u p hp
      · intro b hb
        rcases List.mem_cons.mp hb with rfl | hb
        · exact hhold c.moment (hlaw.refl t _) h.inv
        · exact h.results b hb
      · intro u p hu
        have hbu := (h.booting u p hu).2.2.1 t
        rw [ht] at hbu
        cases hbu
  | interfere hs =>
      refine ⟨h.inv.drift hD.environment hs, ?_, ?_, ?_, h.fresh⟩
      · intro u p hu
        obtain ⟨h1, h2⟩ := h.threads u p hu
        exact ⟨h1.mono hlaw ⟨⟨[], rfl, by simp⟩, hD.environment_rely u _ _ h.inv hs⟩, h2⟩
      · exact fun a ha => hD.environment_post a _ _ h.inv hs (h.results a ha)
      · intro u p hu
        obtain ⟨h1, h2⟩ := h.booting u p hu
        exact ⟨h1.mono hD.booting_lawful ⟨rfl, Relation.ReflTransGen.single hs⟩, h2⟩
  | crash =>
      refine ⟨h.inv, fun t p ht => (by cases ht), fun a ha => (by cases ha), ?_,
        fun e he => Nat.lt_succ_of_lt (h.fresh e he)⟩
      intro t p ht
      obtain ⟨rfl, rfl⟩ := Prod.mk.inj (Option.some.inj ht)
      exact ⟨hD.boot _ _ h.inv, Nat.lt_succ_self _, fun _ => rfl, rfl⟩
  | @bootAct t r k i hb =>
      obtain ⟨hhold, hlt, hnone, hres⟩ := h.booting t _ hb
      obtain ⟨hl, hk⟩ := hhold c.moment (hD.booting_lawful.refl t _) h.inv
      have hinv : D.Inv (c.moment.step t r i) := hD.booting_lawful.keep t _ r i h.inv hl
      refine ⟨hinv, ?_, ?_, ?_, ?_⟩
      · intro u p hu
        have hu' : c.threads u = some p := hu
        rw [hnone u] at hu'
        cases hu'
      · intro a ha
        have ha' : a ∈ c.results := ha
        rw [hres] at ha'
        cases ha'
      · intro u p hu
        obtain ⟨rfl, rfl⟩ := Prod.mk.inj (Option.some.inj hu)
        exact ⟨hk i, hlt, hnone, hres⟩
      · intro e he
        rcases List.mem_cons.mp he with rfl | he
        · exact hlt
        · exact h.fresh e he
  | booted hb => exact ⟨h.inv, h.threads, h.results, fun t p ht => (by cases ht), h.fresh⟩

/-- In every reachable configuration the history is a chronicle of sanctioned requests. -/
theorem Sound.sound (hD : D.Sound) {c : S.Config} (h : S.Reachable c) : Ok D c :=
  h.induct hD.start (fun _ _ _ hc hs => hD.step hc hs)

/-- Whenever the boot program has ended, `booted` holds. -/
theorem Sound.booted (hD : D.Sound) {c : S.Config} (h : S.Reachable c) {t : ℕ}
    (hb : c.booting = some (t, .pure true)) : D.booted c.moment := by
  have hok := hD.sound h
  exact (hok.booting t _ hb).1 c.moment (hD.booting_lawful.refl t _) hok.inv rfl

/-- What the legal requests of the boot program keep is the same after a restart as before. -/
theorem Sound.restart (hD : D.Sound) {P : M.State → Prop} {c c' : S.Config} (h : S.Reachable c)
    (hP : P c.state) (henv : ∀ a b, P a → M.environment a b → P b)
    (hact : ∀ t x r i, D.Inv x → P x.state → D.bootLegal t x r → P (M.perform r i x.state).2)
    (hr : S.Restart c c') : P c'.state ∧ c'.booting ≠ none := by
  induction hr with
  | refl => exact ⟨hP, by simp [Service.Config.crashed]⟩
  | @tail c₁ c₂ hr hs ih =>
      obtain ⟨hp, hbooting⟩ := ih
      have hreach : S.Reachable c₁ := h.run (Service.Restart.run hr)
      have hok := hD.sound hreach
      have hidle : ∀ t, c₁.threads t = none := by
        obtain ⟨⟨t, p⟩, hb⟩ := Option.ne_none_iff_exists'.mp hbooting
        exact (hok.booting t p hb).2.2.1
      obtain ⟨hstep, hnext⟩ := hs
      refine ⟨?_, hnext⟩
      cases hstep with
      | call q hb hq => exact hp
      | @act t r k i ht =>
          rw [hidle t] at ht
          cases ht
      | «return» ht => exact hp
      | interfere he => exact henv _ _ hp he
      | crash => exact hp
      | @bootAct t r k i hb =>
          have hhold := (hok.booting t _ hb).1
          have hl := (hhold c₁.moment (hD.booting_lawful.refl t _) hok.inv).1
          exact hact t c₁.moment r i hok.inv hp hl
      | booted hb => exact hp

/-! ### Following one call -/

/-- Where one call has got to: it runs under the guard, or it is over, and then what it
returned satisfied the postcondition. -/
structure Followed (D : Discipline S) (guard : ℕ → Moment M → F.Request → Prop)
    (Q : S.Result → Moment M → Prop) (t : ℕ) (past : List (Event M)) (c : S.Config) : Prop where
  suffix : past <:+ c.history
  fresh : t < c.next
  serving : ∀ u p, c.booting = some (u, p) → u ≠ t
  program : ∀ p, c.threads t = some p → (D.guarded guard).Holds t p Q c.moment
  kept : ∀ e older, (e :: older) <:+ c.history → past <:+ older → e.thread = t →
    guard t ⟨older, e.before⟩ e.request

/-- Following one call along a run: every request it makes obeys the guard. -/
theorem Sound.followed (hD : D.Sound) {guard : ℕ → Moment M → F.Request → Prop}
    {Q : S.Result → Moment M → Prop} {t : ℕ} {past : List (Event M)} {c c' : S.Config}
    (h : S.Reachable c) (hf : Followed D guard Q t past c) (hr : S.Run c c') :
    Followed D guard Q t past c' := by
  induction hr with
  | refl => exact hf
  | @tail c₁ c₂ hr hs ih =>
      have h₁ := h.run hr
      have hok := hD.sound h₁
      have hlaw := hD.guarded_lawful guard
      have hrefl := hlaw.refl t c₁.moment
      cases hs with
      | call q hb hq =>
          refine ⟨ih.suffix, Nat.lt_succ_of_lt ih.fresh, ih.serving, fun p hp => ?_, ih.kept⟩
          rcases live_update hp with ⟨he, _⟩ | ⟨_, hp⟩
          · exact absurd ih.fresh (he ▸ lt_irrefl _)
          · exact ih.program p hp
      | @act u r k i hu =>
          by_cases hut : u = t
          · subst hut
            obtain ⟨hl, hk⟩ := ih.program _ hu c₁.moment hrefl hok.inv
            refine ⟨ih.suffix.trans (List.suffix_cons _ _), ih.fresh, ih.serving, fun p hp => ?_, ?_⟩
            · rcases live_update hp with ⟨_, hp⟩ | ⟨hne, _⟩
              · cases hp
                exact hk i
              · exact absurd rfl hne
            · intro e older he hpast ht
              rcases List.suffix_cons_iff.mp he with heq | hsuf
              · obtain ⟨rfl, rfl⟩ := List.cons.inj heq
                exact hl.2
              · exact ih.kept e older hsuf hpast ht
          · have hl := ((hok.threads u _ hu).1 c₁.moment (hD.serving_lawful.refl u _) hok.inv).1
            refine ⟨ih.suffix.trans (List.suffix_cons _ _), ih.fresh, ih.serving, fun p hp => ?_, ?_⟩
            · rcases live_update hp with ⟨he, _⟩ | ⟨_, hp⟩
              · exact absurd he.symm hut
              · exact (ih.program p hp).mono hlaw (hD.other_step i hok.inv hl.1 (Ne.symm hut))
            · intro e older he hpast ht
              rcases List.suffix_cons_iff.mp he with heq | hsuf
              · obtain ⟨rfl, rfl⟩ := List.cons.inj heq
                exact absurd ht hut
              · exact ih.kept e older hsuf hpast ht
      | @«return» u a hu =>
          refine ⟨ih.suffix, ih.fresh, ih.serving, fun p hp => ?_, ih.kept⟩
          rcases live_update hp with ⟨_, hp⟩ | ⟨_, hp⟩
          · cases hp
          · exact ih.program p hp
      | interfere he =>
          refine ⟨ih.suffix, ih.fresh, ih.serving, fun p hp => ?_, ih.kept⟩
          exact (ih.program p hp).mono hlaw
            ⟨⟨[], rfl, by simp⟩, hD.environment_rely t _ _ hok.inv he⟩
      | crash =>
          refine ⟨ih.suffix, Nat.lt_succ_of_lt ih.fresh, fun u p hp => ?_, fun p hp => (by cases hp),
            ih.kept⟩
          obtain ⟨rfl, rfl⟩ := Prod.mk.inj (Option.some.inj hp)
          exact Nat.ne_of_gt ih.fresh
      | @bootAct u r k i hb =>
          obtain ⟨_, hlt, hnone, _⟩ := hok.booting u _ hb
          have hut := ih.serving u _ hb
          refine ⟨ih.suffix.trans (List.suffix_cons _ _), ih.fresh, fun v p hp => ?_, fun p hp => ?_,
            ?_⟩
          · obtain ⟨rfl, rfl⟩ := Prod.mk.inj (Option.some.inj hp)
            exact hut
          · have hp' : c₁.threads t = some p := hp
            rw [hnone t] at hp'
            cases hp'
          · intro e older he hpast ht
            rcases List.suffix_cons_iff.mp he with heq | hsuf
            · obtain ⟨rfl, rfl⟩ := List.cons.inj heq
              exact absurd ht hut
            · exact ih.kept e older hsuf hpast ht
      | booted hb =>
          exact ⟨ih.suffix, ih.fresh, fun u p hp => (by cases hp), ih.program, ih.kept⟩

/-- What is shown of a call's program holds of the requests the call makes in any run, and of
what it returns. -/
theorem Sound.serving (hD : D.Sound) {guard : ℕ → Moment M → F.Request → Prop}
    {Q : S.Result → Moment M → Prop} {c c' : S.Config} {q : S.Call} (h : S.Reachable c)
    (hs : S.Serving c q c') (hbody : (D.guarded guard).Holds c.next (S.body q) Q c.moment) :
    (∀ e older, (e :: older) <:+ c'.history → e.thread = c.next →
      guard c.next ⟨older, e.before⟩ e.request) ∧
    ∀ a, c'.threads c.next = some (.pure a) → Q a c'.moment := by
  have hok := hD.sound h
  have hbegun : S.Reachable (c.begun q) := h.step (.call q hs.up hs.admitted)
  have hstart : Followed D guard Q c.next c.history (c.begun q) := by
    refine ⟨List.suffix_rfl, Nat.lt_succ_self _, fun u p hb => ?_, fun p hp => ?_, ?_⟩
    · have hnone : c.booting = some (u, p) := hb
      rw [hs.up] at hnone
      cases hnone
    · rcases live_update hp with ⟨_, hp⟩ | ⟨hne, _⟩
      · cases hp
        exact hbody
      · exact absurd rfl hne
    · intro e older he hpast _
      have hle := he.length_le
      have hle' := hpast.length_le
      simp only [List.length_cons, Service.Config.begun] at hle
      omega
  have hend := hD.followed hbegun hstart hs.run
  refine ⟨fun e older he ht => ?_, fun a ha => ?_⟩
  · rcases List.suffix_or_suffix_of_suffix he hend.suffix with hin | hpast
    · have hlt := hok.fresh e (hin.subset List.mem_cons_self)
      exact absurd ht (ne_of_lt hlt)
    · rcases List.suffix_cons_iff.mp hpast with heq | hpast
      · have hlt := hok.fresh e (heq ▸ List.mem_cons_self)
        exact absurd ht (ne_of_lt hlt)
      · exact hend.kept e older he hpast ht
  · have hlaw := hD.guarded_lawful guard
    exact hend.program _ ha c'.moment (hlaw.refl _ _) (hD.sound (hbegun.run hs.run)).inv

end Discipline

end Process

import Cheirismos.RelyGuarantee

/-! # Processes that share a machine and crash one by one

`Service` is one process that is restarted as a whole.  A `Crew` is any number of processes that
make calls over one machine, several calls of a process running at the same time.

* **Numbers.** `process q` is the number of the process that makes call `q`.  When a process ends,
  a later one may have its number again; `ended p` is what the end of process `p` does to the state
  (it forgets the memory the calls of the process share).
* **Steps.** `Crew.Step` starts a call, makes one request, hands out a result, or ends a process at
  any moment, which drops the calls it was running and nothing else.
* **Disturbances.** The moves of the machine's environment are kept apart (`Crew.Disturbance`):
  `Crew.Undisturbed` are the configurations of the runs without one, `Crew.Reachable` those of all
  runs.

A `Crew.Discipline` says for each call what its requests have to satisfy (`legal`), what a thread
relies on, and what holds when it returns.  `Sound.undisturbed` and `Sound.reachable` say that a
crew whose programs follow a sound discipline obeys it in every run. -/

namespace Process

variable {F : Interface} {M : Machine F}

/-- Calls that processes make over one machine. -/
structure Crew (M : Machine F) where
  Call : Type
  Result : Type
  process : Call → ℕ
  body : Call → Program F Result
  ended : ℕ → M.State → M.State

namespace Crew

variable (C : Crew M)

/-- The state, the history, the call of every thread so far, the programs of those that run, the
results, and the next unused thread. -/
structure Config where
  state : M.State
  history : List (Event M)
  calls : ℕ → Option C.Call
  threads : ℕ → Option (Program F C.Result)
  results : ℕ → Option C.Result
  next : ℕ

variable {C}

namespace Config

def moment (c : C.Config) : Moment M := ⟨c.history, c.state⟩

/-- A call has been made. -/
def begun (c : C.Config) (q : C.Call) : C.Config :=
  { c with
    calls := Function.update c.calls c.next (some q)
    threads := Function.update c.threads c.next (some (C.body q))
    next := c.next + 1 }

/-- Thread `t` has made request `r`, which was answered under choice `i`. -/
def acted (c : C.Config) (t : ℕ) (r : F.Request) (i : M.Choice)
    (k : F.Answer r → Program F C.Result) : C.Config :=
  { c with
    state := (M.perform r i c.state).2
    history := ⟨t, r, i, c.state⟩ :: c.history
    threads := Function.update c.threads t (some (k (M.perform r i c.state).1)) }

/-- Thread `t` has returned `a`. -/
def returned (c : C.Config) (t : ℕ) (a : C.Result) : C.Config :=
  { c with
    threads := Function.update c.threads t none
    results := Function.update c.results t (some a) }

/-- Process `p` has ended, with all the calls it was running. -/
def crashed (c : C.Config) (p : ℕ) : C.Config :=
  { c with
    state := C.ended p c.state
    threads := fun t => if (c.calls t).map C.process = some p then none else c.threads t }

end Config

variable (C)

def start : C.Config where
  state := M.initial
  history := []
  calls := fun _ => none
  threads := fun _ => none
  results := fun _ => none
  next := 0

/-- The moves of the crew itself. -/
inductive Step : C.Config → C.Config → Prop
  | call {c : C.Config} (q : C.Call) : Step c (c.begun q)
  | act {c : C.Config} {t : ℕ} {r : F.Request} {k : F.Answer r → Program F C.Result}
      (i : M.Choice) : c.threads t = some (.ask r k) → Step c (c.acted t r i k)
  | return {c : C.Config} {t : ℕ} {a : C.Result} : c.threads t = some (.pure a) →
      Step c (c.returned t a)
  | crash {c : C.Config} (p : ℕ) : Step c (c.crashed p)

/-- A move of the environment. -/
def Disturbance (c c' : C.Config) : Prop :=
  M.environment c.state c'.state ∧ c' = { c with state := c'.state }

/-- Any number of moves of the crew. -/
def Run : C.Config → C.Config → Prop := Relation.ReflTransGen C.Step

/-- The configurations of the runs that nothing outside disturbs. -/
def Undisturbed (c : C.Config) : Prop := C.Run C.start c

/-- The configurations of all runs. -/
def Reachable (c : C.Config) : Prop :=
  Relation.ReflTransGen (fun c c' => C.Step c c' ∨ C.Disturbance c c') C.start c

variable {C}

theorem Undisturbed.run {c c' : C.Config} (h : C.Undisturbed c) (hr : C.Run c c') :
    C.Undisturbed c' := Relation.ReflTransGen.trans h hr

theorem Reachable.run {c c' : C.Config} (h : C.Reachable c) (hr : C.Run c c') :
    C.Reachable c' := by
  induction hr with
  | refl => exact h
  | tail _ hs ih => exact Relation.ReflTransGen.tail ih (Or.inl hs)

/-- A run only extends the history. -/
theorem Run.history_suffix {c c' : C.Config} (h : C.Run c c') : c.history <:+ c'.history := by
  induction h with
  | refl => exact List.suffix_rfl
  | tail _ hs ih =>
      refine ih.trans ?_
      cases hs <;> first | exact List.suffix_cons _ _ | exact List.suffix_rfl

/-- A request made during a run was made in a configuration of the run. -/
theorem Run.passes {c c' : C.Config} (h : C.Run c c') {e : Event M} {older : List (Event M)}
    (he : (e :: older) <:+ c'.history) (hnew : c.history <:+ older) :
    ∃ d, C.Run c d ∧ d.history = older ∧ d.state = e.before := by
  induction h with
  | refl =>
      have h₁ := he.length_le
      have h₂ := hnew.length_le
      simp only [List.length_cons] at h₁
      omega
  | @tail d d' hr hs ih =>
      cases hs with
      | call q => exact ih he
      | @act t r k i ht =>
          rcases List.suffix_cons_iff.mp he with heq | hsuf
          · obtain ⟨rfl, rfl⟩ := List.cons.inj heq
            exact ⟨d, hr, rfl, rfl⟩
          · exact ih hsuf
      | «return» ht => exact ih he
      | crash p => exact ih he

/-! ### Playing a run -/

/-- A move that can be carried out. -/
inductive Move (C : Crew M) where
  | call (q : C.Call)
  | act (t : ℕ) (i : M.Choice)
  | return (t : ℕ)
  | crash (p : ℕ)

/-- Carry out one move; a move that is not possible does nothing. -/
def move (c : C.Config) : Move C → C.Config
  | .call q => c.begun q
  | .act t i =>
      match c.threads t with
      | some (.ask r k) => c.acted t r i k
      | _ => c
  | .return t =>
      match c.threads t with
      | some (.pure a) => c.returned t a
      | _ => c
  | .crash p => c.crashed p

/-- Carry out moves one after the other. -/
def play (c : C.Config) (moves : List (Move C)) : C.Config := moves.foldl move c

theorem move_run (c : C.Config) (m : Move C) : C.Run c (move c m) := by
  cases m with
  | call q => exact Relation.ReflTransGen.single (.call q)
  | act t i =>
      rw [move]
      split
      · next hc => exact Relation.ReflTransGen.single (.act i hc)
      · exact Relation.ReflTransGen.refl
  | «return» t =>
      rw [move]
      split
      · next hc => exact Relation.ReflTransGen.single (.return hc)
      · exact Relation.ReflTransGen.refl
  | crash p => exact Relation.ReflTransGen.single (.crash p)

/-- What has been played is a run. -/
theorem play_run (c : C.Config) (moves : List (Move C)) : C.Run c (play c moves) := by
  induction moves generalizing c with
  | nil => exact Relation.ReflTransGen.refl
  | cons m moves ih => exact (move_run c m).trans (ih (move c m))

/-! ### Disciplines -/

variable (C)

/-- What is to be shown of a crew. -/
structure Discipline where
  inv : Moment M → Prop
  legal : C.Call → ℕ → Moment M → F.Request → Prop
  rely : ℕ → Moment M → Moment M → Prop
  post : C.Call → ℕ → C.Result → Moment M → Prop

namespace Discipline

variable {C} (D : C.Discipline)

/-- The others have moved. -/
def Later (t : ℕ) (x y : Moment M) : Prop :=
  (∃ es, y.past = es ++ x.past ∧ ∀ e ∈ es, e.thread ≠ t) ∧ D.rely t x y

/-- The rules that the program of a call is checked under. -/
def rules (q : C.Call) : Rules M := ⟨D.inv, D.Later, D.legal q⟩

/-- Every request that the thread has made was legal for the call. -/
def Kept (q : C.Call) (t : ℕ) (past : List (Event M)) : Prop :=
  ∀ e older, (e :: older) <:+ past → e.thread = t → D.legal q t ⟨older, e.before⟩ e.request

structure Sound : Prop where
  refl : ∀ t x, D.rely t x x
  trans : ∀ t x y z, D.rely t x y → D.rely t y z → D.rely t x z
  initial : D.inv ⟨[], M.initial⟩
  keep : ∀ q t x r i, D.inv x → D.legal q t x r → D.inv (x.step t r i)
  guarantee : ∀ q t u x r i, D.inv x → D.legal q t x r → u ≠ t → D.rely u x (x.step t r i)
  post_stable : ∀ q t u a q' x r i, D.inv x → D.legal q t x r → u ≠ t → D.post q' u a x →
    D.post q' u a (x.step t r i)
  ended : ∀ p x, D.inv x → D.inv ⟨x.past, C.ended p x.state⟩
  ended_rely : ∀ p q t x, D.inv x → D.Kept q t x.past → C.process q ≠ p →
    D.rely t x ⟨x.past, C.ended p x.state⟩
  ended_post : ∀ p q t a x, D.post q t a x → D.post q t a ⟨x.past, C.ended p x.state⟩
  body : ∀ q t x, D.inv x → (∀ e ∈ x.past, e.thread ≠ t) →
    (D.rules q).Holds t (C.body q) (D.post q t) x

/-- The discipline also survives the moves of the environment. -/
structure Robust : Prop extends D.Sound where
  environment : ∀ x s, D.inv x → M.environment x.state s → D.inv ⟨x.past, s⟩
  environment_rely : ∀ t x s, D.inv x → M.environment x.state s → D.rely t x ⟨x.past, s⟩
  environment_post : ∀ q t a x s, D.inv x → M.environment x.state s → D.post q t a x →
    D.post q t a ⟨x.past, s⟩

variable {D}

theorem Sound.lawful (hD : D.Sound) (q : C.Call) : (D.rules q).Lawful where
  refl t x := ⟨⟨[], rfl, by simp⟩, hD.refl t x⟩
  trans t x y z := by
    rintro ⟨⟨es, he, hes⟩, hxy⟩ ⟨⟨es', he', hes'⟩, hyz⟩
    refine ⟨⟨es' ++ es, by rw [he', he, List.append_assoc], ?_⟩, hD.trans t x y z hxy hyz⟩
    intro e h
    rcases List.mem_append.mp h with h | h
    · exact hes' e h
    · exact hes e h
  keep t x r i hx hl := hD.keep q t x r i hx hl

/-- What holds of every configuration of a run under a sound discipline. -/
structure Ok (D : C.Discipline) (c : C.Config) : Prop where
  inv : D.inv c.moment
  threads : ∀ t p, c.threads t = some p → ∃ q, c.calls t = some q ∧
    (D.rules q).Holds t p (D.post q t) c.moment
  results : ∀ t a, c.results t = some a → c.threads t = none ∧ ∃ q, c.calls t = some q ∧
    D.post q t a c.moment
  recorded : ∀ e older, (e :: older) <:+ c.history → D.inv ⟨older, e.before⟩ ∧
    ∃ q, c.calls e.thread = some q ∧ D.legal q e.thread ⟨older, e.before⟩ e.request
  fresh : ∀ t, c.next ≤ t → c.calls t = none ∧ c.results t = none

theorem Ok.kept {c : C.Config} (h : Ok D c) {t : ℕ} {q : C.Call} (hq : c.calls t = some q) :
    D.Kept q t c.history := by
  intro e older he ht
  obtain ⟨_, q', hq', hl⟩ := h.recorded e older he
  rw [ht, hq] at hq'
  cases hq'
  exact ht ▸ hl

theorem Sound.start (hD : D.Sound) : Ok D C.start where
  inv := hD.initial
  threads := by intro t p h; cases h
  results := by intro t a h; cases h
  recorded := by intro e older h; cases List.suffix_nil.mp h
  fresh := fun t _ => ⟨rfl, rfl⟩

/-- The call of a thread that has one stays when another call begins. -/
theorem Ok.begun_calls {c : C.Config} (h : Ok D c) {q q' : C.Call} {t : ℕ}
    (hq : c.calls t = some q) : (c.begun q').calls t = some q := by
  have hne : t ≠ c.next := by
    rintro rfl
    rw [(h.fresh c.next le_rfl).1] at hq
    cases hq
  exact (Function.update_of_ne hne _ _).trans hq

theorem Sound.step (hD : D.Sound) {c c' : C.Config} (h : Ok D c) (hs : C.Step c c') :
    Ok D c' := by
  cases hs with
  | call q =>
      refine ⟨h.inv, ?_, ?_, ?_, ?_⟩
      · intro t p ht
        rcases Process.Discipline.live_update ht with ⟨rfl, hp⟩ | ⟨_, hp⟩
        · cases hp
          refine ⟨q, Function.update_self _ _ _, hD.body q _ _ h.inv fun e he hthread => ?_⟩
          obtain ⟨older, hsuf⟩ := exists_suffix_of_mem he
          obtain ⟨_, q', hq', _⟩ := h.recorded e older hsuf
          rw [hthread, (h.fresh c.next le_rfl).1] at hq'
          cases hq'
        · obtain ⟨q', hq', hhold⟩ := h.threads t p hp
          exact ⟨q', h.begun_calls hq', hhold⟩
      · intro t a ha
        obtain ⟨hnone, q', hq', hpost⟩ := h.results t a ha
        have hne : t ≠ c.next := by
          rintro rfl
          rw [(h.fresh c.next le_rfl).1] at hq'
          cases hq'
        exact ⟨(Function.update_of_ne hne _ _).trans hnone, q', h.begun_calls hq', hpost⟩
      · intro e older he
        obtain ⟨hinv, q', hq', hl⟩ := h.recorded e older he
        exact ⟨hinv, q', h.begun_calls hq', hl⟩
      · intro t ht
        have hlt : c.next < t := ht
        exact ⟨(Function.update_of_ne (ne_of_gt hlt) _ _).trans (h.fresh t hlt.le).1,
          (h.fresh t hlt.le).2⟩
  | @act t r k i ht =>
      obtain ⟨q, hq, hhold⟩ := h.threads t _ ht
      have hlaw := hD.lawful q
      obtain ⟨hl, hk⟩ := hhold c.moment (hlaw.refl t _) h.inv
      have hinv : D.inv (c.moment.step t r i) := hD.keep q t _ r i h.inv hl
      refine ⟨hinv, ?_, ?_, ?_, h.fresh⟩
      · intro u p hu
        rcases Process.Discipline.live_update hu with ⟨rfl, hp⟩ | ⟨hne, hp⟩
        · cases hp
          exact ⟨q, hq, hk i⟩
        · obtain ⟨q', hq', hhold'⟩ := h.threads u p hp
          refine ⟨q', hq', hhold'.mono (hD.lawful q') ⟨⟨[⟨t, r, i, c.state⟩], rfl, ?_⟩, ?_⟩⟩
          · simpa using Ne.symm hne
          · exact hD.guarantee q t u _ r i h.inv hl hne
      · intro u a hu
        obtain ⟨hnone, q', hq', hpost⟩ := h.results u a hu
        have hne : u ≠ t := by
          rintro rfl
          rw [ht] at hnone
          cases hnone
        exact ⟨(Function.update_of_ne hne _ _).trans hnone, q', hq',
          hD.post_stable q t u a q' _ r i h.inv hl hne hpost⟩
      · intro e older he
        rcases List.suffix_cons_iff.mp he with heq | hsuf
        · obtain ⟨rfl, rfl⟩ := List.cons.inj heq
          exact ⟨h.inv, q, hq, hl⟩
        · exact h.recorded e older hsuf
  | @«return» t a ht =>
      obtain ⟨q, hq, hhold⟩ := h.threads t _ ht
      refine ⟨h.inv, ?_, ?_, h.recorded, ?_⟩
      · intro u p hu
        rcases Process.Discipline.live_update hu with ⟨_, hp⟩ | ⟨_, hp⟩
        · cases hp
        · exact h.threads u p hp
      · intro u b hu
        rcases Process.Discipline.live_update hu with ⟨rfl, hb⟩ | ⟨hne, hb⟩
        · cases hb
          exact ⟨Function.update_self _ _ _, q, hq,
            hhold c.moment ((hD.lawful q).refl _ _) h.inv⟩
        · obtain ⟨hnone, hpost⟩ := h.results u b hb
          exact ⟨(Function.update_of_ne hne _ _).trans hnone, hpost⟩
      · intro u hu
        have hne : u ≠ t := by
          rintro rfl
          rw [(h.fresh u hu).1] at hq
          cases hq
        exact ⟨(h.fresh u hu).1, (Function.update_of_ne hne _ _).trans (h.fresh u hu).2⟩
  | crash p =>
      refine ⟨hD.ended p _ h.inv, ?_, ?_, h.recorded, h.fresh⟩
      · intro t program ht
        have hlive : (if (c.calls t).map C.process = some p then none else c.threads t) =
            some program := ht
        split_ifs at hlive with hother
        obtain ⟨q, hq, hhold⟩ := h.threads t program hlive
        rw [hq] at hother
        have hne : C.process q ≠ p := fun heq => hother (congrArg some heq)
        refine ⟨q, hq, hhold.mono (hD.lawful q) ⟨⟨[], rfl, by simp⟩, ?_⟩⟩
        exact hD.ended_rely p q t _ h.inv (h.kept hq) hne
      · intro t a ha
        obtain ⟨hnone, q, hq, hpost⟩ := h.results t a ha
        refine ⟨?_, q, hq, hD.ended_post p q t a _ hpost⟩
        change (if (c.calls t).map C.process = some p then none else c.threads t) = none
        rw [hnone, ite_self]

theorem Sound.run (hD : D.Sound) {c c' : C.Config} (h : Ok D c) (hr : C.Run c c') : Ok D c' := by
  induction hr with
  | refl => exact h
  | tail _ hs ih => exact hD.step ih hs

/-- The call of a thread stays on record. -/
theorem Ok.step_calls {c c' : C.Config} (h : Ok D c) (hs : C.Step c c') {t : ℕ} {q : C.Call}
    (hq : c.calls t = some q) : c'.calls t = some q := by
  cases hs with
  | call q' => exact h.begun_calls hq
  | act i ht => exact hq
  | «return» ht => exact hq
  | crash p => exact hq

theorem Sound.run_calls (hD : D.Sound) {c c' : C.Config} (h : Ok D c) (hr : C.Run c c') {t : ℕ}
    {q : C.Call} (hq : c.calls t = some q) : c'.calls t = some q := by
  induction hr with
  | refl => exact hq
  | tail hr hs ih => exact (hD.run h hr).step_calls hs ih

/-- So does a result. -/
theorem Sound.run_results (hD : D.Sound) {c c' : C.Config} (h : Ok D c) (hr : C.Run c c') {t : ℕ}
    {a : C.Result} (ha : c.results t = some a) : c'.results t = some a := by
  induction hr with
  | refl => exact ha
  | @tail d d' hr hs ih =>
      cases hs with
      | call q => exact ih
      | act i ht => exact ih
      | @«return» u b hu =>
          have hne : t ≠ u := by
            rintro rfl
            rw [((hD.run h hr).results t a ih).1] at hu
            cases hu
          exact (Function.update_of_ne hne _ _).trans ih
      | crash p => exact ih

/-- A thread that did not exist before a run makes its requests in configurations of the run. -/
theorem Ok.passes {c c' : C.Config} (h : Ok D c) (hr : C.Run c c') {e : Event M}
    {older : List (Event M)} (he : (e :: older) <:+ c'.history) (hnew : c.next ≤ e.thread) :
    ∃ d, C.Run c d ∧ d.history = older ∧ d.state = e.before := by
  have hold : ¬ (e :: older) <:+ c.history := by
    intro hsuf
    obtain ⟨_, q, hq, _⟩ := h.recorded e older hsuf
    rw [(h.fresh e.thread hnew).1] at hq
    cases hq
  rcases List.suffix_or_suffix_of_suffix he hr.history_suffix with hsuf | hsuf
  · exact absurd hsuf hold
  · rcases List.suffix_cons_iff.mp hsuf with heq | hsuf
    · exact absurd (heq ▸ List.suffix_rfl) hold
    · exact hr.passes he hsuf

/-- Every configuration of an undisturbed run obeys a sound discipline. -/
theorem Sound.undisturbed (hD : D.Sound) {c : C.Config} (h : C.Undisturbed c) : Ok D c :=
  hD.run hD.start h

theorem Robust.disturbance (hD : D.Robust) {c c' : C.Config} (h : Ok D c)
    (hd : C.Disturbance c c') : Ok D c' := by
  obtain ⟨henv, hsame⟩ := hd
  rw [hsame]
  refine ⟨hD.environment _ _ h.inv henv, ?_, ?_, h.recorded, h.fresh⟩
  · intro t p ht
    obtain ⟨q, hq, hhold⟩ := h.threads t p ht
    exact ⟨q, hq, hhold.mono (hD.lawful q)
      ⟨⟨[], rfl, by simp⟩, hD.environment_rely t _ _ h.inv henv⟩⟩
  · intro t a ha
    obtain ⟨hnone, q, hq, hpost⟩ := h.results t a ha
    exact ⟨hnone, q, hq, hD.environment_post q t a _ _ h.inv henv hpost⟩

/-- Every configuration of any run obeys a robust discipline. -/
theorem Robust.reachable (hD : D.Robust) {c : C.Config} (h : C.Reachable c) : Ok D c := by
  have hrun : Relation.ReflTransGen (fun c c' => C.Step c c' ∨ C.Disturbance c c') C.start c := h
  induction hrun with
  | refl => exact hD.toSound.start
  | tail hr hs ih =>
      rcases hs with hs | hs
      · exact hD.toSound.step (ih hr) hs
      · exact hD.disturbance (ih hr) hs

end Discipline

end Crew

end Process

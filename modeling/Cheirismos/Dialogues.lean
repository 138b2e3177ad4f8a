import Cheirismos.Process
import Mathlib.Algebra.GroupWithZero.Nat

/-! # What a program can do

Runs of one program against surroundings that answer as they like, over an arbitrary interface.

* **Dialogues.** `Program.Runs p tr o` says that `p` can make the exchanges `tr` and then end with
  `o`, or be cut off there (`o = none`).  A program may be cut off at any moment, also while it
  waits for an answer.
* **Actions.** `Action F σ ε α` is a program with a state of its own that may fail; what it did to
  its state before it failed stays done.
* **Rules.** `Action.Meets x s I E Q` says of every run of `x` from `s` that its exchanges satisfy
  `I`, that a failure satisfies `E` and a result `Q`.  The rules follow the structure of `x`.
  `Action.Asks` is the simpler judgement that only restricts the requests.
  `Action.Keeps`, `Action.Raises`, `Action.Within` and `Action.Spends` are about what happens to a
  part of the state, the errors, the number of exchanges, and their cost when the action returns.
  `Action.Performs` is a run to the end together with a device, and its rules are equivalences.
* **Devices.** `Tracks step σ tr τ` says that a device which moves as `step` allows can take part
  in the exchanges `tr`.  `Program.against` lets a program run against a device that is a function,
  and `against_runs` says that this is one of its runs. -/

namespace Process

variable {F : Interface} {α β γ σ τ ε δ : Type}

/-- A request with the answer to it; a request that was cut off has none. -/
structure Exchange (F : Interface) where
  request : F.Request
  answer : Option (F.Answer request)

namespace Program

/-! ### Dialogues -/

/-- The exchanges a program can make, and its result if it was not cut off. -/
inductive Runs : Program F α → List (Exchange F) → Option α → Prop
  | cut (p : Program F α) : Runs p [] none
  | ended (a : α) : Runs (.pure a) [] (some a)
  | waiting (r : F.Request) (next : F.Answer r → Program F α) :
      Runs (.ask r next) [⟨r, none⟩] none
  | answered {r : F.Request} {next : F.Answer r → Program F α} {v : F.Answer r}
      {tr : List (Exchange F)} {o : Option α} (rest : Runs (next v) tr o) :
      Runs (.ask r next) (⟨r, some v⟩ :: tr) o

theorem runs_pure {a : α} {tr : List (Exchange F)} {o : Option α} (h : Runs (.pure a) tr o) :
    tr = [] ∧ ∀ b, o = some b → b = a := by
  cases h with
  | cut => exact ⟨rfl, fun _ h => by cases h⟩
  | ended => exact ⟨rfl, fun _ h => (Option.some.inj h).symm⟩

/-- A run of two programs in a row was cut off in the first, or goes on in the second. -/
theorem runs_bind {p : Program F α} {f : α → Program F β} {tr : List (Exchange F)} {o : Option β}
    (h : Runs (p.bind f) tr o) :
    (o = none ∧ Runs p tr none) ∨
      ∃ a tr₁ tr₂, tr = tr₁ ++ tr₂ ∧ Runs p tr₁ (some a) ∧ Runs (f a) tr₂ o := by
  induction p generalizing tr with
  | pure a => exact Or.inr ⟨a, [], tr, rfl, .ended a, h⟩
  | ask r next ih =>
      cases h with
      | cut => exact Or.inl ⟨rfl, .cut _⟩
      | waiting => exact Or.inl ⟨rfl, .waiting r next⟩
      | @answered _ _ v tr _ rest =>
          rcases ih v rest with ⟨ho, hp⟩ | ⟨a, tr₁, tr₂, htr, hp, hf⟩
          · exact Or.inl ⟨ho, .answered hp⟩
          · exact Or.inr ⟨a, ⟨r, some v⟩ :: tr₁, tr₂, by rw [htr]; rfl, .answered hp, hf⟩

theorem runs_append {p : Program F α} {f : α → Program F β} {tr₁ tr₂ : List (Exchange F)} {a : α}
    {o : Option β} (hp : Runs p tr₁ (some a)) (hf : Runs (f a) tr₂ o) :
    Runs (p.bind f) (tr₁ ++ tr₂) o := by
  generalize ho : some a = o' at hp
  induction hp with
  | cut p => cases ho
  | waiting r next => cases ho
  | ended b =>
      cases ho
      exact hf
  | answered rest ih => exact .answered (ih ho)

/-- Every request of a run is one that the program can make. -/
theorem Asks.runs {P : F.Request → Prop} {p : Program F α} (hp : p.Asks P)
    {tr : List (Exchange F)} {o : Option α} (h : Runs p tr o) : ∀ x ∈ tr, P x.request := by
  induction h with
  | cut p => exact fun _ hx => absurd hx List.not_mem_nil
  | ended a => exact fun _ hx => absurd hx List.not_mem_nil
  | waiting r next =>
      intro x hx
      obtain rfl := List.mem_singleton.mp hx
      exact hp.1
  | answered rest ih =>
      intro x hx
      rcases List.mem_cons.mp hx with rfl | hx
      · exact hp.1
      · exact ih (hp.2 _) x hx

/-! ### Devices -/

/-- Run against a device that is a function: the exchanges, the result and the device's state. -/
def against (respond : (r : F.Request) → σ → F.Answer r × σ) :
    Program F α → σ → List (Exchange F) × α × σ
  | .pure a, s => ([], a, s)
  | .ask r next, s =>
      let rest := against respond (next (respond r s).1) (respond r s).2
      (⟨r, some (respond r s).1⟩ :: rest.1, rest.2)

theorem against_runs (respond : (r : F.Request) → σ → F.Answer r × σ) (p : Program F α) (s : σ) :
    Runs p (against respond p s).1 (some (against respond p s).2.1) := by
  induction p generalizing s with
  | pure a => exact .ended a
  | ask r next ih => exact .answered (ih _ _)

/-- Every exchange with a device that is a function is answered by it. -/
theorem against_answered (respond : (r : F.Request) → σ → F.Answer r × σ) (p : Program F α) (s : σ) :
    ∀ x ∈ (against respond p s).1, ∃ s', x.answer = some (respond x.request s').1 := by
  induction p generalizing s with
  | pure a => exact fun _ hx => absurd hx List.not_mem_nil
  | ask r next ih =>
      intro x hx
      rcases List.mem_cons.mp hx with rfl | hx
      · exact ⟨s, rfl⟩
      · exact ih _ _ x hx

end Program

/-- A device that moves as `step` allows can take part in the exchanges. -/
inductive Tracks (step : σ → Exchange F → σ → Prop) : σ → List (Exchange F) → σ → Prop
  | nil (s : σ) : Tracks step s [] s
  | cons {s s₁ s' : σ} {x : Exchange F} {tr : List (Exchange F)} (first : step s x s₁)
      (rest : Tracks step s₁ tr s') : Tracks step s (x :: tr) s'

namespace Tracks

variable {step : σ → Exchange F → σ → Prop} {s s' : σ} {x : Exchange F}
  {tr tr₁ tr₂ : List (Exchange F)}

theorem nil_inv (h : Tracks step s [] s') : s' = s := by
  cases h
  rfl

theorem cons_inv (h : Tracks step s (x :: tr) s') : ∃ s₁, step s x s₁ ∧ Tracks step s₁ tr s' := by
  cases h with
  | cons first rest => exact ⟨_, first, rest⟩

theorem append_inv (h : Tracks step s (tr₁ ++ tr₂) s') :
    ∃ s₁, Tracks step s tr₁ s₁ ∧ Tracks step s₁ tr₂ s' := by
  induction tr₁ generalizing s with
  | nil => exact ⟨s, .nil s, h⟩
  | cons x tr ih =>
      obtain ⟨s₁, first, rest⟩ := h.cons_inv
      obtain ⟨s₂, h₁, h₂⟩ := ih rest
      exact ⟨s₂, .cons first h₁, h₂⟩

theorem append (h₁ : Tracks step s tr₁ s') {s'' : σ} (h₂ : Tracks step s' tr₂ s'') :
    Tracks step s (tr₁ ++ tr₂) s'' := by
  induction h₁ with
  | nil s => exact h₂
  | cons first rest ih => exact .cons first (ih h₂)

end Tracks

/-- The exchanges with a device that is a function are ones it can take part in. -/
theorem Program.against_tracks {respond : (r : F.Request) → σ → F.Answer r × σ}
    {step : σ → Exchange F → σ → Prop}
    (hstep : ∀ r s, step s ⟨r, some (respond r s).1⟩ (respond r s).2) (p : Program F α) (s : σ) :
    Tracks step s (p.against respond s).1 (p.against respond s).2.2 := by
  induction p generalizing s with
  | pure a => exact .nil s
  | ask r next ih => exact .cons (hstep r s) (ih _ _)

/-! ### Actions -/

/-- A program with a state that may fail. -/
abbrev Action (F : Interface) (σ ε α : Type) := ExceptT ε (StateT σ (Program F)) α

namespace Action

/-- The action from a state, as a program. -/
def start (x : Action F σ ε α) (s : σ) : Program F (Except ε α × σ) := StateT.run (ExceptT.run x) s

/-- Make a request. -/
def ask (r : F.Request) : Action F σ ε (F.Answer r) :=
  ExceptT.lift (StateT.lift (Program.request r))

/-- A result that is already there. -/
def result (r : Except ε α) : Action F σ ε α := ExceptT.mk (Pure.pure r)

/-- Fail with the error when the condition holds. -/
def refuse (bad : Prop) [Decidable bad] (e : ε) : Action F σ ε Unit :=
  result (if bad then .error e else .ok ())

/-- Run an action when the condition holds. -/
def when (condition : Bool) (x : Action F σ ε Unit) : Action F σ ε Unit :=
  if condition then x else Pure.pure ()

/-- The same action with its failures renamed. -/
def failing (f : ε → δ) (x : Action F σ ε α) : Action F σ δ α := ExceptT.adapt f x

/-- Run an action and return how it ended. -/
def outcome (x : Action F σ ε α) : Action F σ δ (Except ε α) :=
  ExceptT.mk (Functor.map Except.ok (ExceptT.run x))

/-- An action on a part of a state, which becomes the whole state afterwards. -/
def inside (wrap : σ → τ) (s : σ) (x : Action F σ ε α) : Action F τ ε α :=
  ExceptT.mk fun _ => Functor.map (fun r => (r.1, wrap r.2)) (x.start s)

section start

variable {s : σ}

theorem start_ask (r : F.Request) :
    (ask r : Action F σ ε (F.Answer r)).start s = .ask r fun v => .pure (.ok v, s) := rfl

/-- What comes after the first of two actions. -/
def followed (f : α → Action F σ ε β) : Except ε α × σ → Program F (Except ε β × σ)
  | (.ok a, s) => (f a).start s
  | (.error e, s) => .pure (.error e, s)

theorem start_bind (x : Action F σ ε α) (f : α → Action F σ ε β) :
    (x >>= f).start s = (x.start s).bind (followed f) := by
  refine congrArg (Program.bind (x.start s)) (funext fun r => ?_)
  obtain ⟨r, s'⟩ := r
  cases r <;> rfl

theorem start_failing (f : ε → δ) (x : Action F σ ε α) :
    (failing f x).start s = (x.start s).bind fun r => .pure (r.1.mapError f, r.2) := by
  refine congrArg (Program.bind (x.start s)) (funext fun r => ?_)
  obtain ⟨r, s'⟩ := r
  cases r <;> rfl

theorem start_outcome (x : Action F σ ε α) :
    (outcome x : Action F σ δ (Except ε α)).start s =
      (x.start s).bind fun r => .pure (.ok r.1, r.2) := rfl

/-- An action that starts with a request starts with it whatever comes after. -/
theorem start_bind_ask {x : Action F σ ε α} {f : α → Action F σ ε β} {r : F.Request}
    (h : ∃ next, x.start s = .ask r next) : ∃ next, (x >>= f).start s = .ask r next := by
  obtain ⟨next, h⟩ := h
  rw [start_bind, h]
  exact ⟨_, rfl⟩

theorem start_failing_ask {f : ε → δ} {x : Action F σ ε α} {r : F.Request}
    (h : ∃ next, x.start s = .ask r next) : ∃ next, (failing f x).start s = .ask r next := by
  obtain ⟨next, h⟩ := h
  rw [start_failing, h]
  exact ⟨_, rfl⟩

theorem start_inside (wrap : σ → τ) (x : Action F σ ε α) {t : τ} :
    (inside wrap s x).start t = (x.start s).bind fun r => .pure (r.1, wrap r.2) := rfl

end start

/-! ### Rules -/

/-- Every run of the action from `s` makes exchanges that satisfy `I`; if it fails it satisfies
`E`, and if it returns it satisfies `Q`. -/
def Meets (x : Action F σ ε α) (s : σ) (I : List (Exchange F) → Prop)
    (E : ε → σ → List (Exchange F) → Prop) (Q : α → σ → List (Exchange F) → Prop) : Prop :=
  ∀ tr o, (x.start s).Runs tr o → I tr ∧ (∀ e s', o = some (.error e, s') → E e s' tr) ∧
    ∀ a s', o = some (.ok a, s') → Q a s' tr

namespace Meets

variable {x : Action F σ ε α} {s : σ} {I I' : List (Exchange F) → Prop}
  {E E' : ε → σ → List (Exchange F) → Prop} {Q Q' : α → σ → List (Exchange F) → Prop}

theorem weaken (h : Meets x s I' E' Q') (hI : ∀ tr, I' tr → I tr)
    (hE : ∀ e s' tr, I' tr → E' e s' tr → E e s' tr)
    (hQ : ∀ a s' tr, I' tr → Q' a s' tr → Q a s' tr) : Meets x s I E Q := by
  intro tr o hr
  obtain ⟨hi, he, hq⟩ := h tr o hr
  exact ⟨hI tr hi, fun e s' ho => hE e s' tr hi (he e s' ho),
    fun a s' ho => hQ a s' tr hi (hq a s' ho)⟩

theorem pure {a : α} (hI : I []) (hQ : Q a s []) : Meets (Pure.pure a) s I E Q := by
  intro tr o hr
  obtain ⟨rfl, ho⟩ := Program.runs_pure hr
  refine ⟨hI, fun e s' h => ?_, fun b s' h => ?_⟩
  · cases ho _ h
  · cases ho _ h
    exact hQ

theorem throw {e : ε} (hI : I []) (hE : E e s []) : Meets (MonadExcept.throw e) s I E Q := by
  intro tr o hr
  obtain ⟨rfl, ho⟩ := Program.runs_pure hr
  refine ⟨hI, fun e' s' h => ?_, fun b s' h => ?_⟩
  · cases ho _ h
    exact hE
  · cases ho _ h

theorem result {r : Except ε α} (hI : I []) (hE : ∀ e, r = .error e → E e s [])
    (hQ : ∀ a, r = .ok a → Q a s []) : Meets (Action.result r) s I E Q := by
  cases r with
  | error e => exact .throw hI (hE e rfl)
  | ok a => exact .pure hI (hQ a rfl)

theorem ask {r : F.Request} {Q : F.Answer r → σ → List (Exchange F) → Prop} (h₀ : I [])
    (h₁ : I [⟨r, none⟩]) (hQ : ∀ v, I [⟨r, some v⟩] ∧ Q v s [⟨r, some v⟩]) :
    Meets (Action.ask r : Action F σ ε (F.Answer r)) s I E Q := by
  intro tr o hr
  cases hr with
  | cut => exact ⟨h₀, fun _ _ h => (by cases h), fun _ _ h => (by cases h)⟩
  | waiting => exact ⟨h₁, fun _ _ h => (by cases h), fun _ _ h => (by cases h)⟩
  | @answered _ _ v tr _ rest =>
      obtain ⟨rfl, ho⟩ := Program.runs_pure rest
      refine ⟨(hQ v).1, fun e s' h => ?_, fun b s' h => ?_⟩
      · cases ho _ h
      · cases ho _ h
        exact (hQ v).2

/-- One action after the other. -/
theorem bind {f : α → Action F σ ε β} {E : ε → σ → List (Exchange F) → Prop}
    {R : α → σ → List (Exchange F) → Prop} {Q : β → σ → List (Exchange F) → Prop}
    (h : Meets x s I E R) (hf : ∀ a s₁ tr₁, I tr₁ → R a s₁ tr₁ → Meets (f a) s₁ (fun tr => I (tr₁ ++ tr))
      (fun e s' tr => E e s' (tr₁ ++ tr)) (fun b s' tr => Q b s' (tr₁ ++ tr))) :
    Meets (x >>= f) s I E Q := by
  intro tr o hr
  rw [start_bind] at hr
  rcases Program.runs_bind hr with ⟨rfl, hx⟩ | ⟨⟨r, s₁⟩, tr₁, tr₂, rfl, hx, hc⟩
  · exact ⟨(h tr none hx).1, fun _ _ h => (by cases h), fun _ _ h => (by cases h)⟩
  · obtain ⟨hi, he, hq⟩ := h tr₁ _ hx
    cases r with
    | error e =>
        obtain ⟨rfl, ho⟩ := Program.runs_pure hc
        rw [List.append_nil]
        refine ⟨hi, fun e' s' h => ?_, fun b s' h => ?_⟩
        · cases ho _ h
          exact he e s₁ rfl
        · cases ho _ h
    | ok a => exact hf a s₁ tr₁ hi (hq a s₁ rfl) tr₂ o hc

section continuations

variable {f : α → Action F σ ε β} {E : ε → σ → List (Exchange F) → Prop}
  {Q : β → σ → List (Exchange F) → Prop}

/-- A check, and then the rest. -/
theorem checked {r : Except ε α} (hI : I []) (hE : ∀ e, r = .error e → E e s [])
    (hf : ∀ a, r = .ok a → Meets (f a) s I E Q) : Meets (Action.result r >>= f) s I E Q := by
  cases r with
  | error e => exact Meets.throw (α := β) hI (hE e rfl)
  | ok a => exact hf a rfl

theorem refused {bad : Prop} [Decidable bad] {e : ε} {f : Unit → Action F σ ε β} (hI : I [])
    (hE : bad → E e s []) (hf : ¬ bad → Meets (f ()) s I E Q) :
    Meets (Action.refuse bad e >>= f) s I E Q := by
  unfold Action.refuse
  by_cases hbad : bad
  · rw [if_pos hbad]
    exact Meets.throw (α := β) hI (hE hbad)
  · rw [if_neg hbad]
    exact hf hbad

theorem reading {f : σ → Action F σ ε β} (hf : Meets (f s) s I E Q) :
    Meets ((MonadStateOf.get : Action F σ ε σ) >>= f) s I E Q := hf

theorem writing {s' : σ} {f : PUnit → Action F σ ε β} (hf : Meets (f ⟨⟩) s' I E Q) :
    Meets ((MonadStateOf.set s' : Action F σ ε PUnit) >>= f) s I E Q := hf

end continuations

theorem failing {f : ε → δ} {E : δ → σ → List (Exchange F) → Prop}
    (h : Meets x s I (fun e => E (f e)) Q) : Meets (Action.failing f x) s I E Q := by
  intro tr o hr
  rw [start_failing] at hr
  rcases Program.runs_bind hr with ⟨rfl, hx⟩ | ⟨⟨r, s₁⟩, tr₁, tr₂, rfl, hx, hc⟩
  · exact ⟨(h tr none hx).1, fun _ _ h => (by cases h), fun _ _ h => (by cases h)⟩
  · obtain ⟨hi, he, hq⟩ := h tr₁ _ hx
    obtain ⟨rfl, ho⟩ := Program.runs_pure hc
    rw [List.append_nil]
    refine ⟨hi, fun e s' h => ?_, fun a s' h => ?_⟩
    · cases r with
      | error e₁ => cases ho _ h; exact he e₁ _ rfl
      | ok a => cases ho _ h
    · cases r with
      | error e₁ => cases ho _ h
      | ok a => cases ho _ h; exact hq _ _ rfl

theorem outcome {E' : δ → σ → List (Exchange F) → Prop}
    {Q : Except ε α → σ → List (Exchange F) → Prop}
    (h : Meets x s I (fun e s' tr => Q (.error e) s' tr) fun a s' tr => Q (.ok a) s' tr) :
    Meets (Action.outcome x) s I E' Q := by
  intro tr o hr
  rw [start_outcome] at hr
  rcases Program.runs_bind hr with ⟨rfl, hx⟩ | ⟨⟨r, s₁⟩, tr₁, tr₂, rfl, hx, hc⟩
  · exact ⟨(h tr none hx).1, fun _ _ h => (by cases h), fun _ _ h => (by cases h)⟩
  · obtain ⟨hi, he, hq⟩ := h tr₁ _ hx
    obtain ⟨rfl, ho⟩ := Program.runs_pure hc
    rw [List.append_nil]
    refine ⟨hi, fun e s' h => ?_, fun a s' h => ?_⟩
    · cases ho _ h
    · cases r with
      | error e => cases ho _ h; exact he e _ rfl
      | ok a => cases ho _ h; exact hq a _ rfl

theorem inside {wrap : σ → τ} {t : τ} {E : ε → τ → List (Exchange F) → Prop}
    {Q : α → τ → List (Exchange F) → Prop}
    (h : Meets x s I (fun e s' => E e (wrap s')) fun a s' => Q a (wrap s')) :
    Meets (Action.inside wrap s x) t I E Q := by
  intro tr o hr
  rw [start_inside] at hr
  rcases Program.runs_bind hr with ⟨rfl, hx⟩ | ⟨⟨r, s₁⟩, tr₁, tr₂, rfl, hx, hc⟩
  · exact ⟨(h tr none hx).1, fun _ _ h => (by cases h), fun _ _ h => (by cases h)⟩
  · obtain ⟨hi, he, hq⟩ := h tr₁ _ hx
    obtain ⟨rfl, ho⟩ := Program.runs_pure hc
    rw [List.append_nil]
    refine ⟨hi, fun e s' h => ?_, fun a s' h => ?_⟩
    · cases ho _ h
      exact he e _ rfl
    · cases ho _ h
      exact hq a _ rfl

end Meets

/-- Every request the action can make satisfies `P`. -/
def Asks (P : F.Request → Prop) (x : Action F σ ε α) : Prop := ∀ s, (x.start s).Asks P

namespace Asks

variable {P : F.Request → Prop} {x : Action F σ ε α}

theorem pure (a : α) : Asks P (Pure.pure a : Action F σ ε α) := fun _ => trivial

theorem throw (e : ε) : Asks P (MonadExcept.throw e : Action F σ ε α) := fun _ => trivial

theorem result (r : Except ε α) : Asks P (Action.result r : Action F σ ε α) := fun _ => trivial

theorem refuse {bad : Prop} [Decidable bad] (e : ε) :
    Asks P (Action.refuse bad e : Action F σ ε Unit) := .result _

theorem when {condition : Bool} {x : Action F σ ε Unit} (h : condition = true → Asks P x) :
    Asks P (Action.when condition x) := by
  cases condition with
  | false => exact .pure _
  | true => exact h rfl

theorem get : Asks P (MonadStateOf.get : Action F σ ε σ) := fun _ => trivial

theorem set (s : σ) : Asks P (MonadStateOf.set s : Action F σ ε PUnit) := fun _ => trivial

theorem ask {r : F.Request} (h : P r) : Asks P (Action.ask r : Action F σ ε (F.Answer r)) :=
  fun _ => ⟨h, fun _ => trivial⟩

theorem bind {f : α → Action F σ ε β} (hx : Asks P x) (hf : ∀ a, Asks P (f a)) :
    Asks P (x >>= f) := by
  intro s
  rw [start_bind]
  refine (hx s).bind fun r => ?_
  obtain ⟨r, s'⟩ := r
  cases r with
  | error e => trivial
  | ok a => exact hf a s'

/-- A check, and then the rest. -/
theorem checked {r : Except ε α} {f : α → Action F σ ε β} (hf : ∀ a, r = .ok a → Asks P (f a)) :
    Asks P (Action.result r >>= f) := by
  cases r with
  | error e => exact Asks.throw (α := β) e
  | ok a => exact hf a rfl

theorem map (f : α → β) (h : Asks P x) : Asks P (f <$> x) :=
  Asks.bind h fun a => .pure (f a)

theorem failing {f : ε → δ} (h : Asks P x) : Asks P (Action.failing f x) := by
  intro s
  rw [start_failing]
  exact (h s).bind fun _ => trivial

theorem outcome (h : Asks P x) : Asks P (Action.outcome x : Action F σ δ (Except ε α)) := by
  intro s
  rw [start_outcome]
  exact (h s).bind fun _ => trivial

theorem mono {P' : F.Request → Prop} (hp : ∀ r, P r → P' r) (h : Asks P x) : Asks P' x :=
  fun s => (h s).mono hp

/-- What is true of every request. -/
theorem any (hP : ∀ r, P r) (x : Action F σ ε α) : Asks P x := by
  have hall : ∀ p : Program F (Except ε α × σ), p.Asks P := by
    intro p
    induction p with
    | pure a => trivial
    | ask r next ih => exact ⟨hP r, ih⟩
  exact fun s => hall (x.start s)

/-- Every exchange of a run is for a request that satisfies `P`. -/
theorem runs (h : Asks P x) {s : σ} {tr : List (Exchange F)} {o : Option (Except ε α × σ)}
    (hr : (x.start s).Runs tr o) : ∀ e ∈ tr, P e.request := (h s).runs hr

/-- What is known of the requests, beside what is known of the exchanges. -/
theorem and_meets {s : σ} {I : List (Exchange F) → Prop} {E : ε → σ → List (Exchange F) → Prop}
    {Q : α → σ → List (Exchange F) → Prop} (h : Asks P x) (hx : x.Meets s I E Q) :
    x.Meets s (fun tr => (∀ e ∈ tr, P e.request) ∧ I tr) E Q :=
  fun tr o hr => ⟨⟨h.runs hr, (hx tr o hr).1⟩, (hx tr o hr).2⟩

end Asks

/-- The action makes only requests that satisfy `P`, and `f` of the state is at its end what it was
at its start. -/
def Keeps (P : F.Request → Prop) (f : σ → γ) (s : σ) (x : Action F σ ε α) : Prop :=
  x.Meets s (fun tr => ∀ e ∈ tr, P e.request) (fun _ s' _ => f s' = f s) fun _ s' _ => f s' = f s

namespace Keeps

variable {P : F.Request → Prop} {f : σ → γ} {s : σ} {x : Action F σ ε α}

theorem pure (a : α) : Keeps P f s (Pure.pure a : Action F σ ε α) :=
  Meets.pure (fun _ h => absurd h List.not_mem_nil) rfl

theorem throw (e : ε) : Keeps P f s (MonadExcept.throw e : Action F σ ε α) :=
  Meets.throw (fun _ h => absurd h List.not_mem_nil) rfl

theorem result (r : Except ε α) : Keeps P f s (Action.result r : Action F σ ε α) :=
  Meets.result (fun _ h => absurd h List.not_mem_nil) (fun _ _ => rfl) fun _ _ => rfl

theorem refuse {bad : Prop} [Decidable bad] (e : ε) :
    Keeps P f s (Action.refuse bad e : Action F σ ε Unit) := .result _

theorem ask {r : F.Request} (h : P r) : Keeps P f s (Action.ask r : Action F σ ε (F.Answer r)) := by
  refine Meets.ask (fun _ h => absurd h List.not_mem_nil) ?_ fun v => ⟨?_, rfl⟩
  · intro e he
    obtain rfl := List.mem_singleton.mp he
    exact h
  · intro e he
    obtain rfl := List.mem_singleton.mp he
    exact h

theorem bind {g : α → Action F σ ε β} (hx : Keeps P f s x)
    (hg : ∀ a s₁, f s₁ = f s → Keeps P f s₁ (g a)) : Keeps P f s (x >>= g) := by
  refine Meets.bind hx fun a s₁ tr₁ htr hs => (hg a s₁ hs).weaken (fun tr h => ?_) ?_ ?_
  · intro e he
    rcases List.mem_append.mp he with he | he
    · exact htr e he
    · exact h e he
  · exact fun _ _ _ _ h => h.trans hs
  · exact fun _ _ _ _ h => h.trans hs

/-- A check, and then the rest. -/
theorem checked {r : Except ε α} {g : α → Action F σ ε β}
    (hg : ∀ a, r = .ok a → Keeps P f s (g a)) : Keeps P f s (Action.result r >>= g) :=
  Meets.checked (fun _ h => absurd h List.not_mem_nil) (fun _ _ => rfl) hg

theorem reading {g : σ → Action F σ ε β} (hg : Keeps P f s (g s)) :
    Keeps P f s ((MonadStateOf.get : Action F σ ε σ) >>= g) := Meets.reading hg

theorem failing {h : ε → δ} (hx : Keeps P f s x) : Keeps P f s (Action.failing h x) :=
  Meets.failing hx

/-- Inside a part of the state, when nothing that can become of that part shows in `f`. -/
theorem inside {f : τ → γ} {wrap : σ → τ} {t : τ} (hx : Keeps P (fun s => f (wrap s)) s x)
    (ht : f (wrap s) = f t) : Keeps P f t (Action.inside wrap s x) := by
  refine Meets.inside (Meets.weaken hx (fun _ h => h) ?_ ?_)
  · exact fun _ _ _ _ h => h.trans ht
  · exact fun _ _ _ _ h => h.trans ht

/-- When `f` shows nothing, only the requests matter. -/
theorem of_asks (h : Asks P x) (hf : ∀ s', f s' = f s) : Keeps P f s x :=
  fun _ _ hr => ⟨h.runs hr, fun _ _ _ => hf _, fun _ _ _ => hf _⟩

end Keeps

/-- Whenever the action fails, its error is one of these. -/
def Raises (E : ε → Prop) (x : Action F σ ε α) : Prop :=
  ∀ s tr e s', (x.start s).Runs tr (some (.error e, s')) → E e

namespace Raises

variable {E E' : ε → Prop} {x : Action F σ ε α}

theorem mono (h : Raises E' x) (hE : ∀ e, E' e → E e) : Raises E x :=
  fun s tr e s' hr => hE e (h s tr e s' hr)

theorem pure (a : α) : Raises E (Pure.pure a : Action F σ ε α) := by
  intro s tr e s' hr
  cases (Program.runs_pure hr).2 _ rfl

theorem throw {e : ε} (he : E e) : Raises E (MonadExcept.throw e : Action F σ ε α) := by
  intro s tr e' s' hr
  cases (Program.runs_pure hr).2 _ rfl
  exact he

theorem result {r : Except ε α} (h : ∀ e, r = .error e → E e) :
    Raises E (Action.result r : Action F σ ε α) := by
  cases r with
  | error e => exact .throw (h e rfl)
  | ok a => exact .pure a

theorem refuse {bad : Prop} [Decidable bad] {e : ε} (h : bad → E e) :
    Raises E (Action.refuse bad e : Action F σ ε Unit) := by
  refine .result fun e' he => ?_
  split at he
  · next hbad =>
      cases he
      exact h hbad
  · cases he

theorem get : Raises E (MonadStateOf.get : Action F σ ε σ) := by
  intro s tr e s' hr
  cases (Program.runs_pure hr).2 _ rfl

theorem set (s' : σ) : Raises E (MonadStateOf.set s' : Action F σ ε PUnit) := by
  intro s tr e s'' hr
  cases (Program.runs_pure hr).2 _ rfl

theorem ask (r : F.Request) : Raises E (Action.ask r : Action F σ ε (F.Answer r)) := by
  intro s tr e s' hr
  cases hr with
  | answered rest => cases (Program.runs_pure rest).2 _ rfl

/-- One action after the other; what comes second may rely on a result of the first. -/
theorem bind {f : α → Action F σ ε β} (hx : Raises E x) (hf : ∀ a, Raises E (f a)) :
    Raises E (x >>= f) := by
  intro s tr e s' hr
  rw [start_bind] at hr
  rcases Program.runs_bind hr with ⟨h, _⟩ | ⟨⟨r, s₁⟩, tr₁, tr₂, rfl, hp, hc⟩
  · cases h
  · cases r with
    | error e₁ =>
        cases (Program.runs_pure hc).2 _ rfl
        exact hx s tr₁ e _ hp
    | ok a => exact hf a s₁ tr₂ e s' hc

theorem map (f : α → β) (hx : Raises E x) : Raises E (f <$> x) :=
  Raises.bind hx fun a => .pure (f a)

/-- A check, and then the rest. -/
theorem checked {r : Except ε α} {f : α → Action F σ ε β} (hr : ∀ e, r = .error e → E e)
    (hf : ∀ a, r = .ok a → Raises E (f a)) : Raises E (Action.result r >>= f) := by
  cases r with
  | error e => exact Raises.throw (α := β) (hr e rfl)
  | ok a => exact hf a rfl

theorem refused {bad : Prop} [Decidable bad] {e : ε} {f : Unit → Action F σ ε β} (hbad : bad → E e)
    (hf : ¬ bad → Raises E (f ())) : Raises E (Action.refuse bad e >>= f) := by
  unfold Action.refuse
  by_cases h : bad
  · rw [if_pos h]
    exact Raises.throw (α := β) (hbad h)
  · rw [if_neg h]
    exact hf h

theorem when {condition : Bool} {x : Action F σ ε Unit} (hx : condition = true → Raises E x) :
    Raises E (Action.when condition x) := by
  cases condition with
  | false => exact .pure ()
  | true => exact hx rfl

theorem failing {f : ε → δ} {E : δ → Prop} (hx : Raises (fun e => E (f e)) x) :
    Raises E (Action.failing f x) := by
  intro s tr e s' hr
  rw [start_failing] at hr
  rcases Program.runs_bind hr with ⟨h, _⟩ | ⟨⟨r, s₁⟩, tr₁, tr₂, rfl, hp, hc⟩
  · cases h
  · cases r with
    | error e₁ =>
        cases (Program.runs_pure hc).2 _ rfl
        exact hx s tr₁ e₁ _ hp
    | ok a => cases (Program.runs_pure hc).2 _ rfl

/-- What comes after an outcome knows which errors it can hold. -/
theorem outcome {E : δ → Prop} {f : Except ε α → Action F σ δ β} (hx : Raises E' x)
    (hf : ∀ r, (∀ e, r = .error e → E' e) → Raises E (f r)) :
    Raises E (Action.outcome x >>= f) := by
  intro s tr e s' hr
  rw [start_bind, start_outcome] at hr
  rcases Program.runs_bind hr with ⟨h, _⟩ | ⟨⟨r, s₁⟩, tr₁, tr₂, rfl, hp, hc⟩
  · cases h
  · rcases Program.runs_bind hp with ⟨h, _⟩ | ⟨⟨r₀, s₀⟩, tr₀, tr₁, rfl, hx₀, hd⟩
    · cases h
    · cases (Program.runs_pure hd).2 _ rfl
      exact hf r₀ (fun e₀ he => hx s tr₀ e₀ s₀ (he ▸ hx₀)) s₀ tr₂ e s' hc

end Raises

/-- No run of the action makes more exchanges than this. -/
def Within (n : ℕ) (x : Action F σ ε α) : Prop := ∀ s tr o, (x.start s).Runs tr o → tr.length ≤ n

namespace Within

variable {n m : ℕ} {x : Action F σ ε α}

theorem mono (h : Within n x) (hnm : n ≤ m) : Within m x := fun s tr o hr => Nat.le_trans (h s tr o hr) hnm

theorem pure (a : α) : Within 0 (Pure.pure a : Action F σ ε α) := by
  intro s tr o hr
  rw [(Program.runs_pure hr).1]
  exact Nat.le_refl 0

theorem throw (e : ε) : Within 0 (MonadExcept.throw e : Action F σ ε α) := by
  intro s tr o hr
  rw [(Program.runs_pure hr).1]
  exact Nat.le_refl 0

theorem result (r : Except ε α) : Within 0 (Action.result r : Action F σ ε α) := by
  intro s tr o hr
  rw [(Program.runs_pure hr).1]
  exact Nat.le_refl 0

theorem refuse {bad : Prop} [Decidable bad] (e : ε) :
    Within 0 (Action.refuse bad e : Action F σ ε Unit) := .result _

theorem get : Within 0 (MonadStateOf.get : Action F σ ε σ) := by
  intro s tr o hr
  rw [(Program.runs_pure hr).1]
  exact Nat.le_refl 0

theorem ask (r : F.Request) : Within 1 (Action.ask r : Action F σ ε (F.Answer r)) := by
  intro s tr o hr
  cases hr with
  | cut => exact Nat.zero_le 1
  | waiting => exact Nat.le_refl 1
  | answered rest =>
      rw [(Program.runs_pure rest).1]
      exact Nat.le_refl 1

theorem bind {f : α → Action F σ ε β} (hx : Within n x) (hf : ∀ a, Within m (f a)) :
    Within (n + m) (x >>= f) := by
  intro s tr o hr
  rw [start_bind] at hr
  rcases Program.runs_bind hr with ⟨_, hp⟩ | ⟨⟨r, s₁⟩, tr₁, tr₂, rfl, hp, hc⟩
  · exact Nat.le_trans (hx s tr _ hp) (Nat.le_add_right n m)
  · rw [List.length_append]
    refine Nat.add_le_add (hx s tr₁ _ hp) ?_
    cases r with
    | error e =>
        rw [(Program.runs_pure hc).1]
        exact Nat.zero_le m
    | ok a => exact hf a s₁ tr₂ o hc

theorem failing {h : ε → δ} (hx : Within n x) : Within n (Action.failing h x) := by
  intro s tr o hr
  rw [start_failing] at hr
  rcases Program.runs_bind hr with ⟨_, hp⟩ | ⟨⟨r, s₁⟩, tr₁, tr₂, rfl, hp, hc⟩
  · exact hx s tr _ hp
  · rw [(Program.runs_pure hc).1, List.append_nil]
    exact hx s tr₁ _ hp

end Within

/-- Whenever the action returns, `P` holds of the result and of what its exchanges cost. -/
def Spends (cost : Exchange F → ℕ) (x : Action F σ ε α) (P : α → ℕ → Prop) : Prop :=
  ∀ s tr a s', (x.start s).Runs tr (some (.ok a, s')) → P a (tr.map cost).sum

namespace Spends

variable {cost : Exchange F → ℕ} {x : Action F σ ε α} {P P' : α → ℕ → Prop}

theorem mono (h : Spends cost x P') (hP : ∀ a n, P' a n → P a n) : Spends cost x P :=
  fun s tr a s' hr => hP a _ (h s tr a s' hr)

theorem of_meets {I : List (Exchange F) → Prop} {E : ε → σ → List (Exchange F) → Prop}
    (h : ∀ s, x.Meets s I E fun a _ tr => P a (tr.map cost).sum) : Spends cost x P :=
  fun s tr a s' hr => (h s tr _ hr).2.2 a s' rfl

theorem pure {a : α} (h : P a 0) : Spends cost (Pure.pure a : Action F σ ε α) P := by
  intro s tr a' s' hr
  obtain ⟨rfl, ho⟩ := Program.runs_pure hr
  cases ho _ rfl
  exact h

theorem throw (e : ε) : Spends cost (MonadExcept.throw e : Action F σ ε α) P := by
  intro s tr a s' hr
  cases (Program.runs_pure hr).2 _ rfl

theorem result {r : Except ε α} (h : ∀ a, r = .ok a → P a 0) :
    Spends cost (Action.result r : Action F σ ε α) P := by
  cases r with
  | error e => exact .throw e
  | ok a => exact .pure (h a rfl)

/-- Some of the exchanges cost nothing. -/
theorem of_asks {Z : F.Request → Prop} (h : Asks Z x) (hcost : ∀ y, Z y.request → cost y = 0)
    (hP : ∀ a, P a 0) : Spends cost x P := by
  intro s tr a s' hr
  have hzero : (tr.map cost).sum = 0 := by
    have hall := h.runs hr
    clear hr
    induction tr with
    | nil => rfl
    | cons y tr ih =>
        rw [List.map_cons, List.sum_cons, hcost y (hall y List.mem_cons_self),
          ih fun z hz => hall z (List.mem_cons_of_mem y hz)]
  rw [hzero]
  exact hP a

theorem bind {f : α → Action F σ ε β} {R : β → ℕ → Prop} (hx : Spends cost x P)
    (hf : ∀ a n, P a n → Spends cost (f a) fun b m => R b (n + m)) :
    Spends cost (x >>= f) R := by
  intro s tr b s' hr
  rw [start_bind] at hr
  rcases Program.runs_bind hr with ⟨ho, _⟩ | ⟨⟨r, s₁⟩, tr₁, tr₂, rfl, hp, hc⟩
  · cases ho
  · cases r with
    | error e => cases (Program.runs_pure hc).2 _ rfl
    | ok a =>
        rw [List.map_append, List.sum_append]
        exact hf a _ (hx s tr₁ a s₁ hp) s₁ tr₂ b s' hc

/-- A check, and then the rest. -/
theorem checked {r : Except ε α} {f : α → Action F σ ε β} {R : β → ℕ → Prop}
    (hf : ∀ a, r = .ok a → Spends cost (f a) R) : Spends cost (Action.result r >>= f) R := by
  cases r with
  | error e => exact Spends.throw (α := β) e
  | ok a => exact hf a rfl

theorem refused {bad : Prop} [Decidable bad] {e : ε} {f : Unit → Action F σ ε β} {R : β → ℕ → Prop}
    (hf : ¬ bad → Spends cost (f ()) R) : Spends cost (Action.refuse bad e >>= f) R := by
  unfold Action.refuse
  by_cases h : bad
  · rw [if_pos h]
    exact Spends.throw (α := β) e
  · rw [if_neg h]
    exact hf h

/-- Whatever it costs. -/
theorem any : Spends cost x fun _ _ => True := fun _ _ _ _ _ => trivial

end Spends

/-! ### Runs to the end -/

/-- From its own state `s` and the device's `t` the action ends with `r`, in `s'` and `t'`. -/
def Performs (step : τ → Exchange F → τ → Prop) (x : Action F σ ε α) (s : σ) (t : τ)
    (r : Except ε α) (s' : σ) (t' : τ) : Prop :=
  ∃ tr, (x.start s).Runs tr (some (r, s')) ∧ Tracks step t tr t'

namespace Performs

variable {step : τ → Exchange F → τ → Prop} {s s' : σ} {t t' : τ}

theorem result_iff {e r : Except ε α} :
    Performs step (Action.result e) s t r s' t' ↔ r = e ∧ s' = s ∧ t' = t := by
  constructor
  · rintro ⟨tr, hr, ht⟩
    obtain ⟨rfl, ho⟩ := Program.runs_pure hr
    cases ho _ rfl
    exact ⟨rfl, rfl, ht.nil_inv⟩
  · rintro ⟨rfl, rfl, rfl⟩
    exact ⟨[], .ended _, .nil _⟩

theorem pure_iff {a : α} {r : Except ε α} :
    Performs step (Pure.pure a : Action F σ ε α) s t r s' t' ↔ r = .ok a ∧ s' = s ∧ t' = t :=
  result_iff (e := .ok a)

theorem throw_iff {e : ε} {r : Except ε α} :
    Performs step (throw e : Action F σ ε α) s t r s' t' ↔ r = .error e ∧ s' = s ∧ t' = t :=
  result_iff (e := .error e)

theorem ask_iff {q : F.Request} {r : Except ε (F.Answer q)} :
    Performs step (Action.ask q : Action F σ ε (F.Answer q)) s t r s' t' ↔
      ∃ v, step t ⟨q, some v⟩ t' ∧ r = .ok v ∧ s' = s := by
  constructor
  · rintro ⟨tr, hr, ht⟩
    rw [start_ask] at hr
    cases hr with
    | @answered _ _ v tr _ rest =>
        obtain ⟨rfl, ho⟩ := Program.runs_pure rest
        cases ho _ rfl
        obtain ⟨t₁, hstep, hrest⟩ := ht.cons_inv
        exact ⟨v, by rw [hrest.nil_inv]; exact hstep, rfl, rfl⟩
  · rintro ⟨v, hstep, rfl, rfl⟩
    exact ⟨[⟨q, some v⟩], .answered (.ended _), .cons hstep (.nil _)⟩

/-- The second action runs if the first returns. -/
theorem bind_iff {x : Action F σ ε α} {f : α → Action F σ ε β} {r : Except ε β} :
    Performs step (x >>= f) s t r s' t' ↔
      (∃ e, Performs step x s t (.error e) s' t' ∧ r = .error e) ∨
        ∃ a s₁ t₁, Performs step x s t (.ok a) s₁ t₁ ∧ Performs step (f a) s₁ t₁ r s' t' := by
  constructor
  · rintro ⟨tr, hr, ht⟩
    rw [start_bind] at hr
    rcases Program.runs_bind hr with ⟨ho, _⟩ | ⟨⟨a, s₁⟩, tr₁, tr₂, rfl, hx, hf⟩
    · cases ho
    · obtain ⟨t₁, ht₁, ht₂⟩ := ht.append_inv
      cases a with
      | error e =>
          obtain ⟨rfl, ho⟩ := Program.runs_pure hf
          cases ho _ rfl
          exact Or.inl ⟨e, ⟨tr₁, hx, by rw [ht₂.nil_inv]; exact ht₁⟩, rfl⟩
      | ok a => exact Or.inr ⟨a, s₁, t₁, ⟨tr₁, hx, ht₁⟩, tr₂, hf, ht₂⟩
  · rintro (⟨e, ⟨tr, hx, ht⟩, rfl⟩ | ⟨a, s₁, t₁, ⟨tr₁, hx, ht₁⟩, tr₂, hf, ht₂⟩)
    · refine ⟨tr ++ [], ?_, ht.append (.nil _)⟩
      rw [start_bind]
      exact Program.runs_append hx (.ended _)
    · refine ⟨tr₁ ++ tr₂, ?_, ht₁.append ht₂⟩
      rw [start_bind]
      exact Program.runs_append hx hf

theorem ask_bind_iff {q : F.Request} {f : F.Answer q → Action F σ ε β} {r : Except ε β} :
    Performs step (Action.ask q >>= f) s t r s' t' ↔
      ∃ v t₁, step t ⟨q, some v⟩ t₁ ∧ Performs step (f v) s t₁ r s' t' := by
  refine bind_iff.trans ⟨?_, ?_⟩
  · rintro (⟨e, hask, _⟩ | ⟨v, s₁, t₁, hask, hf⟩)
    · obtain ⟨v, _, hv, _⟩ := ask_iff.mp hask
      cases hv
    · obtain ⟨v, hstep, hv, rfl⟩ := ask_iff.mp hask
      cases hv
      exact ⟨v, t₁, hstep, hf⟩
  · rintro ⟨v, t₁, hstep, hf⟩
    exact Or.inr ⟨v, s, t₁, ask_iff.mpr ⟨v, hstep, rfl, rfl⟩, hf⟩

theorem get_bind_iff {f : σ → Action F σ ε β} {r : Except ε β} :
    Performs step (MonadStateOf.get >>= f) s t r s' t' ↔ Performs step (f s) s t r s' t' := Iff.rfl

theorem set_bind_iff {s₁ : σ} {f : PUnit → Action F σ ε β} {r : Except ε β} :
    Performs step (MonadStateOf.set s₁ >>= f) s t r s' t' ↔ Performs step (f ⟨⟩) s₁ t r s' t' :=
  Iff.rfl

theorem result_bind_iff {e : Except ε α} {f : α → Action F σ ε β} {r : Except ε β} :
    Performs step (Action.result e >>= f) s t r s' t' ↔
      (∃ err, e = .error err ∧ r = .error err ∧ s' = s ∧ t' = t) ∨
        ∃ a, e = .ok a ∧ Performs step (f a) s t r s' t' := by
  rw [bind_iff]
  simp only [result_iff]
  constructor
  · rintro (⟨err, ⟨he, hs, ht⟩, hr⟩ | ⟨a, _, _, ⟨he, rfl, rfl⟩, hf⟩)
    · exact Or.inl ⟨err, he.symm, hr, hs, ht⟩
    · exact Or.inr ⟨a, he.symm, hf⟩
  · rintro (⟨err, he, hr, hs, ht⟩ | ⟨a, he, hf⟩)
    · exact Or.inl ⟨err, ⟨he.symm, hs, ht⟩, hr⟩
    · exact Or.inr ⟨a, s, t, ⟨he.symm, rfl, rfl⟩, hf⟩

theorem refuse_bind_iff {bad : Prop} [Decidable bad] {e : ε} {f : Unit → Action F σ ε β}
    {r : Except ε β} :
    Performs step (Action.refuse bad e >>= f) s t r s' t' ↔
      (bad ∧ r = .error e ∧ s' = s ∧ t' = t) ∨ ¬ bad ∧ Performs step (f ()) s t r s' t' := by
  unfold Action.refuse
  by_cases hbad : bad
  · rw [if_pos hbad]
    refine Iff.trans result_bind_iff ⟨?_, ?_⟩
    · rintro (⟨err, he, hrest⟩ | ⟨a, he, _⟩)
      · cases he
        exact Or.inl ⟨hbad, hrest⟩
      · cases he
    · rintro (⟨_, hrest⟩ | ⟨hnot, _⟩)
      · exact Or.inl ⟨e, rfl, hrest⟩
      · exact absurd hbad hnot
  · rw [if_neg hbad]
    refine Iff.trans result_bind_iff ⟨?_, ?_⟩
    · rintro (⟨err, he, _⟩ | ⟨a, he, hf⟩)
      · cases he
      · cases he
        exact Or.inr ⟨hbad, hf⟩
    · rintro (⟨h, _⟩ | ⟨_, hf⟩)
      · exact absurd h hbad
      · exact Or.inr ⟨(), rfl, hf⟩

end Performs

end Action

end Process

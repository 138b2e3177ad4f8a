import Cheirismos.Dialogues

/-! # Driving a device

What an action makes of the device that takes part in its exchanges, over an arbitrary interface.

`Action.Drives step x s d I Q` is about the runs of `x` from `s` beside a device that starts in `d`
and moves as `step` allows: `I` holds of the device wherever the action is cut off, fails or ends,
and `Q` of a result together with the state and the device.  The rules follow the structure of the
action.  An action that makes only requests to which the device does not move leaves it as it is
(`Drives.of_keeps`), and what is known of the exchanges themselves is used by `Drives.of_meets`. -/

namespace Process

namespace Action

variable {F : Interface} {α β γ σ τ ε κ δ : Type} {step : δ → Exchange F → δ → Prop}

/-- The device satisfies `I` at every moment, and `Q` with a result. -/
def Drives (step : δ → Exchange F → δ → Prop) (x : Action F σ ε α) (s : σ) (d : δ) (I : δ → Prop)
    (Q : α → σ → δ → Prop) : Prop :=
  x.Meets s (fun tr => ∀ d', Tracks step d tr d' → I d') (fun _ _ _ => True)
    fun a s' tr => ∀ d', Tracks step d tr d' → Q a s' d'

namespace Drives

variable {x : Action F σ ε α} {s : σ} {d : δ} {I I' : δ → Prop} {Q Q' : α → σ → δ → Prop}

/-- What the judgement says of one run. -/
theorem runs (h : Drives step x s d I Q) {tr : List (Exchange F)}
    {o : Option (Except ε α × σ)} (hr : (x.start s).Runs tr o) {d' : δ} (ht : Tracks step d tr d') :
    I d' ∧ ∀ a s', o = some (.ok a, s') → Q a s' d' :=
  ⟨(h tr o hr).1 d' ht, fun a s' ho => (h tr o hr).2.2 a s' ho d' ht⟩

theorem weaken (h : Drives step x s d I' Q') (hI : ∀ d', I' d' → I d')
    (hQ : ∀ a s' d', I' d' → Q' a s' d' → Q a s' d') : Drives step x s d I Q :=
  Meets.weaken h (fun _ hi d' ht => hI d' (hi d' ht)) (fun _ _ _ _ _ => trivial)
    fun a s' _ hi hq d' ht => hQ a s' d' (hi d' ht) (hq d' ht)

/-- What is known of the exchanges, read off the device. -/
theorem of_meets {J : List (Exchange F) → Prop} {E : ε → σ → List (Exchange F) → Prop}
    {R : α → σ → List (Exchange F) → Prop} (h : x.Meets s J E R)
    (hI : ∀ tr d', Tracks step d tr d' → J tr → I d')
    (hQ : ∀ a s' tr d', Tracks step d tr d' → J tr → R a s' tr → Q a s' d') :
    Drives step x s d I Q :=
  Meets.weaken h (fun tr hj d' ht => hI tr d' ht hj) (fun _ _ _ _ _ => trivial)
    fun a s' tr hj hr d' ht => hQ a s' tr d' ht hj hr

/-- Exchanges to which the device does not move. -/
theorem tracks_still {P : F.Request → Prop} (hP : ∀ d x d', P x.request → step d x d' → d' = d)
    {tr : List (Exchange F)} {d d' : δ} (h : ∀ x ∈ tr, P x.request) (ht : Tracks step d tr d') :
    d' = d := by
  induction ht with
  | nil d => rfl
  | cons first rest ih =>
      obtain rfl := hP _ _ _ (h _ List.mem_cons_self) first
      exact ih fun x hx => h x (List.mem_cons_of_mem _ hx)

/-- An action that makes only requests to which the device does not move. -/
theorem of_keeps {P : F.Request → Prop} {f : σ → γ} (h : Keeps P f s x)
    (hP : ∀ d x d', P x.request → step d x d' → d' = d) :
    Drives step x s d (· = d) fun _ s' d' => f s' = f s ∧ d' = d :=
  of_meets h (fun _ _ ht hreq => tracks_still hP hreq ht)
    fun _ _ _ _ ht hreq hf => ⟨hf, tracks_still hP hreq ht⟩

/-- The same when nothing is known of the state. -/
theorem of_asks {P : F.Request → Prop} (h : Asks P x)
    (hP : ∀ d x d', P x.request → step d x d' → d' = d) :
    Drives step x s d (· = d) fun _ _ d' => d' = d :=
  (of_keeps (Keeps.of_asks (f := fun _ => ()) h fun _ => rfl) hP).weaken (fun _ h => h)
    fun _ _ _ h _ => h

theorem pure {a : α} (hI : I d) (hQ : Q a s d) :
    Drives step (Pure.pure a : Action F σ ε α) s d I Q := by
  refine Meets.pure (fun d' ht => ?_) fun d' ht => ?_
  · obtain rfl := ht.nil_inv
    exact hI
  · obtain rfl := ht.nil_inv
    exact hQ

theorem throw {e : ε} (hI : I d) :
    Drives step (MonadExcept.throw e : Action F σ ε α) s d I Q := by
  refine Meets.throw (fun d' ht => ?_) trivial
  obtain rfl := ht.nil_inv
  exact hI

/-- One action after the other. -/
theorem bind {f : α → Action F σ ε β} {R : α → σ → δ → Prop} {Q : β → σ → δ → Prop}
    (h : Drives step x s d I R) (hf : ∀ a s₁ d₁, I d₁ → R a s₁ d₁ → Drives step (f a) s₁ d₁ I Q) :
    Drives step (x >>= f) s d I Q := by
  refine Meets.bind h fun a s₁ tr₁ hi hr tr o hrun => ⟨fun d' ht => ?_, fun _ _ _ => trivial, ?_⟩
  · obtain ⟨d₁, ht₁, ht₂⟩ := ht.append_inv
    exact ((hf a s₁ d₁ (hi d₁ ht₁) (hr d₁ ht₁)).runs hrun ht₂).1
  · intro b s' ho d' ht
    obtain ⟨d₁, ht₁, ht₂⟩ := ht.append_inv
    exact ((hf a s₁ d₁ (hi d₁ ht₁) (hr d₁ ht₁)).runs hrun ht₂).2 b s' ho

/-- An action that leaves the device as it is, and then the rest. -/
theorem after {f : α → Action F σ ε β} {R : α → σ → Prop} {Q : β → σ → δ → Prop}
    (h : Drives step x s d (· = d) fun a s' d' => R a s' ∧ d' = d) (hI : I d)
    (hf : ∀ a s₁, R a s₁ → Drives step (f a) s₁ d I Q) : Drives step (x >>= f) s d I Q := by
  refine bind (R := fun a s' d' => R a s' ∧ d' = d) (h.weaken ?_ fun _ _ _ _ h => h) ?_
  · rintro _ rfl
    exact hI
  · rintro a s₁ _ _ ⟨hr, rfl⟩
    exact hf a s₁ hr

section continuations

variable {f : α → Action F σ ε β} {Q : β → σ → δ → Prop}

/-- A check, and then the rest. -/
theorem checked {r : Except ε α} (hI : I d) (hf : ∀ a, r = .ok a → Drives step (f a) s d I Q) :
    Drives step (Action.result r >>= f) s d I Q := by
  cases r with
  | error e => exact throw (α := β) hI
  | ok a => exact hf a rfl

theorem refused {bad : Prop} [Decidable bad] {e : ε} {f : Unit → Action F σ ε β} (hI : I d)
    (hf : ¬ bad → Drives step (f ()) s d I Q) :
    Drives step (Action.refuse bad e >>= f) s d I Q := by
  unfold Action.refuse
  by_cases hbad : bad
  · rw [if_pos hbad]
    exact throw (α := β) hI
  · rw [if_neg hbad]
    exact hf hbad

/-- A check that is made only on a condition. -/
theorem guarded {condition : Bool} {r : Except ε Unit} {f : Unit → Action F σ ε β} (hI : I d)
    (hf : (condition = true → r = .ok ()) → Drives step (f ()) s d I Q) :
    Drives step (Action.when condition (Action.result r) >>= f) s d I Q := by
  cases condition with
  | false => exact hf fun h => by cases h
  | true => exact checked hI fun _ h => hf fun _ => h

theorem reading {f : σ → Action F σ ε β} (hf : Drives step (f s) s d I Q) :
    Drives step ((MonadStateOf.get : Action F σ ε σ) >>= f) s d I Q := Meets.reading hf

theorem writing {s' : σ} {f : PUnit → Action F σ ε β} (hf : Drives step (f ⟨⟩) s' d I Q) :
    Drives step ((MonadStateOf.set s' : Action F σ ε PUnit) >>= f) s d I Q := Meets.writing hf

end continuations

theorem outcome {Q : Except ε α → σ → δ → Prop}
    (h : Drives step x s d I fun a => Q (.ok a)) (hE : ∀ e s' d', I d' → Q (.error e) s' d') :
    Drives step (Action.outcome x : Action F σ κ (Except ε α)) s d I Q :=
  Meets.outcome (Meets.weaken h (fun _ h => h) (fun e s' _ hi _ d' ht => hE e s' d' (hi d' ht))
    fun _ _ _ _ h => h)

theorem inside {wrap : σ → τ} {t : τ} {Q : α → τ → δ → Prop}
    (h : Drives step x s d I fun a s' => Q a (wrap s')) :
    Drives step (Action.inside wrap s x) t d I Q := Meets.inside h

end Drives

end Action

end Process

import Mathlib.Data.Nat.Notation
import Mathlib.Logic.Function.Basic
import Mathlib.Logic.Relation

/-! # Concurrent programs over a shared machine

A small model of a crash-prone service, over an arbitrary interface.

* **Programs.** `Program F α` is a tree of requests to the surroundings ending in a value; a
  request is answered before the program goes on.  `Program` is a monad.
* **Machines.** `Machine F` answers each request from the shared state and a *choice* made by
  the surroundings (a clock reading, a device's reply, an I/O failure), and moves the state.
  One request is one atomic step.  `environment` are the moves of the state that no program
  makes.
* **Services.** `Service M` starts by running a boot program alone; once that has returned
  `true` any number of calls run concurrently, one request at a time in any order
  (`Service.Step`).  A crash drops every running program and every result handed out so far,
  keeps the state, and boots again; it may happen at any moment, also while booting.
* **Calls.** `Service.Serves` says that a call made in one configuration returns its result in
  another; in between the other threads move as they like.
* **History.** A configuration records every request made so far with the thread that made
  it, the choice and the state before it (`Event`); nothing in a program reads the history.
* **Restarts.** `Service.Restart` is a crash followed by booting alone, up to wherever it has
  got; `Config.Opened` says that the boot program has succeeded.

`Service.Reachable` are the configurations of all runs.  `Service.play` carries out a list of
moves, and `Service.play_run` says that what it plays is a run. -/

namespace Process

/-- Requests and the type of the answer to each. -/
structure Interface where
  Request : Type
  Answer : Request → Type

/-- A program: requests to the surroundings, then a value. -/
inductive Program (F : Interface) (α : Type) : Type where
  | pure (a : α)
  | ask (r : F.Request) (next : F.Answer r → Program F α)

namespace Program

variable {F : Interface} {α β γ : Type}

def bind : Program F α → (α → Program F β) → Program F β
  | pure a, f => f a
  | ask r next, f => ask r (fun v => (next v).bind f)

instance : Monad (Program F) where
  pure := Program.pure
  bind := Program.bind

/-- The program that makes one request and returns the answer. -/
def request (r : F.Request) : Program F (F.Answer r) := ask r Program.pure

theorem bind_assoc (p : Program F α) (f : α → Program F β) (g : β → Program F γ) :
    (p.bind f).bind g = p.bind (fun a => (f a).bind g) := by
  induction p with
  | pure a => rfl
  | ask r next ih =>
      simp only [bind]
      congr 1
      funext v
      exact ih v

/-- Every request the program can make satisfies `P`. -/
def Asks (P : F.Request → Prop) : Program F α → Prop
  | pure _ => True
  | ask r next => P r ∧ ∀ v, (next v).Asks P

theorem Asks.bind {P : F.Request → Prop} {p : Program F α} {f : α → Program F β}
    (hp : p.Asks P) (hf : ∀ a, (f a).Asks P) : (p.bind f).Asks P := by
  induction p with
  | pure a => exact hf a
  | ask r next ih => exact ⟨hp.1, fun v => ih v (hp.2 v)⟩

theorem Asks.mono {P P' : F.Request → Prop} (h : ∀ r, P r → P' r) {p : Program F α}
    (hp : p.Asks P) : p.Asks P' := by
  induction p with
  | pure a => trivial
  | ask r next ih => exact ⟨h r hp.1, fun v => ih v (hp.2 v)⟩

/-- Every value the program can end with satisfies `P`. -/
def Ends (P : α → Prop) : Program F α → Prop
  | pure a => P a
  | ask _ next => ∀ v, (next v).Ends P

theorem Ends.bind {P : α → Prop} {Q : β → Prop} {p : Program F α} {f : α → Program F β}
    (hp : p.Ends P) (hf : ∀ a, P a → (f a).Ends Q) : (p.bind f).Ends Q := by
  induction p with
  | pure a => exact hf a hp
  | ask r next ih => exact fun v => ih v (hp v)

end Program

/-- Answers requests from a shared state and a choice of the surroundings. -/
structure Machine (F : Interface) where
  State : Type
  Choice : Type
  initial : State
  perform : (r : F.Request) → Choice → State → F.Answer r × State
  environment : State → State → Prop

/-- One request as it was made: by which thread, under which choice, in which state. -/
structure Event {F : Interface} (M : Machine F) where
  thread : ℕ
  request : F.Request
  choice : M.Choice
  before : M.State

namespace Event

variable {F : Interface} {M : Machine F}

def answer (e : Event M) : F.Answer e.request := (M.perform e.request e.choice e.before).1

def after (e : Event M) : M.State := (M.perform e.request e.choice e.before).2

end Event

/-- The requests made so far, newest first, and the state now. -/
structure Moment {F : Interface} (M : Machine F) where
  past : List (Event M)
  state : M.State

/-- The moment after thread `t` made request `r` under choice `c`. -/
def Moment.step {F : Interface} {M : Machine F} (x : Moment M) (t : ℕ) (r : F.Request)
    (c : M.Choice) : Moment M :=
  ⟨⟨t, r, c, x.state⟩ :: x.past, (M.perform r c x.state).2⟩

/-- A boot program and the calls the service then serves; `admits results call` says that a
client holding these results can make the call. -/
structure Service {F : Interface} (M : Machine F) where
  Call : Type
  Result : Type
  boot : Program F Bool
  body : Call → Program F Result
  admits : List Result → Call → Prop

namespace Service

variable {F : Interface} {M : Machine F} (S : Service M)

/-- The state, the history, the running calls, the results handed out since the last start,
the boot program while it runs, and the next unused thread. -/
structure Config where
  state : M.State
  history : List (Event M)
  threads : ℕ → Option (Program F S.Result)
  results : List S.Result
  booting : Option (ℕ × Program F Bool)
  next : ℕ

namespace Config

variable {S}

def moment (c : S.Config) : Moment M := ⟨c.history, c.state⟩

end Config

/-- The first start. -/
def start : S.Config where
  state := M.initial
  history := []
  threads := fun _ => none
  results := []
  booting := some (0, S.boot)
  next := 1

/-- The moves of a service. -/
inductive Step : S.Config → S.Config → Prop
  | call {c : S.Config} (q : S.Call) : c.booting = none → S.admits c.results q →
      Step c { c with
        threads := Function.update c.threads c.next (some (S.body q))
        next := c.next + 1 }
  | act {c : S.Config} {t : ℕ} {r : F.Request} {k : F.Answer r → Program F S.Result}
      (i : M.Choice) : c.threads t = some (.ask r k) →
      Step c { c with
        state := (M.perform r i c.state).2
        history := ⟨t, r, i, c.state⟩ :: c.history
        threads := Function.update c.threads t (some (k (M.perform r i c.state).1)) }
  | return {c : S.Config} {t : ℕ} {a : S.Result} : c.threads t = some (.pure a) →
      Step c { c with threads := Function.update c.threads t none, results := a :: c.results }
  | interfere {c : S.Config} {s : M.State} : M.environment c.state s →
      Step c { c with state := s }
  | crash {c : S.Config} :
      Step c { c with
        threads := fun _ => none
        results := []
        booting := some (c.next, S.boot)
        next := c.next + 1 }
  | bootAct {c : S.Config} {t : ℕ} {r : F.Request} {k : F.Answer r → Program F Bool}
      (i : M.Choice) : c.booting = some (t, .ask r k) →
      Step c { c with
        state := (M.perform r i c.state).2
        history := ⟨t, r, i, c.state⟩ :: c.history
        booting := some (t, k (M.perform r i c.state).1) }
  | booted {c : S.Config} {t : ℕ} : c.booting = some (t, .pure true) →
      Step c { c with booting := none }

/-- A run: any number of moves. -/
def Run : S.Config → S.Config → Prop := Relation.ReflTransGen S.Step

/-- The configurations of all runs from the first start. -/
def Reachable (c : S.Config) : Prop := S.Run S.start c

variable {S}

theorem Reachable.run {c c' : S.Config} (h : S.Reachable c) (hr : S.Run c c') : S.Reachable c' :=
  Relation.ReflTransGen.trans h hr

theorem Reachable.step {c c' : S.Config} (h : S.Reachable c) (hs : S.Step c c') :
    S.Reachable c' := Relation.ReflTransGen.tail h hs

/-- A property of the first start that every move keeps holds in every reachable
configuration. -/
theorem Reachable.induct {P : S.Config → Prop} (h₀ : P S.start)
    (hs : ∀ c c', S.Reachable c → P c → S.Step c c' → P c') {c : S.Config}
    (h : S.Reachable c) : P c := by
  induction h with
  | refl => exact h₀
  | tail hr hstep ih => exact hs _ _ hr ih hstep

/-- A run only extends the history. -/
theorem Run.history_suffix {c c' : S.Config} (h : S.Run c c') : c.history <:+ c'.history := by
  induction h with
  | refl => exact List.suffix_rfl
  | tail _ hs ih =>
      refine ih.trans ?_
      cases hs <;> first | exact List.suffix_cons _ _ | exact List.suffix_rfl

end Service

namespace Service

variable {F : Interface} {M : Machine F} {S : Service M}

/-- The configuration right after a call was made. -/
def Config.begun (c : S.Config) (q : S.Call) : S.Config :=
  { c with
    threads := Function.update c.threads c.next (some (S.body q))
    next := c.next + 1 }

/-- The call was made at `c`, and the run has got to `c'`; the call's thread is `c.next`. -/
structure Serving (S : Service M) (c : S.Config) (q : S.Call) (c' : S.Config) : Prop where
  up : c.booting = none
  admitted : S.admits c.results q
  run : S.Run (c.begun q) c'

/-- The call was made at `c` and is about to return `a` at `c'`. -/
structure Serves (S : Service M) (c : S.Config) (q : S.Call) (a : S.Result) (c' : S.Config) : Prop extends
    Serving S c q c' where
  result : c'.threads c.next = some (.pure a)

theorem Serving.reachable {c c' : S.Config} {q : S.Call} (h : S.Serving c q c')
    (hc : S.Reachable c) : S.Reachable c' :=
  (hc.step (.call q h.up h.admitted)).run h.run

/-- A call and what happened since are a run. -/
theorem Serving.along {c c' : S.Config} {q : S.Call} (h : S.Serving c q c') : S.Run c c' := by
  have hcall : S.Step c (c.begun q) := .call q h.up h.admitted
  exact Relation.ReflTransGen.head hcall h.run

/-- The configuration right after a crash. -/
def Config.crashed (c : S.Config) : S.Config :=
  { c with
    threads := fun _ => none
    results := []
    booting := some (c.next, S.boot)
    next := c.next + 1 }

/-- The service crashed and has been booting since, with any number of further crashes. -/
def Restart (c c' : S.Config) : Prop :=
  Relation.ReflTransGen (fun d d' => S.Step d d' ∧ d'.booting ≠ none) c.crashed c'

/-- The boot program has succeeded. -/
def Config.Opened (c : S.Config) : Prop := ∃ t, c.booting = some (t, .pure true)

theorem Restart.run {c c' : S.Config} (h : S.Restart c c') : S.Run c c' := by
  have hsteps : S.Run c.crashed c' := by
    induction h with
    | refl => exact Relation.ReflTransGen.refl
    | tail _ hs ih => exact ih.tail hs.1
  exact Relation.ReflTransGen.head Step.crash hsteps

end Service

/-! ### Playing a run -/

/-- A move of a service that can be carried out. -/
inductive Move {F : Interface} {M : Machine F} (S : Service M) where
  | call (q : S.Call)
  | act (t : ℕ) (i : M.Choice)
  | return (t : ℕ)
  | interfere (f : M.State → M.State) (allowed : ∀ s, M.environment s (f s))
  | crash
  | boot (i : M.Choice)
  | serve

namespace Service

variable {F : Interface} {M : Machine F} (S : Service M) [∀ results q, Decidable (S.admits results q)]

/-- Carry out one move; a move that is not possible does nothing. -/
def move (c : S.Config) : Move S → S.Config
  | .call q => if c.booting.isNone ∧ S.admits c.results q then c.begun q else c
  | .act t i =>
      match c.threads t with
      | some (.ask r k) => { c with
          state := (M.perform r i c.state).2
          history := ⟨t, r, i, c.state⟩ :: c.history
          threads := Function.update c.threads t (some (k (M.perform r i c.state).1)) }
      | _ => c
  | .return t =>
      match c.threads t with
      | some (.pure a) => { c with
          threads := Function.update c.threads t none
          results := a :: c.results }
      | _ => c
  | .interfere f _ => { c with state := f c.state }
  | .crash => c.crashed
  | .boot i =>
      match c.booting with
      | some (t, .ask r k) => { c with
          state := (M.perform r i c.state).2
          history := ⟨t, r, i, c.state⟩ :: c.history
          booting := some (t, k (M.perform r i c.state).1) }
      | _ => c
  | .serve =>
      match c.booting with
      | some (_, .pure true) => { c with booting := none }
      | _ => c

/-- Carry out moves one after the other. -/
def play (c : S.Config) (moves : List (Move S)) : S.Config := moves.foldl S.move c

variable {S}

theorem move_run (c : S.Config) (m : Move S) : S.Run c (S.move c m) := by
  cases m with
  | call q =>
      rw [move]
      split
      · next hq =>
          exact Relation.ReflTransGen.single (.call q (Option.isNone_iff_eq_none.mp hq.1) hq.2)
      · exact Relation.ReflTransGen.refl
  | act t i =>
      rw [move]
      split
      · next hc => exact Relation.ReflTransGen.single (.act i hc)
      · exact Relation.ReflTransGen.refl
  | «return» t =>
      rw [move]
      split
      · next hc => exact Relation.ReflTransGen.single (.return hc)
      · exact Relation.ReflTransGen.refl
  | interfere f allowed => exact Relation.ReflTransGen.single (.interfere (allowed _))
  | crash => exact Relation.ReflTransGen.single .crash
  | boot i =>
      rw [move]
      split
      · next hc => exact Relation.ReflTransGen.single (.bootAct i hc)
      · exact Relation.ReflTransGen.refl
  | serve =>
      rw [move]
      split
      · next hc => exact Relation.ReflTransGen.single (.booted hc)
      · exact Relation.ReflTransGen.refl

/-- What has been played is a run. -/
theorem play_run (c : S.Config) (moves : List (Move S)) : S.Run c (S.play c moves) := by
  induction moves generalizing c with
  | nil => exact Relation.ReflTransGen.refl
  | cons m moves ih => exact (move_run c m).trans (ih (S.move c m))

/-- A call that is played until it has a result. -/
theorem serves_of_play {c : S.Config} {q : S.Call} {a : S.Result} (moves : List (Move S))
    (hup : c.booting = none) (hq : S.admits c.results q)
    (hr : (S.play c (.call q :: moves)).threads c.next = some (.pure a)) :
    S.Serves c q a (S.play c (.call q :: moves)) := by
  refine ⟨⟨hup, hq, ?_⟩, hr⟩
  have hbegun : S.play c (.call q :: moves) = S.play (c.begun q) moves := by
    unfold play
    rw [List.foldl_cons, move, if_pos ⟨by rw [hup]; rfl, hq⟩]
  rw [hbegun]
  exact play_run _ moves

/-- Playing only moves of the boot program after a crash is a restart. -/
theorem boot_restart (c : S.Config) (i : M.Choice) (n : ℕ) :
    S.Restart c (S.play c.crashed (List.replicate n (.boot i))) := by
  have hmoves : ∀ d : S.Config, d.booting ≠ none →
      Relation.ReflTransGen (fun d d' => S.Step d d' ∧ d'.booting ≠ none) d
        (S.play d (List.replicate n (.boot i))) := by
    induction n with
    | zero => exact fun d _ => Relation.ReflTransGen.refl
    | succ n ih =>
        intro d hd
        change Relation.ReflTransGen _ d (S.play (S.move d (.boot i)) (List.replicate n (.boot i)))
        rw [move]
        split
        · next hb =>
            exact Relation.ReflTransGen.head ⟨.bootAct i hb, by simp⟩ (ih _ (by simp))
        · exact ih d hd
  exact hmoves _ (by simp [Config.crashed])

/-- Whether the boot program has succeeded. -/
def Config.opened (c : S.Config) : Bool :=
  match c.booting with
  | some (_, .pure true) => true
  | _ => false

omit [∀ results q, Decidable (S.admits results q)] in
theorem opened_iff {c : S.Config} : c.opened = true ↔ c.Opened := by
  unfold Config.opened Config.Opened
  split
  · next t hb => simp [hb]
  · next hno =>
      simp only [Bool.false_eq_true, false_iff, not_exists]
      exact hno

/-- What a thread is about to return. -/
def Config.reply (c : S.Config) (t : ℕ) : Option S.Result :=
  match c.threads t with
  | some (.pure a) => some a
  | _ => none

omit [∀ results q, Decidable (S.admits results q)] in
theorem reply_eq_some {c : S.Config} {t : ℕ} {a : S.Result} :
    c.reply t = some a ↔ c.threads t = some (.pure a) := by
  unfold Config.reply
  split
  · next b hb => simp [hb]
  · next hno =>
      simp only [reduceCtorEq, false_iff]
      exact hno a

end Service

end Process

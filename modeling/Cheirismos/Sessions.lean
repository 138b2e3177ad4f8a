import Cheirismos.RelyGuarantee

/-! # What a restart cuts off

Threads are numbered in the order in which they start, and a crash ends all of them before the
boot program gets a number of its own.  So a request that only the boot program makes stands
between the threads of two sessions: a thread that made a request before it, as only calls do,
makes no request after it (`Discipline.Sound.severed`).

`Chronicle.stopped` finds the request at which something stopped holding. -/

namespace Process

variable {F : Interface} {M : Machine F} {S : Service M} {D : Discipline S}

/-- The requests that only the boot program makes, and some that it never makes. -/
structure Discipline.Divides (D : Discipline S) (boots serves : F.Request → Prop) : Prop where
  legal : ∀ t x r, D.legal t x r → ¬ boots r
  bootLegal : ∀ t x r, D.bootLegal t x r → ¬ serves r

/-- How the threads are ordered around the requests of the boot program. -/
structure Severed (boots serves : F.Request → Prop) (c : S.Config) : Prop where
  threads : ∀ t p, c.threads t = some p → ∀ b ∈ c.history, boots b.request → b.thread < t
  booting : ∀ t p, c.booting = some (t, p) → ∀ e ∈ c.history,
    e.thread ≤ t ∧ (serves e.request → e.thread < t)
  before : ∀ b older, (b :: older) <:+ c.history → boots b.request →
    ∀ e ∈ older, serves e.request → e.thread < b.thread
  after : ∀ e older, (e :: older) <:+ c.history →
    ∀ b ∈ older, boots b.request → b.thread ≤ e.thread

namespace Severed

variable {boots serves : F.Request → Prop} {c : S.Config}

/-- A request of a call joins the history. -/
theorem act (h : Severed boots serves c) {t : ℕ} {r : F.Request} {k : F.Answer r → Program F S.Result}
    (ht : c.threads t = some (.ask r k)) (hb : c.booting = none) (hr : ¬ boots r) (i : M.Choice) :
    Severed boots serves { c with
      state := (M.perform r i c.state).2
      history := ⟨t, r, i, c.state⟩ :: c.history
      threads := Function.update c.threads t (some (k (M.perform r i c.state).1)) } where
  threads u p hu b hm hboots := by
    rcases List.mem_cons.mp hm with rfl | hold
    · exact absurd hboots hr
    · rcases Discipline.live_update hu with ⟨rfl, _⟩ | ⟨_, hp⟩
      · exact h.threads u _ ht b hold hboots
      · exact h.threads u p hp b hold hboots
  booting u p hu := by
    have hu' : c.booting = some (u, p) := hu
    rw [hb] at hu'
    cases hu'
  before b older he hboots := by
    rcases List.suffix_cons_iff.mp he with heq | hsuf
    · obtain ⟨rfl, rfl⟩ := List.cons.inj heq
      exact absurd hboots hr
    · exact h.before b older hsuf hboots
  after e older he b hm hboots := by
    rcases List.suffix_cons_iff.mp he with heq | hsuf
    · obtain ⟨rfl, rfl⟩ := List.cons.inj heq
      exact (h.threads t _ ht b hm hboots).le
    · exact h.after e older hsuf b hm hboots

/-- A request of the boot program joins the history. -/
theorem bootAct (h : Severed boots serves c) {t : ℕ} {r : F.Request} {k : F.Answer r → Program F Bool}
    (hb : c.booting = some (t, .ask r k)) (hnone : ∀ u, c.threads u = none) (hr : ¬ serves r)
    (i : M.Choice) :
    Severed boots serves { c with
      state := (M.perform r i c.state).2
      history := ⟨t, r, i, c.state⟩ :: c.history
      booting := some (t, k (M.perform r i c.state).1) } where
  threads u p hu := by
    have hu' : c.threads u = some p := hu
    rw [hnone u] at hu'
    cases hu'
  booting u p hu e hm := by
    obtain ⟨rfl, rfl⟩ := Prod.mk.inj (Option.some.inj hu)
    rcases List.mem_cons.mp hm with rfl | hm
    · exact ⟨le_rfl, fun hs => absurd hs hr⟩
    · exact h.booting _ _ hb e hm
  before b older he hboots e hm hs := by
    rcases List.suffix_cons_iff.mp he with heq | hsuf
    · obtain ⟨rfl, rfl⟩ := List.cons.inj heq
      exact (h.booting _ _ hb e hm).2 hs
    · exact h.before b older hsuf hboots e hm hs
  after e older he b hm hboots := by
    rcases List.suffix_cons_iff.mp he with heq | hsuf
    · obtain ⟨rfl, rfl⟩ := List.cons.inj heq
      exact (h.booting _ _ hb b hm).1
    · exact h.after e older hsuf b hm hboots

end Severed

namespace Discipline

variable {boots serves : F.Request → Prop}

theorem Sound.severed_step (hD : D.Sound) (hdiv : D.Divides boots serves) {c c' : S.Config}
    (hok : Ok D c) (h : Severed boots serves c) (hs : S.Step c c') : Severed boots serves c' := by
  cases hs with
  | call q hb hq =>
      refine ⟨fun t p ht b hm hboots => ?_, h.booting, h.before, h.after⟩
      rcases live_update ht with ⟨rfl, _⟩ | ⟨_, hp⟩
      · exact hok.fresh b hm
      · exact h.threads t p hp b hm hboots
  | @act t r k i ht =>
      have hlegal := ((hok.threads t _ ht).1 c.moment (hD.serving_lawful.refl t _) hok.inv).1.1
      have hnone : c.booting = none := by
        by_contra hb
        obtain ⟨⟨u, p⟩, hb⟩ := Option.ne_none_iff_exists'.mp hb
        have hu := (hok.booting u p hb).2.2.1 t
        rw [ht] at hu
        cases hu
      exact h.act ht hnone (hdiv.legal t _ r hlegal) i
  | @«return» t a ht =>
      refine ⟨fun u p hu b hm hboots => ?_, h.booting, h.before, h.after⟩
      rcases live_update hu with ⟨_, hp⟩ | ⟨_, hp⟩
      · cases hp
      · exact h.threads u p hp b hm hboots
  | interfere he => exact ⟨h.threads, h.booting, h.before, h.after⟩
  | crash =>
      refine ⟨fun t p ht => (by cases ht), fun t p ht e hm => ?_, h.before, h.after⟩
      obtain ⟨rfl, rfl⟩ := Prod.mk.inj (Option.some.inj ht)
      have hlt := hok.fresh e hm
      exact ⟨hlt.le, fun _ => hlt⟩
  | @bootAct t r k i hb =>
      obtain ⟨hhold, _, hnone, _⟩ := hok.booting t _ hb
      have hlegal := (hhold c.moment (hD.booting_lawful.refl t _) hok.inv).1
      exact h.bootAct hb hnone (hdiv.bootLegal t _ r hlegal) i
  | booted hb => exact ⟨h.threads, fun t p ht => (by cases ht), h.before, h.after⟩

/-- Whoever made a request before one of the boot program, as only calls do, makes none after
it. -/
theorem Sound.severed (hD : D.Sound) (hdiv : D.Divides boots serves) {c : S.Config}
    (h : S.Reachable c) {e b e₀ : Event M} {older mid : List (Event M)}
    (he : (e :: older) <:+ c.history) (hb : (b :: mid) <:+ older) (hboots : boots b.request)
    (he₀ : e₀ ∈ mid) (hserves : serves e₀.request) : e₀.thread ≠ e.thread := by
  have hsev : Severed boots serves c := by
    refine h.induct ⟨fun t p ht => (by cases ht), fun t p _ e hm => (by cases hm), fun b older hb => ?_,
      fun e older he => ?_⟩ (fun c c' hc hsev hs => hD.severed_step hdiv (hD.sound hc) hsev hs)
    · cases List.suffix_nil.mp hb
    · cases List.suffix_nil.mp he
  have holder := (List.suffix_cons e older).trans he
  have hlt := hsev.before b mid (hb.trans holder) hboots e₀ he₀ hserves
  have hle := hsev.after e older he b (hb.subset List.mem_cons_self) hboots
  exact ne_of_lt (lt_of_lt_of_le hlt hle)

end Discipline

/-! ### Where something stops -/

/-- What held after one recorded request and does not hold now, and no move of the environment
ends, stopped at a request in between. -/
theorem Chronicle.stopped {good : M.State → Prop} {sanctioned : ℕ → Moment M → F.Request → Prop}
    {P : M.State → Prop} (henv : ∀ a b, M.environment a b → P a → P b) {h : List (Event M)}
    {s : M.State} (hc : Chronicle good sanctioned h s) {e : Event M} {older : List (Event M)}
    (he : (e :: older) <:+ h) (hp : P e.after) (hnow : ¬ P s) :
    ∃ x mid, (x :: mid) <:+ h ∧ (e :: older) <:+ mid ∧ P x.before ∧ ¬ P x.after := by
  induction h generalizing s with
  | nil => cases List.suffix_nil.mp he
  | cons e' h ih =>
      obtain ⟨_, hd, _, hrest⟩ := hc
      have hdrift : P e'.after → P s := Chronicle.drift_of_moves (E := fun a b => P a → P b)
        (fun _ hp => hp) (fun _ _ _ h h' hp => h' (h hp)) henv hd
      rcases List.suffix_cons_iff.mp he with heq | hsuf
      · obtain ⟨rfl, rfl⟩ := List.cons.inj heq
        exact absurd (hdrift hp) hnow
      · by_cases hb : P e'.before
        · exact ⟨e', h, List.suffix_rfl, hsuf, hb, fun ha => hnow (hdrift ha)⟩
        · obtain ⟨x, mid, hx, hmid, hrest⟩ := ih hrest hsuf hb
          exact ⟨x, mid, hx.trans (List.suffix_cons _ _), hmid, hrest⟩

end Process

import Cheirismos.Dialogues
import Cheirismos.RelyGuarantee

/-! # What a thread has heard

A program can make a request because of an answer that it got before.  `Program.Recalls P past p`
says that every request of `p` satisfies `P` of what was asked and answered before it: first `past`,
then the program's own exchanges, newest first.

`Program.Concludes P past p` says of every value that `p` ends with that it satisfies `P` of all
exchanges until then.

In a service the threads take turns, but each makes the requests of its own program.  So what is
shown of the program of every call holds of every request in the history of every run, together
with what the thread of this request has heard (`Reachable.recalls`), and of what a call returns,
together with what its thread has heard (`Serves.concludes`). -/

namespace Process

variable {F : Interface} {α β : Type}

/-! ### Programs -/

/-- Every request of the program satisfies `P` of the exchanges before it. -/
def Program.Recalls (P : List (Exchange F) → F.Request → Prop) (past : List (Exchange F)) :
    Program F α → Prop
  | .pure _ => True
  | .ask r next => P past r ∧ ∀ v, (next v).Recalls P (⟨r, some v⟩ :: past)

namespace Program

variable {P : List (Exchange F) → F.Request → Prop} {past : List (Exchange F)}

/-- One program after the other, with what is known of the value of the first. -/
theorem Recalls.ends {Q : α → Prop} {p : Program F α} {f : α → Program F β} (hp : p.Recalls P past)
    (hq : p.Ends Q) (hf : ∀ a past', Q a → past <:+ past' → (f a).Recalls P past') :
    (p.bind f).Recalls P past := by
  induction p generalizing past with
  | pure a => exact hf a past hq List.suffix_rfl
  | ask r next ih =>
      refine ⟨hp.1, fun v => ih v (hp.2 v) (hq v) fun a past' ha h => hf a past' ha ?_⟩
      exact (List.suffix_cons _ past).trans h

theorem ends_any (p : Program F α) : p.Ends fun _ => True := by
  induction p with
  | pure a => trivial
  | ask r next ih => exact ih

/-- One program after the other. -/
theorem Recalls.bind {p : Program F α} {f : α → Program F β} (hp : p.Recalls P past)
    (hf : ∀ a past', past <:+ past' → (f a).Recalls P past') : (p.bind f).Recalls P past :=
  hp.ends p.ends_any fun a past' _ => hf a past'

/-- A program whose requests need no past. -/
theorem Asks.recalls {p : Program F α} (h : p.Asks fun r => ∀ past, P past r) :
    p.Recalls P past := by
  induction p generalizing past with
  | pure a => trivial
  | ask r next ih => exact ⟨h.1 past, fun v => ih v (h.2 v)⟩

end Program

/-- Every value that the program can end with satisfies `P` of the exchanges until then. -/
def Program.Concludes (P : List (Exchange F) → α → Prop) (past : List (Exchange F)) :
    Program F α → Prop
  | .pure a => P past a
  | .ask r next => ∀ v, (next v).Concludes P (⟨r, some v⟩ :: past)

namespace Program

variable {past : List (Exchange F)} {p : Program F α}

theorem Concludes.mono {P P' : List (Exchange F) → α → Prop} (h : p.Concludes P' past)
    (hP : ∀ past a, P' past a → P past a) : p.Concludes P past := by
  induction p generalizing past with
  | pure a => exact hP past a h
  | ask r next ih => exact fun v => ih v (h v)

/-- One program after the other. -/
theorem Concludes.bind {P : List (Exchange F) → β → Prop} {f : α → Program F β}
    (h : p.Concludes (fun past' a => (f a).Concludes P past') past) :
    (p.bind f).Concludes P past := by
  induction p generalizing past with
  | pure a => exact h
  | ask r next ih => exact fun v => ih v (h v)

/-- A program only adds exchanges that it can make. -/
theorem Asks.concludes {P : F.Request → Prop} (h : p.Asks P) :
    p.Concludes (fun past' _ => ∃ more, past' = more ++ past ∧ ∀ x ∈ more, P x.request) past := by
  induction p generalizing past with
  | pure a => exact ⟨[], rfl, fun _ hx => absurd hx List.not_mem_nil⟩
  | ask r next ih =>
      refine fun v => (ih v (h.2 v)).mono ?_
      rintro past' _ ⟨more, rfl, hmore⟩
      refine ⟨more ++ [⟨r, some v⟩], by rw [List.append_assoc]; rfl, fun x hx => ?_⟩
      rcases List.mem_append.mp hx with hx | hx
      · exact hmore x hx
      · rw [List.mem_singleton.mp hx]
        exact h.1

end Program

/-! ### Services -/

/-- What the thread has asked and heard, newest first. -/
def heard {M : Machine F} (t : ℕ) (past : List (Event M)) : List (Exchange F) :=
  (past.filter fun e => e.thread = t).map fun e => ⟨e.request, some e.answer⟩

section service

variable {M : Machine F} {S : Service M} {P : List (Exchange F) → F.Request → Prop}

theorem heard_own {t : ℕ} {r : F.Request} {i : M.Choice} {s : M.State} {past : List (Event M)} :
    heard t (⟨t, r, i, s⟩ :: past) = ⟨r, some (M.perform r i s).1⟩ :: heard t past := by
  simp [heard, Event.answer]

theorem heard_other {t u : ℕ} {r : F.Request} {i : M.Choice} {s : M.State} {past : List (Event M)}
    (h : u ≠ t) : heard u (⟨t, r, i, s⟩ :: past) = heard u past := by
  simp [heard, h.symm]

theorem heard_fresh {t : ℕ} {past : List (Event M)} (h : ∀ e ∈ past, e.thread < t) :
    heard t past = [] := by
  rw [heard, List.map_eq_nil_iff, List.filter_eq_nil_iff]
  intro e he
  simpa using ne_of_lt (h e he)

/-- An exchange that was heard is an event. -/
theorem mem_heard {t : ℕ} {past : List (Event M)} {x : Exchange F} (h : x ∈ heard t past) :
    ∃ e ∈ past, e.thread = t ∧ x = ⟨e.request, some e.answer⟩ := by
  obtain ⟨e, he, rfl⟩ := List.mem_map.mp h
  obtain ⟨hm, ht⟩ := List.mem_filter.mp he
  exact ⟨e, hm, by simpa using ht, rfl⟩

theorem mem_heard_iff {t : ℕ} {past : List (Event M)} {r : F.Request} {v : F.Answer r} :
    (⟨r, some v⟩ : Exchange F) ∈ heard t past ↔
      ∃ i s, (⟨t, r, i, s⟩ : Event M) ∈ past ∧ (M.perform r i s).1 = v := by
  constructor
  · intro h
    obtain ⟨⟨u, r', i, s⟩, he, rfl, heq⟩ := mem_heard h
    injection heq with hr hv
    subst hr
    exact ⟨i, s, he, (Option.some.inj (eq_of_heq hv)).symm⟩
  · rintro ⟨i, s, he, rfl⟩
    exact List.mem_map.mpr ⟨_, List.mem_filter.mpr ⟨he, decide_eq_true rfl⟩, rfl⟩

/-- Every running program goes on from what its thread has heard. -/
structure Attentive (P : List (Exchange F) → F.Request → Prop) (c : S.Config) : Prop where
  threads : ∀ t p, c.threads t = some p → p.Recalls P (heard t c.history) ∧ t < c.next
  booting : ∀ t p, c.booting = some (t, p) → p.Recalls P (heard t c.history) ∧ t < c.next ∧
    ∀ u, c.threads u = none
  fresh : ∀ e ∈ c.history, e.thread < c.next
  recorded : ∀ e older, (e :: older) <:+ c.history → P (heard e.thread older) e.request

variable (hbody : ∀ q, (S.body q).Recalls P []) (hboot : S.boot.Recalls P [])

include hboot in
theorem attentive_start : Attentive P S.start where
  threads t p ht := by cases ht
  booting t p ht := by
    cases ht
    exact ⟨hboot, Nat.zero_lt_one, fun _ => rfl⟩
  fresh e he := by cases he
  recorded e older he := by cases List.suffix_nil.mp he

/-- The history after one more request. -/
theorem Attentive.recorded_cons {c : S.Config} (h : Attentive P c) {e' : Event M}
    (hP : P (heard e'.thread c.history) e'.request) {e : Event M} {older : List (Event M)}
    (he : (e :: older) <:+ e' :: c.history) : P (heard e.thread older) e.request := by
  rcases List.suffix_cons_iff.mp he with heq | hsuf
  · obtain ⟨rfl, rfl⟩ := List.cons.inj heq
    exact hP
  · exact h.recorded e older hsuf

include hbody hboot in
theorem Attentive.step {c c' : S.Config} (h : Attentive P c) (hs : S.Step c c') :
    Attentive P c' := by
  cases hs with
  | call q hb hq =>
      refine ⟨fun t p ht => ?_, fun t p ht => ?_, fun e he => Nat.lt_succ_of_lt (h.fresh e he),
        h.recorded⟩
      · rcases Discipline.live_update ht with ⟨rfl, hp⟩ | ⟨_, hp⟩
        · cases hp
          rw [heard_fresh h.fresh]
          exact ⟨hbody q, Nat.lt_succ_self _⟩
        · obtain ⟨hrecalls, hlt⟩ := h.threads t p hp
          exact ⟨hrecalls, Nat.lt_succ_of_lt hlt⟩
      · have hbooting : c.booting = some (t, p) := ht
        rw [hb] at hbooting
        cases hbooting
  | @act t r k i ht =>
      obtain ⟨⟨hr, hk⟩, hlt⟩ := h.threads t _ ht
      refine ⟨fun u p hu => ?_, fun u p hu => ?_, fun e he => ?_, fun e older he =>
        h.recorded_cons hr he⟩
      · rcases Discipline.live_update hu with ⟨rfl, hp⟩ | ⟨hne, hp⟩
        · cases hp
          exact ⟨heard_own.symm ▸ hk _, hlt⟩
        · obtain ⟨hrecalls, hlt'⟩ := h.threads u p hp
          exact ⟨(heard_other hne).symm ▸ hrecalls, hlt'⟩
      · have hnone := (h.booting u p hu).2.2 t
        rw [ht] at hnone
        cases hnone
      · rcases List.mem_cons.mp he with rfl | he
        · exact hlt
        · exact h.fresh e he
  | @«return» t a ht =>
      refine ⟨fun u p hu => ?_, fun u p hu => ?_, h.fresh, h.recorded⟩
      · rcases Discipline.live_update hu with ⟨_, hp⟩ | ⟨_, hp⟩
        · cases hp
        · exact h.threads u p hp
      · have hnone := (h.booting u p hu).2.2 t
        rw [ht] at hnone
        cases hnone
  | interfere _ => exact ⟨h.threads, h.booting, h.fresh, h.recorded⟩
  | crash =>
      refine ⟨fun t p ht => (by cases ht), fun t p ht => ?_,
        fun e he => Nat.lt_succ_of_lt (h.fresh e he), h.recorded⟩
      cases ht
      rw [heard_fresh h.fresh]
      exact ⟨hboot, Nat.lt_succ_self _, fun _ => rfl⟩
  | @bootAct t r k i hb =>
      obtain ⟨⟨hr, hk⟩, hlt, hnone⟩ := h.booting t _ hb
      refine ⟨fun u p hu => ?_, fun u p hu => ?_, fun e he => ?_, fun e older he =>
        h.recorded_cons hr he⟩
      · have hu' : c.threads u = some p := hu
        rw [hnone u] at hu'
        cases hu'
      · cases hu
        exact ⟨heard_own.symm ▸ hk _, hlt, hnone⟩
      · rcases List.mem_cons.mp he with rfl | he
        · exact hlt
        · exact h.fresh e he
  | booted hb =>
      exact ⟨h.threads, fun t p ht => (by cases ht), h.fresh, h.recorded⟩

/-- The program of the thread, while it runs, goes on from what the thread has heard to a value that
satisfies `P`. -/
structure Conclusive (P : List (Exchange F) → S.Result → Prop) (t : ℕ) (c : S.Config) : Prop where
  thread : ∀ p, c.threads t = some p → p.Concludes P (heard t c.history)
  past : t < c.next
  booting : c.booting ≠ none → c.threads t = none

theorem conclusive_begun {P : List (Exchange F) → S.Result → Prop} {c : S.Config} {q : S.Call}
    (hup : c.booting = none) (hq : (S.body q).Concludes P (heard c.next c.history)) :
    Conclusive P c.next (c.begun q) where
  thread p hp := by
    rcases Discipline.live_update hp with ⟨_, hp⟩ | ⟨hne, _⟩
    · cases hp
      exact hq
    · exact absurd rfl hne
  past := Nat.lt_succ_self _
  booting h := absurd hup h

theorem Conclusive.step {P : List (Exchange F) → S.Result → Prop} {t : ℕ} {c c' : S.Config}
    (h : Conclusive P t c) (hs : S.Step c c') : Conclusive P t c' := by
  cases hs with
  | call q hup _ =>
      refine ⟨fun p hp => ?_, Nat.lt_succ_of_lt h.past, fun hb => absurd hup hb⟩
      rcases Discipline.live_update hp with ⟨rfl, _⟩ | ⟨_, hp⟩
      · exact absurd h.past (lt_irrefl _)
      · exact h.thread p hp
  | @act u r k i hu =>
      refine ⟨fun p hp => ?_, h.past, fun hb => ?_⟩
      · rcases Discipline.live_update hp with ⟨he, hp⟩ | ⟨hne, hp⟩
        · cases hp
          have hask : (Program.ask r k).Concludes P (heard t c.history) := h.thread _ (he ▸ hu)
          rw [← he, heard_own]
          exact hask _
        · rw [heard_other hne]
          exact h.thread p hp
      · by_cases hut : t = u
        · exact absurd (hut ▸ h.booting hb) (by rw [hu]; exact Option.some_ne_none _)
        · exact (Function.update_of_ne hut _ _).trans (h.booting hb)
  | @«return» u a hu =>
      refine ⟨fun p hp => ?_, h.past, fun hb => ?_⟩
      · rcases Discipline.live_update hp with ⟨_, hp⟩ | ⟨_, hp⟩
        · cases hp
        · exact h.thread p hp
      · by_cases hut : t = u
        · exact absurd (hut ▸ h.booting hb) (by rw [hu]; exact Option.some_ne_none _)
        · exact (Function.update_of_ne hut _ _).trans (h.booting hb)
  | interfere _ => exact ⟨h.thread, h.past, h.booting⟩
  | crash =>
      exact ⟨fun p hp => (by cases hp), Nat.lt_succ_of_lt h.past, fun _ => rfl⟩
  | @bootAct u r k i hb =>
      have hnone : c.threads t = none := h.booting (by rw [hb]; exact Option.some_ne_none _)
      refine ⟨fun p hp => ?_, h.past, fun _ => hnone⟩
      cases hnone.symm.trans hp
  | booted hb =>
      exact ⟨h.thread, h.past, fun h => absurd rfl h⟩

namespace Service

include hbody hboot in
/-- Every request in the history satisfies `P` of what its thread had heard. -/
theorem Reachable.recalls {c : S.Config} (h : S.Reachable c) {e : Event M}
    {older : List (Event M)} (he : (e :: older) <:+ c.history) :
    P (heard e.thread older) e.request := by
  have hatt : Attentive P c :=
    h.induct (attentive_start hboot) fun _ _ _ hc hs => hc.step hbody hboot hs
  exact hatt.recorded e older he

/-- What a call returns satisfies `P` of what its thread has heard. -/
theorem Serves.concludes {P : List (Exchange F) → S.Result → Prop} {c c' : S.Config} {q : S.Call}
    {a : S.Result} (hs : S.Serves c q a c')
    (hq : (S.body q).Concludes P (heard c.next c.history)) : P (heard c.next c'.history) a := by
  have hrun : ∀ {d : S.Config}, S.Run (c.begun q) d → Conclusive P c.next d := by
    intro d hr
    induction hr with
    | refl => exact conclusive_begun hs.up hq
    | tail _ hstep ih => exact ih.step hstep
  exact (hrun hs.run).thread _ hs.result

end Service

end service

end Process

import Cheirismos.Bench
import Cheirismos.Conformance
import Cheirismos.Transitions

/-! # The cursor of a run

The cursor of a run is moved in two ways: `execute_next` reads the run in one section of the
store's lock and writes it back in another (`advance_run`), and `resume_plan` counts, in one
transaction, the attempts named in the run that are completed (`repair_run_cursor`).

* While the identities of the steps of every run were those of no other attempt, and no takeover
  was answered from an ordinary attempt (`Orderly`), every step in front of the cursor of a run
  is done, and `resume_plan` answers that the run is complete only when each operation of its
  plan has its own completed attempt (`cursor_earned`).
* The cursor never moves backwards, except when the run is written back after the others have
  moved its cursor beyond the next step (`cursor_monotone`). -/

namespace Cheirismos

open Process

variable [Platform]

/-! ### Steps in front of the cursor -/

omit [Platform] in
/-- The attempts that a repair counts are completed. -/
theorem completedSteps_spec {s : Store} : ∀ {steps : List (AttemptId × RequestId)} {i : ℕ},
    i < completedSteps s steps → ∃ id request a, steps[i]? = some (id, request) ∧
      s.loadAttempt id = some a ∧ a.state = .completed := by
  intro steps
  induction steps with
  | nil => exact fun h => absurd h (Nat.not_lt_zero _)
  | cons step steps ih =>
      obtain ⟨id, request⟩ := step
      intro i hi
      unfold completedSteps at hi
      split at hi
      · next a ha =>
          split_ifs at hi with hdone
          · cases i with
            | zero => exact ⟨id, request, a, rfl, ha, hdone⟩
            | succ i => exact ih (Nat.lt_of_succ_lt_succ hi)
          · exact absurd hi (Nat.not_lt_zero _)
      · exact absurd hi (Nat.not_lt_zero _)

/-- Every step in front of the cursor of a run is done. -/
def Store.Earned (s : Store) : Prop := ∀ run ∈ s.runs, ∀ i < run.cursor, s.StepDone run.pair i

/-- The steps in front of one that is done are done. -/
theorem Store.Good.stepDone {s : Store} (hg : s.Good) {p : Pair} {i j : ℕ} (h : s.StepDone p j)
    (hij : i ≤ j) : s.StepDone p i := by
  obtain ⟨a, ha, rfl, rfl, hdone⟩ := h
  rcases Nat.lt_or_eq_of_le hij with hlt | rfl
  · obtain ⟨b, hb, hp, hi, hs, _⟩ := hg.regular.earlier ha hlt
    exact ⟨b, hb, hp, hi, hs⟩
  · exact ⟨a, ha, rfl, rfl, hdone⟩

/-- While the steps of runs are kept apart, a call leaves every cursor behind steps that are
done. -/
theorem RunChange.earned {s s' : Store} {t : ℕ} {past : List (Event machine)} {w : World}
    {call : StoreCall} {run : PlanRun} (hw : w.store = s) (hg : s.Good) (he : Evolves s s')
    (hs : Sanctioned t ⟨past, w⟩ (.store call)) (horder : Orderly past) (hal : s.Aligned)
    (hearned : s.Earned) (h : RunChange s run call) : ∀ i < run.cursor, s'.StepDone run.pair i := by
  intro i hi
  refine Store.StepDone.evolve ?_ he
  cases h with
  | kept old => exact hearned run old i hi
  | created _ =>
      have hl : Legal t ⟨past, w⟩ (.store (.createRun run)) := hs.resolve_right fun h => by cases h
      rw [hl.1] at hi
      exact absurd hi (Nat.not_lt_zero i)
  | advanced _ _ =>
      have hl : Legal t ⟨past, w⟩ (.store (.saveRun run)) := hs.resolve_right fun h => by cases h
      obtain ⟨index, hcursor, hdone⟩ := hl.done horder
      rw [show (⟨past, w⟩ : Moment machine).state.store = s from hw] at hdone
      exact hg.stepDone hdone (by omega)
  | @repaired r old behind result =>
      subst result
      obtain ⟨id, request, a, hstep, hload, hdone⟩ := completedSteps_spec hi
      obtain ⟨ha, hid⟩ := hg.regular.coherent.loadAttempt_eq_some.mp hload
      obtain ⟨hp, hindex⟩ := hal r old i id request hstep a ha hid
      exact ⟨a, ha, hp, hindex, hdone⟩
  | @recovered a snapshot recovery _ =>
      have hl : Legal t ⟨past, w⟩ (.store (.takeoverRecovery a snapshot run recovery)) :=
        hs.resolve_right fun h => by cases h
      rw [hl.2.runCursor] at hi
      exact absurd hi (Nat.not_lt_zero i)

/-- In an orderly history every cursor is behind steps that are done. -/
theorem History.earned {past : List (Event machine)} {w : World} (hist : History past w)
    (horder : Orderly past) : w.store.Earned := by
  refine hist.keeps (P := fun past s => Orderly past → s.Earned)
    (fun _ _ h => (Table.not_mem_empty _ h).elim) ?_ ?_ horder
  · intro e older s h ho
    exact h (ho.of_subset fun _ he => List.mem_cons_of_mem _ he)
  · intro e older call hold hearned _ hs hc ho run hrun
    have holder : Orderly older := ho.of_subset fun _ he => List.mem_cons_of_mem _ he
    exact (hc.run hold.good hrun).earned rfl hold.good (hc.evolves hold.good) hs holder
      (ho e List.mem_cons_self).1 (hearned holder)

section runs

variable {c : daemon.Config}

/-- In an orderly history every step in front of the cursor of a run is done, and a run is
answered to be complete only when each operation of its plan has its own completed attempt. -/
theorem cursor_earned (h : Reachable c) (horder : Orderly c.history) :
    c.state.store.Earned ∧ ∀ d agent id, Reachable d →
      daemon.Serves d (.resumePlan agent id) (.ticket (.error Supervisor.runComplete)) c →
      ∃ run ∈ c.state.store.runs, run.id = id ∧ ∃ plan ∈ c.state.store.plans,
        plan.id = run.plan ∧ ∀ i < plan.operations.length, c.state.store.StepDone run.pair i := by
  refine ⟨h.history.earned horder, fun d agent id hd hs => ?_⟩
  have hm := (discipline_sound.sound hd).inv
  obtain ⟨r, y, hwrap, hres, hyc⟩ := (yields_served hd hs.toServing rfl
    (Supervisor.resumePlan_yields hm agent id)).2 _ hs.result
  cases hwrap
  obtain ⟨run, hrun, hid, hsteps⟩ := hres rfl
  have hall := hsteps ((Follows.of_onward hyc).orderly horder)
  obtain ⟨run', hrun', hc⟩ := hyc.evolves.runs run hrun
  obtain ⟨plan, hplan, hpid, hlength⟩ := h.good.stocked.runs run' hrun'
  refine ⟨run', hrun', hc.id_eq.trans hid, plan, hplan, hpid, fun i hi => ?_⟩
  rw [← hlength, hc.steps_eq] at hi
  rw [hc.pair_eq]
  exact (hall i hi).evolve hyc.evolves

/-- The request is the transaction of a takeover. -/
def Request.takesOver : Request → Bool
  | .store (.takeoverRecovery _ _ _ _) => true
  | _ => false

/-- That a history is orderly, read off the rows. -/
theorem orderly_of_rows {past : List (Event machine)} (hrows : ∀ e ∈ past,
    e.request.takesOver = false ∧ ∀ run ∈ e.before.store.runs.rows,
      ∀ row ∈ e.before.store.attempts.rows, ∀ step ∈ run.steps.zipIdx, row.json.id = step.1.1 →
        row.json.pair = run.pair ∧ row.json.operationIndex = step.2) : Orderly past := by
  intro e he
  obtain ⟨hnone, hal⟩ := hrows e he
  refine ⟨fun run hrun index id request hstep a ha hid => ?_, fun a snapshot run recovery hr => ?_⟩
  · exact hal run hrun _ ha ((id, request), index)
      (List.mk_mem_zipIdx_iff_getElem?.mpr hstep) hid
  · rw [hr] at hnone
    cases hnone

omit [Platform] in
open Bench in
set_option maxRecDepth 20000 in
theorem cursor_earned_bench :
    ∃ run ∈ (called accomplished (.resumePlan agent r₁) lost 60).state.store.runs, run.id = r₁ ∧
      ∃ plan ∈ (called accomplished (.resumePlan agent r₁) lost 60).state.store.plans,
        plan.id = run.plan ∧ ∀ i < plan.operations.length,
          (called accomplished (.resumePlan agent r₁) lost 60).state.store.StepDone run.pair i := by
  obtain ⟨hup, hreply, hrows⟩ : (bench accomplished).booting.isNone = true ∧
      declined Supervisor.runComplete ((called accomplished (.resumePlan agent r₁) lost 60).reply
        (bench accomplished).next) = true ∧
      ∀ e ∈ (called accomplished (.resumePlan agent r₁) lost 60).history,
        e.request.takesOver = false ∧
          ∀ run ∈ e.before.store.runs.rows, ∀ row ∈ e.before.store.attempts.rows,
            ∀ step ∈ run.steps.zipIdx, row.json.id = step.1.1 →
              row.json.pair = run.pair ∧ row.json.operationIndex = step.2 := by
    decide +kernel
  exact (@cursor_earned Bench.platform _ (called_reachable ..)
    (@orderly_of_rows Bench.platform _ hrows)).2 _ _ _ (bench_reachable _)
    (called_serves hup (by trivial) (eq_of_declined hreply))

/-- A run that is past a step of which its pair has no attempt, read off the rows. -/
theorem unearned_of_rows {id : RequestId} (hrows : ∃ run ∈ c.state.store.runs.rows, run.id = id ∧
    0 < run.cursor ∧ ∀ row ∈ c.state.store.attempts.rows, row.json.pair ≠ run.pair) :
    ∃ run ∈ c.state.store.runs, run.id = id ∧ 0 < run.cursor ∧
      ∀ i, ¬ c.state.store.StepDone run.pair i := by
  obtain ⟨run, hrun, hid, hpos, hnone⟩ := hrows
  exact ⟨run, hrun, hid, hpos, fun i ⟨a, ha, hp, _⟩ => hnone _ ha hp⟩

omit [Platform] in
open Bench in
set_option maxRecDepth 20000 in
/-- A run whose pair has no attempt is past its step, and is answered to be complete. -/
theorem cursor_unearned :
    (@daemon Bench.platform).Serves (bench impersonated) (.resumePlan agent r₂)
      (.ticket (.error Supervisor.runComplete))
      (called impersonated (.resumePlan agent r₂) lost 60) ∧
    ∃ run ∈ (called impersonated (.resumePlan agent r₂) lost 60).state.store.runs, run.id = r₂ ∧
      0 < run.cursor ∧ ∀ i,
        ¬ (called impersonated (.resumePlan agent r₂) lost 60).state.store.StepDone run.pair i := by
  obtain ⟨hup, hreply, hrows⟩ : (bench impersonated).booting.isNone = true ∧
      declined Supervisor.runComplete ((called impersonated (.resumePlan agent r₂) lost 60).reply
        (bench impersonated).next) = true ∧
      ∃ run ∈ (called impersonated (.resumePlan agent r₂) lost 60).state.store.runs.rows,
        run.id = r₂ ∧ 0 < run.cursor ∧
          ∀ row ∈ (called impersonated (.resumePlan agent r₂) lost 60).state.store.attempts.rows,
            row.json.pair ≠ run.pair := by
    decide +kernel
  exact ⟨called_serves hup (by trivial) (eq_of_declined hreply),
    @unearned_of_rows Bench.platform _ _ hrows⟩

end runs

/-! ### Direction of the cursor -/

/-- Every run stays on record, its cursor where it was or further. -/
def Store.Upward (s s' : Store) : Prop :=
  ∀ run ∈ s.runs, ∃ run' ∈ s'.runs, run'.id = run.id ∧ run.cursor ≤ run'.cursor

omit [Platform] in
theorem Store.Upward.refl (s : Store) : s.Upward s := fun run hr => ⟨run, hr, rfl, le_rfl⟩

omit [Platform] in
theorem Store.Upward.trans {s s' s'' : Store} (h : s.Upward s') (h' : s'.Upward s'') :
    s.Upward s'' := by
  intro run hr
  obtain ⟨run', hr', hid, hle⟩ := h run hr
  obtain ⟨run'', hr'', hid', hle'⟩ := h' run' hr'
  exact ⟨run'', hr'', hid'.trans hid, hle.trans hle'⟩

/-- The request writes back a run that its thread has just read, while the cursor on record has
already gone beyond the step after the one that was read. -/
def Overtaken (older : List (Event machine)) (e : Event machine) : Prop :=
  ∃ run r, e.request = .store (.saveRun run) ∧ e.choice.storeFault = none ∧
    LastRead e.thread older r ∧ r.id = run.id ∧
    ∃ q ∈ e.before.store.runs, q.id = r.id ∧ r.cursor + 1 < q.cursor

/-- The last thing a thread did is one thing. -/
theorem LastRead.unique {t : ℕ} {past : List (Event machine)} {r r' : PlanRun}
    (h : LastRead t past r) (h' : LastRead t past r') : r' = r := by
  obtain ⟨between, e, older, hpast, ht, hreq, hr, hother⟩ := h
  obtain ⟨between', e', older', hpast', ht', hreq', hr', hother'⟩ := h'
  have hsuf : (e :: older) <:+ past := ⟨between, hpast.symm⟩
  have hsuf' : (e' :: older') <:+ past := ⟨between', hpast'.symm⟩
  -- neither of the two requests is in front of the other
  rcases suffix_trichotomy hsuf hsuf' with ⟨rfl, rfl⟩ | hlt | hlt
  · rw [hreq] at hreq'
    injection hreq' with hcall
    injection hcall with hid
    exact e.before.store.runs.eq_of_key_eq hr' hr hid.symm
  · rw [hpast] at hsuf'
    exact absurd ht' (hother e' (mem_of_suffix_append hsuf' hlt))
  · rw [hpast'] at hsuf
    exact absurd ht (hother' e (mem_of_suffix_append hsuf hlt))

omit [Platform] in
/-- Apart from the second section of `advance_run`, a call moves no cursor backwards. -/
theorem RunChange.cursor_le {s : Store} {call : StoreCall} {run run' : PlanRun} (hr : run ∈ s.runs)
    (hid : run'.id = run.id) (hsave : ∀ r, call ≠ .saveRun r) (h : RunChange s run' call) :
    run.cursor ≤ run'.cursor := by
  cases h with
  | kept old =>
      obtain rfl := s.runs.eq_of_key_eq old hr hid
      exact le_rfl
  | created fresh => exact absurd hid.symm (fresh run hr)
  | advanced _ _ => exact absurd rfl (hsave run')
  | @repaired r old behind result =>
      subst result
      obtain rfl := s.runs.eq_of_key_eq old hr hid
      exact le_of_lt behind
  | recovered fresh => exact absurd hid.symm (fresh run hr)

/-- The second section of `advance_run` puts its run in place of the one on record, unless the
store fails. -/
theorem after_saveRun {e : Event machine} {w : PlanRun} (hreq : e.request = .store (.saveRun w)) :
    (e.choice.storeFault ≠ none ∧ e.after.store = e.before.store) ∨
      (e.choice.storeFault = none ∧
        e.after.store = { e.before.store with runs := e.before.store.runs.upsert w }) := by
  have hafter : e.after.store = (performStore (.saveRun w) e.choice e.before.store).2 := by
    unfold Event.after
    rw [hreq]
    rfl
  rw [hafter]
  unfold performStore
  cases e.choice.storeFault with
  | some fault => exact Or.inl ⟨by simp, rfl⟩
  | none => exact Or.inr ⟨rfl, rfl⟩

/-- What the second section of `advance_run` writes back. -/
theorem Sanctioned.read {t : ℕ} {x : Moment machine} {w : PlanRun}
    (hs : Sanctioned t x (.store (.saveRun w))) :
    ∃ r, LastRead t x.past r ∧ w = { r with cursor := r.cursor + 1 } := by
  have hl : Legal t x (.store (.saveRun w)) := hs.resolve_right fun h => by cases h
  exact hl.read

/-- The second section of `advance_run` moves a cursor backwards exactly when it was overtaken. -/
theorem saveRun_upward_iff {older : List (Event machine)} {e : Event machine} {w : PlanRun}
    (hs : Sanctioned e.thread ⟨older, e.before⟩ (.store (.saveRun w)))
    (hreq : e.request = .store (.saveRun w)) :
    e.before.store.Upward e.after.store ↔ ¬ Overtaken older e := by
  obtain ⟨r, hread, hw⟩ := hs.read
  have hwid : w.id = r.id := by rw [hw]
  have hwcursor : w.cursor = r.cursor + 1 := by rw [hw]
  rcases after_saveRun hreq with ⟨hfault, hafter⟩ | ⟨hfault, hafter⟩
  · rw [hafter]
    refine iff_of_true (.refl _) ?_
    rintro ⟨_, _, _, hnone, _⟩
    exact hfault hnone
  · rw [hafter]
    constructor
    · rintro hup ⟨w', r', hreq', _, hread', _, q, hq, hqid, hlt⟩
      obtain rfl := hread.unique hread'
      obtain ⟨run', hrun', hid', hle⟩ := hup q hq
      rcases Table.mem_upsert.mp hrun' with rfl | ⟨_, hne⟩
      · rw [hwcursor] at hle
        exact absurd hle (not_le.mpr hlt)
      · exact hne (hid'.trans (hqid.trans hwid.symm))
    · intro hnot run hr
      by_cases hid : run.id = w.id
      · refine ⟨w, Table.mem_upsert.mpr (Or.inl rfl), hid.symm, ?_⟩
        rw [hwcursor]
        by_contra hlt
        exact hnot ⟨w, r, hreq, hfault, hread, hwid.symm, run, hr, hid.trans hwid,
          not_le.mp hlt⟩
      · exact ⟨run, Table.mem_upsert.mpr (Or.inr ⟨hr, hid⟩), rfl, le_rfl⟩

/-- A request moves a cursor backwards exactly when it is a second section of `advance_run` that
was overtaken. -/
theorem upward_iff {older : List (Event machine)} {e : Event machine}
    (hold : History older e.before) (hs : Sanctioned e.thread ⟨older, e.before⟩ e.request) :
    e.before.store.Upward e.after.store ↔ ¬ Overtaken older e := by
  by_cases hsave : ∃ w, e.request = .store (.saveRun w)
  · obtain ⟨w, hreq⟩ := hsave
    rw [hreq] at hs
    exact saveRun_upward_iff hs hreq
  · refine iff_of_true (fun run hr => ?_) fun ⟨w, _, hreq, _⟩ => hsave ⟨w, hreq⟩
    obtain ⟨call, hreq | hsame, hc⟩ := hs.change hold (History.continuous hold) e.choice
    · obtain ⟨run', hrun', hcont⟩ := (hc.evolves hold.good).runs run hr
      refine ⟨run', hrun', hcont.id_eq, ?_⟩
      refine (hc.run hold.good hrun').cursor_le hr hcont.id_eq fun w hw => hsave ⟨w, ?_⟩
      rw [hreq, hw]
    · rw [show e.after.store = e.before.store from hsame]
      exact ⟨run, hr, rfl, le_rfl⟩

section runs

variable {c : daemon.Config}

/-- A request moves no cursor of a run backwards exactly when it was not overtaken; and while none
was, every cursor is now where it was at any time before, or further. -/
theorem cursor_monotone (h : Reachable c) :
    (∀ e older, (e :: older) <:+ c.history →
      (e.before.store.Upward e.after.store ↔ ¬ Overtaken older e)) ∧
    ((∀ e older, (e :: older) <:+ c.history → ¬ Overtaken older e) →
      ∀ e ∈ c.history, e.before.store.Upward c.state.store) := by
  refine ⟨fun e older he => ?_, ?_⟩
  · obtain ⟨hs, hold⟩ := Chronicle.recorded h.history he
    exact upward_iff hold hs
  · refine Chronicle.invariant (P := fun past w =>
      (∀ e older, (e :: older) <:+ past → ¬ Overtaken older e) →
        ∀ e ∈ past, e.before.store.Upward w.store) (fun _ _ he => by cases he) ?_ ?_ h.history
    · intro past a b hp hab hnot e he
      rw [show b.store = a.store from hab]
      exact hp hnot e he
    · intro e older hold hp hs hnot e' he'
      have hstep := (upward_iff hold hs).mpr (hnot e older List.suffix_rfl)
      rcases List.mem_cons.mp he' with rfl | he'
      · exact hstep
      · have holder : ∀ e' older', (e' :: older') <:+ older → ¬ Overtaken older' e' :=
          fun e' older' hsuf => hnot e' older' (hsuf.trans (List.suffix_cons e older))
        exact (hp holder e' he').trans hstep

omit [Platform] in
open Bench in
theorem cursor_monotone_bench :
    (∀ e older, (e :: older) <:+ (bench accomplished).history →
      (e.before.store.Upward (@Event.after (@surroundings Bench.platform) (@machine Bench.platform)
        e).store ↔ ¬ @Overtaken Bench.platform older e)) ∧
    ((∀ e older, (e :: older) <:+ (bench accomplished).history →
      ¬ @Overtaken Bench.platform older e) →
      ∀ e ∈ (bench accomplished).history, e.before.store.Upward (bench accomplished).state.store) :=
  @cursor_monotone Bench.platform _ (bench_reachable accomplished)

/-- A cursor that a request has moved backwards, read off the rows. -/
theorem lowered_of_rows {past : List (Event machine)} (hrows : ∃ e ∈ past,
    ∃ run ∈ e.before.store.runs.rows, ∀ run' ∈ e.after.store.runs.rows,
      run'.id = run.id → run'.cursor < run.cursor) :
    ∃ e ∈ past, ¬ e.before.store.Upward e.after.store := by
  obtain ⟨e, he, run, hr, hall⟩ := hrows
  refine ⟨e, he, fun hup => ?_⟩
  obtain ⟨run', hr', hid, hle⟩ := hup run hr
  exact absurd hle (not_le.mpr (hall run' hr' hid))

omit [Platform] in
open Bench in
set_option maxRecDepth 20000 in
/-- The execution of the first step writes its cursor over that of the second. -/
theorem cursor_lowered : ∃ e ∈ (bench crossed).history,
    ¬ e.before.store.Upward (@Event.after (@surroundings Bench.platform) (@machine Bench.platform)
      e).store :=
  @lowered_of_rows Bench.platform _ (by decide +kernel)

end runs

end Cheirismos

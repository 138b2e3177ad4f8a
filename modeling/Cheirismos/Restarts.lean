import Cheirismos.Custody

/-! # Restarts

What `recover_interrupted_dispatches` leaves behind, from whatever store the process stopped in.

* `Recovering s s'`: some of the dispatched attempts and claimed witnesses of `s` have been
  interrupted in `s'`, each at some time, and nothing else has changed.  Every legal request of
  the boot program keeps it (`Recovering.boot`), so it holds after any number of crashes in the
  middle of a recovery.
* `Recovered s s'`: all of them have.  Two recovered stores differ in timestamps only
  (`Recovered.sameUntimed`), and a store without dispatched attempts and claimed witnesses is
  its own recovery (`Recovered.eq_of_quiescent`). -/

namespace Cheirismos

open Process

/-! ### Records without their timestamps -/

def AttemptRecord.untimed (a : AttemptRecord) : AttemptRecord := { a with updatedAt := "" }

def ReconciliationRecord.untimed (r : ReconciliationRecord) : ReconciliationRecord :=
  { r with endedAt := r.endedAt.map fun _ => "" }

def AttemptRow.untimed (row : AttemptRow) : AttemptRow := { row with json := row.json.untimed }

def ReconciliationRow.untimed (row : ReconciliationRow) : ReconciliationRow :=
  { row with json := row.json.untimed }

/-- The stores differ at most in when attempts and witnesses were last updated. -/
structure SameUntimed (s s' : Store) : Prop where
  attempts : s.attempts.rows.map AttemptRow.untimed = s'.attempts.rows.map AttemptRow.untimed
  reconciliations : s.reconciliations.rows.map ReconciliationRow.untimed =
    s'.reconciliations.rows.map ReconciliationRow.untimed
  frame : s' = { s with attempts := s'.attempts, reconciliations := s'.reconciliations }

variable [Platform]

/-! ### Recovery of single rows -/

/-- The row of a dispatched attempt, interrupted at some time. -/
def InterruptsAttempt (row row' : AttemptRow) : Prop :=
  row.json.state = .dispatched ∧ ∃ now, row' = AttemptRow.of (interrupted now row.json)

/-- The row of a claimed witness, interrupted at some time. -/
def InterruptsWitness (row row' : ReconciliationRow) : Prop :=
  row.json.state = .claimed ∧ ∃ now, row' = ReconciliationRow.of (interruptedWitness now row.json)

/-- Part of the recovery of `s` is done in `s'`. -/
structure Recovering (s s' : Store) : Prop where
  attempts : List.Forall₂ (fun row row' => row' = row ∨ InterruptsAttempt row row')
    s.attempts.rows s'.attempts.rows
  reconciliations : List.Forall₂ (fun row row' => row' = row ∨ InterruptsWitness row row')
    s.reconciliations.rows s'.reconciliations.rows
  frame : s' = { s with attempts := s'.attempts, reconciliations := s'.reconciliations }

/-- The recovery of `s` is done in `s'`: every dispatched attempt became unknown, with a receipt
without an observation, every claimed witness became unknown, and all else is as before. -/
structure Recovered (s s' : Store) : Prop where
  attempts : List.Forall₂ (fun row row' => (row.json.state ≠ .dispatched ∧ row' = row) ∨
    InterruptsAttempt row row') s.attempts.rows s'.attempts.rows
  reconciliations : List.Forall₂ (fun row row' => (row.json.state ≠ .claimed ∧ row' = row) ∨
    InterruptsWitness row row') s.reconciliations.rows s'.reconciliations.rows
  frame : s' = { s with attempts := s'.attempts, reconciliations := s'.reconciliations }

variable {s s' : Store}

namespace Recovering

theorem refl (s : Store) : Recovering s s :=
  ⟨List.forall₂_same.mpr fun _ _ => Or.inl rfl, List.forall₂_same.mpr fun _ _ => Or.inl rfl, rfl⟩

/-- Interrupting one more attempt. -/
theorem attempt (hc : s'.Coherent) (h : Recovering s s') {a : AttemptRecord}
    (ha : s'.Attempt a) (hd : a.state = .dispatched) (now : Timestamp) :
    Recovering s (s'.setAttempt (interrupted now a)) where
  attempts := by
    refine Table.forall₂_update (f := fun row => { row with
        state := stateText (interrupted now a).state
        json := interrupted now a }) (fun _ => rfl) h.attempts fun row row' hm hk hrel => ?_
    -- the row that is rewritten is still the one that was there before the crash
    have hrow : row' = AttemptRow.of a := by
      rw [hc.attempts row' hm]
      exact congrArg AttemptRow.of (Store.attempt_inj (hc.attempt_of_mem hm) ha
        ((congrArg AttemptRow.id (hc.attempts row' hm)).symm.trans hk))
    subst hrow
    rcases hrel with rfl | ⟨_, now', heq⟩
    · exact Or.inr ⟨hd, now, rfl⟩
    · have hstate : a.state = .unknown := by
        rw [AttemptRow.of_inj heq]
        rfl
      rw [hd] at hstate
      cases hstate
  reconciliations := h.reconciliations
  frame := by
    conv_lhs => rw [h.frame]
    rfl

/-- Interrupting one more witness. -/
theorem witness (hc : s'.Coherent) (h : Recovering s s') {r : ReconciliationRecord}
    (hr : s'.Witness r) (hstate : r.state = .claimed) (now : Timestamp) :
    Recovering s (s'.setReconciliation (interruptedWitness now r)) where
  attempts := h.attempts
  reconciliations := by
    refine Table.forall₂_update (f := fun row => { row with
        state := reconciliationStateText (interruptedWitness now r).state
        json := interruptedWitness now r }) (fun _ => rfl) h.reconciliations
      fun row row' hm hk hrel => ?_
    have hrow : row' = ReconciliationRow.of r := by
      rw [hc.reconciliations row' hm]
      exact congrArg ReconciliationRow.of (Store.witness_inj (hc.witness_of_mem hm) hr
        ((congrArg ReconciliationRow.requestId (hc.reconciliations row' hm)).symm.trans hk))
    subst hrow
    rcases hrel with rfl | ⟨_, now', heq⟩
    · exact Or.inr ⟨hstate, now, rfl⟩
    · have hended : r.state = .unknown := by
        rw [ReconciliationRow.of_inj heq]
        rfl
      rw [hstate] at hended
      cases hended
  frame := by
    conv_lhs => rw [h.frame]
    rfl

/-- Every legal request of the boot program is part of the recovery. -/
theorem boot {x : Moment machine} (hx : discipline.Inv x) {r : Request} (hr : BootLegal x r)
    (i : Choice) (h : Recovering s x.state.store) :
    Recovering s (perform r i x.state).2.store := by
  have hc := (History.good hx).regular.coherent
  have hquiet : Quiet r → Recovering s (perform r i x.state).2.store := by
    intro hq
    rw [hq.store_eq i x.state]
    exact h
  cases r with
  | store call =>
      by_cases hread : call.reads = true
      · exact hquiet hread
      change Recovering s (performStore call i x.state.store).2
      cases hres : (performStore call i x.state.store).1 with
      | error e =>
          rw [performStore_error hres]
          exact h
      | ok output =>
          have hok := performStore_ok hres
          cases call with
          | updateAttempt a' =>
              obtain ⟨a, now, ha, hd, rfl⟩ := hr
              rw [← modify_ok.mp hok]
              exact h.attempt hc ha hd now
          | updateReconciliation r' =>
              obtain ⟨w, now, hw, hstate, rfl⟩ := hr
              rw [← modify_ok.mp hok]
              exact h.witness hc hw hstate now
          | _ => exact absurd hr hread
  | execute dispatch => exact hr.elim
  | reconcile request reconciliation => exact hr.elim
  | _ => exact hquiet trivial

/-- A recovery is done when nothing is under way any more. -/
theorem recovered (h : Recovering s s') (hc' : s'.Coherent)
    (hq : s'.Quiescent) : Recovered s s' where
  attempts := by
    refine List.forall₂_iff_zip.mpr ⟨h.attempts.length_eq, fun {row row'} hm => ?_⟩
    rcases (List.forall₂_iff_zip.mp h.attempts).2 hm with rfl | hrel
    · exact Or.inl ⟨hq.attempts _ (hc'.attempt_of_mem (List.of_mem_zip hm).2), rfl⟩
    · exact Or.inr hrel
  reconciliations := by
    refine List.forall₂_iff_zip.mpr ⟨h.reconciliations.length_eq, fun {row row'} hm => ?_⟩
    rcases (List.forall₂_iff_zip.mp h.reconciliations).2 hm with rfl | hrel
    · exact Or.inl ⟨hq.witnesses _ (hc'.witness_of_mem (List.of_mem_zip hm).2), rfl⟩
    · exact Or.inr hrel
  frame := h.frame

end Recovering

/-! ### Complete recoveries -/

namespace Recovered

variable {s₁ s₂ : Store}

/-- Both interruptions of a row are the same but for the time. -/
theorem InterruptsAttempt.untimed {row row₁ row₂ : AttemptRow} (h₁ : InterruptsAttempt row row₁)
    (h₂ : InterruptsAttempt row row₂) : row₁.untimed = row₂.untimed := by
  obtain ⟨_, now₁, rfl⟩ := h₁
  obtain ⟨_, now₂, rfl⟩ := h₂
  rfl

theorem InterruptsWitness.untimed {row row₁ row₂ : ReconciliationRow}
    (h₁ : InterruptsWitness row row₁) (h₂ : InterruptsWitness row row₂) :
    row₁.untimed = row₂.untimed := by
  obtain ⟨_, now₁, rfl⟩ := h₁
  obtain ⟨_, now₂, rfl⟩ := h₂
  rfl

omit [Platform] in
/-- Rows that are related to the same rows have the same image. -/
theorem map_eq_of_forall₂ {α β : Type} {R : α → α → Prop} {f : α → β} {l l₁ l₂ : List α}
    (h₁ : List.Forall₂ R l l₁) (h₂ : List.Forall₂ R l l₂)
    (hf : ∀ a b c, R a b → R a c → f b = f c) : l₁.map f = l₂.map f := by
  induction h₁ generalizing l₂ with
  | nil =>
      cases h₂
      rfl
  | cons hab _ ih =>
      cases h₂ with
      | cons hac h₂ => rw [List.map_cons, List.map_cons, hf _ _ _ hab hac, ih h₂]

/-- Up to timestamps there is one recovery. -/
theorem sameUntimed (h₁ : Recovered s s₁) (h₂ : Recovered s s₂) : SameUntimed s₁ s₂ where
  attempts := by
    refine map_eq_of_forall₂ h₁.attempts h₂.attempts ?_
    rintro row row₁ row₂ (⟨hn, rfl⟩ | hi) (⟨hn', rfl⟩ | hi')
    · rfl
    · exact absurd hi'.1 hn
    · exact absurd hi.1 hn'
    · exact InterruptsAttempt.untimed hi hi'
  reconciliations := by
    refine map_eq_of_forall₂ h₁.reconciliations h₂.reconciliations ?_
    rintro row row₁ row₂ (⟨hn, rfl⟩ | hi) (⟨hn', rfl⟩ | hi')
    · rfl
    · exact absurd hi'.1 hn
    · exact absurd hi.1 hn'
    · exact InterruptsWitness.untimed hi hi'
  frame := by
    conv_lhs => rw [h₂.frame]
    rw [h₁.frame]

/-- Recovery of a store in which nothing is under way changes nothing. -/
theorem eq_of_quiescent (h : Recovered s s') (hc : s.Coherent) (hq : s.Quiescent) : s' = s := by
  have hattempts : s'.attempts.rows = s.attempts.rows := by
    refine (List.forall₂_eq_eq_eq ▸ List.forall₂_iff_zip.mpr
      ⟨h.attempts.length_eq, fun {row row'} hm => ?_⟩ : s.attempts.rows = s'.attempts.rows).symm
    rcases (List.forall₂_iff_zip.mp h.attempts).2 hm with ⟨_, rfl⟩ | hi
    · rfl
    · exact absurd hi.1 (hq.attempts _ (hc.attempt_of_mem (List.of_mem_zip hm).1))
  have hreconciliations : s'.reconciliations.rows = s.reconciliations.rows := by
    refine (List.forall₂_eq_eq_eq ▸ List.forall₂_iff_zip.mpr
      ⟨h.reconciliations.length_eq, fun {row row'} hm => ?_⟩ :
        s.reconciliations.rows = s'.reconciliations.rows).symm
    rcases (List.forall₂_iff_zip.mp h.reconciliations).2 hm with ⟨_, rfl⟩ | hi
    · rfl
    · exact absurd hi.1 (hq.witnesses _ (hc.witness_of_mem (List.of_mem_zip hm).1))
  rw [h.frame, Table.ext hattempts, Table.ext hreconciliations]

end Recovered

/-! ### Over all runs -/

section runs

variable {c c' : daemon.Config}

theorem Reachable.recovering (h : Reachable c) (hr : daemon.Restart c c') :
    Recovering c.state.store c'.state.store := by
  refine (discipline_sound.restart (P := fun w => Recovering c.state.store w.store) h
    (.refl _) ?_ ?_ hr).1
  · intro a b hab he
    rw [show b.store = a.store from he]
    exact hab
  · exact fun t x r i hx hp hl => Recovering.boot hx hl i hp

theorem Reachable.recovered (h : Reachable c) (hr : daemon.Restart c c') (ho : c'.Opened) :
    Recovered c.state.store c'.state.store ∧ c'.state.store.Quiescent := by
  have h' : Reachable c' := Process.Service.Reachable.run h hr.run
  obtain ⟨t, hb⟩ := ho
  have hq : c'.state.store.Quiescent := discipline_sound.booted h' hb
  exact ⟨(h.recovering hr).recovered h'.good.regular.coherent hq, hq⟩

/-- From any reachable configuration and any crash, with any number of further crashes in the
middle of the recovery, a restart that succeeds has recovered exactly: nothing is under way,
what was has become unknown, and all else is as before.  Any other successful restart from the
same configuration agrees up to timestamps, and a further one changes nothing. -/
theorem restart_recovers (h : Reachable c) (hr : daemon.Restart c c') (ho : c'.Opened) :
    c'.state.store.Quiescent ∧ Recovered c.state.store c'.state.store ∧
    (∀ d, daemon.Restart c d → d.Opened → SameUntimed c'.state.store d.state.store) ∧
    ∀ d, daemon.Restart c' d → d.Opened → d.state.store = c'.state.store := by
  have h' : Reachable c' := Process.Service.Reachable.run h hr.run
  obtain ⟨hrec, hq⟩ := h.recovered hr ho
  refine ⟨hq, hrec, fun d hd hdo => ?_, fun d hd hdo => ?_⟩
  · exact hrec.sameUntimed (h.recovered hd hdo).1
  · exact (h'.recovered hd hdo).1.eq_of_quiescent h'.good.regular.coherent hq

omit [Platform] in
open Bench in
set_option maxRecDepth 20000 in
theorem restart_recovers_bench :
    (bench mishap).state.store.attempts.rows.map (fun row => row.json.state) =
      [.dispatched, .completed] ∧
    (resumed mishap 5).state.store.Quiescent :=
  ⟨by decide +kernel, (@restart_recovers Bench.platform _ _ (bench_reachable mishap)
    (resumed_restart mishap 5) (Service.opened_iff.mp (by decide +kernel))).1⟩

end runs

end Cheirismos

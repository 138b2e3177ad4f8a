import Cheirismos.Bench
import Cheirismos.Effects

/-! # What a saved record can be relied on

Five methods of the store insert a record unless its id is taken: `save_profile`, `save_grant`,
`save_proposal`, `save_plan` and `create_run`.  Four of them look at the record they meet and
refuse a different one, by its encoding, its digest or its fields.

* **Truth.** A save is truthful when its success means that the record is stored, and a different
  record under the id means an error and no change (`Save.Truthful`).
* **`save_plan` does not look.**  It is the same statement with a comparison that accepts
  everything (`savePlan_eq`), and it is truthful only where no other plan has the id
  (`save_truthful_iff`).  Nothing in the supervisor calls it; `consume_reviewed_proposal`, which
  stores the plans of reviews, compares digests.
* **Runs of the store.** `saves_truthful_iff` is about every save in every sequence of store calls
  and saves from the empty store. -/

namespace Cheirismos

/-! ### Inserting unless the key is taken -/

section tables

variable {κ ρ : Type} [DecidableEq κ] {key : ρ → κ} {table : Store → Table key}
  {put : Table key → Store → Store} {row : ρ} {same : ρ → Bool} {kind id : String} {s : Store}

theorem insertOnce_free {t : Table key} (h : (table s).insert? row = some t) :
    insertOnce table put row same kind id s = .ok ((), put t s) :=
  Tx.bind_ok.mpr ⟨true, _, insertOrNothing_ok.mpr (Or.inl ⟨rfl, t, h, rfl⟩), rfl⟩

theorem insertOnce_taken {stored : ρ} (h : (table s).find? (key row) = some stored) :
    insertOnce table put row same kind id s =
      if same stored then .ok ((), s) else .error (.conflict kind id) := by
  obtain ⟨hmem, hkey⟩ := Table.find?_eq_some.mp h
  have hnone : insertOrNothing table put row s = .ok (false, s) :=
    insertOrNothing_ok.mpr (Or.inr ⟨rfl, Table.insert?_of_taken hmem hkey, rfl⟩)
  unfold insertOnce
  simp only [bind, StateT.bind, hnone, Except.bind, Bool.false_eq_true, if_false, get, getThe,
    MonadStateOf.get, StateT.get, pure, Except.pure, h, Tx.required, Tx.refuse]
  change (if same stored = false then throw (.conflict kind id) else pure () : Tx Unit) s = _
  cases same stored with
  | true => rfl
  | false => rfl

/-- Run a transaction; an error keeps the store. -/
def Tx.perform (tx : Tx Unit) (fault : Option StoreFault) (s : Store) :
    Except StoreError Unit × Store :=
  match fault with
  | some fault => (.error fault.error, s)
  | none =>
      match tx s with
      | .ok (u, s') => (.ok u, s')
      | .error error => (.error error, s)

/-- An insertion with a comparison is truthful about `agrees` exactly when no stored row passes
the comparison without agreeing. -/
theorem insertOnce_truthful_iff {agrees : ρ → Prop} (hput : ∀ t s, table (put t s) = t)
    (hrow : agrees row) :
    (∀ fault, ((Tx.perform (insertOnce table put row same kind id) fault s).1 = .ok () →
        ∃ stored, (table (Tx.perform (insertOnce table put row same kind id) fault s).2).find?
          (key row) = some stored ∧ agrees stored) ∧
      ((∃ stored, (table s).find? (key row) = some stored ∧ ¬ agrees stored) →
        (∃ e, (Tx.perform (insertOnce table put row same kind id) fault s).1 = .error e) ∧
          (Tx.perform (insertOnce table put row same kind id) fault s).2 = s)) ↔
    ∀ stored, (table s).find? (key row) = some stored → same stored = true → agrees stored := by
  constructor
  · intro h stored hstored hsame
    obtain ⟨hok, _⟩ := h none
    have hperform : Tx.perform (insertOnce table put row same kind id) none s = (.ok (), s) := by
      simp only [Tx.perform, insertOnce_taken hstored, hsame, if_true]
    rw [hperform] at hok
    obtain ⟨found, hfound, hagrees⟩ := hok rfl
    rw [hstored] at hfound
    cases hfound
    exact hagrees
  · intro h fault
    cases fault with
    | some fault =>
        exact ⟨fun hok => (by cases hok), fun _ => ⟨⟨fault.error, rfl⟩, rfl⟩⟩
    | none =>
        cases hfind : (table s).find? (key row) with
        | none =>
            obtain ⟨t, ht⟩ := Table.insert?_of_free (Table.find?_eq_none.mp hfind)
            simp only [Tx.perform, insertOnce_free ht, hput]
            refine ⟨fun _ => ⟨row, ?_, hrow⟩, fun hother => ?_⟩
            · exact Table.find?_eq_some.mpr ⟨(Table.mem_insert? ht).mpr (Or.inl rfl), rfl⟩
            · obtain ⟨stored, hstored, _⟩ := hother
              cases hstored
        | some stored =>
            simp only [Tx.perform, insertOnce_taken hfind]
            by_cases hsame : same stored = true
            · have hagrees := h stored hfind hsame
              simp only [hsame, if_true]
              refine ⟨fun _ => ⟨stored, hfind, hagrees⟩, fun hother => ?_⟩
              obtain ⟨other, hother, hdiffers⟩ := hother
              cases hother
              exact absurd hagrees hdiffers
            · rw [if_neg hsame]
              exact ⟨fun hok => (by cases hok), fun _ => ⟨⟨_, rfl⟩, rfl⟩⟩

end tables

section saves

variable [Platform]

/-! ### The five writers -/

/-- `INSERT … ON CONFLICT(id) DO NOTHING`, whatever the row there is. -/
def savePlan (plan : ReviewedPlan) : Tx Unit := do
  let _ ← insertOrNothing Store.plans (fun t s => { s with plans := t }) plan
  return ()

/-- A record to be saved. -/
inductive Save where
  | profile (profile : CommissionedProfile)
  | grant (grant : Grant)
  | proposal (proposal : PlanProposal)
  | plan (plan : ReviewedPlan)
  | run (run : PlanRun)

/-- Two runs agree in every field but the cursor. -/
def PlanRun.SameUpToCursor (a b : PlanRun) : Prop := { a with cursor := b.cursor } = b

namespace Save

def transact : Save → Tx Unit
  | profile p => saveProfile p
  | grant g => saveGrant g
  | proposal p => saveProposal p
  | plan p => savePlan p
  | run r => createRun r

def perform (save : Save) (fault : Option StoreFault) (s : Store) :
    Except StoreError Unit × Store :=
  Tx.perform save.transact fault s

/-- The record is the one stored under its id; for a run, up to the cursor. -/
def Stored : Save → Store → Prop
  | profile p, s => s.profiles.find? p.id = some p
  | grant g, s => s.grants.find? g.id = some g
  | proposal p, s => s.proposals.find? p.id = some p
  | plan p, s => s.plans.find? p.id = some p
  | run r, s => ∃ stored, s.runs.find? r.id = some stored ∧ stored.SameUpToCursor r

/-- A different record is stored under the id. -/
def Other : Save → Store → Prop
  | profile p, s => ∃ stored, s.profiles.find? p.id = some stored ∧ stored ≠ p
  | grant g, s => ∃ stored, s.grants.find? g.id = some stored ∧ stored ≠ g
  | proposal p, s => ∃ stored, s.proposals.find? p.id = some stored ∧ stored ≠ p
  | plan p, s => ∃ stored, s.plans.find? p.id = some stored ∧ stored ≠ p
  | run r, s => ∃ stored, s.runs.find? r.id = some stored ∧ ¬ stored.SameUpToCursor r

/-- Success means that the record is stored; a different record means an error and no change. -/
def Truthful (save : Save) (s : Store) : Prop :=
  ∀ fault, ((save.perform fault s).1 = .ok () → save.Stored (save.perform fault s).2) ∧
    (save.Other s → (∃ e, (save.perform fault s).1 = .error e) ∧ (save.perform fault s).2 = s)

/-- What is stored under the id does not pass for the record without being it: no two profiles or
grants with one encoding, no two proposals with one digest, and no other plan at all. -/
def Recognised : Save → Store → Prop
  | profile p, s => ∀ stored, s.profiles.find? p.id = some stored →
      Platform.encodeProfile stored = Platform.encodeProfile p → stored = p
  | grant g, s => ∀ stored, s.grants.find? g.id = some stored →
      Platform.encodeGrant stored = Platform.encodeGrant g → stored = g
  | proposal p, s => ∀ stored, s.proposals.find? p.id = some stored →
      stored.digest = p.digest → stored = p
  | plan p, s => ∀ stored, s.plans.find? p.id = some stored → stored = p
  | run _, _ => True

end Save

/-! ### One save -/

omit [Platform] in
/-- `save_plan` is the common statement with a comparison that accepts every row. -/
theorem savePlan_eq (plan : ReviewedPlan) (s : Store) :
    savePlan plan s = insertOnce Store.plans (fun t s => { s with plans := t }) plan
      (fun _ => true) "plan" plan.id.value s := by
  cases h : s.plans.find? plan.id with
  | none =>
      obtain ⟨t, ht⟩ : ∃ t, s.plans.insert? plan = some t :=
        Table.insert?_of_free (Table.find?_eq_none.mp h)
      rw [insertOnce_free ht]
      exact Tx.bind_ok.mpr ⟨true, _, insertOrNothing_ok.mpr (Or.inl ⟨rfl, t, ht, rfl⟩), rfl⟩
  | some stored =>
      obtain ⟨hmem, hid⟩ := Table.find?_eq_some.mp h
      rw [insertOnce_taken h, if_pos rfl]
      exact Tx.bind_ok.mpr ⟨false, s,
        insertOrNothing_ok.mpr (Or.inr ⟨rfl, Table.insert?_of_taken hmem hid, rfl⟩), rfl⟩

/-- A save is truthful exactly when what it meets is recognised. -/
theorem save_truthful_iff (save : Save) (s : Store) : save.Truthful s ↔ save.Recognised s := by
  cases save with
  | profile p =>
      have h := @insertOnce_truthful_iff _ _ _ _ Store.profiles
        (fun t s => { s with profiles := t }) p
        (fun existing => Platform.encodeProfile existing == Platform.encodeProfile p)
        "immutable record" p.id.value s (· = p) (fun _ _ => rfl) rfl
      simp only [exists_eq_right, beq_iff_eq] at h
      exact h
  | grant g =>
      have h := @insertOnce_truthful_iff _ _ _ _ Store.grants
        (fun t s => { s with grants := t }) g
        (fun existing => Platform.encodeGrant existing == Platform.encodeGrant g)
        "immutable record" g.id.value s (· = g) (fun _ _ => rfl) rfl
      simp only [exists_eq_right, beq_iff_eq] at h
      exact h
  | proposal p =>
      have h := @insertOnce_truthful_iff _ _ _ _ Store.proposals
        (fun t s => { s with proposals := t }) p (fun existing => existing.digest == p.digest)
        "proposal" p.id.value s (· = p) (fun _ _ => rfl) rfl
      simp only [exists_eq_right, beq_iff_eq] at h
      exact h
  | plan p =>
      have h := @insertOnce_truthful_iff _ _ _ _ Store.plans
        (fun t s => { s with plans := t }) p (fun _ => true) "plan" p.id.value s (· = p)
        (fun _ _ => rfl) rfl
      have hsame : (Save.plan p).transact = insertOnce Store.plans
          (fun t s => { s with plans := t }) p (fun _ => true) "plan" p.id.value :=
        funext (savePlan_eq p)
      unfold Save.Truthful Save.perform
      rw [hsame]
      simp only [exists_eq_right, forall_const] at h
      exact h
  | run r =>
      have h := @insertOnce_truthful_iff _ _ _ _ Store.runs
        (fun t s => { s with runs := t }) r
        (fun existing => existing.agent == r.agent && existing.grant == r.grant &&
          existing.plan == r.plan && existing.steps == r.steps)
        "run" r.id.value s (fun stored => stored.SameUpToCursor r) (fun _ _ => rfl) rfl
      refine h.trans (iff_of_true ?_ trivial)
      intro stored hstored hsame
      have hid : stored.id = r.id := (Table.find?_eq_some.mp hstored).2
      simp only [Bool.and_eq_true, beq_iff_eq] at hsame
      obtain ⟨⟨⟨hagent, hgrant⟩, hplan⟩, hsteps⟩ := hsame
      unfold PlanRun.SameUpToCursor
      rw [hid, hagent, hgrant, hplan, hsteps]

/-! ### Runs of the store -/

/-- A step of a run of the store: any store call, or a save. -/
inductive StoreStep where
  | call (call : StoreCall) (choice : Choice)
  | save (save : Save) (fault : Option StoreFault)

def StoreStep.after (s : Store) : StoreStep → Store
  | .call c choice => (performStore c choice s).2
  | .save r fault => (r.perform fault s).2

/-- Every save of a run with the store it was made in. -/
def saved : Store → List StoreStep → List (Save × Store)
  | _, [] => []
  | s, step :: steps =>
      match step with
      | .call _ _ => saved (step.after s) steps
      | .save save _ => (save, s) :: saved (step.after s) steps

/-- In every run of the store, a save is truthful exactly when what it meets is recognised. -/
theorem saves_truthful_iff (steps : List StoreStep) :
    ∀ p ∈ saved .empty steps, p.1.Truthful p.2 ↔ p.1.Recognised p.2 := by
  intro p _
  exact save_truthful_iff p.1 p.2

end saves

open Bench in
theorem saves_truthful_iff_bench :
    let first : PlanRun := ⟨r₁, agent.id, g₁, p₁, [(a₁, r₁)], 0⟩
    let second : PlanRun := ⟨r₁, agent.id, g₁, p₂, [(a₁, r₁)], 0⟩
    let steps : List StoreStep := [.save (.run first) none,
      .call (.saveRun { first with cursor := 1 }) lost, .save (.run second) none]
    ∃ p ∈ saved .empty steps, p.1 = .run second ∧ p.1.Truthful p.2 ∧
      p.2.runs.rows = [{ first with cursor := 1 }] := by
  intro first second steps
  refine ⟨(.run second, StoreStep.after (StoreStep.after .empty (.save (.run first) none))
    (.call (.saveRun { first with cursor := 1 }) lost)), ?_, rfl, ?_, by decide +kernel⟩
  · exact List.mem_cons_of_mem _ List.mem_cons_self
  · exact (saves_truthful_iff steps _ (List.mem_cons_of_mem _ List.mem_cons_self)).mpr trivial

open Bench in
/-- A plan that is saved under the id of another one is not stored, and the caller is not told. -/
theorem savePlan_keeps_other :
    let first := Supervisor.reviewed (proposal p₁ [rest]) reviewer.id
    let second := Supervisor.reviewed (proposal p₁ [look]) reviewer.id
    let steps : List StoreStep := [.save (.plan first) none, .save (.plan second) none]
    ∃ p ∈ saved .empty steps, p.1 = .plan second ∧ (p.1.perform none p.2).1 = .ok () ∧
      (p.1.perform none p.2).2.plans.find? second.id = some first ∧ first ≠ second ∧
      ¬ p.1.Truthful p.2 := by
  intro first second steps
  have hok : (Save.perform (.plan second) none
      (StoreStep.after .empty (.save (.plan first) none))).1 = .ok () := by decide +kernel
  have hkept : (Save.perform (.plan second) none
      (StoreStep.after .empty (.save (.plan first) none))).2.plans.find? second.id = some first := by
    decide +kernel
  have hne : first ≠ second := by decide +kernel
  refine ⟨(.plan second, StoreStep.after .empty (.save (.plan first) none)), ?_, rfl, hok, hkept, hne,
    fun htrue => ?_⟩
  · exact List.mem_cons_of_mem _ List.mem_cons_self
  · have hstored : _ = some second := (htrue none).1 hok
    exact hne (Option.some.inj (hkept.symm.trans hstored))

end Cheirismos

import Cheirismos.Holdings

/-! # What a successful transaction has done

One lemma for each statement, shared check and transaction: from a success, the checks that
passed and the tables that changed, the store afterwards being the store before with these
tables in place.  Later modules use these lemmas and never unfold a transaction.

The checks that reservation and takeover share are `Admits`; `PlacesAttempt` says how a new
attempt enters its table. -/

namespace Cheirismos

open Tx

variable {s s' : Store}

/-! ### Statements -/

theorem select_ok {α : Type} {f : Store → α} {a : α} :
    (do return f (← get) : Tx α) s = .ok (a, s') ↔ f s = a ∧ s = s' := by
  simp only [bind_ok, get_ok, pure_ok]
  constructor
  · rintro ⟨_, _, ⟨rfl, rfl⟩, h1, h2⟩
    exact ⟨h1, h2⟩
  · rintro ⟨h1, h2⟩
    exact ⟨s, s, ⟨rfl, rfl⟩, h1, h2⟩

theorem modify_ok {f : Store → Store} {u : PUnit} :
    (modify f : Tx PUnit) s = .ok (u, s') ↔ f s = s' := by
  simp [modify, modifyGet, MonadStateOf.modifyGet, StateT.modifyGet, pure, Except.pure]

/-- A block that starts by reading the store. -/
theorem get_bind_ok {α : Type} {f : Store → Tx α} {a : α} :
    ((get : Tx Store) >>= f) s = .ok (a, s') ↔ f s s = .ok (a, s') := by
  simp only [bind_ok, get_ok]
  constructor
  · rintro ⟨_, _, ⟨rfl, rfl⟩, h⟩
    exact h
  · exact fun h => ⟨s, s, ⟨rfl, rfl⟩, h⟩

theorem refuse_bind_ok {α : Type} {bad : Prop} [Decidable bad] {e : StoreError}
    {f : Unit → Tx α} {a : α} :
    (refuse bad e >>= f) s = .ok (a, s') ↔ ¬ bad ∧ f () s = .ok (a, s') := by
  simp only [bind_ok, refuse_ok]
  constructor
  · rintro ⟨_, _, ⟨h, rfl⟩, hf⟩
    exact ⟨h, hf⟩
  · rintro ⟨h, hf⟩
    exact ⟨(), s, ⟨h, rfl⟩, hf⟩

theorem required_bind_ok {α β : Type} {o : Option α} {e : StoreError} {f : α → Tx β} {b : β} :
    (required o e >>= f) s = .ok (b, s') ↔ ∃ a, o = some a ∧ f a s = .ok (b, s') := by
  simp only [bind_ok, required_ok]
  constructor
  · rintro ⟨a, _, ⟨h, rfl⟩, hf⟩
    exact ⟨a, h, hf⟩
  · rintro ⟨a, h, hf⟩
    exact ⟨a, s, ⟨h, rfl⟩, hf⟩

theorem modify_bind_ok {α : Type} {g : Store → Store} {f : PUnit → Tx α} {a : α} :
    ((modify g : Tx PUnit) >>= f) s = .ok (a, s') ↔ f () (g s) = .ok (a, s') := by
  simp only [bind_ok, modify_ok]
  constructor
  · rintro ⟨_, _, rfl, h⟩
    exact h
  · exact fun h => ⟨(), _, rfl, h⟩

section tables

variable {κ ρ : Type} [DecidableEq κ] {key : ρ → κ} {table : Store → Table key}
  {put : Table key → Store → Store} {row : ρ}

theorem insertRow_ok {constraint : String} {u : Unit} :
    insertRow table put row constraint s = .ok (u, s') ↔
      ∃ t, (table s).insert? row = some t ∧ put t s = s' := by
  unfold insertRow
  rw [get_bind_ok]
  cases h : (table s).insert? row with
  | none => simp [throw_ok]
  | some t => simp [set_ok]

theorem insertOrNothing_ok {b : Bool} :
    insertOrNothing table put row s = .ok (b, s') ↔
      (b = true ∧ ∃ t, (table s).insert? row = some t ∧ put t s = s') ∨
      (b = false ∧ (table s).insert? row = none ∧ s = s') := by
  unfold insertOrNothing
  rw [get_bind_ok]
  cases h : (table s).insert? row with
  | none =>
      constructor
      · intro hok
        obtain ⟨rfl, rfl⟩ := pure_ok.mp hok
        exact Or.inr ⟨rfl, rfl, rfl⟩
      · rintro (⟨_, _, ht, _⟩ | ⟨rfl, _, rfl⟩)
        · cases ht
        · exact pure_ok.mpr ⟨rfl, rfl⟩
  | some t =>
      constructor
      · intro hok
        obtain ⟨_, _, hset, hpure⟩ := bind_ok.mp hok
        obtain ⟨rfl, rfl⟩ := pure_ok.mp hpure
        exact Or.inl ⟨rfl, t, rfl, set_ok.mp hset⟩
      · rintro (⟨rfl, _, ht, rfl⟩ | ⟨_, ht, _⟩)
        · cases ht
          exact bind_ok.mpr ⟨(), _, set_ok.mpr rfl, pure_ok.mpr ⟨rfl, rfl⟩⟩
        · cases ht

/-- Saving a record once inserted it, or found one that compares the same. -/
theorem insertOnce_ok {same : ρ → Bool} {kind id : String} {u : Unit}
    (h : insertOnce table put row same kind id s = .ok (u, s')) :
    (∃ t, (table s).insert? row = some t ∧ s' = put t s) ∨
    (s' = s ∧ ∃ existing ∈ table s, key existing = key row ∧ same existing = true) := by
  unfold insertOnce at h
  obtain ⟨b, s₁, hins, h⟩ := bind_ok.mp h
  rcases insertOrNothing_ok.mp hins with ⟨rfl, t, ht, rfl⟩ | ⟨rfl, ht, rfl⟩
  · simp only [if_true, pure_ok] at h
    exact Or.inl ⟨t, ht, h.2.symm⟩
  · simp only [Bool.false_eq_true, if_false, get_bind_ok, required_bind_ok,
      refuse_ok] at h
    obtain ⟨existing, hf, hsame, rfl⟩ := h
    obtain ⟨hm, hk⟩ := Table.find?_eq_some.mp hf
    exact Or.inr ⟨rfl, existing, hm, hk, by simpa using hsame⟩

end tables

/-- How a row for a new attempt enters the table. -/
structure PlacesAttempt (s : Store) (a : AttemptRecord) (attempts : Table AttemptRow.id) :
    Prop where
  rows : attempts.rows = AttemptRow.of a :: s.attempts.rows
  id : ∀ b, s.Attempt b → b.id ≠ a.id
  request : ∀ b, s.Attempt b → b.request ≠ a.request
  step : ∀ b, s.Attempt b → b.pair = a.pair → b.operationIndex ≠ a.operationIndex

namespace PlacesAttempt

variable {a : AttemptRecord} {attempts : Table AttemptRow.id} (h : PlacesAttempt s a attempts)

include h

theorem mem {b : AttemptRecord} :
    Store.Attempt { s with attempts := attempts } b ↔ b = a ∨ s.Attempt b := by
  unfold Store.Attempt
  rw [Table.mem_def, h.rows, List.mem_cons]
  exact or_congr ⟨AttemptRow.of_inj, fun e => by rw [e]⟩ Iff.rfl

theorem coherent (hc : s.Coherent) : ∀ row ∈ attempts, row = AttemptRow.of row.json := by
  intro row hrow
  rw [Table.mem_def, h.rows, List.mem_cons] at hrow
  rcases hrow with rfl | hrow
  · rfl
  · exact hc.attempts row hrow

end PlacesAttempt

theorem insertAttempt_ok {a : AttemptRecord} {u : Unit}
    (h : insertAttempt (AttemptRow.of a) s = .ok (u, s')) :
    ∃ attempts, PlacesAttempt s a attempts ∧ s' = { s with attempts := attempts } := by
  simp only [insertAttempt, get_bind_ok, refuse_bind_ok, insertRow_ok] at h
  obtain ⟨h1, h2, attempts, hins, rfl⟩ := h
  obtain ⟨hkey, hrows⟩ := Table.insert?_eq_some hins
  refine ⟨attempts, ⟨hrows, ?_, ?_, ?_⟩, rfl⟩
  · exact fun b hb => hkey _ hb
  · exact fun b hb he => h1 ⟨_, hb, he⟩
  · exact fun b hb hp he => h2 ⟨_, hb, congrArg Prod.fst hp, congrArg Prod.snd hp,
      congrArg Int.ofNat he⟩

section witnessRows

variable {r : ReconciliationRecord} {reconciliations : Table ReconciliationRow.requestId}
  (h : reconciliations.rows = ReconciliationRow.of r :: s.reconciliations.rows)

include h

theorem Store.witness_of_rows {q : ReconciliationRecord} :
    Store.Witness { s with reconciliations := reconciliations } q ↔ q = r ∨ s.Witness q := by
  unfold Store.Witness
  rw [Table.mem_def, h, List.mem_cons]
  exact or_congr ⟨ReconciliationRow.of_inj, fun e => by rw [e]⟩ Iff.rfl

theorem Store.coherent_of_witnessRows (hc : s.Coherent) :
    ∀ row ∈ reconciliations, row = ReconciliationRow.of row.json := by
  intro row hrow
  rw [Table.mem_def, h, List.mem_cons] at hrow
  rcases hrow with rfl | hrow
  · rfl
  · exact hc.reconciliations row hrow

end witnessRows

theorem insertReconciliation_ok {r : ReconciliationRecord} {u : Unit}
    (h : insertReconciliation (ReconciliationRow.of r) s = .ok (u, s')) :
    ∃ reconciliations : Table ReconciliationRow.requestId,
      reconciliations.rows = ReconciliationRow.of r :: s.reconciliations.rows ∧
      (∀ r', s.Witness r' → r'.request ≠ r.request) ∧
      (∀ r', s.Witness r' → r'.attempt = r.attempt → r'.ordinal ≠ r.ordinal) ∧
      (r.state = .claimed → ∀ r', s.Witness r' → r'.attempt = r.attempt →
        r'.state ≠ .claimed) ∧
      s' = { s with reconciliations := reconciliations } := by
  simp only [insertReconciliation, get_bind_ok, refuse_bind_ok, insertRow_ok] at h
  obtain ⟨h1, h2, reconciliations, hins, rfl⟩ := h
  obtain ⟨hkey, hrows⟩ := Table.insert?_eq_some hins
  refine ⟨reconciliations, hrows, fun r' hr' => hkey _ hr', ?_, ?_, rfl⟩
  · exact fun r' hr' ha he => h1 ⟨_, hr', ha, congrArg Int.ofNat he⟩
  · intro hstate r' hr' ha hstate'
    exact h2 ⟨Store.claimedRow_iff.mpr hstate, _, hr', ha, Store.claimedRow_iff.mpr hstate'⟩

theorem insertHaltedRunAbandonment_ok {record : HaltedRunAbandonmentRecord} {u : Unit}
    (h : insertHaltedRunAbandonment record s = .ok (u, s')) :
    ∃ abandonments : Table HaltedRunAbandonmentRecord.request,
      abandonments.rows = record :: s.haltedRunAbandonments.rows ∧
      s' = { s with haltedRunAbandonments := abandonments } := by
  simp only [insertHaltedRunAbandonment, get_bind_ok, refuse_bind_ok, insertRow_ok] at h
  obtain ⟨_, _, abandonments, hins, rfl⟩ := h
  exact ⟨abandonments, (Table.insert?_eq_some hins).2, rfl⟩

/-! ### Shared checks -/

section checks

variable [Platform]

/-- What `activeGrant` has checked. -/
structure Active (s : Store) (now : Timestamp) (id : GrantId) (agent : PrincipalId)
    (profile : ProfileId) (grant : Grant) : Prop where
  mem : grant ∈ s.grants
  id : grant.id = id
  agent : grant.agent = agent
  profile : grant.profile = profile
  unrevoked : grant.revoked = false
  unexpired : ∃ expiresAt, Platform.parseTimestamp grant.expiresAt = some expiresAt ∧
    now < expiresAt

theorem activeGrant_ok {clock : ℕ → Timestamp} {id : GrantId} {agent : PrincipalId}
    {profile : ProfileId} {grant : Grant}
    (h : activeGrant clock id agent profile s = .ok (grant, s')) :
    Active s (clock 0) id agent profile grant ∧ s = s' := by
  simp only [activeGrant, get_bind_ok, required_bind_ok, refuse_bind_ok, pure_ok] at h
  obtain ⟨g, hf, h1, h2, e, he, h3, rfl, rfl⟩ := h
  obtain ⟨hm, hid⟩ := Table.find?_eq_some.mp hf
  push Not at h1 h3
  exact ⟨⟨hm, hid, h1.1, h1.2, by simpa using h2, e, he, h3⟩, rfl⟩

theorem pinnedProfile_ok {id : ProfileId} {digests : List ArtifactDigest}
    {profile : CommissionedProfile} (h : pinnedProfile id digests s = .ok (profile, s')) :
    profile ∈ s.profiles ∧ profile.id = id ∧ (∀ d ∈ digests, profile.digest = d) ∧ s = s' := by
  simp only [pinnedProfile, get_bind_ok, required_bind_ok, refuse_bind_ok, pure_ok] at h
  obtain ⟨p, hf, h1, rfl, rfl⟩ := h
  obtain ⟨hm, hid⟩ := Table.find?_eq_some.mp hf
  push Not at h1
  exact ⟨hm, hid, h1, rfl⟩

theorem pinnedPlan_ok {id : PlanId} {digests : List ArtifactDigest} {plan : ReviewedPlan}
    (h : pinnedPlan id digests s = .ok (plan, s')) :
    plan ∈ s.plans ∧ plan.id = id ∧ (∀ d ∈ digests, plan.digest = d) ∧ s = s' := by
  simp only [pinnedPlan, get_bind_ok, required_bind_ok, refuse_bind_ok, pure_ok] at h
  obtain ⟨p, hf, h1, rfl, rfl⟩ := h
  obtain ⟨hm, hid⟩ := Table.find?_eq_some.mp hf
  push Not at h1
  exact ⟨hm, hid, h1, rfl⟩

end checks

theorem requireLeases_ok {p : Pair} {u : Unit} : ∀ {resources : List PhysicalResource},
    requireLeases p resources s = .ok (u, s') →
      (∀ resource ∈ resources, s.Leased resource.key p) ∧ s = s'
  | [], h => by
      rw [requireLeases, pure_ok] at h
      exact ⟨by simp, h.2⟩
  | resource :: resources, h => by
      simp only [requireLeases, get_bind_ok, refuse_bind_ok, ne_eq, not_not,
        Store.leased_iff] at h
      obtain ⟨h1, h2⟩ := h
      obtain ⟨h3, rfl⟩ := requireLeases_ok h2
      exact ⟨List.forall_mem_cons.mpr ⟨h1, h3⟩, rfl⟩

theorem debit_ok {grant grant' : Grant} {amount : Budget}
    (h : debit grant amount s = .ok (grant', s')) :
    ∃ remaining, grant.remaining.checkedSub amount = some remaining ∧
      grant' = { grant with remaining := remaining } ∧
      s' = { s with grants := s.grants.replace { grant with remaining := remaining } } := by
  simp only [debit, updateGrant, required_bind_ok, modify_bind_ok, pure_ok] at h
  obtain ⟨remaining, hr, rfl, rfl⟩ := h
  exact ⟨remaining, hr, rfl, rfl⟩

theorem nextStep_ok (hc : s.Coherent) {p : Pair} {n : ℕ} (h : nextStep p s = .ok (n, s')) :
    ((n = 0 ∧ ∀ a, s.Attempt a → a.pair ≠ p) ∨
      ∃ a, s.Top a ∧ a.pair = p ∧ a.state = .completed ∧ n = a.operationIndex + 1) ∧ s = s' := by
  rw [nextStep, get_bind_ok] at h
  rcases hc.stepRows_getLast (p := p) with ⟨hl, hnone⟩ | ⟨a, hl, htop, hp⟩
  · rw [hl] at h
    obtain ⟨rfl, rfl⟩ := pure_ok.mp h
    exact ⟨Or.inl ⟨rfl, hnone⟩, rfl⟩
  · rw [hl] at h
    simp only [refuse_bind_ok] at h
    simp only [bind_ok, liftExcept_ok, pure_ok] at h
    obtain ⟨hstate, i, _, ⟨hi, rfl⟩, rfl, rfl⟩ := h
    rw [storedIndex, storedUnsigned_ok] at hi
    have hidx : (a.operationIndex : ℤ) = (i : ℤ) := hi
    refine ⟨Or.inr ⟨a, htop, hp, ?_, by omega⟩, rfl⟩
    exact @stateText_injective a.state .completed (not_not.mp hstate)

theorem requireRunSnapshot_ok (hc : s.Coherent) {a : AttemptRecord} {u : Unit}
    (h : requireRunSnapshot a s = .ok (u, s')) :
    (∃ first, s.Attempt first ∧ first.pair = a.pair ∧ first.operationIndex = 0 ∧
      first.snapshot = a.snapshot) ∧ s = s' := by
  simp only [requireRunSnapshot, get_bind_ok, required_bind_ok, refuse_ok] at h
  obtain ⟨first, hf, h1, rfl⟩ := h
  obtain ⟨hm, hp, hi⟩ := hc.attemptAtStep_some hf
  push Not at h1
  refine ⟨⟨first, hm, hp, by omega, ?_⟩, rfl⟩
  unfold AttemptRecord.snapshot
  rw [h1.1, h1.2.1, h1.2.2.1, h1.2.2.2]

/-! ### Leases -/

/-- Taking leases adds the missing ones; none was another pair's. -/
theorem takeLeases_ok {p : Pair} {u : Unit} : ∀ {resources : List PhysicalResource} {s s' : Store},
    takeLeases p resources s = .ok (u, s') →
    ∃ leases : Table LeaseRow.resourceKey,
      (∀ key q, (⟨key, q⟩ : LeaseRow) ∈ leases ↔
        s.Leased key q ∨ q = p ∧ ∃ resource ∈ resources, resource.key = key) ∧
      (∀ resource ∈ resources, ∀ q, s.Leased resource.key q → q = p) ∧
      s' = { s with planLeases := leases }
  | [], s, s', h => by
      rw [takeLeases, pure_ok] at h
      refine ⟨s.planLeases, ?_, by simp, h.2.symm⟩
      intro key q
      simp [Store.Leased]
  | resource :: resources, s, s', h => by
      rw [takeLeases, get_bind_ok] at h
      cases hf : s.planLeases.find? resource.key with
      | some lease =>
          rw [hf] at h
          simp only [refuse_bind_ok, ne_eq, not_not] at h
          obtain ⟨hp, h⟩ := h
          have hl : s.Leased resource.key p := Store.leased_iff.mp (by rw [hf, ← hp]; rfl)
          obtain ⟨leases, h1, h2, rfl⟩ := takeLeases_ok h
          refine ⟨leases, ?_, ?_, rfl⟩
          · intro key q
            rw [h1, List.exists_mem_cons_iff]
            constructor
            · tauto
            · rintro (hq | ⟨rfl, rfl | hr⟩)
              · exact Or.inl hq
              · exact Or.inl hl
              · exact Or.inr ⟨rfl, hr⟩
          · refine List.forall_mem_cons.mpr ⟨fun q hq => Store.leased_inj hq hl, h2⟩
      | none =>
          rw [hf] at h
          obtain ⟨_, s₁, hins, h⟩ := bind_ok.mp h
          obtain ⟨t, ht, rfl⟩ := insertRow_ok.mp hins
          have hnone := Table.find?_eq_none.mp hf
          obtain ⟨leases, h1, h2, rfl⟩ := takeLeases_ok h
          have hmem : ∀ key q, Store.Leased { s with planLeases := t } key q ↔
              (key = resource.key ∧ q = p) ∨ s.Leased key q := by
            intro key q
            unfold Store.Leased
            rw [Table.mem_insert? ht, LeaseRow.mk.injEq]
          refine ⟨leases, ?_, ?_, rfl⟩
          · intro key q
            rw [h1, hmem, List.exists_mem_cons_iff]
            constructor
            · rintro ((⟨rfl, rfl⟩ | hq) | ⟨rfl, hr⟩)
              · exact Or.inr ⟨rfl, Or.inl rfl⟩
              · exact Or.inl hq
              · exact Or.inr ⟨rfl, Or.inr hr⟩
            · rintro (hq | ⟨rfl, rfl | hr⟩)
              · exact Or.inl (Or.inr hq)
              · exact Or.inl (Or.inl ⟨rfl, rfl⟩)
              · exact Or.inr ⟨rfl, hr⟩
          · refine List.forall_mem_cons.mpr ⟨fun q hq => absurd rfl (hnone _ hq), ?_⟩
            exact fun r hr q hq => h2 r hr q ((hmem _ _).mpr (Or.inr hq))

/-- Moving leases gives the pair every key; each was held by an old owner. -/
theorem moveLeases_ok {owners : List Pair} {p : Pair} {u : Unit} :
    ∀ {resources : List PhysicalResource} {s s' : Store},
    moveLeases owners p resources s = .ok (u, s') →
    ∃ leases : Table LeaseRow.resourceKey,
      (∀ key q, (⟨key, q⟩ : LeaseRow) ∈ leases ↔
        (q = p ∧ ∃ resource ∈ resources, resource.key = key) ∨
        (s.Leased key q ∧ ¬ ∃ resource ∈ resources, resource.key = key)) ∧
      (∀ resource ∈ resources, ∃ q ∈ owners, s.Leased resource.key q) ∧
      s' = { s with planLeases := leases }
  | [], s, s', h => by
      rw [moveLeases, pure_ok] at h
      refine ⟨s.planLeases, ?_, by simp, h.2.symm⟩
      intro key q
      simp [Store.Leased]
  | resource :: resources, s, s', h => by
      simp only [moveLeases, get_bind_ok, required_bind_ok, refuse_bind_ok, modify_bind_ok,
        not_not] at h
      obtain ⟨owner, hf, howner, h⟩ := h
      obtain ⟨hm, hk⟩ := Table.find?_eq_some.mp hf
      have hl : s.Leased resource.key owner.pair := by
        unfold Store.Leased
        rw [← hk]
        exact hm
      have hmem : ∀ key q,
          Store.Leased { s with planLeases := s.planLeases.replace ⟨resource.key, p⟩ } key q ↔
            (key = resource.key ∧ q = p) ∨ (s.Leased key q ∧ key ≠ resource.key) := by
        intro key q
        unfold Store.Leased
        rw [Table.mem_replace hm hk, LeaseRow.mk.injEq]
      obtain ⟨leases, h1, h2, rfl⟩ := moveLeases_ok h
      refine ⟨leases, ?_, ?_, rfl⟩
      · intro key q
        rw [h1, hmem, List.exists_mem_cons_iff, ne_eq, eq_comm (a := key)]
        constructor
        · rintro (⟨rfl, hr⟩ | ⟨⟨hke, rfl⟩ | ⟨hq, hne⟩, hr⟩)
          · exact Or.inl ⟨rfl, Or.inr hr⟩
          · exact Or.inl ⟨rfl, Or.inl hke⟩
          · exact Or.inr ⟨hq, fun he => he.elim hne hr⟩
        · rintro (⟨rfl, hke | hr⟩ | ⟨hq, hnot⟩)
          · by_cases hr : ∃ r ∈ resources, r.key = key
            · exact Or.inl ⟨rfl, hr⟩
            · exact Or.inr ⟨Or.inl ⟨hke, rfl⟩, hr⟩
          · exact Or.inl ⟨rfl, hr⟩
          · exact Or.inr ⟨Or.inr ⟨hq, fun he => hnot (Or.inl he)⟩, fun he => hnot (Or.inr he)⟩
      · refine List.forall_mem_cons.mpr ⟨⟨owner.pair, howner, hl⟩, ?_⟩
        intro r hr
        obtain ⟨q, hq, hql⟩ := h2 r hr
        rcases (hmem _ _).mp hql with ⟨hke, hqp⟩ | ⟨hql, _⟩
        · exact ⟨owner.pair, howner, by rw [hke]; exact hl⟩
        · exact ⟨q, hq, hql⟩

end Cheirismos

import Cheirismos.Outcomes

/-! # The invariant of the store, without its leases

`Regular s` collects what every reachable store satisfies besides the lease law.

* **Attempts.** Request ids and steps of a pair are unique; every attempt is `Admitted`, so the
  plan, profile and grant it was made from are on record; the steps of a pair form a prefix
  whose attempts are completed up to the last (`previous`).
* **Witnesses** belong to attempts; an open one holds its attempt in `unknown` and its pair
  open, and there is at most one for each attempt.
* **Closures.** A halted pair is no destination and has only settled attempts; a retired pair
  has nothing dispatched; retirements and takeovers belong together (`source`, `Transferred`),
  and from every pair the retirements lead to a pair that is not retired (`chain`).

The second half keeps `Regular` under the single updates that transactions are made of:
adding to the authority records (`Regular.extend`), admitting and restating an attempt
(`Regular.admission`, `Regular.restate`), opening and closing a witness, a takeover and an
abandonment. -/

namespace Cheirismos

/-! ### Authority records -/

/-- The grant is the same but for what is left of it and whether it is revoked, and a
revocation stays. -/
def Grant.Continues (g g' : Grant) : Prop :=
  g' = { g with remaining := g'.remaining, revoked := g'.revoked } ∧
    (g.revoked = true → g'.revoked = true)

namespace Grant.Continues

theorem refl (g : Grant) : g.Continues g := ⟨rfl, fun hr => hr⟩

theorem trans {g g' g'' : Grant} (h : g.Continues g') (h' : g'.Continues g'') :
    g.Continues g'' := by
  refine ⟨?_, fun hr => h'.2 (h.2 hr)⟩
  rw [h'.1, h.1]

theorem debited (g : Grant) (remaining : Budget) :
    g.Continues { g with remaining := remaining } := ⟨rfl, fun hr => hr⟩

theorem revoked (g : Grant) : g.Continues { g with revoked := true } := ⟨rfl, fun _ => rfl⟩

variable {g g' : Grant} (h : g.Continues g')

include h

theorem id_eq : g'.id = g.id := by rw [h.1]

theorem profile_eq : g'.profile = g.profile := by rw [h.1]

end Grant.Continues

/-- The run is the same but for its cursor. -/
def PlanRun.Continues (r r' : PlanRun) : Prop := r' = { r with cursor := r'.cursor }

namespace PlanRun.Continues

theorem refl (r : PlanRun) : r.Continues r := rfl

theorem trans {r r' r'' : PlanRun} (h : r.Continues r') (h' : r'.Continues r'') :
    r.Continues r'' := by
  unfold PlanRun.Continues at h h' ⊢
  rw [h', h]

variable {r r' : PlanRun} (h : r.Continues r')

include h

theorem id_eq : r'.id = r.id := by rw [h]

theorem pair_eq : r'.pair = r.pair := by rw [h]; rfl

theorem steps_eq : r'.steps = r.steps := by rw [h]

end PlanRun.Continues

/-- Profiles and plans stay, grants and runs continue. -/
structure Extends (s s' : Store) : Prop where
  profiles : ∀ profile ∈ s.profiles, profile ∈ s'.profiles
  plans : ∀ plan ∈ s.plans, plan ∈ s'.plans
  grants : ∀ g ∈ s.grants, ∃ g' ∈ s'.grants, g.Continues g'
  runs : ∀ run ∈ s.runs, ∃ run' ∈ s'.runs, run.Continues run'

namespace Extends

theorem refl (s : Store) : Extends s s :=
  ⟨fun _ h => h, fun _ h => h, fun g h => ⟨g, h, .refl g⟩, fun r h => ⟨r, h, rfl⟩⟩

theorem trans {s s' s'' : Store} (h : Extends s s') (h' : Extends s' s'') : Extends s s'' where
  profiles p hp := h'.profiles p (h.profiles p hp)
  plans p hp := h'.plans p (h.plans p hp)
  grants g hg := by
    obtain ⟨g', hg', hc⟩ := h.grants g hg
    obtain ⟨g'', hg'', hc'⟩ := h'.grants g' hg'
    exact ⟨g'', hg'', hc.trans hc'⟩
  runs r hr := by
    obtain ⟨r', hr', he⟩ := h.runs r hr
    obtain ⟨r'', hr'', he'⟩ := h'.runs r' hr'
    exact ⟨r'', hr'', he.trans he'⟩

/-- Putting a continued grant in the place of a grant. -/
theorem replaceGrant {s : Store} {g g' : Grant} (hg : g ∈ s.grants) (h : g.Continues g') :
    Extends s { s with grants := s.grants.replace g' } where
  profiles _ hp := hp
  plans _ hp := hp
  grants q hq := by
    by_cases hid : q.id = g'.id
    · refine ⟨g', (Table.mem_replace hg h.id_eq.symm).mpr (Or.inl rfl), ?_⟩
      rw [s.grants.eq_of_key_eq hq hg (hid.trans h.id_eq)]
      exact h
    · exact ⟨q, (Table.mem_replace hg h.id_eq.symm).mpr (Or.inr ⟨hq, hid⟩), .refl q⟩
  runs r hr := ⟨r, hr, rfl⟩

end Extends

/-! ### Attempts -/

section admitted

variable [Platform]

/-- The records an attempt was admitted under, and what it reserved: the whole plan's worst
case at the first step, nothing at a later one. -/
structure Admitted (s : Store) (a : AttemptIdentity) : Prop where
  plan : ∃ plan ∈ s.plans, plan.id = a.plan ∧ plan.digest = a.planDigest ∧
    a.operationIndex < plan.operations.length ∧
    (a.operationIndex = 0 → worstCase plan.operations = some a.reserved) ∧
    (a.operationIndex ≠ 0 → a.reserved = Budget.zero)
  profile : ∃ profile ∈ s.profiles, profile.id = a.profile ∧ profile.digest = a.profileDigest ∧
    profile.physicalResources = a.leasedResources
  grant : ∃ grant ∈ s.grants, grant.id = a.grant ∧ grant.profile = a.profile

theorem Admitted.extend {s s' : Store} {a : AttemptIdentity} (h : Admitted s a)
    (he : Extends s s') : Admitted s' a where
  plan := by
    obtain ⟨plan, hp, hrest⟩ := h.plan
    exact ⟨plan, he.plans plan hp, hrest⟩
  profile := by
    obtain ⟨profile, hp, hrest⟩ := h.profile
    exact ⟨profile, he.profiles profile hp, hrest⟩
  grant := by
    obtain ⟨g, hg, hid, hp⟩ := h.grant
    obtain ⟨g', hg', hc⟩ := he.grants g hg
    exact ⟨g', hg', hc.id_eq.trans hid, hc.profile_eq.trans hp⟩

end admitted

namespace Store

/-! ### Takeovers -/

/-- The pair was retired by a takeover into the other. -/
def Succeeds (s : Store) (p q : Pair) : Prop :=
  ∃ row ∈ s.recoverySourceRetirements, row.pair = p ∧
    ∃ takeover ∈ s.recoveryTakeovers, takeover.request = row.takeoverRequest ∧ takeover.pair = q

/-- Following the retirements any number of times. -/
def Path (s : Store) : Pair → Pair → Prop := Relation.ReflTransGen s.Succeeds

/-- What a recorded takeover has done. -/
structure Transferred (s : Store) (t : RecoveryTakeoverRecord) : Prop where
  run : ∃ run ∈ s.runs, run.id = t.run ∧ run.pair = t.pair
  first : ∃ a, s.Attempt a ∧ a.id = t.firstAttempt ∧ a.pair = t.pair ∧ a.operationIndex = 0 ∧
    a.leasedResources = t.resources
  sources : ∀ id ∈ t.unresolved, ∃ b, s.Attempt b ∧ b.id = id ∧
    ∃ row ∈ s.recoverySourceRetirements, row.pair = b.pair ∧ row.takeoverRequest = t.request

/-- The pairs retired after the owners were. -/
theorem retired_of_rows {s : Store} {request : RequestId} {owners : List Pair}
    {retirements : Table RetirementRow.pair}
    (h : ∀ row, row ∈ retirements ↔ row ∈ s.recoverySourceRetirements ∨
      row.takeoverRequest = request ∧ row.pair ∈ owners) {p : Pair} :
    (∃ row ∈ retirements, row.pair = p) ↔ s.Retired p ∨ p ∈ owners := by
  constructor
  · rintro ⟨row, hrow, rfl⟩
    rcases (h row).mp hrow with hrow | ⟨_, hrow⟩
    · exact Or.inl ⟨row, hrow, rfl⟩
    · exact Or.inr hrow
  · rintro (⟨row, hrow, rfl⟩ | hp)
    · exact ⟨row, (h row).mpr (Or.inl hrow), rfl⟩
    · exact ⟨⟨p, request⟩, (h _).mpr (Or.inr ⟨rfl, hp⟩), rfl⟩

/-- The pairs halted after an abandonment. -/
theorem halted_of_rows {s : Store} {record : HaltedRunAbandonmentRecord}
    {abandonments : Table HaltedRunAbandonmentRecord.request}
    (h : abandonments.rows = record :: s.haltedRunAbandonments.rows) {p : Pair} :
    (∃ row ∈ abandonments, row.pair = p) ↔ p = record.pair ∨ s.Halted p := by
  simp only [Halted, Table.mem_def, h, List.exists_mem_cons_iff]
  exact or_congr_left eq_comm

theorem Succeeds.destination {s : Store} {p q : Pair} (h : s.Succeeds p q) : s.Destination q := by
  obtain ⟨_, _, _, t, ht, _, hq⟩ := h
  exact ⟨t, ht, hq⟩

/-! ### The invariant -/

variable [Platform]

structure Regular (s : Store) : Prop where
  coherent : s.Coherent
  request : ∀ a b, s.Attempt a → s.Attempt b → a.request = b.request → a = b
  step : ∀ a b, s.Attempt a → s.Attempt b → a.pair = b.pair →
    a.operationIndex = b.operationIndex → a = b
  admitted : ∀ a, s.Attempt a → Admitted s a.identity
  previous : ∀ a n, s.Attempt a → a.operationIndex = n + 1 →
    ∃ b, s.Attempt b ∧ b.pair = a.pair ∧ b.operationIndex = n ∧ b.state = .completed ∧
      b.snapshot = a.snapshot
  witnessed : ∀ r, s.Witness r → ∃ a, s.Attempt a ∧ a.id = r.attempt
  claimed : ∀ r a, s.Witness r → r.state = .claimed → s.Attempt a → a.id = r.attempt →
    a.state = .unknown ∧ ¬ s.Closed a.pair
  claim : ∀ r r', s.Witness r → s.Witness r' → r.state = .claimed → r'.state = .claimed →
    r.attempt = r'.attempt → r = r'
  halted : ∀ p, s.Halted p → ¬ s.Destination p ∧
    ∀ a, s.Attempt a → a.pair = p → a.state = .completed ∨ a.state = .rejected
  retired : ∀ p, s.Retired p → (∀ a, s.Attempt a → a.pair = p → a.state ≠ .dispatched) ∧
    (s.Destination p ∨
      ∃ a, s.Attempt a ∧ a.pair = p ∧ (a.state = .partially ∨ a.state = .unknown))
  source : ∀ row ∈ s.recoverySourceRetirements,
    ∃ t ∈ s.recoveryTakeovers, t.request = row.takeoverRequest ∧
      ∃ a, s.Attempt a ∧ a.pair = row.pair ∧ a.id ∈ t.unresolved ∧ a.leasedResources = t.resources
  transferred : ∀ t ∈ s.recoveryTakeovers, s.Transferred t
  chain : ∀ p, ∃ h, s.Path p h ∧ ¬ s.Retired h

theorem regular_empty : Regular .empty where
  coherent := ⟨fun _ h => (Table.not_mem_empty _ h).elim, fun _ h => (Table.not_mem_empty _ h).elim⟩
  request _ _ h := (Table.not_mem_empty _ h).elim
  step _ _ h := (Table.not_mem_empty _ h).elim
  admitted _ h := (Table.not_mem_empty _ h).elim
  previous _ _ h := (Table.not_mem_empty _ h).elim
  witnessed _ h := (Table.not_mem_empty _ h).elim
  claimed _ _ h := (Table.not_mem_empty _ h).elim
  claim _ _ h := (Table.not_mem_empty _ h).elim
  halted _ h := by
    obtain ⟨_, h, _⟩ := h
    exact (Table.not_mem_empty _ h).elim
  retired _ h := by
    obtain ⟨_, h, _⟩ := h
    exact (Table.not_mem_empty _ h).elim
  source _ h := (Table.not_mem_empty _ h).elim
  transferred _ h := (Table.not_mem_empty _ h).elim
  chain p := by
    refine ⟨p, .refl, ?_⟩
    rintro ⟨_, h, _⟩
    exact Table.not_mem_empty _ h

namespace Regular

variable {s s' : Store} (h : s.Regular)

include h

/-! ### The steps of a pair -/

/-- Every step before an attempt is completed, with the same snapshot. -/
theorem earlier {a : AttemptRecord} (ha : s.Attempt a) : ∀ {n : ℕ}, n < a.operationIndex →
    ∃ b, s.Attempt b ∧ b.pair = a.pair ∧ b.operationIndex = n ∧ b.state = .completed ∧
      b.snapshot = a.snapshot := by
  have key : ∀ (d : ℕ) (a : AttemptRecord), s.Attempt a → ∀ n, n + d + 1 = a.operationIndex →
      ∃ b, s.Attempt b ∧ b.pair = a.pair ∧ b.operationIndex = n ∧ b.state = .completed ∧
        b.snapshot = a.snapshot := by
    intro d
    induction d with
    | zero => exact fun a ha n hn => h.previous a n ha hn.symm
    | succ d ih =>
        intro a ha n hn
        obtain ⟨c, hc, hcp, hci, _, hcs⟩ := h.previous a (n + d + 1) ha (by omega)
        obtain ⟨b, hb, hbp, hbi, hbst, hbs⟩ := ih c hc n hci.symm
        exact ⟨b, hb, hbp.trans hcp, hbi, hbst, hbs.trans hcs⟩
  intro n hn
  exact key (a.operationIndex - n - 1) a ha n (by omega)

/-- An attempt that is not completed is the last of its pair. -/
theorem top_of_not_completed {a : AttemptRecord} (ha : s.Attempt a) (hs : a.state ≠ .completed) :
    s.Top a := by
  refine ⟨ha, fun b hb hp => ?_⟩
  by_contra hlt
  obtain ⟨c, hc, hcp, hci, hcs, _⟩ := h.earlier hb (not_le.mp hlt)
  obtain rfl := h.step c a hc ha (hcp.trans hp) hci
  exact hs hcs

/-- A pair with an attempt has one at step 0. -/
theorem first {a : AttemptRecord} (ha : s.Attempt a) :
    ∃ b, s.Attempt b ∧ b.pair = a.pair ∧ b.operationIndex = 0 ∧ b.snapshot = a.snapshot := by
  rcases Nat.eq_zero_or_pos a.operationIndex with h0 | hpos
  · exact ⟨a, ha, rfl, h0, rfl⟩
  · obtain ⟨b, hb, hp, hi, _, hs⟩ := h.earlier ha hpos
    exact ⟨b, hb, hp, hi, hs⟩

/-- All attempts of a pair share their snapshot. -/
theorem snapshot {a b : AttemptRecord} (ha : s.Attempt a) (hb : s.Attempt b)
    (hp : a.pair = b.pair) : a.snapshot = b.snapshot := by
  obtain ⟨a₀, ha₀, hap, hai, has⟩ := h.first ha
  obtain ⟨b₀, hb₀, hbp, hbi, hbs⟩ := h.first hb
  obtain rfl := h.step a₀ b₀ ha₀ hb₀ (hap.trans (hp.trans hbp.symm)) (hai.trans hbi.symm)
  exact has.symm.trans hbs

/-- A pair with an attempt has a highest one. -/
theorem exists_top {a : AttemptRecord} (ha : s.Attempt a) : ∃ b, s.Top b ∧ b.pair = a.pair := by
  rcases h.coherent.stepRows_getLast (p := a.pair) with ⟨_, hnone⟩ | ⟨b, _, htop, hp⟩
  · exact absurd rfl (hnone a ha)
  · exact ⟨b, htop, hp⟩

/-! ### Single updates -/

/-- Adding to the authority records. -/
theorem extend (he : Extends s s') (hf : s' = { s with
      profiles := s'.profiles
      grants := s'.grants
      plans := s'.plans
      proposals := s'.proposals
      runs := s'.runs
      planLeases := s'.planLeases }) : s'.Regular := by
  have hadm : ∀ a, s.Attempt a → Admitted s' a.identity :=
    fun a ha => (h.admitted a ha).extend he
  have htrans : ∀ t ∈ s.recoveryTakeovers, ∃ run ∈ s'.runs, run.id = t.run ∧
      run.pair = t.pair := by
    intro t ht
    obtain ⟨run, hrun, hid, hpair⟩ := (h.transferred t ht).run
    obtain ⟨run', hrun', hc⟩ := he.runs run hrun
    exact ⟨run', hrun', hc.id_eq.trans hid, hc.pair_eq.trans hpair⟩
  rw [hf] at hadm htrans ⊢
  exact
    { coherent := ⟨h.coherent.attempts, h.coherent.reconciliations⟩
      request := h.request
      step := h.step
      admitted := hadm
      previous := h.previous
      witnessed := h.witnessed
      claimed := h.claimed
      claim := h.claim
      halted := h.halted
      retired := h.retired
      source := h.source
      transferred := fun t ht => ⟨htrans t ht, (h.transferred t ht).first,
        (h.transferred t ht).sources⟩
      chain := h.chain }

/-- Adding an attempt: the first of its pair, or the one after a completed last one. -/
theorem admission {a : AttemptRecord} {attempts : Table AttemptRow.id}
    (hplaces : PlacesAttempt s a attempts) (hadm : Admitted s a.identity) (horder : InOrder s a)
    (hopen : ¬ s.Closed a.pair) : Regular { s with attempts := attempts } := by
  have hmem : ∀ b, Attempt { s with attempts := attempts } b ↔ b = a ∨ s.Attempt b :=
    fun b => hplaces.mem
  have hold : ∀ b, s.Attempt b → Attempt { s with attempts := attempts } b :=
    fun b hb => (hmem b).mpr (Or.inr hb)
  exact
    { coherent := ⟨hplaces.coherent h.coherent, h.coherent.reconciliations⟩
      request := by
        intro b c hb hc he
        rcases (hmem b).mp hb with rfl | hb <;> rcases (hmem c).mp hc with rfl | hc
        · rfl
        · exact absurd he.symm (hplaces.request c hc)
        · exact absurd he (hplaces.request b hb)
        · exact h.request b c hb hc he
      step := by
        intro b c hb hc hp hi
        rcases (hmem b).mp hb with rfl | hb <;> rcases (hmem c).mp hc with rfl | hc
        · rfl
        · exact absurd hi.symm (hplaces.step c hc hp.symm)
        · exact absurd hi (hplaces.step b hb hp)
        · exact h.step b c hb hc hp hi
      admitted := by
        intro b hb
        rcases (hmem b).mp hb with rfl | hb
        · exact ⟨hadm.plan, hadm.profile, hadm.grant⟩
        · exact ⟨(h.admitted b hb).plan, (h.admitted b hb).profile, (h.admitted b hb).grant⟩
      previous := by
        intro b n hb hi
        rcases (hmem b).mp hb with rfl | hb
        · rcases horder with ⟨h0, _⟩ | ⟨c, htop, hp, hstate, hidx, hsnap⟩
          · omega
          · obtain ⟨f, hf, hfp, _, hfs⟩ := hsnap
            refine ⟨c, hold c htop.1, hp, by omega, hstate, ?_⟩
            exact (h.snapshot htop.1 hf (hp.trans hfp.symm)).trans hfs
        · obtain ⟨c, hc, hrest⟩ := h.previous b n hb hi
          exact ⟨c, hold c hc, hrest⟩
      witnessed := by
        intro r hr
        obtain ⟨b, hb, hid⟩ := h.witnessed r hr
        exact ⟨b, hold b hb, hid⟩
      claimed := by
        intro r b hr hstate hb hid
        rcases (hmem b).mp hb with rfl | hb
        · obtain ⟨c, hc, hcid⟩ := h.witnessed r hr
          exact absurd (hcid.trans hid.symm) (hplaces.id c hc)
        · exact h.claimed r b hr hstate hb hid
      claim := h.claim
      halted := by
        intro p hp
        refine ⟨(h.halted p hp).1, fun b hb hbp => ?_⟩
        rcases (hmem b).mp hb with rfl | hb
        · exact absurd (Or.inl (hbp ▸ hp)) hopen
        · exact (h.halted p hp).2 b hb hbp
      retired := by
        intro p hp
        refine ⟨fun b hb hbp => ?_, (h.retired p hp).2.imp_right ?_⟩
        · rcases (hmem b).mp hb with rfl | hb
          · exact absurd (Or.inr (hbp ▸ hp)) hopen
          · exact (h.retired p hp).1 b hb hbp
        · rintro ⟨b, hb, hrest⟩
          exact ⟨b, hold b hb, hrest⟩
      source := by
        intro row hrow
        obtain ⟨t, ht, hreq, b, hb, hrest⟩ := h.source row hrow
        exact ⟨t, ht, hreq, b, hold b hb, hrest⟩
      transferred := by
        intro t ht
        obtain ⟨hrun, ⟨b, hb, hrest⟩, hsources⟩ := h.transferred t ht
        refine ⟨hrun, ⟨b, hold b hb, hrest⟩, fun id hid => ?_⟩
        obtain ⟨c, hc, hrest'⟩ := hsources id hid
        exact ⟨c, hold c hc, hrest'⟩
      chain := h.chain }

/-- Restating an attempt of an open pair: a completed one stays completed, and one under
investigation stays unknown. -/
theorem restate {a a' : AttemptRecord} (ha : s.Attempt a) (hid : a'.identity = a.identity)
    (hopen : ¬ s.Closed a.pair) (hdone : a.state = .completed → a'.state = .completed)
    (hclaimed : ∀ r, s.Witness r → r.state = .claimed → r.attempt = a.id →
      a'.state = .unknown) : (s.setAttempt a').Regular := by
  have hcoh := h.coherent.setAttempt ha hid
  have hback : ∀ b, (s.setAttempt a').Attempt b →
      ∃ c, s.Attempt c ∧ b.identity = c.identity ∧ (b = c ∨ c = a ∧ b = a') :=
    fun b hb => attempt_setAttempt_back ha hid hb
  have hforth : ∀ b, s.Attempt b →
      ∃ c, (s.setAttempt a').Attempt c ∧ c.identity = b.identity ∧ (c = b ∨ b = a ∧ c = a') :=
    fun b hb => attempt_setAttempt_forth ha hid hb
  -- two restated attempts are equal when the attempts they restate are
  have hinj : ∀ b c b₀ c₀ : AttemptRecord, (s.setAttempt a').Attempt b → (s.setAttempt a').Attempt c →
      b.identity = b₀.identity → c.identity = c₀.identity → b₀ = c₀ → b = c := by
    rintro b c b₀ _ hb hc hbi hci rfl
    exact attempt_inj hb hc (AttemptRecord.id_eq (hbi.trans hci.symm))
  have hkeeps : ∀ b c : AttemptRecord, (c = b ∨ b = a ∧ c = a') → b.state = .completed →
      c.state = .completed := by
    rintro b c (rfl | ⟨rfl, rfl⟩) hb
    · exact hb
    · exact hdone hb
  exact
    { coherent := hcoh
      request := by
        intro b c hb hc he
        obtain ⟨b₀, hb₀, hbi, _⟩ := hback b hb
        obtain ⟨c₀, hc₀, hci, _⟩ := hback c hc
        refine hinj b c b₀ c₀ hb hc hbi hci (h.request b₀ c₀ hb₀ hc₀ ?_)
        rw [← AttemptRecord.request_eq hbi, ← AttemptRecord.request_eq hci, he]
      step := by
        intro b c hb hc hp hi
        obtain ⟨b₀, hb₀, hbi, _⟩ := hback b hb
        obtain ⟨c₀, hc₀, hci, _⟩ := hback c hc
        refine hinj b c b₀ c₀ hb hc hbi hci (h.step b₀ c₀ hb₀ hc₀ ?_ ?_)
        · rw [← AttemptRecord.pair_eq hbi, ← AttemptRecord.pair_eq hci, hp]
        · rw [← AttemptRecord.index_eq hbi, ← AttemptRecord.index_eq hci, hi]
      admitted := by
        intro b hb
        obtain ⟨b₀, hb₀, hbi, _⟩ := hback b hb
        rw [hbi]
        exact ⟨(h.admitted b₀ hb₀).plan, (h.admitted b₀ hb₀).profile, (h.admitted b₀ hb₀).grant⟩
      previous := by
        intro b n hb hi
        obtain ⟨b₀, hb₀, hbi, _⟩ := hback b hb
        rw [AttemptRecord.index_eq hbi] at hi
        obtain ⟨c₀, hc₀, hcp, hcn, hcs, hsnap⟩ := h.previous b₀ n hb₀ hi
        obtain ⟨c, hc, hci, hcase⟩ := hforth c₀ hc₀
        refine ⟨c, hc, ?_, (AttemptRecord.index_eq hci).trans hcn, hkeeps c₀ c hcase hcs, ?_⟩
        · rw [AttemptRecord.pair_eq hci, AttemptRecord.pair_eq hbi, hcp]
        · rw [AttemptRecord.snapshot_eq hci, AttemptRecord.snapshot_eq hbi, hsnap]
      witnessed := by
        intro r hr
        obtain ⟨b, hb, hbid⟩ := h.witnessed r hr
        obtain ⟨c, hc, hci, _⟩ := hforth b hb
        exact ⟨c, hc, (AttemptRecord.id_eq hci).trans hbid⟩
      claimed := by
        intro r b hr hstate hb hbid
        obtain ⟨b₀, hb₀, hbi, hcase⟩ := hback b hb
        rw [AttemptRecord.pair_eq hbi]
        have h0 := h.claimed r b₀ hr hstate hb₀ ((AttemptRecord.id_eq hbi).symm.trans hbid)
        rcases hcase with rfl | ⟨rfl, rfl⟩
        · exact h0
        · exact ⟨hclaimed r hr hstate ((AttemptRecord.id_eq hbi).symm.trans hbid).symm, h0.2⟩
      claim := h.claim
      halted := by
        intro p hp
        refine ⟨(h.halted p hp).1, fun b hb hbp => ?_⟩
        obtain ⟨b₀, hb₀, hbi, rfl | ⟨rfl, rfl⟩⟩ := hback b hb
        · exact (h.halted p hp).2 b hb₀ hbp
        · rw [AttemptRecord.pair_eq hbi] at hbp
          exact absurd (Or.inl (hbp ▸ hp)) hopen
      retired := by
        intro p hp
        have hnot : p ≠ a.pair := by
          rintro rfl
          exact hopen (Or.inr hp)
        refine ⟨fun b hb hbp => ?_, (h.retired p hp).2.imp_right ?_⟩
        · obtain ⟨b₀, hb₀, hbi, rfl | ⟨rfl, rfl⟩⟩ := hback b hb
          · exact (h.retired p hp).1 b hb₀ hbp
          · exact absurd (hbp.symm.trans (AttemptRecord.pair_eq hbi)) hnot
        · rintro ⟨b, hb, hbp, hbs⟩
          obtain ⟨c, hc, hci, rfl | ⟨rfl, rfl⟩⟩ := hforth b hb
          · exact ⟨c, hc, hbp, hbs⟩
          · exact absurd hbp.symm hnot
      source := by
        intro row hrow
        obtain ⟨t, ht, hreq, b, hb, hbp, hbu, hbr⟩ := h.source row hrow
        obtain ⟨c, hc, hci, _⟩ := hforth b hb
        exact ⟨t, ht, hreq, c, hc, (AttemptRecord.pair_eq hci).trans hbp,
          (AttemptRecord.id_eq hci).symm ▸ hbu, (AttemptRecord.resources_eq hci).trans hbr⟩
      transferred := by
        intro t ht
        obtain ⟨hrun, ⟨b, hb, h1, h2, h3, h4⟩, hsources⟩ := h.transferred t ht
        obtain ⟨c, hc, hci, _⟩ := hforth b hb
        refine ⟨hrun, ⟨c, hc, (AttemptRecord.id_eq hci).trans h1,
          (AttemptRecord.pair_eq hci).trans h2, (AttemptRecord.index_eq hci).trans h3,
          (AttemptRecord.resources_eq hci).trans h4⟩, fun id hid => ?_⟩
        obtain ⟨d, hd, hdid, row, hrow, hrp, hrr⟩ := hsources id hid
        obtain ⟨e, he, hei, _⟩ := hforth d hd
        exact ⟨e, he, (AttemptRecord.id_eq hei).trans hdid, row, hrow,
          hrp.trans (AttemptRecord.pair_eq hei).symm, hrr⟩
      chain := h.chain }

/-- Opening a witness of an unknown attempt. -/
theorem openWitness {r : ReconciliationRecord} {a : AttemptRecord}
    {reconciliations : Table ReconciliationRow.requestId}
    (hrows : reconciliations.rows = ReconciliationRow.of r :: s.reconciliations.rows)
    (ha : s.Attempt a) (hid : a.id = r.attempt) (hstate : a.state = .unknown)
    (hopen : ¬ s.Closed a.pair)
    (hnone : ∀ r', s.Witness r' → r'.attempt = r.attempt → r'.state ≠ .claimed) :
    Regular { s with reconciliations := reconciliations } := by
  have hmem : ∀ q, Witness { s with reconciliations := reconciliations } q ↔
      q = r ∨ s.Witness q := fun q => witness_of_rows hrows
  exact
    { coherent := ⟨h.coherent.attempts, coherent_of_witnessRows hrows h.coherent⟩
      request := h.request
      step := h.step
      admitted := fun b hb => ⟨(h.admitted b hb).plan, (h.admitted b hb).profile,
        (h.admitted b hb).grant⟩
      previous := h.previous
      witnessed := by
        intro q hq
        rcases (hmem q).mp hq with rfl | hq
        · exact ⟨a, ha, hid⟩
        · exact h.witnessed q hq
      claimed := by
        intro q b hq hqs hb hbid
        rcases (hmem q).mp hq with rfl | hq
        · obtain rfl := attempt_inj hb ha (hbid.trans hid.symm)
          exact ⟨hstate, hopen⟩
        · exact h.claimed q b hq hqs hb hbid
      claim := by
        intro q q' hq hq' hs hs' he
        rcases (hmem q).mp hq with rfl | hq <;> rcases (hmem q').mp hq' with rfl | hq'
        · rfl
        · exact absurd hs' (hnone q' hq' he.symm)
        · exact absurd hs (hnone q hq he)
        · exact h.claim q q' hq hq' hs hs' he
      halted := h.halted
      retired := h.retired
      source := h.source
      transferred := fun t ht => ⟨(h.transferred t ht).run, (h.transferred t ht).first,
        (h.transferred t ht).sources⟩
      chain := h.chain }

/-- Closing a witness. -/
theorem closeWitness {r r' : ReconciliationRecord} (hr : s.Witness r)
    (hreq : r'.request = r.request) (hatt : r'.attempt = r.attempt)
    (hord : r'.ordinal = r.ordinal) (hstate : r'.state ≠ .claimed) :
    (s.setReconciliation r').Regular := by
  have hmem : ∀ q, (s.setReconciliation r').Witness q ↔ q = r' ∨ s.Witness q ∧
      q.request ≠ r'.request := fun q => witness_setReconciliation hr hreq hatt hord
  have hold : ∀ q, (s.setReconciliation r').Witness q → q.state = .claimed → s.Witness q := by
    intro q hq hs
    rcases (hmem q).mp hq with rfl | hq
    · exact absurd hs hstate
    · exact hq.1
  exact
    { coherent := h.coherent.setReconciliation hr hreq hatt hord
      request := h.request
      step := h.step
      admitted := fun b hb => ⟨(h.admitted b hb).plan, (h.admitted b hb).profile,
        (h.admitted b hb).grant⟩
      previous := h.previous
      witnessed := by
        intro q hq
        rcases (hmem q).mp hq with rfl | hq
        · rw [hatt]
          exact h.witnessed r hr
        · exact h.witnessed q hq.1
      claimed := fun q b hq hs hb hid => h.claimed q b (hold q hq hs) hs hb hid
      claim := fun q q' hq hq' hs hs' he => h.claim q q' (hold q hq hs) (hold q' hq' hs') hs hs' he
      halted := h.halted
      retired := h.retired
      source := h.source
      transferred := fun t ht => ⟨(h.transferred t ht).run, (h.transferred t ht).first,
        (h.transferred t ht).sources⟩
      chain := h.chain }

/-- A takeover from old owners into the pair of its first attempt. -/
theorem takeOver {a : AttemptRecord} {owners : List Pair} {recovery : RecoveryTakeoverRecord}
    {run : PlanRun} {runs : Table PlanRun.id} {retirements : Table RetirementRow.pair}
    {takeovers : Table RecoveryTakeoverRecord.request}
    (ha : s.Attempt a) (hstart : a.operationIndex = 0) (hopen : ¬ s.Closed a.pair)
    (hid : recovery.firstAttempt = a.id) (hpair : recovery.pair = a.pair)
    (hres : recovery.resources = a.leasedResources) (hrun : run.id = recovery.run)
    (hrunPair : run.pair = a.pair)
    (hown : a.pair ∉ owners)
    (hin : ∀ id ∈ recovery.unresolved, ∃ b, Source s a.leasedResources id b ∧ b.pair ∈ owners)
    (hout : ∀ q ∈ owners, ∃ id ∈ recovery.unresolved, ∃ b, Source s a.leasedResources id b ∧
      b.pair = q)
    (hret : ∀ row, row ∈ retirements ↔ row ∈ s.recoverySourceRetirements ∨
      row.takeoverRequest = recovery.request ∧ row.pair ∈ owners)
    (hruns : s.runs.insert? run = some runs)
    (htakeovers : s.recoveryTakeovers.insert? recovery = some takeovers) :
    Regular { s with
      recoverySourceRetirements := retirements
      runs := runs
      recoveryTakeovers := takeovers } := by
  have hret' : ∀ p, Retired { s with
      recoverySourceRetirements := retirements
      runs := runs
      recoveryTakeovers := takeovers } p ↔ s.Retired p ∨ p ∈ owners :=
    fun p => retired_of_rows hret
  have htmem : ∀ t, t ∈ takeovers ↔ t = recovery ∨ t ∈ s.recoveryTakeovers :=
    fun t => Table.mem_insert? htakeovers
  have hnew : recovery ∈ takeovers := (htmem recovery).mpr (Or.inl rfl)
  have hold : ∀ t ∈ s.recoveryTakeovers, t ∈ takeovers := fun t ht => (htmem t).mpr (Or.inr ht)
  have hretold : ∀ row ∈ s.recoverySourceRetirements, row ∈ retirements :=
    fun row hrow => (hret row).mpr (Or.inl hrow)
  have hsucc : ∀ p q, s.Path p q → Path { s with
      recoverySourceRetirements := retirements
      runs := runs
      recoveryTakeovers := takeovers } p q := by
    intro p q hpath
    refine Relation.ReflTransGen.mono ?_ p q hpath
    rintro p q ⟨row, hrow, hp, t, ht, hrest⟩
    exact ⟨row, hretold row hrow, hp, t, hold t ht, hrest⟩
  exact
    { coherent := ⟨h.coherent.attempts, h.coherent.reconciliations⟩
      request := h.request
      step := h.step
      admitted := fun b hb => ⟨(h.admitted b hb).plan, (h.admitted b hb).profile,
        (h.admitted b hb).grant⟩
      previous := h.previous
      witnessed := h.witnessed
      claimed := by
        intro r b hr hs hb hbid
        obtain ⟨h1, h2⟩ := h.claimed r b hr hs hb hbid
        refine ⟨h1, ?_⟩
        rintro (hhalt | hretired)
        · exact h2 (Or.inl hhalt)
        · rcases (hret' _).mp hretired with hr' | hbo
          · exact h2 (Or.inr hr')
          · obtain ⟨_, _, c, hsource, hc⟩ := hout _ hbo
            exact hsource.unclaimed r b hr hs hb hbid hc.symm
      claim := h.claim
      halted := by
        intro p hp
        refine ⟨?_, (h.halted p hp).2⟩
        rintro ⟨t, ht, htp⟩
        rcases (htmem t).mp ht with rfl | ht
        · exact hopen (Or.inl (by rw [← hpair, htp]; exact hp))
        · exact (h.halted p hp).1 ⟨t, ht, htp⟩
      retired := by
        intro p hp
        rcases (hret' p).mp hp with hp | hp
        · refine ⟨(h.retired p hp).1, (h.retired p hp).2.imp_left ?_⟩
          rintro ⟨t, ht, htp⟩
          exact ⟨t, hold t ht, htp⟩
        · obtain ⟨_, _, b, hsource, rfl⟩ := hout p hp
          refine ⟨hsource.settled, ?_⟩
          rcases hsource.uncertain with hs | ⟨t, ht, htp⟩
          · exact Or.inr ⟨b, hsource.attempt, rfl, hs⟩
          · exact Or.inl ⟨t, hold t ht, htp⟩
      source := by
        intro row hrow
        rcases (hret row).mp hrow with hrow | ⟨hreq, hrow⟩
        · obtain ⟨t, ht, hrest⟩ := h.source row hrow
          exact ⟨t, hold t ht, hrest⟩
        · obtain ⟨id, hmem, b, hsource, hb⟩ := hout _ hrow
          refine ⟨recovery, hnew, hreq.symm, b, hsource.attempt, hb, ?_, ?_⟩
          · rw [hsource.id]
            exact hmem
          · rw [hsource.resources, hres]
      transferred := by
        intro t ht
        rcases (htmem t).mp ht with rfl | ht
        · refine ⟨⟨run, (Table.mem_insert? hruns).mpr (Or.inl rfl), hrun, hrunPair.trans hpair.symm⟩,
            ⟨a, ha, hid.symm, hpair.symm, hstart, hres.symm⟩, fun id hmem => ?_⟩
          obtain ⟨b, hsource, hb⟩ := hin id hmem
          exact ⟨b, hsource.attempt, hsource.id, ⟨b.pair, t.request⟩,
            (hret _).mpr (Or.inr ⟨rfl, hb⟩), rfl, rfl⟩
        · obtain ⟨⟨run', hrun', hrid⟩, hfirst, hsources⟩ := h.transferred t ht
          refine ⟨⟨run', (Table.mem_insert? hruns).mpr (Or.inr hrun'), hrid⟩, hfirst,
            fun id hmem => ?_⟩
          obtain ⟨b, hb, hbid, row, hrow, hrest⟩ := hsources id hmem
          exact ⟨b, hb, hbid, row, hretold row hrow, hrest⟩
      chain := by
        intro p
        obtain ⟨q, hpath, hq⟩ := h.chain p
        by_cases hqo : q ∈ owners
        · refine ⟨a.pair, (hsucc p q hpath).tail ?_, fun hr => ?_⟩
          · exact ⟨⟨q, recovery.request⟩, (hret _).mpr (Or.inr ⟨rfl, hqo⟩), rfl, recovery, hnew,
              rfl, hpair⟩
          · exact ((hret' _).mp hr).elim (fun hr => hopen (Or.inr hr)) hown
        · exact ⟨q, hsucc p q hpath, fun hr => ((hret' _).mp hr).elim hq hqo⟩ }

/-- Abandoning a pair whose attempts are all settled. -/
theorem abandon {record : HaltedRunAbandonmentRecord}
    {abandonments : Table HaltedRunAbandonmentRecord.request}
    (hrows : abandonments.rows = record :: s.haltedRunAbandonments.rows)
    (hdest : ¬ s.Destination record.pair)
    (hsettled : ∀ a, s.Attempt a → a.pair = record.pair →
      a.state = .completed ∨ a.state = .rejected) :
    Regular { s with haltedRunAbandonments := abandonments } := by
  have hhalt : ∀ p, Halted { s with haltedRunAbandonments := abandonments } p ↔
      p = record.pair ∨ s.Halted p := fun p => halted_of_rows hrows
  exact
    { coherent := ⟨h.coherent.attempts, h.coherent.reconciliations⟩
      request := h.request
      step := h.step
      admitted := fun b hb => ⟨(h.admitted b hb).plan, (h.admitted b hb).profile,
        (h.admitted b hb).grant⟩
      previous := h.previous
      witnessed := h.witnessed
      claimed := by
        intro r b hr hs hb hbid
        obtain ⟨h1, h2⟩ := h.claimed r b hr hs hb hbid
        refine ⟨h1, ?_⟩
        rintro (hhalted | hretired)
        · rcases (hhalt _).mp hhalted with hp | hp
          · rcases hsettled b hb hp with e | e <;> rw [h1] at e <;> cases e
          · exact h2 (Or.inl hp)
        · exact h2 (Or.inr hretired)
      claim := h.claim
      halted := by
        intro p hp
        rcases (hhalt p).mp hp with rfl | hp
        · exact ⟨hdest, hsettled⟩
        · exact h.halted p hp
      retired := h.retired
      source := h.source
      transferred := fun t ht => ⟨(h.transferred t ht).run, (h.transferred t ht).first,
        (h.transferred t ht).sources⟩
      chain := h.chain }

end Regular

end Store

end Cheirismos

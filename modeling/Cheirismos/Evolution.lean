import Cheirismos.Changes

/-! # What stays over time

`Evolves s s'` orders the stores of a run: it is reflexive and transitive, and every change of
a good store is one (`Change.evolves`).

Profiles, plans, takeovers, retirements and abandonments stay; a grant keeps its terms and
stays revoked; an attempt keeps its identity, only moves forward in its life
(`AttemptState.Advances`) and keeps its challenge once dispatched; a witness that has ended
stays as it is; and the attempts of a closed pair are frozen. -/

namespace Cheirismos

/-! ### Attempts and witnesses over time -/

/-- How far an attempt has come; the two final states are apart. -/
def AttemptState.rank : AttemptState → ℕ
  | intent => 0
  | dispatched => 1
  | partially => 2
  | unknown => 3
  | completed | rejected => 4

/-- The state is the same or a later one. -/
def AttemptState.Advances (state state' : AttemptState) : Prop :=
  state = state' ∨ state.rank < state'.rank

namespace AttemptState.Advances

variable {state state' state'' : AttemptState}

theorem refl (state : AttemptState) : state.Advances state := Or.inl rfl

theorem trans (h : state.Advances state') (h' : state'.Advances state'') :
    state.Advances state'' := by
  rcases h with rfl | h <;> rcases h' with rfl | h'
  · exact Or.inl rfl
  · exact Or.inr h'
  · exact Or.inr h
  · exact Or.inr (h.trans h')

/-- No way back to an intent. -/
theorem intent_back (h : state.Advances state') (h' : state' = .intent) : state = .intent := by
  subst h'
  rcases h with rfl | h
  · rfl
  · simp [rank] at h

end AttemptState.Advances

/-- The attempt later in its life. -/
structure AttemptRecord.Continues (a a' : AttemptRecord) : Prop where
  identity : a'.identity = a.identity
  state : a.state.Advances a'.state
  challenge : a.state ≠ .intent → a'.evidenceChallenge = a.evidenceChallenge
  settled : a.state = .completed ∨ a.state = .rejected → a' = a

namespace AttemptRecord.Continues

theorem refl (a : AttemptRecord) : a.Continues a := ⟨rfl, .refl _, fun _ => rfl, fun _ => rfl⟩

theorem trans {a b c : AttemptRecord} (h : a.Continues b) (h' : b.Continues c) :
    a.Continues c where
  identity := h'.identity.trans h.identity
  state := h.state.trans h'.state
  challenge := by
    intro ha
    rw [h'.challenge (fun hb => ha (h.state.intent_back hb)), h.challenge ha]
  settled := by
    intro ha
    have he := h.settled ha
    subst he
    exact h'.settled ha

/-- An unsettled attempt goes on to a later state. -/
theorem of_rank {a a' : AttemptRecord} (hid : a'.identity = a.identity)
    (hlt : a.state.rank < a'.state.rank)
    (hc : a.state ≠ .intent → a'.evidenceChallenge = a.evidenceChallenge) : a.Continues a' where
  identity := hid
  state := Or.inr hlt
  challenge := hc
  settled := by
    intro hs
    have hmax : a'.state.rank ≤ 4 := by cases a'.state <;> decide
    have hfour : a.state.rank = 4 := by
      rcases hs with e | e <;> rw [e] <;> rfl
    omega

end AttemptRecord.Continues

/-- The witness later in its life. -/
structure ReconciliationRecord.Continues (r r' : ReconciliationRecord) : Prop where
  request : r'.request = r.request
  attempt : r'.attempt = r.attempt
  ordinal : r'.ordinal = r.ordinal
  challenge : r'.challenge = r.challenge
  ended : r.state ≠ .claimed → r' = r

namespace ReconciliationRecord.Continues

theorem refl (r : ReconciliationRecord) : r.Continues r := ⟨rfl, rfl, rfl, rfl, fun _ => rfl⟩

theorem trans {r r' r'' : ReconciliationRecord} (h : r.Continues r') (h' : r'.Continues r'') :
    r.Continues r'' where
  request := h'.request.trans h.request
  attempt := h'.attempt.trans h.attempt
  ordinal := h'.ordinal.trans h.ordinal
  challenge := h'.challenge.trans h.challenge
  ended := by
    intro hr
    have he := h.ended hr
    subst he
    exact h'.ended hr

end ReconciliationRecord.Continues

/-! ### Stores over time -/

/-- The store later in a run. -/
structure Evolves (s s' : Store) : Prop extends Extends s s' where
  attempts : ∀ a, s.Attempt a → ∃ a', s'.Attempt a' ∧ a.Continues a'
  frozen : ∀ a, s.Closed a.pair → (s'.Attempt a ↔ s.Attempt a)
  witnesses : ∀ r, s.Witness r → ∃ r', s'.Witness r' ∧ r.Continues r'
  takeovers : ∀ t ∈ s.recoveryTakeovers, t ∈ s'.recoveryTakeovers
  retirements : ∀ row ∈ s.recoverySourceRetirements, row ∈ s'.recoverySourceRetirements
  abandonments : ∀ h ∈ s.haltedRunAbandonments, h ∈ s'.haltedRunAbandonments

namespace Evolves

open Store

variable {s s' s'' : Store}

theorem refl (s : Store) : Evolves s s where
  toExtends := .refl s
  attempts a ha := ⟨a, ha, .refl a⟩
  frozen _ _ := Iff.rfl
  witnesses r hr := ⟨r, hr, .refl r⟩
  takeovers _ h := h
  retirements _ h := h
  abandonments _ h := h

section standing

variable (h : Evolves s s')

include h

theorem halted {p : Pair} (hp : s.Halted p) : s'.Halted p := by
  obtain ⟨row, hrow, rfl⟩ := hp
  exact ⟨row, h.abandonments row hrow, rfl⟩

theorem retired {p : Pair} (hp : s.Retired p) : s'.Retired p := by
  obtain ⟨row, hrow, rfl⟩ := hp
  exact ⟨row, h.retirements row hrow, rfl⟩

theorem closed {p : Pair} (hp : s.Closed p) : s'.Closed p := hp.imp h.halted h.retired

/-- A settled attempt stays as it is. -/
theorem settled {a : AttemptRecord} (ha : s.Attempt a)
    (hs : a.state = .completed ∨ a.state = .rejected) : s'.Attempt a := by
  obtain ⟨a', ha', hc⟩ := h.attempts a ha
  rw [← hc.settled hs]
  exact ha'

end standing

theorem trans (h : Evolves s s') (h' : Evolves s' s'') : Evolves s s'' where
  toExtends := h.toExtends.trans h'.toExtends
  attempts a ha := by
    obtain ⟨a', ha', hc⟩ := h.attempts a ha
    obtain ⟨a'', ha'', hc'⟩ := h'.attempts a' ha'
    exact ⟨a'', ha'', hc.trans hc'⟩
  frozen a hc := (h'.frozen a (h.closed hc)).trans (h.frozen a hc)
  witnesses r hr := by
    obtain ⟨r', hr', hc⟩ := h.witnesses r hr
    obtain ⟨r'', hr'', hc'⟩ := h'.witnesses r' hr'
    exact ⟨r'', hr'', hc.trans hc'⟩
  takeovers t ht := h'.takeovers t (h.takeovers t ht)
  retirements row hrow := h'.retirements row (h.retirements row hrow)
  abandonments row hrow := h'.abandonments row (h.abandonments row hrow)

/-! ### Single updates -/

theorem extend (he : Extends s s') (hf : s' = { s with
      profiles := s'.profiles
      grants := s'.grants
      plans := s'.plans
      proposals := s'.proposals
      runs := s'.runs
      planLeases := s'.planLeases }) : Evolves s s' := by
  have hatt : ∀ a, s'.Attempt a ↔ s.Attempt a := fun a => by rw [hf]; rfl
  have hwit : ∀ r, s'.Witness r ↔ s.Witness r := fun r => by rw [hf]; rfl
  refine ⟨he, fun a ha => ⟨a, (hatt a).mpr ha, .refl a⟩, fun a _ => hatt a,
    fun r hr => ⟨r, (hwit r).mpr hr, .refl r⟩, ?_, ?_, ?_⟩ <;> rw [hf] <;> exact fun _ h => h

theorem leases (s : Store) (leases : Table LeaseRow.resourceKey) :
    Evolves s { s with planLeases := leases } :=
  extend ⟨fun _ h => h, fun _ h => h, fun g h => ⟨g, h, .refl g⟩, fun r h => ⟨r, h, rfl⟩⟩ rfl

theorem admission {a : AttemptRecord} {attempts : Table AttemptRow.id}
    (places : PlacesAttempt s a attempts) (hopen : ¬ s.Closed a.pair) :
    Evolves s { s with attempts := attempts } where
  toExtends := ⟨fun _ h => h, fun _ h => h, fun g h => ⟨g, h, .refl g⟩, fun r h => ⟨r, h, rfl⟩⟩
  attempts b hb := ⟨b, places.mem.mpr (Or.inr hb), .refl b⟩
  frozen b hc := by
    refine places.mem.trans ⟨fun hb => hb.resolve_left ?_, Or.inr⟩
    rintro rfl
    exact hopen hc
  witnesses r hr := ⟨r, hr, .refl r⟩
  takeovers _ h := h
  retirements _ h := h
  abandonments _ h := h

theorem restate {a a' : AttemptRecord} (ha : s.Attempt a) (hopen : ¬ s.Closed a.pair)
    (hc : a.Continues a') : Evolves s (s.setAttempt a') where
  toExtends := ⟨fun _ h => h, fun _ h => h, fun g h => ⟨g, h, .refl g⟩, fun r h => ⟨r, h, rfl⟩⟩
  attempts b hb := by
    obtain ⟨c, hcm, _, rfl | ⟨rfl, rfl⟩⟩ := attempt_setAttempt_forth ha hc.identity hb
    · exact ⟨c, hcm, .refl c⟩
    · exact ⟨c, hcm, hc⟩
  frozen b hb := by
    rw [attempt_setAttempt ha hc.identity]
    constructor
    · rintro (rfl | ⟨hm, _⟩)
      · rw [AttemptRecord.pair_eq hc.identity] at hb
        exact absurd hb hopen
      · exact hm
    · intro hm
      refine Or.inr ⟨hm, fun hid => hopen ?_⟩
      rw [attempt_inj ha hm ((AttemptRecord.id_eq hc.identity).symm.trans hid.symm)]
      exact hb
  witnesses r hr := ⟨r, hr, .refl r⟩
  takeovers _ h := h
  retirements _ h := h
  abandonments _ h := h

theorem openWitness {r : ReconciliationRecord}
    {reconciliations : Table ReconciliationRow.requestId}
    (hrows : reconciliations.rows = ReconciliationRow.of r :: s.reconciliations.rows) :
    Evolves s { s with reconciliations := reconciliations } where
  toExtends := ⟨fun _ h => h, fun _ h => h, fun g h => ⟨g, h, .refl g⟩, fun r h => ⟨r, h, rfl⟩⟩
  attempts a ha := ⟨a, ha, .refl a⟩
  frozen _ _ := Iff.rfl
  witnesses q hq := ⟨q, (witness_of_rows hrows).mpr (Or.inr hq), .refl q⟩
  takeovers _ h := h
  retirements _ h := h
  abandonments _ h := h

theorem closeWitness {r r' : ReconciliationRecord} (hr : s.Witness r) (hs : r.state = .claimed)
    (hord : r'.ordinal = r.ordinal) (hc : r.Continues r') :
    Evolves s (s.setReconciliation r') where
  toExtends := ⟨fun _ h => h, fun _ h => h, fun g h => ⟨g, h, .refl g⟩, fun r h => ⟨r, h, rfl⟩⟩
  attempts a ha := ⟨a, ha, .refl a⟩
  frozen _ _ := Iff.rfl
  witnesses q hq := by
    have hmem := fun q => witness_setReconciliation hr hc.request hc.attempt hord (q := q)
    by_cases he : q.request = r'.request
    · obtain rfl := witness_inj hq hr (he.trans hc.request)
      exact ⟨r', (hmem r').mpr (Or.inl rfl), hc⟩
    · exact ⟨q, (hmem q).mpr (Or.inr ⟨hq, he⟩), .refl q⟩
  takeovers _ h := h
  retirements _ h := h
  abandonments _ h := h

end Evolves

/-! ### Every change -/

section changes

variable [Platform] {s s' : Store}

open Store

theorem RejectsIntent.evolves {p : Pair} (hopen : ¬ s.Closed p) (hs : s.Coherent)
    (h : Relation.ReflTransGen (RejectsIntent p) s s') : Evolves s s' := by
  induction h with
  | refl => exact .refl s
  | @tail t _ hsteps hstep ih =>
      obtain ⟨a, now, ha, hp, hstate, rfl⟩ := hstep
      refine ih.trans (.restate ha ?_ (.of_rank (abandoned_identity now a) ?_ ?_))
      · rw [hp, (RejectsIntent.back hs hsteps).2.1]
        exact hopen
      · rw [hstate]
        exact (by decide : AttemptState.rank .intent < AttemptState.rank .rejected)
      · exact fun hne => absurd hstate hne

theorem finished_continues {now : Timestamp} {receipt : Option OperationReceipt}
    {completed : Bool} {r : ReconciliationRecord} (h : r.state = .claimed) :
    r.Continues (finished now receipt completed r) :=
  ⟨rfl, rfl, rfl, rfl, fun hne => absurd h hne⟩

theorem Change.evolves {call : StoreCall} (hg : s.Good) (h : Change s call s') : Evolves s s' := by
  have hs := hg.regular
  cases h with
  | records records budgets runs stocked frame =>
      refine .extend records ?_
      rw [frame]
  | issue inserted => exact .extend (.issue inserted) rfl
  | @reserve now a snapshot granted remaining leases attempts proposed admits order takes places =>
      have hext := Extends.replaceGrant admits.grant.mem (.debited granted remaining)
      have h1 := (Evolves.extend hext rfl).trans (.leases _ leases)
      refine h1.trans (.admission ⟨places.rows, places.id, places.request, places.step⟩ ?_)
      rintro (hh | hr)
      · exact admits.unhalted hh
      · exact admits.unretired hr
  | @takeover now a snapshot granted remaining run recovery owners leases retirements attempts
      runs takeovers proposed recovers admits named owned moves retires places runInserted
      recorded =>
      have hext := Extends.replaceGrant admits.grant.mem (.debited granted remaining)
      have h1 := (Evolves.extend hext rfl).trans (.leases _ leases)
      have h2 := h1.trans (.admission
        ⟨places.rows, places.id, places.request, places.step⟩ (by
          rintro (hh | hr)
          · exact admits.unhalted hh
          · exact admits.unretired hr))
      refine h2.trans ⟨⟨fun _ h => h, fun _ h => h, fun g h => ⟨g, h, .refl g⟩, fun r hr => ?_⟩,
        fun b hb => ⟨b, hb, .refl b⟩, fun _ _ => Iff.rfl, fun r hr => ⟨r, hr, .refl r⟩,
        fun t ht => (Table.mem_insert? recorded).mpr (Or.inr ht),
        fun row hrow => (retires row).mpr (Or.inl hrow), fun _ h => h⟩
      exact ⟨r, (Table.mem_insert? runInserted).mpr (Or.inr hr), rfl⟩
  | @abandon record s₁ leases abandonments unhalted noDestination rejects resolved settled
      released recorded =>
      have hopen := open_of_abandon hs unhalted noDestination resolved
      have h1 := RejectsIntent.evolves hopen hs.coherent rejects
      have hframe := (RejectsIntent.back hs.coherent rejects).2.1
      refine (h1.trans (.leases s₁ leases)).trans ⟨⟨fun _ h => h, fun _ h => h,
        fun g h => ⟨g, h, .refl g⟩, fun r hr => ⟨r, hr, rfl⟩⟩, fun b hb => ⟨b, hb, .refl b⟩,
        fun _ _ => Iff.rfl, fun r hr => ⟨r, hr, .refl r⟩, fun _ h => h, fun _ h => h,
        fun row hrow => ?_⟩
      rw [hframe] at hrow
      rw [Table.mem_def, recorded]
      exact List.mem_cons_of_mem _ hrow
  | @dispatch now agent a claimed claims =>
      refine .restate claims.attempt ?_ (.of_rank claims.identity ?_ ?_)
      · rintro (hh | hr)
        · exact claims.unhalted hh
        · exact claims.unretired hr
      · rw [claims.intent, claims.dispatched]
        decide
      · exact fun hne => absurd claims.intent hne
  | @receipt now receipt a release _ attempt dispatched flag result =>
      have hc : a.Continues (receipted now receipt a) := by
        refine .of_rank rfl ?_ (fun _ => rfl)
        rw [dispatched]
        cases receipt <;> simp [receipted, OperationReceipt.state, AttemptState.rank]
      have h1 := Evolves.restate attempt (hs.open_of_dispatched attempt dispatched) hc
      rcases result with ⟨_, _, rfl⟩ | ⟨_, rfl⟩
      · exact h1.trans (.leases _ _)
      · exact h1
  | @investigate now now' request principal budget a granted grants claimed reconciliations _
      claims configuration charges opened result =>
      have hext := charges.extends claims.grant.mem
      have h1 := (Evolves.extend hext rfl).trans (.openWitness opened)
      rcases result with ⟨_, rfl⟩ | ⟨hstate, rfl⟩
      · exact h1
      · refine h1.trans (.restate claims.attempt (claims.open_pair hg)
          (.of_rank rfl ?_ (fun _ => rfl)))
        rw [hstate]
        exact (by decide : AttemptState.rank .partially < AttemptState.rank .unknown)
  | @conclude now now' receipt completed release r a result _ witness claimed attempt subject flag
      finishes =>
      obtain ⟨hunknown, hopen⟩ := hs.claimed r a witness claimed attempt subject
      have h1 : Evolves s (s.setReconciliation (finished now receipt completed r)) :=
        .closeWitness witness claimed rfl (finished_continues claimed)
      have h2 : Evolves s ((s.setReconciliation (finished now receipt completed r)).setAttempt
          (completedBy now' a)) := by
        refine h1.trans (.restate attempt hopen (.of_rank rfl ?_ (fun _ => rfl)))
        rw [hunknown]
        exact (by decide : AttemptState.rank .unknown < AttemptState.rank .completed)
      cases finishes with
      | released => exact h2.trans (.leases _ _)
      | kept => exact h2
      | reopened _ hpart =>
          rw [hunknown] at hpart
          cases hpart
      | unchanged _ _ => exact h1
  | @interrupt now a attempt dispatched =>
      refine .restate attempt (hs.open_of_dispatched attempt dispatched)
        (.of_rank rfl ?_ (fun _ => rfl))
      rw [dispatched]
      exact (by decide : AttemptState.rank .dispatched < AttemptState.rank .unknown)
  | @interruptWitness now r witness claimed =>
      exact .closeWitness witness claimed rfl ⟨rfl, rfl, rfl, rfl, fun hne => absurd claimed hne⟩

/-- A change leaves every dispatched attempt but the one it settles. -/
theorem Change.spares {call : StoreCall} (hg : s.Good) (h : Change s call s')
    {b : AttemptRecord} (hb : s.Attempt b) (hd : b.state = .dispatched)
    (hne : call.settles ≠ some b.id) : s'.Attempt b := by
  have hset : ∀ {t : Store} {a a' : AttemptRecord}, t.Attempt b → t.Attempt a →
      a'.identity = a.identity → b.id ≠ a.id → (t.setAttempt a').Attempt b := by
    intro t a a' hb ha hid hne
    refine (attempt_setAttempt ha hid).mpr (Or.inr ⟨hb, ?_⟩)
    rw [AttemptRecord.id_eq hid]
    exact hne
  have hother : ∀ {a : AttemptRecord}, s.Attempt a → a.state ≠ .dispatched → b.id ≠ a.id := by
    intro a ha hs he
    obtain rfl := attempt_inj hb ha he
    exact hs hd
  cases h with
  | records records budgets runs stocked frame =>
      rw [frame]
      exact hb
  | issue inserted => exact hb
  | reserve proposed admits order takes places => exact places.mem.mpr (Or.inr hb)
  | takeover proposed recovers admits named owned moves retires places runInserted recorded =>
      exact places.mem.mpr (Or.inr hb)
  | abandon unhalted noDestination rejects resolved settled released recorded =>
      obtain ⟨c, hc, _, rfl | ⟨_, hi, _⟩⟩ := RejectsIntent.forth rejects hb
      · exact hc
      · rw [hd] at hi
        cases hi
  | dispatch claims =>
      refine hset hb claims.attempt claims.identity (hother claims.attempt ?_)
      rw [claims.intent]
      decide
  | @receipt now receipt a release _ attempt dispatched flag result =>
      have h1 := hset hb attempt (receipted_identity now receipt a) (fun he => hne (he ▸ rfl))
      rcases result with ⟨_, _, rfl⟩ | ⟨_, rfl⟩
      · exact h1
      · exact h1
  | @investigate now now' request principal budget a granted grants claimed reconciliations _
      claims configuration charges opened result =>
      rcases result with ⟨_, rfl⟩ | ⟨hstate, rfl⟩
      · exact hb
      · refine hset (t := { s with grants := grants, reconciliations := reconciliations }) hb
          claims.attempt (reopened_identity now' a) (hother claims.attempt ?_)
        rw [hstate]
        decide
  | @conclude now now' receipt completed release r a result _ witness claimed attempt subject flag
      finishes =>
      have hunknown := (hg.regular.claimed r a witness claimed attempt subject).1
      have hne' := hother attempt (by rw [hunknown]; decide)
      cases finishes with
      | released => exact hset hb attempt (completed_identity now' a) hne'
      | kept => exact hset hb attempt (completed_identity now' a) hne'
      | reopened _ hpart =>
          rw [hunknown] at hpart
          cases hpart
      | unchanged _ _ => exact hb
  | @interrupt now a attempt dispatched =>
      exact hset hb attempt (interrupted_identity now a) (fun he => hne (he ▸ rfl))
  | interruptWitness witness claimed => exact hb

end changes

end Cheirismos

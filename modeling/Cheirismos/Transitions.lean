import Cheirismos.Evolution

/-! # What one call does to one record

`Change` says what a store call can do to the store; here it is turned around.  Every attempt on
record after a call was there before, and the call has made one thing of it (`Becomes`), or the
call has admitted it (`Arrives`); the same for witnesses (`WitnessBecomes`, `WitnessArrives`)
and for runs (`RunChange`).  A property of records that persist is shown by these cases alone.

`AttemptState.Moves` are the moves of an attempt's state, and `Becomes.moves` says that a call
makes no other. -/

namespace Cheirismos

open Store

variable [Platform] {s s' : Store}

/-! ### Attempts -/

/-- What a call has made of an attempt on record. -/
inductive Becomes (s : Store) (a : AttemptRecord) : AttemptRecord → StoreCall → Prop
  | kept {call : StoreCall} : Becomes s a a call
  | dispatched {now : Timestamp} {agent : PrincipalId} {claimed : ClaimedDispatch}
      (claims : ClaimsDispatch s now agent a claimed) :
      Becomes s a claimed.attempt (.claimDispatch a.id agent)
  | receipted {now : Timestamp} {receipt : OperationReceipt} {release : Bool}
      (dispatched : a.state = .dispatched) :
      Becomes s a (receipted now receipt a) (.recordReceipt a.id receipt release)
  | abandoned {now : Timestamp} {record : HaltedRunAbandonmentRecord} (intent : a.state = .intent)
      (pair : a.pair = record.pair) : Becomes s a (abandoned now a) (.abandonHaltedRun record)
  | reopened {now : Timestamp} {request : RequestId} {principal : PrincipalId}
      {budget : Option Budget} (uncertain : a.state = .partially) :
      Becomes s a (reopened now a) (.claimReconciliation a.id request principal budget)
  | completed {now : Timestamp} {receipt : Option OperationReceipt} {release : Bool}
      {r : ReconciliationRecord} (witness : s.Witness r) (claimed : r.state = .claimed)
      (subject : a.id = r.attempt) (uncertain : a.state = .unknown) :
      Becomes s a (completedBy now a) (.finishReconciliation r.request receipt true release)
  | interrupted {now : Timestamp} (dispatched : a.state = .dispatched) :
      Becomes s a (interrupted now a) (.updateAttempt (interrupted now a))

/-- How an attempt comes on record. -/
inductive Arrives (s : Store) (a : AttemptRecord) : StoreCall → Prop
  | reserved {now : Timestamp} {snapshot : AdmissionSnapshot} {granted : Grant}
      {remaining : Budget} (proposed : Proposed s a snapshot)
      (admits : Admits s now a snapshot granted remaining) (order : InOrder s a) :
      Arrives s a (.reserve a snapshot)
  | recovered {now : Timestamp} {snapshot : AdmissionSnapshot} {granted : Grant}
      {remaining : Budget} {run : PlanRun} {recovery : RecoveryTakeoverRecord}
      (proposed : Proposed s a snapshot) (recovers : Recovers a snapshot run recovery)
      (admits : Admits s now a snapshot granted remaining)
      (first : ∀ b, s.Attempt b → b.pair ≠ a.pair) :
      Arrives s a (.takeoverRecovery a snapshot run recovery)

/-- Where an attempt on record after a call comes from. -/
def AttemptChange (s : Store) (a' : AttemptRecord) (call : StoreCall) : Prop :=
  (∃ a, s.Attempt a ∧ Becomes s a a' call) ∨ ((∀ b, s.Attempt b → b.id ≠ a'.id) ∧ Arrives s a' call)

/-- Every attempt after an abandonment is one from before, or one that it rejected. -/
theorem RejectsIntent.origin {p : Pair}
    (h : Relation.ReflTransGen (RejectsIntent p) s s') {b : AttemptRecord} (hb : s'.Attempt b) :
    ∃ a, s.Attempt a ∧ (b = a ∨ a.pair = p ∧ a.state = .intent ∧ ∃ now, b = Cheirismos.abandoned now a) := by
  induction h generalizing b with
  | refl => exact ⟨b, hb, Or.inl rfl⟩
  | tail hsteps hstep ih =>
      obtain ⟨a, now, ha, hp, hstate, rfl⟩ := hstep
      rcases (attempt_setAttempt ha (abandoned_identity now a)).mp hb with rfl | ⟨hb, _⟩
      · obtain ⟨a₀, ha₀, rfl | ⟨_, _, now', rfl⟩⟩ := ih ha
        · exact ⟨a, ha₀, Or.inr ⟨hp, hstate, now, rfl⟩⟩
        · cases hstate
      · exact ih hb

/-- What a call makes of the one attempt that it restates. -/
theorem attemptChange_restate {t : Store} {call : StoreCall} {a a' b : AttemptRecord}
    (hsame : ∀ c, t.Attempt c ↔ s.Attempt c) (ha : s.Attempt a) (hid : a'.identity = a.identity)
    (hb : Becomes s a a' call) (h : (t.setAttempt a').Attempt b) : AttemptChange s b call := by
  rcases (attempt_setAttempt ((hsame a).mpr ha) hid).mp h with rfl | ⟨hb', _⟩
  · exact Or.inl ⟨a, ha, hb⟩
  · exact Or.inl ⟨b, (hsame b).mp hb', .kept⟩

/-- Every attempt after a call is one from before, changed in one way, or it has just been
admitted. -/
theorem Change.attempt {call : StoreCall} (hg : s.Good) (h : Change s call s') {b : AttemptRecord}
    (hb : s'.Attempt b) : AttemptChange s b call := by
  have hs := hg.regular
  cases h with
  | records records budgets runs stocked frame =>
      rw [frame] at hb
      exact Or.inl ⟨b, hb, .kept⟩
  | issue inserted => exact Or.inl ⟨b, hb, .kept⟩
  | reserve proposed admits order takes places =>
      rcases places.mem.mp hb with rfl | hb
      · exact Or.inr ⟨places.id, .reserved proposed admits order⟩
      · exact Or.inl ⟨b, hb, .kept⟩
  | takeover proposed recovers admits named owned moves retires places runInserted recorded =>
      rcases places.mem.mp hb with rfl | hb
      · exact Or.inr ⟨places.id,
          .recovered proposed recovers admits (takeover_fresh hs recovers.start places)⟩
      · exact Or.inl ⟨b, hb, .kept⟩
  | @abandon record s₁ leases abandonments unhalted noDestination rejects resolved settled
      released recorded =>
      obtain ⟨a, ha, rfl | ⟨hp, hi, now, rfl⟩⟩ := RejectsIntent.origin rejects hb
      · exact Or.inl ⟨b, ha, .kept⟩
      · exact Or.inl ⟨a, ha, .abandoned hi hp⟩
  | dispatch claims =>
      exact attemptChange_restate (fun _ => Iff.rfl) claims.attempt claims.identity
        (.dispatched claims) hb
  | @receipt now receipt a release _ attempt dispatched flag result =>
      have hb' : (s.setAttempt (Cheirismos.receipted now receipt a)).Attempt b := by
        rcases result with ⟨_, _, rfl⟩ | ⟨_, rfl⟩
        · exact hb
        · exact hb
      exact attemptChange_restate (fun _ => Iff.rfl) attempt (receipted_identity now receipt a)
        (.receipted dispatched) hb'
  | @investigate now now' request principal budget a granted grants claimed reconciliations _
      claims configuration charges opened result =>
      rcases result with ⟨_, rfl⟩ | ⟨hstate, rfl⟩
      · exact Or.inl ⟨b, hb, .kept⟩
      · exact attemptChange_restate
          (t := { s with grants := grants, reconciliations := reconciliations })
          (fun _ => Iff.rfl) claims.attempt (reopened_identity now' a) (.reopened hstate) hb
  | @conclude now now' receipt completed release r a result _ witness claimed attempt subject flag
      finishes =>
      have hunknown := (hs.claimed r a witness claimed attempt subject).1
      cases finishes with
      | released =>
          exact attemptChange_restate (t := s.setReconciliation _)
            (fun _ => Iff.rfl) attempt (completed_identity now' a) (.completed witness claimed subject hunknown) hb
      | kept =>
          exact attemptChange_restate (t := s.setReconciliation _)
            (fun _ => Iff.rfl) attempt (completed_identity now' a) (.completed witness claimed subject hunknown) hb
      | reopened _ hpart =>
          rw [hunknown] at hpart
          cases hpart
      | unchanged _ _ => exact Or.inl ⟨b, hb, .kept⟩
  | @interrupt now a attempt dispatched =>
      exact attemptChange_restate (fun _ => Iff.rfl) attempt (interrupted_identity now a)
        (.interrupted dispatched) hb
  | interruptWitness witness claimed => exact Or.inl ⟨b, hb, .kept⟩

/-- The moves of the state of an attempt. -/
inductive AttemptState.Moves : AttemptState → AttemptState → Prop
  | dispatch : Moves .intent .dispatched
  | abandon : Moves .intent .rejected
  | complete : Moves .dispatched .completed
  | part : Moves .dispatched .partially
  | lose : Moves .dispatched .unknown
  | reject : Moves .dispatched .rejected
  | reopen : Moves .partially .unknown
  | resolve : Moves .partially .completed
  | settle : Moves .unknown .completed

namespace Becomes

variable {call : StoreCall} {a a' : AttemptRecord}

theorem identity (h : Becomes s a a' call) : a'.identity = a.identity := by
  cases h with
  | dispatched claims => exact claims.identity
  | _ => rfl

/-- A call moves the state of an attempt as the states allow, or not at all. -/
theorem moves (h : Becomes s a a' call) : a' = a ∨ a.state.Moves a'.state := by
  cases h with
  | kept => exact Or.inl rfl
  | dispatched claims =>
      rw [claims.intent, claims.dispatched]
      exact Or.inr .dispatch
  | @receipted _ receipt _ hd =>
      rw [hd]
      cases receipt with
      | completed => exact Or.inr .complete
      | partially => exact Or.inr .part
      | unknown => exact Or.inr .lose
      | rejected => exact Or.inr .reject
  | abandoned intent _ =>
      rw [intent]
      exact Or.inr .abandon
  | reopened uncertain =>
      rw [uncertain]
      exact Or.inr .reopen
  | completed _ _ _ uncertain =>
      rw [uncertain]
      exact Or.inr .settle
  | interrupted hd =>
      rw [hd]
      exact Or.inr .lose

end Becomes

namespace Arrives

variable {call : StoreCall} {a : AttemptRecord}

theorem proposed (h : Arrives s a call) : ∃ snapshot, Proposed s a snapshot := by
  cases h with
  | reserved proposed => exact ⟨_, proposed⟩
  | recovered proposed => exact ⟨_, proposed⟩

theorem intent (h : Arrives s a call) : a.state = .intent ∧ a.receipt = none := by
  obtain ⟨_, hp⟩ := h.proposed
  exact ⟨hp.intent, hp.unreceipted⟩

/-- An attempt is admitted as the first of its pair, or after a completed one. -/
theorem order (h : Arrives s a call) : InOrder s a := by
  cases h with
  | reserved _ _ order => exact order
  | recovered _ recovers _ first => exact Or.inl ⟨recovers.start, first⟩

end Arrives

/-! ### Witnesses -/

/-- What a call has made of a reconciliation on record. -/
inductive WitnessBecomes (r : ReconciliationRecord) : ReconciliationRecord → StoreCall → Prop
  | kept {call : StoreCall} : WitnessBecomes r r call
  | finished {now : Timestamp} {receipt : Option OperationReceipt} {completed release : Bool}
      (claimed : r.state = .claimed) : WitnessBecomes r (finished now receipt completed r)
        (.finishReconciliation r.request receipt completed release)
  | interrupted {now : Timestamp} (claimed : r.state = .claimed) :
      WitnessBecomes r (interruptedWitness now r) (.updateReconciliation (interruptedWitness now r))

/-- How a reconciliation comes on record. -/
inductive WitnessArrives (s : Store) (r : ReconciliationRecord) : StoreCall → Prop
  | opened {now : Timestamp} {request : RequestId} {principal : PrincipalId}
      {budget : Option Budget} {a : AttemptRecord} {granted : Grant}
      {claimed : ClaimedReconciliation}
      (claims : ClaimsReconciliation s now request principal a granted claimed)
      (record : claimed.record = r) :
      WitnessArrives s r (.claimReconciliation a.id request principal budget)

theorem WitnessArrives.call {r : ReconciliationRecord} {call : StoreCall}
    (h : WitnessArrives s r call) : ∃ id principal budget,
      call = .claimReconciliation id r.request principal budget := by
  obtain ⟨claims, rfl⟩ := h
  exact ⟨_, _, _, by rw [claims.recordRequest]⟩

/-- Every reconciliation after a call is one from before, changed in one way, or it has just
been claimed. -/
theorem Change.witness {call : StoreCall} (hg : s.Good) (h : Change s call s')
    {q : ReconciliationRecord} (hq : s'.Witness q) :
    (∃ r, s.Witness r ∧ WitnessBecomes r q call) ∨ WitnessArrives s q call := by
  have hs := hg.regular
  cases h with
  | records records budgets runs stocked frame =>
      rw [frame] at hq
      exact Or.inl ⟨q, hq, .kept⟩
  | issue inserted => exact Or.inl ⟨q, hq, .kept⟩
  | reserve proposed admits order takes places => exact Or.inl ⟨q, hq, .kept⟩
  | takeover proposed recovers admits named owned moves retires places runInserted recorded =>
      exact Or.inl ⟨q, hq, .kept⟩
  | @abandon record s₁ leases abandonments unhalted noDestination rejects resolved settled
      released recorded =>
      have hframe := (RejectsIntent.back hs.coherent rejects).2.1
      rw [hframe] at hq
      exact Or.inl ⟨q, hq, .kept⟩
  | dispatch claims => exact Or.inl ⟨q, hq, .kept⟩
  | receipt attempt dispatched flag result =>
      rcases result with ⟨_, _, rfl⟩ | ⟨_, rfl⟩
      · exact Or.inl ⟨q, hq, .kept⟩
      · exact Or.inl ⟨q, hq, .kept⟩
  | @investigate now now' request principal budget a granted grants claimed reconciliations _
      claims configuration charges opened result =>
      have hq' : Store.Witness { s with grants := grants, reconciliations := reconciliations } q := by
        rcases result with ⟨_, rfl⟩ | ⟨_, rfl⟩
        · exact hq
        · exact hq
      rcases (Store.witness_of_rows opened).mp hq' with rfl | hq
      · exact Or.inr (.opened claims rfl)
      · exact Or.inl ⟨q, hq, .kept⟩
  | @conclude now now' receipt completed release r a result _ witness claimed attempt subject flag
      finishes =>
      have hq' : (s.setReconciliation (Cheirismos.finished now receipt completed r)).Witness q := by
        cases finishes with
        | released => exact hq
        | kept => exact hq
        | reopened _ _ => exact hq
        | unchanged _ _ => exact hq
      have hcase : q = Cheirismos.finished now receipt completed r ∨
          s.Witness q ∧ q.request ≠ r.request :=
        (witness_setReconciliation witness (by rfl) (by rfl) (by rfl)).mp hq'
      rcases hcase with rfl | ⟨hq, _⟩
      · exact Or.inl ⟨r, witness, .finished claimed⟩
      · exact Or.inl ⟨q, hq, .kept⟩
  | @interrupt now a attempt dispatched => exact Or.inl ⟨q, hq, .kept⟩
  | @interruptWitness now r witness claimed =>
      have hcase : q = interruptedWitness now r ∨ s.Witness q ∧ q.request ≠ r.request :=
        (witness_setReconciliation witness (by rfl) (by rfl) (by rfl)).mp hq
      rcases hcase with rfl | ⟨hq, _⟩
      · exact Or.inl ⟨r, witness, .interrupted claimed⟩
      · exact Or.inl ⟨q, hq, .kept⟩

/-! ### Runs -/

/-- Every run after a call is one from before with its cursor moved, or a new one. -/
theorem Change.run {call : StoreCall} (hg : s.Good) (h : Change s call s') {q : PlanRun}
    (hq : q ∈ s'.runs) : RunChange s q call := by
  cases h with
  | records records budgets runs stocked frame => exact runs q hq
  | takeover proposed recovers admits named owned moves retires places runInserted recorded =>
      rcases (Table.mem_insert? runInserted).mp hq with rfl | hq
      · exact .recovered (Table.insert?_eq_some runInserted).1
      · exact .kept hq
  | @abandon record s₁ leases abandonments unhalted noDestination rejects resolved settled
      released recorded =>
      have hframe := (RejectsIntent.back hg.regular.coherent rejects).2.1
      rw [hframe] at hq
      exact .kept hq
  | receipt attempt dispatched flag result =>
      rcases result with ⟨_, _, rfl⟩ | ⟨_, rfl⟩
      · exact .kept hq
      · exact .kept hq
  | investigate claims configuration charges opened result =>
      rcases result with ⟨_, rfl⟩ | ⟨_, rfl⟩
      · exact .kept hq
      · exact .kept hq
  | conclude witness claimed attempt subject flag finishes =>
      cases finishes with
      | released => exact .kept hq
      | kept => exact .kept hq
      | reopened _ _ => exact .kept hq
      | unchanged _ _ => exact .kept hq
  | _ => exact .kept hq

end Cheirismos

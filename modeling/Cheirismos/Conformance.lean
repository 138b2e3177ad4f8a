import Cheirismos.Executions

/-! # The supervisor obeys the discipline

Every public operation, and the recovery at a restart, makes legal requests only, so the
discipline is sound for the service (`discipline_sound`): in every reachable configuration
the history is a `History` (`Reachable.history`), whatever the clients ask for in whatever
order, whatever the backend answers, and wherever the process was restarted. -/

namespace Cheirismos

open Process

variable [Platform] {t : ℕ} {m : Moment machine}

/-! ### Restart -/

/-- Every request of a part of the boot program is legal, and its success establishes `P`. -/
def Boots (t : ℕ) (m : Moment machine) {α : Type} (x : Sup α) (P : α → Store → Prop) : Prop :=
  discipline.booting.Holds t (ExceptT.run x) (fun r y => ∀ a, r = .ok a → P a y.state.store) m

theorem booting_lawful : discipline.booting.Lawful := discipline_stable.booting_lawful

/-- The boot program runs alone: nothing else changes the store. -/
theorem store_of_booting {x y : Moment machine} (h : discipline.booting.later t x y) :
    y.state.store = x.state.store :=
  Chronicle.drift_of_moves (E := fun a b : World => b.store = a.store) (fun _ => rfl)
    (fun _ _ _ h h' => h'.trans h) (fun _ _ h => h) h.2

namespace Boots

variable {α β : Type} {P : α → Store → Prop} {Q : β → Store → Prop}

protected theorem pure {a : α} (h : P a m.state.store) : Boots t m (pure a) P := by
  intro y hy _ b hb
  cases hb
  rw [store_of_booting hy]
  exact h

protected theorem bind (hm : discipline.Inv m) {x : Sup α} {f : α → Sup β} (hx : Boots t m x P)
    (hf : ∀ a y, discipline.Inv y → P a y.state.store → Boots t y (f a) Q) :
    Boots t m (x >>= f) Q := by
  refine Rules.Holds.bind booting_lawful hm (Rules.Holds.weaken hx ?_)
  rintro (e | a) y hy hP
  · intro z _ _ b hb
    cases hb
  · exact hf a y hy (hP a rfl)

protected theorem now {f : Timestamp → Sup β}
    (hf : ∀ now y, discipline.Inv y → y.state.store = m.state.store → Boots t y (f now) Q) :
    Boots t m (Sup.now >>= f) Q := by
  intro y hy hi
  have hsame := store_of_booting hy
  exact ⟨trivial, fun i => hf (i.clock 0) _ (booting_lawful.keep t y .now i hi trivial) hsame⟩

theorem call {call : StoreCall} {f : call.Output → Sup β}
    (hl : ∀ y, discipline.Inv y → y.state.store = m.state.store → BootLegal y (.store call))
    (hf : ∀ y i output, discipline.Inv y → y.state.store = m.state.store →
      discipline.Inv (y.step t (.store call) i) →
      (performStore call i y.state.store).1 = .ok output →
      Boots t (y.step t (.store call) i) (f output) Q) :
    Boots t m (Sup.store call >>= f) Q := by
  intro y hy hi
  have hsame := store_of_booting hy
  have hlegal := hl y hi hsame
  refine ⟨hlegal, fun i => ?_⟩
  have hstep := booting_lawful.keep t y _ i hi hlegal
  cases hr : (performStore call i y.state.store).1 with
  | error e =>
      rw [show (perform (.store call) i y.state).1 = Except.error e from hr]
      intro z _ _ b hb
      cases hb
  | ok output =>
      rw [show (perform (.store call) i y.state).1 = Except.ok output from hr]
      exact hf y i output hi hsame hstep hr

end Boots

namespace Store.Coherent

variable {s : Store} (hc : s.Coherent)

include hc

omit [Platform] in
theorem dispatched_rows :
    (∀ a, a ∈ (s.attempts.rows.filter (fun row => row.state = "dispatched")).map AttemptRow.json ↔
      s.Attempt a ∧ a.state = .dispatched) ∧
    (((s.attempts.rows.filter (fun row => row.state = "dispatched")).map AttemptRow.json).map
      AttemptRecord.id).Nodup := by
  constructor
  · intro a
    constructor
    · intro ha
      obtain ⟨row, hrow, rfl⟩ := List.mem_map.mp ha
      obtain ⟨hm, hstate⟩ := List.mem_filter.mp hrow
      rw [decide_eq_true_eq, hc.attempts row hm] at hstate
      exact ⟨hc.attempt_of_mem hm, @stateText_injective row.json.state .dispatched hstate⟩
    · rintro ⟨ha, hstate⟩
      refine List.mem_map.mpr ⟨AttemptRow.of a, List.mem_filter.mpr ⟨ha, ?_⟩, rfl⟩
      rw [decide_eq_true_eq]
      exact congrArg stateText hstate
  · have hkeys : ((s.attempts.rows.filter (fun row => row.state = "dispatched")).map
        AttemptRow.id).Nodup := s.attempts.distinct.sublist (List.filter_sublist.map _)
    rw [List.map_map]
    refine (List.map_congr_left fun row hrow => ?_) ▸ hkeys
    rw [hc.attempts row (List.mem_filter.mp hrow).1]
    rfl

omit [Platform] in
theorem claimed_rows :
    (∀ r, r ∈ (s.reconciliations.rows.filter (fun row => row.state = "claimed")).map
      ReconciliationRow.json ↔ s.Witness r ∧ r.state = .claimed) ∧
    (((s.reconciliations.rows.filter (fun row => row.state = "claimed")).map
      ReconciliationRow.json).map ReconciliationRecord.request).Nodup := by
  constructor
  · intro r
    constructor
    · intro hr
      obtain ⟨row, hrow, rfl⟩ := List.mem_map.mp hr
      obtain ⟨hm, hstate⟩ := List.mem_filter.mp hrow
      rw [decide_eq_true_eq, hc.reconciliations row hm] at hstate
      exact ⟨hc.witness_of_mem hm, claimedRow_iff.mp hstate⟩
    · rintro ⟨hr, hstate⟩
      refine List.mem_map.mpr ⟨ReconciliationRow.of r, List.mem_filter.mpr ⟨hr, ?_⟩, rfl⟩
      rw [decide_eq_true_eq]
      exact claimedRow_iff.mpr hstate
  · have hkeys : ((s.reconciliations.rows.filter (fun row => row.state = "claimed")).map
        ReconciliationRow.requestId).Nodup :=
      s.reconciliations.distinct.sublist (List.filter_sublist.map _)
    rw [List.map_map]
    refine (List.map_congr_left fun row hrow => ?_) ▸ hkeys
    rw [hc.reconciliations row (List.mem_filter.mp hrow).1]
    rfl

end Store.Coherent

namespace Supervisor

/-- The listed attempts are interrupted one after the other; those still to come stay as they
were listed, and no other attempt is dispatched. -/
theorem recoverAttempts_boots (attempts : List AttemptRecord) : ∀ {m : Moment machine},
    discipline.Inv m → (attempts.map AttemptRecord.id).Nodup →
    (∀ a, a ∈ attempts ↔ m.state.store.Attempt a ∧ a.state = .dispatched) →
    Boots t m (recoverAttempts attempts)
      (fun _ s => ∀ a, s.Attempt a → a.state ≠ .dispatched) := by
  induction attempts with
  | nil =>
      intro m _ _ hall
      exact .pure fun a ha hd => List.not_mem_nil ((hall a).mpr ⟨ha, hd⟩)
  | cons a attempts ih =>
      intro m hm hnodup hall
      rw [List.map_cons, List.nodup_cons] at hnodup
      obtain ⟨hatt, hstate⟩ := (hall a).mp List.mem_cons_self
      refine .now fun now y₁ h₁ hs₁ => .call (fun y _ hs => ?_) fun y i _ _ hs hy hok => ?_
      · exact ⟨a, now, by rw [hs, hs₁]; exact hatt, hstate, rfl⟩
      · have hstore := modify_ok.mp (performStore_ok hok)
        have hnew : (y.step t (.store (.updateAttempt (interrupted now a))) i).state.store =
            m.state.store.setAttempt (interrupted now a) := by
          rw [← hs₁, ← hs]
          exact hstore.symm
        refine ih hy hnodup.2 fun b => ?_
        change _ ↔ (y.step t (.store (.updateAttempt (interrupted now a))) i).state.store.Attempt b ∧ _
        rw [hnew, Store.attempt_setAttempt hatt (interrupted_identity now a)]
        constructor
        · intro hb
          obtain ⟨hb', hbs⟩ := (hall b).mp (List.mem_cons_of_mem a hb)
          exact ⟨Or.inr ⟨hb', fun he => hnodup.1 (he ▸ List.mem_map_of_mem hb)⟩, hbs⟩
        · rintro ⟨rfl | ⟨hb, hne⟩, hbs⟩
          · cases hbs
          · rcases List.mem_cons.mp ((hall b).mpr ⟨hb, hbs⟩) with rfl | hmem
            · exact absurd rfl hne
            · exact hmem

theorem recoverReconciliations_boots (records : List ReconciliationRecord) :
    ∀ {m : Moment machine}, discipline.Inv m →
    (records.map ReconciliationRecord.request).Nodup →
    (∀ r, r ∈ records ↔ m.state.store.Witness r ∧ r.state = .claimed) →
    (∀ a, m.state.store.Attempt a → a.state ≠ .dispatched) →
    Boots t m (recoverReconciliations records) (fun _ => Store.Quiescent) := by
  induction records with
  | nil =>
      intro m _ _ hall hattempts
      exact .pure ⟨hattempts, fun r hr hc => List.not_mem_nil ((hall r).mpr ⟨hr, hc⟩)⟩
  | cons r records ih =>
      intro m hm hnodup hall hattempts
      rw [List.map_cons, List.nodup_cons] at hnodup
      obtain ⟨hwit, hstate⟩ := (hall r).mp List.mem_cons_self
      refine .now fun now y₁ h₁ hs₁ => .call (fun y _ hs => ?_) fun y i _ _ hs hy hok => ?_
      · exact ⟨r, now, by rw [hs, hs₁]; exact hwit, hstate, rfl⟩
      · have hstore := modify_ok.mp (performStore_ok hok)
        have hnew : (y.step t (.store (.updateReconciliation (interruptedWitness now r)))
            i).state.store = m.state.store.setReconciliation (interruptedWitness now r) := by
          rw [← hs₁, ← hs]
          exact hstore.symm
        refine ih hy hnodup.2 (fun q => ?_) fun a ha => ?_
        · change _ ↔ (y.step t (.store (.updateReconciliation (interruptedWitness now r)))
            i).state.store.Witness q ∧ _
          rw [hnew, Store.witness_setReconciliation hwit
            (rfl : (interruptedWitness now r).request = _) rfl rfl]
          constructor
          · intro hq
            obtain ⟨hq', hqs⟩ := (hall q).mp (List.mem_cons_of_mem r hq)
            exact ⟨Or.inr ⟨hq', fun he => hnodup.1 (he ▸ List.mem_map_of_mem hq)⟩, hqs⟩
          · rintro ⟨rfl | ⟨hq, hne⟩, hqs⟩
            · cases hqs
            · rcases List.mem_cons.mp ((hall q).mpr ⟨hq, hqs⟩) with rfl | hmem
              · exact absurd rfl hne
              · exact hmem
        · change (y.step t (.store (.updateReconciliation (interruptedWitness now r)))
            i).state.store.Attempt a at ha
          rw [hnew] at ha
          exact hattempts a ha

theorem recoverInterruptedDispatches_boots :
    Boots t m recoverInterruptedDispatches (fun _ => Store.Quiescent) := by
  refine .call (fun _ _ _ => rfl) fun y i attempts hy _ hstep hok => ?_
  have hsame : (y.step t (.store .dispatchedAttempts) i).state.store = y.state.store :=
    StoreCall.performStore_reads (by rfl) _ _
  obtain ⟨hlist, hnodup⟩ := (History.good hy).regular.coherent.dispatched_rows
  obtain rfl := (select_ok.mp (performStore_ok hok)).1
  refine .bind hstep (recoverAttempts_boots _ hstep hnodup fun a => ?_) fun _ y₂ _ hsettled => ?_
  · rw [hsame]
    exact hlist a
  · have key : Boots t y₂ (Sup.store .claimedReconciliations >>= recoverReconciliations)
        (fun _ => Store.Quiescent) := by
      refine .call (fun _ _ _ => rfl) fun z i records hz hsz hstep hok => ?_
      have hsame : (z.step t (.store .claimedReconciliations) i).state.store = z.state.store :=
        StoreCall.performStore_reads (by rfl) _ _
      obtain ⟨hlist, hnodup⟩ := (History.good hz).regular.coherent.claimed_rows
      obtain rfl := (select_ok.mp (performStore_ok hok)).1
      refine recoverReconciliations_boots _ hstep hnodup (fun r => ?_) fun a ha => ?_
      · rw [hsame]
        exact hlist r
      · rw [hsame, hsz] at ha
        exact hsettled a ha
    exact key

end Supervisor

/-! ### Soundness -/

/-- What is shown of an operation is what is shown of the call that wraps its result. -/
theorem reply_holds {α : Type} {wrap : Except SupervisorError α → Reply} {x : Sup α}
    {G : Guard} {R : Except SupervisorError α → Moment machine → Prop}
    {Q : Reply → Moment machine → Prop} (hm : discipline.Inv m) (h : Yields G t m x R)
    (hQ : ∀ r y z, discipline.Inv z → R r y → Onward t y z → Q (wrap r) z) :
    (discipline.guarded G.allows).Holds t (Sup.reply wrap x) Q m := by
  refine Rules.Holds.bind (guarded_lawful _) hm (Rules.Holds.weaken h ?_)
  exact fun r y _ hr z hz hi => hQ r y z hi hr (.of_later hz)

/-- A reply that hands out no plan ticket promises nothing. -/
theorem plain_obeys {α : Type} {wrap : Except SupervisorError α → Reply} {x : Sup α}
    {R : Except SupervisorError α → Moment machine → Prop} (hm : discipline.Inv m)
    (h : Yields .free t m x R) (hplain : ∀ r ticket, ¬ (wrap r).HandsPlan ticket) :
    discipline.serving.Holds t (Sup.reply wrap x) discipline.post m :=
  reply_holds (G := .free) hm h fun r _ _ _ _ _ ticket hands => absurd hands (hplain r ticket)

/-- A reply with a plan ticket that is for a step of a run on record. -/
theorem ticket_obeys {x : Sup PlanTicket}
    {R : Except SupervisorError PlanTicket → Moment machine → Prop} (hm : discipline.Inv m)
    (h : Yields .free t m x R)
    (hR : ∀ ticket y, discipline.Inv y → R (.ok ticket) y → Orderly y.past →
      y.state.store.Tickets ticket) :
    discipline.serving.Holds t (Sup.reply .ticket x) discipline.post m := by
  have hinv : Yields .free t m x (fun r y => R r y ∧ discipline.Inv y) :=
    Yields.weaken h fun _ _ hy hr => ⟨hr, hy⟩
  refine reply_holds (G := .free) hm hinv ?_
  rintro (e | ticket) y z _ ⟨hr, hy⟩ ho handed hands horder
  · exact hands.elim
  · obtain rfl : ticket = handed := hands
    have hyz : Follows y z := .of_onward ho
    exact (hR ticket y hy hr (hyz.orderly horder)).evolve hyz.evolves

omit [Platform] in
/-- The run of a takeover on record is there with its first step. -/
theorem transferred_ticket {s : Store} {existing : RecoveryTakeoverRecord} (h : s.Transferred existing)
    {ticket : PlanTicket} (hrun : ticket.run = existing.run)
    (hpair : (ticket.grant, ticket.plan) = existing.pair)
    (hattempt : ticket.dispatch.attempt = existing.firstAttempt) (hindex : ticket.operationIndex = 0) :
    s.Tickets ticket := by
  obtain ⟨run, hm, hid, hp⟩ := h.run
  obtain ⟨a, ha, haid, hap, hai, _⟩ := h.first
  refine ⟨⟨run, hm, hid.trans hrun.symm, hp.trans hpair.symm⟩, a, ha, haid.trans hattempt.symm,
    hap.trans hpair.symm, hai.trans hindex.symm⟩

/-- After a takeover was answered its record is there, unless the answer is an ordinary attempt. -/
theorem takeoverRecovery_recorded {s s' : Store} {clock : ℕ → Timestamp} (hc : s.Coherent)
    {a : AttemptRecord} {snapshot : AdmissionSnapshot} {run : PlanRun}
    {recovery : RecoveryTakeoverRecord} (hr : Recovers a snapshot run recovery)
    {outcome : ReservationOutcome}
    (h : takeoverRecovery clock a snapshot run recovery s = .ok (outcome, s')) :
    (s' = s ∧ s.Collides a recovery) ∨
    (¬ s.Collides a recovery ∧ outcome.attempt.id = recovery.firstAttempt ∧
      ∃ t ∈ s'.recoveryTakeovers, sameRecoveryTakeover t recovery = true) := by
  rcases takeoverRecovery_ok hc h with ⟨rfl, t, ht, hsame, b, rfl, _, hb⟩ |
    ⟨rfl, hnone, b, rfl, hb, h1, h2, h3⟩ | ⟨rfl, _, hfresh, hnew⟩
  · refine Or.inr ⟨fun hcol => hcol.1 t ht ?_, hb, t, ht, hsame⟩
    simp only [sameRecoveryTakeover, Bool.and_eq_true, beq_iff_eq] at hsame
    obtain ⟨⟨⟨⟨⟨⟨⟨⟨hreq, _⟩, _⟩, _⟩, _⟩, _⟩, _⟩, _⟩, _⟩ := hsame
    exact hreq
  · exact Or.inl ⟨rfl, fun t ht => Table.find?_eq_none.mp hnone t ht, b, hb, h1, h2, h3⟩
  · refine Or.inr ⟨?_, hr.first.symm, recovery, ?_, by simp [sameRecoveryTakeover]⟩
    · rintro ⟨_, b, hb, hreq, _⟩
      exact hfresh b hb hreq
    · obtain ⟨_, _, _, _, _, _, _, takeovers, _, _, _, _, _, _, _, hins, rfl⟩ :=
        transferRecovery_ok hc hr.start hnew
      exact (Table.mem_insert? hins).mpr (Or.inl rfl)

/-- The attempt that a takeover is answered with is one of its pair. -/
theorem takeoverRecovery_attempt {s s' : Store} {clock : ℕ → Timestamp} (hr : s.Regular)
    {a : AttemptRecord} {snapshot : AdmissionSnapshot} {run : PlanRun}
    {recovery : RecoveryTakeoverRecord} (hmakes : Recovers a snapshot run recovery)
    {outcome : ReservationOutcome}
    (h : takeoverRecovery clock a snapshot run recovery s = .ok (outcome, s')) :
    ∃ b, s'.Attempt b ∧ b.id = outcome.attempt.id ∧ b.pair = a.pair := by
  rcases takeoverRecovery_ok hr.coherent h with ⟨rfl, t, ht, hsame, b, rfl, hb, hid⟩ |
    ⟨rfl, _, b, rfl, hb, _, _, hpair⟩ | ⟨rfl, _, _, hnew⟩
  · -- a replay finds the first attempt of the recorded takeover
    obtain ⟨b', hb', hid', hpair', _⟩ := (hr.transferred t ht).first
    simp only [sameRecoveryTakeover, Bool.and_eq_true, beq_iff_eq] at hsame
    obtain ⟨⟨⟨⟨⟨⟨⟨⟨_, _⟩, hfirst⟩, _⟩, hgrant⟩, hplan⟩, _⟩, _⟩, _⟩ := hsame
    refine ⟨b', hb', hid'.trans (hfirst.trans hid.symm), hpair'.trans ?_⟩
    exact (Prod.ext hgrant hplan : t.pair = recovery.pair).trans hmakes.pair
  · exact ⟨b, hb, rfl, hpair⟩
  · obtain ⟨_, _, _, _, _, _, _, _, _, _, _, _, _, hplaces, _, _, rfl⟩ :=
      transferRecovery_ok hr.coherent hmakes.start hnew
    exact ⟨a, hplaces.mem.mpr (Or.inl rfl), rfl, rfl⟩

/-- Where a call was made that succeeded: it is part of the past. -/
theorem Called.mem {call : StoreCall} {output : call.Output} {z : Moment machine}
    (h : Called t m call output z) : ∃ x i, discipline.Inv x ∧ Legal t x (.store call) ∧
      discipline.Inv (x.step t (.store call) i) ∧
      (performStore call i x.state.store).1 = .ok output ∧
      Onward t (x.step t (.store call) i) z ∧
      (⟨t, .store call, i, x.state⟩ : Event machine) ∈ z.past := by
  obtain ⟨x, i, hx, _, hl, hok, hz⟩ := h
  exact ⟨x, i, hx, hl, discipline_stable.inv_step i hx (Or.inl hl), hok, hz,
    hz.rely.past.subset List.mem_cons_self⟩

/-- The ticket of a takeover is for the first step of its run. -/
theorem TookOver.tickets {authority : PrincipalId} {request : RecoveryTakeoverRequest}
    {ticket : PlanTicket} {z : Moment machine} (h : TookOver t m authority request (.ok ticket) z)
    (horder : Orderly z.past) : z.state.store.Tickets ticket := by
  obtain ⟨a, snapshot, run, recovery, outcome, hmakes, hcalled, rfl⟩ := h
  obtain ⟨x, i, hx, hlegal, hstep, hok, hz, hmem⟩ := hcalled.mem
  obtain ⟨h1, h2, h3, _, h5, h6, _⟩ := hmakes.record
  rcases takeoverRecovery_recorded (History.good hx).regular.coherent hlegal.2
    (performStore_ok hok) with ⟨_, hcol⟩ | ⟨_, hid, existing, hm, hsame⟩
  · exact absurd hcol ((horder _ hmem).2 a snapshot run recovery rfl)
  · simp only [sameRecoveryTakeover, Bool.and_eq_true, beq_iff_eq] at hsame
    obtain ⟨⟨⟨⟨⟨⟨⟨⟨_, s2⟩, s3⟩, _⟩, s5⟩, s6⟩, _⟩, _⟩, _⟩ := hsame
    refine (transferred_ticket ((History.good hstep).regular.transferred existing hm) ?_ ?_ ?_
      rfl).evolve hz.evolves
    · exact h2.symm.trans s2.symm
    · exact Prod.ext (h5.symm.trans s5.symm) (h6.symm.trans s6.symm)
    · exact hid.trans s3.symm

/-- The attempt of the ticket is one of the ticket's pair, also when the takeover was answered from
an ordinary attempt. -/
theorem TookOver.backs {authority : PrincipalId} {request : RecoveryTakeoverRequest}
    {ticket : PlanTicket} {z : Moment machine} (h : TookOver t m authority request (.ok ticket) z) :
    z.state.store.Backs ticket := by
  obtain ⟨a, snapshot, run, recovery, outcome, hmakes, hcalled, rfl⟩ := h
  obtain ⟨x, i, hx, hlegal, _, hok, hz, _⟩ := hcalled.mem
  obtain ⟨b, hb, hid, hpair⟩ := takeoverRecovery_attempt (History.good hx).regular hlegal.2
    (performStore_ok hok)
  exact Store.Backs.evolve ⟨b, hb, hid, hpair.trans hmakes.pair⟩ hz.evolves

theorem Call.obeys (hm : discipline.Inv m) {q : Call} {results : List Reply}
    (hresults : ∀ a ∈ results, discipline.post a m) (hq : q.admitted results) :
    discipline.serving.Holds t q.body discipline.post m := by
  cases q with
  | commission authority profile =>
      exact plain_obeys hm (Supervisor.commission_ensures hm ..) fun _ _ h => h
  | issueGrant authority agent grant =>
      exact plain_obeys hm (Supervisor.issueGrant_ensures hm ..) fun _ _ h => h
  | revokeGrant authority id =>
      exact plain_obeys hm (Supervisor.revokeGrant_ensures hm ..) fun _ _ h => h
  | proposePlan agent proposal =>
      exact plain_obeys hm (Supervisor.proposePlan_ensures hm ..) fun _ _ h => h
  | reviewProposal reviewer id expected =>
      exact plain_obeys hm (Supervisor.reviewProposal_ensures hm _ _ _) fun _ _ h => h
  | deleteProposal id =>
      exact plain_obeys hm (Supervisor.deleteProposal_ensures id) fun _ _ h => h
  | submit agent request =>
      exact plain_obeys hm (Supervisor.submit_ensures hm agent request
        fun _ _ _ _ _ _ => trivial) fun _ _ h => h
  | admitPlan agent request =>
      refine ticket_obeys hm (Supervisor.admitPlan_ensures hm agent request
        (fun _ _ _ _ _ => trivial) fun _ _ _ _ _ _ => trivial) ?_
      exact fun ticket y _ hr _ => (hr ticket rfl).tickets
  | takeoverRecovery authority request =>
      refine ticket_obeys hm (Supervisor.takeoverRecovery_yields hm authority request
        fun _ _ _ _ _ _ _ _ => trivial) ?_
      exact fun ticket y _ hr horder => hr.tickets horder
  | abandonHaltedRun authority request =>
      exact plain_obeys hm (Supervisor.abandonHaltedRun_ensures hm authority request
        fun _ _ _ _ _ => trivial) fun _ _ h => h
  | executeNext agent ticket =>
      obtain ⟨reply, hmem, hands⟩ := hq
      have hnext := Supervisor.executeNext_ensures (t := t) hm agent
        fun horder => hresults reply hmem ticket hands horder
      refine reply_holds (G := .free) hm (Yields.follows hnext) ?_
      rintro (e | progress) y z _ ⟨hr, hmy⟩ ho handed hands horder
      · exact hands.elim
      · have hyz : Follows y z := .of_onward ho
        obtain ⟨attempt, _ | next⟩ := progress
        · exact hands.elim
        · obtain rfl : next = handed := hands
          exact ((hr _ rfl next rfl).2 (hyz.orderly horder)).evolve hyz.evolves
  | execute agent ticket =>
      exact plain_obeys hm (Supervisor.execute_ensures hm ..) fun _ _ h => h
  | resumePlan agent run =>
      exact ticket_obeys hm (Supervisor.resumePlan_yields hm agent run)
        fun ticket y _ hr => hr
  | resume agent request =>
      exact plain_obeys hm (Supervisor.resume_ensures hm ..) fun _ _ h => h
  | executePlan agent requests =>
      exact plain_obeys hm (Supervisor.executePlan_ensures hm ..) fun _ _ h => h
  | reconcile principal attempt request =>
      refine plain_obeys hm (Supervisor.reconcile_ensures hm principal attempt request
        (fun _ _ _ _ => trivial) ?_) fun _ _ h => h
      intro c y planned configure hthread hsubject _ _ hpast hplanned
      exact Supervisor.reconcileClaimed_ensures hthread hsubject hpast hplanned

theorem discipline_sound : discipline.Sound where
  toStable := discipline_stable
  boot t m hm := by
    refine Rules.Holds.bind booting_lawful hm
      (Rules.Holds.weaken Supervisor.recoverInterruptedDispatches_boots ?_)
    rintro (e | u) y _ hquiet z hz _ hok
    · cases hok
    · change z.state.store.Quiescent
      rw [store_of_booting hz]
      exact hquiet u rfl
  body _ _ _ _ hm _ hresults hq := Call.obeys hm hresults hq

/-- The configurations of the service, over all runs. -/
abbrev Reachable (c : daemon.Config) : Prop := daemon.Reachable c

section reachable

variable {c c' : daemon.Config}

/-- Whatever the clients, the backend and the surroundings do, the history is one of sanctioned
requests. -/
theorem Reachable.history (h : Reachable c) : History c.history c.state :=
  (discipline_sound.sound h).inv

theorem Reachable.good (h : Reachable c) : c.state.store.Good := h.history.good

/-- The record in a row is on record. -/
theorem Reachable.attempt_of_rows (h : Reachable c) {P : AttemptRecord → Prop}
    (hrows : ∃ row ∈ c.state.store.attempts.rows, P row.json) :
    ∃ a, c.state.store.Attempt a ∧ P a := by
  obtain ⟨row, hrow, hP⟩ := hrows
  exact ⟨row.json, h.good.regular.coherent.attempt_of_mem hrow, hP⟩

theorem Reachable.witness_of_rows (h : Reachable c) {P : ReconciliationRecord → Prop}
    (hrows : ∃ row ∈ c.state.store.reconciliations.rows, P row.json) :
    ∃ r, c.state.store.Witness r ∧ P r := by
  obtain ⟨row, hrow, hP⟩ := hrows
  exact ⟨row.json, h.good.regular.coherent.witness_of_mem hrow, hP⟩

/-- A move of the service keeps the store, or it is a sanctioned request. -/
theorem Reachable.step_cases (h : Reachable c) (hs : daemon.Step c c') :
    (c'.state.store = c.state.store ∧ c'.history = c.history) ∨
    ∃ t r i, Sanctioned t c.moment r ∧ c'.state = (perform r i c.state).2 ∧
      c'.history = ⟨t, r, i, c.state⟩ :: c.history := by
  have hist := Reachable.history (Process.Service.Reachable.step h hs)
  cases hs with
  | call q hb hq => exact Or.inl ⟨rfl, rfl⟩
  | @act t r k i ht => exact Or.inr ⟨t, r, i, (hist.recorded List.suffix_rfl).1, rfl, rfl⟩
  | «return» ht => exact Or.inl ⟨rfl, rfl⟩
  | interfere he => exact Or.inl ⟨he, rfl⟩
  | crash => exact Or.inl ⟨rfl, rfl⟩
  | @bootAct t r k i hb => exact Or.inr ⟨t, r, i, (hist.recorded List.suffix_rfl).1, rfl, rfl⟩
  | booted hb => exact Or.inl ⟨rfl, rfl⟩

/-- Along a run the store evolves. -/
theorem Reachable.evolves (h : Reachable c) (hr : daemon.Run c c') :
    Evolves c.state.store c'.state.store := by
  induction hr with
  | refl => exact .refl _
  | @tail c₁ c₂ hr hs ih =>
      have h₁ : Reachable c₁ := Process.Service.Reachable.run h hr
      rcases h₁.step_cases hs with ⟨he, _⟩ | ⟨t, r, i, hl, he, _⟩
      · rw [he]
        exact ih
      · rw [he]
        exact ih.trans (Sanctioned.evolves (x := c₁.moment) h₁.history hl i)

/-- One move of the service changes the store by at most one call. -/
theorem Reachable.change (h : Reachable c) (hs : daemon.Step c c') :
    ∃ call, Change c.state.store call c'.state.store := by
  rcases h.step_cases hs with ⟨he, _⟩ | ⟨t, r, i, hl, he, _⟩
  · rw [he]
    exact ⟨.dispatchedAttempts, .refl _⟩
  · rw [he]
    obtain ⟨call, _, hc⟩ :=
      Sanctioned.change h.history (History.continuous h.history) hl i
    exact ⟨call, hc⟩

/-- What holds of the empty store and is kept by every change holds in every reachable
configuration. -/
theorem Reachable.keeps {P : Store → Prop} (h₀ : P .empty)
    (hstep : ∀ s call s', s.Good → P s → Change s call s' → P s') (h : Reachable c) :
    P c.state.store := by
  refine Process.Service.Reachable.induct (P := fun c : daemon.Config => P c.state.store) h₀ ?_ h
  intro c c' hr hp hs
  obtain ⟨call, hc⟩ := Reachable.change hr hs
  exact hstep _ call _ (Reachable.good hr) hp hc

/-- A preorder that contains every change contains every run. -/
theorem Reachable.follows {E : Store → Store → Prop} (hrefl : ∀ s, E s s)
    (htrans : ∀ a b c, E a b → E b c → E a c)
    (hstep : ∀ (d : daemon.Config) call s', Reachable d → Change d.state.store call s' →
      E d.state.store s') (h : Reachable c) (hr : daemon.Run c c') :
    E c.state.store c'.state.store := by
  induction hr with
  | refl => exact hrefl _
  | @tail c₁ c₂ hr hs ih =>
      have h₁ : Reachable c₁ := Process.Service.Reachable.run h hr
      obtain ⟨call, hc⟩ := h₁.change hs
      exact htrans _ _ _ ih (hstep c₁ call _ h₁ hc)

/-- From a configuration the store evolves up to every request made since. -/
theorem Reachable.evolves_since (h : Reachable c) (hr : daemon.Run c c') {e : Event machine}
    {older : List (Event machine)} (he : (e :: older) <:+ c'.history) (hpast : c.history <:+ older) :
    Evolves c.state.store e.before.store := by
  induction hr with
  | refl =>
      have h₁ := he.length_le
      have h₂ := hpast.length_le
      rw [List.length_cons] at h₁
      omega
  | @tail c₁ c₂ hr hs ih =>
      have h₁ : Reachable c₁ := Process.Service.Reachable.run h hr
      rcases h₁.step_cases hs with ⟨_, hhist⟩ | ⟨t, r, i, _, _, hhist⟩
      · exact ih (hhist ▸ he)
      · rw [hhist] at he
        rcases List.suffix_cons_iff.mp he with heq | hsuf
        · obtain ⟨rfl, _⟩ := List.cons.inj heq
          exact h.evolves hr
        · exact ih hsuf

end reachable

/-! ### The requests of one call -/

section serving

variable {c c' : daemon.Config} {q : Call}

/-- While a call runs the history only becomes longer. -/
theorem serving_past (hs : daemon.Serving c q c') :
    c'.history = since c.moment c'.moment ++ c.history := by
  obtain ⟨l, hl⟩ := hs.run.history_suffix
  have hpast : c'.moment.past = l ++ c.moment.past := hl.symm
  rw [since_eq hpast]
  exact hpast

/-- What a call asked for it has asked since it was made. -/
theorem mem_since_of_serving (h : Reachable c) (hs : daemon.Serving c q c') {e : Event machine}
    (he : e ∈ c'.history) (ht : e.thread = c.next) : e ∈ since c.moment c'.moment := by
  rw [serving_past hs, List.mem_append] at he
  refine he.resolve_right fun hold => ?_
  exact absurd ht (ne_of_lt ((discipline_sound.sound h).fresh e hold))

end serving

/-- What was shown of an operation holds of the requests that a call of it makes, and of what the
call returns. -/
theorem yields_served {c c' : daemon.Config} {q : Call} {α : Type}
    {wrap : Except SupervisorError α → Reply} {x : Sup α} {G : Guard}
    {R : Except SupervisorError α → Moment machine → Prop} (h : Reachable c)
    (hs : daemon.Serving c q c') (hq : q.body = Sup.reply wrap x)
    (hx : Yields G c.next c.moment x R) :
    (∀ e older, (e :: older) <:+ c'.history → e.thread = c.next →
      G.allows c.next ⟨older, e.before⟩ e.request) ∧
    ∀ reply, c'.threads c.next = some (.pure reply) →
      ∃ r y, reply = wrap r ∧ R r y ∧ Onward c.next y c'.moment := by
  have hm := (discipline_sound.sound h).inv
  have hbody : (discipline.guarded G.allows).Holds c.next q.body
      (fun reply z => ∃ r y, reply = wrap r ∧ R r y ∧ Onward c.next y z) c.moment := by
    rw [hq]
    exact reply_holds hm hx fun r y z _ hr hyz => ⟨r, y, rfl, hr, hyz⟩
  exact discipline_sound.serving h hs hbody

end Cheirismos

import Cheirismos.Api
import Cheirismos.Authorship
import Cheirismos.Dispatches

/-! # Duties and detached executions

What every run of the service says behind its interface.

* `executions_in_step`: an execution that a request leaves behind makes its calls for one agent and
  one run, for one step after the other without a gap, and it is never refused a step that it has a
  ticket for.
* `duties_separated`: whatever is dispatched was commissioned and granted by operators, proposed by
  an agent and approved at its digest by a reviewer, each with a token of its own, and is carried
  out for the agent of the grant, at its own request or upon a takeover of the plan by an operator.

Both follow the sessions of the front end: `Call.Returns` says which tickets a call hands out,
`Conducts` what is known of every call of a session, and `Linked` what is known of two calls in a
row. -/

namespace Cheirismos

open Process

variable [Platform]

/-! ### What calls hand out -/

/-- What is true of the answers of the surroundings. -/
def Answered : (r : Request) → Answer r → Prop
  | .store (.repairRunCursor id) => fun v => ∀ run, v = .ok run → run.id = id
  | _ => fun _ => True

theorem answered_perform (r : Request) (i : Choice) (w : World) : Answered r (perform r i w).1 := by
  cases r with
  | store call =>
      cases call with
      | repairRunCursor id =>
          intro run h
          exact (repairRunCursor_recorded (performStore_ok h)).2
      | _ => exact trivial
  | _ => exact trivial

/-- Every value that the operation can return satisfies `P`. -/
def Sup.Ends {α : Type} (P : α → Prop) (x : Sup α) : Prop :=
  Program.EndsGiven (F := surroundings) Answered (fun r => ∀ a, r = .ok a → P a) (ExceptT.run x)

namespace Sup.Ends

variable {α β : Type} {P : α → Prop} {Q : β → Prop} {x : Sup α} {f : α → Sup β}

protected theorem pure {a : α} (h : P a) : Sup.Ends P (pure a : Sup α) := by
  intro b hb
  cases hb
  exact h

protected theorem throw {e : SupervisorError} : Sup.Ends P (throw e : Sup α) := by
  intro b hb
  cases hb

protected theorem bind (hx : Sup.Ends P x) (hf : ∀ a, P a → Sup.Ends Q (f a)) :
    Sup.Ends Q (x >>= f) := by
  refine Program.EndsGiven.bind hx ?_
  rintro (e | a) h
  · intro b hb
    cases hb
  · exact hf a (h a rfl)

/-- What comes first does not matter. -/
protected theorem after (hf : ∀ a, Sup.Ends Q (f a)) : Sup.Ends Q (x >>= f) :=
  Sup.Ends.bind (P := fun _ => True) (Program.EndsGiven.of_all (fun _ _ _ => trivial) _)
    fun a _ => hf a

/-- What follows a check may use that it succeeded. -/
protected theorem checked {result : Except SupervisorError α}
    (hf : ∀ a, result = .ok a → Sup.Ends Q (f a)) : Sup.Ends Q (Sup.check result >>= f) := by
  cases result with
  | error e =>
      intro b hb
      cases hb
  | ok a => exact hf a rfl

end Sup.Ends

/-- The ticket is for this step of the run. -/
structure PlanTicket.At (ticket : PlanTicket) (run : RequestId) (pair : Pair) (index : ℕ) :
    Prop where
  run : ticket.run = run
  pair : (ticket.grant, ticket.plan) = pair
  index : ticket.operationIndex = index

namespace Supervisor

theorem admitPlan_ends (agent : Principal) (request : PlanAdmissionRequest) :
    Sup.Ends (fun ticket => ticket.At request.run (request.grant, request.plan) 0)
      (admitPlan agent request) := by
  refine .after fun _ => .after fun grant => .after fun _ => .after fun _ => .after fun _ => ?_
  refine .after fun _ => .after fun _ => .after fun profile => .after fun plan => ?_
  refine .after fun _ => .after fun steps => .after fun _ => .after fun submission => ?_
  exact .after fun dispatch => .pure ⟨rfl, rfl, rfl⟩

theorem takeoverRecovery_ends (authority : Principal) (request : RecoveryTakeoverRequest) :
    Sup.Ends (fun ticket => authority.Governs ∧
        ticket.At request.run (request.grant, request.plan) 0)
      (takeoverRecovery authority request) := by
  refine .checked fun _ hrole => .after fun _ => .after fun _ => .after fun grant => ?_
  refine .after fun profile => .after fun plan => .after fun _ => .after fun steps => ?_
  refine .after fun now => .after fun reserved => .after fun authorizedAt => ?_
  exact .after fun outcome => .pure ⟨requireAuthority_ok.mp hrole, rfl, rfl, rfl⟩

theorem resumeStep_ends (agent : Principal) (run : PlanRun) (steps : List (AttemptId × RequestId)) :
    ∀ index, Sup.Ends (fun ticket => ticket.run = run.id) (resumeStep agent run index steps) := by
  induction steps with
  | nil => exact fun _ => .throw
  | cons step steps ih =>
      intro index
      obtain ⟨attemptId, requestId⟩ := step
      refine .after fun found => ?_
      cases found with
      | some attempt =>
          simp only
          split
          · exact ih _
          · split
            · exact .pure rfl
            · exact .throw
      | none => exact .after fun submission => .after fun dispatch => .pure rfl

theorem resumePlan_ends (agent : Principal) (runId : RequestId) :
    Sup.Ends (fun ticket => ticket.run = runId) (resumePlan agent runId) := by
  have hrepair : Sup.Ends (fun run : PlanRun => run.id = runId) (Sup.store (.repairRunCursor runId)) := by
    intro v hv
    rcases v with source | run
    · intro b hb
      cases hb
    · intro b hb
      cases hb
      exact hv _ rfl
  refine .after fun _ => .bind hrepair fun run hrun => .after fun _ => .after fun _ => ?_
  refine .after fun _ => .after fun _ => .after fun _ => ?_
  exact hrun ▸ resumeStep_ends agent run run.steps 0

theorem executeNext_ends (agent : Principal) (ticket : PlanTicket) :
    Sup.Ends (fun progress => ∀ next, progress.next = some next →
        next.At ticket.run (ticket.grant, ticket.plan) (ticket.operationIndex + 1))
      (executeNext agent ticket) := by
  have hlast : ∀ attempt, Sup.Ends (fun progress => ∀ next, progress.next = some next →
      next.At ticket.run (ticket.grant, ticket.plan) (ticket.operationIndex + 1))
      (pure ⟨attempt, none⟩ : Sup PlanProgress) := fun attempt => .pure fun next h => by cases h
  refine .after fun attempt => ?_
  split_ifs
  · exact hlast attempt
  · refine .after fun _ => .after fun run => ?_
    simp only
    split
    · exact hlast attempt
    · refine .after fun step => .after fun submission => .after fun dispatch => .pure ?_
      intro next h
      cases h
      exact ⟨rfl, rfl, rfl⟩

end Supervisor

/-- Which tickets the call hands out. -/
def Call.Returns (reply : Reply) : Call → Prop
  | .admitPlan _ request => ∀ ticket, reply.HandsPlan ticket →
      ticket.At request.run (request.grant, request.plan) 0
  | .takeoverRecovery authority request => ∀ ticket, reply.HandsPlan ticket →
      authority.Governs ∧ ticket.At request.run (request.grant, request.plan) 0
  | .resumePlan _ run => ∀ ticket, reply.HandsPlan ticket → ticket.run = run
  | .executeNext _ ticket => ∀ next, reply.HandsPlan next →
      next.At ticket.run (ticket.grant, ticket.plan) (ticket.operationIndex + 1)
  | _ => True

/-- A ticket of a reply that wraps a ticket. -/
theorem ticket_ends {x : Sup PlanTicket} {P : PlanTicket → Prop} (h : Sup.Ends P x) :
    (Sup.reply .ticket x).EndsGiven Answered
      fun reply => ∀ ticket, reply.HandsPlan ticket → P ticket := by
  refine Program.EndsGiven.bind h ?_
  rintro (e | a) hr ticket hands
  · exact hands.elim
  · exact hands ▸ hr a rfl

theorem Call.returns (q : Call) : q.body.EndsGiven Answered fun reply => q.Returns reply := by
  cases q with
  | admitPlan agent request => exact ticket_ends (Supervisor.admitPlan_ends agent request)
  | takeoverRecovery authority request =>
      exact ticket_ends (Supervisor.takeoverRecovery_ends authority request)
  | resumePlan agent run => exact ticket_ends (Supervisor.resumePlan_ends agent run)
  | executeNext agent ticket =>
      refine Program.EndsGiven.bind (Supervisor.executeNext_ends agent ticket) ?_
      rintro (e | ⟨attempt, _ | handed⟩) hr next hands
      · exact hands.elim
      · exact hands.elim
      · exact hands ▸ hr _ rfl handed rfl
  | _ => exact .of_all (fun _ => trivial) _

/-! ### Sessions -/

/-- The execution call that follows upon a call in its session. -/
def Call.Leads : Call → Call → Prop
  | .admitPlan agent request, .executeNext agent' ticket =>
      agent' = agent ∧ ticket.At request.run (request.grant, request.plan) 0
  | .takeoverRecovery authority request, .executeNext _ ticket =>
      authority.Governs ∧ ticket.At request.run (request.grant, request.plan) 0
  | .resumePlan agent run, .executeNext agent' ticket => agent' = agent ∧ ticket.run = run
  | .executeNext agent ticket, .executeNext agent' next => agent' = agent ∧
      next.At ticket.run (ticket.grant, ticket.plan) (ticket.operationIndex + 1)
  | _, _ => False

omit [Platform] in
theorem Call.leads {q : Call} {agent : Principal} {reply : Reply} {ticket : PlanTicket}
    (ho : q.Opens agent) (hr : q.Returns reply) (hands : reply.HandsPlan ticket) :
    q.Leads (.executeNext agent ticket) := by
  cases q with
  | admitPlan agent' request => exact ⟨ho.symm, hr ticket hands⟩
  | takeoverRecovery authority request => exact hr ticket hands
  | resumePlan agent' run => exact ⟨ho.symm, hr ticket hands⟩
  | executeNext agent' ticket' => exact ⟨ho.symm, hr ticket hands⟩
  | _ => exact ho.elim

omit [Platform] in
/-- A call that leads to an execution is made for its agent, or it is a takeover. -/
theorem Call.Leads.cases {q : Call} {agent p : Principal} {ticket : PlanTicket}
    (h : q.Leads (.executeNext agent ticket)) (hp : q.principal = some p) :
    agent = p ∨ p.Governs ∧ ∃ recovery, q = .takeoverRecovery p recovery ∧
      (ticket.grant, ticket.plan) = (recovery.grant, recovery.plan) := by
  cases q with
  | takeoverRecovery authority recovery =>
      cases hp
      exact Or.inr ⟨h.1, recovery, rfl, h.2.pair⟩
  | admitPlan agent' request => exact Or.inl (h.1.trans (Option.some.inj hp))
  | resumePlan agent' run => exact Or.inl (h.1.trans (Option.some.inj hp))
  | executeNext agent' ticket' => exact Or.inl (h.1.trans (Option.some.inj hp))
  | _ => exact h.elim

/-- The call looks the attempts of its run up by their ids alone. -/
def Call.Resumes : Call → Prop
  | .resumePlan _ _ => True
  | _ => False

/-- What is known of two successive calls of a session: the first leads to the second, and unless
it resumes a run the attempt that is executed is on record for the pair of its ticket. -/
structure Linked (c : daemon.Config) (q q' : Call) : Prop where
  leads : q.Leads q'
  backed : ¬ q.Resumes → ∀ agent ticket, q' = .executeNext agent ticket →
    c.state.store.Backs ticket

theorem linked_lasts : Frontend.Lasts Linked := fun _ _ _ _ hd hrun h =>
  ⟨h.leads, fun hq agent ticket hq' =>
    (h.backed hq agent ticket hq').evolve (Reachable.evolves hd hrun)⟩

/-- The attempt of a ticket that a call hands out is on record for the pair of the ticket. -/
theorem Call.backs {c c' : daemon.Config} {q : Call} {reply : Reply} (h : Reachable c)
    (hs : daemon.Serves c q reply c') (hq : ¬ q.Resumes) {ticket : PlanTicket}
    (hands : reply.HandsPlan ticket) {agent : Principal} (ho : q.Opens agent) :
    c'.state.store.Backs ticket := by
  have hok := discipline_sound.sound h
  cases q with
  | admitPlan agent' request =>
      obtain ⟨r, y, rfl, hr, hyz⟩ := (yields_served h hs.toServing rfl
        (Supervisor.admitPlan_ensures (G := .free) hok.inv agent' request
          (fun _ _ _ _ _ => trivial) fun _ _ _ _ _ _ => trivial)).2 _ hs.result
      obtain e | handed := r
      · exact hands.elim
      · obtain rfl : handed = ticket := hands
        exact Store.Backs.evolve (hr _ rfl).tickets.backs hyz.evolves
  | takeoverRecovery authority request =>
      obtain ⟨r, y, rfl, hr, hyz⟩ := (yields_served h hs.toServing rfl
        (Supervisor.takeoverRecovery_yields (G := .free) hok.inv authority request
          fun _ _ _ _ _ _ _ _ => trivial)).2 _ hs.result
      obtain e | handed := r
      · exact hands.elim
      · obtain rfl : handed = ticket := hands
        exact Store.Backs.evolve hr.backs hyz.evolves
  | executeNext agent' ticket' =>
      obtain ⟨reply', hmem, hands'⟩ := hs.admitted
      obtain ⟨r, y, rfl, hr, hyz⟩ := (yields_served h hs.toServing rfl
        (Yields.follows (Supervisor.executeNext_ensures hok.inv agent' fun horder =>
          hok.results reply' hmem ticket' hands' horder))).2 _ hs.result
      obtain e | ⟨attempt, _ | next⟩ := r
      · exact hands.elim
      · exact hands.elim
      · obtain rfl : next = ticket := hands
        exact (hr.1 _ rfl next rfl).1.evolve hyz.evolves
  | resumePlan agent' run => exact absurd trivial hq
  | _ => exact ho.elim

/-- What is known of a call of a session and of what comes after it. -/
structure Conducts (bindings : List CredentialBinding) (incoming : Incoming) (position : ℕ)
    (q : Call) (task : Task) : Prop where
  asked : ∃ p, incoming.By bindings p ∧ (position = 0 → q.principal = some p) ∧
    ∀ agent, task = .execution agent → agent = p ∨ ∃ binding ∈ bindings, binding.identity = agent
  opens : ∀ agent, task = .execution agent → q.Opens agent
  executes : 0 < position → ∃ agent ticket, q = .executeNext agent ticket ∧ task = .execution agent

section runs

variable {bindings : List CredentialBinding} {c : (api bindings).Config}

theorem api_follows (h : (api bindings).Reachable c) :
    Frontend.Ok (E := api bindings) (Conducts bindings) Linked c := by
  refine Frontend.follows linked_lasts ?_ ?_ h
  · intro c incoming i q task _ hopened
    obtain ⟨p, hby, hhandle⟩ := serveClient_some hopened
    obtain ⟨hp, htask⟩ := handle_ok hhandle
    refine ⟨⟨p, hby, fun _ => hp, fun agent ht => ?_⟩, fun agent ht => (htask agent ht).1,
      fun hpos => absurd hpos (lt_irrefl 0)⟩
    exact (htask agent ht).2.imp_right And.left
  · intro c₀ c incoming n q task reply q' task' hreach hconducts hserves hresumes
    obtain ⟨agent, ticket, rfl, hands, rfl, rfl⟩ := spawnPlanExecution_some hresumes
    have hreturns : q.Returns reply := hserves.ends answered_perform q.returns
    have hopens := hconducts.opens agent rfl
    obtain ⟨p, hby, _, htask⟩ := hconducts.asked
    refine ⟨⟨⟨p, hby, fun hn => absurd hn (Nat.succ_ne_zero n), fun a ha => ?_⟩, fun a ha => ?_,
      fun _ => ⟨agent, ticket, rfl, rfl⟩⟩, Call.leads hopens hreturns hands, fun hq a next hnext => ?_⟩
    · cases ha
      exact htask agent rfl
    · cases ha
      rfl
    · cases hnext
      exact Call.backs hreach hserves hq hands hopens

/-! ### Executions -/

/-- The calls of a session after its first are executions of successive steps, for the request of
the first. -/
theorem executes_from (hok : Frontend.Ok (E := api bindings) (Conducts bindings) Linked c) :
    ∀ n, ∀ m ∈ c.calls, m.position = n + 1 → ∃ first ∈ c.calls, ∃ opening ∈ c.calls,
      ∃ agent ticket₀ ticket, first.session = m.session ∧ first.position = 0 ∧
        first.request = m.request ∧ opening.session = m.session ∧ opening.position = 1 ∧
        first.call.Leads opening.call ∧ opening.call = .executeNext agent ticket₀ ∧
        m.call = .executeNext agent ticket ∧
        ticket.At ticket₀.run (ticket₀.grant, ticket₀.plan) (ticket₀.operationIndex + n) ∧
        (¬ first.call.Resumes → c.base.state.store.Backs ticket) := by
  intro n
  induction n with
  | zero =>
      intro m hm hpos
      obtain ⟨first, hfirst, hs, hr, hp, hlinked⟩ := hok.linked m hm (hpos ▸ Nat.succ_pos 0)
      obtain ⟨_, _, k, hconducts⟩ := hok.made m hm
      obtain ⟨agent, ticket, hcall, _⟩ := hconducts.executes (hpos ▸ Nat.succ_pos 0)
      exact ⟨first, hfirst, m, hm, agent, ticket, ticket, hs, Nat.succ.inj (hp.symm.trans hpos), hr,
        rfl, hpos, hlinked.leads, hcall, hcall, ⟨rfl, rfl, rfl⟩,
        fun hq => hlinked.backed hq agent ticket hcall⟩
  | succ n ih =>
      intro m hm hpos
      obtain ⟨m', hm', hs, hr, hp, hlinked⟩ := hok.linked m hm (hpos ▸ Nat.succ_pos _)
      obtain ⟨first, hfirst, opening, hopening, agent, ticket₀, ticket, h1, h2, h3, h4, h5, h6, h7,
        h8, hat, _⟩ := ih m' hm' (Nat.succ.inj (hp.symm.trans hpos))
      obtain ⟨_, _, k, hconducts⟩ := hok.made m hm
      obtain ⟨agent', next, hcall, _⟩ := hconducts.executes (hpos ▸ Nat.succ_pos _)
      have hbacked : c.base.state.store.Backs next :=
        hlinked.backed (by rw [h8]; exact id) agent' next hcall
      have hleads := hlinked.leads
      rw [h8, hcall] at hleads
      obtain ⟨rfl, hnext⟩ := hleads
      refine ⟨first, hfirst, opening, hopening, agent', ticket₀, next, h1.trans hs, h2, h3.trans hr,
        h4.trans hs, h5, h6, h7, hcall, ⟨hnext.run.trans hat.run, ?_, ?_⟩, fun _ => hbacked⟩
      · exact hnext.pair.trans hat.pair
      · rw [hnext.index, hat.index]
        omega

/-- A detached execution takes the steps of one run for one agent, one after the other from the
step of its first ticket: its `n`-th call is for the `n`-th of these steps, and no call is made
twice.  And whatever state its call returns in, the execution can make the call for the step that it
has got a ticket for, and end when it has got none. -/
theorem executions_in_step (h : (api bindings).Reachable c) :
    (∀ m ∈ c.calls, 0 < m.position → ∃ first ∈ c.calls, ∃ opening ∈ c.calls,
      ∃ agent ticket₀ ticket, first.session = m.session ∧ first.position = 0 ∧
        first.request = m.request ∧ opening.session = m.session ∧ opening.position = 1 ∧
        first.call.Leads opening.call ∧ opening.call = .executeNext agent ticket₀ ∧
        m.call = .executeNext agent ticket ∧
        ticket.At ticket₀.run (ticket₀.grant, ticket₀.plan)
          (ticket₀.operationIndex + (m.position - 1))) ∧
    (c.calls.map fun m => (m.session, m.position)).Nodup ∧
    ∀ t session reply, c.base.threads t = some (.pure reply) → c.sessions t = some session →
      (spawnPlanExecution session.state reply = none →
        (api bindings).Step c (c.returned t reply)) ∧
      ∀ q task, spawnPlanExecution session.state reply = some (q, task) →
        (api bindings).Step c ((c.returned t reply).calling session.id (session.position + 1)
          session.request q task) := by
  have hok := api_follows h
  refine ⟨fun m hm hpos => ?_, hok.distinct, fun t session reply ht hs => hok.moves ht hs ?_⟩
  · obtain ⟨first, hfirst, opening, hopening, agent, ticket₀, ticket, h1, h2, h3, h4, h5, h6, h7, h8,
      hat, _⟩ := executes_from hok (m.position - 1) m hm (by omega)
    exact ⟨first, hfirst, opening, hopening, agent, ticket₀, ticket, h1, h2, h3, h4, h5, h6, h7, h8,
      hat⟩
  · intro q task hresumes
    obtain ⟨agent, ticket, _, hands, rfl, _⟩ := spawnPlanExecution_some hresumes
    exact ⟨reply, List.mem_cons_self, hands⟩

omit [Platform] in
open Bench in
set_option maxRecDepth 20000 in
theorem executions_in_step_bench : ∃ m ∈ corresponded.calls, m.position = 2 ∧
    ∃ agent : Principal, ∃ ticket₀ ticket : PlanTicket, m.call = .executeNext agent ticket ∧
      ticket.run = ticket₀.run ∧ ticket.operationIndex = ticket₀.operationIndex + 1 := by
  obtain ⟨m, hm, hpos⟩ : ∃ m ∈ corresponded.calls, m.position = 2 := by decide +kernel
  obtain ⟨_, _, _, _, agent, ticket₀, ticket, _, _, _, _, _, _, _, hcall, hat⟩ :=
    (@executions_in_step Bench.platform _ _ corresponded_reachable).1 m hm (by omega)
  refine ⟨m, hm, hpos, agent, ticket₀, ticket, hcall, hat.run, ?_⟩
  rw [hat.index, hpos]

/-! ### Duties -/

/-- The request was made with a token of the principal, and for this call of the supervisor, which
made this request of its surroundings. -/
def SentFor (c : (api bindings).Config) (past : List (Event machine)) (p : Principal)
    (incoming : Incoming) (q : Call) (r : Request) : Prop :=
  incoming.By bindings p ∧ ∃ m ∈ c.calls, m.request = incoming ∧ m.position = 0 ∧ m.call = q ∧
    ∃ e ∈ past, e.thread = m.thread ∧ e.request = r

/-- Who had a hand in a dispatch: the sessions in which its profile was commissioned, its grant
issued, its plan proposed and reviewed, before it was claimed. -/
structure Separated (c : (api bindings).Config) (claim : DispatchClaim)
    (commissioner issuer author reviewer : Principal) (ic ii ia ir : Incoming) : Prop where
  commissioned : commissioner.Governs ∧ SentFor c claim.older commissioner ic
    (.commission commissioner claim.claimed.profile) (.store (.saveProfile claim.claimed.profile))
  granted : issuer.Governs ∧ ∃ recipient issued, issued.Continues claim.claimed.grant ∧
    recipient.role = .agent ∧ issued.agent = recipient.id ∧
    SentFor c claim.older issuer ii (.issueGrant issuer recipient issued) (.store (.saveGrant issued))
  proposed : author.role = .agent ∧ ∃ proposal : PlanProposal,
    proposal.digest = claim.claimed.plan.toPlanProposal.digest ∧ proposal.requestedBy = author.id ∧
    SentFor c claim.older author ia (.proposePlan author proposal) (.store (.saveProposal proposal)) ∧
    SentFor c claim.older reviewer ir (.reviewProposal reviewer proposal.id proposal.digest)
      (.store (.consumeReviewedProposal proposal.id proposal.digest claim.claimed.plan))
  reviewed : reviewer.role = .reviewer ∧ claim.claimed.plan.reviewedBy = reviewer.id ∧
    claim.claimed.plan.reviewedBy ≠ claim.claimed.plan.requestedBy
  tokens : ir.token ≠ ia.token ∧ ir.token ≠ ic.token ∧ ir.token ≠ ii.token ∧
    ia.token ≠ ic.token ∧ ia.token ≠ ii.token

/-- Tokens that prove different roles are different. -/
theorem tokens_differ {u : Unit} (hv : validateBindings bindings = .ok u) {i i' : Incoming}
    {p p' : Principal} (h : i.By bindings p) (h' : i'.By bindings p') (hrole : p.role ≠ p'.role) :
    i.token ≠ i'.token := by
  intro ht
  have h'' : authenticate bindings i.token i'.peerUid = .ok p' := ht ▸ h'
  exact hrole (congrArg Principal.role (authenticate_unique hv h h''))

omit [Platform] in
theorem Principal.Governs.ne {p : Principal} (h : p.Governs) {role : PrincipalRole}
    (ho : role ≠ .operator) (ha : role ≠ .admin) : role ≠ p.role := by
  rcases h with h | h <;> rw [h]
  · exact ho
  · exact ha

/-- A recorded request that only one kind of call is entitled to was asked for by such a call. -/
theorem sentFor_of_recorded (h : (api bindings).Reachable c) {past : List (Event machine)}
    (hpast : ∀ e ∈ past, e ∈ c.base.history) {e : Event machine} (he : e ∈ past) {r : Request}
    (hr : e.request = r) (hboot : ¬ Restores r) : ∃ q : Call, q.Entitled r ∧
      ((∃ agent ticket, q = .executeNext agent ticket) ∨
        ∃ p incoming, q.principal = some p ∧ SentFor c past p incoming q r) := by
  subst hr
  rcases Frontend.attributed restores_boot Call.entitled h e (hpast e he) with hb | ⟨m, hm, ht, hent⟩
  · exact absurd hb hboot
  · refine ⟨m.call, hent, ?_⟩
    obtain ⟨_, _, k, hconducts⟩ := (api_follows h).made m hm
    rcases Nat.eq_zero_or_pos m.position with hp | hp
    · obtain ⟨p, hby, hprincipal, _⟩ := hconducts.asked
      exact Or.inr ⟨p, m.request, hprincipal hp, hby, m, hm, rfl, hp, rfl, e, he, ht.symm, rfl⟩
    · obtain ⟨agent, ticket, hcall, _⟩ := hconducts.executes hp
      exact Or.inl ⟨agent, ticket, hcall⟩

/-- The records that a claim was checked against had been filed for callers with these roles. -/
theorem separated_of_claim (hv : validateBindings bindings = .ok ())
    (h : (api bindings).Reachable c) {claim : DispatchClaim} (hin : claim.In c.base.history) :
    ∃ commissioner issuer author reviewer ic ii ia ir,
      Separated c claim commissioner issuer author reviewer ic ii ia ir := by
  have hist := Reachable.history (Frontend.Reachable.base h)
  have hbefore : History claim.older claim.before := hist.before hin
  have hgood := hbefore.good
  obtain ⟨a, hclaims, _, _⟩ := claim.spec hgood
  have hpast : ∀ e ∈ claim.older, e ∈ c.base.history := fun e he =>
    hin.subset (List.mem_cons_of_mem _ he)
  have hauthored := hbefore.authored
  -- the profile
  obtain ⟨e₁, he₁, hr₁⟩ := hauthored.profiles _ hclaims.profile.1
  obtain ⟨_, ⟨authority, rfl, hgov₁⟩, hcall₁⟩ := sentFor_of_recorded h hpast he₁ hr₁ fun hb => by cases hb
  obtain ⟨_, _, hno⟩ | ⟨p₁, i₁, hp₁, hsent₁⟩ := hcall₁
  · cases hno
  cases hp₁
  -- the grant
  obtain ⟨e₂, he₂, issued, hr₂, hcont⟩ := hbefore.issued hclaims.grant.mem
  obtain ⟨_, ⟨issuer, recipient, rfl, hgov₂, hrole₂, hagent₂, _⟩, hcall₂⟩ :=
    sentFor_of_recorded h hpast he₂ hr₂ fun hb => by cases hb
  obtain ⟨_, _, hno⟩ | ⟨p₂, i₂, hp₂, hsent₂⟩ := hcall₂
  · cases hno
  cases hp₂
  -- the plan and its proposal
  obtain ⟨e₃, he₃, proposal, hr₃, e₄, he₄, hr₄⟩ := hauthored.plans _ hclaims.plan.1
  obtain ⟨_, ⟨reviewer, rfl, hrole₃, hby₃, hdigest₃⟩, hcall₃⟩ :=
    sentFor_of_recorded h hpast he₃ hr₃ fun hb => by cases hb
  obtain ⟨_, _, hno⟩ | ⟨p₃, i₃, hp₃, hsent₃⟩ := hcall₃
  · cases hno
  cases hp₃
  obtain ⟨_, ⟨author, rfl, hrole₄, hby₄⟩, hcall₄⟩ :=
    sentFor_of_recorded h hpast he₄ hr₄ fun hb => by cases hb
  obtain ⟨_, _, hno⟩ | ⟨p₄, i₄, hp₄, hsent₄⟩ := hcall₄
  · cases hno
  cases hp₄
  refine ⟨authority, issuer, author, reviewer, i₁, i₂, i₄, i₃,
    ⟨hgov₁, hsent₁⟩, ⟨hgov₂, recipient, issued, hcont, hrole₂, hagent₂, hsent₂⟩,
    ⟨hrole₄, proposal, hdigest₃.symm, hby₄, hsent₄, hsent₃⟩,
    ⟨hrole₃, hby₃, (hgood.stocked.plans _ hclaims.plan.1).independent⟩, ?_⟩
  have hreviewer : ∀ {p : Principal}, p.Governs → reviewer.role ≠ p.role := fun hg =>
    hrole₃ ▸ hg.ne (by decide) (by decide)
  have hauthor : ∀ {p : Principal}, p.Governs → author.role ≠ p.role := fun hg =>
    hrole₄ ▸ hg.ne (by decide) (by decide)
  refine ⟨tokens_differ hv hsent₃.1 hsent₄.1 ?_, tokens_differ hv hsent₃.1 hsent₁.1 (hreviewer hgov₁),
    tokens_differ hv hsent₃.1 hsent₂.1 (hreviewer hgov₂),
    tokens_differ hv hsent₄.1 hsent₁.1 (hauthor hgov₁),
    tokens_differ hv hsent₄.1 hsent₂.1 (hauthor hgov₂)⟩
  rw [hrole₃, hrole₄]
  decide

/-- The session of the call was opened, by the same request, with a takeover of the claimed plan
under the claimed grant for the principal. -/
def OpenedByTakeover (c : (api bindings).Config) (m : (api bindings).Made) (p : Principal)
    (claim : DispatchClaim) : Prop :=
  ∃ first ∈ c.calls, first.session = m.session ∧ first.position = 0 ∧ first.request = m.request ∧
    ∃ recovery, first.call = .takeoverRecovery p recovery ∧
      recovery.grant = claim.claimed.grant.id ∧ recovery.plan = claim.claimed.plan.id

/-- An execution that is not made for the principal of its request goes back to a takeover: of the
plan of its ticket, and of the claimed one, since the attempt of the ticket is of this pair. -/
theorem opened_by_takeover (h : (api bindings).Reachable c) {claim : DispatchClaim}
    (hin : claim.In c.base.history) {m : (api bindings).Made} (hm : m ∈ c.calls)
    (hpos : 0 < m.position) {agent p : Principal} (hagent : m.call.principal = some agent)
    (hby : m.request.By bindings p) (hclaims : m.call.Claims claim.attempt) :
    agent = p ∨ p.Governs ∧ OpenedByTakeover c m p claim := by
  have hok := api_follows h
  have hist := Reachable.history (Frontend.Reachable.base h)
  obtain ⟨first, hfirst, opening, _, agent', ticket₀, ticket, hsession, hfirst0, hrequest, _, _,
    hleads, hopening, hcall, hat, hbacks⟩ := executes_from hok (m.position - 1) m hm (by omega)
  rw [hcall] at hagent hclaims
  obtain rfl := Option.some.inj hagent
  obtain ⟨_, _, k, hconducts⟩ := hok.made first hfirst
  obtain ⟨p', hby', hprincipal, _⟩ := hconducts.asked
  obtain rfl : p' = p := Except.ok.inj ((hrequest ▸ hby').symm.trans hby)
  rw [hopening] at hleads
  refine (hleads.cases (hprincipal hfirst0)).imp_right ?_
  rintro ⟨hgoverns, recovery, htakeover, hpair⟩
  refine ⟨hgoverns, first, hfirst, hsession, hfirst0, hrequest, recovery, htakeover, ?_⟩
  -- the attempt of the ticket is the claimed one, which has kept its pair
  obtain ⟨b, hb, hbid, hbpair⟩ := hbacks (by rw [htakeover]; exact id)
  obtain ⟨a, hspec, haid, _⟩ := claim.spec (hist.good_before hin)
  obtain ⟨a', ha', hcont⟩ := (hist.evolves_before hin).attempts a hspec.attempt
  obtain rfl := Store.attempt_inj ha' hb
    ((AttemptRecord.id_eq hcont.identity).trans (haid.trans (hclaims.trans hbid.symm)))
  have hclaimed : a.pair = (recovery.grant, recovery.plan) :=
    (AttemptRecord.pair_eq hcont.identity).symm.trans (hbpair.trans (hat.pair.trans hpair))
  obtain ⟨hgrant, hplan⟩ := Prod.mk.inj hclaimed
  exact ⟨hgrant.symm.trans hspec.grant.id.symm, hplan.symm.trans hspec.plan.2.1.symm⟩

/-- Nothing is dispatched unless operators have commissioned its profile and issued its grant, an
agent has proposed its plan and a reviewer has approved the plan at its digest, each over a
connection that proved this role by a token of its own; and it is carried out for the configured
agent of the grant, in a session that this agent has opened, or an operator with a takeover of the
plan. -/
theorem duties_separated (hv : validateBindings bindings = .ok ()) (h : (api bindings).Reachable c)
    {e : Event machine} {older : List (Event machine)} (he : (e :: older) <:+ c.base.history)
    {dispatch : DispatchRequest} (hd : e.request = .execute dispatch) :
    ∃ claim : DispatchClaim, claim.In older ∧ claim.thread = e.thread ∧
      claim.attempt = dispatch.attempt ∧
      (∃ commissioner issuer author reviewer ic ii ia ir,
        Separated c claim commissioner issuer author reviewer ic ii ia ir) ∧
      ∃ agent p : Principal, agent.role = .agent ∧ agent.id = claim.claimed.grant.agent ∧
        (∃ binding ∈ bindings, binding.identity = agent) ∧
        ∃ m ∈ c.calls, m.thread = e.thread ∧ m.call.principal = some agent ∧
          m.request.By bindings p ∧ (agent = p ∨ p.Governs ∧ OpenedByTakeover c m p claim) := by
  have hist := Reachable.history (Frontend.Reachable.base h)
  obtain ⟨claim, since, planned, expiries, hdisp⟩ := hist.dispatchable he hd
  have hbefore := hist.before he
  have hin : claim.In older := ⟨since, hdisp.past.symm⟩
  have hin' : claim.In c.base.history := List.IsSuffix.trans hin ((List.suffix_cons e older).trans he)
  obtain ⟨hattempt, hid, _⟩ := hdisp.attempt_eq hbefore
  refine ⟨claim, hin, hdisp.thread, (hattempt.trans hid).symm, separated_of_claim hv h hin', ?_⟩
  have hok := api_follows h
  -- both the claim and the dispatch were requested by the thread's one call
  have hmade := Frontend.attributed restores_boot Call.entitled h
  rcases hmade e (he.subset List.mem_cons_self) with hb | ⟨m, hm, ht, hent⟩
  · rw [hd] at hb
    exact hb.elim
  rcases hmade claim.event (hin'.subset List.mem_cons_self) with hb | ⟨m', hm', ht', hent'⟩
  · cases hb
  obtain rfl := hok.unique hm hm' (ht'.trans (hdisp.thread.trans ht.symm))
  obtain hq | ⟨agent, hagent, hrole, ⟨hclaimed, hname⟩, _⟩ : Quiet claim.event.request ∨ _ := hent'
  · cases hq
  obtain ⟨a, hclaims, _⟩ := claim.spec (hist.good_before hin')
  obtain ⟨_, _, k, hconducts⟩ := hok.made m' hm
  obtain ⟨p, hby, hfirst, htask⟩ := hconducts.asked
  have hperson : (∃ binding ∈ bindings, binding.identity = agent) ∧
      (agent = p ∨ p.Governs ∧ OpenedByTakeover c m' p claim) := by
    have hself : (∃ binding ∈ bindings, binding.identity = p) := by
      obtain ⟨binding, hb, hidentity, _⟩ := authenticate_mem hby
      exact ⟨binding, hb, hidentity⟩
    rcases Nat.eq_zero_or_pos m'.position with hp | hp
    · obtain rfl := Option.some.inj (hagent.symm.trans (hfirst hp))
      exact ⟨hself, Or.inl rfl⟩
    · refine ⟨?_, opened_by_takeover h hin' hm hp hagent hby hclaimed⟩
      obtain ⟨agent', ticket, hcall, hk⟩ := hconducts.executes hp
      rw [hcall] at hagent
      obtain rfl := Option.some.inj hagent
      rcases htask agent' hk with rfl | hbound
      · exact hself
      · exact hbound
  exact ⟨agent, p, hrole, hname.symm.trans hclaims.grant.agent.symm, hperson.1, m', hm, ht, hagent,
    hby, hperson.2⟩

omit [Platform] in
open Bench in
set_option maxRecDepth 20000 in
theorem duties_separated_bench : ∃ e ∈ corresponded.base.history, ∃ dispatch,
    e.request = .execute dispatch ∧ ∃ claim : @DispatchClaim Bench.platform,
      @DispatchClaim.attempt Bench.platform claim = dispatch.attempt ∧
      ∃ commissioner issuer author reviewer ic ii ia ir, @Separated Bench.platform credentials
        corresponded claim commissioner issuer author reviewer ic ii ia ir := by
  obtain ⟨e, he, hexec⟩ : ∃ e ∈ corresponded.base.history, e.request.executes = true := by
    decide +kernel
  obtain ⟨dispatch, hd⟩ := Request.executes_iff.mp hexec
  obtain ⟨older, hsuf⟩ := exists_suffix_of_mem he
  obtain ⟨claim, _, _, hattempt, hseparated, _⟩ := @duties_separated Bench.platform credentials
    corresponded (by decide +kernel) corresponded_reachable e older hsuf dispatch hd
  exact ⟨e, he, dispatch, hd, claim, hattempt, hseparated⟩

end runs

end Cheirismos

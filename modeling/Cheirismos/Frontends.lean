import Cheirismos.RelyGuarantee
import Mathlib.Data.List.Nodup

/-! # Front ends of a service

A front end serves its own clients by making calls of a `Service`, over an arbitrary service.

* **Sessions.** A request opens a session with a call (`opens`), and what the call returns is given
  to the session, which makes another call or is over (`resumes`).  Between two of its calls a
  session only computes; before the first one it may look at the state once.
* **Moves.** `Frontend.Step` accepts a request, hands a result over, makes any move of the service
  inside its calls, or crashes, which drops every session.
* **Calls.** A configuration remembers all calls that were made (`Made`): in which session and as
  the how manyth, for which request, and which thread of the service carried it out.

`Frontend.Reachable.base` says that behind the front end runs the service, so that what holds of
the runs of the service holds here.  `Frontend.follows` is the induction rule for sessions,
`Frontend.Ok.moves` says that a session whose call has returned can make its next call, or end when
there is none, and `Frontend.attributed` traces every recorded request back to the call it was made
for. -/

namespace Process

variable {F : Interface} {M : Machine F}

structure Frontend (S : Service M) where
  Request : Type
  State : Type
  opens : Request → M.Choice → M.State → Option (S.Call × State)
  resumes : State → S.Result → Option (S.Call × State)

/-- Every value that the program can end with satisfies `P`, when every answer satisfies `A`. -/
def Program.EndsGiven {α : Type} (A : (r : F.Request) → F.Answer r → Prop) (P : α → Prop) :
    Program F α → Prop
  | .pure a => P a
  | .ask r next => ∀ v, A r v → (next v).EndsGiven A P

theorem Program.EndsGiven.bind {α β : Type} {A : (r : F.Request) → F.Answer r → Prop}
    {P : α → Prop} {Q : β → Prop} {p : Program F α} {f : α → Program F β} (hp : p.EndsGiven A P)
    (hf : ∀ a, P a → (f a).EndsGiven A Q) : (p.bind f).EndsGiven A Q := by
  induction p with
  | pure a => exact hf a hp
  | ask r next ih => exact fun v hv => ih v (hp v hv)

theorem Program.EndsGiven.of_all {α : Type} {A : (r : F.Request) → F.Answer r → Prop}
    {P : α → Prop} (h : ∀ a, P a) (p : Program F α) : p.EndsGiven A P := by
  induction p with
  | pure a => exact h a
  | ask r next ih => exact fun v _ => ih v

/-- What a call's program ends with, given what is true of the machine's answers, it returns in
every run. -/
theorem Service.Serves.ends {S : Service M} {A : (r : F.Request) → F.Answer r → Prop}
    {P : S.Result → Prop} (hA : ∀ r i s, A r (M.perform r i s).1) {c c' : S.Config} {q : S.Call}
    {a : S.Result} (hs : S.Serves c q a c') (hq : (S.body q).EndsGiven A P) : P a := by
  have hrun : ∀ {c₁ : S.Config}, S.Run (c.begun q) c₁ →
      c.next < c₁.next ∧ ∀ p, c₁.threads c.next = some p → p.EndsGiven A P := by
    intro c₁ hr
    induction hr with
    | refl =>
        refine ⟨Nat.lt_succ_self _, fun p hp => ?_⟩
        rcases Discipline.live_update hp with ⟨_, hp⟩ | ⟨hne, _⟩
        · cases hp
          exact hq
        · exact absurd rfl hne
    | tail _ hstep ih =>
        obtain ⟨hlt, hends⟩ := ih
        cases hstep with
        | call q' _ _ =>
            refine ⟨Nat.lt_succ_of_lt hlt, fun p hp => ?_⟩
            rcases Discipline.live_update hp with ⟨he, _⟩ | ⟨_, hp⟩
            · exact absurd hlt (he ▸ lt_irrefl _)
            · exact hends p hp
        | @act u r k i hu =>
            refine ⟨hlt, fun p hp => ?_⟩
            rcases Discipline.live_update hp with ⟨he, hp⟩ | ⟨_, hp⟩
            · cases hp
              have hask : (Program.ask r k).EndsGiven A P := hends _ (he ▸ hu)
              exact hask _ (hA _ _ _)
            · exact hends p hp
        | «return» _ =>
            refine ⟨hlt, fun p hp => ?_⟩
            rcases Discipline.live_update hp with ⟨_, hp⟩ | ⟨_, hp⟩
            · cases hp
            · exact hends p hp
        | interfere _ => exact ⟨hlt, hends⟩
        | crash => exact ⟨Nat.lt_succ_of_lt hlt, fun p hp => by cases hp⟩
        | bootAct i _ => exact ⟨hlt, hends⟩
        | booted _ => exact ⟨hlt, hends⟩
  exact (hrun hs.run).2 _ hs.result

namespace Frontend

variable {S : Service M} (E : Frontend S)

/-- A session that waits for its call. -/
structure Session where
  id : ℕ
  position : ℕ
  request : E.Request
  state : E.State

/-- A call that was made. -/
structure Made where
  thread : ℕ
  session : ℕ
  position : ℕ
  request : E.Request
  call : S.Call

/-- The service, the sessions by the threads they wait for, and the calls made so far, newest
first. -/
structure Config where
  base : S.Config
  sessions : ℕ → Option E.Session
  calls : List E.Made

def start : E.Config := ⟨S.start, fun _ => none, []⟩

namespace Config

variable {E}

/-- A session makes a call. -/
def calling (c : E.Config) (id position : ℕ) (r : E.Request) (q : S.Call) (k : E.State) :
    E.Config where
  base := c.base.begun q
  sessions := Function.update c.sessions c.base.next (some ⟨id, position, r, k⟩)
  calls := ⟨c.base.next, id, position, r, q⟩ :: c.calls

/-- The call of a thread has returned. -/
def returned (c : E.Config) (t : ℕ) (a : S.Result) : E.Config :=
  { c with
    base := { c.base with
      threads := Function.update c.base.threads t none
      results := a :: c.base.results }
    sessions := Function.update c.sessions t none }

end Config

/-- The moves of a service behind a front end.  A session has the number of the thread that carries
out its first call. -/
inductive Step : E.Config → E.Config → Prop
  | accept {c : E.Config} {r : E.Request} {i : M.Choice} {q : S.Call} {k : E.State} :
      E.opens r i c.base.state = some (q, k) → c.base.booting = none →
      S.admits c.base.results q → Step c (c.calling c.base.next 0 r q k)
  | proceed {c : E.Config} {t : ℕ} {a : S.Result} {session : E.Session} {q : S.Call}
      {k : E.State} : c.base.threads t = some (.pure a) → c.sessions t = some session →
      E.resumes session.state a = some (q, k) → c.base.booting = none →
      S.admits (a :: c.base.results) q →
      Step c ((c.returned t a).calling session.id (session.position + 1) session.request q k)
  | finish {c : E.Config} {t : ℕ} {a : S.Result} {session : E.Session} :
      c.base.threads t = some (.pure a) → c.sessions t = some session →
      E.resumes session.state a = none → Step c (c.returned t a)
  /-- A move of the service that neither begins a call, ends one nor restarts it. -/
  | inner {c : E.Config} {b : S.Config} : S.Step c.base b → b.next = c.base.next →
      b.results = c.base.results → Step c { c with base := b }
  | crash {c : E.Config} : Step c { c with base := c.base.crashed, sessions := fun _ => none }

def Run : E.Config → E.Config → Prop := Relation.ReflTransGen E.Step

def Reachable (c : E.Config) : Prop := E.Run E.start c

variable {E}

/-! ### The service behind the front end -/

theorem Config.returned_base {c : E.Config} {t : ℕ} {a : S.Result}
    (ht : c.base.threads t = some (.pure a)) : S.Run c.base (c.returned t a).base :=
  Relation.ReflTransGen.single (.return ht)

theorem Config.calling_base {c : E.Config} {id position : ℕ} {r : E.Request} {q : S.Call}
    {k : E.State} (hup : c.base.booting = none) (hq : S.admits c.base.results q) :
    S.Run c.base (c.calling id position r q k).base :=
  Relation.ReflTransGen.single (.call q hup hq)

/-- A move is one of the service, or two. -/
theorem Step.base {c c' : E.Config} (h : E.Step c c') : S.Run c.base c'.base := by
  cases h with
  | accept _ hup hq => exact Config.calling_base hup hq
  | proceed ht _ _ hup hq =>
      exact (Config.returned_base ht).trans (Config.calling_base hup hq)
  | finish ht _ _ => exact Config.returned_base ht
  | inner hs _ _ => exact Relation.ReflTransGen.single hs
  | crash => exact Relation.ReflTransGen.single .crash

theorem Run.base {c c' : E.Config} (h : E.Run c c') : S.Run c.base c'.base := by
  induction h with
  | refl => exact Relation.ReflTransGen.refl
  | tail _ hs ih => exact ih.trans hs.base

theorem Reachable.base {c : E.Config} (h : E.Reachable c) : S.Reachable c.base := Run.base h

/-- A property of the start that every move keeps holds in every reachable configuration. -/
theorem Reachable.induct {P : E.Config → Prop} (h₀ : P E.start)
    (hs : ∀ c c', E.Reachable c → P c → E.Step c c' → P c') {c : E.Config} (h : E.Reachable c) :
    P c := by
  induction h with
  | refl => exact h₀
  | tail hr hstep ih => exact hs _ _ hr ih hstep

/-! ### Sessions -/

/-- What holds of the calls and sessions of every reachable configuration, for a relation `J`
between a request, the position of a call of its session, the call, and the state the session
waits in, and a relation `L` between two successive calls of a session, which may be about what the
service has done by now. -/
structure Ok (J : E.Request → ℕ → S.Call → E.State → Prop) (L : S.Config → S.Call → S.Call → Prop)
    (c : E.Config) : Prop where
  live : ∀ t p, c.base.threads t = some p → ∃ session, c.sessions t = some session
  up : ∀ t session, c.sessions t = some session → c.base.booting = none
  serving : ∀ t session, c.sessions t = some session → t < c.base.next ∧ ∃ q c₀,
    ⟨t, session.id, session.position, session.request, q⟩ ∈ c.calls ∧
      J session.request session.position q session.state ∧
      S.Reachable c₀ ∧ c₀.next = t ∧ S.Serving c₀ q c.base
  made : ∀ m ∈ c.calls, m.thread < c.base.next ∧ m.session < c.base.next ∧
    ∃ k, J m.request m.position m.call k
  /-- A session waits for one call, the last that it has made. -/
  last : ∀ t session, c.sessions t = some session →
    (∀ m ∈ c.calls, m.session = session.id → m.position ≤ session.position) ∧
    ∀ t' session', c.sessions t' = some session' → session'.id = session.id → t' = t
  linked : ∀ m ∈ c.calls, 0 < m.position → ∃ m' ∈ c.calls, m'.session = m.session ∧
    m'.request = m.request ∧ m.position = m'.position + 1 ∧ L c.base m'.call m.call
  distinct : (c.calls.map fun m => (m.session, m.position)).Nodup
  threads : (c.calls.map Made.thread).Nodup

variable {J : E.Request → ℕ → S.Call → E.State → Prop} {L : S.Config → S.Call → S.Call → Prop}

/-- What holds of two successive calls goes on to hold. -/
def Lasts (L : S.Config → S.Call → S.Call → Prop) : Prop :=
  ∀ d d' q q', S.Reachable d → S.Run d d' → L d q q' → L d' q q'

/-- The links between calls while the service goes on. -/
theorem Ok.linked_run {c : E.Config} (h : Ok J L c) (hL : Lasts L) (hreach : S.Reachable c.base)
    {b : S.Config} (hrun : S.Run c.base b) : ∀ m ∈ c.calls, 0 < m.position → ∃ m' ∈ c.calls,
      m'.session = m.session ∧ m'.request = m.request ∧ m.position = m'.position + 1 ∧
        L b m'.call m.call := by
  intro m hm hpos
  obtain ⟨m', hm', hs, hr, hp, hl⟩ := h.linked m hm hpos
  exact ⟨m', hm', hs, hr, hp, hL _ _ _ _ hreach hrun hl⟩

/-- The call that a thread carries out. -/
theorem Ok.unique {c : E.Config} (h : Ok J L c) {m m' : E.Made} (hm : m ∈ c.calls)
    (hm' : m' ∈ c.calls) (ht : m'.thread = m.thread) : m' = m :=
  List.inj_on_of_nodup_map h.threads hm' hm ht

theorem ok_start : Ok J L E.start where
  live _ _ h := by cases h
  up _ _ h := by cases h
  serving _ _ h := by cases h
  made _ h := by cases h
  last _ _ h := by cases h
  linked _ h := by cases h
  distinct := List.nodup_nil
  threads := List.nodup_nil

theorem Ok.returned {c : E.Config} (h : Ok J L c) (hL : Lasts L) (hreach : S.Reachable c.base)
    {t : ℕ} {a : S.Result} (ht : c.base.threads t = some (.pure a)) :
    Ok J L (c.returned t a) where
  live u p hu := by
    rcases Discipline.live_update hu with ⟨_, hp⟩ | ⟨hne, hp⟩
    · cases hp
    · obtain ⟨session, hs⟩ := h.live u p hp
      exact ⟨session, (Function.update_of_ne hne _ _).trans hs⟩
  up u session hu := by
    rcases Discipline.live_update hu with ⟨_, hs⟩ | ⟨_, hs⟩
    · cases hs
    · exact h.up u session hs
  serving u session hu := by
    rcases Discipline.live_update hu with ⟨_, hs⟩ | ⟨_, hs⟩
    · cases hs
    · obtain ⟨hlt, q, c₀, hmem, hj, hreach, hnext, hserving⟩ := h.serving u session hs
      exact ⟨hlt, q, c₀, hmem, hj, hreach, hnext,
        ⟨hserving.up, hserving.admitted, hserving.run.trans (Config.returned_base ht)⟩⟩
  made := h.made
  last u session hu := by
    rcases Discipline.live_update hu with ⟨_, hs⟩ | ⟨_, hs⟩
    · cases hs
    · refine ⟨(h.last u session hs).1, fun u' session' hu' hid => ?_⟩
      rcases Discipline.live_update hu' with ⟨_, hs'⟩ | ⟨_, hs'⟩
      · cases hs'
      · exact (h.last u session hs).2 u' session' hs' hid
  linked := h.linked_run hL hreach (Config.returned_base ht)
  distinct := h.distinct
  threads := h.threads

/-- A call of a session that is new, or that has just got its last result. -/
theorem Ok.calling {c : E.Config} (h : Ok J L c) (hL : Lasts L) (hreach : S.Reachable c.base)
    {id position : ℕ}
    {r : E.Request} {q : S.Call} {k : E.State} (hup : c.base.booting = none)
    (hq : S.admits c.base.results q) (hj : J r position q k) (hid : id ≤ c.base.next)
    (hnew : ∀ m ∈ c.calls, m.session = id → m.position < position)
    (hlink : 0 < position → ∃ m ∈ c.calls, m.session = id ∧ m.request = r ∧
      position = m.position + 1 ∧ L c.base m.call q)
    (hidle : ∀ t session, c.sessions t = some session → session.id ≠ id) :
    Ok J L (c.calling id position r q k) where
  live u p hu := by
    rcases Discipline.live_update hu with ⟨rfl, _⟩ | ⟨hne, hp⟩
    · exact ⟨_, Function.update_self ..⟩
    · obtain ⟨session, hs⟩ := h.live u p hp
      exact ⟨session, (Function.update_of_ne hne _ _).trans hs⟩
  up u session hu := hup
  serving u session hu := by
    have hbegun : S.Run c.base (c.calling id position r q k).base := Config.calling_base hup hq
    rcases Discipline.live_update hu with ⟨rfl, hs⟩ | ⟨_, hs⟩
    · cases hs
      exact ⟨Nat.lt_succ_self _, q, c.base, List.mem_cons_self, hj, hreach, rfl,
        ⟨hup, hq, Relation.ReflTransGen.refl⟩⟩
    · obtain ⟨hlt, q', c₀, hmem, hj', hreach', hnext, hserving⟩ := h.serving u session hs
      exact ⟨Nat.lt_succ_of_lt hlt, q', c₀, List.mem_cons_of_mem _ hmem, hj', hreach', hnext,
        ⟨hserving.up, hserving.admitted, hserving.run.trans hbegun⟩⟩
  made m hm := by
    rcases List.mem_cons.mp hm with rfl | hm
    · exact ⟨Nat.lt_succ_self _, Nat.lt_succ_of_le hid, k, hj⟩
    · obtain ⟨h1, h2, h3⟩ := h.made m hm
      exact ⟨Nat.lt_succ_of_lt h1, Nat.lt_succ_of_lt h2, h3⟩
  last u session hu := by
    rcases Discipline.live_update hu with ⟨rfl, hs⟩ | ⟨hne, hs⟩
    · cases hs
      refine ⟨fun m hm hid' => ?_, fun u' session' hu' hid' => ?_⟩
      · rcases List.mem_cons.mp hm with rfl | hm
        · exact le_refl position
        · exact (hnew m hm hid').le
      · rcases Discipline.live_update hu' with ⟨rfl, _⟩ | ⟨_, hs'⟩
        · rfl
        · exact absurd hid' (hidle u' session' hs')
    · refine ⟨fun m hm hid' => ?_, fun u' session' hu' hid' => ?_⟩
      · rcases List.mem_cons.mp hm with rfl | hm
        · exact absurd hid'.symm (hidle u session hs)
        · exact (h.last u session hs).1 m hm hid'
      · rcases Discipline.live_update hu' with ⟨_, hs'⟩ | ⟨_, hs'⟩
        · cases hs'
          exact absurd hid'.symm (hidle u session hs)
        · exact (h.last u session hs).2 u' session' hs' hid'
  linked m hm hp := by
    have hbegun : S.Run c.base (c.calling id position r q k).base := Config.calling_base hup hq
    rcases List.mem_cons.mp hm with rfl | hm
    · obtain ⟨m', hm', hs, hr, hn, hl⟩ := hlink hp
      exact ⟨m', List.mem_cons_of_mem _ hm', hs, hr, hn, hL _ _ _ _ hreach hbegun hl⟩
    · obtain ⟨m', hm', hrest⟩ := h.linked_run hL hreach hbegun m hm hp
      exact ⟨m', List.mem_cons_of_mem _ hm', hrest⟩
  distinct := by
    refine List.nodup_cons.mpr ⟨fun hmem => ?_, h.distinct⟩
    obtain ⟨m, hm, heq⟩ := List.mem_map.mp hmem
    obtain ⟨hs, hp⟩ := Prod.mk.inj heq
    exact absurd hp (ne_of_lt (hnew m hm hs))
  threads := by
    refine List.nodup_cons.mpr ⟨fun hmem => ?_, h.threads⟩
    obtain ⟨m, hm, heq⟩ := List.mem_map.mp hmem
    exact absurd heq (ne_of_lt (h.made m hm).1)

/-- The induction rule for sessions: `J` is shown of the call that opens a session, and `J` and `L`
of each later call from what the one before it has returned. -/
theorem follows (hL : Lasts L)
    (hopen : ∀ (c : S.Config) r i q k, S.Reachable c → E.opens r i c.state = some (q, k) → J r 0 q k)
    (hresume : ∀ c₀ c r n q k a q' k', S.Reachable c₀ → J r n q k → S.Serves c₀ q a c →
      E.resumes k a = some (q', k') → J r (n + 1) q' k' ∧ L c q q')
    {c : E.Config} (h : E.Reachable c) : Ok J L c := by
  refine h.induct ok_start ?_
  intro c c' hc hok hs
  have hbase := Reachable.base hc
  cases hs with
  | accept hopened hup hq =>
      refine hok.calling hL hbase hup hq (hopen _ _ _ _ _ hbase hopened) le_rfl (fun m hm hid => ?_)
        (fun hp => absurd hp (lt_irrefl 0)) fun t session hs hid => ?_
      · exact absurd hid (ne_of_lt (hok.made m hm).2.1)
      · obtain ⟨_, q', _, hmem, _⟩ := hok.serving t session hs
        exact absurd hid (ne_of_lt (hok.made _ hmem).2.1)
  | @proceed t a session q k ht hs hres hup hq =>
      obtain ⟨_, q₀, c₀, hmem, hj, hreach, hnext, hserving⟩ := hok.serving t session hs
      have hserves : S.Serves c₀ q₀ a c.base := ⟨hserving, hnext ▸ ht⟩
      obtain ⟨hj', hl⟩ := hresume _ _ _ _ _ _ _ _ _ hreach hj hserves hres
      have hreturned : S.Run c.base (c.returned t a).base := Config.returned_base ht
      refine (hok.returned hL hbase ht).calling hL (hbase.run hreturned) hup hq hj'
        (hok.made _ hmem).2.1.le (fun m hm hid => ?_)
        (fun _ => ⟨_, hmem, rfl, rfl, rfl, hL _ _ _ _ hbase hreturned hl⟩)
        fun u session' hu hid => ?_
      · exact Nat.lt_succ_of_le ((hok.last t session hs).1 m hm hid)
      · rcases Discipline.live_update hu with ⟨_, hu⟩ | ⟨hne, hu⟩
        · cases hu
        · exact hne ((hok.last t session hs).2 u session' hu hid)
  | finish ht _ _ => exact hok.returned hL hbase ht
  | @inner b hstep hnext hresults =>
      have hrun : S.Run c.base b := Relation.ReflTransGen.single hstep
      have hserving : ∀ t session, c.sessions t = some session → t < b.next ∧ ∃ q c₀,
          ⟨t, session.id, session.position, session.request, q⟩ ∈ c.calls ∧
            J session.request session.position q session.state ∧
            S.Reachable c₀ ∧ c₀.next = t ∧ S.Serving c₀ q b := by
        intro t session hs
        obtain ⟨hlt, q, c₀, hmem, hj, hreach, ht, hserve⟩ := hok.serving t session hs
        exact ⟨hnext ▸ hlt, q, c₀, hmem, hj, hreach, ht,
          ⟨hserve.up, hserve.admitted, hserve.run.trans hrun⟩⟩
      refine ⟨?_, ?_, hserving, fun m hm => ?_, hok.last, hok.linked_run hL hbase hrun,
        hok.distinct, hok.threads⟩
      · intro t p ht
        cases hstep with
        | call q _ _ => exact absurd hnext (Nat.succ_ne_self _)
        | @act u r k i hu =>
            rcases Discipline.live_update ht with ⟨rfl, _⟩ | ⟨_, hp⟩
            · exact hok.live _ _ hu
            · exact hok.live t p hp
        | «return» _ => exact absurd hresults (List.cons_ne_self _ _)
        | interfere _ => exact hok.live t p ht
        | crash => exact absurd hnext (Nat.succ_ne_self _)
        | bootAct i _ => exact hok.live t p ht
        | booted _ => exact hok.live t p ht
      · intro t session hs
        have hup := hok.up t session hs
        cases hstep with
        | call q _ _ => exact absurd hnext (Nat.succ_ne_self _)
        | act i _ => exact hup
        | «return» _ => exact absurd hresults (List.cons_ne_self _ _)
        | interfere _ => exact hup
        | crash => exact absurd hnext (Nat.succ_ne_self _)
        | bootAct i hb =>
            rw [hup] at hb
            cases hb
        | booted _ => rfl
      · obtain ⟨h1, h2, h3⟩ := hok.made m hm
        exact ⟨hnext ▸ h1, hnext ▸ h2, h3⟩
  | crash =>
      refine ⟨fun _ _ ht => (by cases ht), fun _ _ hs => (by cases hs), fun _ _ hs => (by cases hs),
        fun m hm => ?_, fun _ _ hs => (by cases hs),
        hok.linked_run hL hbase (Relation.ReflTransGen.single .crash), hok.distinct, hok.threads⟩
      obtain ⟨h1, h2, h3⟩ := hok.made m hm
      exact ⟨Nat.lt_succ_of_lt h1, Nat.lt_succ_of_lt h2, h3⟩

/-- A session whose call has returned can make its next call, or end when there is none. -/
theorem Ok.moves {c : E.Config} (h : Ok J L c) {t : ℕ} {a : S.Result} {session : E.Session}
    (ht : c.base.threads t = some (.pure a)) (hs : c.sessions t = some session)
    (hadmits : ∀ q k, E.resumes session.state a = some (q, k) → S.admits (a :: c.base.results) q) :
    (E.resumes session.state a = none → E.Step c (c.returned t a)) ∧
    ∀ q k, E.resumes session.state a = some (q, k) → E.Step c
      ((c.returned t a).calling session.id (session.position + 1) session.request q k) :=
  ⟨fun hres => .finish ht hs hres,
    fun q k hres => .proceed ht hs hres (h.up t session hs) (hadmits q k hres)⟩

/-! ### Who made a request -/

/-- Every recorded request was made by the boot program, or for a call that was made and that makes
such requests. -/
theorem attributed {B : F.Request → Prop} {P : S.Call → F.Request → Prop} (hboot : S.boot.Asks B)
    (hbody : ∀ q, (S.body q).Asks (P q)) {c : E.Config} (h : E.Reachable c) :
    ∀ e ∈ c.base.history, B e.request ∨ ∃ m ∈ c.calls, m.thread = e.thread ∧ P m.call e.request := by
  have hinv : (∀ t p, c.base.threads t = some p → ∃ m ∈ c.calls, m.thread = t ∧ p.Asks (P m.call)) ∧
      (∀ t p, c.base.booting = some (t, p) → p.Asks B) ∧
      ∀ e ∈ c.base.history, B e.request ∨ ∃ m ∈ c.calls, m.thread = e.thread ∧
        P m.call e.request := by
    refine h.induct (P := fun c => (∀ t p, c.base.threads t = some p → ∃ m ∈ c.calls,
        m.thread = t ∧ p.Asks (P m.call)) ∧ (∀ t p, c.base.booting = some (t, p) → p.Asks B) ∧
      ∀ e ∈ c.base.history, B e.request ∨ ∃ m ∈ c.calls, m.thread = e.thread ∧
        P m.call e.request) ⟨?_, ?_, ?_⟩ ?_
    · intro t p ht
      cases ht
    · intro t p hb
      cases hb
      exact hboot
    · intro e he
      cases he
    have hcalling : ∀ (c : E.Config) id position r q k,
        (∀ t p, c.base.threads t = some p → ∃ m ∈ c.calls, m.thread = t ∧ p.Asks (P m.call)) →
        (∀ t p, (c.calling id position r q k).base.threads t = some p →
          ∃ m ∈ (c.calling id position r q k).calls, m.thread = t ∧ p.Asks (P m.call)) := by
      intro c id position r q k hlive t p ht
      rcases Discipline.live_update ht with ⟨rfl, hp⟩ | ⟨_, hp⟩
      · cases hp
        exact ⟨_, List.mem_cons_self, rfl, hbody q⟩
      · obtain ⟨m, hm, hrest⟩ := hlive t p hp
        exact ⟨m, List.mem_cons_of_mem _ hm, hrest⟩
    have hreturned : ∀ (c : E.Config) t a,
        (∀ t p, c.base.threads t = some p → ∃ m ∈ c.calls, m.thread = t ∧ p.Asks (P m.call)) →
        (∀ u p, (c.returned t a).base.threads u = some p →
          ∃ m ∈ c.calls, m.thread = u ∧ p.Asks (P m.call)) := by
      intro c t a hlive u p hu
      rcases Discipline.live_update hu with ⟨_, hp⟩ | ⟨_, hp⟩
      · cases hp
      · exact hlive u p hp
    have hkept : ∀ {m : E.Made} {calls : List E.Made} {e : Event M},
        (B e.request ∨ ∃ m ∈ calls, m.thread = e.thread ∧ P m.call e.request) →
        B e.request ∨ ∃ m' ∈ m :: calls, m'.thread = e.thread ∧ P m'.call e.request := by
      rintro m calls e (hb | ⟨m', hm', hrest⟩)
      · exact Or.inl hb
      · exact Or.inr ⟨m', List.mem_cons_of_mem _ hm', hrest⟩
    intro c c' _ ⟨hlive, hbooting, hmade⟩ hs
    cases hs with
    | accept _ hup _ =>
        exact ⟨hcalling c _ _ _ _ _ hlive, hbooting, fun e he => hkept (hmade e he)⟩
    | proceed ht _ _ _ _ =>
        exact ⟨hcalling _ _ _ _ _ _ (hreturned c _ _ hlive), hbooting,
          fun e he => hkept (hmade e he)⟩
    | finish ht _ _ => exact ⟨hreturned c _ _ hlive, hbooting, hmade⟩
    | inner hstep hnext hresults =>
        cases hstep with
        | call q _ _ => exact absurd hnext (Nat.succ_ne_self _)
        | @act t r k i ht =>
            obtain ⟨m, hm, hthread, hasks⟩ := hlive t _ ht
            refine ⟨fun u p hu => ?_, hbooting, fun e he => ?_⟩
            · rcases Discipline.live_update hu with ⟨rfl, hp⟩ | ⟨_, hp⟩
              · cases hp
                exact ⟨m, hm, hthread, hasks.2 _⟩
              · exact hlive u p hp
            · rcases List.mem_cons.mp he with rfl | he
              · exact Or.inr ⟨m, hm, hthread, hasks.1⟩
              · exact hmade e he
        | «return» _ => exact absurd hresults (List.cons_ne_self _ _)
        | interfere _ => exact ⟨hlive, hbooting, hmade⟩
        | crash => exact absurd hnext (Nat.succ_ne_self _)
        | @bootAct t r k i hb =>
            obtain ⟨hr, hk⟩ := hbooting t _ hb
            refine ⟨hlive, fun u p hu => ?_, fun e he => ?_⟩
            · cases hu
              exact hk _
            · rcases List.mem_cons.mp he with rfl | he
              · exact Or.inl hr
              · exact hmade e he
        | booted _ => exact ⟨hlive, fun _ _ hb => (by cases hb), hmade⟩
    | crash =>
        refine ⟨fun _ _ ht => (by cases ht), fun u p hu => ?_, hmade⟩
        cases hu
        exact hboot
  exact hinv.2.2

/-! ### Playing a run -/

/-- A move of a front end that can be carried out. -/
inductive Move (E : Frontend S) where
  | accept (r : E.Request) (i : M.Choice)
  /-- The call of a thread returns, and its session goes on or is over. -/
  | follow (t : ℕ)
  | act (t : ℕ) (i : M.Choice)
  | interfere (f : M.State → M.State) (allowed : ∀ s, M.environment s (f s))
  | boot (i : M.Choice)
  | serve

section play

variable (E) [∀ results q, Decidable (S.admits results q)]

/-- Carry out one move; a move that is not possible does nothing. -/
def move (c : E.Config) : Move E → E.Config
  | .accept r i =>
      match E.opens r i c.base.state with
      | some (q, k) =>
          if c.base.booting.isNone ∧ S.admits c.base.results q then c.calling c.base.next 0 r q k
          else c
      | none => c
  | .follow t =>
      match c.base.threads t, c.sessions t with
      | some (.pure a), some session =>
          match E.resumes session.state a with
          | some (q, k) =>
              if c.base.booting.isNone ∧ S.admits (a :: c.base.results) q then
                (c.returned t a).calling session.id (session.position + 1) session.request q k
              else c
          | none => c.returned t a
      | _, _ => c
  | .act t i => { c with base := S.move c.base (.act t i) }
  | .interfere f allowed => { c with base := S.move c.base (.interfere f allowed) }
  | .boot i => { c with base := S.move c.base (.boot i) }
  | .serve => { c with base := S.move c.base .serve }

/-- Carry out moves one after the other. -/
def play (c : E.Config) (moves : List (Move E)) : E.Config := moves.foldl E.move c

variable {E}

theorem move_run (c : E.Config) (m : Move E) : E.Run c (E.move c m) := by
  cases m with
  | accept r i =>
      rw [move]
      split
      · next q k ho =>
          split
          · next hq =>
              exact Relation.ReflTransGen.single
                (.accept ho (Option.isNone_iff_eq_none.mp hq.1) hq.2)
          · exact Relation.ReflTransGen.refl
      · exact Relation.ReflTransGen.refl
  | follow t =>
      rw [move]
      split
      · next a session ht hs =>
          split
          · next q k hres =>
              split
              · next hq =>
                  exact Relation.ReflTransGen.single
                    (.proceed ht hs hres (Option.isNone_iff_eq_none.mp hq.1) hq.2)
              · exact Relation.ReflTransGen.refl
          · next hres => exact Relation.ReflTransGen.single (.finish ht hs hres)
      · exact Relation.ReflTransGen.refl
  | act t i =>
      rw [move, Service.move]
      split
      · next ht => exact Relation.ReflTransGen.single (.inner (.act i ht) rfl rfl)
      · exact Relation.ReflTransGen.refl
  | interfere f allowed =>
      exact Relation.ReflTransGen.single (.inner (.interfere (allowed _)) rfl rfl)
  | boot i =>
      rw [move, Service.move]
      split
      · next hb => exact Relation.ReflTransGen.single (.inner (.bootAct i hb) rfl rfl)
      · exact Relation.ReflTransGen.refl
  | serve =>
      rw [move, Service.move]
      split
      · next hb => exact Relation.ReflTransGen.single (.inner (.booted hb) rfl rfl)
      · exact Relation.ReflTransGen.refl

/-- What has been played is a run. -/
theorem play_run (c : E.Config) (moves : List (Move E)) : E.Run c (E.play c moves) := by
  induction moves generalizing c with
  | nil => exact Relation.ReflTransGen.refl
  | cons m moves ih => exact (move_run c m).trans (ih (E.move c m))

end play

end Frontend

end Process

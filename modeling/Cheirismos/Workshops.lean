import Cheirismos.Dialogues

/-! # A service beside a device

Some requests of a service are carried out by jobs: programs over an interface of their own, which
run one at a time against a device and keep a memory from job to job.

* `Workshop` says which requests these are, what their jobs are, and how the device moves.  A
  chore is a job that no request of the service waits for.
* `Workshop.Step` interleaves the exchanges of the job with the moves of the service.  A job may be
  cut off at any moment; a crash of the service ends it too.  The service gets on with a request
  when its job has an outcome, and only then.
* `Contract` is what each job by itself keeps.  Only the jobs of the requests that `own` the device
  may move it.

Two things are then shown of every run.  The device only moves in a job of a request that owns it
(`Reachable.moved`).  And what the contract says of a job when it ends stays true of the device
until its request is answered, and after that as long as nobody can wait for the device
(`Reachable.kept`); for the former it is enough that two requests that own the device are never
waiting together. -/

namespace Process

variable {F : Interface} {α : Type}

/-! ### Programs under way -/

/-- The program has made these exchanges, and the rest of it is left. -/
inductive Program.Leads : Program F α → List (Exchange F) → Program F α → Prop
  | start (p : Program F α) : Leads p [] p
  | answered {r : F.Request} {next : F.Answer r → Program F α} {v : F.Answer r}
      {tr : List (Exchange F)} {p : Program F α} (rest : Leads (next v) tr p) :
      Leads (.ask r next) (⟨r, some v⟩ :: tr) p

namespace Program.Leads

variable {p q : Program F α} {tr : List (Exchange F)}

/-- Go on from where the program has got to. -/
theorem runs (h : Leads p tr q) {tr' : List (Exchange F)} {o : Option α} (hq : Runs q tr' o) :
    Runs p (tr ++ tr') o := by
  induction h with
  | start p => exact hq
  | answered rest ih => exact .answered (ih hq)

theorem snoc {r : F.Request} {next : F.Answer r → Program F α} (h : Leads p tr (.ask r next))
    (v : F.Answer r) : Leads p (tr ++ [⟨r, some v⟩]) (next v) := by
  generalize hq : Program.ask r next = q at h
  induction h with
  | start p =>
      subst hq
      exact .answered (.start _)
  | answered rest ih => exact .answered (ih hq)

end Program.Leads

/-! ### Workshops -/

/-- How some requests of a service are carried out at a device. -/
structure Workshop (M : Machine F) where
  tools : Interface
  Device : Type
  move : Device → Exchange tools → Device → Prop
  Memory : Type
  blank : Memory
  Outcome : Type
  cutOff : Outcome
  hosts : F.Request → Prop
  job : F.Request → Memory → Program tools (Outcome × Memory) → Prop
  chore : Memory → Program tools (Outcome × Memory) → Prop
  gives : Outcome → M.Choice → Prop

namespace Workshop

variable {M : Machine F} (W : Workshop M) (S : Service M)

/-- What is left of a job. -/
abbrev Job : Type := Program W.tools (W.Outcome × W.Memory)

/-- The service, the device, the memory between jobs, the job under way with the thread that waits
for it, and the outcomes that have not been answered yet. -/
structure Config where
  base : S.Config
  device : W.Device
  memory : W.Memory
  work : Option (Option ℕ × W.Job)
  outcomes : ℕ → Option W.Outcome

variable {W S}

/-- The thread waits for a job. -/
def Waits (W : Workshop M) (c : S.Config) (t : ℕ) (r : F.Request) : Prop :=
  W.hosts r ∧ ∃ k, c.threads t = some (.ask r k)

/-- A move of the service that has nothing to do with the requests for jobs. -/
structure Spares (W : Workshop M) (c c' : S.Config) : Prop where
  waiting : ∀ t r, W.Waits c t r → c'.threads t = c.threads t
  unanswered : ∀ e, c'.history = e :: c.history → ¬ W.hosts e.request

/-- What cutting off a job can do to the device: the last request may still have reached it. -/
def Cuts (W : Workshop M) (d : W.Device) (p : W.Job) (d' : W.Device) : Prop :=
  d' = d ∨ ∃ r next, p = .ask r next ∧ W.move d ⟨r, none⟩ d'

/-- Keep the outcome for the thread that waits for it. -/
def Config.report (x : W.Config S) (w : Option ℕ) (o : W.Outcome) : ℕ → Option W.Outcome :=
  match w with
  | some t => Function.update x.outcomes t (some o)
  | none => x.outcomes

theorem Config.report_own (x : W.Config S) {t : ℕ} {o : W.Outcome} :
    x.report (some t) o t = some o := by
  rw [Config.report, Function.update_self]

theorem Config.report_other (x : W.Config S) {t u : ℕ} {o : W.Outcome} (h : t ≠ u) :
    x.report (some u) o t = x.outcomes t := by
  rw [Config.report, Function.update_of_ne h]

/-- The moves of the service, of the job and of the device. -/
inductive Step : W.Config S → W.Config S → Prop
  | serve {x : W.Config S} {c : S.Config} : S.Step x.base c → W.Spares x.base c →
      Step x { x with base := c }
  | start {x : W.Config S} {t : ℕ} {r : F.Request} {p : W.Job} : x.work = none →
      W.Waits x.base t r → x.outcomes t = none → W.job r x.memory p →
      Step x { x with work := some (some t, p) }
  | chore {x : W.Config S} {p : W.Job} : x.work = none → W.chore x.memory p →
      Step x { x with work := some (none, p) }
  | exchange {x : W.Config S} {w : Option ℕ} {r : W.tools.Request}
      {next : W.tools.Answer r → W.Job} {v : W.tools.Answer r} {d : W.Device} :
      x.work = some (w, .ask r next) → W.move x.device ⟨r, some v⟩ d →
      Step x { x with
        device := d
        work := some (w, next v) }
  | finish {x : W.Config S} {w : Option ℕ} {o : W.Outcome} {m : W.Memory} :
      x.work = some (w, .pure (o, m)) →
      Step x { x with
        memory := m
        work := none
        outcomes := x.report w o }
  | cut {x : W.Config S} {w : Option ℕ} {p : W.Job} {d : W.Device} : x.work = some (w, p) →
      W.Cuts x.device p d →
      Step x { x with
        device := d
        memory := W.blank
        work := none
        outcomes := x.report w W.cutOff }
  | answer {x : W.Config S} {t : ℕ} {r : F.Request} {k : F.Answer r → Program F S.Result}
      {o : W.Outcome} (i : M.Choice) : W.hosts r → x.base.threads t = some (.ask r k) →
      x.outcomes t = some o → W.gives o i →
      Step x { x with
        base := { x.base with
          state := (M.perform r i x.base.state).2
          history := ⟨t, r, i, x.base.state⟩ :: x.base.history
          threads := Function.update x.base.threads t (some (k (M.perform r i x.base.state).1)) }
        outcomes := Function.update x.outcomes t none }
  | crash {x : W.Config S} {d : W.Device} :
      (d = x.device ∨ ∃ w p, x.work = some (w, p) ∧ W.Cuts x.device p d) →
      Step x ⟨x.base.crashed, d, W.blank, none, fun _ => none⟩

/-- The first start, with the device as it is found. -/
def start (d : W.Device) : W.Config S := ⟨S.start, d, W.blank, none, fun _ => none⟩

/-- The configurations of all runs. -/
def Reachable (x : W.Config S) : Prop := ∃ d, Relation.ReflTransGen Step (start d) x

theorem Reachable.step {x x' : W.Config S} (h : Reachable x) (hs : Step x x') : Reachable x' := by
  obtain ⟨d, hd⟩ := h
  exact ⟨d, hd.tail hs⟩

/-- The service itself makes its own moves only. -/
theorem Step.base {x x' : W.Config S} (h : Step x x') : S.Run x.base x'.base := by
  cases h with
  | serve hs _ => exact Relation.ReflTransGen.single hs
  | answer i _ ht _ _ => exact Relation.ReflTransGen.single (.act i ht)
  | crash _ => exact Relation.ReflTransGen.single .crash
  | _ => exact Relation.ReflTransGen.refl

theorem Reachable.base {x : W.Config S} (h : Reachable x) : S.Reachable x.base := by
  obtain ⟨d, hd⟩ := h
  induction hd with
  | refl => exact Relation.ReflTransGen.refl
  | tail _ hs ih => exact ih.run hs.base

/-! ### What jobs keep -/

/-- What each job keeps: `valid` is about the memory, and `post` about the outcome and the device
when the job ends.  A job of a request that does not own the device leaves it as it is, and its
outcome says nothing about the device. -/
structure Contract (W : Workshop M) (owns : F.Request → Prop) (valid : W.Memory → Prop)
    (post : F.Request → W.Outcome → W.Device → Prop) : Prop where
  blank : valid W.blank
  cutOff : ∀ r d, post r W.cutOff d
  memory : ∀ r m p tr o m', W.job r m p → valid m → p.Runs tr (some (o, m')) → valid m'
  done : ∀ r m p tr o m' d d', W.job r m p → valid m → owns r → p.Runs tr (some (o, m')) →
    Tracks W.move d tr d' → post r o d'
  harmless : ∀ r m p tr o d d', W.job r m p → valid m → ¬ owns r → p.Runs tr o →
    Tracks W.move d tr d' → d' = d ∧ ∀ x m', o = some (x, m') → ∀ e, post r x e
  chore : ∀ m p tr o d d', W.chore m p → valid m → p.Runs tr o → Tracks W.move d tr d' →
    d' = d ∧ ∀ x m', o = some (x, m') → valid m'

/-- A job that is under way for the thread, or a chore. -/
inductive Working (valid : W.Memory → Prop) (x : W.Config S) : Option ℕ → W.Job → Prop
  | job {t : ℕ} {r : F.Request} {m : W.Memory} {p₀ p : W.Job} {d : W.Device}
      {tr : List (Exchange W.tools)} (waits : W.Waits x.base t r) (pending : x.outcomes t = none)
      (starts : W.job r m p₀) (sound : valid m) (leads : p₀.Leads tr p)
      (tracks : Tracks W.move d tr x.device) : Working valid x (some t) p
  | chore {m : W.Memory} {p₀ p : W.Job} {d : W.Device} {tr : List (Exchange W.tools)}
      (starts : W.chore m p₀) (sound : valid m) (leads : p₀.Leads tr p)
      (tracks : Tracks W.move d tr x.device) : Working valid x none p

/-- The outcome agrees with the device, or it says nothing about it. -/
def Settled (W : Workshop M) (owns : F.Request → Prop)
    (post : F.Request → W.Outcome → W.Device → Prop) (d : W.Device) (r : F.Request)
    (o : W.Outcome) : Prop :=
  post r o d ∧ (¬ owns r → ∀ e, post r o e)

theorem Settled.moved {owns : F.Request → Prop} {post : F.Request → W.Outcome → W.Device → Prop}
    {d d' : W.Device} {r : F.Request} {o : W.Outcome} (h : W.Settled owns post d r o)
    (hd : owns r → d' = d) : W.Settled owns post d' r o := by
  by_cases howns : owns r
  · obtain rfl := hd howns
    exact h
  · exact ⟨h.2 howns d', h.2⟩

/-- Two requests that own the device are never waiting together. -/
def Exclusive (W : Workshop M) (S : Service M) (owns : F.Request → Prop) : Prop :=
  ∀ c : S.Config, S.Reachable c → ∀ t r u r', W.Waits c t r → owns r → W.Waits c u r' → owns r' →
    t = u

/-- `free c e` says that since the answer `e` nobody can have waited for the device; it is lost for
good when somebody does. -/
structure Frees (W : Workshop M) (S : Service M) (owns : F.Request → Prop)
    (free : S.Config → Event M → Prop) : Prop where
  nobody : ∀ c e, S.Reachable c → e ∈ c.history → W.hosts e.request → owns e.request → free c e →
    ∀ t r, W.Waits c t r → ¬ owns r
  back : ∀ c c' e, S.Reachable c → S.Step c c' → e ∈ c.history → free c' e → free c e

section contract

variable {owns : F.Request → Prop} {valid : W.Memory → Prop}
  {post : F.Request → W.Outcome → W.Device → Prop} {free : S.Config → Event M → Prop}

/-- What holds of every reachable configuration. -/
structure Kept (owns : F.Request → Prop) (valid : W.Memory → Prop)
    (post : F.Request → W.Outcome → W.Device → Prop) (free : S.Config → Event M → Prop)
    (x : W.Config S) : Prop where
  base : S.Reachable x.base
  memory : valid x.memory
  working : ∀ w p, x.work = some (w, p) → Working valid x w p
  outcomes : ∀ t o, x.outcomes t = some o → ∃ r, W.Waits x.base t r ∧
    W.Settled owns post x.device r o
  answers : ∀ e ∈ x.base.history, W.hosts e.request → (owns e.request → free x.base e) →
    ∃ o, W.gives o e.choice ∧ W.Settled owns post x.device e.request o

theorem Waits.eq {c : S.Config} {t : ℕ} {r r' : F.Request} (h : W.Waits c t r)
    (h' : W.Waits c t r') : r' = r := by
  obtain ⟨_, k, hk⟩ := h
  obtain ⟨_, k', hk'⟩ := h'
  rw [hk] at hk'
  cases hk'
  rfl

/-- Whoever waits for a job goes on waiting. -/
theorem Spares.waits {c c' : S.Config} (h : W.Spares c c') {t : ℕ} {r : F.Request}
    (hw : W.Waits c t r) : W.Waits c' t r := by
  obtain ⟨k, hk⟩ := hw.2
  exact ⟨hw.1, k, (h.waiting t r hw).trans hk⟩

/-- A move that spares the requests for jobs answers none. -/
theorem Spares.old {c c' : S.Config} (h : W.Spares c c') (hs : S.Step c c') {e : Event M}
    (he : e ∈ c'.history) (hhosts : W.hosts e.request) : e ∈ c.history := by
  have hsuf : c'.history = c.history ∨ ∃ e', c'.history = e' :: c.history := by
    cases hs with
    | act i ht => exact Or.inr ⟨_, rfl⟩
    | bootAct i hb => exact Or.inr ⟨_, rfl⟩
    | _ => exact Or.inl rfl
  rcases hsuf with heq | ⟨e', heq⟩
  · rwa [heq] at he
  · rw [heq] at he
    rcases List.mem_cons.mp he with rfl | he
    · exact absurd hhosts (h.unanswered _ heq)
    · exact he

namespace Working

variable {x : W.Config S} {w : Option ℕ} {p : W.Job}

/-- The job goes on from another configuration that agrees with this one. -/
theorem congr {x' : W.Config S} (h : Working valid x w p)
    (hwaits : ∀ t r, W.Waits x.base t r → W.Waits x'.base t r)
    (houtcomes : ∀ t, w = some t → x.outcomes t = none → x'.outcomes t = none)
    (hdevice : x'.device = x.device) : Working valid x' w p := by
  cases h with
  | job waits pending starts hvalid leads tracks =>
      exact .job (hwaits _ _ waits) (houtcomes _ rfl pending) starts hvalid leads
        (hdevice ▸ tracks)
  | chore starts hvalid leads tracks => exact .chore starts hvalid leads (hdevice ▸ tracks)

/-- The next exchange. -/
theorem exchange {r : W.tools.Request} {next : W.tools.Answer r → W.Job} {v : W.tools.Answer r}
    {d : W.Device} (h : Working valid x w (.ask r next)) (hm : W.move x.device ⟨r, some v⟩ d) :
    Working valid { x with
      device := d
      work := some (w, next v) } w (next v) := by
  have hlast : Tracks W.move x.device [⟨r, some v⟩] d := .cons hm (.nil d)
  cases h with
  | job waits pending starts hvalid leads tracks =>
      exact .job waits pending starts hvalid (leads.snoc v) (tracks.append hlast)
  | chore starts hvalid leads tracks =>
      exact .chore starts hvalid (leads.snoc v) (tracks.append hlast)

/-- Wherever the job gets, it has not moved the device, or its request owns it. -/
theorem moved (hc : Contract W owns valid post) (h : Working valid x w p)
    {tr : List (Exchange W.tools)} {o : Option (W.Outcome × W.Memory)} {d : W.Device}
    (hr : p.Runs tr o) (ht : Tracks W.move x.device tr d) :
    d = x.device ∨ ∃ t r, w = some t ∧ W.Waits x.base t r ∧ owns r ∧ x.outcomes t = none := by
  cases h with
  | @job t r m p₀ _ d₀ tr₀ waits pending starts hvalid leads tracks =>
      by_cases howns : owns r
      · exact Or.inr ⟨t, r, rfl, waits, howns, pending⟩
      · obtain ⟨hnow, _⟩ := hc.harmless _ _ _ _ _ _ _ starts hvalid howns
          (leads.runs (.cut p)) (by rw [List.append_nil]; exact tracks)
        obtain ⟨hthen, _⟩ := hc.harmless _ _ _ _ _ _ _ starts hvalid howns (leads.runs hr)
          (tracks.append ht)
        exact Or.inl (hthen.trans hnow.symm)
  | @chore m p₀ _ d₀ tr₀ starts hvalid leads tracks =>
      obtain ⟨hnow, _⟩ := hc.chore _ _ _ _ _ _ starts hvalid (leads.runs (.cut p))
        (by rw [List.append_nil]; exact tracks)
      obtain ⟨hthen, _⟩ := hc.chore _ _ _ _ _ _ starts hvalid (leads.runs hr) (tracks.append ht)
      exact Or.inl (hthen.trans hnow.symm)

/-- The same when the job is cut off. -/
theorem cut (hc : Contract W owns valid post) (h : Working valid x w p) {d : W.Device}
    (hcut : W.Cuts x.device p d) :
    d = x.device ∨ ∃ t r, w = some t ∧ W.Waits x.base t r ∧ owns r ∧ x.outcomes t = none := by
  rcases hcut with rfl | ⟨r, next, rfl, hm⟩
  · exact Or.inl rfl
  · exact h.moved hc (.waiting r next) (.cons hm (.nil d))

end Working

namespace Kept

variable {x : W.Config S}

/-- Whatever is said of the device stays true, for only a request that owns it can move it. -/
theorem settled (hexcl : Exclusive W S owns) (hfree : Frees W S owns free)
    (h : Kept owns valid post free x) {d : W.Device}
    (hd : d = x.device ∨ ∃ t r, W.Waits x.base t r ∧ owns r ∧ x.outcomes t = none) :
    (∀ t o, x.outcomes t = some o → ∃ r, W.Waits x.base t r ∧ W.Settled owns post d r o) ∧
    ∀ e ∈ x.base.history, W.hosts e.request → (owns e.request → free x.base e) →
      ∃ o, W.gives o e.choice ∧ W.Settled owns post d e.request o := by
  rcases hd with rfl | ⟨t, r, hwaits, howns, hpending⟩
  · exact ⟨h.outcomes, h.answers⟩
  · refine ⟨fun u o ho => ?_, fun e he hhosts hf => ?_⟩
    · obtain ⟨r', hwaits', hsettled⟩ := h.outcomes u o ho
      refine ⟨r', hwaits', hsettled.moved fun howns' => ?_⟩
      obtain rfl := hexcl x.base h.base t r u r' hwaits howns hwaits' howns'
      rw [hpending] at ho
      cases ho
    · obtain ⟨o, hgives, hsettled⟩ := h.answers e he hhosts hf
      refine ⟨o, hgives, hsettled.moved fun howns' => ?_⟩
      exact absurd howns (hfree.nobody x.base e h.base he hhosts howns' (hf howns') t r hwaits)

theorem start (hc : Contract W owns valid post) (d : W.Device) :
    Kept owns valid post free (Workshop.start d : W.Config S) where
  base := Relation.ReflTransGen.refl
  memory := hc.blank
  working w p hw := by cases hw
  outcomes t o ho := by cases ho
  answers e he := by cases he

/-- An outcome is kept for whoever waits for it. -/
theorem report {w : Option ℕ} {p : W.Job} {d : W.Device} {o : W.Outcome}
    (hout : ∀ t o, x.outcomes t = some o → ∃ r, W.Waits x.base t r ∧ W.Settled owns post d r o)
    (hwork : Working valid x w p)
    (ho : ∀ t r, w = some t → W.Waits x.base t r → W.Settled owns post d r o) :
    ∀ t o', x.report w o t = some o' → ∃ r, W.Waits x.base t r ∧ W.Settled owns post d r o' := by
  intro t o' hreport
  cases hwork with
  | chore starts hvalid leads tracks => exact hout t o' hreport
  | @job u r m p₀ _ d₀ tr₀ waits pending starts hvalid leads tracks =>
      by_cases htu : t = u
      · subst htu
        rw [x.report_own] at hreport
        cases hreport
        exact ⟨r, waits, ho t r rfl waits⟩
      · rw [x.report_other htu] at hreport
        exact hout t o' hreport

/-- A job that has ended. -/
theorem finished (hc : Contract W owns valid post) (h : Kept owns valid post free x)
    {w : Option ℕ} {o : W.Outcome} {m : W.Memory} (hw : x.work = some (w, .pure (o, m))) :
    valid m ∧ ∀ t r, w = some t → W.Waits x.base t r → W.Settled owns post x.device r o := by
  have hended := Program.Runs.ended (F := W.tools) (o, m)
  cases h.working _ _ hw with
  | @job u r m₀ p₀ _ d₀ tr₀ waits pending starts hvalid leads tracks =>
      have hruns := leads.runs hended
      rw [List.append_nil] at hruns
      refine ⟨hc.memory _ _ _ _ _ _ starts hvalid hruns, fun t r' ht hwaits => ?_⟩
      cases ht
      obtain rfl := waits.eq hwaits
      by_cases howns : owns r'
      · exact ⟨hc.done _ _ _ _ _ _ _ _ starts hvalid howns hruns tracks, fun h => absurd howns h⟩
      · obtain ⟨_, hpost⟩ := hc.harmless _ _ _ _ _ _ _ starts hvalid howns hruns tracks
        exact ⟨hpost o m rfl x.device, fun _ => hpost o m rfl⟩
  | chore starts hvalid leads tracks =>
      have hruns := leads.runs hended
      rw [List.append_nil] at hruns
      obtain ⟨_, hmemory⟩ := hc.chore _ _ _ _ _ _ starts hvalid hruns tracks
      exact ⟨hmemory o m rfl, fun t r ht => by cases ht⟩

variable (hc : Contract W owns valid post) (hexcl : Exclusive W S owns)
  (hfree : Frees W S owns free)

include hc hexcl hfree

theorem step {x' : W.Config S} (h : Kept owns valid post free x) (hs : Step x x') :
    Kept owns valid post free x' := by
  have hbase : S.Reachable x'.base := h.base.run hs.base
  cases hs with
  | @serve c hstep hspares =>
      refine ⟨hbase, h.memory, fun w p hw => ?_, fun t o ho => ?_, fun e he hhosts hf => ?_⟩
      · exact (h.working w p hw).congr (fun _ _ => hspares.waits) (fun _ _ h => h) rfl
      · obtain ⟨r, hwaits, hsettled⟩ := h.outcomes t o ho
        exact ⟨r, hspares.waits hwaits, hsettled⟩
      · have hold := hspares.old hstep he hhosts
        exact h.answers e hold hhosts fun ho => hfree.back _ _ e h.base hstep hold (hf ho)
  | start hidle hwaits hpending hjob =>
      refine ⟨hbase, h.memory, fun w p hw => ?_, h.outcomes, h.answers⟩
      cases hw
      exact .job hwaits hpending hjob h.memory (.start _) (.nil _)
  | chore hidle hchore =>
      refine ⟨hbase, h.memory, fun w p hw => ?_, h.outcomes, h.answers⟩
      cases hw
      exact .chore hchore h.memory (.start _) (.nil _)
  | @exchange w r next v d hw hm =>
      have hwork := h.working _ _ hw
      obtain ⟨hout, hans⟩ := h.settled hexcl hfree (d := d) ((hwork.moved hc
        (.answered (.cut (next v))) (.cons hm (.nil d))).imp_right
          fun ⟨t, r, _, hrest⟩ => ⟨t, r, hrest⟩)
      refine ⟨hbase, h.memory, fun w' p' hw' => ?_, hout, hans⟩
      cases hw'
      exact hwork.exchange hm
  | @finish w o m hw =>
      obtain ⟨hmemory, ho⟩ := h.finished hc hw
      exact ⟨hbase, hmemory, fun w p hw => (by cases hw),
        report h.outcomes (h.working _ _ hw) ho, h.answers⟩
  | @cut w p d hw hcut =>
      have hwork := h.working _ _ hw
      obtain ⟨hout, hans⟩ := h.settled hexcl hfree (d := d) ((hwork.cut hc hcut).imp_right
        fun ⟨t, r, _, hrest⟩ => ⟨t, r, hrest⟩)
      exact ⟨hbase, hc.blank, fun w p hw => (by cases hw),
        report hout hwork fun t r _ _ => ⟨hc.cutOff r d, fun _ => hc.cutOff r⟩, hans⟩
  | @answer t r k o i hhosts ht ho hgives =>
      have hmine : W.Waits x.base t r := ⟨hhosts, k, ht⟩
      have hstill : ∀ u r', u ≠ t → W.Waits x.base u r' → W.Waits { x.base with
          state := (M.perform r i x.base.state).2
          history := ⟨t, r, i, x.base.state⟩ :: x.base.history
          threads := Function.update x.base.threads t (some (k (M.perform r i x.base.state).1)) }
          u r' := fun u r' hu hw => ⟨hw.1, hw.2.imp fun k' hk' =>
            (Function.update_of_ne hu _ x.base.threads).trans hk'⟩
      refine ⟨hbase, h.memory, fun w p hw => ?_, fun u o' ho' => ?_, fun e he hhosts' hf => ?_⟩
      · cases h.working w p hw with
        | @job u r' m p₀ _ d₀ tr₀ waits pending starts hvalid leads tracks =>
            have hu : u ≠ t := by
              rintro rfl
              rw [pending] at ho
              cases ho
            exact .job (hstill u r' hu waits)
              ((Function.update_of_ne hu _ x.outcomes).trans pending) starts hvalid leads tracks
        | chore starts hvalid leads tracks => exact .chore starts hvalid leads tracks
      · by_cases hu : u = t
        · subst hu
          have hnone : (none : Option W.Outcome) = some o' :=
            (Function.update_self u none x.outcomes).symm.trans ho'
          cases hnone
        · obtain ⟨r', hwaits, hsettled⟩ :=
            h.outcomes u o' ((Function.update_of_ne hu none x.outcomes).symm.trans ho')
          exact ⟨r', hstill u r' hu hwaits, hsettled⟩
      · rcases List.mem_cons.mp he with rfl | he
        · obtain ⟨r', hwaits, hsettled⟩ := h.outcomes t o ho
          obtain rfl := hwaits.eq hmine
          exact ⟨o, hgives, hsettled⟩
        · exact h.answers e he hhosts' fun ho => hfree.back _ _ e h.base (.act i ht) he (hf ho)
  | @crash d hd =>
      obtain ⟨_, hans⟩ := h.settled hexcl hfree (d := d) (by
        rcases hd with rfl | ⟨w, p, hw, hcut⟩
        · exact Or.inl rfl
        · exact ((h.working w p hw).cut hc hcut).imp_right fun ⟨t, r, _, hrest⟩ => ⟨t, r, hrest⟩)
      refine ⟨hbase, hc.blank, fun w p hw => (by cases hw), fun t o ho => (by cases ho),
        fun e he hhosts hf => ?_⟩
      exact hans e he hhosts fun ho => hfree.back _ _ e h.base .crash he (hf ho)

end Kept

variable (hc : Contract W owns valid post) (hexcl : Exclusive W S owns)
  (hfree : Frees W S owns free)

include hc hexcl hfree

theorem Reachable.all {x : W.Config S} (h : Reachable x) : Kept owns valid post free x := by
  obtain ⟨d, hd⟩ := h
  induction hd with
  | refl => exact .start hc d
  | tail _ hs ih => exact ih.step hc hexcl hfree hs

/-- What an answer says of the device is true as long as nobody can have waited for it since. -/
theorem Reachable.kept {x : W.Config S} (h : Reachable x) {e : Event M}
    (he : e ∈ x.base.history) (hhosts : W.hosts e.request)
    (hf : owns e.request → free x.base e) :
    ∃ o, W.gives o e.choice ∧ post e.request o x.device := by
  obtain ⟨o, hgives, hpost, _⟩ := (h.all hc hexcl hfree).answers e he hhosts hf
  exact ⟨o, hgives, hpost⟩

/-- The device only moves in a job of a request that owns it. -/
theorem Reachable.moved {x x' : W.Config S} (h : Reachable x) (hs : Step x x')
    (hd : x'.device ≠ x.device) :
    ∃ t r p, x.work = some (some t, p) ∧ W.Waits x.base t r ∧ owns r := by
  have hall := h.all hc hexcl hfree
  have hwork : ∀ w p d, x.work = some (w, p) → W.Cuts x.device p d → d ≠ x.device →
      ∃ t r p, x.work = some (some t, p) ∧ W.Waits x.base t r ∧ owns r := by
    intro w p d hw hcut hne
    obtain ⟨t, r, rfl, hwaits, howns, _⟩ := ((hall.working w p hw).cut hc hcut).resolve_left hne
    exact ⟨t, r, p, hw, hwaits, howns⟩
  cases hs with
  | @exchange w r next v d hw hm =>
      obtain ⟨t, r', rfl, hwaits, howns, _⟩ := ((hall.working _ _ hw).moved hc
        (.answered (.cut (next v))) (.cons hm (.nil d))).resolve_left hd
      exact ⟨t, r', _, hw, hwaits, howns⟩
  | cut hw hcut => exact hwork _ _ _ hw hcut hd
  | crash hcrash =>
      rcases hcrash with heq | ⟨w, p, hw, hcut⟩
      · exact absurd heq hd
      · exact hwork w p _ hw hcut hd
  | _ => exact absurd rfl hd

end contract

/-! ### Playing a run -/

/-- Threads that no call has been given yet run nothing. -/
theorem unused {c : S.Config} (h : S.Reachable c) : ∀ t, c.next ≤ t → c.threads t = none := by
  refine h.induct (P := fun c => ∀ t, c.next ≤ t → c.threads t = none) (fun _ _ => rfl) ?_
  intro c c' _ ih hs t ht
  cases hs with
  | call q _ _ =>
      have hlt : c.next < t := ht
      exact (Function.update_of_ne (Nat.ne_of_gt hlt) _ _).trans (ih t (Nat.le_of_lt hlt))
  | @act u r k i hu =>
      by_cases htu : t = u
      · subst htu
        have hnone : c.threads t = none := ih t ht
        rw [hu] at hnone
        cases hnone
      · exact (Function.update_of_ne htu _ _).trans (ih t ht)
  | @«return» u a hu =>
      by_cases htu : t = u
      · subst htu
        exact Function.update_self t none c.threads
      · exact (Function.update_of_ne htu _ _).trans (ih t ht)
  | crash => rfl
  | _ => exact ih t ht

/-- A move that changes one thread, which waits for no job. -/
theorem Spares.update {c c' : S.Config} {t : ℕ} {p : Option (Program F S.Result)}
    (hthreads : c'.threads = Function.update c.threads t p) (ht : ∀ r, ¬ W.Waits c t r)
    (hquiet : ∀ e, c'.history = e :: c.history → ¬ W.hosts e.request) : W.Spares c c' := by
  refine ⟨fun u r hu => ?_, hquiet⟩
  have hne : u ≠ t := by
    rintro rfl
    exact ht r hu
  rw [hthreads]
  exact Function.update_of_ne hne p c.threads

/-- A request that is not for a job. -/
theorem Step.act {x : W.Config S} {t : ℕ} {r : F.Request} {k : F.Answer r → Program F S.Result}
    (i : M.Choice) (hk : x.base.threads t = some (.ask r k)) (hr : ¬ W.hosts r) :
    Step x { x with base := { x.base with
      state := (M.perform r i x.base.state).2
      history := ⟨t, r, i, x.base.state⟩ :: x.base.history
      threads := Function.update x.base.threads t
        (some (k (M.perform r i x.base.state).1)) } } := by
  refine .serve (.act i hk) (.update rfl ?_ fun e he => ?_)
  · rintro r' ⟨hhosts, k', hk'⟩
    rw [hk] at hk'
    cases hk'
    exact hr hhosts
  · obtain ⟨rfl, _⟩ := List.cons.inj he
    exact hr

/-- The move is a crash. -/
def crashes : Move S → Bool
  | .crash => true
  | _ => false

section play

variable [∀ results q, Decidable (S.admits results q)]

/-- Any move but a crash, unless it answers a request for a job. -/
theorem move_steps {x : W.Config S} (h : S.Reachable x.base) {m : Move S} (hm : crashes m = false)
    (hquiet : ∀ e, (S.move x.base m).history = e :: x.base.history → ¬ W.hosts e.request) :
    Relation.ReflTransGen Step x { x with base := S.move x.base m } := by
  have hsame : ∀ e : Event M, x.base.history = e :: x.base.history → ¬ W.hosts e.request :=
    fun e he => absurd he (List.cons_ne_self e _).symm
  cases m with
  | crash => cases hm
  | call q =>
      rw [Service.move]
      split
      · next hq =>
          have hstep : S.Step x.base (x.base.begun q) :=
            .call q (Option.isNone_iff_eq_none.mp hq.1) hq.2
          refine .single (.serve hstep (.update rfl ?_ hsame))
          rintro r ⟨_, k, hk⟩
          rw [unused h _ (Nat.le_refl _)] at hk
          cases hk
      · exact .refl
  | act t i =>
      rw [Service.move] at hquiet ⊢
      split
      · next r k hk =>
          rw [hk] at hquiet
          exact .single (.act i hk (hquiet _ rfl))
      · exact .refl
  | «return» t =>
      rw [Service.move]
      split
      · next a hk =>
          refine .single (.serve (.return hk) (.update rfl ?_ hsame))
          rintro r ⟨_, k', hk'⟩
          rw [hk] at hk'
          cases hk'
      · exact .refl
  | interfere f allowed =>
      exact .single (.serve (.interfere (allowed _)) ⟨fun _ _ _ => rfl, hsame⟩)
  | boot i =>
      rw [Service.move] at hquiet ⊢
      split
      · next hk =>
          rw [hk] at hquiet
          exact .single (.serve (.bootAct i hk) ⟨fun _ _ _ => rfl, hquiet⟩)
      · exact .refl
  | serve =>
      rw [Service.move]
      split
      · next hk => exact .single (.serve (.booted hk) ⟨fun _ _ _ => rfl, hsame⟩)
      · exact .refl

/-- Moves without a crash that answer no request for a job are moves of the workshop. -/
theorem play_steps (moves : List (Move S)) {x : W.Config S} (h : S.Reachable x.base)
    (hmoves : ∀ m ∈ moves, crashes m = false)
    (hquiet : ∀ new, (S.play x.base moves).history = new ++ x.base.history →
      ∀ e ∈ new, ¬ W.hosts e.request) :
    Relation.ReflTransGen Step x { x with base := S.play x.base moves } := by
  induction moves generalizing x with
  | nil => exact .refl
  | cons m moves ih =>
      have hmove := Service.move_run x.base m
      have hplay := Service.play_run (S.move x.base m) moves
      obtain ⟨first, hfirst⟩ := hmove.history_suffix
      obtain ⟨rest, hrest⟩ := hplay.history_suffix
      have hall := hquiet (rest ++ first) (by
        rw [List.append_assoc, hfirst]
        exact hrest.symm)
      refine (move_steps h (hmoves m List.mem_cons_self) fun e he => ?_).trans
        (ih (x := { x with base := S.move x.base m }) (h.run hmove)
          (fun m' hm' => hmoves m' (List.mem_cons_of_mem m hm')) fun new hnew e he => ?_)
      · obtain rfl : first = [e] := List.append_cancel_right (hfirst.trans he)
        exact hall e (List.mem_append_right rest List.mem_cons_self)
      · obtain rfl : rest = new := List.append_cancel_right (hrest.trans hnew)
        exact hall e (List.mem_append_left first he)

end play

section job

variable {respond : (r : W.tools.Request) → W.Device → W.tools.Answer r × W.Device}
  (hmove : ∀ r d, W.move d ⟨r, some (respond r d).1⟩ (respond r d).2)

include hmove

/-- A whole job against a device that is a function. -/
theorem job_steps {w : Option ℕ} {p : W.Job} {x : W.Config S} (hw : x.work = some (w, p)) :
    Relation.ReflTransGen Step x ⟨x.base, (p.against respond x.device).2.2,
      (p.against respond x.device).2.1.2, none, x.report w (p.against respond x.device).2.1.1⟩ := by
  induction p generalizing x with
  | pure a => exact .single (.finish hw)
  | ask r next ih =>
      have hstep : Step x { x with
          device := (respond r x.device).2
          work := some (w, next (respond r x.device).1) } := .exchange hw (hmove r x.device)
      exact Relation.ReflTransGen.head hstep (ih _ rfl)

/-- A request for a job, from the start of the job to the answer. -/
theorem Reachable.answered [∀ results q, Decidable (S.admits results q)] {x : W.Config S}
    (h : Reachable x) (hidle : x.work = none) {t : ℕ} {r : F.Request}
    {k : F.Answer r → Program F S.Result} (hhosts : W.hosts r)
    (hk : x.base.threads t = some (.ask r k)) (hpending : x.outcomes t = none) {p : W.Job}
    (hjob : W.job r x.memory p) (i : M.Choice)
    (hgives : W.gives (p.against respond x.device).2.1.1 i) :
    ∃ x' : W.Config S, Reachable x' ∧ x'.base = S.move x.base (.act t i) := by
  obtain ⟨d, hd⟩ := h.step (.start hidle ⟨hhosts, k, hk⟩ hpending hjob)
  have hrun := hd.trans (job_steps hmove rfl)
  have hanswer := hrun.tail (.answer i hhosts hk (Config.report_own _) hgives)
  refine ⟨_, ⟨d, hanswer⟩, ?_⟩
  rw [Service.move, hk]

end job

end Workshop

end Process

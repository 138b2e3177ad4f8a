import Cheirismos.Bench
import Cheirismos.Deposits

/-! # What the evidence store guarantees

`publication_sound` says that the crew of publishers follows its discipline, with all facts about
bytes; `publication_robust` says that the discipline without these facts survives tampering.  From
them:

* an artifact has the bytes of some publisher, and a marker was made by a publisher that had read
  the artifact (`artifact_published`, `marker_verified`);
* what was published is read back (`published_provided`, `read_back`);
* nobody who starts after an artifact was tampered with gets past it (`tampered_refused`).

`evidence_never_forged` puts these together. -/

namespace Cheirismos.Publishing

open Process Directories Evid

section guarantees

variable [Platform] {intact : Bool} {root : String} {q : EvidenceCall} {t u : ℕ}

/-! ### The end of a process -/

section ended

variable {x : Point} {p : ℕ}

omit [Platform] in
/-- Nothing is drawn from a process that has ended. -/
theorem drawn_of_ended {p' s : ℕ}
    (hcounted : ∀ e ∈ x.past, ∀ p, e.request = .fetchAdd p →
      (e.before.memory p).run ≤ (x.state.memory p).run ∧
        ((e.before.memory p).run = (x.state.memory p).run →
          (e.before.memory p).counter < (x.state.memory p).counter))
    (h : Drawn t p' s ⟨x.past, x.state.ended p⟩) : p' ≠ p ∧ Drawn t p' s x := by
  obtain ⟨e, he, ht, hr, hrun, hs⟩ := h
  have hle := (hcounted e he p' hr).1
  have hne : p' ≠ p := by
    rintro rfl
    simp only [Files.ended, Files.setMemory, Function.update_self] at hrun
    omega
  refine ⟨hne, e, he, ht, hr, ?_, hs⟩
  simp only [Files.ended, Files.setMemory, Function.update_of_ne hne] at hrun
  exact hrun

omit [Platform] in
theorem Drawn.survives {p' s : ℕ} (hne : p' ≠ p) (h : Drawn t p' s x) :
    Drawn t p' s ⟨x.past, x.state.ended p⟩ := by
  obtain ⟨e, he, ht, hr, hrun, hs⟩ := h
  refine ⟨e, he, ht, hr, ?_, hs⟩
  simp only [Files.ended, Files.setMemory, Function.update_of_ne hne]
  exact hrun

theorem Orderly.ended (hx : Orderly intact x) : Orderly intact ⟨x.past, x.state.ended p⟩ where
  root := hx.root
  parents := hx.parents
  allocated := hx.allocated
  created := hx.created
  creator := hx.creator
  counted e he p' hr := by
    obtain ⟨hrun, hcounter⟩ := hx.counted e he p' hr
    by_cases hp : p' = p
    · subst hp
      simp only [Files.ended, Files.setMemory, Function.update_self]
      omega
    · simp only [Files.ended, Files.setMemory, Function.update_of_ne hp]
      exact ⟨hrun, hcounter⟩
  drawer t u p' s ht hu :=
    hx.drawer t u p' s (drawn_of_ended hx.counted ht).2 (drawn_of_ended hx.counted hu).2
  artifacts := hx.artifacts
  markers := hx.markers

/-- The calls of other processes keep what they have drawn. -/
theorem rely_ended (hkept : (publication intact root).Kept q t x.past) (hne : q.process ≠ p) :
    Rely intact t x ⟨x.past, x.state.ended p⟩ where
  past := List.Subset.refl _
  drawn p' s h := by
    refine h.survives fun hp => ?_
    obtain ⟨e, he, ht, hr, _⟩ := h
    obtain ⟨older, hsuf⟩ := exists_suffix_of_mem he
    have hlegal : Legal q t ⟨older, e.before⟩ e.request := hkept e older hsuf ht
    rw [hr] at hlegal
    exact hne (hlegal.symm.trans hp)
  names _ _ _ _ := rfl
  contents _ _ _ := rfl
  links _ _ _ h := h
  kept := ⟨fun _ _ h _ => h, fun _ _ _ _ _ => rfl⟩

end ended

/-! ### What lasts of a result -/

theorem Exact.keep {digest : ArtifactDigest} {artifact : VerifiedArtifact} {x y : Point}
    (hk : Keeps intact x.state y.state) (h : Exact intact digest artifact x) :
    Exact intact digest artifact y := by
  refine ⟨h.1, fun hi => ?_⟩
  obtain ⟨inode, hstored, hbytes⟩ := h.2 hi
  refine ⟨inode, hk.stored hstored, ?_⟩
  rw [hk.contents hi _ _ hstored (artifactPath_not_temporary digest)]
  exact hbytes

theorem Reads.keep {digest : ArtifactDigest} {P : Files → Prop}
    {result : Except EvidenceError VerifiedArtifact} {x y : Point}
    (hk : Keeps intact x.state y.state) (hpast : x.past ⊆ y.past)
    (h : Reads intact digest P t result x) : Reads intact digest P t result y :=
  ⟨fun artifact ha => (h.1 artifact ha).keep hk,
    fun hi hsmooth => h.2 hi fun e he ht => hsmooth e (hpast he) ht⟩

/-- What a call has found out or done stays so. -/
theorem Post.keep {result : EvidenceResult} {x y : Point} (hk : Keeps intact x.state y.state)
    (hpast : x.past ⊆ y.past) (h : Post intact q t result x) : Post intact q t result y := by
  cases q with
  | publish p n bytes source =>
      cases result with
      | published result =>
          cases result with
          | ok digest =>
              obtain ⟨hdigest, hverified, ⟨inode, hstored⟩, inode', hmarked⟩ := h
              exact ⟨hdigest, hverified.mono hpast, ⟨inode, hk.stored hstored⟩, inode',
                hk.entries _ _ hmarked (markerPath_not_temporary digest source)⟩
          | error e => trivial
      | artifact result => exact h.elim
  | read p digest =>
      cases result with
      | published result => exact h.elim
      | artifact result => exact Reads.keep hk hpast h
  | verifySource p digest source =>
      cases result with
      | published result => exact h.elim
      | artifact result => exact Reads.keep hk hpast h

/-! ### The discipline -/

omit [Platform] in
theorem Ended.weaken {α : Type} {Q Q' : α → Point → Prop} {E : Point → Prop}
    {result : Except EvidenceError α} {y : Point} (h : Ended Q E result y)
    (hQ : ∀ {a}, Q a y → Q' a y) : Ended Q' E result y := by
  cases result with
  | ok a => exact hQ h
  | error e => exact h

/-- A read that ends as `readArtifact_spec` says. -/
theorem reads_of_ended {digest : ArtifactDigest} {P : Files → Prop}
    {result : Except EvidenceError VerifiedArtifact} {y : Point}
    (h : Ended (Found intact t digest) (Blame intact P t) result y) :
    Reads intact digest P t result y := by
  cases result with
  | ok artifact =>
      refine ⟨fun artifact' ha => ?_, fun _ _ => ⟨artifact, rfl⟩⟩
      cases ha
      exact h.1
  | error e => exact ⟨fun artifact ha => (by cases ha), fun hi hs => absurd ⟨hi, hs⟩ h⟩

theorem body_holds (q : EvidenceCall) {x : Point} (hx : Orderly intact x) :
    ((publication intact root).rules q).Holds t ((evidence root).body q) (Post intact q t) x := by
  cases q with
  | publish p n bytes source =>
      have hpublish : Ensures intact root (.publish p n bytes source) t
          (publish root p n bytes source) _ _ x := publish_spec hx
      refine Rules.Holds.map (g := EvidenceResult.published)
        (Rules.Holds.weaken hpublish fun result y _ hend => ?_)
      cases result with
      | error e => trivial
      | ok digest =>
          obtain ⟨hdigest, ⟨hverified, hstored⟩, hmarked⟩ := hend
          exact ⟨hdigest, hverified, hstored, hmarked⟩
  | read p digest =>
      have hread : Ensures intact root (.read p digest) t (readArtifact root digest) _ _ x :=
        readArtifact_spec (.blame intact (Stored digest) t) hx fun _ _ h => h
      exact Rules.Holds.map (g := EvidenceResult.artifact)
        (Rules.Holds.weaken hread fun result y _ hend => reads_of_ended hend)
  | verifySource p digest source =>
      have hverify : Ensures intact root (.verifySource p digest source) t
          (verifySource root digest source) _ _ x := verifySource_spec hx
      exact Rules.Holds.map (g := EvidenceResult.artifact)
        (Rules.Holds.weaken hverify fun result y _ hend => reads_of_ended (hend.weaken And.left))

theorem orderly_empty : Orderly intact ⟨[], Files.empty⟩ where
  root := rfl
  parents path hne h := absurd (if_neg hne) h
  allocated path inode h := by
    change (if path = [] then some Node.directory else none) = _ at h
    split_ifs at h
    cases h
  created t inode h := by
    obtain ⟨e, he, _⟩ := h
    cases he
  creator t u inode h := by
    obtain ⟨e, he, _⟩ := h
    cases he
  counted e he := by cases he
  drawer t u p s h := by
    obtain ⟨e, he, _⟩ := h
    cases he
  artifacts digest node h := by
    change (if artifactPath digest = [] then some Node.directory else none) = _ at h
    rw [if_neg (by simp [artifactPath])] at h
    cases h
  markers digest source node h := by
    change (if markerPath digest source = [] then some Node.directory else none) = _ at h
    rw [if_neg (by simp [markerPath])] at h
    cases h

/-- The publishers follow their discipline. -/
theorem publication_sound (intact : Bool) (root : String) : (publication intact root).Sound where
  refl t x := .refl intact t x
  trans _ _ _ _ h h' := h.trans h'
  initial := orderly_empty
  keep _ _ _ _ _ hx hl := legal_orderly hx hl
  guarantee _ _ _ _ _ _ hx hl hne := legal_rely hx hl hne
  post_stable q t u a q' x r i hx hl _ h := by
    have hpost : Post intact q' u a x := h
    exact hpost.keep (legal_keeps hx hl).mono (List.subset_cons_self _ _)
  ended p x hx := hx.ended
  ended_rely p q t x _ hkept hne := rely_ended hkept hne
  ended_post p q t a x h := by
    have hpost : Post intact q t a x := h
    have hkeeps : Keeps intact x.state (x.state.ended p) :=
      ⟨fun _ _ h _ => h, fun _ _ _ _ _ => rfl⟩
    have hpast : x.past ⊆ x.past := List.Subset.refl _
    exact hpost.keep (y := ⟨x.past, x.state.ended p⟩) hkeeps hpast
  body q t x hx _ := body_holds q hx

/-! ### Tampering -/

/-- The discipline without its facts about bytes survives tampering. -/
theorem publication_robust (root : String) : (publication false root).Robust where
  toSound := publication_sound false root
  environment x s hx h := by
    obtain ⟨digest, inode, bytes, _, rfl⟩ := h
    refine ⟨hx.root, hx.parents, hx.allocated, hx.created, hx.creator, hx.counted, hx.drawer, ?_, ?_⟩
    · intro digest' node hentry
      obtain ⟨inode', hnode, _⟩ := hx.artifacts digest' node hentry
      exact ⟨inode', hnode, fun hi => by cases hi⟩
    · intro digest' source node hentry
      obtain ⟨inode', hnode, _, hmade⟩ := hx.markers digest' source node hentry
      exact ⟨inode', hnode, fun hi => (by cases hi), hmade⟩
  environment_rely t x s hx h := by
    obtain ⟨digest, inode, bytes, hstored, rfl⟩ := h
    refine ⟨List.Subset.refl _, fun _ _ h => h, fun _ _ _ _ => rfl, ?_, fun _ _ _ h => h,
      fun _ _ h _ => h, fun hi => by cases hi⟩
    intro inode' _ hprivate
    refine Function.update_of_ne ?_ _ _
    rintro rfl
    exact artifactPath_not_temporary digest (hprivate _ hstored)
  environment_post q t a x s _ h hpost := by
    have hpost' : Post false q t a x := hpost
    have hkeeps : Keeps false x.state s := by
      obtain ⟨digest, inode, bytes, _, rfl⟩ := h
      exact ⟨fun _ _ h _ => h, fun hi => by cases hi⟩
    have hpast : x.past ⊆ x.past := List.Subset.refl _
    exact hpost'.keep (y := ⟨x.past, s⟩) hkeeps hpast

/-! ### Runs -/

/-- The call reads the artifact of the digest, or verifies the source of it. -/
def EvidenceCall.Fetches (digest : ArtifactDigest) (source : EvidenceSource) : EvidenceCall → Prop
  | read _ digest' => digest' = digest
  | verifySource _ digest' source' => digest' = digest ∧ source' = source
  | publish _ _ _ _ => False

section runs

variable {c c' : (evidence root).Config} {digest : ArtifactDigest} {source : EvidenceSource}

/-- Nothing else with the digest of these bytes is published. -/
def Collisionless (c : (evidence root).Config) (bytes : Bytes) : Prop :=
  ∀ t p n bytes' source, c.calls t = some (.publish p n bytes' source) →
    Platform.sha256 bytes' = Platform.sha256 bytes → bytes' = bytes

/-- No system call of the thread has failed by itself. -/
def Untroubled (t : ℕ) (c : (evidence root).Config) : Prop :=
  ∀ e ∈ c.history, e.thread = t → e.choice.fault = none

/-- The moves of the crew keep names other than temporary ones, and the bytes behind them. -/
theorem run_keeps (h : Crew.Discipline.Ok (publication intact root) c)
    (hr : (evidence root).Run c c') : Keeps true c.state c'.state := by
  have hD := publication_sound intact root
  induction hr with
  | refl => exact .refl _ _
  | @tail d d' hr hs ih =>
      have hd := hD.run h hr
      have hd' := hD.step hd hs
      refine ih.trans ?_
      cases hs with
      | call q => exact .refl _ _
      | @act t r k i ht =>
          obtain ⟨_, q, _, hl⟩ := hd'.recorded _ _ List.suffix_rfl
          exact legal_keeps (q := q) hd.inv hl
      | «return» ht => exact .refl _ _
      | crash p => exact ⟨fun _ _ h _ => h, fun _ _ _ _ _ => rfl⟩

/-- What stands at the path of a digest is a file with all the bytes of some publication. -/
theorem artifact_published (h : Crew.Discipline.Ok (publication true root) c) {node : Node}
    (hentry : c.state.entries (artifactPath digest) = some node) :
    ∃ inode, node = .file inode ∧ Platform.sha256 (c.state.contents inode) = digest ∧
      ∃ t p n source, c.calls t = some (.publish p n (c.state.contents inode) source) := by
  have hinv : Orderly true c.moment := h.inv
  obtain ⟨inode, rfl, hgenuine⟩ := hinv.artifacts digest node hentry
  obtain ⟨hhash, e, he, old, hr, hold, hbytes⟩ := hgenuine rfl
  obtain ⟨older, hsuf⟩ := exists_suffix_of_mem he
  obtain ⟨_, q, hq, hl⟩ := h.recorded e older hsuf
  have hlegal : Legal q e.thread ⟨older, e.before⟩ e.request := hl
  rw [hr] at hlegal
  obtain ⟨p, n, bytes, source, s, rfl, _, _, _, hfile⟩ := hlegal
  refine ⟨inode, rfl, hhash, e.thread, p, n, source, ?_⟩
  have hsame : c.state.contents inode = bytes := hbytes.symm.trans (hfile inode hold).2
  rw [hsame]
  exact hq

/-- A marker was made by a publisher for its own source, after it had read the artifact. -/
theorem marker_verified (h : Crew.Discipline.Ok (publication intact root) c) {node : Node}
    (hentry : c.state.entries (markerPath digest source) = some node) :
    ∃ e older p n bytes, (e :: older) <:+ c.history ∧ Makes (markerPath digest source) node e ∧
      c.calls e.thread = some (.publish p n bytes source) ∧ Platform.sha256 bytes = digest ∧
      Verified e.thread digest older := by
  have hinv : Orderly intact c.moment := h.inv
  obtain ⟨inode, rfl, _, e, he, hmade⟩ := hinv.markers digest source node hentry
  obtain ⟨older, hsuf⟩ := exists_suffix_of_mem he
  obtain ⟨_, q, hq, hl⟩ := h.recorded e older hsuf
  have hlegal : Legal q e.thread ⟨older, e.before⟩ e.request := hl
  rw [hmade.1] at hlegal
  rcases hlegal with ⟨d, s, _, hpath⟩ | ⟨p, n, bytes, source', rfl, hpath, hverified⟩
  · exact absurd ⟨d, _, s, hpath⟩ (markerPath_not_temporary digest source)
  · obtain ⟨rfl, rfl⟩ := markerPath_injective hpath
    exact ⟨e, older, p, n, bytes, hsuf, hmade, hq, rfl, hverified⟩

/-- What a publication that has returned has left behind stays. -/
theorem published_provided {p n : ℕ} {bytes : Bytes}
    (h : Crew.Discipline.Ok (publication intact root) c)
    (hcall : c.calls t = some (.publish p n bytes source))
    (hresult : c.results t = some (.published (.ok digest))) (hr : (evidence root).Run c c') :
    digest = Platform.sha256 bytes ∧ Provided digest source c'.state := by
  have hD := publication_sound intact root
  obtain ⟨_, q, hq, hpost⟩ := (hD.run h hr).results t _ (hD.run_results h hr hresult)
  rw [hD.run_calls h hr hcall] at hq
  cases hq
  obtain ⟨hdigest, _, hstored, hmarked⟩ := hpost
  exact ⟨hdigest, hstored, hmarked⟩

/-- Who starts to read after a publication has returned gets what was published. -/
theorem read_back {p n : ℕ} {bytes : Bytes}
    (h : Crew.Discipline.Ok (publication true root) c)
    (hcall : c.calls t = some (.publish p n bytes source))
    (hresult : c.results t = some (.published (.ok digest))) (hr : (evidence root).Run c c')
    (hsole : Collisionless c' bytes) {result : Except EvidenceError VerifiedArtifact}
    (hu : c.next ≤ u) (hq : c'.calls u = some q) (hfetch : q.Fetches digest source)
    (hread : c'.results u = some (.artifact result)) :
    (∀ artifact, result = .ok artifact → artifact.digest = digest ∧ artifact.bytes = bytes) ∧
      (Untroubled u c' → ∃ artifact, result = .ok artifact) := by
  have hD := publication_sound true root
  have h' := hD.run h hr
  have hdigest := (published_provided h hcall hresult hr).1
  have hreads : ∃ P : Files → Prop, (∀ s, Provided digest source s → P s) ∧
      Reads true digest P u result c'.moment := by
    obtain ⟨_, q', hq', hpost⟩ := h'.results u _ hread
    rw [hq] at hq'
    cases hq'
    have hpost' : Post true q u (.artifact result) c'.moment := hpost
    cases q with
    | publish p n bytes source => exact hfetch.elim
    | read p digest' =>
        cases hfetch
        exact ⟨Stored digest, fun s hs => hs.1, hpost'⟩
    | verifySource p digest' source' =>
        obtain ⟨rfl, rfl⟩ := hfetch
        exact ⟨Provided _ _, fun s hs => hs, hpost'⟩
  obtain ⟨P, hP, hexact, htotal⟩ := hreads
  constructor
  · intro artifact ha
    obtain ⟨hd, hstored⟩ := hexact artifact ha
    obtain ⟨inode, hentry, hbytes⟩ := hstored rfl
    obtain ⟨inode', hnode, hhash, t', p', n', source', hcall'⟩ := artifact_published h' hentry
    cases hnode
    refine ⟨hd, ?_⟩
    rw [← hbytes]
    exact hsole t' p' n' _ source' hcall' (hhash.trans hdigest)
  · intro hquiet
    refine htotal rfl fun e he ht => ⟨hquiet e he ht, hP _ ?_⟩
    obtain ⟨older, hsuf⟩ := exists_suffix_of_mem he
    obtain ⟨d, hrun, _, hstate⟩ := h.passes hr hsuf (ht ▸ hu)
    rw [← hstate]
    exact (published_provided h hcall hresult hrun).2

/-- Who starts after an artifact was tampered with does not find it in order. -/
theorem tampered_unverified {inode : ℕ} (h : Crew.Discipline.Ok (publication intact root) c)
    (hstored : StoredAt digest inode c.state)
    (hbad : Platform.sha256 (c.state.contents inode) ≠ digest) (hr : (evidence root).Run c c')
    (hnew : c.next ≤ t) : ¬ Verified t digest c'.history := by
  rintro ⟨e, he, ht, inode', _, _, hentry, hhash⟩
  obtain ⟨older, hsuf⟩ := exists_suffix_of_mem he
  obtain ⟨d, hrun, _, hstate⟩ := h.passes hr hsuf (ht ▸ hnew)
  have hkeeps := run_keeps h hrun
  rw [← hstate] at hentry hhash
  have hsame : some (Node.file inode') = some (Node.file inode) :=
    hentry.symm.trans (hkeeps.stored hstored)
  cases hsame
  rw [hkeeps.contents rfl _ _ hstored (artifactPath_not_temporary digest)] at hhash
  exact hbad hhash

/-- A publication of bytes whose artifact was tampered with fails and marks nothing. -/
theorem tampered_refused {p n inode : ℕ} {bytes : Bytes}
    (h : Crew.Discipline.Ok (publication intact root) c)
    (hstored : StoredAt digest inode c.state)
    (hbad : Platform.sha256 (c.state.contents inode) ≠ digest) (hr : (evidence root).Run c c')
    (hnew : c.next ≤ t) (hcall : c'.calls t = some (.publish p n bytes source))
    (hdigest : Platform.sha256 bytes = digest) :
    (∀ result, c'.results t = some (.published result) → ∃ e, result = .error e) ∧
      ∀ e ∈ c'.history, e.thread = t → ∀ digest' source',
        e.request ≠ .createNew (markerPath digest' source') := by
  have h' := (publication_sound intact root).run h hr
  have hunverified := tampered_unverified h hstored hbad hr hnew
  constructor
  · intro result hresult
    cases result with
    | error e => exact ⟨e, rfl⟩
    | ok digest' =>
        obtain ⟨_, q', hq', hpost⟩ := h'.results t _ hresult
        rw [hcall] at hq'
        cases hq'
        obtain ⟨rfl, hverified, _⟩ := hpost
        exact absurd (hdigest ▸ hverified) hunverified
  · intro e he ht digest' source' hrequest
    obtain ⟨older, hsuf⟩ := exists_suffix_of_mem he
    obtain ⟨_, q', hq', hl⟩ := h'.recorded e older hsuf
    have hlegal : Legal q' e.thread ⟨older, e.before⟩ e.request := hl
    rw [ht, hcall] at hq'
    cases hq'
    rw [hrequest, ht] at hlegal
    rcases hlegal with ⟨d, s, _, hpath⟩ | ⟨p', n', bytes', source'', hq, _, hverified⟩
    · exact absurd ⟨d, _, s, hpath⟩ (markerPath_not_temporary digest' source')
    · cases hq
      rw [hdigest] at hverified
      exact hunverified (hverified.mono fun e' he' =>
        hsuf.subset (List.mem_cons_of_mem e he'))

end runs

/-- Whatever the publishers do and whenever they crash: while nobody tampers, artifacts are complete,
markers are earned, and what was published is read back; and after somebody did, publishing the same
bytes fails and marks nothing. -/
theorem evidence_never_forged (root : String) :
    (∀ c : (evidence root).Config, (evidence root).Undisturbed c →
      (∀ digest node, c.state.entries (artifactPath digest) = some node →
        ∃ inode, node = .file inode ∧ Platform.sha256 (c.state.contents inode) = digest ∧
          ∃ t p n source, c.calls t = some (.publish p n (c.state.contents inode) source)) ∧
      (∀ digest source node, c.state.entries (markerPath digest source) = some node →
        ∃ e older p n bytes, (e :: older) <:+ c.history ∧
          Makes (markerPath digest source) node e ∧
          c.calls e.thread = some (.publish p n bytes source) ∧ Platform.sha256 bytes = digest ∧
          Verified e.thread digest older) ∧
      ∀ t p n bytes source digest, c.calls t = some (.publish p n bytes source) →
        c.results t = some (.published (.ok digest)) →
        ∀ c', (evidence root).Run c c' → Collisionless c' bytes →
          ∀ u q result, c.next ≤ u → c'.calls u = some q → q.Fetches digest source →
            c'.results u = some (.artifact result) →
            (∀ artifact, result = .ok artifact →
              artifact.digest = digest ∧ artifact.bytes = bytes) ∧
            (Untroubled u c' → ∃ artifact, result = .ok artifact)) ∧
    ∀ c : (evidence root).Config, (evidence root).Reachable c →
      ∀ digest inode, StoredAt digest inode c.state →
        Platform.sha256 (c.state.contents inode) ≠ digest → ∀ c', (evidence root).Run c c' →
          ∀ t p n bytes source, c.next ≤ t → c'.calls t = some (.publish p n bytes source) →
            Platform.sha256 bytes = digest →
            (∀ result, c'.results t = some (.published result) → ∃ e, result = .error e) ∧
            ∀ e ∈ c'.history, e.thread = t → ∀ digest' source',
              e.request ≠ .createNew (markerPath digest' source') := by
  constructor
  · intro c hc
    have h := (publication_sound true root).undisturbed hc
    refine ⟨fun digest node => artifact_published h, fun digest source node => marker_verified h, ?_⟩
    intro t p n bytes source digest hcall hresult c' hr hsole u q result hu hq hfetch hread
    exact read_back h hcall hresult hr hsole hu hq hfetch hread
  · intro c hc digest inode hstored hbad c' hr t p n bytes source hnew hcall hdigest
    have h := (publication_robust root).reachable hc
    exact tampered_refused h hstored hbad hr hnew hcall hdigest

end guarantees

/-! ### A run -/

namespace Depot

open Bench


def content : Bytes := [1, 2, 3]

def origin : EvidenceSource := .case ⟨"case-1", by decide +kernel⟩

def digest : ArtifactDigest := Platform.sha256 content

instance : DecidableEq (evidence "/evidence").Call := inferInstanceAs (DecidableEq EvidenceCall)

instance : DecidableEq (evidence "/evidence").Result := inferInstanceAs (DecidableEq EvidenceResult)

/-- Thread `t` makes a call and carries it out. -/
def calling (t steps : ℕ) (q : EvidenceCall) : List (Crew.Move (evidence "/evidence")) :=
  .call q :: List.replicate steps (.act t ⟨none, 100⟩) ++ [.return t]

/-- The content has been published. -/
def deposited : (evidence "/evidence").Config :=
  Crew.play (evidence "/evidence").start (calling 0 62 (.publish 7 5 content origin))

/-- It has been fetched. -/
def fetched : (evidence "/evidence").Config :=
  Crew.play deposited (calling 1 13 (.verifySource 7 digest origin))

/-- The stored bytes have been altered. -/
def altered : (evidence "/evidence").Config :=
  { deposited with state := { deposited.state with
      contents := Function.update deposited.state.contents 0 [9] } }

/-- It has been published once more. -/
def refused : (evidence "/evidence").Config :=
  Crew.play altered (calling 1 12 (.publish 7 5 content origin))

theorem evidence_never_forged_bench :
    (∃ inode, deposited.state.entries (artifactPath digest) = some (.file inode) ∧
      Platform.sha256 (deposited.state.contents inode) = digest) ∧
    (∃ e older, (e :: older) <:+ deposited.history ∧
      Makes (markerPath digest origin) (.file 1) e ∧ Verified e.thread digest older) ∧
    (∃ artifact : VerifiedArtifact,
      fetched.results 1 = some (.artifact (.ok artifact)) ∧ artifact.bytes = content) ∧
    (∃ e, refused.results 1 = some (.published (.error e))) ∧
    ∀ e ∈ refused.history, e.thread = 1 → e.request ≠ .createNew (markerPath digest origin) := by
  obtain ⟨hsafe, htampered⟩ := evidence_never_forged "/evidence"
  have hdeposited : (evidence "/evidence").Undisturbed deposited := Crew.play_run _ _
  obtain ⟨hartifacts, hmarkers, hreads⟩ := hsafe deposited hdeposited
  obtain ⟨hcall, hresult, hnext, hartifact, hmarker⟩ :
      deposited.calls 0 = some (.publish 7 5 content origin) ∧
        deposited.results 0 = some (.published (.ok digest)) ∧ deposited.next = 1 ∧
        deposited.state.entries (artifactPath digest) = some (.file 0) ∧
        deposited.state.entries (markerPath digest origin) = some (.file 1) := by
    decide +kernel
  have hfetched : (evidence "/evidence").Run deposited fetched := Crew.play_run _ _
  obtain ⟨hfetch, hpublish, hdone, hlast⟩ :
      fetched.calls 1 = some (.verifySource 7 digest origin) ∧
        fetched.calls 0 = some (.publish 7 5 content origin) ∧
        fetched.results 1 = some (.artifact (.ok ⟨digest, content, rfl⟩)) ∧ fetched.next = 2 := by
    decide +kernel
  have hquiet : ∀ e ∈ fetched.history, e.choice.fault = none := by decide +kernel
  have hsole : @Collisionless _ "/evidence" fetched content := by
    intro t p n bytes' source hq _
    have hfresh := ((publication_sound true "/evidence").undisturbed
      (hdeposited.run hfetched)).fresh t
    rw [hlast, hq] at hfresh
    have hthread : t = 0 ∨ t = 1 := by
      by_contra hother
      cases (hfresh (by omega)).1
    rcases hthread with rfl | rfl
    · rw [hpublish] at hq
      cases hq
      rfl
    · rw [hfetch] at hq
      cases hq
  have htamper : (evidence "/evidence").Reachable altered := by
    refine Relation.ReflTransGen.tail (Crew.Reachable.run .refl hdeposited) (Or.inr ⟨?_, rfl⟩)
    exact ⟨digest, 0, [9], hartifact, rfl⟩
  have hrefused : (evidence "/evidence").Run altered refused := Crew.play_run _ _
  obtain ⟨hagain, hrefusal⟩ : refused.calls 1 = some (.publish 7 5 content origin) ∧
      refused.results 1 = some (.published (.error (.digestMismatch digest))) := by
    decide +kernel
  have hread := hreads 0 7 5 content origin digest hcall hresult fetched hfetched hsole 1 _ _
    hnext.le hfetch ⟨rfl, rfl⟩ hdone
  obtain ⟨hstored, hbad, hfresh⟩ : altered.state.entries (artifactPath digest) = some (.file 0) ∧
      Platform.sha256 (altered.state.contents 0) ≠ digest ∧ altered.next = 1 := by
    decide +kernel
  have hrefuses := htampered altered htamper digest 0 hstored
  have hfail := hrefuses hbad refused hrefused 1 7 5 content origin hfresh.le hagain rfl
  refine ⟨?_, ?_, ?_, ?_, fun e he ht => hfail.2 e he ht digest origin⟩
  · obtain ⟨inode, hnode, hhash, _⟩ := hartifacts digest (.file 0) hartifact
    cases hnode
    exact ⟨0, hartifact, hhash⟩
  · obtain ⟨e, older, _, _, _, hsuf, hmakes, _, _, hverified⟩ :=
      hmarkers digest origin (.file 1) hmarker
    exact ⟨e, older, hsuf, hmakes, hverified⟩
  · obtain ⟨artifact, ha⟩ := hread.2 fun e he _ => hquiet e he
    exact ⟨artifact, ha ▸ hdone, (hread.1 artifact ha).2⟩
  · obtain ⟨e, he⟩ := hfail.1 _ hrefusal
    exact ⟨e, he ▸ hrefusal⟩

end Depot

end Cheirismos.Publishing

import Cheirismos.Publishing

/-! # What publishers may do to the evidence store

The discipline of the evidence store.  Names and inodes have owners:

* **Sequence numbers.** A thread has drawn a number when it took it from the counter of a process
  that still runs (`Drawn`); no two threads have drawn the same one (`Orderly.drawer`), so a
  temporary name belongs to one thread until its process ends.
* **Inodes.** An inode belongs to the thread that created it (`Created`), and it is private while
  only temporary names lead to it (`Private`).
* **Rules.** A thread writes only to its own private inodes, links only its own complete file, under
  the path of its bytes' digest, unlinks only names it has drawn, and creates a marker only for its
  own call and after it has read bytes with the digest at the path (`Legal`).

`Orderly` is the invariant: every name is where it belongs, an artifact has the bytes that some
publisher linked, and a marker was created by a recorded request.  `legal_orderly` says that the
rules keep it and `legal_rely` that they leave alone what belongs to other threads; `legal_keeps`
says that names other than temporary ones, and the bytes behind them, stay.

Everything about bytes is asked only of stores that nobody tampers with (`intact`). -/

namespace Cheirismos.Publishing

open Process Directories

/-- A moment of the evidence store. -/
abbrev Point := Moment (Directories.machine Tampers)

/-! ### Owners -/

/-- Thread `t` has taken sequence number `s` of the process `p` that runs now. -/
def Drawn (t p s : ℕ) (x : Point) : Prop :=
  ∃ e ∈ x.past, e.thread = t ∧ e.request = .fetchAdd p ∧
    (e.before.memory p).run = (x.state.memory p).run ∧ (e.before.memory p).counter = s

/-- Thread `t` has created the inode. -/
def Created (t inode : ℕ) (past : List (Event (Directories.machine Tampers))) : Prop :=
  ∃ e ∈ past, e.thread = t ∧ (∃ path, e.request = .createNew path) ∧ e.before.inodes = inode ∧
    e.after.inodes = inode + 1

/-- Only temporary names lead to the inode. -/
def Private (inode : ℕ) (s : Files) : Prop :=
  ∀ path, s.entries path = some (.file inode) → Temporary path

/-- The artifact of the digest is there. -/
def StoredAt (digest : ArtifactDigest) (inode : ℕ) (s : Files) : Prop :=
  s.entries (artifactPath digest) = some (.file inode)

/-- Names other than temporary ones stay, and so do the bytes behind them. -/
structure Keeps (intact : Bool) (s s' : Files) : Prop where
  entries : ∀ path node, s.entries path = some node → ¬ Temporary path →
    s'.entries path = some node
  contents : intact = true → ∀ path inode, s.entries path = some (.file inode) →
    ¬ Temporary path → s'.contents inode = s.contents inode

theorem Keeps.refl (intact : Bool) (s : Files) : Keeps intact s s :=
  ⟨fun _ _ h _ => h, fun _ _ _ _ _ => rfl⟩

theorem Keeps.trans {intact : Bool} {s s' s'' : Files} (h : Keeps intact s s')
    (h' : Keeps intact s' s'') : Keeps intact s s'' where
  entries path node hs hp := h'.entries path node (h.entries path node hs hp) hp
  contents hi path inode hs hp := by
    rw [h'.contents hi path inode (h.entries path _ hs hp) hp, h.contents hi path inode hs hp]

theorem Keeps.mono {intact : Bool} {s s' : Files} (h : Keeps true s s') : Keeps intact s s' :=
  ⟨h.entries, fun _ => h.contents rfl⟩

/-- What a thread relies on: what it has drawn and created is left alone. -/
structure Rely (intact : Bool) (t : ℕ) (x y : Point) : Prop where
  past : x.past ⊆ y.past
  drawn : ∀ p s, Drawn t p s x → Drawn t p s y
  names : ∀ p s, Drawn t p s x → ∀ digest,
    y.state.entries (temporaryPath digest p s) = x.state.entries (temporaryPath digest p s)
  contents : ∀ inode, Created t inode x.past → Private inode x.state →
    y.state.contents inode = x.state.contents inode
  links : ∀ inode path, Created t inode x.past → y.state.entries path = some (.file inode) →
    x.state.entries path = some (.file inode)
  kept : Keeps intact x.state y.state

theorem Created.mono {t inode : ℕ} {past past' : List (Event (Directories.machine Tampers))}
    (h : Created t inode past) (hsub : past ⊆ past') : Created t inode past' := by
  obtain ⟨e, he, hrest⟩ := h
  exact ⟨e, hsub he, hrest⟩

theorem Rely.refl (intact : Bool) (t : ℕ) (x : Point) : Rely intact t x x :=
  ⟨List.Subset.refl _, fun _ _ h => h, fun _ _ _ _ => rfl, fun _ _ _ => rfl, fun _ _ _ h => h,
    .refl _ _⟩

theorem Rely.trans {intact : Bool} {t : ℕ} {x y z : Point} (h : Rely intact t x y)
    (h' : Rely intact t y z) : Rely intact t x z where
  past _ he := h'.past (h.past he)
  drawn p s hx := h'.drawn p s (h.drawn p s hx)
  names p s hx digest := (h'.names p s (h.drawn p s hx) digest).trans (h.names p s hx digest)
  contents inode hc hp := by
    have hp' : Private inode y.state := fun path hy => hp path (h.links inode path hc hy)
    rw [h'.contents inode (hc.mono h.past) hp', h.contents inode hc hp]
  links inode path hc hz := h.links inode path hc (h'.links inode path (hc.mono h.past) hz)
  kept := h.kept.trans h'.kept

section discipline

variable [Platform]

/-- Thread `t` has read bytes with the digest from the artifact of the digest. -/
def Verified (t : ℕ) (digest : ArtifactDigest) (past : List (Event (Directories.machine Tampers))) : Prop :=
  ∃ e ∈ past, e.thread = t ∧ ∃ inode, e.request = .readToEnd (.file inode) ∧
    e.choice.fault = none ∧ StoredAt digest inode e.before ∧
    Platform.sha256 (e.before.contents inode) = digest

/-- The system calls that a thread may make for a call. -/
def Legal (q : EvidenceCall) (t : ℕ) (x : Point) : Syscall → Prop
  | .openDirectory _ | .openFile _ _ | .fstat _ | .fchmod _ | .fsync _ | .readToEnd _ => True
  | .mkdir path => StoreDirectory path
  | .fetchAdd p => p = q.process
  | .createNew path =>
      (∃ digest s, Drawn t q.process s x ∧ path = temporaryPath digest q.process s) ∨
        ∃ p n bytes source, q = .publish p n bytes source ∧
          path = markerPath (Platform.sha256 bytes) source ∧
          Verified t (Platform.sha256 bytes) x.past
  | .write inode _ => Created t inode x.past ∧ Private inode x.state
  | .link old new => ∃ p n bytes source s, q = .publish p n bytes source ∧ Drawn t p s x ∧
      old = temporaryPath (Platform.sha256 bytes) p s ∧
      new = artifactPath (Platform.sha256 bytes) ∧
      ∀ inode, x.state.entries old = some (.file inode) →
        Created t inode x.past ∧ x.state.contents inode = bytes
  | .unlink path => ∃ digest s, Drawn t q.process s x ∧ path = temporaryPath digest q.process s

/-- The artifact has the bytes that a recorded request linked, and they have the digest. -/
def Genuine (digest : ArtifactDigest) (inode : ℕ) (x : Point) : Prop :=
  Platform.sha256 (x.state.contents inode) = digest ∧
    ∃ e ∈ x.past, ∃ old, e.request = .link old (artifactPath digest) ∧
      e.before.entries old = some (.file inode) ∧
      e.before.contents inode = x.state.contents inode

/-- The request has created what the path names. -/
def Makes (path : Path) (node : Node) (e : Event (Directories.machine Tampers)) : Prop :=
  e.request = .createNew path ∧ e.before.entries path = none ∧ e.after.entries path = some node

/-- The invariant of the evidence store. -/
structure Orderly (intact : Bool) (x : Point) : Prop where
  root : x.state.entries [] = some .directory
  parents : ∀ path, path ≠ [] → x.state.entries path ≠ none →
    x.state.entries path.dropLast = some .directory
  allocated : ∀ path inode, x.state.entries path = some (.file inode) → inode < x.state.inodes
  created : ∀ t inode, Created t inode x.past → inode < x.state.inodes
  creator : ∀ t u inode, Created t inode x.past → Created u inode x.past → t = u
  counted : ∀ e ∈ x.past, ∀ p, e.request = .fetchAdd p →
    (e.before.memory p).run ≤ (x.state.memory p).run ∧
      ((e.before.memory p).run = (x.state.memory p).run →
        (e.before.memory p).counter < (x.state.memory p).counter)
  drawer : ∀ t u p s, Drawn t p s x → Drawn u p s x → t = u
  artifacts : ∀ digest node, x.state.entries (artifactPath digest) = some node →
    ∃ inode, node = .file inode ∧ (intact = true → Genuine digest inode x)
  markers : ∀ digest source node, x.state.entries (markerPath digest source) = some node →
    ∃ inode, node = .file inode ∧ (intact = true → x.state.contents inode = []) ∧
      ∃ e ∈ x.past, Makes (markerPath digest source) node e

/-! ### One request -/

variable {q : EvidenceCall} {t u : ℕ} {x : Point} {r : Syscall} {i : Outcome}

omit [Platform] in
/-- No call changes which process has a number. -/
theorem perform_run (r : Syscall) (i : Outcome) (s : Files) (p : ℕ) :
    ((perform r i s).2.memory p).run = (s.memory p).run := by
  have heffect := perform_effect r i s
  generalize (perform r i s).2 = s' at heffect
  cases heffect with
  | @fetchAdd process =>
      by_cases hp : p = process
      · subst hp
        simp only [Files.setMemory, Function.update_self]
      · simp only [Files.setMemory, Function.update_of_ne hp]
  | none | mkdir | createNew | write | link | unlink => rfl

omit [Platform] in
theorem Drawn.step {p s : ℕ} (h : Drawn u p s x) : Drawn u p s (x.step t r i) := by
  obtain ⟨e, he, ht, hr, hrun, hs⟩ := h
  exact ⟨e, List.mem_cons_of_mem _ he, ht, hr, hrun.trans (perform_run r i x.state p).symm, hs⟩

omit [Platform] in
theorem Drawn.of_step {p s : ℕ} (h : Drawn u p s (x.step t r i)) :
    Drawn u p s x ∨ u = t ∧ r = .fetchAdd p ∧ (x.state.memory p).counter = s := by
  obtain ⟨e, he, ht, hr, hrun, hs⟩ := h
  rcases List.mem_cons.mp he with rfl | he
  · exact Or.inr ⟨ht.symm, hr, hs⟩
  · exact Or.inl ⟨e, he, ht, hr, hrun.trans (perform_run r i x.state p), hs⟩

omit [Platform] in
theorem Created.step {inode : ℕ} (h : Created u inode x.past) :
    Created u inode (x.step t r i).past := h.mono (List.subset_cons_self _ _)

omit [Platform] in
theorem Created.of_step {inode : ℕ} (h : Created u inode (x.step t r i).past) :
    Created u inode x.past ∨ u = t ∧ (∃ path, r = .createNew path) ∧ x.state.inodes = inode ∧
      (x.step t r i).state.inodes = inode + 1 := by
  obtain ⟨e, he, ht, hr, hi, ha⟩ := h
  rcases List.mem_cons.mp he with rfl | he
  · exact Or.inr ⟨ht.symm, hr, hi, ha⟩
  · exact Or.inl ⟨e, he, ht, hr, hi, ha⟩

theorem Verified.mono {digest : ArtifactDigest} {past past' : List (Event (Directories.machine Tampers))}
    (h : Verified t digest past) (hsub : past ⊆ past') : Verified t digest past' := by
  obtain ⟨e, he, hrest⟩ := h
  exact ⟨e, hsub he, hrest⟩

/-- A name that a legal request makes or removes is a temporary one of the thread, or was free. -/
theorem legal_keeps {intact : Bool} (hx : Orderly intact x) (hl : Legal q t x r) :
    Keeps true x.state (x.step t r i).state := by
  have heffect := perform_effect r i x.state
  have hstate : (x.step t r i).state = (perform r i x.state).2 := rfl
  rw [hstate]
  generalize (perform r i x.state).2 = s' at heffect
  -- adding a name under a free path
  have hadd : ∀ {path : Path} {node : Node}, x.state.entries path = none →
      ∀ path' node', x.state.entries path' = some node' →
        (x.state.setEntry path (some node)).entries path' = some node' := by
    intro path node hfree path' node' hn
    have hne : path' ≠ path := by
      rintro rfl
      rw [hfree] at hn
      cases hn
    exact (Function.update_of_ne hne _ _).trans hn
  cases heffect with
  | none => exact .refl _ _
  | fetchAdd => exact ⟨fun _ _ h _ => h, fun _ _ _ _ _ => rfl⟩
  | mkdir hfree hparent => exact ⟨fun _ _ h _ => hadd hfree _ _ h, fun _ _ _ _ _ => rfl⟩
  | link hsource hfree hparent => exact ⟨fun _ _ h _ => hadd hfree _ _ h, fun _ _ _ _ _ => rfl⟩
  | createNew hfree hparent =>
      refine ⟨fun _ _ h _ => hadd hfree _ _ h, fun _ path inode h _ => ?_⟩
      exact Function.update_of_ne (ne_of_lt (hx.allocated path inode h)) _ _
  | @write inode bytes written =>
      refine ⟨fun _ _ h _ => h, fun _ path inode' h hp => ?_⟩
      have hne : inode' ≠ inode := by
        rintro rfl
        exact hp (hl.2 path h)
      exact Function.update_of_ne hne _ _
  | @unlink path inode htaken =>
      obtain ⟨digest, s, _, hpath⟩ := hl
      refine ⟨fun path' node h hp => ?_, fun _ _ _ _ _ => rfl⟩
      have hne : path' ≠ path := by
        rintro rfl
        exact hp ⟨digest, _, s, hpath⟩
      exact (Function.update_of_ne hne _ _).trans h

/-- Names that different threads have drawn differ. -/
theorem Orderly.drawn_ne {intact : Bool} (hx : Orderly intact x) (hut : u ≠ t)
    {p p' s s' : ℕ} (hu : Drawn u p s x) (ht : Drawn t p' s' x) (d d' : ArtifactDigest) :
    temporaryPath d p s ≠ temporaryPath d' p' s' := by
  intro h
  obtain ⟨rfl, rfl⟩ := temporaryPath_injective h
  exact hut (hx.drawer u t _ _ hu ht)

omit [Platform] in
/-- A file that is found after a name was added is the new one under that name, or it was there. -/
theorem entries_setEntry {s : Files} {path path' : Path} {node : Option Node} {inode : ℕ}
    (h : (s.setEntry path node).entries path' = some (.file inode)) :
    (path' = path ∧ node = some (.file inode)) ∨ s.entries path' = some (.file inode) := by
  by_cases hp : path' = path
  · subst hp
    simp only [Files.setEntry, Function.update_self] at h
    exact Or.inl ⟨rfl, h⟩
  · exact Or.inr ((Function.update_of_ne hp _ _).symm.trans h)

/-- A legal request leaves alone what other threads own. -/
theorem legal_rely {intact : Bool} (hx : Orderly intact x) (hl : Legal q t x r) (hut : u ≠ t) :
    Rely intact u x (x.step t r i) := by
  have hkeeps : Keeps true x.state (x.step t r i).state := legal_keeps hx hl
  have heffect := perform_effect r i x.state
  have hstate : (x.step t r i).state = (perform r i x.state).2 := rfl
  refine ⟨List.subset_cons_self _ _, fun p s h => h.step, ?_, ?_, ?_, hkeeps.mono⟩
  · intro p s hdrawn digest
    rw [hstate]
    generalize (perform r i x.state).2 = s' at heffect
    cases heffect with
    | none | fetchAdd | write => rfl
    | mkdir hfree hparent =>
        refine Function.update_of_ne (fun h => ?_) _ _
        exact StoreDirectory.not_temporary hl ⟨digest, p, s, h.symm⟩
    | createNew hfree hparent =>
        refine Function.update_of_ne (fun h => ?_) _ _
        rcases hl with ⟨digest', s', hdrawn', hpath⟩ | ⟨_, _, bytes, source, _, hpath, _⟩
        · exact hx.drawn_ne hut hdrawn hdrawn' _ _ (h.trans hpath)
        · exact markerPath_not_temporary _ source ⟨digest, p, s, hpath.symm.trans h.symm⟩
    | link hsource hfree hparent =>
        refine Function.update_of_ne (fun h => ?_) _ _
        obtain ⟨_, _, bytes, _, _, _, _, _, hnew, _⟩ := hl
        exact artifactPath_not_temporary _ ⟨digest, p, s, hnew.symm.trans h.symm⟩
    | unlink htaken =>
        refine Function.update_of_ne (fun h => ?_) _ _
        obtain ⟨digest', s', hdrawn', hpath⟩ := hl
        exact hx.drawn_ne hut hdrawn hdrawn' _ _ (h.trans hpath)
  · intro inode hcreated hprivate
    rw [hstate]
    generalize (perform r i x.state).2 = s' at heffect
    cases heffect with
    | none | fetchAdd | mkdir | link | unlink => rfl
    | createNew hfree hparent =>
        exact Function.update_of_ne (ne_of_lt (hx.created u inode hcreated)) _ _
    | @write inode' bytes written =>
        refine Function.update_of_ne (fun h => ?_) _ _
        exact hut (hx.creator u t inode hcreated (h ▸ hl.1))
  · intro inode path hcreated hentry
    rw [hstate] at hentry
    generalize (perform r i x.state).2 = s' at heffect hentry
    cases heffect with
    | none | fetchAdd | write => exact hentry
    | mkdir hfree hparent =>
        rcases entries_setEntry hentry with ⟨_, hnode⟩ | hold
        · cases hnode
        · exact hold
    | createNew hfree hparent =>
        rcases entries_setEntry hentry with ⟨_, hnode⟩ | hold
        · cases hnode
          exact absurd (hx.created u _ hcreated) (lt_irrefl _)
        · exact hold
    | @link old new inode' hsource hfree hparent =>
        rcases entries_setEntry hentry with ⟨_, hnode⟩ | hold
        · cases hnode
          obtain ⟨_, _, _, _, _, _, _, _, _, hfile⟩ := hl
          exact absurd (hx.creator u t inode hcreated (hfile inode hsource).1) hut
        · exact hold
    | unlink htaken =>
        rcases entries_setEntry hentry with ⟨_, hnode⟩ | hold
        · cases hnode
        · exact hold

theorem Genuine.step {digest : ArtifactDigest} {inode : ℕ} (h : Genuine digest inode x)
    (hsame : (x.step t r i).state.contents inode = x.state.contents inode) :
    Genuine digest inode (x.step t r i) := by
  obtain ⟨hhash, e, he, old, hr, hold, hbytes⟩ := h
  refine ⟨by rw [hsame]; exact hhash, e, List.mem_cons_of_mem _ he, old, hr, hold, ?_⟩
  rw [hsame]
  exact hbytes

omit [Platform] in
/-- The number a thread draws is new. -/
theorem counted_step (hcounted : ∀ e ∈ x.past, ∀ p, e.request = .fetchAdd p →
      (e.before.memory p).run ≤ (x.state.memory p).run ∧
        ((e.before.memory p).run = (x.state.memory p).run →
          (e.before.memory p).counter < (x.state.memory p).counter)) :
    ∀ e ∈ (x.step t r i).past, ∀ p, e.request = .fetchAdd p →
      (e.before.memory p).run ≤ ((x.step t r i).state.memory p).run ∧
        ((e.before.memory p).run = ((x.step t r i).state.memory p).run →
          (e.before.memory p).counter < ((x.step t r i).state.memory p).counter) := by
  have hle : ∀ p, (x.state.memory p).counter ≤ ((x.step t r i).state.memory p).counter := by
    intro p
    have heffect := perform_effect r i x.state
    change (x.state.memory p).counter ≤ ((perform r i x.state).2.memory p).counter
    generalize (perform r i x.state).2 = s' at heffect
    cases heffect with
    | @fetchAdd process =>
        by_cases hp : p = process
        · subst hp
          simp only [Files.setMemory, Function.update_self]
          omega
        · simp only [Files.setMemory, Function.update_of_ne hp, le_refl]
    | none | mkdir | createNew | write | link | unlink => exact le_rfl
  intro e he p hr
  have hrun : ((x.step t r i).state.memory p).run = (x.state.memory p).run :=
    perform_run r i x.state p
  rw [hrun]
  rcases List.mem_cons.mp he with rfl | he
  · refine ⟨le_rfl, fun _ => ?_⟩
    have hr' : r = .fetchAdd p := hr
    subst hr'
    change (x.state.memory p).counter < ((x.state.fetchAdd p).2.memory p).counter
    simp only [Files.fetchAdd, Files.setMemory, Function.update_self]
    omega
  · obtain ⟨hrun', hcounter⟩ := hcounted e he p hr
    exact ⟨hrun', fun h => lt_of_lt_of_le (hcounter h) (hle p)⟩

omit [Platform] in
theorem perform_parents (hroot : x.state.entries [] = some .directory)
    (hparents : ∀ path, path ≠ [] → x.state.entries path ≠ none →
      x.state.entries path.dropLast = some .directory) :
    (x.step t r i).state.entries [] = some .directory ∧
      ∀ path, path ≠ [] → (x.step t r i).state.entries path ≠ none →
        (x.step t r i).state.entries path.dropLast = some .directory := by
  have heffect := perform_effect r i x.state
  change (perform r i x.state).2.entries [] = some .directory ∧
    ∀ path, path ≠ [] → (perform r i x.state).2.entries path ≠ none →
      (perform r i x.state).2.entries path.dropLast = some .directory
  generalize (perform r i x.state).2 = s' at heffect
  -- a directory stays one when some other name changes
  have hset : ∀ {path : Path} {node : Option Node}, x.state.entries path ≠ some .directory →
      (node ≠ none → x.state.entries path.dropLast = some .directory) →
      (x.state.setEntry path node).entries [] = some .directory ∧
        ∀ path', path' ≠ [] → (x.state.setEntry path node).entries path' ≠ none →
          (x.state.setEntry path node).entries path'.dropLast = some .directory := by
    intro path node hold hnode
    have hdirectory : ∀ path', x.state.entries path' = some .directory →
        (x.state.setEntry path node).entries path' = some .directory := by
      intro path' h
      have hne : path' ≠ path := by
        rintro rfl
        exact hold h
      exact (Function.update_of_ne hne _ _).trans h
    refine ⟨hdirectory [] hroot, fun path' hne hentry => hdirectory _ ?_⟩
    by_cases hp : path' = path
    · subst hp
      refine hnode fun hnone => hentry ?_
      rw [hnone]
      exact Function.update_self _ _ _
    · refine hparents path' hne fun hnone => hentry ?_
      exact (Function.update_of_ne hp _ _).trans hnone
  cases heffect with
  | none | fetchAdd | write => exact ⟨hroot, hparents⟩
  | mkdir hfree hparent => exact hset (by simp [hfree]) fun _ => hparent
  | createNew hfree hparent => exact hset (by simp [hfree]) fun _ => hparent
  | link hsource hfree hparent => exact hset (by simp [hfree]) fun _ => hparent
  | unlink htaken => exact hset (by simp [htaken]) fun h => absurd rfl h

omit [Platform] in
theorem perform_allocated (halloc : ∀ path inode, x.state.entries path = some (.file inode) →
      inode < x.state.inodes) :
    x.state.inodes ≤ (x.step t r i).state.inodes ∧
      ∀ path inode, (x.step t r i).state.entries path = some (.file inode) →
        inode < (x.step t r i).state.inodes := by
  have heffect := perform_effect r i x.state
  change x.state.inodes ≤ (perform r i x.state).2.inodes ∧
    ∀ path inode, (perform r i x.state).2.entries path = some (.file inode) →
      inode < (perform r i x.state).2.inodes
  generalize (perform r i x.state).2 = s' at heffect
  cases heffect with
  | none | fetchAdd | write => exact ⟨le_rfl, halloc⟩
  | mkdir hfree hparent =>
      refine ⟨le_rfl, fun path inode h => ?_⟩
      rcases entries_setEntry h with ⟨_, hnode⟩ | hold
      · cases hnode
      · exact halloc path inode hold
  | createNew hfree hparent =>
      refine ⟨Nat.le_succ _, fun path inode h => ?_⟩
      rcases entries_setEntry h with ⟨_, hnode⟩ | hold
      · cases hnode
        exact Nat.lt_succ_self _
      · exact Nat.lt_succ_of_lt (halloc path inode hold)
  | @link old new inode' hsource hfree hparent =>
      refine ⟨le_rfl, fun path inode h => ?_⟩
      rcases entries_setEntry h with ⟨_, hnode⟩ | hold
      · cases hnode
        exact halloc old _ hsource
      · exact halloc path inode hold
  | unlink htaken =>
      refine ⟨le_rfl, fun path inode h => ?_⟩
      rcases entries_setEntry h with ⟨_, hnode⟩ | hold
      · cases hnode
      · exact halloc path inode hold

/-- Where a name other than a temporary one comes from: it was there, or the request made it. -/
theorem legal_entry (hl : Legal q t x r) {path : Path} {node : Node}
    (h : (x.step t r i).state.entries path = some node) (hp : ¬ StoreDirectory path) :
    x.state.entries path = some node ∨
      (r = .createNew path ∧ x.state.entries path = none ∧ node = .file x.state.inodes ∧
        (x.step t r i).state.contents x.state.inodes = []) ∨
      ∃ old inode, r = .link old path ∧ node = .file inode ∧
        x.state.entries old = some (.file inode) := by
  have heffect := perform_effect r i x.state
  change (perform r i x.state).2.entries path = some node at h
  change _ ∨ (_ ∧ _ ∧ _ ∧ (perform r i x.state).2.contents x.state.inodes = []) ∨ _
  generalize (perform r i x.state).2 = s' at heffect h ⊢
  have hset : ∀ {path' : Path} {node' : Option Node},
      (x.state.setEntry path' node').entries path = some node → (path = path' ∧ node' = some node) ∨
        x.state.entries path = some node := by
    intro path' node' h
    by_cases he : path = path'
    · subst he
      simp only [Files.setEntry, Function.update_self] at h
      exact Or.inl ⟨rfl, h⟩
    · exact Or.inr ((Function.update_of_ne he _ _).symm.trans h)
  cases heffect with
  | none | fetchAdd | write => exact Or.inl h
  | mkdir hfree hparent =>
      rcases hset h with ⟨rfl, _⟩ | hold
      · exact absurd hl hp
      · exact Or.inl hold
  | createNew hfree hparent =>
      rcases hset h with ⟨rfl, hnode⟩ | hold
      · cases hnode
        exact Or.inr (Or.inl ⟨rfl, hfree, rfl, Function.update_self _ _ _⟩)
      · exact Or.inl hold
  | @link old new inode hsource hfree hparent =>
      rcases hset h with ⟨rfl, hnode⟩ | hold
      · cases hnode
        exact Or.inr (Or.inr ⟨old, inode, rfl, rfl, hsource⟩)
      · exact Or.inl hold
  | unlink htaken =>
      rcases hset h with ⟨_, hnode⟩ | hold
      · cases hnode
      · exact Or.inl hold

/-- Legal requests keep the store orderly. -/
theorem legal_orderly {intact : Bool} (hx : Orderly intact x) (hl : Legal q t x r) :
    Orderly intact (x.step t r i) := by
  have hkeeps : Keeps true x.state (x.step t r i).state := legal_keeps hx hl
  obtain ⟨hroot, hparents⟩ := perform_parents (t := t) (r := r) (i := i) hx.root hx.parents
  obtain ⟨hle, halloc⟩ := perform_allocated (t := t) (r := r) (i := i) hx.allocated
  refine ⟨hroot, hparents, halloc, ?_, ?_, counted_step hx.counted, ?_, ?_, ?_⟩
  · intro u inode hc
    rcases hc.of_step with hc | ⟨_, _, _, hnext⟩
    · exact lt_of_lt_of_le (hx.created u inode hc) hle
    · omega
  · -- two creations of one inode are of one thread: a new inode is above all old ones
    intro u u' inode hc hc'
    rcases hc.of_step with hold | ⟨rfl, _, hnew, _⟩ <;>
      rcases hc'.of_step with hold' | ⟨rfl, _, hnew', _⟩
    · exact hx.creator u u' inode hold hold'
    · exact absurd (hx.created u inode hold) (by omega)
    · exact absurd (hx.created u' inode hold') (by omega)
    · rfl
  · -- likewise a new number is above all that were drawn from the same process
    have hnew : ∀ {u p s}, Drawn u p s x → (x.state.memory p).counter = s → False := by
      rintro u p s ⟨e, he, _, hr, hrun, hs⟩ hcounter
      have := (hx.counted e he p hr).2 hrun
      omega
    intro u u' p s hd hd'
    rcases hd.of_step with hold | ⟨rfl, _, hs⟩ <;> rcases hd'.of_step with hold' | ⟨rfl, _, hs'⟩
    · exact hx.drawer u u' p s hold hold'
    · exact absurd hs' (hnew hold)
    · exact absurd hs (hnew hold')
    · rfl
  · intro digest node hentry
    rcases legal_entry hl hentry (fun h => h.ne_artifactPath _ rfl) with
      hold | ⟨hr, _⟩ | ⟨old, inode, hr, rfl, hsource⟩
    · obtain ⟨inode, rfl, hgenuine⟩ := hx.artifacts digest node hold
      refine ⟨inode, rfl, fun hi => (hgenuine hi).step ?_⟩
      exact hkeeps.contents rfl _ _ hold (artifactPath_not_temporary digest)
    · subst hr
      rcases hl with ⟨d, s, _, hpath⟩ | ⟨_, _, bytes, source, _, hpath, _⟩
      · exact absurd ⟨d, _, s, hpath⟩ (artifactPath_not_temporary digest)
      · exact absurd hpath.symm (markerPath_ne_artifactPath _ _ _)
    · subst hr
      obtain ⟨_, _, bytes, _, _, _, _, _, hnew, hfile⟩ := hl
      obtain ⟨_, hbytes⟩ := hfile inode hsource
      have hdigest := artifactPath_injective hnew
      have hsame : (x.step t (.link old (artifactPath digest)) i).state.contents inode =
          x.state.contents inode := by
        have heffect := perform_effect (.link old (artifactPath digest)) i x.state
        change (perform (.link old (artifactPath digest)) i x.state).2.contents inode = _
        generalize (perform (.link old (artifactPath digest)) i x.state).2 = s' at heffect
        cases heffect <;> rfl
      refine ⟨inode, rfl, fun _ => ⟨?_, _, List.mem_cons_self, old, rfl, hsource, hsame.symm⟩⟩
      rw [hsame, hbytes, hdigest]
  · intro digest source node hentry
    rcases legal_entry hl hentry (fun h => h.ne_markerPath _ _ rfl) with
      hold | ⟨hr, hfree, rfl, hempty⟩ | ⟨old, inode, hr, _, _⟩
    · obtain ⟨inode, rfl, hempty, e, he, hmade⟩ := hx.markers digest source node hold
      refine ⟨inode, rfl, fun hi => ?_, e, List.mem_cons_of_mem _ he, hmade⟩
      rw [hkeeps.contents rfl _ _ hold (markerPath_not_temporary digest source)]
      exact hempty hi
    · exact ⟨_, rfl, fun _ => hempty, _, List.mem_cons_self, hr, hfree, hentry⟩
    · subst hr
      obtain ⟨_, _, bytes, _, _, _, _, _, hnew, _⟩ := hl
      exact absurd hnew (markerPath_ne_artifactPath _ _ _)

end discipline

end Cheirismos.Publishing

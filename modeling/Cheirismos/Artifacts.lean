import Cheirismos.Provenance

/-! # The evidence directory as an atomic store

The supervisor reads evidence from an `ArtifactStore`: the bytes of each digest and the length of
each marker, as they are at one moment.  Here the directory that the publishers share is shown to
be one (`artifacts`).

Whatever publishers, readers and crashes do to it one system call at a time, the store they make of
it only moves by whole artifacts and whole markers (`Moves`): a link adds all the bytes of some
publication under their digest, a marker appears when its artifact is there, and no other call
changes anything (`step_moves`).  And a read answers as if it had looked at the store once, when
it returned; a read that fails, although none of its system calls did, has met a store in which
what it asks for was not there (`evidence_atomic`). -/

namespace Cheirismos.Publishing

open Process Directories

/-! ### The store in the directory -/

/-- The bytes of a file. -/
def fileAt (s : Files) (path : Path) : Option Bytes :=
  match s.entries path with
  | some (.file inode) => some (s.contents inode)
  | _ => none

/-- What a read sees of the directory. -/
def artifacts (root : String) (s : Files) : ArtifactStore where
  root := root
  file digest := fileAt s (artifactPath digest)
  marker digest source := (fileAt s (markerPath digest source)).map List.length

theorem fileAt_of_entry {s : Files} {path : Path} {inode : ℕ}
    (h : s.entries path = some (.file inode)) : fileAt s path = some (s.contents inode) := by
  unfold fileAt
  rw [h]

theorem fileAt_of_free {s : Files} {path : Path} (h : s.entries path = none) :
    fileAt s path = none := by
  unfold fileAt
  rw [h]

theorem fileAt_congr {s s' : Files} {path : Path} (h : s'.entries path = s.entries path)
    (hbytes : ∀ inode, s.entries path = some (.file inode) → s'.contents inode = s.contents inode) :
    fileAt s' path = fileAt s path := by
  unfold fileAt
  rw [h]
  split
  · next inode hentry => rw [hbytes inode hentry]
  · rfl

section atomic

variable [Platform]

/-! ### What a call does to it -/

/-- What a system call may do to the files that reads see. -/
inductive Changes (q : EvidenceCall) (t : ℕ) (past : List (Event (Directories.machine Tampers)))
    (s s' : Files) : Prop
  | nothing (same : ∀ path, ¬ Temporary path → fileAt s' path = fileAt s path)
  | artifact {p n : ℕ} {bytes : Bytes} {source : EvidenceSource}
      (call : q = .publish p n bytes source)
      (free : fileAt s (artifactPath (Platform.sha256 bytes)) = none)
      (added : fileAt s' (artifactPath (Platform.sha256 bytes)) = some bytes)
      (rest : ∀ path, ¬ Temporary path → path ≠ artifactPath (Platform.sha256 bytes) →
        fileAt s' path = fileAt s path)
  | marker {p n : ℕ} {bytes : Bytes} {source : EvidenceSource}
      (call : q = .publish p n bytes source) (verified : Verified t (Platform.sha256 bytes) past)
      (free : fileAt s (markerPath (Platform.sha256 bytes) source) = none)
      (added : fileAt s' (markerPath (Platform.sha256 bytes) source) = some [])
      (rest : ∀ path, ¬ Temporary path → path ≠ markerPath (Platform.sha256 bytes) source →
        fileAt s' path = fileAt s path)

/-- A legal call adds a whole artifact, a marker or nothing. -/
theorem legal_changes {q : EvidenceCall} {t : ℕ} {x : Point} {r : Syscall} {i : Outcome}
    (hx : Orderly true x) (hl : Legal q t x r) :
    Changes q t x.past x.state (x.step t r i).state := by
  have heffect := Directories.perform_effect r i x.state
  have hstate : (x.step t r i).state = (Directories.perform r i x.state).2 := rfl
  rw [hstate]
  generalize (Directories.perform r i x.state).2 = s' at heffect
  have hother : ∀ {path : Path} {node : Option Node} {path' : Path}, path' ≠ path →
      fileAt (x.state.setEntry path node) path' = fileAt x.state path' := fun hne =>
    fileAt_congr (Function.update_of_ne hne _ _) fun _ _ => rfl
  cases heffect with
  | none => exact .nothing fun _ _ => rfl
  | fetchAdd => exact .nothing fun _ _ => rfl
  | @mkdir path free parent =>
      refine .nothing fun path' _ => ?_
      by_cases hp : path' = path
      · subst hp
        rw [fileAt_of_free free]
        unfold fileAt
        rw [show (x.state.setEntry path' (some .directory)).entries path' = some .directory from
          Function.update_self _ _ _]
      · exact hother hp
  | @createNew path free parent =>
      have hsame : ∀ path', path' ≠ path → fileAt { x.state.setEntry path (some (.file x.state.inodes))
          with contents := Function.update x.state.contents x.state.inodes []
               inodes := x.state.inodes + 1 } path' = fileAt x.state path' := fun path' hne =>
        fileAt_congr (Function.update_of_ne hne _ _) fun inode hentry =>
          Function.update_of_ne (ne_of_lt (hx.allocated path' inode hentry)) _ _
      rcases hl with ⟨digest, s, _, rfl⟩ | ⟨p, n, bytes, source, rfl, rfl, hverified⟩
      · refine .nothing fun path' hp => hsame path' ?_
        rintro rfl
        exact hp ⟨digest, _, s, rfl⟩
      · refine .marker rfl hverified (fileAt_of_free free) ?_ fun path' _ hne => hsame path' hne
        refine (@fileAt_of_entry _ _ x.state.inodes ?_).trans ?_
        · exact Function.update_self _ _ _
        · exact congrArg some (Function.update_self _ _ _)
  | @write inode bytes written =>
      refine .nothing fun path' hp => fileAt_congr rfl fun inode' hentry => ?_
      refine Function.update_of_ne ?_ _ _
      rintro rfl
      exact hp (hl.2 path' hentry)
  | @link old new inode source free parent =>
      obtain ⟨p, n, bytes, origin, s, rfl, _, _, rfl, hfile⟩ := hl
      refine .artifact rfl (fileAt_of_free free) ?_ fun path' _ hne => hother hne
      refine (@fileAt_of_entry _ _ inode ?_).trans ?_
      · exact Function.update_self _ _ _
      · exact congrArg some (hfile inode source).2
  | @unlink path inode taken =>
      obtain ⟨digest, s, _, rfl⟩ := hl
      refine .nothing fun path' hp => hother ?_
      rintro rfl
      exact hp ⟨digest, _, s, rfl⟩

/-! ### Steps -/

/-- How the store may move while the calls of a configuration run: not at all, by a whole artifact
that one of them publishes, or by a marker that one of them sets, whose artifact is there. -/
inductive Moves {root : String} (c : (evidence root).Config) (a : ArtifactStore) :
    ArtifactStore → Prop
  | none : Moves c a a
  | artifact {t p n : ℕ} {bytes : Bytes} {source : EvidenceSource}
      (call : c.calls t = some (.publish p n bytes source))
      (free : a.file (Platform.sha256 bytes) = Option.none) :
      Moves c a { a with file := Function.update a.file (Platform.sha256 bytes) (some bytes) }
  | marker {t p n : ℕ} {bytes : Bytes} {source : EvidenceSource}
      (call : c.calls t = some (.publish p n bytes source))
      (stored : ∃ bytes', a.file (Platform.sha256 bytes) = some bytes' ∧
        Platform.sha256 bytes' = Platform.sha256 bytes)
      (free : a.marker (Platform.sha256 bytes) source = Option.none) :
      Moves c a { a with
        marker := Function.update a.marker (Platform.sha256 bytes)
          (Function.update (a.marker (Platform.sha256 bytes)) source (some 0)) }

section store

variable {root : String}

omit [Platform] in
/-- Files that look the same make the same store. -/
theorem artifacts_congr {s s' : Files}
    (h : ∀ path, ¬ Temporary path → fileAt s' path = fileAt s path) :
    artifacts root s' = artifacts root s := by
  unfold artifacts
  have hfile : (fun digest => fileAt s' (artifactPath digest)) =
      fun digest => fileAt s (artifactPath digest) :=
    funext fun digest => h _ (artifactPath_not_temporary digest)
  have hmarker : (fun digest source => (fileAt s' (markerPath digest source)).map List.length) =
      fun digest source => (fileAt s (markerPath digest source)).map List.length :=
    funext fun digest => funext fun source => by rw [h _ (markerPath_not_temporary digest source)]
  rw [hfile, hmarker]

omit [Platform] in
/-- A new file at the path of a digest is a new artifact. -/
theorem artifacts_artifact {s s' : Files} {digest : ArtifactDigest} {bytes : Bytes}
    (hadded : fileAt s' (artifactPath digest) = some bytes)
    (hrest : ∀ path, ¬ Temporary path → path ≠ artifactPath digest →
      fileAt s' path = fileAt s path) :
    artifacts root s' = { artifacts root s with
      file := Function.update (artifacts root s).file digest (some bytes) } := by
  unfold artifacts
  have hfile : (fun digest' => fileAt s' (artifactPath digest')) =
      Function.update (fun digest' => fileAt s (artifactPath digest')) digest (some bytes) := by
    funext digest'
    by_cases hd : digest' = digest
    · subst hd
      rw [Function.update_self, hadded]
    · rw [Function.update_of_ne hd]
      exact hrest _ (artifactPath_not_temporary digest') fun h => hd (artifactPath_injective h)
  have hmarker : (fun digest source => (fileAt s' (markerPath digest source)).map List.length) =
      fun digest source => (fileAt s (markerPath digest source)).map List.length :=
    funext fun digest' => funext fun source => by
      rw [hrest _ (markerPath_not_temporary digest' source)
        (markerPath_ne_artifactPath digest' digest source)]
  rw [hfile, hmarker]

omit [Platform] in
/-- A new empty file at the path of a marker is a new marker. -/
theorem artifacts_marker {s s' : Files} {digest : ArtifactDigest} {source : EvidenceSource}
    (hadded : fileAt s' (markerPath digest source) = some [])
    (hrest : ∀ path, ¬ Temporary path → path ≠ markerPath digest source →
      fileAt s' path = fileAt s path) :
    artifacts root s' = { artifacts root s with
      marker := Function.update (artifacts root s).marker digest
        (Function.update ((artifacts root s).marker digest) source (some 0)) } := by
  unfold artifacts
  have hfile : (fun digest => fileAt s' (artifactPath digest)) =
      fun digest => fileAt s (artifactPath digest) :=
    funext fun digest' => hrest _ (artifactPath_not_temporary digest')
      (markerPath_ne_artifactPath digest digest' source).symm
  have hmarker : (fun digest source => (fileAt s' (markerPath digest source)).map List.length) =
      Function.update
        (fun digest source => (fileAt s (markerPath digest source)).map List.length) digest
        (Function.update (fun source => (fileAt s (markerPath digest source)).map List.length)
          source (some 0)) := by
    funext digest' source'
    by_cases hd : digest' = digest
    · subst hd
      rw [Function.update_self]
      by_cases hs : source' = source
      · subst hs
        rw [Function.update_self, hadded]
        rfl
      · rw [Function.update_of_ne hs, hrest _ (markerPath_not_temporary _ _)
          fun h => hs (markerPath_injective h).2]
    · rw [Function.update_of_ne hd, hrest _ (markerPath_not_temporary _ _)
        fun h => hd (markerPath_injective h).1]
  rw [hfile, hmarker]

variable {c c' : (evidence root).Config}

/-- What was there at a recorded request is still there. -/
theorem recorded_keeps (h : (evidence root).Undisturbed c) :
    ∀ e ∈ c.history, Keeps true e.before c.state := by
  have hD := publication_sound true root
  induction h with
  | refl => exact fun e he => by cases he
  | @tail d d' hr hs ih =>
      have hkeeps := run_keeps (hD.undisturbed hr) (.single hs)
      have hold : ∀ e ∈ d.history, Keeps true e.before d'.state := fun e he =>
        (ih e he).trans hkeeps
      cases hs with
      | call q => exact hold
      | act i ht =>
          intro e he
          rcases List.mem_cons.mp he with rfl | he
          · exact hkeeps
          · exact hold e he
      | «return» ht => exact hold
      | crash p => exact hold

/-- What a thread has verified is there. -/
theorem verified_stored (h : (evidence root).Undisturbed c) {t : ℕ} {digest : ArtifactDigest}
    (hv : Verified t digest c.history) :
    ∃ bytes, (artifacts root c.state).file digest = some bytes ∧ Platform.sha256 bytes = digest := by
  obtain ⟨e, he, _, inode, _, _, hstored, hhash⟩ := hv
  have hkeeps := recorded_keeps h e he
  refine ⟨c.state.contents inode, fileAt_of_entry (hkeeps.stored hstored), ?_⟩
  rw [hkeeps.contents rfl _ _ hstored (artifactPath_not_temporary digest)]
  exact hhash

/-- Every move of the publishers is one of the store. -/
theorem step_moves (h : (evidence root).Undisturbed c) (hs : (evidence root).Step c c') :
    Moves c (artifacts root c.state) (artifacts root c'.state) := by
  have hD := publication_sound true root
  have hok := hD.undisturbed h
  cases hs with
  | call q => exact .none
  | @act t r k i ht =>
      obtain ⟨q, hq, hhold⟩ := hok.threads t _ ht
      have hl : Legal q t c.moment r := (hhold c.moment ((hD.lawful q).refl t _) hok.inv).1
      have hchanges := legal_changes (i := i) hok.inv hl
      cases hchanges with
      | nothing same =>
          have hsame : artifacts root (c.acted t r i k).state = artifacts root c.state :=
            artifacts_congr same
          rw [hsame]
          exact .none
      | artifact call free added rest =>
          have hadded : artifacts root (c.acted t r i k).state = _ := artifacts_artifact added rest
          rw [hadded]
          exact .artifact (t := t) (hq.trans (congrArg some call)) free
      | marker call verified free added rest =>
          have hadded : artifacts root (c.acted t r i k).state = _ := artifacts_marker added rest
          rw [hadded]
          refine .marker (t := t) (hq.trans (congrArg some call)) (verified_stored h verified) ?_
          change (fileAt c.state _).map List.length = _
          rw [show fileAt c.state _ = _ from free]
          rfl
  | «return» ht => exact .none
  | crash p => exact .none

end store

/-! ### Reads -/

/-- A source that was verified is marked. -/
def Sealed : EvidenceCall → EvidenceResult → Files → Prop
  | .verifySource _ digest source, .artifact (.ok _), s => Marked digest source s
  | _, _, _ => True

theorem Sealed.keep {q : EvidenceCall} {result : EvidenceResult} {s s' : Files}
    (hk : Keeps true s s') (h : Sealed q result s) : Sealed q result s' := by
  unfold Sealed at h ⊢
  split
  · obtain ⟨inode, hentry⟩ := h
    exact ⟨inode, hk.entries _ _ hentry (markerPath_not_temporary _ _)⟩
  · trivial

/-- The discipline of the evidence store, where a verified source is marked. -/
def inspection (root : String) : (evidence root).Discipline where
  inv := Orderly true
  legal := Legal
  rely := Rely true
  post q t result x := Post true q t result x ∧ Sealed q result x.state

section reads

variable {root : String} {t : ℕ}

theorem body_sealed (q : EvidenceCall) {x : Point} (hx : Orderly true x) :
    ((inspection root).rules q).Holds t ((evidence root).body q)
      ((inspection root).post q t) x := by
  have hbody : ((publication true root).rules q).Holds t ((evidence root).body q) (Post true q t) x :=
    body_holds q hx
  cases q with
  | publish p n bytes source =>
      exact Rules.Holds.weaken hbody fun result y _ hpost => ⟨hpost, trivial⟩
  | read p digest => exact Rules.Holds.weaken hbody fun result y _ hpost => ⟨hpost, trivial⟩
  | verifySource p digest source =>
      have hverify : Ensures true root (.verifySource p digest source) t
          (verifySource root digest source) _ _ x := verifySource_spec hx
      refine Rules.Holds.map (g := EvidenceResult.artifact)
        (Rules.Holds.weaken hverify fun result y _ hend => ?_)
      refine ⟨reads_of_ended (hend.weaken And.left), ?_⟩
      cases result with
      | ok artifact => exact hend.2
      | error e => trivial

theorem inspection_sound (root : String) : (inspection root).Sound where
  refl := (publication_sound true root).refl
  trans := (publication_sound true root).trans
  initial := orderly_empty
  keep := (publication_sound true root).keep
  guarantee := (publication_sound true root).guarantee
  post_stable q t u a q' x r i hx hl hne h :=
    ⟨(publication_sound true root).post_stable q t u a q' x r i hx hl hne h.1,
      h.2.keep (legal_keeps hx hl)⟩
  ended := (publication_sound true root).ended
  ended_rely := (publication_sound true root).ended_rely
  ended_post p q t a x h := by
    have hkeeps : Keeps true x.state (x.state.ended p) :=
      ⟨fun _ _ h _ => h, fun _ _ _ _ _ => rfl⟩
    exact ⟨(publication_sound true root).ended_post p q t a x h.1, h.2.keep hkeeps⟩
  body q t x hx _ := body_sealed q hx

/-- What the store answers to a read that looks at it once. -/
def EvidenceCall.answer (a : ArtifactStore) :
    EvidenceCall → Option (Except EvidenceError VerifiedArtifact)
  | .read _ digest => some (a.read none digest)
  | .verifySource _ digest source => some (a.verifySource none digest source)
  | .publish _ _ _ _ => none

variable {a : ArtifactStore} {digest : ArtifactDigest} {source : EvidenceSource}
  {artifact : VerifiedArtifact}

theorem read_stored (hfile : a.file digest = some artifact.bytes)
    (hdigest : artifact.digest = digest) : a.read none digest = .ok artifact := by
  subst hdigest
  unfold ArtifactStore.read
  simp only [hfile]
  rw [dif_pos artifact.verified]

theorem read_missing (h : a.file digest = none) : ∃ error, a.read none digest = .error error := by
  unfold ArtifactStore.read
  simp only [h]
  exact ⟨_, rfl⟩

theorem verifySource_marked (hread : a.read none digest = .ok artifact)
    (hmarker : a.marker digest source = some 0) :
    a.verifySource none digest source = .ok artifact := by
  unfold ArtifactStore.verifySource
  rw [hread]
  simp only [bind, Except.bind, hmarker, if_pos]
  rfl

theorem verifySource_missing
    (h : (∃ error, a.read none digest = .error error) ∨ a.marker digest source = none) :
    ∃ error, a.verifySource none digest source = .error error := by
  unfold ArtifactStore.verifySource
  cases hr : a.read none digest with
  | error error => exact ⟨error, rfl⟩
  | ok artifact =>
      rcases h with ⟨error, he⟩ | hm
      · rw [hr] at he
        cases he
      · simp only [bind, Except.bind, hm]
        exact ⟨_, rfl⟩

omit [Platform] in
/-- Where no file is found there is none. -/
theorem fileAt_missing {s : Files} {path : Path}
    (h : ¬ ∃ inode, s.entries path = some (.file inode)) : fileAt s path = none := by
  unfold fileAt
  split
  · next inode hentry => exact absurd ⟨inode, hentry⟩ h
  · rfl

variable {c c' : (evidence root).Config}

/-- A marker is empty. -/
theorem marked_empty (h : (evidence root).Undisturbed c) (hm : Marked digest source c.state) :
    (artifacts root c.state).marker digest source = some 0 := by
  obtain ⟨inode, hentry⟩ := hm
  have hinv : Orderly true c.moment := ((publication_sound true root).undisturbed h).inv
  obtain ⟨inode', hnode, hempty, _⟩ := hinv.markers digest source _ hentry
  cases hnode
  have hbytes : fileAt c.state (markerPath digest source) = some [] :=
    (fileAt_of_entry hentry).trans (congrArg some (hempty rfl))
  change (fileAt c.state (markerPath digest source)).map List.length = some 0
  rw [hbytes]
  rfl

/-- What a read has returned is there. -/
theorem Exact.read (h : Exact true digest artifact c.moment) :
    (artifacts root c.state).read none digest = .ok artifact := by
  obtain ⟨hdigest, hstored⟩ := h
  obtain ⟨inode, hentry, hbytes⟩ := hstored rfl
  exact read_stored ((fileAt_of_entry hentry).trans (congrArg some hbytes)) hdigest

/-- A read that fails by none of its system calls has met a directory without `P`. -/
theorem Reads.met {P : Files → Prop} {error : EvidenceError}
    (h : Reads true digest P t (.error error) c.moment) (hquiet : Untroubled t c) :
    ∃ e ∈ c.history, e.thread = t ∧ ¬ P e.before := by
  by_contra hnone
  have hsmooth : Smooth P t c.history := fun e he ht =>
    ⟨hquiet e he ht, by_contra fun hp => hnone ⟨e, he, ht, hp⟩⟩
  obtain ⟨artifact, hok⟩ := h.2 rfl hsmooth
  cases hok

/-- The evidence directory under any number of publishers, readers and crashes is one store whose
moves are whole artifacts and whole markers.  What a publication has returned is in it from then
on; a read or verification that succeeds has returned what the store answers then and ever after,
and one that fails, though none of its system calls did, was made while the store would have
refused it. -/
theorem evidence_atomic (h : (evidence root).Undisturbed c) :
    (∀ c', (evidence root).Step c c' →
      Moves c (artifacts root c.state) (artifacts root c'.state)) ∧
    (∀ t p n bytes source digest, c.calls t = some (.publish p n bytes source) →
      c.results t = some (.published (.ok digest)) → ∀ c', (evidence root).Run c c' →
        digest = Platform.sha256 bytes ∧
        (∃ bytes', (artifacts root c'.state).file digest = some bytes' ∧
          Platform.sha256 bytes' = digest) ∧
        (artifacts root c'.state).marker digest source = some 0) ∧
    ∀ t q result, c.calls t = some q → c.results t = some (.artifact result) →
      (∀ artifact, result = .ok artifact → ∀ c', (evidence root).Run c c' →
        q.answer (artifacts root c'.state) = some (.ok artifact)) ∧
      (∀ error, result = .error error → Untroubled t c → ∃ e ∈ c.history, e.thread = t ∧
        ∃ error', q.answer (artifacts root e.before) = some (.error error')) := by
  have hD := publication_sound true root
  have hI := inspection_sound root
  have hok := hD.undisturbed h
  refine ⟨fun c' hs => step_moves h hs, ?_, ?_⟩
  · intro t p n bytes source digest hcall hresult c' hr
    obtain ⟨hdigest, ⟨inode, hstored⟩, hmarked⟩ := published_provided hok hcall hresult hr
    have hinv : Orderly true c'.moment := (hD.run hok hr).inv
    obtain ⟨inode', hnode, hgenuine⟩ := hinv.artifacts digest _ hstored
    cases hnode
    exact ⟨hdigest, ⟨_, fileAt_of_entry hstored, (hgenuine rfl).1⟩, marked_empty (h.run hr) hmarked⟩
  · intro t q result hcall hresult
    constructor
    · rintro artifact rfl c' hr
      obtain ⟨_, q', hq', hpost, hsealed⟩ :=
        (hI.run (hI.undisturbed h) hr).results t _ (hD.run_results hok hr hresult)
      rw [hD.run_calls hok hr hcall] at hq'
      cases hq'
      cases q with
      | publish p n bytes source => exact hpost.elim
      | read p digest => exact congrArg some (Exact.read (hpost.1 artifact rfl))
      | verifySource p digest source =>
          exact congrArg some (verifySource_marked (Exact.read (hpost.1 artifact rfl))
            (marked_empty (h.run hr) hsealed))
    · rintro error rfl hquiet
      obtain ⟨_, q', hq', hpost, _⟩ := (hI.undisturbed h).results t _ hresult
      rw [hcall] at hq'
      cases hq'
      cases q with
      | publish p n bytes source => exact hpost.elim
      | read p digest =>
          obtain ⟨e, he, ht, hmissing⟩ := Reads.met hpost hquiet
          obtain ⟨error', herror⟩ := read_missing (a := artifacts root e.before)
            (fileAt_missing hmissing)
          exact ⟨e, he, ht, error', congrArg some herror⟩
      | verifySource p digest source =>
          obtain ⟨e, he, ht, hmissing⟩ := Reads.met hpost hquiet
          have hgone : (∃ error, (artifacts root e.before).read none digest = .error error) ∨
              (artifacts root e.before).marker digest source = none := by
            by_cases hstored : Stored digest e.before
            · refine Or.inr ?_
              have hunmarked : ¬ Marked digest source e.before := fun hm => hmissing ⟨hstored, hm⟩
              change (fileAt e.before (markerPath digest source)).map List.length = none
              rw [fileAt_missing hunmarked]
              rfl
            · exact Or.inl (read_missing (fileAt_missing hstored))
          obtain ⟨error', herror⟩ := verifySource_missing hgone
          exact ⟨e, he, ht, error', congrArg some herror⟩

end reads

end atomic

/-! ### A run -/

namespace Depot

open Bench

/-- The content has been asked for before it is published. -/
def missed : (evidence "/evidence").Config :=
  Crew.play (evidence "/evidence").start (calling 0 13 (.verifySource 7 digest origin))

theorem evidence_atomic_bench :
    EvidenceCall.answer (artifacts "/evidence" fetched.state) (.verifySource 7 digest origin) =
      some (.ok ⟨digest, content, rfl⟩) ∧
    ∃ e ∈ missed.history, ∃ error, EvidenceCall.answer (artifacts "/evidence" e.before)
      (.verifySource 7 digest origin) = some (.error error) := by
  have hfetched : (evidence "/evidence").Undisturbed fetched :=
    Crew.Undisturbed.run (Crew.play_run _ _) (Crew.play_run _ _)
  have hmissed : (evidence "/evidence").Undisturbed missed := Crew.play_run _ _
  obtain ⟨_, _, hreads⟩ := evidence_atomic hfetched
  obtain ⟨_, _, hmisses⟩ := evidence_atomic hmissed
  constructor
  · refine (hreads 1 (.verifySource 7 digest origin) (.ok ⟨digest, content, rfl⟩)
      (by decide +kernel) (by decide +kernel)).1 _ rfl _ Relation.ReflTransGen.refl
  · obtain ⟨error, hresult⟩ : ∃ error, missed.results 0 = some (.artifact (.error error)) :=
      ⟨.io "No such file or directory (os error 2)", by decide +kernel⟩
    have hquiet : Untroubled 0 missed := fun e he _ => by
      have hall : ∀ e ∈ missed.history, e.choice.fault = none := by decide +kernel
      exact hall e he
    obtain ⟨e, he, _, error', hanswer⟩ := (hmisses 0 (.verifySource 7 digest origin) _
      (by decide +kernel) hresult).2 error rfl hquiet
    exact ⟨e, he, error', hanswer⟩

end Depot

end Cheirismos.Publishing

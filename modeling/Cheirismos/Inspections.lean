import Cheirismos.Publications

/-! # Reading evidence

The parts of the evidence store that only look: opening directories and files, and reading an
artifact.  Each has one specification, for any excuse `E` that its failures have: a part fails only
if a system call failed by itself, if what it looks for was not there, or if the bytes may have been
tampered with. -/

namespace Cheirismos.Publishing

open Process Directories Evid

variable [Platform] {intact : Bool} {root : String} {q : EvidenceCall} {t : ℕ} {m : Point}
  {P : Files → Prop} {E : Point → Prop}

/-! ### System calls -/

theorem Legal.looks {x : Point} {r : Syscall} (h : Looks r) : Legal q t x r := by
  cases r <;> trivial

theorem Lasting.steady {F : Point → Prop} (h : Lasting intact q t F) : Steady intact t F :=
  ⟨h.later, fun x r i hx hr hp => h.step x r i hx (.looks hr) hp⟩

omit [Platform] in
theorem step_looks {x : Point} {r : Syscall} (h : Looks r) (i : Outcome) :
    (x.step t r i).state = x.state := perform_looks h i x.state

namespace Ensures

variable {α β : Type} {Q : β → Point → Prop}

/-- A call that only looks. -/
theorem look {r : Syscall} {f : Answer r → Evid β} (hr : Looks r)
    (h : ∀ y i, Later intact t m y → Orderly intact y →
      Ensures intact root q t (f (perform r i y.state).1) Q E (y.step t r i)) :
    Ensures intact root q t (Evid.ask r >>= f) Q E m :=
  .ask fun y hy hi => ⟨.looks hr, fun i => h y i hy hi⟩

/-- Fail for a reason that the last call gives. -/
theorem failed (hE : Excuse intact P t E) {y : Point} {r : Syscall} {i : Outcome}
    (hbad : i.fault ≠ none ∨ ¬ P y.state) {e : EvidenceError} :
    Ensures intact root q t (throw e : Evid β) Q E (y.step t r i) :=
  .throw fun z hz => hE.stays _ z hz
    (hE.failed (y.step t r i) ⟨t, r, i, y.state⟩ List.mem_cons_self rfl hbad)

end Ensures

omit [Platform] in
/-- A call fails by itself, or it answers. -/
theorem faulty_cases {α : Type} (i : Outcome) (s : Files) (result : Except Errno α × Files) :
    (i.fault = none ∧ faulty i s result = result) ∨
      ∃ e, i.fault = some e ∧ faulty i s result = (.error e, s) := by
  unfold faulty
  cases i.fault with
  | none => exact Or.inl ⟨rfl, rfl⟩
  | some e => exact Or.inr ⟨e, rfl, rfl⟩

/-- `fsync` and `fchmod`: nothing happens, unless they fail by themselves. -/
theorem Ensures.quiet {β : Type} {Q : β → Point → Prop} {F : Point → Prop} {r : Syscall}
    {f : Answer r → Evid β} (hE : Excuse intact P t E) (hr : Looks r) (hF : Steady intact t F)
    (hp : F m)
    (hok : ∀ i s z, i.fault = none → Orderly intact z → F z →
      Ensures intact root q t (f (perform r i s).1) Q E z)
    (hfault : ∀ i s fault, i.fault = some fault → f (perform r i s).1 = throw (ioError fault)) :
    Ensures intact root q t (Evid.ask r >>= f) Q E m := by
  refine .look hr fun y i hmy hy => ?_
  cases hi : i.fault with
  | none =>
      have hlegal : Legal q t y r := .looks hr
      exact hok i y.state _ hi (legal_orderly hy hlegal)
        (hF.look y r i hy hr (hF.later m y hmy hp))
  | some fault =>
      rw [hfault i y.state fault hi]
      exact .failed hE (Or.inl (by rw [hi]; simp))

omit [Platform] in
theorem quiet_faulty {i : Outcome} {s : Files} {fault : Errno} (h : i.fault = some fault) :
    (faulty i s (.ok (), s)).1 = .error fault := by
  unfold faulty
  rw [h]

omit [Platform] in
theorem quiet_ok {i : Outcome} {s : Files} (h : i.fault = none) :
    (faulty i s (.ok (), s)).1 = .ok () := by
  unfold faulty
  rw [h]

section quiet

variable {β : Type} {Q : β → Point → Prop} {F : Point → Prop} {handle : Handle} {f : Unit → Evid β}

theorem Ensures.fsync (hE : Excuse intact P t E) (hF : Steady intact t F) (hp : F m)
    (hf : ∀ z, Orderly intact z → F z → Ensures intact root q t (f ()) Q E z) :
    Ensures intact root q t (Evid.ask (.fsync handle) >>= fun v => Evid.io v >>= f) Q E m := by
  refine .quiet (r := .fsync handle) hE trivial hF hp (fun i s z hi hz hz' => ?_)
    fun i s fault hi => ?_
  · rw [show (perform (.fsync handle) i s).1 = .ok () from quiet_ok hi]
    exact hf z hz hz'
  · rw [show (perform (.fsync handle) i s).1 = .error fault from quiet_faulty hi]
    rfl

theorem Ensures.fchmod (hE : Excuse intact P t E) (hF : Steady intact t F) (hp : F m)
    (hf : ∀ z, Orderly intact z → F z → Ensures intact root q t (f ()) Q E z) :
    Ensures intact root q t (Evid.ask (.fchmod handle) >>= fun v => Evid.io v >>= f) Q E m := by
  refine .quiet (r := .fchmod handle) hE trivial hF hp (fun i s z hi hz hz' => ?_)
    fun i s fault hi => ?_
  · rw [show (perform (.fchmod handle) i s).1 = .ok () from quiet_ok hi]
    exact hf z hz hz'
  · rw [show (perform (.fchmod handle) i s).1 = .error fault from quiet_faulty hi]
    rfl

end quiet

theorem fsync_spec (hE : Excuse intact P t E) (handle : Handle) :
    Ensures intact root q t (Evid.ask (.fsync handle) >>= Evid.io) (fun _ _ => True) E m := by
  refine .quiet (r := .fsync handle) (F := fun _ => True) hE trivial
    (Lasting.always (q := q)).steady trivial (fun i s z hi _ _ => ?_) fun i s fault hi => ?_
  · rw [show (perform (.fsync handle) i s).1 = .ok () from quiet_ok hi]
    exact .pure fun _ _ _ => trivial
  · rw [show (perform (.fsync handle) i s).1 = .error fault from quiet_faulty hi]
    rfl

theorem fchmod_spec (hE : Excuse intact P t E) (handle : Handle) :
    Ensures intact root q t (Evid.ask (.fchmod handle) >>= Evid.io) (fun _ _ => True) E m := by
  refine .quiet (r := .fchmod handle) (F := fun _ => True) hE trivial
    (Lasting.always (q := q)).steady trivial (fun i s z hi _ _ => ?_) fun i s fault hi => ?_
  · rw [show (perform (.fchmod handle) i s).1 = .ok () from quiet_ok hi]
    exact .pure fun _ _ _ => trivial
  · rw [show (perform (.fchmod handle) i s).1 = .error fault from quiet_faulty hi]
    rfl

theorem syncDirectory_spec (hE : Excuse intact P t E) (directory : Path) :
    Ensures intact root q t (syncDirectory directory) (fun _ _ => True) E m := fsync_spec hE _

/-! ### Directories -/

/-- Opening what is a directory whenever `P` holds. -/
theorem openDirectory_spec (hE : Excuse intact P t E) {path : Path}
    (hP : ∀ x, Orderly intact x → P x.state → x.state.entries path = some .directory) :
    Ensures intact root q t (openDirectory root path) (fun _ _ => True) E m := by
  refine .look (r := .openDirectory path) trivial fun y i _ hy => ?_
  have hanswer : (perform (.openDirectory path) i y.state).1 =
      (faulty i y.state (y.state.openDirectory path, y.state)).1 := rfl
  rcases faulty_cases i y.state (y.state.openDirectory path, y.state) with
    ⟨_, h⟩ | ⟨fault, hfault, h⟩
  · rw [hanswer, h]
    cases ho : y.state.openDirectory path with
    | ok _ => exact .pure fun _ _ _ => trivial
    | error e =>
        refine .failed hE (Or.inr fun hp => ?_)
        rw [Files.openDirectory, hP y hy hp] at ho
        cases ho
  · rw [hanswer, h]
    exact .failed hE (Or.inl (by rw [hfault]; simp))

/-- Every part of a path that is there is a directory. -/
theorem Orderly.ancestor {x : Point} (hx : Orderly intact x) {front back : Path}
    (h : x.state.entries (front ++ back) ≠ none) (hback : back ≠ []) :
    x.state.entries front = some .directory := by
  induction back using List.reverseRecOn with
  | nil => exact absurd rfl hback
  | append_singleton back component ih =>
      have hparent : x.state.entries (front ++ back) = some .directory := by
        have hdrop : (front ++ (back ++ [component])).dropLast = front ++ back := by
          rw [← List.append_assoc, List.dropLast_concat]
        rw [← hdrop]
        exact hx.parents _ (by simp) h
      by_cases hb : back = []
      · rw [hb, List.append_nil] at hparent
        exact hparent
      · exact ih (by rw [hparent]; simp) hb

/-- Walking down to something that is there whenever `P` holds. -/
theorem descend_spec (hE : Excuse intact P t E) (hm : Orderly intact m) {components : List String}
    {name : String} {parent : Path}
    (hP : ∀ x, Orderly intact x → P x.state →
      x.state.entries (parent ++ components ++ [name]) ≠ none) :
    Ensures intact root q t (descend root false parent components) (fun _ _ => True) E m := by
  induction components generalizing parent m with
  | nil => exact .pure fun _ _ _ => trivial
  | cons component components ih =>
      have hdirectory : ∀ x, Orderly intact x → P x.state →
          x.state.entries (parent ++ [component]) = some .directory := by
        intro x hx hp
        have hentry := hP x hx hp
        have hpath : parent ++ component :: components ++ [name] =
            (parent ++ [component]) ++ (components ++ [name]) := by simp
        rw [hpath] at hentry
        exact hx.ancestor hentry (by simp)
      refine .bind hm hE.stays (openDirectory_spec hE hdirectory) fun _ y hy _ => ih hy ?_
      intro x hx hp
      have hpath : parent ++ [component] ++ components ++ [name] =
          parent ++ component :: components ++ [name] := by simp
      rw [hpath]
      exact hP x hx hp

/-! ### Regular files -/

section regular

variable {path : Path}

theorem validateRegularFile_spec (hE : Excuse intact P t E) (inode : ℕ) :
    Ensures intact root q t (validateRegularFile root (.file inode) path) (fun _ _ => True) E m := by
  refine .look (r := .fstat (.file inode)) trivial fun y i _ _ => ?_
  have hanswer : (perform (.fstat (.file inode)) i y.state).1 =
      (faulty i y.state (.ok (y.state.fstat (.file inode)), y.state)).1 := rfl
  rcases faulty_cases i y.state (.ok (y.state.fstat (.file inode)), y.state) with
    ⟨_, h⟩ | ⟨fault, hfault, h⟩
  · rw [hanswer, h]
    exact .pure fun _ _ _ => trivial
  · rw [hanswer, h]
    exact .failed hE (Or.inl (by rw [hfault]; simp))

theorem secureRegularFile_spec (hE : Excuse intact P t E) (hm : Orderly intact m) (inode : ℕ) :
    Ensures intact root q t (secureRegularFile root (.file inode) path) (fun _ _ => True) E m :=
  .bind hm hE.stays (validateRegularFile_spec hE inode) fun _ _ _ _ => fchmod_spec hE _

/-- A file that is there whenever `P` holds is opened. -/
theorem openRegularFile_spec (hE : Excuse intact P t E)
    (hpath : ¬ Temporary path) (writable : Bool)
    (hfile : ∀ x node, Orderly intact x → x.state.entries path = some node →
      ∃ inode, node = .file inode)
    (hP : ∀ x, Orderly intact x → P x.state → x.state.entries path ≠ none) :
    Ensures intact root q t (openRegularFile root path writable)
      (fun file y => ∃ inode, file = .file inode ∧ y.state.entries path = some (.file inode)) E m := by
  refine .look (r := .openFile path writable) trivial fun y i _ hy => ?_
  have hanswer : (perform (.openFile path writable) i y.state).1 =
      (faulty i y.state (y.state.openFile path writable, y.state)).1 := rfl
  have hstate : (y.step t (.openFile path writable) i).state = y.state :=
    step_looks (r := .openFile path writable) trivial i
  have hstep : Orderly intact (y.step t (.openFile path writable) i) :=
    legal_orderly hy (q := q) (Legal.looks trivial)
  rcases faulty_cases i y.state (y.state.openFile path writable, y.state) with
    ⟨_, h⟩ | ⟨fault, hfault, h⟩
  · rw [hanswer, h]
    cases hentry : y.state.entries path with
    | none =>
        have ho : y.state.openFile path writable = .error .noent := by
          rw [Files.openFile, hentry]
        rw [ho]
        exact .failed hE (Or.inr fun hp => hP y hy hp hentry)
    | some node =>
        obtain ⟨inode, rfl⟩ := hfile y node hy hentry
        have ho : y.state.openFile path writable = .ok (.file inode) := by
          rw [Files.openFile, hentry]
        rw [ho]
        refine .seq (P := fun z => z.state.entries path = some (.file inode)) (.named hpath) hstep
          hE.stays ?_ (validateRegularFile_spec hE inode) fun _ z hz _ hnamed => ?_
        · rw [hstate]
          exact hentry
        · cases writable with
          | false =>
              exact .pure fun v hv _ =>
                ⟨inode, rfl, (Lasting.named (q := q) hpath).later _ _ hv hnamed⟩
          | true =>
              refine .fchmod hE (Lasting.named (q := q) hpath).steady hnamed fun w _ hnamed' => ?_
              exact .pure fun v hv _ =>
                ⟨inode, rfl, (Lasting.named (q := q) hpath).later _ _ hv hnamed'⟩
  · rw [hanswer, h]
    exact .failed hE (Or.inl (by rw [hfault]; simp))

end regular

/-! ### Artifacts -/

section artifacts

variable {digest : ArtifactDigest}

/-- The thread has read the artifact, and it has the stored bytes. -/
def Found (intact : Bool) (t : ℕ) (digest : ArtifactDigest) (artifact : VerifiedArtifact)
    (y : Point) : Prop :=
  Exact intact digest artifact y ∧ Verified t digest y.past ∧ Stored digest y.state

omit [Platform] in
theorem Keeps.stored {s s' : Files} (h : Keeps intact s s') {inode : ℕ}
    (hs : StoredAt digest inode s) : StoredAt digest inode s' :=
  h.entries _ _ hs (artifactPath_not_temporary digest)

theorem Lasting.stored : Lasting intact q t fun y => Stored digest y.state :=
  .kept (F := Stored digest) fun _ _ h ⟨inode, hs⟩ => ⟨inode, h.stored hs⟩

theorem Lasting.found {artifact : VerifiedArtifact} :
    Lasting intact q t (Found intact t digest artifact) := by
  have hexact : Lasting intact q t (Exact intact digest artifact) := by
    refine .kept (F := fun s => artifact.digest = digest ∧ (intact = true → ∃ inode,
      StoredAt digest inode s ∧ s.contents inode = artifact.bytes)) ?_
    rintro s s' hkeeps ⟨hdigest, hbytes⟩
    refine ⟨hdigest, fun hi => ?_⟩
    obtain ⟨inode, hstored, hcontents⟩ := hbytes hi
    refine ⟨inode, hkeeps.stored hstored, ?_⟩
    rw [hkeeps.contents hi _ _ hstored (artifactPath_not_temporary digest), hcontents]
  exact hexact.and (Lasting.verified.and .stored)

/-- What is stored is read, if it has the digest. -/
theorem readVerified_spec (hE : Excuse intact P t E) {inode : ℕ} (durable : Bool)
    (hstored : StoredAt digest inode m.state) :
    Ensures intact root q t (readVerified (.file inode) (artifactPath digest) digest durable)
      (Found intact t digest) E m := by
  refine .look (r := .readToEnd (.file inode)) trivial fun y i hmy hy => ?_
  have hanswer : (perform (.readToEnd (.file inode)) i y.state).1 =
      (faulty i y.state (.ok (y.state.contents inode), y.state)).1 := rfl
  have hstate : (y.step t (.readToEnd (.file inode)) i).state = y.state :=
    step_looks (r := .readToEnd (.file inode)) trivial i
  have hlegal : Legal q t y (.readToEnd (.file inode)) := trivial
  have hstep := legal_orderly (i := i) hy hlegal
  have hy' : StoredAt digest inode y.state := hmy.2.kept.stored hstored
  rcases faulty_cases i y.state (.ok (y.state.contents inode), y.state) with
    ⟨hi, h⟩ | ⟨fault, hfault, h⟩
  · rw [hanswer, h]
    by_cases hhash : Platform.sha256 (y.state.contents inode) = digest
    · have hfound : Found intact t digest ⟨digest, y.state.contents inode, hhash⟩
          (y.step t (.readToEnd (.file inode)) i) := by
        refine ⟨⟨rfl, fun _ => ⟨inode, ?_, ?_⟩⟩, ?_, ⟨inode, ?_⟩⟩
        · rw [hstate]
          exact hy'
        · rw [hstate]
        · exact ⟨_, List.mem_cons_self, rfl, inode, rfl, hi, hy', hhash⟩
        · rw [hstate]
          exact hy'
      change Ensures intact root q t (dite _ _ _) _ E _
      rw [dif_pos hhash]
      cases durable with
      | false => exact .done .found hfound
      | true =>
          refine .fsync hE (Lasting.found (q := q)).steady hfound fun z hz hz' => ?_
          refine .seq Lasting.found hz hE.stays hz' (syncDirectory_spec hE _) fun _ w _ _ hw => ?_
          exact .done .found hw
    · change Ensures intact root q t (dite _ _ _) _ E _
      rw [dif_neg hhash]
      refine .throw fun z hz => hE.stays _ z hz ?_
      cases intact with
      | false => exact hE.tampered rfl _
      | true =>
          -- what is stored has the digest, unless it was tampered with
          obtain ⟨inode', hnode, hgenuine⟩ := hy.artifacts digest _ hy'
          cases hnode
          exact absurd (hgenuine rfl).1 hhash
  · rw [hanswer, h]
    exact .failed hE (Or.inl (by rw [hfault]; simp))

/-- What stands at an artifact's path is a file. -/
theorem Orderly.artifact_file {x : Point} (node : Node) (hx : Orderly intact x)
    (h : x.state.entries (artifactPath digest) = some node) : ∃ inode, node = .file inode := by
  obtain ⟨inode, hnode, _⟩ := hx.artifacts digest node h
  exact ⟨inode, hnode⟩

/-- If the artifact is not returned, there is an excuse. -/
def Present (intact : Bool) (t : ℕ) (digest : ArtifactDigest) (E : Point → Prop)
    (result : Option VerifiedArtifact) (y : Point) : Prop :=
  match result with
  | some artifact => Found intact t digest artifact y
  | none => E y

theorem readArtifactIfPresent_spec (hE : Excuse intact P t E) (hm : Orderly intact m)
    (durable : Bool) (hP : ∀ x, Orderly intact x → P x.state → Stored digest x.state) :
    Ensures intact root q t (readArtifactIfPresent root (artifactPath digest) digest durable)
      (Present intact t digest E) E m := by
  have hopen : Ensures intact root q t (openRegularFile root (artifactPath digest) durable)
      (fun file y => ∃ inode, file = .file inode ∧ StoredAt digest inode y.state) E m := by
    refine openRegularFile_spec hE (artifactPath_not_temporary digest) durable
      (fun x node hx h => hx.artifact_file node h) fun x hx hp => ?_
    obtain ⟨inode, hstored⟩ := hP x hx hp
    have hentry : x.state.entries (artifactPath digest) = some (.file inode) := hstored
    rw [hentry]
    simp
  refine .bind hm hE.stays (.outcome hopen) fun result y hy hend => ?_
  cases result with
  | ok file =>
      obtain ⟨inode, rfl, hstored⟩ := hend
      refine .bind hy hE.stays (readVerified_spec hE durable hstored) fun artifact z hz hfound => ?_
      exact .done .found hfound
  | error error =>
      have herror : E y := hend
      change Ensures intact root q t (ite _ _ _) _ E _
      split_ifs
      · exact .pure fun z hz _ => hE.stays _ z hz herror
      · exact .throw fun z hz => hE.stays _ z hz herror

theorem readArtifact_spec (hE : Excuse intact P t E) (hm : Orderly intact m)
    (hP : ∀ x, Orderly intact x → P x.state → Stored digest x.state) :
    Ensures intact root q t (readArtifact root digest) (Found intact t digest) E m := by
  have hlocation : Ensures intact root q t (artifactLocation root digest false)
      (fun path _ => path = artifactPath digest) E m := by
    have hpresent : ∀ x : Point, Orderly intact x → P x.state →
        x.state.entries (artifactPath digest) ≠ none := by
      intro x hx hp
      obtain ⟨inode, hstored⟩ := hP x hx hp
      have hentry : x.state.entries (artifactPath digest) = some (.file inode) := hstored
      rw [hentry]
      simp
    exact .bind hm hE.stays (descend_spec hE hm fun x hx hp => hpresent x hx hp)
      fun _ _ _ _ => .pure fun _ _ _ => rfl
  refine .bind hm hE.stays hlocation ?_
  rintro _ y hy rfl
  refine .bind hy hE.stays (readArtifactIfPresent_spec hE hy false hP) fun result z hz hpresent => ?_
  cases result with
  | some artifact => exact .done .found hpresent
  | none => exact .throw fun w hw => hE.stays _ w hw hpresent

end artifacts

/-! ### Markers -/

section markers

variable {digest : ArtifactDigest} {source : EvidenceSource}

theorem Orderly.marker_file {x : Point} (node : Node) (hx : Orderly intact x)
    (h : x.state.entries (markerPath digest source) = some node) : ∃ inode, node = .file inode := by
  obtain ⟨inode, hnode, _⟩ := hx.markers digest source node h
  exact ⟨inode, hnode⟩

/-- A marker that is there is empty. -/
theorem emptyMarker_spec {β : Type} {Q : β → Point → Prop} {F : Point → Prop}
    (hE : Excuse intact P t E) {inode : ℕ} {f : Unit → Evid β} {e : EvidenceError}
    (hmarker : m.state.entries (markerPath digest source) = some (.file inode))
    (hF : Lasting intact q t F) (hp : F m)
    (hf : ∀ z, Orderly intact z → F z → Ensures intact root q t (f ()) Q E z) :
    Ensures intact root q t (Evid.ask (.fstat (.file inode)) >>= fun v => Evid.io v >>= fun metadata =>
      if metadata.length ≠ 0 then throw e >>= f else f ()) Q E m := by
  refine .look (r := .fstat (.file inode)) trivial fun y i hmy hy => ?_
  have hanswer : (perform (.fstat (.file inode)) i y.state).1 =
      (faulty i y.state (.ok (y.state.fstat (.file inode)), y.state)).1 := rfl
  have hlegal : Legal q t y (.fstat (.file inode)) := trivial
  have hstep := legal_orderly (i := i) hy hlegal
  have hf' : Ensures intact root q t (f ()) Q E (y.step t (.fstat (.file inode)) i) :=
    hf _ hstep (hF.step y _ i hy hlegal (hF.later m y hmy hp))
  rcases faulty_cases i y.state (.ok (y.state.fstat (.file inode)), y.state) with
    ⟨_, h⟩ | ⟨fault, hfault, h⟩
  · rw [hanswer, h]
    change Ensures intact root q t
      (if (y.state.contents inode).length ≠ 0 then throw e >>= f else f ()) Q E _
    by_cases hlength : (y.state.contents inode).length = 0
    · rw [if_neg (not_not.mpr hlength)]
      exact hf'
    · rw [if_pos hlength]
      refine .throw fun z hz => hE.stays _ z hz ?_
      cases intact with
      | false => exact hE.tampered rfl _
      | true =>
          have hentry : y.state.entries (markerPath digest source) = some (.file inode) :=
            hmy.2.kept.entries _ _ hmarker (markerPath_not_temporary digest source)
          obtain ⟨inode', hnode, hempty, _⟩ := hy.markers digest source _ hentry
          cases hnode
          exact absurd (congrArg List.length (hempty rfl)) hlength
  · rw [hanswer, h]
    exact .failed hE (Or.inl (by rw [hfault]; simp))

theorem Lasting.marked :
    Lasting intact q t fun y => Marked digest source y.state :=
  .kept (F := Marked digest source) fun _ _ hk ⟨inode, h⟩ =>
    ⟨inode, hk.entries _ _ h (markerPath_not_temporary digest source)⟩

theorem verifySource_spec (hm : Orderly intact m) :
    Ensures intact root q t (verifySource root digest source)
      (fun artifact y => Found intact t digest artifact y ∧ Marked digest source y.state)
      (Blame intact (Provided digest source) t) m := by
  have hE : Excuse intact (Provided digest source) t (Blame intact (Provided digest source) t) :=
    .blame intact _ t
  have hmarked : ∀ x : Point, Orderly intact x → Provided digest source x.state →
      x.state.entries (markerPath digest source) ≠ none := by
    rintro x _ ⟨_, inode, hentry⟩
    rw [hentry]
    simp
  refine .bind hm hE.stays (readArtifact_spec hE hm fun _ _ hp => hp.1) fun artifact y hy hfound => ?_
  have hlocation : Ensures intact root q t (sourceLocation root digest source false)
      (fun path _ => path = markerPath digest source)
      (Blame intact (Provided digest source) t) y :=
    .bind hy hE.stays (descend_spec hE hy fun x hx hp => hmarked x hx hp) fun _ _ _ _ =>
      .pure fun _ _ _ => rfl
  refine .seq .found hy hE.stays hfound hlocation ?_
  rintro _ z hz rfl hfound
  refine .seq .found hz hE.stays hfound (openRegularFile_spec hE
    (markerPath_not_temporary digest source) false (fun x node hx h => hx.marker_file node h)
    hmarked) ?_
  rintro _ w hw ⟨inode, rfl, hmarker⟩ hfound
  have hboth : Found intact t digest artifact w ∧ Marked digest source w.state :=
    ⟨hfound, inode, hmarker⟩
  exact emptyMarker_spec hE hmarker (Lasting.found.and .marked) hboth fun v hv hend =>
    .done (Lasting.found.and .marked) hend

end markers

end Cheirismos.Publishing

import Cheirismos.Inspections

/-! # Depositing evidence

The parts of `publish` that change the directory.  None of them promises to succeed; each says what
it has done when it does.

* `createTemporary_spec`: the file it returns belongs to the thread and has one name (`Holding`).
* `writeAll_spec`: such a file ends with all the bytes.
* `publishTemporary_spec`: the artifact is there, and the thread has read it.
* `recordSource_spec`: the marker is there.

`publish_spec` puts them together. -/

namespace Cheirismos.Publishing

open Process Directories Evid

variable [Platform] {intact : Bool} {root : String} {q : EvidenceCall} {t : ℕ} {m : Point}

omit [Platform] in
theorem Stays.always : Stays intact t fun _ => True := fun _ _ _ h => h

omit [Platform] in
/-- Nothing is promised about failures here. -/
theorem Excuse.forgive (intact : Bool) (t : ℕ) :
    Excuse intact (fun _ => False) t fun _ => True := .any intact _ t

/-! ### Creating directories -/

section directories

variable {path parent : Path}

theorem makeDirectory_spec (hpath : StoreDirectory path) :
    Ensures intact root q t (makeDirectory path) (fun _ _ => True) (fun _ => True) m := by
  refine .ask (r := .mkdir path) fun y _ _ => ⟨hpath, fun i => ?_⟩
  generalize (perform (.mkdir path) i y.state).1 = answer
  rcases answer with e | _
  · cases e with
    | exist => exact .pure fun _ _ _ => trivial
    | noent | notdir | isdir | loop | other => exact .throw fun _ _ => trivial
  · exact .pure fun _ _ _ => trivial

theorem secureDirectory_spec :
    Ensures intact root q t (openOrCreateDirectory.secureDirectory parent path) (fun _ _ => True)
      (fun _ => True) m := by
  refine .fchmod (.forgive intact t) (Lasting.always (q := q)).steady trivial fun y hy _ => ?_
  refine .bind hy .always (syncDirectory_spec (.forgive intact t) path) fun _ z _ _ => ?_
  exact syncDirectory_spec (.forgive intact t) parent

theorem reopenDirectory_spec :
    Ensures intact root q t (openDirectory root path) (fun _ _ => True) (fun _ => True) m :=
  openDirectory_spec (.forgive intact t) fun _ _ h => h.elim

theorem ensureStoreDirectory_spec (hpath : StoreDirectory path) :
    Ensures intact root q t (ensureStoreDirectory root parent path) (fun _ _ => True)
      (fun _ => True) m := by
  refine .look (r := .openDirectory path) trivial fun y i _ hy => ?_
  have hstep : Orderly intact (y.step t (.openDirectory path) i) :=
    legal_orderly hy (q := q) (Legal.looks trivial)
  generalize (perform (.openDirectory path) i y.state).1 = answer
  rcases answer with e | _
  · cases e with
    | noent =>
        refine .bind hstep .always (makeDirectory_spec hpath) fun created z hz _ => ?_
        refine .bind hz .always reopenDirectory_spec fun _ w _ _ => ?_
        cases created <;> exact secureDirectory_spec
    | exist | notdir | isdir | loop | other => exact .throw fun _ _ => trivial
  · exact secureDirectory_spec

/-- Walking down makes directories only where directories belong. -/
theorem descendCreating_spec (hm : Orderly intact m) {components : List String}
    (hpaths : ∀ front, front ≠ [] → front <+: components → StoreDirectory (parent ++ front)) :
    Ensures intact root q t (descend root true parent components) (fun _ _ => True)
      (fun _ => True) m := by
  induction components generalizing parent m with
  | nil => exact .pure fun _ _ _ => trivial
  | cons component components ih =>
      have hfirst : StoreDirectory (parent ++ [component]) :=
        hpaths [component] (by simp) (by simp)
      refine .bind hm .always (ensureStoreDirectory_spec hfirst) fun _ y hy _ => ih hy ?_
      intro front hfront hpart
      have hlonger := hpaths (component :: front) (by simp)
        (List.cons_prefix_cons.mpr ⟨rfl, hpart⟩)
      rwa [List.append_cons] at hlonger

omit [Platform] in
/-- What begins a path begins with its first part and is not longer. -/
theorem head_of_front {front components : List String} {component : String} (hfront : front ≠ [])
    (h : front <+: component :: components) :
    front.head? = some component ∧ front.length ≤ components.length + 1 := by
  cases front with
  | nil => exact absurd rfl hfront
  | cons c front =>
      obtain ⟨rfl, htail⟩ := List.cons_prefix_cons.mp h
      exact ⟨rfl, Nat.succ_le_succ htail.length_le⟩

variable {digest : ArtifactDigest} {source : EvidenceSource}

theorem artifactLocation_spec (hm : Orderly intact m) :
    Ensures intact root q t (artifactLocation root digest true)
      (fun path _ => path = artifactPath digest) (fun _ => True) m := by
  refine .bind hm .always (descendCreating_spec hm fun front hfront hpart => ?_) fun _ _ _ _ =>
    .pure fun _ _ _ => rfl
  exact Or.inl (head_of_front hfront hpart)

theorem sourceLocation_spec (hm : Orderly intact m) :
    Ensures intact root q t (sourceLocation root digest source true)
      (fun path _ => path = markerPath digest source) (fun _ => True) m := by
  refine .bind hm .always (descendCreating_spec hm fun front hfront hpart => ?_) fun _ _ _ _ =>
    .pure fun _ _ _ => rfl
  exact Or.inr (head_of_front hfront hpart)

end directories

/-! ### Temporary files -/

section temporaries

omit [Platform] in
/-- What an exclusive creation that succeeded has done. -/
theorem createNew_ok {path : Path} {i : Outcome} {s : Files} {inode : ℕ}
    (h : (perform (.createNew path) i s).1 = .ok inode) :
    s.entries path = none ∧ inode = s.inodes ∧ (perform (.createNew path) i s).2 =
      { s.setEntry path (some (.file s.inodes)) with
        contents := Function.update s.contents s.inodes []
        inodes := s.inodes + 1 } := by
  change (faulty i s (s.createNew path)).1 = .ok inode at h
  change _ ∧ _ ∧ (faulty i s (s.createNew path)).2 = _
  rcases faulty_cases i s (s.createNew path) with ⟨_, hf⟩ | ⟨fault, _, hf⟩
  · rw [hf] at h ⊢
    unfold Files.createNew at h ⊢
    cases hentry : s.entries path with
    | some node =>
        rw [hentry] at h
        cases h
    | none =>
        rw [hentry] at h
        by_cases hparent : s.hasParent path = true
        · simp only [hparent, if_true] at h ⊢
          cases h
          exact ⟨trivial, rfl, trivial⟩
        · simp only [hparent] at h
          cases h
  · rw [hf] at h
    cases h

omit [Platform] in
/-- What a write that succeeded has done. -/
theorem write_ok {inode : ℕ} {bytes : Bytes} {i : Outcome} {s : Files} {written : ℕ}
    (h : (perform (.write inode bytes) i s).1 = .ok written) :
    (perform (.write inode bytes) i s).2 = { s with
      contents := Function.update s.contents inode (s.contents inode ++ bytes.take written) } := by
  change (faulty i s (s.write inode bytes i.written)).1 = .ok written at h
  change (faulty i s (s.write inode bytes i.written)).2 = _
  rcases faulty_cases i s (s.write inode bytes i.written) with ⟨_, hf⟩ | ⟨fault, _, hf⟩
  · rw [hf] at h ⊢
    have hwritten : min i.written bytes.length = written := Except.ok.inj h
    have htake : bytes.take i.written = bytes.take written := by
      rw [← hwritten, List.take_eq_take_iff]
      omega
    rw [← htake]
    rfl
  · rw [hf] at h
    cases h

/-- The thread has a file of its own, under a temporary name only, with these bytes so far. -/
structure Holding (digest : ArtifactDigest) (p t inode s : ℕ) (bytes : Bytes) (y : Point) :
    Prop where
  drawn : Drawn t p s y
  created : Created t inode y.past
  entry : y.state.entries (temporaryPath digest p s) = some (.file inode)
  sole : ∀ path, y.state.entries path = some (.file inode) → path = temporaryPath digest p s
  contents : y.state.contents inode = bytes

variable {digest : ArtifactDigest} {p n inode s : ℕ} {bytes written : Bytes}
  {source : EvidenceSource}

omit [Platform] in
theorem Holding.hidden {y : Point} (h : Holding digest p t inode s bytes y) :
    Private inode y.state := fun path hpath => ⟨digest, p, s, h.sole path hpath⟩

theorem Holding.steady : Steady intact t (Holding digest p t inode s bytes) where
  later x y hxy h := by
    refine ⟨hxy.2.drawn p s h.drawn, h.created.mono hxy.2.past, ?_, ?_, ?_⟩
    · rw [hxy.2.names p s h.drawn digest]
      exact h.entry
    · exact fun path hpath => h.sole path (hxy.2.links inode path h.created hpath)
    · rw [hxy.2.contents inode h.created h.hidden]
      exact h.contents
  look x r i _ hr h := by
    have hstate : (x.step t r i).state = x.state := step_looks hr i
    refine ⟨h.drawn.step, h.created.step, ?_, ?_, ?_⟩ <;> rw [hstate]
    · exact h.entry
    · exact h.sole
    · exact h.contents

/-- The name that was drawn last is the thread's. -/
theorem createTemporary_spec {patience : ℕ} (hq : q.process = p) :
    Ensures intact root q t (createTemporary digest p patience)
      (fun file y => ∃ s, file.2 = temporaryPath digest p s ∧ Holding digest p t file.1 s [] y)
      (fun _ => True) m := by
  induction patience generalizing m with
  | zero => exact .throw fun _ _ => trivial
  | succ patience ih =>
      refine .ask (r := .fetchAdd p) fun y _ hy => ⟨hq.symm, fun i => ?_⟩
      generalize hs : (perform (.fetchAdd p) i y.state).1 = s
      have hdrawn : Drawn t p s (y.step t (.fetchAdd p) i) :=
        ⟨_, List.mem_cons_self, rfl, rfl, (perform_run (.fetchAdd p) i y.state p).symm, hs⟩
      refine .ask (r := .createNew (temporaryPath digest p s)) fun z hyz hz => ⟨?_, fun j => ?_⟩
      · rw [← hq]
        refine Or.inl ⟨digest, s, ?_, rfl⟩
        rw [hq]
        exact hyz.2.drawn p s hdrawn
      · cases ha : (perform (.createNew (temporaryPath digest p s)) j z.state).1 with
        | ok inode =>
            obtain ⟨_, rfl, hstate⟩ := createNew_ok ha
            refine .pure fun w hw _ => ⟨s, rfl, Holding.steady.later _ _ hw ?_⟩
            have hdrawn' := (hyz.2.drawn p s hdrawn).step (t := t)
              (r := .createNew (temporaryPath digest p s)) (i := j)
            have hpoint : (z.step t (.createNew (temporaryPath digest p s)) j).state =
                { z.state.setEntry (temporaryPath digest p s) (some (.file z.state.inodes)) with
                  contents := Function.update z.state.contents z.state.inodes []
                  inodes := z.state.inodes + 1 } := hstate
            refine ⟨hdrawn', ?_, ?_, ?_, ?_⟩
            · refine ⟨_, List.mem_cons_self, rfl, ⟨_, rfl⟩, rfl, ?_⟩
              exact congrArg Files.inodes hstate
            · rw [hpoint]
              exact Function.update_self _ _ _
            · intro path hpath
              rw [hpoint] at hpath
              rcases entries_setEntry hpath with ⟨hname, _⟩ | hold
              · exact hname
              · exact absurd (hz.allocated path _ hold) (lt_irrefl _)
            · rw [hpoint]
              exact Function.update_self _ _ _
        | error e =>
            cases e with
            | exist => exact ih
            | noent | notdir | isdir | loop | other => exact .throw fun _ _ => trivial

/-- The rest of the bytes goes after what was written so far. -/
theorem writeAll_spec {fuel : ℕ} (hm : Holding digest p t inode s written m) :
    Ensures intact root q t (writeAll inode fuel bytes)
      (fun _ y => Holding digest p t inode s (written ++ bytes) y) (fun _ => True) m := by
  induction fuel generalizing m written bytes with
  | zero =>
      cases bytes with
      | nil =>
          rw [List.append_nil]
          exact .pure fun y hy _ => Holding.steady.later _ _ hy hm
      | cons byte bytes => exact .throw fun _ _ => trivial
  | succ fuel ih =>
      cases bytes with
      | nil =>
          rw [List.append_nil]
          exact .pure fun y hy _ => Holding.steady.later _ _ hy hm
      | cons byte bytes =>
          refine .ask (r := .write inode (byte :: bytes)) fun y hmy hy => ?_
          have hy' := Holding.steady.later _ _ hmy hm
          refine ⟨⟨hy'.created, hy'.hidden⟩, fun i => ?_⟩
          cases ha : (perform (.write inode (byte :: bytes)) i y.state).1 with
          | error e => exact .throw fun _ _ => trivial
          | ok count =>
              cases count with
              | zero => exact .throw fun _ _ => trivial
              | succ count =>
                  have hpoint : (y.step t (.write inode (byte :: bytes)) i).state = { y.state with
                      contents := Function.update y.state.contents inode
                        (y.state.contents inode ++ (byte :: bytes).take (count + 1)) } :=
                    write_ok ha
                  have hnext : Holding digest p t inode s (written ++ (byte :: bytes).take (count + 1))
                      (y.step t (.write inode (byte :: bytes)) i) := by
                    refine ⟨hy'.drawn.step, hy'.created.step, ?_, ?_, ?_⟩ <;> rw [hpoint]
                    · exact hy'.entry
                    · exact hy'.sole
                    · rw [← hy'.contents]
                      exact Function.update_self _ _ _
                  have hrest : Ensures intact root q t
                      (writeAll inode fuel ((byte :: bytes).drop (count + 1)))
                      (fun _ => Holding digest p t inode s (written ++
                        (byte :: bytes).take (count + 1) ++ (byte :: bytes).drop (count + 1)))
                      (fun _ => True) (y.step t (.write inode (byte :: bytes)) i) := ih hnext
                  rw [List.append_assoc, List.take_append_drop] at hrest
                  exact hrest

omit [Platform] in
theorem Drawn.later {x y : Point} (h : Drawn t p s x) (hxy : Later intact t x y) : Drawn t p s y :=
  hxy.2.drawn p s h

/-- A name that the thread has drawn may be removed. -/
theorem Drawn.legal {y : Point} (hq : q.process = p) (h : Drawn t p s y) :
    Legal q t y (.unlink (temporaryPath digest p s)) := by
  subst hq
  exact ⟨digest, s, h, rfl⟩

theorem removeTemporary_spec (hq : q.process = p) (hm : Drawn t p s m) :
    Ensures intact root q t (removeTemporary (temporaryPath digest p s)) (fun _ _ => True)
      (fun _ => True) m := by
  refine .ask (r := .unlink (temporaryPath digest p s)) fun y hmy _ =>
    ⟨(hm.later hmy).legal hq, fun i => ?_⟩
  generalize (perform (.unlink (temporaryPath digest p s)) i y.state).1 = answer
  have hsync : Ensures intact root q t (syncDirectory (temporaryPath digest p s).dropLast)
      (fun _ _ => True) (fun _ => True) (y.step t (.unlink (temporaryPath digest p s)) i) :=
    syncDirectory_spec (.forgive intact t) _
  rcases answer with e | _
  · cases e with
    | noent => exact hsync
    | exist | notdir | isdir | loop | other => exact .throw fun _ _ => trivial
  · exact hsync

theorem dropTemporary_spec (hq : q.process = p) (hm : Drawn t p s m) :
    Ensures intact root q t (dropTemporary (temporaryPath digest p s)) (fun _ _ => True)
      (fun _ => True) m := by
  refine .ask (r := .unlink (temporaryPath digest p s)) fun y hmy _ =>
    ⟨(hm.later hmy).legal hq, fun i => ?_⟩
  generalize (perform (.unlink (temporaryPath digest p s)) i y.state).1 = answer
  have hsync : Ensures intact root q t (do
      let _ ← Evid.ask (.fsync (.directory (temporaryPath digest p s).dropLast)))
      (fun _ _ => True) (fun _ => True) (y.step t (.unlink (temporaryPath digest p s)) i) :=
    .look (r := .fsync _) trivial fun _ _ _ _ => .pure fun _ _ _ => trivial
  rcases answer with e | _
  · cases e with
    | noent => exact hsync
    | exist | notdir | isdir | loop | other => exact .pure fun _ _ _ => trivial
  · exact hsync

end temporaries

/-! ### Publishing -/

section publishing

variable {p n inode s : ℕ} {bytes : Bytes} {source : EvidenceSource}

/-- The artifact is there, and the thread has read it. -/
def Confirmed (t : ℕ) (digest : ArtifactDigest) (y : Point) : Prop :=
  Verified t digest y.past ∧ Stored digest y.state

theorem Lasting.confirmed {digest : ArtifactDigest} : Lasting intact q t (Confirmed t digest) :=
  Lasting.verified.and .stored

/-- Reading an artifact that may be missing. -/
theorem presentArtifact_spec {digest : ArtifactDigest} (hm : Orderly intact m) :
    Ensures intact root q t (readArtifactIfPresent root (artifactPath digest) digest true)
      (Present intact t digest fun _ => True) (fun _ => True) m :=
  readArtifactIfPresent_spec (.any intact (Stored digest) t) hm true fun _ _ h => h

theorem publishTemporary_spec
    (hm : Orderly intact m) (hfile : Holding (Platform.sha256 bytes) p t inode s [] m) :
    Ensures intact root (.publish p n bytes source) t
      (publishTemporary root (Platform.sha256 bytes) bytes (artifactPath (Platform.sha256 bytes))
        (temporaryPath (Platform.sha256 bytes) p s) inode)
      (fun _ => Confirmed t (Platform.sha256 bytes)) (fun _ => True) m := by
  refine .bind hm .always (writeAll_spec hfile) fun _ y hy hfull => ?_
  refine .fchmod (.forgive intact t) Holding.steady hfull fun z hz hfull => ?_
  refine .fsync (.forgive intact t) Holding.steady hfull fun w hw hfull => ?_
  -- the file is complete: it may get its second name
  refine .ask (r := .link (temporaryPath (Platform.sha256 bytes) p s)
    (artifactPath (Platform.sha256 bytes))) fun v hwv hv => ?_
  have hfull' := Holding.steady.later _ _ hwv hfull
  have hlegal : Legal (.publish p n bytes source) t v (.link
      (temporaryPath (Platform.sha256 bytes) p s) (artifactPath (Platform.sha256 bytes))) := by
    refine ⟨p, n, bytes, source, s, rfl, hfull'.drawn, rfl, rfl, fun inode' hentry => ?_⟩
    rw [hfull'.entry] at hentry
    cases hentry
    exact ⟨hfull'.created, hfull'.contents⟩
  refine ⟨hlegal, fun i => ?_⟩
  have hstep := legal_orderly (i := i) hv hlegal
  have hdrawn := hfull'.drawn.step (t := t) (r := .link (temporaryPath (Platform.sha256 bytes) p s)
    (artifactPath (Platform.sha256 bytes))) (i := i)
  generalize v.step t (.link (temporaryPath (Platform.sha256 bytes) p s)
    (artifactPath (Platform.sha256 bytes))) i = u at hstep hdrawn
  generalize (perform (.link (temporaryPath (Platform.sha256 bytes) p s)
    (artifactPath (Platform.sha256 bytes))) i v.state).1 = answer
  have hverify : ∀ {f : Option VerifiedArtifact → Evid Unit} {e : EvidenceError},
      (∀ artifact, f (some artifact) =
        removeTemporary (temporaryPath (Platform.sha256 bytes) p s)) → f none = throw e →
      Ensures intact root (.publish p n bytes source) t
        (readArtifactIfPresent root (artifactPath (Platform.sha256 bytes)) (Platform.sha256 bytes)
          true >>= f)
        (fun _ => Confirmed t (Platform.sha256 bytes)) (fun _ => True) u := by
    intro f e hsome hnone
    refine .seq .drawn hstep .always hdrawn (presentArtifact_spec hstep) fun result x hx hr hd => ?_
    cases result with
    | none =>
        rw [hnone]
        exact .throw fun _ _ => trivial
    | some artifact =>
        rw [hsome]
        have hremove : Ensures intact root (.publish p n bytes source) t
            (removeTemporary (temporaryPath (Platform.sha256 bytes) p s)) (fun _ _ => True)
            (fun _ => True) x := removeTemporary_spec rfl hd
        have hlasting := Ensures.lasting .confirmed hr.2 hremove
        exact hlasting.weaken (fun _ _ _ h => h.2) fun _ _ => trivial
  rcases answer with e | _
  · cases e with
    | exist => exact hverify (fun _ => rfl) rfl
    | noent | notdir | isdir | loop | other => exact .throw fun _ _ => trivial
  · exact hverify (fun _ => rfl) rfl

/-- A marker that was there already, or is there now. -/
theorem recordSource_spec (hm : Orderly intact m)
    (hverified : Confirmed t (Platform.sha256 bytes) m) :
    Ensures intact root (.publish p n bytes source) t
      (recordSource root (Platform.sha256 bytes) source)
      (fun _ y => Confirmed t (Platform.sha256 bytes) y ∧
        Marked (Platform.sha256 bytes) source y.state) (fun _ => True) m := by
  refine .seq .confirmed hm .always hverified (sourceLocation_spec hm) ?_
  rintro _ y hy rfl hverified
  have hlasting : Lasting intact (.publish p n bytes source) t fun y =>
      Confirmed t (Platform.sha256 bytes) y ∧ Marked (Platform.sha256 bytes) source y.state :=
    Lasting.confirmed.and .marked
  refine .ask (r := .createNew (markerPath (Platform.sha256 bytes) source)) fun z hyz hz => ?_
  have hverified' := Lasting.confirmed.later (q := .publish p n bytes source) y z hyz hverified
  have hlegal : Legal (.publish p n bytes source) t z
      (.createNew (markerPath (Platform.sha256 bytes) source)) :=
    Or.inr ⟨p, n, bytes, source, rfl, rfl, hverified'.1⟩
  refine ⟨hlegal, fun i => ?_⟩
  have hstep := legal_orderly (i := i) hz hlegal
  have hconfirmed := Lasting.confirmed.step z _ i hz hlegal hverified'
  cases ha : (perform (.createNew (markerPath (Platform.sha256 bytes) source)) i z.state).1 with
  | ok inode =>
      obtain ⟨_, rfl, hstate⟩ := createNew_ok ha
      have hmarked : Marked (Platform.sha256 bytes) source
          (z.step t (.createNew (markerPath (Platform.sha256 bytes) source)) i).state := by
        refine ⟨z.state.inodes, ?_⟩
        change (perform (.createNew (markerPath (Platform.sha256 bytes) source)) i
          z.state).2.entries _ = _
        rw [hstate]
        exact Function.update_self _ _ _
      refine .seq hlasting hstep .always ⟨hconfirmed, hmarked⟩
        (secureRegularFile_spec (.forgive intact t) hstep _) fun _ w _ _ hdone => ?_
      refine .fsync (.forgive intact t) hlasting.steady hdone fun u hu hdone => ?_
      refine (Ensures.lasting hlasting hdone
        (syncDirectory_spec (.forgive intact t) _)).weaken ?_ ?_
      · exact fun _ _ _ h => h.2
      · exact fun _ _ => trivial
  | error e =>
      cases e with
      | exist =>
          refine .seq .confirmed hstep .always hconfirmed (openRegularFile_spec
            (.forgive intact t) (markerPath_not_temporary _ source) true
            (fun x node hx h => hx.marker_file node h) fun _ _ h => h.elim) ?_
          rintro _ w _ ⟨inode, rfl, hentry⟩ hconfirmed
          refine emptyMarker_spec (.forgive intact t) hentry hlasting ⟨hconfirmed, inode, hentry⟩
            fun v _ hdone => ?_
          refine .fsync (.forgive intact t) hlasting.steady hdone fun u hu hdone => ?_
          refine (Ensures.lasting hlasting hdone
            (syncDirectory_spec (.forgive intact t) _)).weaken ?_ ?_
          · exact fun _ _ _ h => h.2
          · exact fun _ _ => trivial
      | noent | notdir | isdir | loop | other => exact .throw fun _ _ => trivial

theorem publish_spec (hm : Orderly intact m) :
    Ensures intact root (.publish p n bytes source) t (publish root p n bytes source)
      (fun digest y => digest = Platform.sha256 bytes ∧ Confirmed t digest y ∧
        Marked digest source y.state) (fun _ => True) m := by
  have hrecord : ∀ {y : Point}, Orderly intact y → Confirmed t (Platform.sha256 bytes) y →
      Ensures intact root (.publish p n bytes source) t (do
        recordSource root (Platform.sha256 bytes) source
        return Platform.sha256 bytes)
        (fun digest y => digest = Platform.sha256 bytes ∧ Confirmed t digest y ∧
          Marked digest source y.state) (fun _ => True) y := by
    intro y hy hconfirmed
    refine .bind hy .always (recordSource_spec hy hconfirmed) fun _ z hz hdone => ?_
    refine .pure fun w hw _ => ⟨rfl, ?_⟩
    exact (Lasting.confirmed.and .marked).later (q := .publish p n bytes source) z w hw hdone
  refine .bind hm .always (artifactLocation_spec hm) ?_
  rintro _ y hy rfl
  refine .bind hy .always (presentArtifact_spec hy) fun result z hz hresult => ?_
  cases result with
  | some artifact => exact hrecord hz hresult.2
  | none =>
      refine .bind hz .always (createTemporary_spec rfl) ?_
      rintro ⟨inode, _⟩ w hw ⟨s, rfl, hfile⟩
      have hdeposit : Ensures intact root (.publish p n bytes source) t
          (publishTemporary root (Platform.sha256 bytes) bytes
            (artifactPath (Platform.sha256 bytes)) (temporaryPath (Platform.sha256 bytes) p s) inode)
          (fun _ => Confirmed t (Platform.sha256 bytes)) (fun _ => True) w :=
        publishTemporary_spec hw hfile
      have hdrawn := Ensures.lasting .drawn hfile.drawn hdeposit
      refine .bind hw .always (.outcome hdrawn) fun result v hv hresult => ?_
      cases result with
      | ok _ => exact hrecord hv hresult.1
      | error e =>
          refine .bind hv .always (dropTemporary_spec rfl hresult.2) fun _ _ _ _ => ?_
          exact .throw fun _ _ => trivial

end publishing

end Cheirismos.Publishing

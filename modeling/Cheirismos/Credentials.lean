import Cheirismos.Records

/-! # Credentials

`service/auth.rs`, and the map of principals that `open_api` builds: bindings of a principal and
its role to the digest of a token and a local user.

A caller proves an identity by a token, whose digest is looked up; no request names a role.  Of
valid bindings no two are for one principal or one token (`validateBindings_ok`), so a token proves
one identity, whoever presents it and in whatever order the bindings stand (`authenticate_ok`). -/

namespace Cheirismos

inductive AuthenticationError where
  | unauthorized
  | invalidConfiguration (reason : String)
deriving DecidableEq

def AuthenticationError.toString : AuthenticationError → String
  | unauthorized => "credential or local caller is not authorized"
  | invalidConfiguration reason => "credential configuration is invalid: " ++ reason

structure CredentialBinding where
  principal : PrincipalId
  role : PrincipalRole
  tokenDigest : ArtifactDigest
  peerUid : UInt32
deriving DecidableEq

/-- The principal that a binding stands for. -/
def CredentialBinding.identity (binding : CredentialBinding) : Principal :=
  ⟨binding.principal, binding.role, binding.tokenDigest⟩

/-- The loop of `validate_bindings`, with the identities and digests seen so far. -/
def checkBindings (identities : List PrincipalId) (digests : List ArtifactDigest) :
    List CredentialBinding → Except AuthenticationError Unit
  | [] => .ok ()
  | binding :: bindings =>
      if identities.contains binding.principal || digests.contains binding.tokenDigest then
        .error (.invalidConfiguration "principal IDs and token digests must be unique")
      else checkBindings (binding.principal :: identities) (binding.tokenDigest :: digests) bindings

def validateBindings (bindings : List CredentialBinding) : Except AuthenticationError Unit := do
  checkBindings [] [] bindings
  if bindings = [] then
    .error (.invalidConfiguration "at least one configured principal is required")

/-- The lookup in the map from principals to their identities; a later binding replaces an
earlier one. -/
def principals (bindings : List CredentialBinding) (id : PrincipalId) : Option Principal :=
  (bindings.reverse.find? (fun binding => binding.principal = id)).map CredentialBinding.identity

theorem principals_some {bindings : List CredentialBinding} {id : PrincipalId} {p : Principal}
    (h : principals bindings id = some p) :
    ∃ binding ∈ bindings, binding.identity = p ∧ p.id = id := by
  obtain ⟨binding, hf, rfl⟩ := Option.map_eq_some_iff.mp h
  have hid : binding.principal = id := by simpa using List.find?_some hf
  exact ⟨binding, List.mem_reverse.mp (List.mem_of_find?_eq_some hf), rfl, hid⟩

theorem checkBindings_ok {bindings : List CredentialBinding} :
    ∀ {identities : List PrincipalId} {digests : List ArtifactDigest} {u : Unit},
    checkBindings identities digests bindings = .ok u ↔
      (bindings.map CredentialBinding.principal).Nodup ∧
      (bindings.map CredentialBinding.tokenDigest).Nodup ∧
      ∀ binding ∈ bindings, binding.principal ∉ identities ∧ binding.tokenDigest ∉ digests := by
  induction bindings with
  | nil => simp [checkBindings]
  | cons binding bindings ih =>
      intro identities digests u
      unfold checkBindings
      split_ifs with hseen
      · refine ⟨fun h => (by cases h), fun h => ?_⟩
        obtain ⟨h1, h2⟩ := h.2.2 binding List.mem_cons_self
        simp [h1, h2] at hseen
      · rw [ih]
        simp only [List.map_cons, List.nodup_cons, List.mem_cons, List.mem_map, not_or,
          forall_eq_or_imp]
        simp only [Bool.or_eq_true, List.contains_iff_mem, not_or] at hseen
        constructor
        · rintro ⟨h1, h2, h3⟩
          refine ⟨⟨?_, h1⟩, ⟨?_, h2⟩, hseen, fun b hb => ⟨(h3 b hb).1.2, (h3 b hb).2.2⟩⟩
          · rintro ⟨b, hb, he⟩
            exact (h3 b hb).1.1 he
          · rintro ⟨b, hb, he⟩
            exact (h3 b hb).2.1 he
        · rintro ⟨⟨h1, h1'⟩, ⟨h2, h2'⟩, _, h4⟩
          refine ⟨h1', h2', fun b hb => ⟨⟨fun he => h1 ⟨b, hb, he⟩, (h4 b hb).1⟩,
            fun he => h2 ⟨b, hb, he⟩, (h4 b hb).2⟩⟩

/-- Valid bindings: there is one, and no two are for one principal or one token. -/
theorem validateBindings_ok {bindings : List CredentialBinding} {u : Unit} :
    validateBindings bindings = .ok u ↔ bindings ≠ [] ∧
      (bindings.map CredentialBinding.principal).Nodup ∧
      (bindings.map CredentialBinding.tokenDigest).Nodup := by
  have hcheck := @checkBindings_ok bindings [] [] ()
  simp only [List.not_mem_nil, not_false_eq_true, and_self, implies_true, and_true] at hcheck
  rw [← hcheck]
  unfold validateBindings
  cases hc : checkBindings [] [] bindings with
  | error e => simp [bind, Except.bind]
  | ok u =>
      simp only [bind, Except.bind]
      split_ifs with h <;> simp [h, pure, Except.pure]

section authenticate

variable [Platform]

def authenticate (bindings : List CredentialBinding) (token : String) (peerUid : UInt32) :
    Except AuthenticationError Principal :=
  match bindings.find? (fun binding => binding.peerUid = peerUid ∧
      binding.tokenDigest = sha256Text token) with
  | some binding => .ok binding.identity
  | none => .error .unauthorized

/-- A caller who is authenticated has proved the identity of a binding. -/
theorem authenticate_mem {bindings : List CredentialBinding} {token : String} {peerUid : UInt32}
    {p : Principal} (h : authenticate bindings token peerUid = .ok p) :
    ∃ binding ∈ bindings, binding.identity = p ∧ binding.tokenDigest = sha256Text token ∧
      binding.peerUid = peerUid := by
  unfold authenticate at h
  split at h
  · next binding hf =>
      cases h
      have hfound := List.find?_some hf
      simp only [decide_eq_true_eq] at hfound
      exact ⟨binding, List.mem_of_find?_eq_some hf, rfl, hfound.2, hfound.1⟩
  · cases h

/-- Under valid bindings a token proves the identity it is bound to, to its own user. -/
theorem authenticate_ok {bindings : List CredentialBinding} {u : Unit}
    (hv : validateBindings bindings = .ok u) {token : String} {peerUid : UInt32} {p : Principal} :
    authenticate bindings token peerUid = .ok p ↔ ∃ binding ∈ bindings, binding.identity = p ∧
      binding.tokenDigest = sha256Text token ∧ binding.peerUid = peerUid := by
  refine ⟨authenticate_mem, ?_⟩
  rintro ⟨binding, hb, rfl, htoken, huid⟩
  unfold authenticate
  split
  · next found hf =>
      have hfound := List.find?_some hf
      simp only [decide_eq_true_eq] at hfound
      obtain rfl := List.inj_on_of_nodup_map (validateBindings_ok.mp hv).2.2
        (List.mem_of_find?_eq_some hf) hb (hfound.2.trans htoken.symm)
      rfl
  · next hf =>
      have hnone := List.find?_eq_none.mp hf binding hb
      simp [htoken, huid] at hnone

/-- One token proves one identity, whoever presents it. -/
theorem authenticate_unique {bindings : List CredentialBinding} {u : Unit}
    (hv : validateBindings bindings = .ok u) {token : String} {peer peer' : UInt32}
    {p p' : Principal} (h : authenticate bindings token peer = .ok p)
    (h' : authenticate bindings token peer' = .ok p') : p = p' := by
  obtain ⟨b, hb, rfl, hd, _⟩ := authenticate_mem h
  obtain ⟨b', hb', rfl, hd', _⟩ := authenticate_mem h'
  obtain rfl := List.inj_on_of_nodup_map (validateBindings_ok.mp hv).2.2 hb hb' (hd.trans hd'.symm)
  rfl

end authenticate

end Cheirismos

import Cheirismos.Rig

/-! # Lease keys and physical devices

What `configured_physical_identity` identifies.

* **Devices.** A configuration names a USB device by its vendor, product and serial, written with
  `usb:` in front for a serial stream and without it for a video device, or a simulator by its
  identity (`InstrumentConfig.Names`).  Neither a vendor nor a product contains a colon; a serial or
  the identity of a simulator may.
* **Keys.** `PhysicalDevice.key` is the canonical text of a device.  It determines the device
  (`key_injective`), and it is what the code hashes (`canonicalKey_ok`).

SHA-256 is asked to be injective on the texts that are hashed for the configurations in question
(`identityTexts`); on all texts it cannot be.  `lease_key_identifies` says that equal identities are
equal devices, and that a set of configurations is accepted when no device is named twice.  A
backend that has been opened has one instrument to an identity (`openBackend_identity`). -/

namespace Cheirismos

/-! ### Devices -/

inductive PhysicalDevice where
  | usb (vid pid serial : String)
  | simulator (identity : SimulatorId)
deriving DecidableEq

/-- `vid:pid:serial`. -/
def usbText (vid pid serial : String) : String := vid ++ ":" ++ pid ++ ":" ++ serial

/-- The text names the device by its vendor, product and serial. -/
def Spells (text : String) : PhysicalDevice → Prop
  | .usb vid pid serial => text = usbText vid pid serial ∧ ':' ∉ vid.toList ∧ ':' ∉ pid.toList
  | .simulator _ => False

/-- The configuration is one for the device. -/
def InstrumentConfig.Names : InstrumentConfig → PhysicalDevice → Prop
  | .bpio2 config, device =>
      ∃ text, config.serial.expectedUsbIdentity = "usb:" ++ text ∧ Spells text device
  | .numato config, device =>
      ∃ text, config.serial.expectedUsbIdentity = "usb:" ++ text ∧ Spells text device
  | .simulator config, device => device = .simulator config.identity
  | .video config, device => Spells config.expectedUsbIdentity device

/-- Two configurations are for one device. -/
def SameDevice (a b : InstrumentConfig) : Prop := ∃ device, a.Names device ∧ b.Names device

namespace PhysicalDevice

/-- The canonical text of a device. -/
def key : PhysicalDevice → String
  | usb vid pid serial => "usb:" ++ usbText vid pid serial
  | simulator identity => "simulator:" ++ identity.value

/-- Nothing but the serial may contain a colon. -/
def Proper : PhysicalDevice → Prop
  | usb vid pid _ => ':' ∉ vid.toList ∧ ':' ∉ pid.toList
  | simulator _ => True

end PhysicalDevice

/-! ### Texts -/

/-- What stands in front of the first separator is determined. -/
theorem cut_unique {α : Type} {c : α} {a a' b b' : List α} (ha : c ∉ a) (ha' : c ∉ a')
    (h : a ++ c :: b = a' ++ c :: b') : a = a' ∧ b = b' := by
  induction a generalizing a' with
  | nil =>
      cases a' with
      | nil => exact ⟨rfl, (List.cons.inj h).2⟩
      | cons x a' =>
          obtain ⟨rfl, _⟩ := List.cons.inj h
          exact absurd List.mem_cons_self ha'
  | cons x a ih =>
      cases a' with
      | nil =>
          obtain ⟨rfl, _⟩ := List.cons.inj h
          exact absurd List.mem_cons_self ha
      | cons y a' =>
          obtain ⟨rfl, htail⟩ := List.cons.inj h
          obtain ⟨rfl, rfl⟩ := ih (fun hc => ha (List.mem_cons_of_mem _ hc))
            (fun hc => ha' (List.mem_cons_of_mem _ hc)) htail
          exact ⟨rfl, rfl⟩

theorem usbText_toList (vid pid serial : String) : (usbText vid pid serial).toList =
    vid.toList ++ ':' :: (pid.toList ++ ':' :: serial.toList) := by
  simp only [usbText, String.toList_append, List.append_assoc]
  rfl

theorem usbText_injective {vid pid serial vid' pid' serial' : String} (hv : ':' ∉ vid.toList)
    (hp : ':' ∉ pid.toList) (hv' : ':' ∉ vid'.toList) (hp' : ':' ∉ pid'.toList)
    (h : usbText vid pid serial = usbText vid' pid' serial') :
    vid = vid' ∧ pid = pid' ∧ serial = serial' := by
  have hlist := congrArg String.toList h
  rw [usbText_toList, usbText_toList] at hlist
  obtain ⟨hvid, hrest⟩ := cut_unique hv hv' hlist
  obtain ⟨hpid, hserial⟩ := cut_unique hp hp' hrest
  exact ⟨String.toList_inj.mp hvid, String.toList_inj.mp hpid, String.toList_inj.mp hserial⟩

theorem append_left_injective (front : String) {a b : String} (h : front ++ a = front ++ b) :
    a = b := by
  have hlist := congrArg String.toList h
  rw [String.toList_append, String.toList_append] at hlist
  exact String.toList_inj.mp (List.append_cancel_left hlist)

theorem utf8_injective : Function.Injective utf8 := by
  intro a b h
  have hbytes : a.toUTF8 = b.toUTF8 := ByteArray.ext (Array.toList_inj.mp h)
  exact String.toByteArray_inj.mp hbytes

/-- The canonical texts of different devices differ. -/
theorem key_injective {d d' : PhysicalDevice} (hd : d.Proper) (hd' : d'.Proper)
    (h : d.key = d'.key) : d = d' := by
  cases d with
  | usb vid pid serial =>
      cases d' with
      | usb vid' pid' serial' =>
          obtain ⟨rfl, rfl, rfl⟩ :=
            usbText_injective hd.1 hd.2 hd'.1 hd'.2 (append_left_injective "usb:" h)
          rfl
      | simulator identity =>
          have hhead := congrArg (fun text : String => text.toList.head?) h
          simp [PhysicalDevice.key] at hhead
  | simulator identity =>
      cases d' with
      | usb vid pid serial =>
          have hhead := congrArg (fun text : String => text.toList.head?) h
          simp [PhysicalDevice.key] at hhead
      | simulator identity' =>
          have hvalue : identity.value = identity'.value := append_left_injective "simulator:" h
          obtain ⟨value, hvalid⟩ := identity
          obtain ⟨value', hvalid'⟩ := identity'
          cases hvalue
          rfl

/-! ### The canonical text -/

/-- A text with at least two pieces goes on after its first separator. -/
theorem splitOn_cut {c : Char} {text p q : List Char} {rest : List (List Char)}
    (h : splitOn c text = p :: q :: rest) :
    ∃ tail, text = p ++ c :: tail ∧ c ∉ p ∧ splitOn c tail = q :: rest := by
  induction text generalizing p with
  | nil => cases h
  | cons x xs ih =>
      by_cases hx : x = c
      · rw [splitOn, if_pos hx] at h
        obtain ⟨rfl, htail⟩ := List.cons.inj h
        exact ⟨xs, by rw [hx]; rfl, List.not_mem_nil, htail⟩
      · rw [splitOn, if_neg hx] at h
        cases hxs : splitOn c xs with
        | nil =>
            rw [hxs] at h
            cases h
        | cons piece pieces =>
            rw [hxs] at h
            obtain ⟨rfl, htail⟩ := List.cons.inj h
            rw [htail] at hxs
            obtain ⟨tail, rfl, hpiece, hsplit⟩ := ih hxs
            refine ⟨tail, rfl, fun hmem => ?_, hsplit⟩
            rcases List.mem_cons.mp hmem with hc | hmem
            · exact hx hc.symm
            · exact hpiece hmem

theorem intercalate_splitOn (c : Char) (text : List Char) :
    [c].intercalate (splitOn c text) = text := by
  have hne : ∀ xs, splitOn c xs ≠ [] := by
    intro xs
    cases xs with
    | nil => simp [splitOn]
    | cons x xs =>
        rw [splitOn]
        split_ifs
        · simp
        · split <;> simp
  induction text with
  | nil => rfl
  | cons x xs ih =>
      obtain ⟨piece, pieces, hxs⟩ := List.exists_cons_of_ne_nil (hne xs)
      rw [splitOn, hxs]
      rw [hxs] at ih
      split_ifs with hx
      · rw [hx, ← ih]
        simp [List.intercalate]
      · rw [← ih]
        cases pieces with
        | nil => simp [List.intercalate]
        | cons q rest => simp [List.intercalate]

theorem splitThree_some {text vid pid serial : String}
    (h : splitThree text = some (vid, pid, serial)) :
    text = usbText vid pid serial ∧ ':' ∉ vid.toList ∧ ':' ∉ pid.toList := by
  unfold splitThree at h
  split at h
  · next first second rest hsplit =>
      cases rest with
      | nil => cases h
      | cons third rest =>
          simp only [Option.some.injEq, Prod.mk.injEq] at h
          obtain ⟨rfl, rfl, rfl⟩ := h
          obtain ⟨tail, htext, hfirst, htail⟩ := splitOn_cut hsplit
          obtain ⟨tail', rfl, hsecond, hlast⟩ := splitOn_cut htail
          refine ⟨String.toList_inj.mp ?_, ?_, ?_⟩
          · rw [usbText_toList, htext, ← hlast, intercalate_splitOn]
            simp only [String.toList_ofList]
          · rw [String.toList_ofList]
            exact hfirst
          · rw [String.toList_ofList]
            exact hsecond
  · cases h

theorem canonicalUsbIdentity_ok {value key : String} (h : canonicalUsbIdentity value = .ok key) :
    ∃ device : PhysicalDevice, Spells value device ∧ device.Proper ∧ key = device.key := by
  unfold canonicalUsbIdentity at h
  split at h
  · cases h
  · next vid pid serial hsplit =>
      obtain ⟨htext, hvid, hpid⟩ := splitThree_some hsplit
      split_ifs at h
      cases h
      refine ⟨.usb vid pid serial, ⟨htext, hvid, hpid⟩, ⟨hvid, hpid⟩, ?_⟩
      refine String.toList_inj.mp ?_
      simp only [PhysicalDevice.key, usbText, String.toList_append, List.append_assoc]

theorem canonicalSerialUsbIdentity_ok {value key : String}
    (h : canonicalSerialUsbIdentity value = .ok key) :
    ∃ (text : String) (device : PhysicalDevice), value = "usb:" ++ text ∧ Spells text device ∧
      device.Proper ∧ key = device.key := by
  unfold canonicalSerialUsbIdentity at h
  split at h
  · cases h
  · next hfirst =>
      obtain ⟨device, hspells, hproper, hkey⟩ := canonicalUsbIdentity_ok h
      refine ⟨_, device, ?_, hspells, hproper, hkey⟩
      obtain ⟨rest, hrest⟩ := List.isPrefixOf_iff_prefix.mp hfirst
      refine String.toList_inj.mp ?_
      rw [String.toList_append, @String.toList_ofList (value.toList.drop 4), ← hrest]
      rfl

/-! ### Configurations -/

section configurations

variable [Crates]

/-- The canonical text that a configuration is hashed by. -/
def canonicalKey : InstrumentConfig → Except BackendError String
  | .bpio2 config => canonicalSerialUsbIdentity config.serial.expectedUsbIdentity
  | .numato config => canonicalSerialUsbIdentity config.serial.expectedUsbIdentity
  | .simulator config => .ok ("simulator:" ++ config.identity.value)
  | .video config => canonicalUsbIdentity config.expectedUsbIdentity

theorem configuredPhysicalIdentity_eq (config : InstrumentConfig) :
    configuredPhysicalIdentity config = do
      validateConfig config
      return physicalIdentity (← canonicalKey config) := by
  cases config <;> rfl

omit [Crates] in
/-- The canonical text is that of the device which the configuration names. -/
theorem canonicalKey_ok {config : InstrumentConfig} {key : String}
    (h : canonicalKey config = .ok key) :
    ∃ device, config.Names device ∧ device.Proper ∧ key = device.key := by
  cases config with
  | bpio2 config =>
      obtain ⟨text, device, htext, hspells, hproper, hkey⟩ := canonicalSerialUsbIdentity_ok h
      exact ⟨device, ⟨text, htext, hspells⟩, hproper, hkey⟩
  | numato config =>
      obtain ⟨text, device, htext, hspells, hproper, hkey⟩ := canonicalSerialUsbIdentity_ok h
      exact ⟨device, ⟨text, htext, hspells⟩, hproper, hkey⟩
  | simulator config =>
      cases h
      exact ⟨.simulator config.identity, rfl, trivial, rfl⟩
  | video config =>
      obtain ⟨device, hspells, hproper, hkey⟩ := canonicalUsbIdentity_ok h
      exact ⟨device, hspells, hproper, hkey⟩

omit [Crates] in
theorem Spells.proper {text : String} {device : PhysicalDevice} (h : Spells text device) :
    device.Proper ∧ "usb:" ++ text = device.key := by
  cases device with
  | usb vid pid serial =>
      obtain ⟨rfl, hvid, hpid⟩ := h
      exact ⟨⟨hvid, hpid⟩, rfl⟩
  | simulator identity => exact absurd h id

omit [Crates] in
/-- A configuration names one device only. -/
theorem InstrumentConfig.Names.unique {config : InstrumentConfig} {d d' : PhysicalDevice}
    (h : config.Names d) (h' : config.Names d') : d = d' := by
  have hspells : ∀ {text : String}, Spells text d → Spells text d' → d = d' := by
    intro text hs hs'
    obtain ⟨hproper, hkey⟩ := hs.proper
    obtain ⟨hproper', hkey'⟩ := hs'.proper
    exact key_injective hproper hproper' (hkey.symm.trans hkey')
  cases config with
  | bpio2 config =>
      obtain ⟨text, htext, hs⟩ := h
      obtain ⟨text', htext', hs'⟩ := h'
      obtain rfl := append_left_injective "usb:" (htext.symm.trans htext')
      exact hspells hs hs'
  | numato config =>
      obtain ⟨text, htext, hs⟩ := h
      obtain ⟨text', htext', hs'⟩ := h'
      obtain rfl := append_left_injective "usb:" (htext.symm.trans htext')
      exact hspells hs hs'
  | simulator config => exact h.trans h'.symm
  | video config => exact hspells h h'

/-- `validate_config` accepts the configuration. -/
def Accepted (config : InstrumentConfig) : Prop := validateConfig config = .ok ()

instance (config : InstrumentConfig) : Decidable (Accepted config) :=
  inferInstanceAs (Decidable (validateConfig config = .ok ()))

theorem Accepted.key {config : InstrumentConfig} (h : Accepted config) :
    ∃ key, canonicalKey config = .ok key := by
  have hlimits := validateLimits_of_validateConfig h
  unfold Accepted validateConfig at h
  rw [hlimits] at h
  have hserial : ∀ {serial : SerialBinding}, config.serial? = some serial →
      ∃ key, canonicalSerialUsbIdentity serial.expectedUsbIdentity = .ok key := by
    intro serial hs
    rw [hs] at h
    by_contra hnone
    cases hkey : canonicalSerialUsbIdentity serial.expectedUsbIdentity with
    | ok key => exact hnone ⟨key, hkey⟩
    | error e =>
        simp only [hkey, bind, Except.bind] at h
        split_ifs at h
  cases config with
  | bpio2 config => exact hserial rfl
  | numato config => exact hserial rfl
  | simulator config => exact ⟨_, rfl⟩
  | video config =>
      cases hkey : canonicalUsbIdentity config.expectedUsbIdentity with
      | ok key => exact ⟨key, hkey⟩
      | error e =>
          simp only [InstrumentConfig.serial?, hkey, bind, Except.bind] at h
          cases h

/-- An accepted configuration names a device, and its identity is the digest of the device's text. -/
theorem Accepted.device {config : InstrumentConfig} (h : Accepted config) :
    ∃ device, config.Names device ∧ device.Proper ∧ canonicalKey config = .ok device.key ∧
      configuredPhysicalIdentity config = .ok (physicalIdentity device.key) := by
  obtain ⟨key, hkey⟩ := h.key
  obtain ⟨device, hnames, hproper, rfl⟩ := canonicalKey_ok hkey
  refine ⟨device, hnames, hproper, hkey, ?_⟩
  unfold Accepted at h
  rw [configuredPhysicalIdentity_eq, h, hkey]
  rfl

theorem accepted_of_identity {config : InstrumentConfig} {identity : ArtifactDigest}
    (h : configuredPhysicalIdentity config = .ok identity) : Accepted config := by
  rw [configuredPhysicalIdentity_eq] at h
  unfold Accepted
  cases hv : validateConfig config with
  | ok _ => rfl
  | error e =>
      rw [hv] at h
      cases h

/-- The bytes that are hashed for the configurations. -/
def identityTexts (configs : List InstrumentConfig) : List Bytes :=
  configs.filterMap fun config => (canonicalKey config).toOption.map fun key =>
    utf8 ("cheirismos:physical-identity:v1:" ++ key)

/-- SHA-256 tells the texts apart. -/
def Injects (texts : List Bytes) : Prop :=
  ∀ a ∈ texts, ∀ b ∈ texts, Platform.sha256 a = Platform.sha256 b → a = b

instance (texts : List Bytes) : Decidable (Injects texts) :=
  inferInstanceAs (Decidable (∀ a ∈ texts, ∀ b ∈ texts,
    Platform.sha256 a = Platform.sha256 b → a = b))

variable {configs : List InstrumentConfig}

omit [Crates] in
theorem mem_identityTexts {config : InstrumentConfig} {key : String} (hc : config ∈ configs)
    (hkey : canonicalKey config = .ok key) :
    utf8 ("cheirismos:physical-identity:v1:" ++ key) ∈ identityTexts configs := by
  refine List.mem_filterMap.mpr ⟨config, hc, ?_⟩
  rw [hkey]
  rfl

/-- Equal identities are equal devices. -/
theorem identity_eq_iff (hsha : Injects (identityTexts configs)) {a b : InstrumentConfig}
    (ha : a ∈ configs) (hb : b ∈ configs) (haccepted : Accepted a) (hbccepted : Accepted b) :
    configuredPhysicalIdentity a = configuredPhysicalIdentity b ↔ SameDevice a b := by
  obtain ⟨d, hnames, hproper, hkey, hidentity⟩ := haccepted.device
  obtain ⟨d', hnames', hproper', hkey', hidentity'⟩ := hbccepted.device
  rw [hidentity, hidentity', Except.ok.injEq]
  constructor
  · intro h
    have hbytes := hsha _ (mem_identityTexts ha hkey) _ (mem_identityTexts hb hkey') h
    have htext := append_left_injective _ (utf8_injective hbytes)
    rw [← key_injective hproper hproper' htext] at hnames'
    exact ⟨d, hnames, hnames'⟩
  · rintro ⟨device, ha', hb'⟩
    rw [hnames.unique ha', hnames'.unique hb']

/-- The identities that have been seen are refused, and so is one that occurs twice. -/
theorem validateUnique_iff (seen : List ArtifactDigest) (configs : List InstrumentConfig) :
    validateUniquePhysicalIdentities seen configs = .ok () ↔
      (∀ config ∈ configs, ∃ identity, configuredPhysicalIdentity config = .ok identity ∧
        identity ∉ seen) ∧
      configs.Pairwise (fun a b => configuredPhysicalIdentity a ≠ configuredPhysicalIdentity b) := by
  induction configs generalizing seen with
  | nil => simp [validateUniquePhysicalIdentities]
  | cons config configs ih =>
      cases hidentity : configuredPhysicalIdentity config with
      | error e =>
          simp only [validateUniquePhysicalIdentities, hidentity, bind, Except.bind, reduceCtorEq,
            false_iff, not_and]
          intro hall
          obtain ⟨identity, hok, _⟩ := hall config List.mem_cons_self
          cases hidentity.symm.trans hok
      | ok identity =>
          simp only [validateUniquePhysicalIdentities, hidentity, bind, Except.bind]
          split_ifs with hseen
          · simp only [false_iff, not_and]
            intro hall
            obtain ⟨identity', hok, hnew⟩ := hall config List.mem_cons_self
            cases hidentity.symm.trans hok
            exact absurd hseen hnew
          · rw [ih, List.pairwise_cons]
            constructor
            · rintro ⟨hall, hpairs⟩
              refine ⟨fun other hother => ?_, fun other hother heq => ?_, hpairs⟩
              · rcases List.mem_cons.mp hother with rfl | hother
                · exact ⟨identity, hidentity, hseen⟩
                · obtain ⟨identity', hok, hnew⟩ := hall other hother
                  exact ⟨identity', hok, fun h => hnew (List.mem_cons_of_mem _ h)⟩
              · obtain ⟨identity', hok, hnew⟩ := hall other hother
                cases (hidentity.symm.trans heq).trans hok
                exact hnew List.mem_cons_self
            · rintro ⟨hall, hfirst, hpairs⟩
              refine ⟨fun other hother => ?_, hpairs⟩
              obtain ⟨identity', hok, hnew⟩ := hall other (List.mem_cons_of_mem _ hother)
              refine ⟨identity', hok, fun h => ?_⟩
              rcases List.mem_cons.mp h with rfl | h
              · exact hfirst other hother (hidentity.trans hok.symm)
              · exact hnew h

/-- An opened backend has one instrument to a physical identity. -/
theorem DeviceBackend.openBackend_identity {bindings : OrdMap InstrumentId DeviceBinding}
    {backend : DeviceBackend} (h : openBackend bindings = .ok backend) {i j : InstrumentId}
    {b b' : DeviceBinding} (hi : backend.sessions.get? i = some b)
    (hj : backend.sessions.get? j = some b')
    (hsame : configuredPhysicalIdentity b.config = configuredPhysicalIdentity b'.config) : i = j := by
  obtain ⟨u, hunique, h⟩ := except_bind_ok.mp h
  obtain ⟨_, _, h⟩ := except_bind_ok.mp h
  cases h
  have hpairs := ((validateUnique_iff [] _).mp hunique).2
  rw [OrdMap.values, List.pairwise_map, List.pairwise_map] at hpairs
  have : Std.Symm fun e e' : InstrumentId × DeviceBinding =>
    configuredPhysicalIdentity e.2.config ≠ configuredPhysicalIdentity e'.2.config :=
    ⟨fun _ _ h => h.symm⟩
  by_contra hne
  exact hpairs.forall (OrdMap.get?_eq_some.mp hi) (OrdMap.get?_eq_some.mp hj)
    (fun he => hne (congrArg Prod.fst he)) hsame

/-- The lease key of an accepted configuration identifies its physical device: it names exactly one,
two keys are equal exactly when the devices are, and a set of configurations is accepted exactly when
each of them is and no two name one device. -/
theorem lease_key_identifies (configs : List InstrumentConfig)
    (hsha : Injects (identityTexts configs)) :
    (∀ a ∈ configs, Accepted a → ∃! device, a.Names device) ∧
      (∀ a ∈ configs, ∀ b ∈ configs, Accepted a → Accepted b →
        (configuredPhysicalIdentity a = configuredPhysicalIdentity b ↔ SameDevice a b)) ∧
      (validateUniquePhysicalIdentities [] configs = .ok () ↔
        (∀ a ∈ configs, Accepted a) ∧ configs.Pairwise (fun a b => ¬ SameDevice a b)) := by
  refine ⟨fun a _ ha => ?_, fun a hma b hmb ha hb => identity_eq_iff hsha hma hmb ha hb, ?_⟩
  · obtain ⟨device, hnames, _⟩ := ha.device
    exact ⟨device, hnames, fun _ h => h.unique hnames⟩
  · rw [validateUnique_iff]
    constructor
    · rintro ⟨hall, hpairs⟩
      have haccepted : ∀ a ∈ configs, Accepted a := fun a ha =>
        accepted_of_identity (hall a ha).choose_spec.1
      refine ⟨haccepted, hpairs.imp_of_mem fun ha hb hne hsame => hne ?_⟩
      exact (identity_eq_iff hsha ha hb (haccepted _ ha) (haccepted _ hb)).mpr hsame
    · rintro ⟨haccepted, hpairs⟩
      refine ⟨fun a ha => ?_, hpairs.imp_of_mem fun ha hb hne heq => hne ?_⟩
      · obtain ⟨_, _, _, _, hidentity⟩ := (haccepted a ha).device
        exact ⟨_, hidentity, List.not_mem_nil⟩
      · exact (identity_eq_iff hsha ha hb (haccepted _ ha) (haccepted _ hb)).mp heq

end configurations

open Rig in
theorem lease_key_identifies_rig :
    let relays : InstrumentConfig := .numato ⟨⟨"/dev/relays", 9600, "usb:2a19:0c04:n1"⟩, ⟨[], by simp⟩⟩
    let camera : InstrumentConfig := .video ⟨"/dev/video0", "2a19:0c04:n1", "/usr/bin/capture",
      (Bench.mark "capture").value, 1000, 4096⟩
    let simulated : InstrumentConfig := .simulator simulatorConfig
    configuredPhysicalIdentity relays = configuredPhysicalIdentity camera ∧
      configuredPhysicalIdentity relays ≠ configuredPhysicalIdentity simulated := by
  intro relays camera simulated
  obtain ⟨_, hkeys, _⟩ := lease_key_identifies [relays, camera, simulated] (by decide +kernel)
  have hrelays : Accepted relays := by decide +kernel
  have hcamera : Accepted camera := by decide +kernel
  have hsimulated : Accepted simulated := by decide +kernel
  constructor
  · refine (hkeys relays (by simp) camera (by simp) hrelays hcamera).mpr ?_
    refine ⟨.usb "2a19" "0c04" "n1", ⟨"2a19:0c04:n1", by decide, by decide, by decide, by decide⟩,
      by decide, by decide, by decide⟩
  · intro heq
    obtain ⟨device, ⟨_, _, hspells⟩, rfl⟩ :=
      (hkeys relays (by simp) simulated (by simp) hrelays hsimulated).mp heq
    exact hspells

end Cheirismos

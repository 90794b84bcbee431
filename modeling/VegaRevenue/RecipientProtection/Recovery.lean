import VegaRevenue.Outreach.Recipients
import VegaRevenue.RecipientProtection.Envelope

/-!
# Recovering a protected recipient

`protectEmail` writes under the current keys. The key of a stored envelope is resolved again from
the version in it, after any rotation of the current versions.

* `recoverEmailForSend_toOption` — the recovery the outreach service is modelled with
* `protectEmail_eq_ok` — what was stored
* `recovered_of_keys`, `versioned_of_recovered` — recovery and the keys of the versions
* `recovered_after_rotation_iff` — what was protected is recovered after every rotation iff both
  current versions have a key of their own and the address is well formed
-/

namespace VegaRevenue.RecipientProtection

open Outreach (RecipientRecovery)

/-! ## Addresses -/

/-- What the services take from outside the repository. -/
structure Platform where
  crypto : Crypto
  casing : Casing

def canonicalizeEmail (u : Casing) (raw : JsText) : Except String JsText :=
  let trimmed := raw.trim.toLowerCase u
  if trimmed.points = [] then .error "Email is empty"
  else
    match trimmed.points.idxOf? (.scalar '@') with
    | some (before + 1) =>
      if before + 1 = trimmed.points.length - 1 then .error "Email is malformed" else .ok trimmed
    | _ => .error "Email is malformed"

theorem canonicalizeEmail_eq_ok {u : Casing} {raw canonical : JsText}
    (h : canonicalizeEmail u raw = .ok canonical) :
    canonical = raw.trim.toLowerCase u ∧ canonical.toWellFormed ≠ "" := by
  unfold canonicalizeEmail at h
  dsimp only at h
  split at h
  · cases h
  next hne =>
    split at h
    · split at h
      · cases h
      · cases h
        refine ⟨rfl, ?_⟩
        intro hempty
        apply hne
        have hlist := congrArg String.toList hempty
        rw [JsText.toWellFormed, String.toList_ofList] at hlist
        exact List.map_eq_nil_iff.mp hlist
    · cases h

/-- A surrogate is not lost. -/
theorem isWellFormed_canonicalizeEmail {u : Casing} {raw canonical : JsText}
    (h : canonicalizeEmail u raw = .ok canonical) :
    canonical.isWellFormed = raw.isWellFormed := by
  rw [(canonicalizeEmail_eq_ok h).1, JsText.isWellFormed_toLowerCase_trim]

theorem idxOf?_scalars (cs : List Char) (c : Char) :
    (cs.map CodePoint.scalar).idxOf? (.scalar c) = cs.idxOf? c := by
  unfold List.idxOf?
  rw [List.findIdx?_map]
  congr 1
  funext d
  simp [Function.comp]

/-- On characters it is the one the outreach service is modelled with. -/
theorem canonicalizeEmail_ofString {u : Casing} {rec : RecipientRecovery}
    (hu : rec.toLowerCase = u.toLowerCase) (s : String) :
    canonicalizeEmail u (.ofString s) = (rec.canonicalizeEmail s).map .ofString := by
  unfold canonicalizeEmail RecipientRecovery.canonicalizeEmail
  rw [JsText.toLowerCase_trim_ofString, hu]
  dsimp only
  generalize u.toLowerCase (trim s) = trimmed
  have hempty : trimmed.toList.map CodePoint.scalar = [] ↔ trimmed = "" := by
    rw [List.map_eq_nil_iff, String.toList_eq_nil_iff]
  rw [JsText.points_ofString, idxOf?_scalars, List.length_map]
  by_cases hs : trimmed = ""
  · rw [if_pos (hempty.mpr hs), if_pos hs]
    rfl
  · rw [if_neg (mt hempty.mp hs), if_neg hs]
    cases trimmed.toList.idxOf? '@' with
    | none => rfl
    | some index =>
      cases index with
      | zero => rfl
      | succ before =>
        dsimp only
        split
        · rfl
        · rfl

/-! ## Protection -/

structure ProtectedContactChannel where
  fingerprint : String
  ciphertext : String
deriving DecidableEq

structure CurrentKeys where
  hmacKeyHex : String
  hmacKeyVersion : String
  encKeyHex : String
  encKeyVersion : String

def loadKeys (secrets : Secrets) : Except String CurrentKeys :=
  match hmacKeys.resolveCurrent secrets with
  | .error _ => .error "Protected-channel key material unavailable"
  | .ok hmac =>
    match encryptionKeys.resolveCurrent secrets with
    | .error _ => .error "Protected-channel key material unavailable"
    | .ok encryption => .ok ⟨hexText hmac.2, hmac.1, hexText encryption.2, encryption.1⟩

namespace Platform

variable (v : Platform) (secrets : Secrets)

def protect (iv : List UInt8) (tenantId channelType : String) (canonicalValue : JsText) :
    Except String ProtectedContactChannel := do
  let keys ← loadKeys secrets
  let hmacKey ← parseHexKey keys.hmacKeyHex 32 "HMAC"
  let encKey ← parseHexKey keys.encKeyHex 32 "encryption"
  return {
    fingerprint :=
      buildFingerprintEnvelope v.crypto hmacKey keys.hmacKeyVersion tenantId channelType
        canonicalValue
    ciphertext :=
      buildCiphertextEnvelope v.crypto encKey iv keys.encKeyVersion tenantId channelType
        canonicalValue }

def protectEmail (iv : List UInt8) (tenantId : String) (rawEmail : JsText) :
    Except String ProtectedContactChannel := do
  let canonical ← canonicalizeEmail v.casing rawEmail
  v.protect secrets iv tenantId "email" canonical

/-! ## Recovery -/

/-- The decryption of an envelope under the key of its version. -/
def decrypt (tenantId recipientCiphertext : String) : Except String String := do
  let parsed ← parseCiphertextEnvelope recipientCiphertext
  let key ← encryptionKeys.resolveVersion secrets parsed.keyVersion
  decryptCiphertextEnvelope v.crypto key tenantId "email" recipientCiphertext

def recovery : RecipientRecovery where
  toLowerCase := v.casing.toLowerCase
  decrypt := fun tenantId ciphertext => (v.decrypt secrets tenantId ciphertext).toOption

def recoverEmailForSend (tenantId recipientCiphertext : String) : Except String String := do
  let raw ← v.decrypt secrets tenantId recipientCiphertext
  (v.recovery secrets).canonicalizeEmail raw

def fingerprintEmailForVersion (tenantId rawEmail keyVersion : String) : Except String String := do
  let parsedVersion ← validateProtectedKeyVersion keyVersion
  let key ← hmacKeys.resolveVersion secrets parsedVersion
  let canonical ← (v.recovery secrets).canonicalizeEmail rawEmail
  return buildFingerprintEnvelope v.crypto key parsedVersion tenantId "email" (.ofString canonical)

def recoverAndVerifyRecipient (execution : MessageExecution.Props) : Except String String :=
  match execution.recipientCiphertext, execution.recipientFingerprint with
  | some ciphertext, some fingerprint =>
    if execution.recipientProtectionState ≠ .protectedRecipient ∨ ciphertext = "" ∨
        fingerprint = "" then
      .error "Protected recipient is unavailable"
    else
      match splitDots fingerprint with
      | [scheme, version, _] =>
        if scheme = "h1" ∧ Outreach.keyVersion version.toList = true then do
          let recovered ← v.recoverEmailForSend secrets execution.tenantId ciphertext
          let verified ←
            v.fingerprintEmailForVersion secrets execution.tenantId recovered version
          if fingerprint = verified then return recovered
          else .error "Protected recipient fingerprint mismatch"
        else .error "Protected recipient fingerprint is invalid"
      | _ => .error "Protected recipient fingerprint is invalid"
  | _, _ => .error "Protected recipient is unavailable"

end Platform

/-! ## The outreach service -/

variable {v : Platform} {secrets secrets' : Secrets} {iv : List UInt8} {tenantId : String}
  {raw : JsText} {stored : ProtectedContactChannel}

/-- The service recovers what `Outreach.RecipientRecovery` stands for. -/
theorem recoverEmailForSend_toOption (v : Platform) (secrets : Secrets)
    (tenantId recipientCiphertext : String) :
    (v.recoverEmailForSend secrets tenantId recipientCiphertext).toOption =
      (v.recovery secrets).recoverEmailForSend tenantId recipientCiphertext := by
  unfold Platform.recoverEmailForSend RecipientRecovery.recoverEmailForSend
  have hdecrypt : (v.recovery secrets).decrypt tenantId recipientCiphertext =
      (v.decrypt secrets tenantId recipientCiphertext).toOption := rfl
  rw [hdecrypt]
  cases v.decrypt secrets tenantId recipientCiphertext with
  | error message => rfl
  | ok raw => simp only [bind, Except.bind, Except.toOption, Option.bind]

/-! ## What was stored -/

theorem protect_eq_ok {channelType : String} {canonical : JsText}
    (h : v.protect secrets iv tenantId channelType canonical = .ok stored) :
    ∃ hmacVersion hmacKey encVersion encKey,
      hmacKeys.resolveCurrent secrets = .ok (hmacVersion, hmacKey) ∧
      encryptionKeys.resolveCurrent secrets = .ok (encVersion, encKey) ∧
      stored = {
        fingerprint :=
          buildFingerprintEnvelope v.crypto hmacKey hmacVersion tenantId channelType canonical
        ciphertext :=
          buildCiphertextEnvelope v.crypto encKey iv encVersion tenantId channelType canonical } := by
  simp only [bind, Except.bind, Platform.protect, loadKeys] at h
  cases hh : hmacKeys.resolveCurrent secrets with
  | error message =>
    rw [hh] at h
    cases h
  | ok hmac =>
    rw [hh] at h
    cases he : encryptionKeys.resolveCurrent secrets with
    | error message =>
      rw [he] at h
      cases h
    | ok encryption =>
      have hhmac : hmac.2.length = 32 := length_of_resolveCurrent hh
      have henc : encryption.2.length = 32 := length_of_resolveCurrent he
      simp only [he, parseHexKey_hexText hhmac, parseHexKey_hexText henc] at h
      cases h
      exact ⟨hmac.1, hmac.2, encryption.1, encryption.2, rfl, rfl, rfl⟩

/-- **What is stored is written under the current keys.** -/
theorem protectEmail_eq_ok (h : v.protectEmail secrets iv tenantId raw = .ok stored) :
    ∃ canonical hmacVersion hmacKey encVersion encKey,
      canonicalizeEmail v.casing raw = .ok canonical ∧
      hmacKeys.resolveCurrent secrets = .ok (hmacVersion, hmacKey) ∧
      encryptionKeys.resolveCurrent secrets = .ok (encVersion, encKey) ∧
      stored = {
        fingerprint :=
          buildFingerprintEnvelope v.crypto hmacKey hmacVersion tenantId "email" canonical
        ciphertext :=
          buildCiphertextEnvelope v.crypto encKey iv encVersion tenantId "email" canonical } := by
  unfold Platform.protectEmail at h
  cases hc : canonicalizeEmail v.casing raw with
  | error message =>
    rw [hc] at h
    cases h
  | ok canonical =>
    rw [hc] at h
    obtain ⟨hmacVersion, hmacKey, encVersion, encKey, hkeys⟩ := protect_eq_ok h
    exact ⟨canonical, hmacVersion, hmacKey, encVersion, encKey, rfl, hkeys⟩

/-! ## Rotations -/

/-- The secrets that a rotation of the current keys may write. -/
def rotating : List String :=
  [encryptionKeys.versionSecret, encryptionKeys.aliasSecret, hmacKeys.versionSecret,
    hmacKeys.aliasSecret]

/-- A later state of the provider: what was readable still is, and only what a rotation writes may
have another value. -/
def Rotated (secrets secrets' : Secrets) : Prop :=
  ∀ name value, secrets name = some value →
    (secrets' name).isSome ∧ (name ∉ rotating → secrets' name = some value)

theorem Rotated.refl (secrets : Secrets) : Rotated secrets secrets := by
  intro name value h
  exact ⟨by rw [h]; rfl, fun _ => h⟩

/-- The key of a version is under no name that a rotation writes. -/
theorem versioned_notMem_rotating {keys : VersionedKeyResolver}
    (h : keys = encryptionKeys ∨ keys = hmacKeys) (version : String) :
    keys.versionedPrefix ++ version ∉ rotating := by
  intro hmem
  have hstart : ∀ name ∈ rotating,
      ¬ encryptionKeys.versionedPrefix.toList <+: name.toList ∧
        ¬ hmacKeys.versionedPrefix.toList <+: name.toList := by decide +kernel
  have hnot := hstart _ hmem
  rw [String.toList_append] at hnot
  rcases h with rfl | rfl
  · exact hnot.1 (List.prefix_append _ _)
  · exact hnot.2 (List.prefix_append _ _)

/-- **The key of a version is resolved alike after a rotation.** -/
theorem resolveVersion_rotated {keys : VersionedKeyResolver} {version : String}
    {key : List UInt8} (hr : Rotated secrets secrets')
    (hkeys : keys = encryptionKeys ∨ keys = hmacKeys)
    (h : keys.resolveVersion secrets version = .ok key) :
    keys.resolveVersion secrets' version = .ok key := by
  obtain ⟨-, hex, hsecret, -⟩ := resolveVersion_eq_ok h
  rw [← h]
  apply resolveVersion_congr
  rw [hsecret]
  exact (hr _ _ hsecret).2 (versioned_notMem_rotating hkeys version)

/-! ## Recovery after a rotation -/

/-- The recipient is recovered as the canonical form of the raw address, and its fingerprint under
the version in the stored one is the stored one. -/
def Recovered (v : Platform) (secrets : Secrets) (tenantId : String) (raw : JsText)
    (stored : ProtectedContactChannel) : Prop :=
  ∃ address : String, canonicalizeEmail v.casing raw = .ok (.ofString address) ∧
    v.recoverEmailForSend secrets tenantId stored.ciphertext = .ok address ∧
    (∀ scheme version digits, splitDots stored.fingerprint = [scheme, version, digits] →
      v.fingerprintEmailForVersion secrets tenantId address version = .ok stored.fingerprint) ∧
    ∀ execution : MessageExecution.Props, execution.tenantId = tenantId →
      execution.recipientProtectionState = .protectedRecipient →
      execution.recipientCiphertext = some stored.ciphertext →
      execution.recipientFingerprint = some stored.fingerprint →
        v.recoverAndVerifyRecipient secrets execution = .ok address

theorem canonicalizeEmail_idem {rec : RecipientRecovery} (hu : rec.toLowerCase = v.casing.toLowerCase)
    {address : String} (h : canonicalizeEmail v.casing raw = .ok (.ofString address)) :
    rec.canonicalizeEmail address = .ok address := by
  have hwell : raw.isWellFormed = true := by
    rw [← isWellFormed_canonicalizeEmail h, JsText.isWellFormed_ofString]
  obtain ⟨s, rfl⟩ := (JsText.isWellFormed_iff raw).mp hwell
  rw [canonicalizeEmail_ofString hu] at h
  have hs : rec.canonicalizeEmail s = .ok address := by
    cases hr : rec.canonicalizeEmail s with
    | error message =>
      rw [hr] at h
      cases h
    | ok canonical =>
      rw [hr] at h
      rw [JsText.ofString_inj.mp (Except.ok.inj h)]
  have haddress : rec.toLowerCase (trim s) = address := by
    rw [hu, ← JsText.ofString_inj, ← JsText.toLowerCase_trim_ofString]
    rw [← canonicalizeEmail_ofString hu] at h
    exact (canonicalizeEmail_eq_ok h).1.symm
  have hfixed : rec.toLowerCase (trim address) = address := by
    rw [← haddress, hu, Casing.trim_toLowerCase_trim, Casing.toLowerCase_idem]
  rw [← hs]
  unfold RecipientRecovery.canonicalizeEmail
  rw [hfixed, haddress]

/-- **What was encrypted under a key that can be resolved is recovered.** -/
theorem recoverEmailForSend_build {key : List UInt8} {version address : String}
    (hiv : iv.length = 12) (hkey : encryptionKeys.resolveVersion secrets version = .ok key)
    (hc : canonicalizeEmail v.casing raw = .ok (.ofString address)) (tenantId : String) :
    v.recoverEmailForSend secrets tenantId
        (buildCiphertextEnvelope v.crypto key iv version tenantId "email" (.ofString address)) =
      .ok address := by
  obtain ⟨hversion, hex, -, hparse⟩ := resolveVersion_eq_ok hkey
  have hne := (canonicalizeEmail_eq_ok hc).2
  unfold Platform.recoverEmailForSend Platform.decrypt
  rw [parseCiphertextEnvelope_build v.crypto key tenantId "email" hiv hversion hne]
  simp only [bind, Except.bind, hkey]
  rw [decryptCiphertextEnvelope_build v.crypto tenantId "email" (length_of_parseResolvedKey hparse)
    hiv hversion hne, JsText.toWellFormed_ofString]
  exact canonicalizeEmail_idem rfl hc

/-- **The fingerprint under a key that can be resolved is computed again.** -/
theorem fingerprintEmailForVersion_build {key : List UInt8} {version address : String}
    (hkey : hmacKeys.resolveVersion secrets version = .ok key)
    (hc : canonicalizeEmail v.casing raw = .ok (.ofString address)) (tenantId : String) :
    v.fingerprintEmailForVersion secrets tenantId address version =
      .ok (buildFingerprintEnvelope v.crypto key version tenantId "email" (.ofString address)) := by
  have hversion := (resolveVersion_eq_ok hkey).1
  have hidem : (v.recovery secrets).canonicalizeEmail address = .ok address :=
    canonicalizeEmail_idem rfl hc
  unfold Platform.fingerprintEmailForVersion validateProtectedKeyVersion
  rw [if_pos hversion]
  simp only [bind, Except.bind, hkey, hidem]
  rfl

theorem splitDots_fingerprint (crypto : Crypto) (key : List UInt8) {version : String}
    (tenantId channelType : String) (canonicalValue : JsText)
    (hversion : Outreach.keyVersion version.toList = true) :
    ∃ digits, splitDots
        (buildFingerprintEnvelope crypto key version tenantId channelType canonicalValue) =
      ["h1", version, digits] := by
  unfold splitDots buildFingerprintEnvelope
  rw [splitOn_envelope (by decide) (keyVersion_noDot hversion) (dot_notMem_toBase64Url _)]
  simp only [List.map_cons, List.map_nil, String.ofList_toList]
  exact ⟨_, rfl⟩

theorem ne_empty_of_splitDots {s scheme version digits : String}
    (h : splitDots s = [scheme, version, digits]) : s ≠ "" := by
  rintro rfl
  have hempty : splitDots "" = [""] := by decide
  rw [hempty] at h
  cases h

/-- **A recipient is recovered under providers with the keys it was protected with.** -/
theorem recovered_of_keys {hmacKey encKey : List UInt8} {hmacVersion encVersion address : String}
    (hiv : iv.length = 12) (hhmac : hmacKeys.resolveVersion secrets hmacVersion = .ok hmacKey)
    (henc : encryptionKeys.resolveVersion secrets encVersion = .ok encKey)
    (hc : canonicalizeEmail v.casing raw = .ok (.ofString address)) :
    Recovered v secrets tenantId raw {
      fingerprint :=
        buildFingerprintEnvelope v.crypto hmacKey hmacVersion tenantId "email" (.ofString address)
      ciphertext :=
        buildCiphertextEnvelope v.crypto encKey iv encVersion tenantId "email"
          (.ofString address) } := by
  have hversion := (resolveVersion_eq_ok hhmac).1
  have hrecover := recoverEmailForSend_build hiv henc hc tenantId
  have hfingerprint := fingerprintEmailForVersion_build hhmac hc tenantId
  obtain ⟨digits, hsplit⟩ :=
    splitDots_fingerprint v.crypto hmacKey tenantId "email" (.ofString address) hversion
  refine ⟨address, hc, hrecover, ?_, ?_⟩
  · intro scheme version digits' hsplit'
    rw [hsplit] at hsplit'
    cases hsplit'
    exact hfingerprint
  · intro execution htenant hstate hciphertext hstored
    have hc_ne : buildCiphertextEnvelope v.crypto encKey iv encVersion tenantId "email"
        (.ofString address) ≠ "" := by
      intro hempty
      rw [hempty] at hrecover
      cases hrecover
    unfold Platform.recoverAndVerifyRecipient
    rw [hciphertext, hstored]
    simp only [htenant]
    rw [if_neg (by simp [hstate, hc_ne, ne_empty_of_splitDots hsplit]), hsplit]
    simp only [true_and]
    rw [if_pos hversion]
    simp only [bind, Except.bind, hrecover, hfingerprint, if_true]
    rfl

/-- **Recovery reads both keys under their versions, and no surrogate comes back.** -/
theorem versioned_of_recovered (hiv : iv.length = 12)
    (h : v.protectEmail secrets iv tenantId raw = .ok stored)
    (hr : Recovered v secrets tenantId raw stored) :
    encryptionKeys.Versioned secrets ∧ hmacKeys.Versioned secrets ∧ raw.isWellFormed = true := by
  obtain ⟨canonical, hmacVersion, hmacKey, encVersion, encKey, hc, hhmac, henc, rfl⟩ :=
    protectEmail_eq_ok h
  obtain ⟨address, haddress, hrecover, hfingerprint, -⟩ := hr
  obtain ⟨hes, hev, -⟩ := resolveCurrent_cases henc
  obtain ⟨hhs, hhv, -⟩ := resolveCurrent_cases hhmac
  refine ⟨⟨encVersion, ?_⟩, ⟨hmacVersion, ?_⟩, ?_⟩
  · unfold Platform.recoverEmailForSend Platform.decrypt at hrecover
    rw [parseCiphertextEnvelope_build v.crypto encKey tenantId "email" hiv hev
      (canonicalizeEmail_eq_ok hc).2] at hrecover
    cases hk : encryptionKeys.resolveVersion secrets encVersion with
    | error message =>
      simp only [bind, Except.bind, hk] at hrecover
      cases hrecover
    | ok key => exact ⟨key, hes, rfl⟩
  · obtain ⟨digits, hsplit⟩ :=
      splitDots_fingerprint v.crypto hmacKey tenantId "email" canonical hhv
    have hf := hfingerprint _ _ _ hsplit
    unfold Platform.fingerprintEmailForVersion validateProtectedKeyVersion at hf
    rw [if_pos hhv] at hf
    cases hk : hmacKeys.resolveVersion secrets hmacVersion with
    | error message =>
      simp only [bind, Except.bind, hk] at hf
      cases hf
    | ok key => exact ⟨key, hhs, rfl⟩
  · rw [← isWellFormed_canonicalizeEmail haddress, JsText.isWellFormed_ofString]

/-- The current key of a version that has one is that key. -/
theorem resolveVersion_of_versioned {keys : VersionedKeyResolver} {version : String}
    {key : List UInt8} (h : keys.resolveCurrent secrets = .ok (version, key))
    (hv : keys.Versioned secrets) : keys.resolveVersion secrets version = .ok key := by
  obtain ⟨hs, -, hkey | ⟨⟨message, hnone⟩, -⟩⟩ := resolveCurrent_cases h
  · exact hkey
  · obtain ⟨version', key', hs', hkey'⟩ := hv
    rw [hs] at hs'
    cases hs'
    rw [hnone] at hkey'
    cases hkey'

/-- **What was protected is recovered after every rotation iff both current versions have a key of
their own and the address is well formed.** -/
theorem recovered_after_rotation_iff (hiv : iv.length = 12)
    (h : v.protectEmail secrets iv tenantId raw = .ok stored) :
    (∀ secrets', Rotated secrets secrets' → Recovered v secrets' tenantId raw stored) ↔
      encryptionKeys.Versioned secrets ∧ hmacKeys.Versioned secrets ∧
        raw.isWellFormed = true := by
  constructor
  · intro hall
    exact versioned_of_recovered hiv h (hall secrets (.refl secrets))
  · rintro ⟨hve, hvh, hwell⟩ secrets' hrotated
    obtain ⟨canonical, hmacVersion, hmacKey, encVersion, encKey, hc, hhmac, henc, rfl⟩ :=
      protectEmail_eq_ok h
    rw [← isWellFormed_canonicalizeEmail hc] at hwell
    obtain ⟨address, rfl⟩ := (JsText.isWellFormed_iff canonical).mp hwell
    exact recovered_of_keys hiv
      (resolveVersion_rotated hrotated (.inr rfl) (resolveVersion_of_versioned hhmac hvh))
      (resolveVersion_rotated hrotated (.inl rfl) (resolveVersion_of_versioned henc hve)) hc

/-! ## One address -/

def sampleIv : List UInt8 := [1, 2, 3, 4, 5, 6, 7, 8, 9, 10, 11, 12]

def sampleEncryptionKey : String :=
  "0123456789abcdef0123456789abcdef0123456789abcdef0123456789abcdef"

def sampleHmacKey : String := "fedcba9876543210fedcba9876543210fedcba9876543210fedcba9876543210"

def sampleTag : List UInt8 :=
  [175, 165, 226, 6, 44, 103, 178, 100, 45, 147, 218, 167, 116, 12, 175, 60]

def sampleEncrypted : List UInt8 := [166, 253, 249, 97, 118]

def sampleHmac : List UInt8 :=
  [180, 9, 188, 165, 228, 68, 153, 103, 205, 66, 8, 100, 182, 194, 193, 255, 242, 117, 231, 154,
    200, 158, 173, 167, 222, 22, 208, 167, 158, 155, 122, 90]

/-- AES-256-GCM and HMAC-SHA256 for one address; elsewhere, some cipher that decrypts what it
encrypted. -/
def sampleCrypto : Crypto where
  encrypt := fun key iv aad plaintext =>
    if hexText key = sampleEncryptionKey ∧ iv = sampleIv ∧
        aad = utf8 "[\"projectx.contact-encryption\",1,\"t\",\"email\",\"v1\"]" ∧
        plaintext = utf8 "a@b.c" then
      (sampleTag, sampleEncrypted)
    else (List.replicate 16 0, plaintext)
  decrypt := fun _ _ _ authTag encrypted =>
    if authTag = sampleTag then some (utf8 "a@b.c") else some encrypted
  hmac := fun key input =>
    if hexText key = sampleHmacKey ∧
        input = utf8 "[\"projectx.contact-fingerprint\",1,\"t\",\"email\",\"a@b.c\"]" then
      sampleHmac
    else []
  lossy := fun _ => "\ufffd"
  decrypt_encrypt := by
    intro key iv aad plaintext _ _
    split
    next h => rw [if_pos rfl, h.2.2.2]
    next h =>
      have htag : List.replicate 16 0 ≠ sampleTag := by decide
      rw [if_neg htag]
  length_tag := by
    intro key iv aad plaintext
    split
    · rfl
    · exact List.length_replicate
  length_encrypted := by
    intro key iv aad plaintext
    split
    next h =>
      rw [h.2.2.2]
      decide +kernel
    · rfl

def samplePlatform : Platform := ⟨sampleCrypto, asciiCasing⟩

/-- A provider with some secrets. -/
def secretsOf (entries : List (String × String)) : Secrets := fun name => entries.lookup name

/-- Both current versions have a key of their own. -/
def versionedSecrets : Secrets := secretsOf [
  ("projectx/contact-channel/encryption-key-version", "v1"),
  ("projectx/contact-channel/encryption-keys/v1", sampleEncryptionKey),
  ("projectx/contact-channel/hmac-key-version", "v1"),
  ("projectx/contact-channel/hmac-keys/v1", sampleHmacKey)]

/-- The current keys are those of the aliases. -/
def aliasSecrets : Secrets := secretsOf [
  ("projectx/contact-channel/encryption-key-version", "v1"),
  ("projectx/contact-channel/encryption-key", sampleEncryptionKey),
  ("projectx/contact-channel/hmac-key-version", "v1"),
  ("projectx/contact-channel/hmac-key", sampleHmacKey)]

def sampleStored : ProtectedContactChannel where
  fingerprint := "h1.v1.tAm8peREmWfNQghktsLB__J155rInq2n3hbQp56belo"
  ciphertext := "e1.v1.AQIDBAUGBwgJCgsMr6XiBixnsmQtk9qndAyvPKb9-WF2"

theorem recovered_after_rotation_iff_sample :
    (∀ secrets', Rotated versionedSecrets secrets' →
      Recovered samplePlatform secrets' "t" (.ofString "\t A@B.c") sampleStored) ↔
        encryptionKeys.Versioned versionedSecrets ∧ hmacKeys.Versioned versionedSecrets ∧
          (JsText.ofString "\t A@B.c").isWellFormed = true := by
  have hiv : sampleIv.length = 12 := rfl
  have hstored : samplePlatform.protectEmail versionedSecrets sampleIv "t"
      (.ofString "\t A@B.c") = .ok sampleStored := eq_ok_of_toOption (by decide +kernel)
  exact recovered_after_rotation_iff hiv hstored

/-- A recipient that is protected under the alias is lost at once: nothing rotates. -/
theorem alias_recipient_lost :
    samplePlatform.protectEmail aliasSecrets sampleIv "t" (.ofString "\t A@B.c") =
        .ok sampleStored ∧
      Rotated aliasSecrets aliasSecrets ∧
      (samplePlatform.recoverEmailForSend aliasSecrets "t" sampleStored.ciphertext).toOption = none ∧
      ¬ Recovered samplePlatform aliasSecrets "t" (.ofString "\t A@B.c") sampleStored := by
  have hnone : (samplePlatform.recoverEmailForSend aliasSecrets "t"
      sampleStored.ciphertext).toOption = none := by decide +kernel
  refine ⟨eq_ok_of_toOption (by decide +kernel), .refl aliasSecrets, hnone, ?_⟩
  rintro ⟨address, -, hrecover, -⟩
  rw [hrecover] at hnone
  cases hnone

end VegaRevenue.RecipientProtection

import VegaRevenue.Outreach.Send

/-!
# Versioned keys of the protected channels

`VersionedKeyResolver` over a secrets provider. The current key is read under its version, or else
under an alias; a key of a given version is read under its version only.

* `resolveCurrent_cases` — where the current key comes from
* `parseHexKey_hexText` — a resolved key survives its way through hexadecimal text
-/

namespace VegaRevenue.RecipientProtection

/-- The secrets that can be read, by name. -/
abbrev Secrets := String → Option String

/-! ## Hexadecimal text -/

def hexValue? (c : Char) : Option Nat :=
  if c.isDigit then some (c.toNat - 0x30)
  else if 'a' ≤ c ∧ c ≤ 'f' then some (c.toNat - 0x61 + 10)
  else if 'A' ≤ c ∧ c ≤ 'F' then some (c.toNat - 0x41 + 10)
  else none

def hexDigit (n : Nat) : Char := if n < 10 then Char.ofNat (0x30 + n) else Char.ofNat (0x61 + (n - 10))

/-- The bytes of pairs of digits; a digit left over is dropped. -/
def hexBytes : List Nat → List UInt8
  | high :: low :: rest => .ofNat (high * 16 + low) :: hexBytes rest
  | _ => []

/-- `key.toString('hex')`. -/
def hexText (key : List UInt8) : String :=
  String.ofList (key.flatMap fun b => [hexDigit (b.toNat / 16), hexDigit (b.toNat % 16)])

/-- `parseHexKey`; the label names the key in an error. -/
def parseHexKey (hex : String) (expectedBytes : Nat) (label : String) :
    Except String (List UInt8) :=
  match hex.toList.mapM hexValue? with
  | none | some [] => .error (label ++ " key is not valid hex")
  | some digits =>
    let bytes := hexBytes digits
    if bytes.length = expectedBytes then .ok bytes
    else .error s!"{label} key must be {expectedBytes} bytes (got {bytes.length})"

/-! ## Keys -/

structure VersionedKeyResolver where
  versionSecret : String
  aliasSecret : String
  versionedPrefix : String
  label : String

def encryptionKeys : VersionedKeyResolver where
  versionSecret := "projectx/contact-channel/encryption-key-version"
  aliasSecret := "projectx/contact-channel/encryption-key"
  versionedPrefix := "projectx/contact-channel/encryption-keys/"
  label := "encryption"

def hmacKeys : VersionedKeyResolver where
  versionSecret := "projectx/contact-channel/hmac-key-version"
  aliasSecret := "projectx/contact-channel/hmac-key"
  versionedPrefix := "projectx/contact-channel/hmac-keys/"
  label := "HMAC"

/-- A key that was resolved: 64 hexadecimal digits. -/
def parseResolvedKey (hex label : String) : Except String (List UInt8) :=
  match hex.toList.mapM hexValue? with
  | some digits =>
    if digits.length = 64 then .ok (hexBytes digits) else .error (label ++ " key is invalid")
  | none => .error (label ++ " key is invalid")

def validateProtectedKeyVersion (version : String) : Except String String :=
  if Outreach.keyVersion version.toList then .ok version
  else .error "Invalid protected-channel key version"

def read (secrets : Secrets) (name message : String) : Except String String :=
  match secrets name with
  | some value => .ok value
  | none => .error message

namespace VersionedKeyResolver

variable (keys : VersionedKeyResolver) (secrets : Secrets)

def resolveVersion (keyVersion : String) : Except String (List UInt8) := do
  let version ← validateProtectedKeyVersion keyVersion
  let hex ← read secrets (keys.versionedPrefix ++ version) (keys.label ++ " key version unavailable")
  parseResolvedKey hex keys.label

/-- The version and the key of it. -/
def resolveCurrent : Except String (String × List UInt8) := do
  let version ← read secrets keys.versionSecret (keys.label ++ " key version unavailable")
  let keyVersion ← validateProtectedKeyVersion version
  match keys.resolveVersion secrets keyVersion with
  | .ok key => return (keyVersion, key)
  | .error _ =>
    let hex ← read secrets keys.aliasSecret (keys.label ++ " key unavailable")
    return (keyVersion, ← parseResolvedKey hex keys.label)

/-- The current version has a key of its own. -/
def Versioned : Prop :=
  ∃ version key, secrets keys.versionSecret = some version ∧
    keys.resolveVersion secrets version = .ok key

end VersionedKeyResolver

/-! ## Facts -/

variable {keys : VersionedKeyResolver} {secrets : Secrets}

theorem validate_eq_ok {version version' : String}
    (h : validateProtectedKeyVersion version = .ok version') :
    version' = version ∧ Outreach.keyVersion version.toList = true := by
  unfold validateProtectedKeyVersion at h
  split at h
  next hversion =>
    cases h
    exact ⟨rfl, hversion⟩
  · cases h

theorem read_eq_ok {name message value : String} (h : read secrets name message = .ok value) :
    secrets name = some value := by
  unfold read at h
  split at h
  next hvalue =>
    cases h
    exact hvalue
  · cases h

theorem resolveVersion_eq_ok {version : String} {key : List UInt8}
    (h : keys.resolveVersion secrets version = .ok key) :
    Outreach.keyVersion version.toList = true ∧ ∃ hex,
      secrets (keys.versionedPrefix ++ version) = some hex ∧
        parseResolvedKey hex keys.label = .ok key := by
  unfold VersionedKeyResolver.resolveVersion at h
  cases hv : validateProtectedKeyVersion version with
  | error message =>
    rw [hv] at h
    cases h
  | ok version' =>
    obtain ⟨rfl, hversion⟩ := validate_eq_ok hv
    rw [hv] at h
    cases hr : read secrets (keys.versionedPrefix ++ version')
        (keys.label ++ " key version unavailable") with
    | error message =>
      simp only [bind, Except.bind, hr] at h
      cases h
    | ok hex =>
      simp only [bind, Except.bind, hr] at h
      exact ⟨hversion, hex, read_eq_ok hr, h⟩

/-- A key is resolved alike by every provider that reads the same secret under its version. -/
theorem resolveVersion_congr {secrets' : Secrets} {version : String}
    (h : secrets' (keys.versionedPrefix ++ version) = secrets (keys.versionedPrefix ++ version)) :
    keys.resolveVersion secrets' version = keys.resolveVersion secrets version := by
  unfold VersionedKeyResolver.resolveVersion
  cases hv : validateProtectedKeyVersion version with
  | error message => rfl
  | ok version' =>
    obtain ⟨rfl, -⟩ := validate_eq_ok hv
    simp only [bind, Except.bind, read, h]

/-- **The current key is the one of its version, or the one of the alias where that version has
none.** -/
theorem resolveCurrent_cases {version : String} {key : List UInt8}
    (h : keys.resolveCurrent secrets = .ok (version, key)) :
    secrets keys.versionSecret = some version ∧ Outreach.keyVersion version.toList = true ∧
      (keys.resolveVersion secrets version = .ok key ∨
        (∃ message, keys.resolveVersion secrets version = .error message) ∧
          ∃ hex, secrets keys.aliasSecret = some hex ∧ parseResolvedKey hex keys.label = .ok key) := by
  unfold VersionedKeyResolver.resolveCurrent at h
  cases hr : read secrets keys.versionSecret (keys.label ++ " key version unavailable") with
  | error message =>
    rw [hr] at h
    cases h
  | ok version' =>
    simp only [bind, Except.bind, hr] at h
    cases hv : validateProtectedKeyVersion version' with
    | error message =>
      rw [hv] at h
      cases h
    | ok version'' =>
      obtain ⟨rfl, hversion⟩ := validate_eq_ok hv
      simp only [hv] at h
      cases hk : keys.resolveVersion secrets version'' with
      | ok key' =>
        rw [hk] at h
        cases h
        exact ⟨read_eq_ok hr, hversion, .inl hk⟩
      | error message =>
        simp only [hk] at h
        cases ha : read secrets keys.aliasSecret (keys.label ++ " key unavailable") with
        | error message =>
          rw [ha] at h
          cases h
        | ok hex =>
          simp only [ha] at h
          cases hp : parseResolvedKey hex keys.label with
          | error message =>
            rw [hp] at h
            cases h
          | ok key' =>
            rw [hp] at h
            cases h
            exact ⟨read_eq_ok hr, hversion, .inr ⟨⟨message, hk⟩, hex, read_eq_ok ha, hp⟩⟩

/-! ## Lengths and round trips -/

theorem hexBytes_length (digits : List Nat) : (hexBytes digits).length = digits.length / 2 := by
  induction digits using hexBytes.induct with
  | case1 high low rest ih =>
    rw [hexBytes, List.length_cons, ih, List.length_cons, List.length_cons]
    omega
  | case2 digits hshort =>
    match digits with
    | [] => rfl
    | [_] => simp [hexBytes]
    | high :: low :: rest => exact absurd rfl (hshort high low rest)

/-- A resolved key has 32 bytes. -/
theorem length_of_parseResolvedKey {hex label : String} {key : List UInt8}
    (h : parseResolvedKey hex label = .ok key) : key.length = 32 := by
  unfold parseResolvedKey at h
  split at h
  · split at h
    next hlength =>
      cases h
      rw [hexBytes_length, hlength]
    · cases h
  · cases h

theorem length_of_resolveCurrent {current : String × List UInt8}
    (h : keys.resolveCurrent secrets = .ok current) : current.2.length = 32 := by
  obtain ⟨-, -, hversion | ⟨-, hex, -, hparse⟩⟩ := resolveCurrent_cases h
  · obtain ⟨-, hex, -, hparse⟩ := resolveVersion_eq_ok hversion
    exact length_of_parseResolvedKey hparse
  · exact length_of_parseResolvedKey hparse

theorem hexValue?_hexDigit {n : Nat} (h : n < 16) : hexValue? (hexDigit n) = some n := by
  have hall : ∀ m ∈ List.range 16, hexValue? (hexDigit m) = some m := by decide
  exact hall n (List.mem_range.mpr h)

theorem mapM_hexText (key : List UInt8) :
    (hexText key).toList.mapM hexValue? =
      some (key.flatMap fun b => [b.toNat / 16, b.toNat % 16]) := by
  unfold hexText
  rw [String.toList_ofList]
  induction key with
  | nil => rfl
  | cons b key ih =>
    have hb := b.toNat_lt
    have hhigh : hexValue? (hexDigit (b.toNat / 16)) = some (b.toNat / 16) :=
      hexValue?_hexDigit (by omega)
    have hlow : hexValue? (hexDigit (b.toNat % 16)) = some (b.toNat % 16) :=
      hexValue?_hexDigit (by omega)
    simp [List.flatMap_cons, List.mapM_cons, hhigh, hlow, ih]

theorem hexBytes_flatMap (key : List UInt8) :
    hexBytes (key.flatMap fun b => [b.toNat / 16, b.toNat % 16]) = key := by
  induction key with
  | nil => rfl
  | cons b key ih =>
    have hsum : b.toNat / 16 * 16 + b.toNat % 16 = b.toNat := by omega
    rw [List.flatMap_cons, List.cons_append, List.cons_append, List.nil_append, hexBytes, ih, hsum,
      UInt8.ofNat_toNat]

/-- **A key survives its way through hexadecimal text.** -/
theorem parseHexKey_hexText {key : List UInt8} (h : key.length = 32) (label : String) :
    parseHexKey (hexText key) 32 label = .ok key := by
  unfold parseHexKey
  rw [mapM_hexText]
  cases key with
  | nil => cases h
  | cons b key =>
    have hbytes := hexBytes_flatMap (b :: key)
    rw [List.flatMap_cons, List.cons_append] at hbytes
    rw [List.flatMap_cons, List.cons_append]
    simp only [hbytes, h, if_true]

end VegaRevenue.RecipientProtection

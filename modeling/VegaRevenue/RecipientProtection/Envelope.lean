import Mathlib.Data.List.DropRight
import VegaRevenue.Lib.Base64
import VegaRevenue.Shared.JsText
import VegaRevenue.RecipientProtection.Keyring

/-!
# Envelopes of protected channels

A fingerprint is `h1.<version>.<HMAC>`, a ciphertext `e1.<version>.<IV, tag and encrypted bytes>`;
what they are computed of is framed as a JSON array. AES-256-GCM and HMAC-SHA256 are parameters.

* `fromBase64Url_toBase64Url`, `ofUtf8_utf8` — bytes and texts are read back
* `splitOn_envelope` — the three parts of an envelope are read back
* `decryptCiphertextEnvelope_build` — what was encrypted is decrypted under the same key
-/

namespace VegaRevenue.RecipientProtection

/-! ## Cryptography -/

/-- What the program takes from `node:crypto` and `Buffer`. -/
structure Crypto where
  /-- The tag and the encrypted bytes of AES-256-GCM. -/
  encrypt : (key iv aad plaintext : List UInt8) → List UInt8 × List UInt8
  decrypt : (key iv aad authTag encrypted : List UInt8) → Option (List UInt8)
  /-- HMAC-SHA256. -/
  hmac : (key input : List UInt8) → List UInt8
  /-- What `toString('utf8')` makes of bytes that are no UTF-8. -/
  lossy : List UInt8 → String
  decrypt_encrypt : ∀ {key iv : List UInt8} (aad plaintext : List UInt8), key.length = 32 →
    iv.length = 12 →
    decrypt key iv aad (encrypt key iv aad plaintext).1 (encrypt key iv aad plaintext).2 = some plaintext
  length_tag : ∀ key iv aad plaintext, (encrypt key iv aad plaintext).1.length = 16
  length_encrypted : ∀ key iv aad plaintext,
    (encrypt key iv aad plaintext).2.length = plaintext.length

/-! ## Bytes -/

/-- `Buffer.from(s)`. -/
def utf8 (s : String) : List UInt8 := s.toByteArray.data.toList

/-- `bytes.toString('utf8')`. -/
def ofUtf8 (crypto : Crypto) (bytes : List UInt8) : String :=
  (String.fromUTF8? ⟨bytes.toArray⟩).getD (crypto.lossy bytes)

def urlDigit (c : Char) : Char := if c = '+' then '-' else if c = '/' then '_' else c

def standardDigit (c : Char) : Char := if c = '-' then '+' else if c = '_' then '/' else c

def toBase64Url (bytes : List UInt8) : String :=
  String.ofList (((Base64.encode bytes).map urlDigit).rdropWhile (· = '='))

def fromBase64Url (s : String) : List UInt8 := Base64.decode (s.toList.map standardDigit)

theorem ofUtf8_utf8 (crypto : Crypto) (s : String) : ofUtf8 crypto (utf8 s) = s := by
  have hbytes : (⟨(utf8 s).toArray⟩ : ByteArray) = s.toByteArray := by
    unfold utf8
    rw [Array.toArray_toList]
  unfold ofUtf8 String.fromUTF8?
  rw [hbytes, dif_pos s.isValidUTF8]
  rfl

theorem utf8_ne_nil {s : String} (h : s ≠ "") : utf8 s ≠ [] := by
  intro hnil
  apply h
  apply String.toByteArray_inj.mp
  apply ByteArray.ext
  unfold utf8 at hnil
  rw [Array.toList_eq_nil_iff] at hnil
  rw [hnil]
  rfl

/-- A digit as it is written in a URL: neither the padding nor a dot, and with its own value. -/
theorem urlDigit_digit {n : Nat} (h : n < 64) :
    urlDigit (Base64.digit n) ≠ '=' ∧ urlDigit (Base64.digit n) ≠ '.' ∧
      standardDigit (urlDigit (Base64.digit n)) = Base64.digit n := by
  have hall : ∀ m ∈ List.range 64, urlDigit (Base64.digit m) ≠ '=' ∧
      urlDigit (Base64.digit m) ≠ '.' ∧
        standardDigit (urlDigit (Base64.digit m)) = Base64.digit m := by decide
  exact hall n (List.mem_range.mpr h)

/-- The padding goes and the digits stay. -/
theorem toList_toBase64Url (bytes : List UInt8) :
    (toBase64Url bytes).toList = ((Base64.sextets bytes).map Base64.digit).map urlDigit := by
  unfold toBase64Url Base64.encode
  rw [String.toList_ofList, List.map_append, List.map_replicate]
  have hdigits : ∀ c ∈ ((Base64.sextets bytes).map Base64.digit).map urlDigit, c ≠ '=' := by
    intro c hc
    obtain ⟨d, hd, rfl⟩ := List.mem_map.mp hc
    obtain ⟨n, hn, rfl⟩ := List.mem_map.mp hd
    exact (urlDigit_digit (Base64.sextets_lt bytes n hn)).1
  generalize ((Base64.sextets bytes).map Base64.digit).map urlDigit = digits at hdigits
  induction Base64.padding bytes.length with
  | zero =>
    rw [List.replicate_zero, List.append_nil, List.rdropWhile_eq_self_iff]
    intro hne
    simpa using hdigits _ (List.getLast_mem hne)
  | succ n ih =>
    rw [List.replicate_succ', ← List.append_assoc, List.rdropWhile_concat_pos _ _ _ (by decide), ih]

/-- **Bytes are read back.** -/
theorem fromBase64Url_toBase64Url (bytes : List UInt8) :
    fromBase64Url (toBase64Url bytes) = bytes := by
  unfold fromBase64Url Base64.decode
  have hback : ((((Base64.sextets bytes).map Base64.digit).map urlDigit).map standardDigit) =
      (Base64.sextets bytes).map Base64.digit := by
    rw [List.map_map, List.map_map]
    exact List.map_congr_left fun n hn =>
      (urlDigit_digit (Base64.sextets_lt bytes n hn)).2.2
  rw [toList_toBase64Url, hback, Base64.filterMap_digit (Base64.sextets_lt bytes),
    Base64.bytes_sextets]

theorem dot_notMem_toBase64Url (bytes : List UInt8) : '.' ∉ (toBase64Url bytes).toList := by
  rw [toList_toBase64Url]
  intro hdot
  obtain ⟨d, hd, hdot⟩ := List.mem_map.mp hdot
  obtain ⟨n, hn, rfl⟩ := List.mem_map.mp hd
  exact (urlDigit_digit (Base64.sextets_lt bytes n hn)).2.1 hdot

/-! ## Framing -/

/-- A code point inside a JSON string; `JSON.stringify` escapes what UTF-8 cannot write. -/
def jsonCodePoint : CodePoint → List Char
  | .surrogate n => ['\\', 'u', 'd'] ++
      [hexDigit (8 + n.val / 256), hexDigit (n.val / 16 % 16), hexDigit (n.val % 16)]
  | .scalar c =>
    if c = '"' then ['\\', '"']
    else if c = '\\' then ['\\', '\\']
    else if c = '\x08' then ['\\', 'b']
    else if c = '\x0c' then ['\\', 'f']
    else if c = '\n' then ['\\', 'n']
    else if c = '\r' then ['\\', 'r']
    else if c = '\t' then ['\\', 't']
    else if c.toNat < 0x20 then
      ['\\', 'u', '0', '0', hexDigit (c.toNat / 16), hexDigit (c.toNat % 16)]
    else [c]

def jsonString (s : JsText) : String :=
  "\"" ++ String.ofList (s.points.flatMap jsonCodePoint) ++ "\""

/-- `JSON.stringify([domain, 1, …fields])`. -/
def jsonFrame (domain : String) (fields : List JsText) : String :=
  "[" ++ ",".intercalate (jsonString (.ofString domain) :: "1" :: fields.map jsonString) ++ "]"

def buildHmacInput (tenantId channelType : String) (canonicalValue : JsText) : String :=
  jsonFrame "projectx.contact-fingerprint" [.ofString tenantId, .ofString channelType, canonicalValue]

def buildAad (tenantId channelType encKeyVersion : String) : List UInt8 :=
  utf8 (jsonFrame "projectx.contact-encryption"
    [.ofString tenantId, .ofString channelType, .ofString encKeyVersion])

/-! ## Envelopes -/

def envelope (format keyVersion payload : String) : String :=
  format ++ "." ++ keyVersion ++ "." ++ payload

/-- `s.split('.')`. -/
def splitDots (s : String) : List String := (s.toList.splitOn '.').map String.ofList

def buildFingerprintEnvelope (crypto : Crypto) (key : List UInt8)
    (hmacKeyVersion tenantId channelType : String) (canonicalValue : JsText) : String :=
  envelope "h1" hmacKeyVersion
    (toBase64Url (crypto.hmac key (utf8 (buildHmacInput tenantId channelType canonicalValue))))

/-- The twelve random bytes of the IV are an argument. -/
def buildCiphertextEnvelope (crypto : Crypto) (key iv : List UInt8)
    (encKeyVersion tenantId channelType : String) (plaintext : JsText) : String :=
  let aad := buildAad tenantId channelType encKeyVersion
  let out := crypto.encrypt key iv aad (utf8 plaintext.toWellFormed)
  envelope "e1" encKeyVersion (toBase64Url (iv ++ out.1 ++ out.2))

structure ParsedCiphertextEnvelope where
  format : String
  keyVersion : String
  iv : List UInt8
  authTag : List UInt8
  encrypted : List UInt8

def parseCiphertextEnvelope (text : String) : Except String ParsedCiphertextEnvelope :=
  match splitDots text with
  | [format, keyVersion, b64Payload] =>
    if format ≠ "e1" then .error s!"Unsupported ciphertext envelope format: {format}"
    else if keyVersion = "" then .error "Ciphertext envelope has empty key version"
    else
      let payload := fromBase64Url b64Payload
      if payload.length < 12 + 16 + 1 then
        .error s!"Ciphertext payload too short (minimum 29 bytes, got {payload.length})"
      else .ok {
        format, keyVersion
        iv := payload.take 12
        authTag := (payload.drop 12).take 16
        encrypted := payload.drop 28 }
  | _ => .error "Malformed ciphertext envelope: expected 3 segments"

def decryptCiphertextEnvelope (crypto : Crypto) (key : List UInt8)
    (tenantId channelType text : String) : Except String String := do
  let parsed ← parseCiphertextEnvelope text
  match crypto.decrypt key parsed.iv (buildAad tenantId channelType parsed.keyVersion)
      parsed.authTag parsed.encrypted with
  | some plaintext => return ofUtf8 crypto plaintext
  | none => .error "Protected channel recovery failed"

/-! ## What is read back -/

theorem keyVersion_noDot {version : String} (h : Outreach.keyVersion version.toList = true) :
    '.' ∉ version.toList := by
  intro hdot
  unfold Outreach.keyVersion at h
  rw [Bool.and_eq_true, List.all_eq_true] at h
  exact absurd (h.2 '.' hdot) (by decide)

theorem keyVersion_ne_empty {version : String} (h : Outreach.keyVersion version.toList = true) :
    version ≠ "" := by
  rintro rfl
  exact absurd h (by decide)

theorem splitOn_envelope {format version payload : String} (hformat : '.' ∉ format.toList)
    (hversion : '.' ∉ version.toList) (hpayload : '.' ∉ payload.toList) :
    (envelope format version payload).toList.splitOn '.' =
      [format.toList, version.toList, payload.toList] := by
  have hlist : (envelope format version payload).toList =
      format.toList ++ '.' :: (version.toList ++ '.' :: payload.toList) := by
    unfold envelope
    simp [String.toList_append]
  rw [hlist, List.splitOn_append_cons_self_of_not_mem hformat,
    List.splitOn_append_cons_self_of_not_mem hversion, List.splitOn_eq_singleton hpayload]

/-- **The parts of a ciphertext envelope are read back.** -/
theorem parseCiphertextEnvelope_envelope {version : String} {iv authTag encrypted : List UInt8}
    (hversion : Outreach.keyVersion version.toList = true) (hiv : iv.length = 12)
    (htag : authTag.length = 16) (hencrypted : encrypted ≠ []) :
    parseCiphertextEnvelope (envelope "e1" version (toBase64Url (iv ++ authTag ++ encrypted))) =
      .ok ⟨"e1", version, iv, authTag, encrypted⟩ := by
  have hformat : '.' ∉ "e1".toList := by decide
  have hsplit := splitOn_envelope hformat (keyVersion_noDot hversion)
    (dot_notMem_toBase64Url (iv ++ authTag ++ encrypted))
  have hlength : ¬ (iv ++ authTag ++ encrypted).length < 12 + 16 + 1 := by
    have hpos := List.length_pos_of_ne_nil hencrypted
    rw [List.length_append, List.length_append]
    omega
  have hdrop : (iv ++ authTag ++ encrypted).drop 28 = encrypted :=
    List.drop_left' (by rw [List.length_append]; omega)
  have htake : (iv ++ authTag ++ encrypted).take 12 = iv := by
    rw [List.append_assoc]
    exact List.take_left' hiv
  have hmiddle : ((iv ++ authTag ++ encrypted).drop 12).take 16 = authTag := by
    rw [List.append_assoc, List.drop_left' hiv]
    exact List.take_left' htag
  unfold parseCiphertextEnvelope splitDots
  rw [hsplit]
  simp only [List.map_cons, List.map_nil, String.ofList_toList, fromBase64Url_toBase64Url, htake,
    hmiddle, hdrop]
  rw [if_neg (by decide), if_neg (keyVersion_ne_empty hversion), if_neg hlength]

theorem parseCiphertextEnvelope_build (crypto : Crypto) (key : List UInt8) {iv : List UInt8}
    {version : String} (tenantId channelType : String) {plaintext : JsText} (hiv : iv.length = 12)
    (hversion : Outreach.keyVersion version.toList = true)
    (hplaintext : plaintext.toWellFormed ≠ "") :
    parseCiphertextEnvelope
        (buildCiphertextEnvelope crypto key iv version tenantId channelType plaintext) =
      let out := crypto.encrypt key iv (buildAad tenantId channelType version)
        (utf8 plaintext.toWellFormed)
      .ok ⟨"e1", version, iv, out.1, out.2⟩ := by
  apply parseCiphertextEnvelope_envelope hversion hiv (crypto.length_tag _ _ _ _)
  apply List.ne_nil_of_length_pos
  rw [crypto.length_encrypted]
  exact List.length_pos_of_ne_nil (utf8_ne_nil hplaintext)

/-- **What was encrypted is decrypted under the same key.** -/
theorem decryptCiphertextEnvelope_build (crypto : Crypto) {key iv : List UInt8} {version : String}
    (tenantId channelType : String) {plaintext : JsText} (hkey : key.length = 32)
    (hiv : iv.length = 12) (hversion : Outreach.keyVersion version.toList = true)
    (hplaintext : plaintext.toWellFormed ≠ "") :
    decryptCiphertextEnvelope crypto key tenantId channelType
        (buildCiphertextEnvelope crypto key iv version tenantId channelType plaintext) =
      .ok plaintext.toWellFormed := by
  unfold decryptCiphertextEnvelope
  rw [parseCiphertextEnvelope_build crypto key tenantId channelType hiv hversion hplaintext]
  simp only [bind, Except.bind, crypto.decrypt_encrypt _ _ hkey hiv, ofUtf8_utf8]
  rfl

end VegaRevenue.RecipientProtection

import VegaRevenue.Identity.TokenIssuer

/-!
# Tokens verify exactly while they are valid

An issuer at work accepts the tokens it has issued, as long as they have not expired and the ring
holds the key they were signed with, and it accepts nothing else. HMAC-SHA256 is assumed to be
unforgeable: the log of the issued tokens has every message that a key of the ring has signed.

* `Exact` — what a call of `verify` owes
* `Assumed` — what the issuer is assumed to meet
* `verify_exact` — every run
-/

namespace VegaRevenue.Identity

open RecipientProtection (utf8 toBase64Url splitDots dot_notMem_toBase64Url ofUtf8_utf8
  fromBase64Url_toBase64Url)

/-! ## What a call of verify owes -/

/-- The form of a token that the ring accepts. -/
def Accepted (platform : Platform) (config : IssuerConfig) (ring : KeyRing)
    (resolvedAt now : Date) (token : String) : Prop :=
  ∃ header payload signature, token = header ++ "." ++ payload ++ "." ++ signature ∧
    (∃ k, ring.Holds k resolvedAt ∧ signature = platform.sign (header ++ "." ++ payload) k.key) ∧
    ∃ v exp, platform.decodePart payload = some v ∧
      v.member? "iss" = some (.str config.issuer) ∧ v.member? "aud" = some (.str config.audience) ∧
      v.member? "exp" = some (.num exp) ∧ ((now / 1000 : Int) : Rat) ≤ exp

/-- What a call of `verify` owes; the other events owe nothing. -/
def Exact (platform : Platform) (config : IssuerConfig) (s : TokenState) : TokenEvent → Prop
  | .verify token resolvedAt now =>
    (∀ i ∈ s.issued, i.token = token →
      (now / 1000 ≤ i.exp config ∧ s.ring.Holds i.key resolvedAt →
        platform.verify config s.ring token resolvedAt now = some i.user.verified) ∧
      (¬ (now / 1000 ≤ i.exp config ∧ s.ring.Holds i.key resolvedAt) →
        platform.verify config s.ring token resolvedAt now = none)) ∧
    ∀ user, platform.verify config s.ring token resolvedAt now = some user →
      (∃ i ∈ s.issued, i.token = token ∧ user = i.user.verified) ∧
        Accepted platform config s.ring resolvedAt now token
  | _ => True

/-! ## What is assumed -/

/-- `JSON.parse` reads back what `JSON.stringify` writes of the value. -/
def Platform.Keeps (platform : Platform) (v : Json) : Prop :=
  platform.parse (platform.stringify v) = some v

/-- What a key of the ring has signed, it has signed for a token of the log. -/
def Unforged (platform : Platform) (s : TokenState) (token : String) (resolvedAt : Date) : Prop :=
  ∀ header payload signature, splitDots token = [header, payload, signature] →
    ∀ k, s.ring.Holds k resolvedAt →
      signature = platform.sign (header ++ "." ++ payload) k.key →
      ∃ i ∈ s.issued, i.key.key = k.key ∧
        ∃ signature', splitDots i.token = [header, payload, signature']

/-- What is assumed of the events. -/
def Assumed (platform : Platform) (config : IssuerConfig) (s : TokenState) : TokenEvent → Prop
  | .refresh keys _ _ => keys.active.kid ≠ "" ∧ ∀ p ∈ keys.previous, p.kid ≠ ""
  | .issue user now =>
    platform.Keeps (tokenHeader s.ring.active.kid) ∧
      platform.Keeps (tokenPayload config user (now / 1000)) ∧
      -- signatures of different keys differ
      ∀ token, platform.issue config s.ring user now = .ok token →
        ∀ i ∈ s.issued, i.token = token → i.key.key = s.ring.active.key
  | .verify token resolvedAt _ => Unforged platform s token resolvedAt

/-! ## Rings -/

/-- The ids of the ring are not empty. -/
def KeyRing.Named (ring : KeyRing) : Prop := ring.active.kid ≠ "" ∧ ∀ p ∈ ring.previous, p.kid ≠ ""

theorem resolveKey_eq_some {ring : KeyRing} {kid : String} {now : Date} {k : LoadedKey} :
    ring.resolveKey kid now = some k ↔ ring.Holds k now ∧ k.kid = kid := by
  unfold KeyRing.resolveKey KeyRing.Holds
  constructor
  · intro h
    split at h
    next hactive =>
      cases h
      exact ⟨.inl rfl, hactive⟩
    next =>
      split at h
      next previous hprevious =>
        split at h
        next hvalid =>
          cases h
          exact ⟨.inr ⟨previous, hprevious, rfl, hvalid.2⟩, hvalid.1⟩
        next => cases h
      next => cases h
  · rintro ⟨rfl | ⟨previous, hprevious, rfl, hvalid⟩, rfl⟩
    · rw [if_pos rfl]
    · have hdistinct := ring.distinct previous hprevious
      rw [if_neg hdistinct, Option.mem_def.mp hprevious]
      exact if_pos ⟨rfl, hvalid⟩

/-- A loaded ring has the ids of the configuration. -/
theorem named_of_loadRing {secrets : SecretsProvider} {keys : KeyConfig} {now : Date}
    {ring : KeyRing} (h : loadRing secrets keys now = .ok ring)
    (hkeys : keys.active.kid ≠ "" ∧ ∀ p ∈ keys.previous, p.kid ≠ "") : ring.Named := by
  unfold loadRing at h
  obtain ⟨active, -, h⟩ := of_bind_eq_ok h
  split at h
  next hprevious =>
    cases h
    refine ⟨?_, by simp⟩
    show active.val.kid ≠ ""
    rw [active.property.1]
    exact hkeys.1
  next previous hprevious =>
    split at h
    · cases h
    obtain ⟨loaded, -, h⟩ := of_bind_eq_ok h
    cases h
    constructor
    · show active.val.kid ≠ ""
      rw [active.property.1]
      exact hkeys.1
    · intro p hp
      rw [← Option.some.inj hp]
      show loaded.val.kid ≠ ""
      rw [loaded.property.1]
      exact hkeys.2 previous hprevious

/-! ## The parts of a token -/

theorem splitDots_parts {header payload signature : String} (hheader : '.' ∉ header.toList)
    (hpayload : '.' ∉ payload.toList) (hsignature : '.' ∉ signature.toList) :
    splitDots (header ++ "." ++ payload ++ "." ++ signature) = [header, payload, signature] := by
  unfold splitDots
  have henvelope := RecipientProtection.splitOn_envelope hheader hpayload hsignature
  unfold RecipientProtection.envelope at henvelope
  rw [henvelope]
  simp

/-- A token is its three parts. -/
theorem eq_of_splitDots {token header payload signature : String}
    (h : splitDots token = [header, payload, signature]) :
    token = header ++ "." ++ payload ++ "." ++ signature := by
  have hjoin : ['.'].intercalate (token.toList.splitOn '.') = token.toList :=
    List.intercalate_splitOn '.'
  have hparts : token.toList.splitOn '.' = [header.toList, payload.toList, signature.toList] := by
    have hmap := congrArg (List.map String.toList) h
    unfold splitDots at hmap
    rw [List.map_map] at hmap
    simpa [Function.comp_def] using hmap
  rw [hparts] at hjoin
  apply String.toList_inj.mp
  rw [← hjoin]
  simp [List.intercalate, String.toList_append]

variable {platform : Platform} {config : IssuerConfig} {ring : KeyRing} {s : TokenState}

theorem dot_notMem_encodePart (v : Json) : '.' ∉ (platform.encodePart v).toList :=
  dot_notMem_toBase64Url _

theorem dot_notMem_sign (input : String) (key : List UInt8) :
    '.' ∉ (platform.sign input key).toList :=
  dot_notMem_toBase64Url _

/-- A part that was encoded is decoded. -/
theorem decodePart_encodePart {v : Json} (h : platform.Keeps v) :
    platform.decodePart (platform.encodePart v) = some v := by
  unfold Platform.decodePart Platform.encodePart
  rw [fromBase64Url_toBase64Url, ofUtf8_utf8]
  exact h

theorem headerKid_encodePart {kid : String} (h : platform.Keeps (tokenHeader kid)) (hkid : kid ≠ "") :
    platform.headerKid (platform.encodePart (tokenHeader kid)) = some kid := by
  unfold Platform.headerKid
  rw [decodePart_encodePart h]
  simp [tokenHeader, Json.member?, isText, hkid]

theorem signed_eq_true {input signature : String} {key : List UInt8} :
    platform.signed input signature key = true ↔ signature = platform.sign input key := by
  unfold Platform.signed
  rw [decide_eq_true_eq]
  constructor
  · intro h
    unfold utf8 at h
    exact String.toByteArray_inj.mp (ByteArray.ext (Array.toList_inj.mp h))
  · exact congrArg utf8

/-- **What `verify` returns, by the parts of the token.** -/
theorem verify_eq_some {token : String} {resolvedAt now : Date} {user : VerifiedUser} :
    platform.verify config ring token resolvedAt now = some user ↔
      ∃ header payload signature kid k v, splitDots token = [header, payload, signature] ∧
        platform.headerKid header = some kid ∧ ring.Holds k resolvedAt ∧ k.kid = kid ∧
        signature = platform.sign (header ++ "." ++ payload) k.key ∧
        platform.decodePart payload = some v ∧ platform.readPayload config v now = some user := by
  unfold Platform.verify
  constructor
  · intro h
    split at h
    next header payload signature hparts =>
      obtain ⟨kid, hkid, h⟩ := Option.bind_eq_some_iff.mp h
      obtain ⟨k, hk, h⟩ := Option.bind_eq_some_iff.mp h
      split at h
      next hsigned =>
        obtain ⟨v, hv, h⟩ := Option.bind_eq_some_iff.mp h
        obtain ⟨hholds, hid⟩ := resolveKey_eq_some.mp hk
        exact ⟨header, payload, signature, kid, k, v, hparts, hkid, hholds, hid,
          signed_eq_true.mp hsigned, hv, h⟩
      next => cases h
    next => cases h
  · rintro ⟨header, payload, signature, kid, k, v, hparts, hkid, hholds, hid, hsigned, hv, huser⟩
    rw [hparts]
    show (platform.headerKid header >>= fun kid => _) = some user
    rw [hkid]
    show (ring.resolveKey kid resolvedAt >>= fun candidate => _) = some user
    rw [resolveKey_eq_some.mpr ⟨hholds, hid⟩]
    show (if platform.signed _ signature k.key = true then _ else none) = some user
    rw [if_pos (signed_eq_true.mpr hsigned)]
    show (platform.decodePart payload >>= fun payload => _) = some user
    rw [hv]
    exact huser

/-- What an issued payload gives. -/
theorem readPayload_tokenPayload (user : AuthenticatedUser) (issuedAt : Int) (now : Date) :
    platform.readPayload config (tokenPayload config user issuedAt) now =
      if issuedAt + config.expirySeconds < now / 1000 then none else some user.verified := by
  unfold Platform.readPayload
  simp only [tokenPayload, Json.member?, List.find?_cons, decide_eq_true_eq, String.reduceEq,
    decide_false, decide_true, Option.map_some, Platform.number, JsNumber.lt_finite, isText,
    Rat.intCast_lt_intCast, Bool.true_eq_false, or_self, or_false]
  rfl

/-! ## The log -/

/-- A token of the log, and what is assumed of it. -/
structure Issued.Sound (platform : Platform) (config : IssuerConfig) (i : Issued) : Prop where
  parts : splitDots i.token = [platform.encodePart (tokenHeader i.key.kid),
    platform.encodePart (tokenPayload config i.user (i.issuedAt / 1000)),
    platform.sign (platform.encodePart (tokenHeader i.key.kid) ++ "." ++
      platform.encodePart (tokenPayload config i.user (i.issuedAt / 1000))) i.key.key]
  header : platform.Keeps (tokenHeader i.key.kid)
  payload : platform.Keeps (tokenPayload config i.user (i.issuedAt / 1000))
  named : i.key.kid ≠ ""

/-- What holds between the events. -/
structure TokenInv (platform : Platform) (config : IssuerConfig) (s : TokenState) : Prop where
  named : s.ring.Named
  sound : ∀ i ∈ s.issued, i.Sound platform config
  single : ∀ i ∈ s.issued, ∀ j ∈ s.issued, i.token = j.token → i.key = j.key

theorem sound_issue {user : AuthenticatedUser} {now : Date} {token : String}
    (h : platform.issue config ring user now = .ok token) (hnamed : ring.Named)
    (hheader : platform.Keeps (tokenHeader ring.active.kid))
    (hpayload : platform.Keeps (tokenPayload config user (now / 1000))) :
    Issued.Sound platform config ⟨token, ring.active, user, now⟩ := by
  unfold Platform.issue at h
  split at h
  · cases h
  · cases h
    refine ⟨?_, hheader, hpayload, hnamed.1⟩
    exact splitDots_parts (dot_notMem_encodePart _) (dot_notMem_encodePart _) (dot_notMem_sign _ _)

/-- The first part of a token tells the id of its key. -/
theorem Issued.Sound.kid_eq {i j : Issued} (hi : i.Sound platform config)
    (hj : j.Sound platform config) (h : i.token = j.token) : i.key.kid = j.key.kid := by
  have hparts := hi.parts
  rw [h, hj.parts] at hparts
  have hkid := headerKid_encodePart hi.header hi.named
  rw [← (List.cons.inj hparts).1, headerKid_encodePart hj.header hj.named] at hkid
  exact (Option.some.inj hkid).symm

/-- The second part of a token tells when it expires. -/
theorem Issued.Sound.exp_eq {i j : Issued} (hi : i.Sound platform config)
    (hj : j.Sound platform config) (h : i.token = j.token) : i.exp config = j.exp config := by
  have hparts := hi.parts
  rw [h, hj.parts] at hparts
  have hpayload := decodePart_encodePart hi.payload
  rw [← (List.cons.inj (List.cons.inj hparts).2).1, decodePart_encodePart hj.payload] at hpayload
  have hexp := congrArg (fun v => v.member? "exp") (Option.some.inj hpayload)
  have hnum : (((j.exp config : Int) : Rat)) = ((i.exp config : Int) : Rat) := by
    simpa [tokenPayload, Json.member?, Issued.exp] using hexp
  exact (Rat.intCast_inj.mp hnum).symm

theorem key_ext {k k' : LoadedKey} (hkid : k.kid = k'.kid) (hkey : k.key = k'.key) : k = k' := by
  cases k
  cases k'
  cases hkid
  cases hkey
  rfl

theorem tokenInv_step {e : TokenEvent} (hinv : TokenInv platform config s)
    (he : Assumed platform config s e) : TokenInv platform config (tokenStep platform config s e).1 := by
  cases e with
  | refresh keys secrets now =>
    unfold tokenStep
    dsimp only
    split
    next ring hring => exact ⟨named_of_loadRing hring he, hinv.sound, hinv.single⟩
    next => exact hinv
  | issue user now =>
    unfold tokenStep
    dsimp only
    split
    next token htoken =>
      obtain ⟨hheader, hpayload, hother⟩ := he
      have hnew := sound_issue htoken hinv.named hheader hpayload
      have hsame : ∀ i ∈ s.issued, i.token = token → i.key = s.ring.active := fun i hi h =>
        key_ext ((hinv.sound i hi).kid_eq hnew h) (hother token htoken i hi h)
      refine ⟨hinv.named, fun i hi => ?_, fun i hi j hj h => ?_⟩
      · rcases List.mem_append.mp hi with hi | hi
        · exact hinv.sound i hi
        · rw [List.mem_singleton.mp hi]
          exact hnew
      · rcases List.mem_append.mp hi with hi | hi
        · rcases List.mem_append.mp hj with hj | hj
          · exact hinv.single i hi j hj h
          · cases List.mem_singleton.mp hj
            exact hsame i hi h
        · cases List.mem_singleton.mp hi
          rcases List.mem_append.mp hj with hj | hj
          · exact (hsame j hj h.symm).symm
          · cases List.mem_singleton.mp hj
            rfl
    next => exact hinv
  | verify token resolvedAt now => exact hinv

/-! ## Verification -/

/-- A valid token is accepted. -/
theorem verify_of_valid {i : Issued} {resolvedAt now : Date} (hi : i.Sound platform config)
    (hexp : now / 1000 ≤ i.exp config) (hholds : ring.Holds i.key resolvedAt) :
    platform.verify config ring i.token resolvedAt now = some i.user.verified := by
  refine verify_eq_some.mpr ⟨_, _, _, _, i.key, _, hi.parts,
    headerKid_encodePart hi.header hi.named, hholds, rfl, rfl, decodePart_encodePart hi.payload, ?_⟩
  rw [readPayload_tokenPayload]
  exact if_neg (not_lt.mpr hexp)

/-- What is accepted was issued, has not expired and is signed with a key of the ring. -/
theorem issued_of_verify {token : String} {resolvedAt now : Date} {user : VerifiedUser}
    (hinv : TokenInv platform config s) (hunforged : Unforged platform s token resolvedAt)
    (h : platform.verify config s.ring token resolvedAt now = some user) :
    ∃ i ∈ s.issued, i.token = token ∧ now / 1000 ≤ i.exp config ∧ s.ring.Holds i.key resolvedAt ∧
      user = i.user.verified := by
  obtain ⟨header, payload, signature, kid, k, v, hparts, hkid, hholds, hid, hsigned, hv, huser⟩ :=
    verify_eq_some.mp h
  obtain ⟨i, hi, hkey, signature', hparts'⟩ := hunforged header payload signature hparts k hholds hsigned
  have hsound := hinv.sound i hi
  rw [hsound.parts] at hparts'
  obtain ⟨hheader, hrest⟩ := List.cons.inj hparts'
  obtain ⟨hpayload, -⟩ := List.cons.inj hrest
  subst hheader hpayload
  -- the header names the key that has signed it
  rw [headerKid_encodePart hsound.header hsound.named] at hkid
  have hk : i.key = k := key_ext ((Option.some.inj hkid).trans hid.symm) hkey
  subst hk
  have htoken : i.token = token := by
    rw [eq_of_splitDots hparts, eq_of_splitDots hsound.parts, hsigned]
  rw [decodePart_encodePart hsound.payload] at hv
  rw [← Option.some.inj hv, readPayload_tokenPayload] at huser
  split at huser
  · cases huser
  next hexp =>
    exact ⟨i, hi, htoken, not_lt.mp hexp, hholds, (Option.some.inj huser).symm⟩

theorem accepted_of_valid {i : Issued} {resolvedAt now : Date} (hi : i.Sound platform config)
    (hexp : now / 1000 ≤ i.exp config) (hholds : ring.Holds i.key resolvedAt) :
    Accepted platform config ring resolvedAt now i.token := by
  refine ⟨_, _, _, eq_of_splitDots hi.parts, ⟨i.key, hholds, rfl⟩, _, _,
    decodePart_encodePart hi.payload, rfl, rfl, rfl, ?_⟩
  exact Rat.intCast_le_intCast.mpr hexp

theorem exact_of_assumed {e : TokenEvent} (hinv : TokenInv platform config s)
    (he : Assumed platform config s e) : Exact platform config s e := by
  cases e with
  | refresh keys secrets now => trivial
  | issue user now => trivial
  | verify token resolvedAt now =>
    refine ⟨fun i hi htoken => ⟨?_, fun hinvalid => ?_⟩, fun user huser => ?_⟩
    · rintro ⟨hexp, hholds⟩
      rw [← htoken]
      exact verify_of_valid (hinv.sound i hi) hexp hholds
    · rw [Option.eq_none_iff_forall_ne_some]
      intro user huser
      obtain ⟨j, hj, htoken', hexp, hholds, -⟩ := issued_of_verify hinv he huser
      have hsame := htoken.trans htoken'.symm
      rw [← hinv.single i hi j hj hsame] at hholds
      refine hinvalid ⟨?_, hholds⟩
      rw [(hinv.sound i hi).exp_eq (hinv.sound j hj) hsame]
      exact hexp
    · obtain ⟨i, hi, rfl, hexp, hholds, huser⟩ := issued_of_verify hinv he huser
      exact ⟨⟨i, hi, rfl, huser⟩, accepted_of_valid (hinv.sound i hi) hexp hholds⟩

/-- **In every run of an issuer, `verify` accepts exactly the tokens that were issued, have not
expired and were signed with a key the ring holds.** -/
theorem verify_exact (platform : Platform) (config : IssuerConfig) (ring : KeyRing)
    (hnamed : ring.Named) (events : List TokenEvent)
    (h : Machine.Meets (tokenStep platform config) (Assumed platform config) ⟨ring, []⟩ events) :
    Machine.Meets (tokenStep platform config) (Exact platform config) ⟨ring, []⟩ events := by
  have hinv : TokenInv platform config ⟨ring, []⟩ := ⟨hnamed, by simp, by simp⟩
  generalize (⟨ring, []⟩ : TokenState) = s at h hinv
  induction events generalizing s with
  | nil => trivial
  | cons e events ih =>
    exact ⟨exact_of_assumed hinv h.1, ih _ h.2 (tokenInv_step hinv h.1)⟩

/-! ## One token -/

def sampleKey : LoadedKey where
  kid := "k1"
  key := (List.range 32).map UInt8.ofNat

def sampleRing : KeyRing where
  active := sampleKey
  previous := none
  loadedAt := 1000000
  distinct := by simp
  strong := ⟨by decide, by simp⟩

def sampleUser : AuthenticatedUser where
  userId := "u1"
  email := "a@b.c"
  name := none
  tenantId := "t1"
  workspaceId := "w1"
  roles := ["MEMBER"]
  permissions := ["workspace:read"]

def sampleHeaderText : String := "\x7b\"alg\":\"HS256\",\"typ\":\"JWT\",\"kid\":\"k1\"\x7d"

def samplePayloadText : String :=
  "\x7b\"sub\":\"u1\",\"email\":\"a@b.c\",\"name\":null,\"tenant\":\"t1\",\"workspace\":\"w1\"," ++
    "\"roles\":[\"MEMBER\"],\"permissions\":[\"workspace:read\"],\"iat\":1000,\"exp\":87400," ++
    "\"iss\":\"projectx\",\"aud\":\"projectx-api\"\x7d"

def sampleInput : String :=
  "eyJhbGciOiJIUzI1NiIsInR5cCI6IkpXVCIsImtpZCI6ImsxIn0." ++
    "eyJzdWIiOiJ1MSIsImVtYWlsIjoiYUBiLmMiLCJuYW1lIjpudWxsLCJ0ZW5hbnQiOiJ0MSIsIndvcmtzcGFjZSI6" ++
    "IncxIiwicm9sZXMiOlsiTUVNQkVSIl0sInBlcm1pc3Npb25zIjpbIndvcmtzcGFjZTpyZWFkIl0sImlhdCI6MTAw" ++
    "MCwiZXhwIjo4NzQwMCwiaXNzIjoicHJvamVjdHgiLCJhdWQiOiJwcm9qZWN0eC1hcGkifQ"

def sampleToken : String := sampleInput ++ "._YOi-xLNjyVL84htOm5BZq1Vjktoowly1L439pr_J_M"

/-- HMAC-SHA256 of one input, and JSON as far as one token goes. -/
def samplePlatform : Platform where
  crypto :=
    { encrypt := fun _ _ _ plaintext => (List.replicate 16 0, plaintext)
      decrypt := fun _ _ _ _ encrypted => some encrypted
      hmac := fun key input =>
        if key = sampleKey.key ∧ input = utf8 sampleInput then
          [253, 131, 162, 251, 18, 205, 143, 37, 75, 243, 136, 109, 58, 110, 65, 102, 173, 85, 142,
            75, 104, 163, 9, 114, 212, 190, 55, 246, 154, 255, 39, 243]
        else []
      lossy := fun _ => "\ufffd"
      decrypt_encrypt := fun _ _ _ _ => rfl
      length_tag := fun _ _ _ _ => rfl
      length_encrypted := fun _ _ _ _ => rfl }
  stringify := fun v =>
    if (v.member? "alg").isSome then sampleHeaderText
    else if (v.member? "sub").isSome then samplePayloadText
    else "null"
  parse := fun text =>
    if text = sampleHeaderText then some (tokenHeader "k1")
    else if text = samplePayloadText then some (tokenPayload {} sampleUser 1000)
    else none
  toNumber := fun _ => .nan

def sampleIssue : TokenEvent := .issue sampleUser 1000500

/-- In the last second of its validity. -/
def sampleVerify : TokenEvent := .verify sampleToken 87400999 87400999

theorem sample_issue :
    (tokenStep samplePlatform {} ⟨sampleRing, []⟩ sampleIssue).1 =
      ⟨sampleRing, [⟨sampleToken, sampleKey, sampleUser, 1000500⟩]⟩ := by
  have htoken : samplePlatform.issue {} sampleRing sampleUser 1000500 = .ok sampleToken :=
    eq_ok_of_toOption (by decide +kernel)
  unfold tokenStep sampleIssue
  dsimp only
  rw [htoken]
  rfl

/-- A token is issued and verified before it expires. -/
theorem verify_exact_sample :
    Machine.Meets (tokenStep samplePlatform {}) (Exact samplePlatform {}) ⟨sampleRing, []⟩
        [sampleIssue, sampleVerify] ∧
      samplePlatform.verify {} sampleRing sampleToken 87400999 87400999 =
        some sampleUser.verified := by
  have hnamed : sampleRing.Named := ⟨by decide, by simp [sampleRing]⟩
  have hrun := verify_exact samplePlatform {} sampleRing hnamed [sampleIssue, sampleVerify] (by
    refine ⟨⟨rfl, ?_, by simp⟩, ?_, trivial⟩
    · have hne : samplePayloadText ≠ sampleHeaderText := by decide
      show samplePlatform.parse samplePayloadText = some (tokenPayload {} sampleUser 1000)
      simp only [samplePlatform, if_neg hne, if_pos]
    · rw [sample_issue]
      intro header payload signature hparts k hk _
      refine ⟨_, List.mem_singleton_self _, ?_, signature, hparts⟩
      rcases hk with hactive | ⟨p, hp, -⟩
      · exact congrArg LoadedKey.key hactive
      · exact nomatch hp)
  refine ⟨hrun, ?_⟩
  have hverify := hrun.2.1
  rw [sample_issue] at hverify
  exact (hverify.1 _ (List.mem_singleton_self _) rfl).1 ⟨by decide, .inl rfl⟩

end VegaRevenue.Identity

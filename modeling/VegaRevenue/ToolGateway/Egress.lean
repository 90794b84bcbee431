import Mathlib.Data.Bool.AllAny
import VegaRevenue.Lib.WebHost
import VegaRevenue.ToolGateway.HttpToolProvider

/-!
# Where the HTTP provider may send

The policy allows destinations by scheme and host, and none in a private network. The provider
recognises private addresses in the text of the host, which for an IPv6 address has brackets.

* `isPrivateIp_ipv4` — IPv4 addresses are told apart exactly
* `isPrivateIp_domain` — domains that begin like an address are taken for one
* `isPrivateIp_ipv6` — no IPv6 address is recognised
* `sends_iff_permitted_iff` — when the provider sends exactly where the policy permits it
-/

namespace VegaRevenue.ToolGateway.HttpToolProvider

open WebHost

/-! ## What the policy permits -/

/-- What the URL standard makes of a text. -/
structure WebUrl where
  scheme : String
  host : Host
  schemeChars : ∀ c ∈ scheme.toList, Plain c ∧ c ≠ ':'

def WebUrl.parsed (url : WebUrl) : ParsedUrl := ⟨url.scheme ++ ":", url.host.text⟩

/-- 127/8, 10/8, 172.16/12, 192.168/16, 169.254/16 and 0.0.0.0. -/
def privateBlocks4 : List Block :=
  [⟨127 * 2 ^ 24, 8⟩, ⟨10 * 2 ^ 24, 8⟩, ⟨172 * 2 ^ 24 + 16 * 2 ^ 16, 12⟩,
    ⟨192 * 2 ^ 24 + 168 * 2 ^ 16, 16⟩, ⟨169 * 2 ^ 24 + 254 * 2 ^ 16, 16⟩, ⟨0, 32⟩]

/-- ::1, fc00::/7 and fe80::/10. -/
def privateBlocks6 : List Block :=
  [⟨1, 128⟩, ⟨0xfc00 * 2 ^ 112, 7⟩, ⟨0xfe80 * 2 ^ 112, 10⟩]

def PrivateAddress (host : Host) : Prop := host.InBlocks privateBlocks4 privateBlocks6

/-- An entry of the allowlist allows the host: it is the host, or `*.` before a domain that the
host is or is under. -/
def Matches (u : Casing) (host entry : String) : Prop :=
  u.toLowerCase entry = host ∨
    ∃ suffix, u.toLowerCase entry = "*." ++ suffix ∧
      (host = suffix ∨ ∃ sub, host = sub ++ "." ++ suffix)

/-- The scheme and the host are allowed. -/
structure Listed (o : Options) (url : WebUrl) : Prop where
  scheme : url.scheme ∈ o.policy.allowedSchemes
  host : ∃ entry ∈ o.policy.allowedHosts, Matches o.casing url.host.text entry

/-- What the policy permits without private networks. -/
structure Permitted (o : Options) (url : WebUrl) : Prop where
  listed : Listed o url
  notNamed : url.host.text ∉ privateHostnames
  notPrivate : ¬ PrivateAddress url.host

/-! ## Private addresses by their text -/

theorem isPrefixOf_of_head_ne {c d : Char} (h : d ≠ c) (ps cs : List Char) :
    (d :: ps).isPrefixOf (c :: cs) = false := by
  simp [List.isPrefixOf, h]

theorem toLower_of_plain {c : Char} (h : Plain c) : c.toLower = c := by
  have hupper : ¬ (c.val ≥ 'A'.val ∧ c.val ≤ 'Z'.val) := of_decide_eq_false h.2
  unfold Char.toLower
  rw [dif_neg hupper]

theorem map_toLower_of_plain {cs : List Char} (h : ∀ c ∈ cs, Plain c) :
    cs.map Char.toLower = cs := by
  calc cs.map Char.toLower = cs.map id := List.map_congr_left fun c hc => toLower_of_plain (h c hc)
    _ = cs := List.map_id cs

/-- `isPrivateIp` for a text in lower case. -/
theorem isPrivateIp_ofList {cs : List Char} (h : ∀ c ∈ cs, Plain c) :
    isPrivateIp (String.ofList cs) =
      ("127.".toList.isPrefixOf cs || cs = "::1".toList || "10.".toList.isPrefixOf cs ||
        "192.168.".toList.isPrefixOf cs || private172 (String.ofList cs) ||
        "169.254.".toList.isPrefixOf cs || "fe80:".toList.isPrefixOf cs ||
        "fc".toList.isPrefixOf cs || "fd".toList.isPrefixOf cs || cs = "0.0.0.0".toList ||
        cs = "0".toList) := by
  have heq (s : String) : (String.ofList cs = s) = (cs = s.toList) := by
    rw [← String.toList_inj, String.toList_ofList]
  unfold isPrivateIp startsWith
  simp only [String.toList_ofList, map_toLower_of_plain h, heq]

/-- The second octet of `172.16.0.0/12`, by the two characters after `172.`. -/
theorem second_octet {n : Nat} (hn : n < 256) (ds : List Char) :
    private172 (String.ofList ('1' :: '7' :: '2' :: '.' :: (Nat.toDigits 10 n ++ '.' :: ds))) =
      decide (16 ≤ n ∧ n < 32) := by
  unfold private172
  rw [String.toList_ofList]
  rcases Nat.lt_or_ge n 10 with h1 | h1
  · -- one digit: the dot behind it is none of the digits that the pattern wants
    rw [Nat.toDigits_of_lt_base h1]
    cases ds with
    | nil => simp; omega
    | cons c ds =>
      by_cases hc : c = '.'
      · subst hc
        simp
        omega
      · simp [hc]
        omega
  · rcases Nat.lt_or_ge n 100 with h2 | h2
    · have hall : ∀ k < 90, (fun a b : Char =>
          a = '1' && '6' ≤ b && b ≤ '9' || a = '2' && b.isDigit || a = '3' && (b = '0' || b = '1'))
          ((k + 10) / 10).digitChar ((k + 10) % 10).digitChar =
            decide (16 ≤ k + 10 ∧ k + 10 < 32) := by decide
      have hk := hall (n - 10) (by omega)
      rw [Nat.sub_add_cancel h1] at hk
      rw [Nat.toDigits_of_base_le (by decide) h1, Nat.toDigits_of_lt_base (by omega)]
      exact hk
    · -- three digits: no dot follows the second
      rw [Nat.toDigits_of_base_le (by decide) h1, Nat.toDigits_of_base_le (by decide) (by omega),
        Nat.toDigits_of_lt_base (by omega)]
      have hne : ∀ k < 10, Nat.digitChar k ≠ '.' := by decide
      have hlast := hne (n % 10) (by omega)
      simp [hlast]
      omega

theorem private172_ipv4 (h : Ipv4) :
    private172 (String.ofList h.chars) = decide (h.a = 172 ∧ 16 ≤ h.b.val ∧ h.b.val < 32) := by
  have h172 : Nat.toDigits 10 172 = ['1', '7', '2'] := by decide
  by_cases ha : h.a = 172
  · have hchars : h.chars = '1' :: '7' :: '2' :: '.' :: (Nat.toDigits 10 h.b ++ '.' ::
        (Nat.toDigits 10 h.c ++ '.' :: Nat.toDigits 10 h.d)) := by
      unfold Ipv4.chars
      rw [ha]
      rfl
    rw [hchars, second_octet h.b.isLt]
    simp [ha]
  · have hstart : ¬ (['1', '7', '2', '.'] <+: h.chars) := by
      have hoctet := Ipv4.isPrefixOf_octet 172 h.a [] (Nat.toDigits 10 h.b ++ '.' ::
        (Nat.toDigits 10 h.c ++ '.' :: Nat.toDigits 10 h.d))
      rw [← List.isPrefixOf_iff_prefix]
      intro hstart
      have hvalue : 172 = h.a.val := by
        simpa using hoctet.symm.trans hstart
      exact ha (Fin.ext hvalue.symm)
    have hfalse : private172 (String.ofList h.chars) = false := by
      unfold private172
      rw [String.toList_ofList]
      split
      next cs hcs =>
        rw [hcs] at hstart
        exact absurd (List.prefix_append ['1', '7', '2', '.'] _) hstart
      next => rfl
    rw [hfalse]
    simp [ha]

/-- **IPv4 addresses are told apart exactly.** -/
theorem isPrivateIp_ipv4 (h : Ipv4) :
    isPrivateIp (Host.ipv4 h).text = true ↔ PrivateAddress (.ipv4 h) := by
  obtain ⟨c, cs, hchars, hdigit⟩ := h.chars_eq_cons
  have hnot (d : Char) (hd : d.isDigit = false) : d ≠ c := by
    rintro rfl
    rw [hd] at hdigit
    cases hdigit
  have hone (n : Nat) : (Nat.toDigits 10 n ++ ['.']).isPrefixOf h.chars = decide (n = h.a) := by
    unfold Ipv4.chars
    rw [Ipv4.isPrefixOf_octet]
    simp
  have htwo (m n : Nat) : (Nat.toDigits 10 m ++ '.' :: (Nat.toDigits 10 n ++ ['.'])).isPrefixOf
      h.chars = decide (m = h.a ∧ n = h.b) := by
    unfold Ipv4.chars
    rw [Ipv4.isPrefixOf_octet, Ipv4.isPrefixOf_octet]
    simp
  have hloopback : h.chars ≠ "::1".toList := by
    rw [hchars]
    exact fun heq => hnot ':' (by decide) (List.cons.inj heq).1.symm
  have hletter (s : String) (hs : s.toList.head? = some 'f') :
      s.toList.isPrefixOf h.chars = false := by
    obtain ⟨ps, hps⟩ := List.head?_eq_some_iff.mp hs
    rw [hps, hchars]
    exact isPrefixOf_of_head_ne (hnot 'f' (by decide)) ps cs
  have hzeros : (h.chars = "0.0.0.0".toList) = (h = ⟨0, 0, 0, 0⟩) := by
    rw [← Ipv4.chars_inj]
    rfl
  have hzero : h.chars ≠ "0".toList := by
    intro heq
    have hdot : '.' ∈ h.chars := by simp [Ipv4.chars]
    rw [heq] at hdot
    exact absurd hdot (by decide)
  have h127 : "127.".toList.isPrefixOf h.chars = decide (127 = h.a.val) := hone 127
  have h10 : "10.".toList.isPrefixOf h.chars = decide (10 = h.a.val) := hone 10
  have h192 : "192.168.".toList.isPrefixOf h.chars = decide (192 = h.a.val ∧ 168 = h.b.val) :=
    htwo 192 168
  have h169 : "169.254.".toList.isPrefixOf h.chars = decide (169 = h.a.val ∧ 254 = h.b.val) :=
    htwo 169 254
  rw [Host.text, isPrivateIp_ofList (Host.plain_ipv4 h), private172_ipv4 h, h127, h10, h192, h169,
    hletter "fe80:" rfl, hletter "fc" rfl, hletter "fd" rfl, decide_eq_false hloopback, decide_eq_false hzero]
  obtain ⟨a, b, c, d⟩ := h
  simp only [hzeros, Ipv4.mk.injEq, Fin.ext_iff, Bool.or_eq_true, decide_eq_true_eq,
    Bool.or_false, PrivateAddress, Host.InBlocks, privateBlocks4, Block.Contains, Ipv4.value,
    List.mem_cons, List.not_mem_nil, or_false, exists_eq_or_imp, exists_eq_left]
  omega

/-- **No IPv6 address is recognised**: its text begins with a bracket. -/
theorem isPrivateIp_ipv6 (h : Ipv6) : isPrivateIp (Host.ipv6 h).text = false := by
  have hplain := Host.plain_text (.ipv6 h)
  rw [Host.text, String.toList_ofList] at hplain
  rw [Host.text, isPrivateIp_ofList hplain]
  simp [List.isPrefixOf, private172]

/-- A domain that begins like an IPv4 address of a private network, or with `fc` or `fd`. -/
def addressLike (host : String) : Bool :=
  startsWith host "127." || startsWith host "10." || startsWith host "192.168." ||
    private172 host || startsWith host "169.254." || startsWith host "fc" || startsWith host "fd"

/-- **Domains that begin like an address are taken for one.** -/
theorem isPrivateIp_domain (d : Domain) : isPrivateIp d.text = addressLike d.text := by
  have hplain := Host.plain_text (.domain d)
  rw [Host.text] at hplain
  have hcolon : ':' ∉ d.text.toList := fun h => absurd (d.chars ':' h) (by decide)
  have hloopback : d.text.toList ≠ "::1".toList := by
    intro heq
    rw [heq] at hcolon
    exact hcolon (by decide)
  have hlink : "fe80:".toList.isPrefixOf d.text.toList = false := by
    rw [Bool.eq_false_iff, ne_eq, List.isPrefixOf_iff_prefix]
    exact fun hstart => hcolon (hstart.subset (by decide))
  have hzeros : d.text.toList ≠ "0.0.0.0".toList := by
    intro heq
    have hnumber := d.notNumber
    rw [heq] at hnumber
    exact absurd hnumber (by decide)
  have hzero : d.text.toList ≠ "0".toList := by
    intro heq
    have hnumber := d.notNumber
    rw [heq] at hnumber
    exact absurd hnumber (by decide)
  have hread := isPrivateIp_ofList hplain
  rw [String.ofList_toList, decide_eq_false hloopback, hlink, decide_eq_false hzeros,
    decide_eq_false hzero] at hread
  rw [hread]
  simp only [addressLike, startsWith, Bool.or_false]

/-! ## The allowlist -/

variable {u : Casing}

/-- `toLowerCase` keeps what is ASCII and no capital. -/
def KeepsPlain (u : Casing) : Prop := ∀ c, Plain c → u.lower c = [c]

theorem toLowerCase_of_plain (hu : KeepsPlain u) {s : String} (h : ∀ c ∈ s.toList, Plain c) :
    u.toLowerCase s = s := by
  unfold Casing.toLowerCase
  rw [Casing.lowerFrom_of_lower s.toList [] fun c hc => hu c (h c hc), String.ofList_toList]

theorem startsWith_iff {s start : String} : startsWith s start = true ↔ ∃ t, s = start ++ t := by
  unfold startsWith
  rw [List.isPrefixOf_iff_prefix]
  constructor
  · rintro ⟨t, ht⟩
    refine ⟨String.ofList t, String.toList_inj.mp ?_⟩
    rw [String.toList_append, String.toList_ofList, ht]
  · rintro ⟨t, rfl⟩
    exact ⟨t.toList, (String.toList_append ..).symm⟩

theorem under_iff {host suffix : String} :
    '.' :: suffix.toList <:+ host.toList ↔ ∃ sub, host = sub ++ "." ++ suffix := by
  constructor
  · rintro ⟨sub, hsub⟩
    refine ⟨String.ofList sub, String.toList_inj.mp ?_⟩
    rw [← hsub]
    simp
  · rintro ⟨sub, rfl⟩
    exact ⟨sub.toList, by simp⟩

/-- **The allowlist is read as it is meant.** -/
theorem hostAllowed_iff {host : String} (hlower : u.toLowerCase host = host)
    (allowed : List String) :
    hostAllowed u host allowed = true ↔ ∃ entry ∈ allowed, Matches u host entry := by
  unfold hostAllowed
  rw [List.any_eq_true, hlower]
  refine exists_congr fun entry => and_congr_right fun _ => ?_
  dsimp only
  by_cases hstar : startsWith (u.toLowerCase entry) "*." = true
  · obtain ⟨suffix, hsuffix⟩ := startsWith_iff.mp hstar
    rw [if_pos hstar, Matches, hsuffix]
    have hdrop : ("*." ++ suffix).toList.drop 2 = suffix.toList := by
      rw [String.toList_append]
      rfl
    have htail : ("*." ++ suffix).toList.drop 1 = '.' :: suffix.toList := by
      rw [String.toList_append]
      rfl
    rw [hdrop, htail, String.ofList_toList, Bool.or_eq_true, decide_eq_true_eq,
      List.isSuffixOf_iff_suffix, under_iff]
    constructor
    · exact fun h => .inr ⟨suffix, rfl, h⟩
    · rintro (rfl | ⟨other, hother, h⟩)
      · exact .inr ⟨"*", String.toList_inj.mp (by simp)⟩
      · have heq : suffix = other := by
          have hlist := congrArg String.toList hother
          rw [String.toList_append, String.toList_append] at hlist
          exact String.toList_inj.mp (List.append_cancel_left hlist)
        rw [heq]
        exact h
  · rw [if_neg hstar, decide_eq_true_eq, Matches]
    constructor
    · exact fun h => .inl h.symm
    · rintro (h | ⟨suffix, hsuffix, -⟩)
      · exact h.symm
      · exact absurd (startsWith_iff.mpr ⟨suffix, hsuffix⟩) hstar

/-! ## Requests -/

variable (o : Options)

/-- The provider sends the request. -/
def Sends (route : String) (meets : Meets) : Prop :=
  ∃ answer, execute o (some route) meets = .answered answer ∧ answer.submitted = true

/-- The route has a name that is read as one, and its secret, if it has one, is read. -/
def Usable (route : String) (r : Route) (meets : Meets) : Prop :=
  route ≠ "" ∧ ((blank r.secretRef || !o.secrets) = true ∨ meets.secret.toBool = true)

variable {o}

theorem resolveDestination_eq_ok {route : String} {r r' : Route}
    (hr : o.policy.routes.lookup route = some r) :
    resolveDestination o (some route) = .ok r' ↔
      route ≠ "" ∧ validateUrl o r.baseUrl = .ok () ∧ r = r' := by
  have hblank : blank (some route) = true ↔ route = "" := by simp [blank]
  unfold resolveDestination
  rw [Option.getD_some, hr]
  by_cases hroute : route = ""
  · rw [if_pos (hblank.mpr hroute)]
    simp [hroute]
  · rw [if_neg fun h => hroute (hblank.mp h)]
    dsimp only
    cases validateUrl o r.baseUrl <;> simp [hroute, Except.map]

theorem sends_iff {route : String} {r : Route} {meets : Meets}
    (hr : o.policy.routes.lookup route = some r) :
    Sends o route meets ↔ Usable o route r meets ∧ validateUrl o r.baseUrl = .ok () := by
  constructor
  · rintro ⟨answer, hanswer, hsubmitted⟩
    unfold execute at hanswer
    split at hanswer
    next =>
      cases hanswer
      cases hsubmitted
    next r' hdest =>
      obtain ⟨hroute, hvalid, rfl⟩ := (resolveDestination_eq_ok hr).mp hdest
      split at hanswer
      · cases hanswer
      next secret hsecret =>
        refine ⟨⟨hroute, ?_⟩, hvalid⟩
        by_cases hnone : (blank r.secretRef || !o.secrets) = true
        · exact .inl hnone
        · rw [if_neg hnone] at hsecret
          rw [hsecret]
          exact .inr rfl
  · rintro ⟨⟨hroute, hsecret⟩, hvalid⟩
    have hread : ∃ secret, (if blank r.secretRef || !o.secrets then .ok "" else meets.secret) =
        Except.ok secret := by
      by_cases hnone : (blank r.secretRef || !o.secrets) = true
      · exact ⟨"", if_pos hnone⟩
      · rw [if_neg hnone]
        have hok := hsecret.resolve_left hnone
        cases hs : meets.secret with
        | error message => simp [hs, Except.toBool] at hok
        | ok secret => exact ⟨secret, rfl⟩
    obtain ⟨secret, hread⟩ := hread
    unfold Sends execute
    rw [(resolveDestination_eq_ok hr).mpr ⟨hroute, hvalid, rfl⟩]
    dsimp only
    rw [hread]
    exact ⟨_, rfl, rfl⟩

/-- `validateUrl` of what the URL standard reads. -/
theorem validateUrl_eq_ok {raw : String} {url : WebUrl} (hu : KeepsPlain o.casing)
    (hprivate : o.policy.allowPrivateNetwork = false)
    (hurl : o.parseUrl raw = some url.parsed) :
    validateUrl o raw = .ok () ↔
      Listed o url ∧ url.host.text ∉ privateHostnames ∧ isPrivateIp url.host.text = false := by
  have hscheme : String.ofList ((url.scheme ++ ":").toList.erase ':') = url.scheme := by
    have hnone : ':' ∉ url.scheme.toList := fun h => (url.schemeChars ':' h).2 rfl
    rw [String.toList_append, List.erase_append_right _ hnone]
    simp
  have hlowerScheme := toLowerCase_of_plain hu fun c hc => (url.schemeChars c hc).1
  have hlower := toLowerCase_of_plain hu url.host.plain_text
  unfold validateUrl
  rw [hurl]
  simp only [WebUrl.parsed, hscheme, hlowerScheme, hlower, hprivate]
  constructor
  · intro h
    split at h
    · cases h
    next hlisted =>
      split at h
      · cases h
      next hnamed =>
        split at h
        · cases h
        next hhost =>
          simp only [Bool.not_eq_true', Bool.not_eq_false] at hlisted hhost
          simp only [Bool.not_false, Bool.true_and, Bool.not_eq_true, Bool.or_eq_false_iff] at hnamed
          refine ⟨⟨by simpa using hlisted, (hostAllowed_iff hlower _).mp hhost⟩, ?_, hnamed.2⟩
          simpa using hnamed.1
  · rintro ⟨⟨hlisted, hhost⟩, hnamed, hip⟩
    have hhost' := (hostAllowed_iff hlower _).mpr hhost
    simp [hlisted, hnamed, hip, hhost']

/-! ## Exactness -/

/-- The code takes the host, a domain, for a private address. -/
def Misread (host : Host) : Prop := ∃ d, host = .domain d ∧ addressLike d.text = true

/-- A private IPv6 address. -/
def Private6 (host : Host) : Prop := ∃ h, host = .ipv6 h ∧ PrivateAddress host

theorem bracket_notMem (h : Ipv6) : (Host.ipv6 h).text ∉ privateHostnames := by
  unfold privateHostnames
  simp only [List.mem_cons, List.not_mem_nil, or_false, Host.text, ← String.toList_inj,
    String.toList_ofList]
  simp

theorem Private6.facts {host : Host} (h : Private6 host) :
    host.text ∉ privateHostnames ∧ PrivateAddress host ∧ ¬ Misread host := by
  obtain ⟨h, rfl, haddress⟩ := h
  refine ⟨bracket_notMem h, haddress, ?_⟩
  rintro ⟨d, hd, -⟩
  cases hd

/-- What the code refuses as private beside what is private. -/
theorem refusesPrivate_iff (host : Host) :
    isPrivateIp host.text = true ↔ PrivateAddress host ∧ ¬ Private6 host ∨ Misread host := by
  cases host with
  | domain d =>
    rw [Host.text, isPrivateIp_domain]
    simp [Misread, Private6, PrivateAddress, Host.InBlocks]
  | ipv4 h =>
    rw [isPrivateIp_ipv4]
    simp [Misread, Private6]
  | ipv6 h =>
    rw [isPrivateIp_ipv6]
    simp [Misread, Private6]

/-- **When the provider sends exactly where the policy permits it**: what is permitted has a usable
route and is no domain that begins like an address, and no private IPv6 address is allowed by scheme
and host on a usable route. -/
theorem sends_iff_permitted_iff {whatwg : String → Option WebUrl} {route : String} {r : Route}
    (meets : Meets) (hcasing : KeepsPlain o.casing)
    (hprivate : o.policy.allowPrivateNetwork = false)
    (hurl : ∀ raw, o.parseUrl raw = (whatwg raw).map WebUrl.parsed)
    (hr : o.policy.routes.lookup route = some r) :
    (Sends o route meets ↔ ∃ url, whatwg r.baseUrl = some url ∧ Permitted o url) ↔
      ∀ url, whatwg r.baseUrl = some url →
        (Permitted o url → Usable o route r meets ∧ ¬ Misread url.host) ∧
          (Private6 url.host → Listed o url → ¬ Usable o route r meets) := by
  rw [sends_iff hr]
  cases hparse : whatwg r.baseUrl with
  | none =>
    have hinvalid : validateUrl o r.baseUrl ≠ .ok () := by
      unfold validateUrl
      rw [hurl, hparse]
      nofun
    simp [hinvalid]
  | some url =>
    have hparsed : o.parseUrl r.baseUrl = some url.parsed := by rw [hurl, hparse, Option.map_some]
    have hpermitted : Permitted o url ↔
        Listed o url ∧ url.host.text ∉ privateHostnames ∧ ¬ PrivateAddress url.host :=
      ⟨fun h => ⟨h.listed, h.notNamed, h.notPrivate⟩, fun h => ⟨h.1, h.2.1, h.2.2⟩⟩
    rw [validateUrl_eq_ok hcasing hprivate hparsed, Bool.eq_false_iff, ne_eq,
      refusesPrivate_iff]
    simp only [Option.some.injEq, exists_eq_left', forall_eq', hpermitted]
    by_cases hsix : Private6 url.host
    · -- neither named nor misread: it is sent wherever scheme, host and route allow it
      obtain ⟨hnamed, haddress, hmisread⟩ := hsix.facts
      simp only [hsix, haddress, hnamed, hmisread, not_true_eq_false, not_false_eq_true, and_false,
        and_true, or_self, false_implies, true_implies, true_and, iff_false, not_and]
      exact forall_comm
    · by_cases haddress : PrivateAddress url.host
      · simp [hsix, haddress]
      · simp only [hsix, haddress, not_false_eq_true, and_true, false_or, false_implies]
        tauto

/-! ## Three routes -/

def sampleDomain (text : String) (hchars : ∀ c ∈ text.toList, domainChar c = true)
    (hnumber : endsInNumber text.toList = false) : WebUrl where
  scheme := "https"
  host := .domain ⟨text, hchars, hnumber⟩
  schemeChars := by
    unfold Plain
    exact List.all_iff_forall_prop.mp (by decide +kernel)

def sampleWhatwg (raw : String) : Option WebUrl :=
  if raw = "https://[::1]/" then
    some { sampleDomain "a" (List.all_iff_forall_prop.mp (by decide +kernel)) (by decide +kernel) with
      host := .ipv6 .loopback }
  else if raw = "https://fcbarcelona.com/" then
    some (sampleDomain "fcbarcelona.com" (List.all_iff_forall_prop.mp (by decide +kernel))
      (by decide +kernel))
  else if raw = "https://api.tools.com/" then
    some (sampleDomain "api.tools.com" (List.all_iff_forall_prop.mp (by decide +kernel))
      (by decide +kernel))
  else none

def sampleOptions : Options where
  policy :=
    { allowedHosts := ["[::1]", "fcbarcelona.com", "*.Tools.com"], allowedSchemes := ["https"]
      allowPrivateNetwork := false, allowRedirects := false
      routes := [("self", ⟨"https://[::1]/", none⟩), ("club", ⟨"https://fcbarcelona.com/", none⟩),
        ("tools", ⟨"https://api.tools.com/", none⟩)] }
  secrets := false
  parseUrl := fun raw => (sampleWhatwg raw).map WebUrl.parsed
  casing := asciiCasing

def sampleMeets : Meets := ⟨.ok "", .failed⟩

/-- The provider posts to the loopback address, and refuses a public host of the allowlist. -/
theorem loopback_sent_and_public_refused :
    (Sends sampleOptions "self" sampleMeets ∧
      ¬ ∃ url, sampleWhatwg "https://[::1]/" = some url ∧ Permitted sampleOptions url) ∧
    ¬ Sends sampleOptions "club" sampleMeets ∧
      ∃ url, sampleWhatwg "https://fcbarcelona.com/" = some url ∧ Permitted sampleOptions url := by
  refine ⟨⟨?_, ?_⟩, ?_, ?_⟩
  · rw [sends_iff (r := ⟨"https://[::1]/", none⟩) rfl]
    exact ⟨⟨by decide, .inl (by decide)⟩, eq_ok_of_toOption (by decide +kernel)⟩
  · rintro ⟨url, hurl, hpermitted⟩
    obtain rfl := Option.some.inj hurl
    refine hpermitted.notPrivate ⟨⟨1, 128⟩, List.mem_cons_self, ?_⟩
    decide
  · rw [sends_iff (r := ⟨"https://fcbarcelona.com/", none⟩) rfl]
    rintro ⟨-, hvalid⟩
    have hrefused : (validateUrl sampleOptions "https://fcbarcelona.com/").toBool = false := by
      decide +kernel
    rw [hvalid] at hrefused
    cases hrefused
  · refine ⟨_, rfl, ⟨by decide, "fcbarcelona.com", by decide, .inl (by decide +kernel)⟩, by decide,
      ?_⟩
    exact not_false

theorem keepsPlain_asciiCasing : KeepsPlain asciiCasing := by
  rintro c ⟨hascii, hupper⟩
  have hletter : ¬ (0x41 ≤ c.toNat ∧ c.toNat ≤ 0x5A) := of_decide_eq_false hupper
  have hsigma : c ≠ 'Σ' := by
    rintro rfl
    exact absurd hascii (by decide)
  simp [asciiCasing, asciiLower, hletter, hsigma]

theorem public_host_reached :
    Sends sampleOptions "tools" sampleMeets ↔
      ∃ url, sampleWhatwg "https://api.tools.com/" = some url ∧ Permitted sampleOptions url := by
  refine (sends_iff_permitted_iff (r := ⟨"https://api.tools.com/", none⟩) sampleMeets
    keepsPlain_asciiCasing rfl (fun _ => rfl) rfl).mpr ?_
  intro url hurl
  obtain rfl := Option.some.inj hurl
  refine ⟨fun _ => ⟨⟨by decide, .inl (by decide)⟩, ?_⟩, ?_⟩
  · rintro ⟨d, hd, hlike⟩
    cases hd
    exact absurd hlike (by decide)
  · rintro ⟨h, hh, -⟩
    cases hh

end VegaRevenue.ToolGateway.HttpToolProvider

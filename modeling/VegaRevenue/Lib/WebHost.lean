import Mathlib.Algebra.GroupWithZero.Nat
import Mathlib.Data.List.Basic

/-!
# The hosts of URLs

A parser of the URL standard returns a domain, an IPv4 address or an IPv6 address. Its text is the
domain in lower case, the address in dotted decimal, or the compressed address in brackets.

* `isPrefixOf_dotted` — a dotted start of a dotted text starts with the same label
* `Ipv4.isPrefixOf_octet` — the first octet can be read off the start of the text
-/

namespace VegaRevenue.WebHost

/-! ## Domains -/

/-- A character of a domain: ASCII, no capital, and none that the standard forbids. -/
def domainChar (c : Char) : Bool :=
  0x20 < c.toNat && c.toNat < 0x7f && !c.isUpper &&
    !(['#', '%', '/', ':', '<', '>', '?', '@', '[', '\\', ']', '^', '|'].contains c)

/-- What the standard reads as a number, decimal or hexadecimal. -/
def isNumber (label : List Char) : Bool :=
  (label ≠ [] && label.all Char.isDigit) ||
    (label.take 2 = ['0', 'x'] && (label.drop 2).all fun c => c.isDigit || 'a' ≤ c && c ≤ 'f')

/-- The last label is a number, an empty one behind the last dot aside. -/
def endsInNumber (cs : List Char) : Bool :=
  let labels := cs.splitOn '.'
  (if labels.getLast? = some [] then labels.dropLast else labels).getLast?.any isNumber

/-- A domain as the parser returns it; a text that ends in a number is an address or an error. -/
structure Domain where
  text : String
  chars : ∀ c ∈ text.toList, domainChar c = true
  notNumber : endsInNumber text.toList = false

/-! ## Addresses -/

structure Ipv4 where
  a : Fin 256
  b : Fin 256
  c : Fin 256
  d : Fin 256
deriving DecidableEq

namespace Ipv4

def value (h : Ipv4) : Nat := ((h.a * 256 + h.b) * 256 + h.c) * 256 + h.d

/-- The address in dotted decimal. -/
def chars (h : Ipv4) : List Char :=
  Nat.toDigits 10 h.a ++ '.' :: (Nat.toDigits 10 h.b ++ '.' ::
    (Nat.toDigits 10 h.c ++ '.' :: Nat.toDigits 10 h.d))

end Ipv4

structure Ipv6 where
  pieces : List (Fin 65536)
  length_pieces : pieces.length = 8

namespace Ipv6

/-- `::1`. -/
def loopback : Ipv6 := ⟨[0, 0, 0, 0, 0, 0, 0, 1], rfl⟩

def value (h : Ipv6) : Nat := h.pieces.foldl (fun n p => n * 65536 + p.val) 0

/-- How many pieces from `i` on are zero. -/
def zeroRun (ps : List (Fin 65536)) (i : Nat) : Nat :=
  ((ps.drop i).takeWhile fun p => p = 0).length

/-- Where the first longest run of zeros starts, if it has more than one. -/
def compressAt (ps : List (Fin 65536)) : Option Nat :=
  (List.range ps.length).find? fun i =>
    1 < zeroRun ps i && (List.range ps.length).all fun j => zeroRun ps j ≤ zeroRun ps i

/-- The pieces in hexadecimal, with colons between. -/
def joined : List (Fin 65536) → List Char
  | [] => []
  | [p] => Nat.toDigits 16 p
  | p :: q :: ps => Nat.toDigits 16 p ++ ':' :: joined (q :: ps)

/-- The compressed address. -/
def chars (h : Ipv6) : List Char :=
  match compressAt h.pieces with
  | none => joined h.pieces
  | some i =>
    joined (h.pieces.take i) ++ ':' :: ':' :: joined (h.pieces.drop (i + zeroRun h.pieces i))

end Ipv6

/-! ## Blocks of addresses -/

/-- The addresses of `width` bits that share their first `length` bits with `base`. -/
structure Block where
  base : Nat
  length : Nat

def Block.Contains (width : Nat) (b : Block) (value : Nat) : Prop :=
  value / 2 ^ (width - b.length) = b.base / 2 ^ (width - b.length)

instance (width : Nat) (b : Block) (value : Nat) : Decidable (b.Contains width value) :=
  inferInstanceAs (Decidable (_ = _))

/-! ## Hosts -/

inductive Host where
  | domain (d : Domain)
  | ipv4 (h : Ipv4)
  | ipv6 (h : Ipv6)

namespace Host

/-- `url.hostname`. -/
def text : Host → String
  | domain d => d.text
  | ipv4 h => String.ofList h.chars
  | ipv6 h => String.ofList ('[' :: (h.chars ++ [']']))

/-- The address is in a block of its kind. -/
def InBlocks (blocks4 blocks6 : List Block) : Host → Prop
  | domain _ => False
  | ipv4 h => ∃ b ∈ blocks4, b.Contains 32 h.value
  | ipv6 h => ∃ b ∈ blocks6, b.Contains 128 h.value

end Host

example : Ipv6.chars ⟨[0x2001, 0xdb8, 0, 0, 1, 0, 0, 0], rfl⟩ = "2001:db8:0:0:1::".toList := by
  decide

/-! ## Dotted texts -/

theorem isPrefixOf_dotted {p d : List Char} (hp : '.' ∉ p) (hd : '.' ∉ d) (ps ds : List Char) :
    (p ++ '.' :: ps).isPrefixOf (d ++ '.' :: ds) = (p = d && ps.isPrefixOf ds) := by
  induction p generalizing d with
  | nil =>
    cases d with
    | nil => simp
    | cons c d =>
      have hc : '.' ≠ c := fun h => hd (h ▸ List.mem_cons_self)
      simp [List.isPrefixOf, hc]
  | cons e p ih =>
    have he : e ≠ '.' := fun h => hp (h ▸ List.mem_cons_self)
    cases d with
    | nil => simp [List.isPrefixOf, he]
    | cons c d =>
      have htail := ih (d := d) (fun h => hp (List.mem_cons_of_mem e h))
        fun h => hd (List.mem_cons_of_mem c h)
      rw [List.cons_append, List.cons_append, List.isPrefixOf_cons_cons, htail]
      by_cases hec : e = c <;> simp [hec]

theorem append_dot_inj {p d : List Char} (hp : '.' ∉ p) (hd : '.' ∉ d) {ps ds : List Char} :
    p ++ '.' :: ps = d ++ '.' :: ds ↔ p = d ∧ ps = ds := by
  constructor
  · intro h
    have hpd := isPrefixOf_dotted hp hd ps ds
    rw [h, List.isPrefixOf_iff_prefix.mpr (List.prefix_refl _), eq_comm, Bool.and_eq_true,
      decide_eq_true_eq] at hpd
    obtain ⟨rfl, -⟩ := hpd
    exact ⟨rfl, by simpa using h⟩
  · rintro ⟨rfl, rfl⟩
    rfl

theorem dot_notMem_toDigits (n : Nat) : '.' ∉ Nat.toDigits 10 n := by
  intro h
  have hdigit := Nat.isDigit_of_mem_toDigits (b := 10) (by decide) (by decide) h
  exact absurd hdigit (by decide)

theorem toDigits_inj {m n : Nat} : Nat.toDigits 10 m = Nat.toDigits 10 n ↔ m = n := by
  constructor
  · intro h
    have hread := congrArg (fun ds => Nat.ofDigitChars 10 ds 0) h
    simpa using hread
  · rintro rfl
    rfl

namespace Ipv4

/-- The start of a text in dotted decimal tells the number before the first dot. -/
theorem isPrefixOf_octet (m n : Nat) (ps ds : List Char) :
    (Nat.toDigits 10 m ++ '.' :: ps).isPrefixOf (Nat.toDigits 10 n ++ '.' :: ds) =
      (m = n && ps.isPrefixOf ds) := by
  rw [isPrefixOf_dotted (dot_notMem_toDigits m) (dot_notMem_toDigits n)]
  simp only [toDigits_inj]

/-- The text begins with a digit. -/
theorem chars_eq_cons (h : Ipv4) : ∃ c cs, h.chars = c :: cs ∧ c.isDigit = true := by
  unfold chars
  cases hds : Nat.toDigits 10 h.a with
  | nil => exact absurd hds Nat.toDigits_ne_nil
  | cons c cs =>
    refine ⟨c, _, rfl, Nat.isDigit_of_mem_toDigits (b := 10) (n := h.a) (by decide) (by decide) ?_⟩
    rw [hds]
    exact List.mem_cons_self

theorem chars_inj {h k : Ipv4} : h.chars = k.chars ↔ h = k := by
  constructor
  · intro heq
    unfold chars at heq
    rw [append_dot_inj (dot_notMem_toDigits _) (dot_notMem_toDigits _),
      append_dot_inj (dot_notMem_toDigits _) (dot_notMem_toDigits _),
      append_dot_inj (dot_notMem_toDigits _) (dot_notMem_toDigits _)] at heq
    simp only [toDigits_inj, Fin.val_inj] at heq
    obtain ⟨ha, hb, hc, hd⟩ := heq
    cases h
    cases k
    simp_all
  · rintro rfl
    rfl

end Ipv4

/-! ## Plain texts -/

/-- ASCII and no capital. -/
def Plain (c : Char) : Prop := c.toNat < 0x80 ∧ c.isUpper = false

theorem plain_of_isDigit {c : Char} (h : c.isDigit = true) : Plain c := by
  simp only [Char.isDigit, Bool.and_eq_true, decide_eq_true_eq] at h
  have hlow : 48 ≤ c.toNat := h.1
  have hhigh : c.toNat ≤ 57 := h.2
  refine ⟨by omega, decide_eq_false ?_⟩
  rintro ⟨hupper, -⟩
  have hletter : 65 ≤ c.toNat := hupper
  omega

theorem plain_of_mem_toDigits (n : Nat) : ∀ c ∈ Nat.toDigits 16 n, Plain c := by
  have hdigit : ∀ d < 16, Plain (Nat.digitChar d) := by
    unfold Plain
    decide
  induction n using Nat.strongRecOn with
  | _ n ih =>
    intro c hc
    by_cases hn : n < 16
    · rw [Nat.toDigits_of_lt_base hn, List.mem_singleton] at hc
      rw [hc]
      exact hdigit n hn
    · rw [Nat.toDigits_of_base_le (by decide) (by omega), List.mem_append] at hc
      rcases hc with hc | hc
      · exact ih (n / 16) (by omega) c hc
      · rw [List.mem_singleton.mp hc]
        exact hdigit (n % 16) (by omega)

namespace Host

theorem plain_ipv4 (h : Ipv4) : ∀ c ∈ h.chars, Plain c := by
  have hnumber (n : Nat) : ∀ c ∈ Nat.toDigits 10 n, Plain c := fun c hc =>
    plain_of_isDigit (Nat.isDigit_of_mem_toDigits (b := 10) (n := n) (by decide) (by decide) hc)
  have hdot : Plain '.' := by
    unfold Plain
    decide
  intro c hc
  simp only [Ipv4.chars, List.mem_append, List.mem_cons] at hc
  rcases hc with hc | rfl | hc | rfl | hc | rfl | hc
  all_goals first | exact hdot | exact hnumber _ c hc

theorem plain_joined (ps : List (Fin 65536)) : ∀ c ∈ Ipv6.joined ps, Plain c := by
  have hcolon : Plain ':' := by
    unfold Plain
    decide
  fun_induction Ipv6.joined ps with
  | case1 => exact fun _ hc => absurd hc List.not_mem_nil
  | case2 p => exact plain_of_mem_toDigits p
  | case3 p q ps ih =>
    intro c hc
    rcases List.mem_append.mp hc with hc | hc
    · exact plain_of_mem_toDigits p c hc
    · rcases List.mem_cons.mp hc with rfl | hc
      · exact hcolon
      · exact ih c hc

theorem plain_ipv6 (h : Ipv6) : ∀ c ∈ h.chars, Plain c := by
  have hcolon : Plain ':' := by
    unfold Plain
    decide
  intro c hc
  unfold Ipv6.chars at hc
  split at hc
  · exact plain_joined _ c hc
  · simp only [List.mem_append, List.mem_cons] at hc
    rcases hc with hc | rfl | rfl | hc
    all_goals first | exact hcolon | exact plain_joined _ c hc

/-- **The text of a host is plain.** -/
theorem plain_text (h : Host) : ∀ c ∈ h.text.toList, Plain c := by
  cases h with
  | domain d =>
    intro c hc
    have hchar := d.chars c hc
    simp only [domainChar, Bool.and_eq_true, decide_eq_true_eq, Bool.not_eq_true'] at hchar
    exact ⟨by omega, hchar.1.2⟩
  | ipv4 h =>
    rw [text, String.toList_ofList]
    exact plain_ipv4 h
  | ipv6 h =>
    have hbracket : Plain '[' ∧ Plain ']' := by
      unfold Plain
      decide
    rw [text, String.toList_ofList]
    intro c hc
    simp only [List.mem_cons, List.mem_append, List.not_mem_nil, or_false] at hc
    rcases hc with rfl | hc | rfl
    · exact hbracket.1
    · exact plain_ipv6 h c hc
    · exact hbracket.2

end Host

end VegaRevenue.WebHost

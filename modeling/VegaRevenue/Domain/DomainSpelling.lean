import VegaRevenue.Domain.NormalizedDomain

/-!
# The spellings of a host

A host is written with a scheme, a leading `www.`, a trailing dot, a port, a path, a query and a
fragment around it, in any letter case and between spaces.

* `lowerFrom_parts` — the lower case of a spelling, part by part
* `spelling_iff` — which spellings have the normal form of the host
-/

namespace VegaRevenue

namespace Account

open TextCuts

/-! ## Delimiters in lower case -/

def urlDelimiters : List Char := [':', '/', '?', '#', '.']

/-- The tables of Unicode, in which no delimiter is a letter. -/
structure UrlCasing extends Casing where
  lower_delimiter : ∀ d ∈ urlDelimiters, lower d = [d]
  eq_of_lower : ∀ d ∈ urlDelimiters, ∀ c, d ∈ lower c → c = d
  lower_w : lower 'w' = ['w']

variable {u : UrlCasing}

theorem delimiter_of_isDelimiter {d : Char} (h : isDelimiter d = true) : d ∈ urlDelimiters := by
  unfold isDelimiter at h
  simp only [Bool.or_eq_true, decide_eq_true_eq] at h
  rcases h with (rfl | rfl) | rfl <;> simp [urlDelimiters]

theorem lowerAt_delimiter {d : Char} (h : d ∈ urlDelimiters) (before after : List Char) :
    u.lowerAt before d after = [d] := by
  have hd := u.lower_delimiter d h
  rw [Casing.lowerAt, if_neg fun hsigma => Casing.ne_sigma_of_lower hd hsigma.1, hd]

theorem eq_of_mem_lowerAt {d : Char} (h : d ∈ urlDelimiters) {before after : List Char} {c : Char}
    (hd : d ∈ u.lowerAt before c after) : c = d := by
  unfold Casing.lowerAt at hd
  split at hd
  · obtain rfl := List.mem_singleton.mp hd
    exact absurd h (by decide)
  · exact u.eq_of_lower d h c hd

theorem mem_of_mem_lowerIn {d : Char} (h : d ∈ urlDelimiters) {cs after : List Char} :
    ∀ {before}, d ∈ u.lowerIn before cs after → d ∈ cs := by
  induction cs with
  | nil => exact fun hd => absurd hd List.not_mem_nil
  | cons c cs ih =>
    intro before hd
    rcases List.mem_append.mp hd with hd | hd
    · exact eq_of_mem_lowerAt h hd ▸ List.mem_cons_self
    · exact List.mem_cons_of_mem c (ih hd)

/-- No part of a text gets a delimiter by its lower case. -/
theorem isDelimiter_lowerIn {cs : List Char} (h : ∀ c ∈ cs, isDelimiter c = false)
    (before after : List Char) : ∀ d ∈ u.lowerIn before cs after, isDelimiter d = false := by
  intro d hd
  by_contra hdelimiter
  rw [Bool.not_eq_false] at hdelimiter
  have hmem := h d (mem_of_mem_lowerIn (delimiter_of_isDelimiter hdelimiter) hd)
  rw [hdelimiter] at hmem
  cases hmem

/-- A delimiter in front of a lower case is in front of the text. -/
theorem exists_of_lowerFrom_cons {d : Char} (h : d ∈ urlDelimiters) {before cs ds : List Char}
    (heq : u.lowerFrom before cs = d :: ds) :
    ∃ rest, cs = d :: rest ∧ u.lowerFrom (d :: before) rest = ds := by
  cases cs with
  | nil => cases heq
  | cons c rest =>
    obtain ⟨e, es, hat⟩ := List.exists_cons_of_ne_nil
      (Casing.lowerAt_ne_nil (u := u.toCasing) before c rest)
    rw [Casing.lowerFrom, hat] at heq
    obtain rfl := (List.cons.inj heq).1
    obtain rfl : c = e := eq_of_mem_lowerAt h (hat ▸ List.mem_cons_self)
    rw [lowerAt_delimiter h] at hat
    obtain rfl := (List.cons.inj hat).2
    exact ⟨rest, rfl, (List.cons.inj heq).2⟩

theorem lower_schemeEnd : ∀ d ∈ schemeEnd, u.lower d = [d] := by
  intro d hd
  have hsubset : schemeEnd ⊆ urlDelimiters := by decide
  exact u.lower_delimiter d (hsubset hd)

theorem lower_www : ∀ d ∈ www, u.lower d = [d] := by
  intro d hd
  have hcases : d = 'w' ∨ d = '.' := by
    simp only [www, List.mem_cons, List.not_mem_nil, or_false] at hd
    tauto
  rcases hcases with rfl | rfl
  · exact u.lower_w
  · exact u.lower_delimiter '.' (by decide)

/-- **The lower case of a text has a `://` where the text has one.** -/
theorem schemeEnd_infix_lowerFrom_iff (cs : List Char) :
    ∀ before, schemeEnd <:+: u.lowerFrom before cs ↔ schemeEnd <:+: cs := by
  intro before
  constructor
  · intro hocc
    induction cs generalizing before with
    | nil => exact hocc
    | cons c cs ih =>
      rw [Casing.lowerFrom] at hocc
      by_cases hcolon : c = ':'
      · subst hcolon
        rw [lowerAt_delimiter (by decide), List.singleton_append] at hocc
        rcases List.infix_cons_iff.mp hocc with hfront | hrest
        · obtain ⟨ds, hds⟩ := (List.cons_prefix_cons.mp hfront).2
          obtain ⟨rest, rfl, hrest⟩ := exists_of_lowerFrom_cons (by decide) hds.symm
          obtain ⟨rest, rfl, -⟩ := exists_of_lowerFrom_cons (by decide) hrest
          exact (List.prefix_append schemeEnd rest).isInfix
        · exact (ih _ hrest).trans (List.suffix_cons _ _).isInfix
      · have hnot : ':' ∉ u.lowerAt before c cs := fun hmem =>
          hcolon (eq_of_mem_lowerAt (by decide) hmem)
        exact (ih _ (infix_of_append_left hnot hocc)).trans (List.suffix_cons _ _).isInfix
  · rintro ⟨l, r, rfl⟩
    rw [List.append_assoc, Casing.lowerFrom_append, Casing.lowerFrom_append,
      Casing.lowerIn_of_lower _ _ _ lower_schemeEnd, ← List.append_assoc]
    exact List.infix_append _ _ _

/-! ## Spellings -/

/-- A host name, without a scheme, a port, a path or a trailing dot. -/
structure Host where
  text : List Char
  ne_nil : text ≠ []
  char : ∀ c ∈ text, jsSpace c = false ∧ isDelimiter c = false ∧ c ≠ ':'
  dot : text.getLast? ≠ some '.'

/-- A part of a URL behind its mark. -/
def part (mark : Char) : Option (List Char) → List Char
  | none => []
  | some cs => mark :: cs

def digits : List Char := ['0', '1', '2', '3', '4', '5', '6', '7', '8', '9']

/-- What is written around a host. -/
structure Parts where
  scheme : Option (List Char) := none
  label : Bool := false
  trailingDot : Bool := false
  port : Option (List Char) := none
  path : Option (List Char) := none
  query : Option (List Char) := none
  fragment : Option (List Char) := none
  scheme_char : ∀ cs ∈ scheme, ∀ c ∈ cs, jsSpace c = false ∧ c ≠ ':'
  port_char : ∀ cs ∈ port, ∀ c ∈ cs, c ∈ digits
  last : ∀ c ∈ (part '/' path ++ part '?' query ++ part '#' fragment).getLast?, jsSpace c = false

namespace Parts

variable (p : Parts)

def front : List Char := (p.scheme.map (· ++ schemeEnd)).getD []

def www : List Char := if p.label then Account.www else []

def dot : List Char := if p.trailingDot then ['.'] else []

/-- What stands behind the port. -/
def tail : List Char := part '/' p.path ++ part '?' p.query ++ part '#' p.fragment

/-- What stands behind the scheme. -/
def rest (host : List Char) : List Char :=
  p.www ++ (host ++ (p.dot ++ (part ':' p.port ++ p.tail)))

end Parts

/-- A host as it is written: parts around it, any letter case, spaces around the whole. -/
structure Spelling (u : UrlCasing) where
  host : Host
  parts : Parts
  letters : List Char
  /-- In lower case these are the letters of the host and of its parts. -/
  letterCase : u.lowerFrom [] letters = u.lowerFrom [] (parts.front ++ parts.rest host.text)
  before : List Char
  after : List Char
  space : ∀ c ∈ before ++ after, jsSpace c = true

namespace Spelling

variable (s : Spelling u)

def written : String := String.ofList (s.before ++ s.letters ++ s.after)

/-- The lower case of the host on its own. -/
def alone : List Char := u.lowerFrom [] s.host.text

/-- The lower case of the host where it stands. -/
def inPlace : List Char :=
  u.lowerIn (s.parts.www.reverse ++ s.parts.front.reverse) s.host.text
    (s.parts.dot ++ (part ':' s.parts.port ++ s.parts.tail))

end Spelling

/-! ## The lower case of a spelling -/

theorem part_eq_nil_or (mark : Char) (cs : Option (List Char)) :
    part mark cs = [] ∨ ∃ rest, part mark cs = mark :: rest := by
  cases cs with
  | none => exact .inl rfl
  | some cs => exact .inr ⟨cs, rfl⟩

theorem Host.lowerIn_named (h : Host) (before after : List Char) :
    Named (u.lowerIn before h.text after) where
  ne_nil := by
    obtain ⟨c, cs, hcs⟩ := List.exists_cons_of_ne_nil h.ne_nil
    rw [hcs, Casing.lowerIn]
    exact List.append_ne_nil_of_left_ne_nil (Casing.lowerAt_ne_nil _ _ _) _
  colon := fun hmem => (h.char ':' (mem_of_mem_lowerIn (by decide) hmem)).2.2 rfl
  dot := by
    obtain ⟨cs, c, hcs⟩ := List.eq_nil_or_concat h.text |>.resolve_left h.ne_nil
    intro hlast
    have hne := Casing.lowerAt_ne_nil (u := u.toCasing) (cs.reverse ++ before) c after
    rw [hcs, List.concat_eq_append, Casing.lowerIn_append, Casing.lowerIn, Casing.lowerIn,
      List.append_nil, List.nil_append, List.getLast?_append_of_ne_nil _ hne] at hlast
    have hc : c = '.' := eq_of_mem_lowerAt (by decide) (List.mem_of_mem_getLast? hlast)
    apply h.dot
    rw [hcs, hc, List.concat_eq_append, List.getLast?_concat]

namespace Parts

variable (p : Parts)

/-- A path, a query or a fragment starts with a delimiter. -/
theorem tail_eq_nil_or : p.tail = [] ∨ ∃ d rest, p.tail = d :: rest ∧ isDelimiter d = true := by
  unfold tail
  rcases part_eq_nil_or '/' p.path with hpath | ⟨rest, hpath⟩
  · rcases part_eq_nil_or '?' p.query with hquery | ⟨rest, hquery⟩
    · rcases part_eq_nil_or '#' p.fragment with hfragment | ⟨rest, hfragment⟩
      · exact .inl (by rw [hpath, hquery, hfragment]; rfl)
      · exact .inr ⟨'#', rest, by rw [hpath, hquery, hfragment]; rfl, rfl⟩
    · exact .inr ⟨'?', _, by rw [hpath, hquery]; rfl, rfl⟩
  · exact .inr ⟨'/', _, by rw [hpath]; rfl, rfl⟩

/-- In front of the port stands no colon. -/
theorem schemeEnd_rest (h : Host) (hocc : schemeEnd <:+: p.rest h.text) :
    schemeEnd <:+: part ':' p.port ++ p.tail := by
  have hwww : ':' ∉ p.www := by
    unfold www
    split <;> decide
  have hdot : ':' ∉ p.dot := by
    unfold dot
    split <;> decide
  have hhost : ':' ∉ h.text := fun hmem => (h.char ':' hmem).2.2 rfl
  exact infix_of_append_left hdot (infix_of_append_left hhost (infix_of_append_left hwww hocc))

theorem lowerIn_port (before after : List Char) :
    IsPort (u.lowerIn before (part ':' p.port) after) ∧
      ∀ d ∈ u.lowerIn before (part ':' p.port) after, isDelimiter d = false := by
  cases hport : p.port with
  | none => exact ⟨.inl rfl, fun _ hd => absurd hd List.not_mem_nil⟩
  | some cs =>
    have hdigit := p.port_char cs hport
    have hcolon : ':' ∉ cs := fun hmem => absurd (hdigit ':' hmem) (by decide)
    constructor
    · refine .inr ⟨u.lowerIn (':' :: before) cs after, ?_, fun hmem =>
        hcolon (mem_of_mem_lowerIn (by decide) hmem)⟩
      rw [part, Casing.lowerIn, lowerAt_delimiter (by decide), List.singleton_append]
    · refine isDelimiter_lowerIn ?_ before after
      intro c hc
      rcases List.mem_cons.mp hc with rfl | hc
      · rfl
      · by_contra hdelimiter
        rw [Bool.not_eq_false] at hdelimiter
        have hmem := delimiter_of_isDelimiter hdelimiter
        have hnone : ∀ d ∈ urlDelimiters, d ∉ digits := List.all_iff_forall_prop.mp (by decide)
        exact hnone c hmem (hdigit c hc)

theorem lowerFrom_tail (before : List Char) :
    u.lowerFrom before p.tail = [] ∨
      ∃ d ds, u.lowerFrom before p.tail = d :: ds ∧ isDelimiter d = true := by
  rcases p.tail_eq_nil_or with htail | ⟨d, rest, htail, hd⟩
  · exact .inl (by rw [htail]; rfl)
  · refine .inr ⟨d, u.lowerFrom (d :: before) rest, ?_, hd⟩
    rw [htail, Casing.lowerFrom, lowerAt_delimiter (delimiter_of_isDelimiter hd),
      List.singleton_append]

/-- **The lower case of what is written behind the scheme, part by part.** -/
theorem lowerFrom_rest (host before : List Char) :
    ∃ port, IsPort port ∧ (∀ d ∈ port, isDelimiter d = false) ∧
      ∃ tail, (tail = [] ∨ ∃ d ds, tail = d :: ds ∧ isDelimiter d = true) ∧
      u.lowerFrom before (p.rest host) =
        p.www ++ u.lowerIn (p.www.reverse ++ before) host
          (p.dot ++ (part ':' p.port ++ p.tail)) ++ p.dot ++ port ++ tail := by
  have hwww : ∀ c ∈ p.www, u.lower c = [c] := by
    unfold www
    split
    · exact lower_www
    · exact fun _ hc => absurd hc List.not_mem_nil
  have hdot : ∀ c ∈ p.dot, u.lower c = [c] := by
    unfold dot
    split
    · intro c hc
      rw [List.mem_singleton.mp hc]
      exact u.lower_delimiter '.' (by decide)
    · exact fun _ hc => absurd hc List.not_mem_nil
  unfold rest
  rw [Casing.lowerFrom_append, Casing.lowerFrom_append, Casing.lowerFrom_append,
    Casing.lowerFrom_append, Casing.lowerIn_of_lower _ _ _ hwww,
    Casing.lowerIn_of_lower _ _ _ hdot]
  generalize p.dot.reverse ++ (host.reverse ++ (p.www.reverse ++ before)) = context
  obtain ⟨hport, hdelimiter⟩ := p.lowerIn_port (u := u) context p.tail
  have htail := p.lowerFrom_tail (u := u) ((part ':' p.port).reverse ++ context)
  exact ⟨_, hport, hdelimiter, _, htail, by simp only [List.append_assoc]⟩

end Parts

/-! ## Authorities of spellings -/

theorem takeWhile_authority {xs ys : List Char} (hxs : ∀ c ∈ xs, isDelimiter c = false)
    (hys : ys = [] ∨ ∃ d ds, ys = d :: ds ∧ isDelimiter d = true) :
    (xs ++ ys).takeWhile (fun c => !isDelimiter c) = xs := by
  rw [List.takeWhile_append_of_pos fun c hc => by rw [hxs c hc]; rfl]
  rcases hys with rfl | ⟨d, ds, rfl, hd⟩
  · exact List.append_nil xs
  · rw [List.takeWhile_cons_of_neg (by rw [hd]; nofun), List.append_nil]

theorem Parts.isDelimiter_www (p : Parts) : ∀ c ∈ p.www, isDelimiter c = false := by
  unfold Parts.www
  split
  · exact List.all_iff_forall_prop.mp (by decide)
  · exact fun _ hc => absurd hc List.not_mem_nil

theorem Parts.isDelimiter_dot (p : Parts) : ∀ c ∈ p.dot, isDelimiter c = false := by
  unfold Parts.dot
  split
  · exact List.all_iff_forall_prop.mp (by decide)
  · exact fun _ hc => absurd hc List.not_mem_nil

theorem Parts.dot_eq_nil_or (p : Parts) : p.dot = [] ∨ p.dot = ['.'] := by
  unfold Parts.dot
  split
  · exact .inr rfl
  · exact .inl rfl

/-- What is left of the text behind the scheme is the host where it stands, but for one `www.`. -/
theorem bareHost_rest (h : Host) (p : Parts) (before : List Char) :
    bareHost ((u.lowerFrom before (p.rest h.text)).takeWhile fun c => !isDelimiter c) =
      withoutStart Account.www (p.www ++ u.lowerIn (p.www.reverse ++ before) h.text
        (p.dot ++ (part ':' p.port ++ p.tail))) := by
  obtain ⟨port, hport, hdelimiter, tail, htail, heq⟩ := p.lowerFrom_rest (u := u) h.text before
  rw [heq]
  have hnamed := h.lowerIn_named (u := u) (p.www.reverse ++ before)
    (p.dot ++ (part ':' p.port ++ p.tail))
  have hhost := isDelimiter_lowerIn (u := u) (fun c hc => (h.char c hc).2.1)
    (p.www.reverse ++ before) (p.dot ++ (part ':' p.port ++ p.tail))
  generalize u.lowerIn (p.www.reverse ++ before) h.text (p.dot ++ (part ':' p.port ++ p.tail)) =
    host at hnamed hhost ⊢
  rw [takeWhile_authority ?_ htail]
  · refine bareHost_append ?_ p.dot_eq_nil_or hport
    unfold Parts.www
    split
    · exact hnamed.append
    · exact hnamed
  · intro c hc
    simp only [List.mem_append] at hc
    rcases hc with ((hc | hc) | hc) | hc
    · exact p.isDelimiter_www c hc
    · exact hhost c hc
    · exact p.isDelimiter_dot c hc
    · exact hdelimiter c hc

/-- The `www.` of a spelling and the one that is taken off leave the host as it is elsewhere iff
no other `www.` is met. -/
theorem withoutStart_www_eq_iff (p : Parts) {xs ys : List Char} (h : xs.length = ys.length) :
    withoutStart Account.www (p.www ++ xs) = withoutStart Account.www ys ↔
      xs = ys ∧ (p.label = true → ¬ Account.www <+: ys) := by
  have hshort : ∀ zs : List Char, Account.www <+: zs →
      (withoutStart Account.www zs).length < zs.length := by
    rintro - ⟨rest, rfl⟩
    rw [withoutStart_append, List.length_append]
    exact Nat.lt_add_of_pos_left (by decide)
  have hsame : ∀ zs : List Char, ¬ Account.www <+: zs → withoutStart Account.www zs = zs :=
    fun zs hstart => (withoutStart_eq_self_iff (by decide)).mpr hstart
  unfold Parts.www
  cases p.label with
  | true =>
    rw [if_pos rfl, withoutStart_append]
    by_cases hys : Account.www <+: ys
    · refine iff_of_false (fun heq => ?_) fun hand => hand.2 rfl hys
      have hlen := hshort ys hys
      rw [← heq, h] at hlen
      exact Nat.lt_irrefl _ hlen
    · rw [hsame ys hys]
      exact ⟨fun heq => ⟨heq, fun _ => hys⟩, fun hand => hand.1⟩
  | false =>
    rw [if_neg Bool.false_ne_true, List.nil_append]
    refine ⟨fun heq => ⟨?_, nofun⟩, fun hand => by rw [hand.1]⟩
    have hlen := congrArg List.length heq
    by_cases hxs : Account.www <+: xs
    · by_cases hys : Account.www <+: ys
      · obtain ⟨xs, rfl⟩ := hxs
        obtain ⟨ys, rfl⟩ := hys
        rw [withoutStart_append, withoutStart_append] at heq
        rw [heq]
      · have hlt := hshort xs hxs
        rw [hlen, hsame ys hys, h] at hlt
        exact absurd hlt (Nat.lt_irrefl _)
    · by_cases hys : Account.www <+: ys
      · have hlt := hshort ys hys
        rw [← hlen, hsame xs hxs, h] at hlt
        exact absurd hlt (Nat.lt_irrefl _)
      · rwa [hsame xs hxs, hsame ys hys] at heq

/-! ## Spaces around a spelling -/

theorem trim_ofList {before cs after : List Char} (hbefore : ∀ c ∈ before, jsSpace c = true)
    (hafter : ∀ c ∈ after, jsSpace c = true) (hcs : Trimmed cs) :
    trim (String.ofList (before ++ cs ++ after)) = String.ofList cs := by
  apply String.toList_inj.mp
  have hhead : ((before ++ cs ++ after).dropWhile jsSpace).rdropWhile jsSpace =
      (cs ++ after).rdropWhile jsSpace := by
    rw [List.append_assoc, List.dropWhile_append_of_pos hbefore]
    cases cs with
    | nil =>
      rw [List.nil_append, List.dropWhile_eq_nil_iff.mpr hafter, eq_comm,
        List.rdropWhile_eq_nil_iff.mpr hafter]
      rfl
    | cons c rest =>
      rw [List.cons_append, List.dropWhile_cons_of_neg]
      rw [hcs.1 c rfl]
      exact Bool.false_ne_true
  have hlast : (cs ++ after).rdropWhile jsSpace = cs := by
    have hreverse : ∀ c ∈ after.reverse, jsSpace c = true := fun c hc =>
      hafter c (List.mem_reverse.mp hc)
    have hself : cs.rdropWhile jsSpace = cs := by
      rw [List.rdropWhile_eq_self_iff]
      intro hne
      rw [hcs.2 _ (List.getLast?_eq_getLast_of_ne_nil hne)]
      exact Bool.false_ne_true
    unfold List.rdropWhile at hself ⊢
    rw [List.reverse_append, List.dropWhile_append_of_pos hreverse, hself]
  rw [toList_trim, String.toList_ofList, String.toList_ofList, hhead, hlast]

/-- The host, the parts before and behind it are not white space at either end. -/
theorem Parts.trimmed_rest (h : Host) (p : Parts) : Trimmed (p.front ++ p.rest h.text) := by
  have hhost : ∀ c ∈ h.text, jsSpace c = false := fun c hc => (h.char c hc).1
  have hwww : ∀ c ∈ p.www, jsSpace c = false := by
    unfold Parts.www
    split
    · exact List.all_iff_forall_prop.mp (by decide)
    · exact fun _ hc => absurd hc List.not_mem_nil
  have hdot : ∀ c ∈ p.dot, jsSpace c = false := by
    unfold Parts.dot
    split
    · exact List.all_iff_forall_prop.mp (by decide)
    · exact fun _ hc => absurd hc List.not_mem_nil
  have hport : ∀ c ∈ part ':' p.port, jsSpace c = false := by
    cases heq : p.port with
    | none => exact fun _ hc => absurd hc List.not_mem_nil
    | some cs =>
      intro c hc
      rcases List.mem_cons.mp hc with rfl | hc
      · decide
      · have hall : ∀ d ∈ digits, jsSpace d = false := List.all_iff_forall_prop.mp (by decide)
        exact hall c (p.port_char cs heq c hc)
  have hfront : ∀ c ∈ p.front, jsSpace c = false := by
    unfold Parts.front
    cases heq : p.scheme with
    | none => exact fun _ hc => absurd hc List.not_mem_nil
    | some cs =>
      intro c hc
      rcases List.mem_append.mp hc with hc | hc
      · exact (p.scheme_char cs heq c hc).1
      · have hall : ∀ d ∈ schemeEnd, jsSpace d = false := List.all_iff_forall_prop.mp (by decide)
        exact hall c hc
  -- Everything but the tail is free of white space, and the host is not empty.
  have hne : p.front ++ (p.www ++ (h.text ++ (p.dot ++ part ':' p.port))) ≠ [] := by
    simp [h.ne_nil]
  have hall : ∀ c ∈ p.front ++ (p.www ++ (h.text ++ (p.dot ++ part ':' p.port))),
      jsSpace c = false := by
    intro c hc
    simp only [List.mem_append] at hc
    rcases hc with hc | hc | hc | hc | hc
    · exact hfront c hc
    · exact hwww c hc
    · exact hhost c hc
    · exact hdot c hc
    · exact hport c hc
  have heq : p.front ++ p.rest h.text =
      (p.front ++ (p.www ++ (h.text ++ (p.dot ++ part ':' p.port)))) ++ p.tail := by
    simp only [Parts.rest, List.append_assoc]
  rw [heq]
  generalize p.front ++ (p.www ++ (h.text ++ (p.dot ++ part ':' p.port))) = text at hne hall ⊢
  constructor
  · intro c hc
    rw [List.head?_append_of_ne_nil _ hne] at hc
    exact hall c (List.mem_of_mem_head? hc)
  · intro c hc
    by_cases htail : p.tail = []
    · rw [htail, List.append_nil] at hc
      exact hall c (List.mem_of_mem_getLast? hc)
    · rw [List.getLast?_append_of_ne_nil _ htail] at hc
      exact p.last c hc

namespace Spelling

variable (s : Spelling u)

theorem trimmed_letters : Trimmed s.letters := by
  apply Casing.trimmed_of_lowerFrom (u := u.toCasing)
  rw [s.letterCase]
  have htext : Trimmed (s.parts.front ++ s.parts.rest s.host.text) := s.parts.trimmed_rest s.host
  exact ⟨Casing.head_lowerFrom [] htext.1, Casing.last_lowerFrom _ [] htext.2⟩

/-- Between the spaces stand the letters. -/
theorem trim_written : trim s.written = String.ofList s.letters :=
  trim_ofList (fun c hc => s.space c (List.mem_append_left _ hc))
    (fun c hc => s.space c (List.mem_append_right _ hc)) s.trimmed_letters

theorem toLowerCase_written :
    (u.toLowerCase (trim s.written)).toList =
      u.lowerFrom [] (s.parts.front ++ s.parts.rest s.host.text) := by
  rw [s.trim_written, Casing.toLowerCase, String.toList_ofList, String.toList_ofList,
    s.letterCase]

end Spelling

/-! ## Normal forms of spellings -/

theorem Host.named (h : Host) : Named (u.lowerFrom [] h.text) := by
  rw [Casing.lowerFrom_eq_lowerIn]
  exact h.lowerIn_named [] []

/-- The text of the host is its own trimmed text. -/
theorem Host.authority_eq (h : Host) :
    authority (u.toLowerCase (trim (String.ofList h.text))).toList = u.lowerFrom [] h.text := by
  have hchar : ∀ c ∈ h.text, jsSpace c = false := fun c hc => (h.char c hc).1
  have htrimmed : Trimmed h.text :=
    ⟨fun c hc => hchar c (List.mem_of_mem_head? hc),
      fun c hc => hchar c (List.mem_of_mem_getLast? hc)⟩
  have htrim : trim (String.ofList h.text) = String.ofList h.text :=
    trim_of_trimmed (by rwa [String.toList_ofList])
  have hcolon : ':' ∉ u.lowerFrom [] h.text := h.named.colon
  rw [htrim, Casing.toLowerCase, String.toList_ofList, String.toList_ofList,
    authority_of_no_scheme fun hocc => hcolon (hocc.subset (by decide))]
  rw [Casing.lowerFrom_eq_lowerIn, List.takeWhile_eq_self_iff]
  intro d hd
  rw [isDelimiter_lowerIn (fun c hc => (h.char c hc).2.1) [] [] d hd]
  rfl

theorem normalizeDomain_inj {a b : String} :
    normalizeDomain u.toCasing (some a) = normalizeDomain u.toCasing (some b) ↔
      bareHost (authority (u.toLowerCase (trim a)).toList) =
        bareHost (authority (u.toLowerCase (trim b)).toList) := by
  rw [normalizeDomain_some, normalizeDomain_some]
  generalize bareHost (authority (u.toLowerCase (trim a)).toList) = x
  generalize bareHost (authority (u.toLowerCase (trim b)).toList) = y
  have hinj : String.ofList x = String.ofList y ↔ x = y :=
    ⟨fun heq => by simpa using congrArg String.toList heq, fun heq => by rw [heq]⟩
  by_cases hx : x = [] <;> by_cases hy : y = [] <;> simp [hx, hy, hinj, eq_comm]

/-- What is left of the host on its own. -/
theorem named_alone (h : Host) : Named (withoutStart www (u.lowerFrom [] h.text)) := by
  have hnamed := h.named (u := u)
  by_cases hstart : www <+: u.lowerFrom [] h.text
  · obtain ⟨rest, heq⟩ := hstart
    rw [← heq, withoutStart_append]
    rw [← heq] at hnamed
    have hne : rest ≠ [] := by
      rintro rfl
      exact hnamed.dot rfl
    refine ⟨hne, fun hmem => hnamed.colon (List.mem_append_right _ hmem), ?_⟩
    rw [← List.getLast?_append_of_ne_nil www hne]
    exact hnamed.dot
  · rwa [(withoutStart_eq_self_iff (by decide)).mpr hstart]

namespace Spelling

variable (s : Spelling u)

/-- Without a scheme, what stands before a `://` in the port, the path, the query or the fragment
is taken for one. -/
def Mistaken : Prop :=
  s.parts.scheme = none ∧ schemeEnd <:+: part ':' s.parts.port ++ s.parts.tail

/-- The host is found: where it stands it has the lower case that it has on its own, and no
`www.` is added to one; or the same host stands behind a `://` that is taken for a scheme's. -/
def Found : Prop :=
  (¬ s.Mistaken ∧ s.inPlace = s.alone ∧ (s.parts.label = true → ¬ www <+: s.alone)) ∨
    (s.Mistaken ∧ ∃ y,
      behind schemeEnd (u.lowerFrom [] (s.parts.front ++ s.parts.rest s.host.text)) = some y ∧
        Dressed (withoutStart www s.alone) (y.takeWhile fun c => !isDelimiter c))

theorem length_inPlace : s.inPlace.length = s.alone.length := by
  unfold inPlace alone
  rw [Casing.lowerFrom_eq_lowerIn, Casing.length_lowerIn, Casing.length_lowerIn]

/-- Where nothing is mistaken, the authority is what stands behind the scheme. -/
theorem authority_written (h : ¬ s.Mistaken) :
    authority (u.toLowerCase (trim s.written)).toList =
      (u.lowerFrom s.parts.front.reverse (s.parts.rest s.host.text)).takeWhile
        fun c => !isDelimiter c := by
  rw [s.toLowerCase_written]
  cases hscheme : s.parts.scheme with
  | none =>
    have hfront : s.parts.front = [] := by
      unfold Parts.front
      rw [hscheme]
      rfl
    rw [hfront, List.nil_append, List.reverse_nil]
    refine authority_of_no_scheme fun hocc => h ⟨hscheme, ?_⟩
    exact s.parts.schemeEnd_rest s.host ((schemeEnd_infix_lowerFrom_iff _ _).mp hocc)
  | some cs =>
    have hcolon : ':' ∉ cs := fun hmem => (s.parts.scheme_char cs hscheme ':' hmem).2 rfl
    have hfront : s.parts.front = cs ++ schemeEnd := by
      unfold Parts.front
      rw [hscheme]
      rfl
    refine authority_of_behind ?_
    rw [hfront, List.append_assoc, Casing.lowerFrom_append, Casing.lowerFrom_append,
      Casing.lowerIn_of_lower _ _ _ lower_schemeEnd, ← List.append_assoc, List.reverse_append,
      List.append_nil]
    exact behind_append (fun hmem => hcolon (mem_of_mem_lowerIn (by decide) hmem)) _

/-- **A spelling has the normal form of the host iff the host is found.** -/
theorem normalizeDomain_written_iff :
    normalizeDomain u.toCasing (some s.written) =
        normalizeDomain u.toCasing (some (String.ofList s.host.text)) ↔ s.Found := by
  have halone : bareHost (u.lowerFrom [] s.host.text) = withoutStart www s.alone := by
    have happend := bareHost_append (s.host.named (u := u)) (.inl rfl) (.inl rfl)
    rwa [List.append_nil, List.append_nil] at happend
  rw [normalizeDomain_inj, s.host.authority_eq, halone]
  unfold Found
  by_cases h : s.Mistaken
  · simp only [h, not_true_eq_false, false_and, true_and, false_or]
    have hocc : schemeEnd <:+: u.lowerFrom [] (s.parts.front ++ s.parts.rest s.host.text) := by
      rw [schemeEnd_infix_lowerFrom_iff]
      unfold Parts.rest
      exact h.2.trans ⟨s.parts.front ++ (s.parts.www ++ (s.host.text ++ s.parts.dot)), [], by
        simp only [List.append_assoc, List.append_nil]⟩
    cases hbehind : behind schemeEnd
        (u.lowerFrom [] (s.parts.front ++ s.parts.rest s.host.text)) with
    | none => exact absurd hocc ((behind_eq_none_iff _ _).mp hbehind)
    | some y =>
      have hnamed : Named (withoutStart www s.alone) := named_alone s.host
      rw [s.toLowerCase_written, authority_of_behind hbehind, bareHost_eq_iff hnamed]
      simp only [Option.some.injEq, exists_eq_left']
  · simp only [h, not_false_eq_true, false_and, true_and, or_false]
    rw [s.authority_written h, bareHost_rest]
    exact withoutStart_www_eq_iff s.parts s.length_inPlace

end Spelling

end Account

end VegaRevenue

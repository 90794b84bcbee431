import Mathlib.Data.Bool.AllAny
import VegaRevenue.Lib.TextCuts
import VegaRevenue.Shared.Casing

/-!
# The normalized domain of an account

`normalizeDomain` cuts a scheme, a path, a query, a fragment, a port, a trailing dot and a leading
`www.` from a domain, each of them once.

* `bareHost_eq_iff` — which authorities lead to a host
* `normalizeDomain_eq_self_iff` — which domains are normal
* `idempotentAt_iff` — whose normal form is normal
-/

namespace VegaRevenue

namespace Account

open TextCuts

/-! ## The cuts -/

def schemeEnd : List Char := [':', '/', '/']

def www : List Char := ['w', 'w', 'w', '.']

/-- What ends an authority. -/
def isDelimiter (c : Char) : Bool := c = '/' || c = '?' || c = '#'

/-- The cuts of scheme, path, query and fragment. -/
def authority (cleaned : List Char) : List Char :=
  let cleaned := (behind schemeEnd cleaned).getD cleaned
  let cleaned := cleaned.takeWhile (· ≠ '/')
  let cleaned := cleaned.takeWhile (· ≠ '?')
  cleaned.takeWhile (· ≠ '#')

/-- The cuts of port, trailing dot and one leading `www.`. -/
def bareHost (cleaned : List Char) : List Char :=
  let cleaned := beforeLast ':' cleaned
  let cleaned := withoutEnd '.' cleaned
  withoutStart www cleaned

def normalizeDomain (u : Casing) : Option String → Option String
  | none => none
  | some raw =>
    if trim raw = "" then none
    else
      let cleaned := bareHost (authority (u.toLowerCase (trim raw)).toList)
      if cleaned = [] then none else some (String.ofList cleaned)

/-! ## Authorities -/

theorem takeWhile_delimiter (cs : List Char) :
    ((cs.takeWhile (· ≠ '/')).takeWhile (· ≠ '?')).takeWhile (· ≠ '#') =
      cs.takeWhile fun c => !isDelimiter c := by
  rw [List.takeWhile_takeWhile, List.takeWhile_takeWhile]
  congr 1
  funext c
  unfold isDelimiter
  by_cases hslash : c = '/' <;> by_cases hquery : c = '?' <;> by_cases hfragment : c = '#' <;>
    simp [hslash, hquery, hfragment]

theorem authority_of_behind {cs y : List Char} (h : behind schemeEnd cs = some y) :
    authority cs = y.takeWhile fun c => !isDelimiter c := by
  unfold authority
  rw [h]
  exact takeWhile_delimiter y

theorem authority_of_no_scheme {cs : List Char} (h : ¬ schemeEnd <:+: cs) :
    authority cs = cs.takeWhile fun c => !isDelimiter c := by
  unfold authority
  rw [(behind_eq_none_iff schemeEnd cs).mpr h]
  exact takeWhile_delimiter cs

theorem isDelimiter_of_mem_authority {cs : List Char} :
    ∀ c ∈ authority cs, isDelimiter c = false := by
  intro c hc
  unfold authority at hc
  rw [takeWhile_delimiter] at hc
  simpa using List.mem_takeWhile_imp hc

theorem infix_of_authority (cs : List Char) : authority cs <:+: cs := by
  cases hbehind : behind schemeEnd cs with
  | none =>
    rw [authority_of_no_scheme ((behind_eq_none_iff schemeEnd cs).mp hbehind)]
    exact (List.takeWhile_prefix _).isInfix
  | some y =>
    rw [authority_of_behind hbehind]
    exact (List.takeWhile_prefix _).isInfix.trans (behind_suffix hbehind).isInfix

/-! ## Hosts -/

theorem infix_of_bareHost (cs : List Char) : bareHost cs <:+: cs :=
  ((withoutStart_suffix www _).isInfix.trans (prefix_withoutEnd '.' _).isInfix).trans
    (prefix_beforeLast ':' cs).isInfix

/-- Either nothing or a port. -/
def IsPort (cs : List Char) : Prop := cs = [] ∨ ∃ port, cs = ':' :: port ∧ ':' ∉ port

/-- The host has at most one thing of each kind around it, and what is in front of it is what
`normalizeDomain` takes off. -/
def Dressed (host cs : List Char) : Prop :=
  ∃ front dot port, (front = www ∨ front = [] ∧ ¬ www <+: host) ∧ (dot = [] ∨ dot = ['.']) ∧
    IsPort port ∧ cs = front ++ host ++ dot ++ port

theorem beforeLast_port {cs port : List Char} (hcs : ':' ∉ cs) (hport : IsPort port) :
    beforeLast ':' (cs ++ port) = cs := by
  rcases hport with rfl | ⟨port, rfl, hport⟩
  · rw [List.append_nil, beforeLast_of_not_mem hcs]
  · exact beforeLast_append hport cs

/-- Whatever is left of an authority was dressed so. -/
theorem dressed_bareHost (cs : List Char) : Dressed (bareHost cs) cs := by
  obtain ⟨port, hport, hcs⟩ : ∃ port, IsPort port ∧ cs = beforeLast ':' cs ++ port := by
    by_cases hcolon : ':' ∈ cs
    · obtain ⟨port, heq, hport⟩ := exists_beforeLast hcolon
      exact ⟨':' :: port, .inr ⟨port, rfl, hport⟩, heq⟩
    · exact ⟨[], .inl rfl, by rw [beforeLast_of_not_mem hcolon, List.append_nil]⟩
  obtain ⟨dot, hdot, hhost⟩ : ∃ dot, (dot = [] ∨ dot = ['.']) ∧
      beforeLast ':' cs = withoutEnd '.' (beforeLast ':' cs) ++ dot := by
    by_cases hlast : (beforeLast ':' cs).getLast? = some '.'
    · exact ⟨['.'], .inr rfl, exists_withoutEnd hlast⟩
    · exact ⟨[], .inl rfl, by rw [withoutEnd_eq_self_iff.mpr hlast, List.append_nil]⟩
  obtain ⟨front, hfront, hbare⟩ : ∃ front, (front = www ∨ front = [] ∧ ¬ www <+: bareHost cs) ∧
      withoutEnd '.' (beforeLast ':' cs) = front ++ bareHost cs := by
    by_cases hstart : www <+: withoutEnd '.' (beforeLast ':' cs)
    · obtain ⟨rest, heq⟩ := hstart
      refine ⟨www, .inl rfl, ?_⟩
      rw [bareHost, ← heq, withoutStart_append]
    · have hself := (withoutStart_eq_self_iff (by decide)).mpr hstart
      refine ⟨[], .inr ⟨rfl, ?_⟩, ?_⟩
      · rwa [bareHost, hself]
      · rw [bareHost, hself, List.nil_append]
  exact ⟨front, dot, port, hfront, hdot, hport, by rw [← hbare, ← hhost, ← hcs]⟩

/-- What is no port and no dot stays. -/
structure Named (host : List Char) : Prop where
  ne_nil : host ≠ []
  colon : ':' ∉ host
  dot : host.getLast? ≠ some '.'

/-- The cuts take a port and a dot off. -/
theorem bareHost_append {host dot port : List Char} (h : Named host)
    (hdot : dot = [] ∨ dot = ['.']) (hport : IsPort port) :
    bareHost (host ++ dot ++ port) = withoutStart www host := by
  have hcolon : ':' ∉ host ++ dot := by
    rcases hdot with rfl | rfl
    · simpa using h.colon
    · simpa using h.colon
  have hwithout : withoutEnd '.' (host ++ dot) = host := by
    rcases hdot with rfl | rfl
    · rw [List.append_nil, withoutEnd_eq_self_iff]
      exact h.dot
    · exact withoutEnd_concat '.' host
  rw [bareHost, beforeLast_port hcolon hport, hwithout]

theorem Named.append {host : List Char} (h : Named host) : Named (www ++ host) where
  ne_nil := List.append_ne_nil_of_right_ne_nil _ h.ne_nil
  colon := by
    rw [List.mem_append, not_or]
    exact ⟨by decide, h.colon⟩
  dot := by
    rw [List.getLast?_append_of_ne_nil _ h.ne_nil]
    exact h.dot

/-- **An authority leads to a host iff it is the host so dressed.** -/
theorem bareHost_eq_iff {host cs : List Char} (h : Named host) :
    bareHost cs = host ↔ Dressed host cs := by
  constructor
  · rintro rfl
    exact dressed_bareHost cs
  · rintro ⟨front, dot, port, hfront, hdot, hport, rfl⟩
    rcases hfront with rfl | ⟨rfl, hstart⟩
    · rw [bareHost_append h.append hdot hport, withoutStart_append]
    · rw [List.nil_append, bareHost_append h hdot hport]
      exact (withoutStart_eq_self_iff (by decide)).mpr hstart

/-! ## Normal domains -/

/-- A host that has nothing around it. -/
structure Bare (host : List Char) : Prop where
  trimmed : Trimmed host
  colon : ':' ∉ host
  dot : host.getLast? ≠ some '.'
  www : ¬ www <+: host

theorem Bare.bareHost_eq {host : List Char} (h : Bare host) : bareHost host = host := by
  rw [bareHost, beforeLast_of_not_mem h.colon, withoutEnd_eq_self_iff.mpr h.dot]
  exact (withoutStart_eq_self_iff (by decide)).mpr h.www

theorem bare_nil : Bare [] :=
  ⟨⟨fun _ h => (nomatch h), fun _ h => (nomatch h)⟩, by decide, by decide, by decide⟩

theorem bare_www : Bare ['w', 'w', 'w'] := by
  have hspace : ∀ c ∈ ['w', 'w', 'w'], jsSpace c = false :=
    List.all_iff_forall_prop.mp (by decide)
  have htrimmed : Trimmed ['w', 'w', 'w'] :=
    ⟨fun c hc => hspace c (List.mem_of_mem_head? hc),
      fun c hc => hspace c (List.mem_of_mem_getLast? hc)⟩
  exact ⟨htrimmed, by decide, by decide, by decide⟩

/-- Only the cuts that found something changed the host. -/
theorem bareHost_eq_self_iff (host : List Char) :
    bareHost host = host ↔ ':' ∉ host ∧ host.getLast? ≠ some '.' ∧ ¬ www <+: host := by
  constructor
  · intro heq
    have hport := prefix_beforeLast ':' host
    have hdot := prefix_withoutEnd '.' (beforeLast ':' host)
    have hfront := withoutStart_suffix www (withoutEnd '.' (beforeLast ':' host))
    have hlen : (withoutStart www (withoutEnd '.' (beforeLast ':' host))).length = host.length :=
      congrArg List.length heq
    have hself := hport.eq_of_length
      (Nat.le_antisymm hport.length_le (hlen ▸ hfront.length_le.trans hdot.length_le))
    rw [hself] at hdot hfront hlen
    have hself' := hdot.eq_of_length
      (Nat.le_antisymm hdot.length_le (hlen ▸ hfront.length_le))
    rw [hself'] at hlen hfront
    exact ⟨beforeLast_eq_self_iff.mp hself, withoutEnd_eq_self_iff.mp hself',
      (withoutStart_eq_self_iff (by decide)).mp (hfront.eq_of_length hlen)⟩
  · rintro ⟨hcolon, hdot, hwww⟩
    rw [bareHost, beforeLast_of_not_mem hcolon, withoutEnd_eq_self_iff.mpr hdot]
    exact (withoutStart_eq_self_iff (by decide)).mpr hwww

/-- What is left of a host with nothing around it, taken out of what surrounds it, has nothing
around it: it is the host, or the `www` before a dot. -/
theorem bare_bareHost {host cs : List Char} (hbare : Bare host) (h : Dressed host cs) :
    Bare (bareHost cs) := by
  by_cases hne : host = []
  · subst hne
    obtain ⟨front, dot, port, hfront, hdot, hport, rfl⟩ := h
    have hcolon : ':' ∉ front ++ [] ++ dot := by
      rcases hfront with rfl | ⟨rfl, -⟩ <;> rcases hdot with rfl | rfl <;> decide
    rw [bareHost, beforeLast_port hcolon hport]
    rcases hfront with rfl | ⟨rfl, -⟩ <;> rcases hdot with rfl | rfl
    · exact bare_www
    · exact bare_nil
    · exact bare_nil
    · exact bare_nil
  · rwa [(bareHost_eq_iff ⟨hne, hbare.colon, hbare.dot⟩).mpr h]

variable {u : Casing}

/-- The empty domain takes the same way. -/
theorem normalizeDomain_some (raw : String) :
    normalizeDomain u (some raw) =
      if bareHost (authority (u.toLowerCase (trim raw)).toList) = [] then none
      else some (String.ofList (bareHost (authority (u.toLowerCase (trim raw)).toList))) := by
  by_cases hempty : trim raw = ""
  · have hnil : (u.toLowerCase (trim raw)).toList = [] := by
      rw [hempty, Casing.toLowerCase, String.toList_ofList]
      rfl
    rw [hnil, normalizeDomain, if_pos hempty, if_pos (by decide)]
  · rw [normalizeDomain, if_neg hempty]

theorem normalizeDomain_eq_some_iff {raw d : String} :
    normalizeDomain u (some raw) = some d ↔
      d ≠ "" ∧ d.toList = bareHost (authority (u.toLowerCase (trim raw)).toList) := by
  rw [normalizeDomain_some]
  have hd : d ≠ "" ↔ d.toList ≠ [] := by simp
  rw [hd]
  constructor
  · intro h
    split at h
    · cases h
    · rename_i hne
      obtain rfl := Option.some.inj h
      rw [String.toList_ofList]
      exact ⟨hne, rfl⟩
  · rintro ⟨hne, heq⟩
    rw [← heq, if_neg hne, String.ofList_toList]

/-- **A domain in lower case without a delimiter is normal iff it has nothing around it.** -/
theorem normalizeDomain_eq_self_iff {d : String} (hne : d ≠ "")
    (hlower : ∀ c ∈ d.toList, u.lower c = [c])
    (hdelimiter : ∀ c ∈ d.toList, isDelimiter c = false) :
    normalizeDomain u (some d) = some d ↔ Bare d.toList := by
  have hsubset : (trim d).toList ⊆ d.toList := by
    rw [toList_trim]
    exact List.Subset.trans (List.rdropWhile_prefix _ _).subset (List.dropWhile_suffix _).subset
  have hfixed : u.toLowerCase (trim d) = trim d := by
    apply String.toList_inj.mp
    rw [Casing.toLowerCase, String.toList_ofList]
    exact Casing.lowerFrom_of_lower _ [] fun c hc => hlower c (hsubset hc)
  have hauthority : authority (trim d).toList = (trim d).toList := by
    have hscheme : ¬ schemeEnd <:+: (trim d).toList := by
      intro hocc
      have hslash := hdelimiter '/' (hsubset (hocc.subset (by decide)))
      exact absurd hslash (by decide)
    rw [authority_of_no_scheme hscheme, List.takeWhile_eq_self_iff]
    intro c hc
    rw [hdelimiter c (hsubset hc)]
    rfl
  rw [normalizeDomain_eq_some_iff, hfixed, hauthority, eq_comm]
  constructor
  · rintro ⟨-, heq⟩
    -- Trimming can only shorten the domain, and so can the cuts.
    have htrim : trim d = d := by
      have hocc := heq ▸ infix_of_bareHost (trim d).toList
      have hlen : d.toList.length ≤ (trim d).toList.length := hocc.length_le
      have hocc' : (trim d).toList <:+: d.toList := by
        rw [toList_trim]
        exact (List.rdropWhile_prefix _ _).isInfix.trans (List.dropWhile_suffix _).isInfix
      exact String.toList_inj.mp
        (hocc'.eq_of_length (Nat.le_antisymm hocc'.length_le hlen))
    have htrimmed := trimmed_trim d
    rw [htrim] at heq htrimmed
    obtain ⟨hcolon, hdot, hwww⟩ := (bareHost_eq_self_iff _).mp heq
    exact ⟨htrimmed, hcolon, hdot, hwww⟩
  · intro hbare
    rw [trim_of_trimmed hbare.trimmed]
    exact ⟨hne, hbare.bareHost_eq⟩

/-! ## Normal forms of normal forms -/

/-- The normal form of the domain, if there is one, is its own normal form. -/
def IdempotentAt (u : Casing) (raw : String) : Prop :=
  ∀ d, normalizeDomain u (some raw) = some d → normalizeDomain u (some d) = some d

/-- **A normal form is normal iff the authority is a host that has nothing around it, dressed.** -/
theorem idempotentAt_iff (raw : String) :
    IdempotentAt u raw ↔
      ∃ host, Bare host ∧ Dressed host (authority (u.toLowerCase (trim raw)).toList) := by
  set cleaned := authority (u.toLowerCase (trim raw)).toList with hcleaned
  have hocc : bareHost cleaned <:+: (u.toLowerCase (trim raw)).toList :=
    (infix_of_bareHost _).trans (infix_of_authority _)
  have hnormal : bareHost cleaned ≠ [] →
      (normalizeDomain u (some (String.ofList (bareHost cleaned))) =
          some (String.ofList (bareHost cleaned)) ↔ Bare (bareHost cleaned)) := by
    intro hne
    have hself := normalizeDomain_eq_self_iff (u := u) (d := String.ofList (bareHost cleaned))
    rw [String.toList_ofList] at hself
    refine hself (by simpa using hne) (fun c hc => ?_) fun c hc =>
      isDelimiter_of_mem_authority c ((infix_of_bareHost cleaned).subset hc)
    have hlower := hocc.subset hc
    rw [Casing.toLowerCase, String.toList_ofList] at hlower
    exact Casing.lowerFrom_lower _ [] c hlower
  constructor
  · intro hidem
    refine ⟨bareHost cleaned, ?_, dressed_bareHost cleaned⟩
    by_cases hne : bareHost cleaned = []
    · rw [hne]
      exact bare_nil
    · refine (hnormal hne).mp (hidem _ ?_)
      rw [normalizeDomain_some, ← hcleaned, if_neg hne]
  · rintro ⟨host, hbare, hdressed⟩ d hd
    rw [normalizeDomain_some, ← hcleaned] at hd
    split at hd
    · cases hd
    · rename_i hne
      obtain rfl := Option.some.inj hd
      exact (hnormal hne).mpr (bare_bareHost hbare hdressed)

end Account

end VegaRevenue

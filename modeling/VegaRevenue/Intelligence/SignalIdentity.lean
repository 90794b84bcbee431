import VegaRevenue.AiRuntime.ContextAssembler
import VegaRevenue.Intelligence.Repeat
import VegaRevenue.Lib.JoinedText
import VegaRevenue.Lib.KeyedRows
import VegaRevenue.Lib.RollingHash
import VegaRevenue.Shared.Casing

/-!
# The identity of a signal

`Signal.computeDedupIdentity` joins ids by colons and ends with a hash of the observed text. A
detected signal whose identity is stored is not saved.

* `computeDedupIdentity_eq_iff` — which signals share an identity
* `signals_iff` — when the identity tells them, and when every detected signal is stored
* `not_signals` — two texts with one hash
-/

namespace VegaRevenue.Intelligence.SignalIdentity

open AiRuntime.ContextAssembler (Units units)
open JoinedText
open KeyedRows
open Programs
open RollingHash

/-! ## The hash -/

/-- `x | 0`. -/
def toInt32 (x : Int) : Int := (x + 2 ^ 31) % 2 ^ 32 - 2 ^ 31

/-- One round: `((hash << 5) - hash + chr) | 0`. -/
def hashStep (hash chr : Int) : Int := toInt32 (toInt32 (hash * 2 ^ 5) - hash + chr)

/-- The code units as numbers. -/
def codes (input : Units) : List Int := input.map fun c => (c.toNat : Int)

def hash32 (input : Units) : Int := (codes input).foldl hashStep 0

def digit36 (d : Nat) : Char := if d < 10 then Char.ofNat (0x30 + d) else Char.ofNat (0x57 + d)

/-- `n.toString(36)`. -/
def toString36 (n : Nat) : String :=
  if n = 0 then "0" else String.ofList ((Nat.digits 36 n).reverse.map digit36)

def hashString (input : String) : String := toString36 (hash32 (units input)).natAbs

variable (u : Casing)

def normalizedSignal (observedSignal : String) : String :=
  u.toLowerCase (String.ofList (collapseSpaces false (trim observedSignal).toList))

def computeDedupIdentity (signal : Signal) : String :=
  signal.tenantId ++ ":" ++ signal.workspaceId ++ ":" ++ signal.accountId ++ ":" ++
    signal.signalType ++ ":" ++ hashString (normalizedSignal u signal.observedSignal)

/-! ## What it tells -/

/-- The content that the identity stands for. -/
def Same (a b : Signal) : Prop :=
  a.tenantId = b.tenantId ∧ a.workspaceId = b.workspaceId ∧ a.accountId = b.accountId ∧
    a.signalType = b.signalType ∧
      normalizedSignal u a.observedSignal = normalizedSignal u b.observedSignal

def idParts (signal : Signal) : List (List Char) :=
  [signal.tenantId.toList, signal.workspaceId.toList, signal.accountId.toList,
    signal.signalType.toList]

/-- The value of the normalized text as a number to the base 31. -/
def textValue (signal : Signal) : Int :=
  value 31 (codes (units (normalizedSignal u signal.observedSignal)))

/-- The ids read alike with colons between them, and the texts have the same value up to sign and
multiples of `2 ^ 32`. -/
def Confused (a b : Signal) : Prop :=
  pieces ':' (idParts a) = pieces ':' (idParts b) ∧
    (textValue u a ≡ textValue u b [ZMOD 2 ^ 32] ∨ textValue u a ≡ -textValue u b [ZMOD 2 ^ 32])

theorem toInt32_modEq (x : Int) : toInt32 x ≡ x [ZMOD 2 ^ 32] := by
  unfold toInt32 Int.ModEq
  omega

theorem toInt32_bounds (x : Int) : -2 ^ 31 ≤ toInt32 x ∧ toInt32 x < 2 ^ 31 := by
  unfold toInt32
  omega

theorem hashStep_modEq (h c : Int) : hashStep h c ≡ h * 31 + c [ZMOD 2 ^ 32] := by
  have hshift := ((toInt32_modEq (h * 2 ^ 5)).sub_right h).add_right c
  have hsum : h * 2 ^ 5 - h + c = h * 31 + c := by ring
  exact hsum ▸ (toInt32_modEq _).trans hshift

theorem hash32_modEq (input : Units) : hash32 input ≡ value 31 (codes input) [ZMOD 2 ^ 32] := by
  have hfold := foldl_modEq hashStep_modEq (codes input) 0
  rwa [zero_mul, zero_add] at hfold

theorem hash32_bounds (input : Units) : -2 ^ 31 ≤ hash32 input ∧ hash32 input < 2 ^ 31 := by
  rcases List.eq_nil_or_concat (codes input) with hnil | ⟨cs, c, hcons⟩
  · unfold hash32
    rw [hnil, List.foldl_nil]
    omega
  · unfold hash32
    rw [hcons, List.concat_eq_append, List.foldl_append]
    exact toInt32_bounds _

theorem natAbs_hash32_eq_iff (s t : Units) :
    (hash32 s).natAbs = (hash32 t).natAbs ↔
      value 31 (codes s) ≡ value 31 (codes t) [ZMOD 2 ^ 32] ∨
        value 31 (codes s) ≡ -value 31 (codes t) [ZMOD 2 ^ 32] := by
  have hs := hash32_modEq s
  have ht := hash32_modEq t
  rw [natAbs_eq_iff (hash32_bounds s) (hash32_bounds t),
    show (2 * 2 ^ 31 : Int) = 2 ^ 32 by norm_num]
  exact or_congr ⟨fun h => hs.symm.trans (h.trans ht), fun h => hs.trans (h.trans ht.symm)⟩
    ⟨fun h => hs.symm.trans (h.trans ht.neg), fun h => hs.trans (h.trans ht.neg.symm)⟩

/-- What a digit stands for. -/
def readDigit36 (c : Char) : Nat := if c.toNat < 0x3A then c.toNat - 0x30 else c.toNat - 0x57

theorem digit36_facts : ∀ d < 36, readDigit36 (digit36 d) = d ∧ digit36 d ≠ ':' := by decide

theorem ofNumeral_toString36 (n : Nat) :
    ofNumeral 36 readDigit36 (toString36 n).toList = n := by
  unfold toString36
  split
  next hn =>
    subst hn
    decide
  · rw [String.toList_ofList]
    exact ofNumeral_digits (by decide) (fun d hd => (digit36_facts d hd).1) n

theorem toString36_inj {m n : Nat} : toString36 m = toString36 n ↔ m = n := by
  refine ⟨fun h => ?_, fun h => by rw [h]⟩
  rw [← ofNumeral_toString36 m, h, ofNumeral_toString36 n]

theorem colon_not_mem_toString36 (n : Nat) : ':' ∉ (toString36 n).toList := by
  unfold toString36
  split
  · decide
  · rw [String.toList_ofList, List.mem_map]
    rintro ⟨d, hd, hcolon⟩
    have hlt := Nat.digits_lt_base (by decide) (List.mem_reverse.mp hd)
    exact (digit36_facts d hlt).2 hcolon

theorem computeDedupIdentity_toList (signal : Signal) :
    (computeDedupIdentity u signal).toList = joined ':' (idParts signal ++
      [(hashString (normalizedSignal u signal.observedSignal)).toList]) := by
  simp [computeDedupIdentity, idParts, joined]

/-- **Two signals share an identity iff they are confused.** -/
theorem computeDedupIdentity_eq_iff (a b : Signal) :
    computeDedupIdentity u a = computeDedupIdentity u b ↔ Confused u a b := by
  rw [← String.toList_inj, computeDedupIdentity_toList, computeDedupIdentity_toList, hashString,
    hashString, joined_concat_eq_iff (colon_not_mem_toString36 _) (colon_not_mem_toString36 _),
    String.toList_inj, toString36_inj, natAbs_hash32_eq_iff]
  rfl

/-! ## What is stored -/

/-- The engine with this identity. -/
def hashing (env : Env) : Env := { env with computeDedupIdentity := computeDedupIdentity u }

/-- The signal of a candidate, without its evidence. -/
def content (env : Env) (accountId : String) (candidate : BuyingSignal) : Signal :=
  { env.newSignal accountId candidate "" with evidenceIds := [] }

/-- Every stored signal has its identity. -/
def Identified (s : Store) : Prop :=
  ∀ row ∈ s.signals, row.dedupIdentity = computeDedupIdentity u row

/-- What `findByDedupIdentity` compares. -/
def key (signal : Signal) : String × String × String :=
  (signal.tenantId, signal.workspaceId, signal.dedupIdentity)

/-- `b` is found where `a` is looked for. -/
def Met (a b : Signal) : Prop :=
  a.tenantId = b.tenantId ∧ a.workspaceId = b.workspaceId ∧ Confused u a b

/-- A signal of the account is stored for each candidate. -/
def AllStored (env : Env) (accountId : String) (candidates : List BuyingSignal) (s : Store) : Prop :=
  ∀ c ∈ candidates, ∃ row ∈ s.signals, Same u row (content env accountId c)

/-- A candidate that is not stored meets no stored signal, and no candidate but those of its
content. -/
def Unconfused (env : Env) (accountId : String) (candidates : List BuyingSignal) (s : Store) :
    Prop :=
  ∀ c ∈ candidates, (∃ row ∈ s.signals, Same u row (content env accountId c)) ∨
    (∀ row ∈ s.signals, ¬Met u row (content env accountId c)) ∧
      ∀ d ∈ candidates, Met u (content env accountId d) (content env accountId c) →
        Same u (content env accountId d) (content env accountId c)

variable {u}

theorem Same.equivalence : Equivalence (Same u) where
  refl _ := ⟨rfl, rfl, rfl, rfl, rfl⟩
  symm := fun ⟨ht, hw, ha, hs, hn⟩ => ⟨ht.symm, hw.symm, ha.symm, hs.symm, hn.symm⟩
  trans := fun ⟨ht, hw, ha, hs, hn⟩ ⟨ht', hw', ha', hs', hn'⟩ =>
    ⟨ht.trans ht', hw.trans hw', ha.trans ha', hs.trans hs', hn.trans hn'⟩

/-- Signals of one content have one identity. -/
theorem Same.identity {a b : Signal} (h : Same u a b) :
    computeDedupIdentity u a = computeDedupIdentity u b := by
  obtain ⟨ht, hw, ha, hs, hn⟩ := h
  rw [computeDedupIdentity, computeDedupIdentity, ht, hw, ha, hs, hn]

theorem key_eq_iff {a b : Signal} (ha : a.dedupIdentity = computeDedupIdentity u a)
    (hb : b.dedupIdentity = computeDedupIdentity u b) : key a = key b ↔ Met u a b := by
  rw [key, key, Prod.mk.injEq, Prod.mk.injEq, ha, hb, computeDedupIdentity_eq_iff]
  rfl

section

variable {env : Env} {pass : Pass} {accountId : String}

/-- What is done with one candidate. -/
def detectSignal (env : Env) (pass : Pass) (accountId : String) (candidate : BuyingSignal) :
    Run Unit := do
  let claim : Claim := ⟨"BUYING_SIGNAL",
    .str (env.sanitizeExternalText candidate.observedSignal), candidate.source,
    candidate.confidence⟩
  let evidence ← env.signalEvidence pass accountId claim
  env.saveSignal (env.newSignal accountId candidate evidence.evidenceId)

theorem saveSignals_cons (c : BuyingSignal) (cs : List BuyingSignal) :
    env.saveSignals pass accountId (c :: cs) =
      detectSignal env pass accountId c >>= fun _ => env.saveSignals pass accountId cs := by
  rw [detectSignal, bind_assoc]
  rfl

theorem saveEvidence_signals (now : Date) (claim : Claim) (missionId : Option String) :
    Moves (fun s s' => s'.signals = s.signals)
      (env.saveEvidence now claim accountId missionId) := by
  refine moves_get_bind fun s => ?_
  dsimp only
  rw [exec_bind, exec_set]
  dsimp only
  split
  · rfl
  · split
    · rfl
    · rfl

theorem signalEvidence_signals (env : Env) (pass : Pass) (accountId : String) (claim : Claim) :
    Moves (fun s s' => s'.signals = s.signals) (env.signalEvidence pass accountId claim) := by
  refine moves_get_bind fun s => ?_
  dsimp only
  split
  · rfl
  · exact saveEvidence_signals _ _ _ s

/-- A save that is not refused inserts the signal where its key is not there. -/
theorem saveSignal_ok {signal : Signal} {s s' : Store}
    (h : exec (env.saveSignal signal) s = (.ok (), s')) :
    s'.signals = insertMissing key s.signals signal := by
  unfold Env.saveSignal at h
  rw [exec_bind, exec_get] at h
  dsimp only at h
  have hany : (s.signals.any fun row => row.tenantId = signal.tenantId &&
      row.workspaceId = signal.workspaceId && row.dedupIdentity = signal.dedupIdentity) =
        s.signals.any (key · = key signal) := by
    refine congrArg _ (funext fun row => ?_)
    rw [Bool.eq_iff_iff]
    simp [key, and_assoc]
  rw [hany] at h
  unfold insertMissing
  split at h
  next hfound =>
    cases h
    rw [if_pos hfound]
  next hnew =>
    rw [if_neg hnew]
    split at h
    · cases h
    · split at h
      · cases h
      · cases h
        rfl

/-- However it ends otherwise, a save leaves the signals. -/
theorem saveSignal_error {signal : Signal} {s s' : Store} {e : RunError}
    (h : exec (env.saveSignal signal) s = (.error e, s')) : s'.signals = s.signals := by
  unfold Env.saveSignal at h
  rw [exec_bind, exec_get] at h
  dsimp only at h
  split at h
  · cases h
  · split at h
    · cases h
      rfl
    · split at h
      · cases h
        rfl
      · cases h

theorem detectSignal_ok {c : BuyingSignal} {s s' : Store}
    (h : exec (detectSignal env pass accountId c) s = (.ok (), s')) :
    ∃ evidenceId, s'.signals =
      insertMissing key s.signals (env.newSignal accountId c evidenceId) := by
  unfold detectSignal at h
  dsimp only at h
  rw [exec_bind] at h
  generalize hclaim : (Claim.mk _ _ _ _) = claim at h
  have hkept := signalEvidence_signals env pass accountId claim s
  generalize exec (env.signalEvidence pass accountId claim) s = r at h hkept
  obtain ⟨result, s₁⟩ := r
  cases result with
  | error e => cases h
  | ok evidence =>
    refine ⟨evidence.evidenceId, ?_⟩
    rw [saveSignal_ok h]
    exact congrArg (insertMissing key · _) hkept

theorem detectSignal_error {c : BuyingSignal} {s s' : Store} {e : RunError}
    (h : exec (detectSignal env pass accountId c) s = (.error e, s')) : s'.signals = s.signals := by
  unfold detectSignal at h
  dsimp only at h
  rw [exec_bind] at h
  generalize hclaim : (Claim.mk _ _ _ _) = claim at h
  have hkept := signalEvidence_signals env pass accountId claim s
  generalize exec (env.signalEvidence pass accountId claim) s = r at h hkept
  obtain ⟨result, s₁⟩ := r
  cases result with
  | error e =>
    cases h
    exact hkept
  | ok evidence => exact (saveSignal_error h).trans hkept

/-- Without the evidence. -/
def bare (signal : Signal) : Signal := { signal with evidenceIds := [] }

theorem bare_newSignal (c : BuyingSignal) (evidenceId : String) :
    bare ((hashing u env).newSignal accountId c evidenceId) =
      content (hashing u env) accountId c := rfl

/-- **A loop that returns inserts the signals of all candidates.** -/
theorem saveSignals_ok {cs : List BuyingSignal} {s s' : Store}
    (h : exec ((hashing u env).saveSignals pass accountId cs) s = (.ok (), s')) :
    ∃ signals : List Signal, signals.map bare = cs.map (content (hashing u env) accountId) ∧
      (∀ signal ∈ signals, signal.dedupIdentity = computeDedupIdentity u signal) ∧
        s'.signals = insertAll key s.signals signals := by
  induction cs generalizing s with
  | nil =>
    cases h
    exact ⟨[], rfl, fun _ hmem => absurd hmem List.not_mem_nil, rfl⟩
  | cons c cs ih =>
    rw [saveSignals_cons, exec_bind] at h
    cases hstep : exec (detectSignal (hashing u env) pass accountId c) s with
    | mk result s₁ =>
      rw [hstep] at h
      cases result with
      | error e => cases h
      | ok _ =>
        obtain ⟨evidenceId, hfirst⟩ := detectSignal_ok hstep
        obtain ⟨signals, hbare, hidentity, hrest⟩ := ih h
        refine ⟨(hashing u env).newSignal accountId c evidenceId :: signals, ?_, ?_, ?_⟩
        · rw [List.map_cons, List.map_cons, hbare, bare_newSignal]
        · exact List.forall_mem_cons.mpr ⟨rfl, hidentity⟩
        · rw [hrest, hfirst]
          rfl

/-- **After a loop that returns, every candidate is stored iff none is confused.** -/
theorem saveSignals_iff {cs : List BuyingSignal} {s s' : Store} (hs : Identified u s)
    (h : exec ((hashing u env).saveSignals pass accountId cs) s = (.ok (), s')) :
    AllStored u (hashing u env) accountId cs s' ↔ Unconfused u (hashing u env) accountId cs s := by
  obtain ⟨signals, hbare, hidentity, hinserted⟩ := saveSignals_ok h
  have hall : ∀ P : Signal → Prop, (∀ signal ∈ signals, P (bare signal)) ↔
      ∀ c ∈ cs, P (content (hashing u env) accountId c) := by
    intro P
    rw [← List.forall_mem_map, hbare, List.forall_mem_map]
  have hidentified : ∀ signal ∈ s.signals ++ signals,
      signal.dedupIdentity = computeDedupIdentity u signal :=
    List.forall_mem_append.mpr ⟨hs, hidentity⟩
  have hkey : ∀ a ∈ s.signals ++ signals, ∀ b ∈ signals, key a = key b ↔ Met u a b :=
    fun a ha b hb => key_eq_iff (hidentified a ha) (hidentity b hb)
  have hiff : (∀ c ∈ signals, ∃ row ∈ insertAll key s.signals signals, Same u row c) ↔ _ :=
    forall_mem_insertAll_iff Same.equivalence fun a ha b hb hsame => (hkey a ha b hb).mpr
      ⟨hsame.1, hsame.2.1, (computeDedupIdentity_eq_iff u a b).mp hsame.identity⟩
  rw [← hinserted] at hiff
  have hstored : AllStored u (hashing u env) accountId cs s' ↔
      ∀ signal ∈ signals, ∃ row ∈ s'.signals, Same u row signal :=
    (hall fun signal => ∃ row ∈ s'.signals, Same u row signal).symm
  have hfree : (∀ signal ∈ signals, (∃ row ∈ s.signals, Same u row signal) ∨
      (∀ row ∈ s.signals, ¬Met u row signal) ∧
        ∀ d ∈ cs, Met u (content (hashing u env) accountId d) signal →
          Same u (content (hashing u env) accountId d) signal) ↔
      Unconfused u (hashing u env) accountId cs s :=
    hall fun signal => (∃ row ∈ s.signals, Same u row signal) ∨
      (∀ row ∈ s.signals, ¬Met u row signal) ∧
        ∀ d ∈ cs, Met u (content (hashing u env) accountId d) signal →
          Same u (content (hashing u env) accountId d) signal
  rw [hstored, hiff, ← hfree]
  refine forall₂_congr fun signal hsignal => or_congr_right (and_congr ?_ ?_)
  · exact forall₂_congr fun row hrow =>
      not_congr (hkey row (List.mem_append_left _ hrow) signal hsignal)
  · rw [← hall fun d => Met u d signal → Same u d signal]
    exact forall₂_congr fun d hd => imp_congr_left (hkey d (List.mem_append_right _ hd) signal hsignal)

/-- A loop that fails has gone through the candidates before the one that is refused. -/
theorem saveSignals_error {cs : List BuyingSignal} {s s' : Store} {e : RunError}
    (h : exec (env.saveSignals pass accountId cs) s = (.error e, s')) :
    ∃ done c rest s₁, cs = done ++ c :: rest ∧
      exec (env.saveSignals pass accountId done) s = (.ok (), s₁) ∧
        exec (detectSignal env pass accountId c) s₁ = (.error e, s') := by
  induction cs generalizing s with
  | nil => cases h
  | cons c cs ih =>
    rw [saveSignals_cons, exec_bind] at h
    cases hstep : exec (detectSignal env pass accountId c) s with
    | mk result s₁ =>
      rw [hstep] at h
      cases result with
      | error e' =>
        cases h
        exact ⟨[], c, cs, s, rfl, rfl, hstep⟩
      | ok _ =>
        obtain ⟨done, c', rest, s₂, rfl, hdone, hrefused⟩ := ih h
        refine ⟨c :: done, c', rest, s₂, rfl, ?_, hrefused⟩
        rw [saveSignals_cons, exec_bind, hstep]
        exact hdone

theorem detectSignalsForAccount_eq {detected : List BuyingSignal}
    (hd : pass.signals accountId = some detected) (s : Store) :
    exec (env.detectSignalsForAccount pass accountId) s =
      match exec (env.saveSignals pass accountId detected) s with
      | (.ok _, s') => (.ok (env.activeSignals s' accountId pass.now), s')
      | (.error e, s') => (.error e, s') := by
  unfold Env.detectSignalsForAccount
  rw [hd]
  dsimp only
  rw [exec_bind]
  generalize exec (env.saveSignals pass accountId detected) s = r
  obtain ⟨result, s'⟩ := r
  cases result with
  | ok _ => rfl
  | error e => rfl

/-- Stored signals keep having their identity. -/
theorem identified_detectSignalsForAccount {s : Store} (hs : Identified u s) :
    Identified u (exec ((hashing u env).detectSignalsForAccount pass accountId) s).2 := by
  have hloop : ∀ {cs s'}, exec ((hashing u env).saveSignals pass accountId cs) s = (.ok (), s') →
      Identified u s' := by
    intro cs s' h row hrow
    obtain ⟨signals, -, hidentity, hinserted⟩ := saveSignals_ok h
    rw [hinserted] at hrow
    exact List.forall_mem_append.mpr ⟨hs, hidentity⟩ row (mem_of_mem_insertAll hrow)
  cases hd : pass.signals accountId with
  | none =>
    unfold Env.detectSignalsForAccount
    rw [hd]
    exact hs
  | some detected =>
    rw [detectSignalsForAccount_eq hd]
    cases hrun : exec ((hashing u env).saveSignals pass accountId detected) s with
    | mk result s' =>
      cases result with
      | ok _ => exact hloop hrun
      | error e =>
        obtain ⟨done, c, rest, s₁, -, hdone, hrefused⟩ := saveSignals_error hrun
        intro row hrow
        rw [detectSignal_error hrefused] at hrow
        exact hloop hdone row hrow

end

/-- **The identity tells a signal iff none is confused with it, and every candidate that is gone
through is stored iff none is confused.** -/
theorem signals_iff (u : Casing) :
    (∀ a b : Signal, (computeDedupIdentity u a = computeDedupIdentity u b ↔ Same u a b) ↔
      (Confused u a b → Same u a b)) ∧
    ∀ (env : Env) (pass : Pass) (accountId : String) (detected : List BuyingSignal) (s : Store),
      Identified u s → pass.signals accountId = some detected →
        match exec ((hashing u env).detectSignalsForAccount pass accountId) s with
        | (.ok _, s') => AllStored u (hashing u env) accountId detected s' ↔
            Unconfused u (hashing u env) accountId detected s
        | (.error e, s') => ∃ done c rest s₁, detected = done ++ c :: rest ∧
            exec ((hashing u env).saveSignals pass accountId done) s = (.ok (), s₁) ∧
            exec (detectSignal (hashing u env) pass accountId c) s₁ = (.error e, s') ∧
            (AllStored u (hashing u env) accountId done s' ↔
              Unconfused u (hashing u env) accountId done s) := by
  constructor
  · intro a b
    rw [computeDedupIdentity_eq_iff]
    refine ⟨fun h => h.mp, fun h => ⟨h, fun hsame => ?_⟩⟩
    exact (computeDedupIdentity_eq_iff u a b).mp hsame.identity
  · intro env pass accountId detected s hs hd
    rw [detectSignalsForAccount_eq hd]
    cases hrun : exec ((hashing u env).saveSignals pass accountId detected) s with
    | mk result s' =>
      cases result with
      | ok _ => exact saveSignals_iff hs hrun
      | error e =>
        obtain ⟨done, c, rest, s₁, rfl, hdone, hrefused⟩ := saveSignals_error hrun
        have hkept := detectSignal_error hrefused
        refine ⟨done, c, rest, s₁, rfl, hdone, hrefused, ?_⟩
        rw [AllStored, hkept]
        exact saveSignals_iff hs hdone

/-! ## Two signals with one hash -/

def adoption (signalId observedSignal : String) : BuyingSignal where
  signalId := signalId
  signalType := "TechnologyAdoption"
  observedSignal := observedSignal
  interpretedSignal := observedSignal
  observedAt := 0
  source := "provider"
  confidence := 1
  relevance := 1

/-- A pass that detects these signals. -/
def detecting (detected : List BuyingSignal) : Pass :=
  { samplePass with signals := fun _ => some detected }

theorem signals_iff_sample :
    AllStored asciiCasing (hashing asciiCasing sampleEnv) "acme" [adoption "s1" "S4"]
      (exec ((hashing asciiCasing sampleEnv).detectSignalsForAccount
        (detecting [adoption "s1" "S4"]) "acme") {}).2 ↔
      Unconfused asciiCasing (hashing asciiCasing sampleEnv) "acme" [adoption "s1" "S4"] {} :=
  (signals_iff asciiCasing).2 sampleEnv (detecting [adoption "s1" "S4"]) "acme"
    [adoption "s1" "S4"] {} (fun _ h => absurd h List.not_mem_nil) rfl

/-- The signals are told apart by their texts only. -/
def adopted (observedSignal : String) : Signal :=
  content sampleEnv "acme" (adoption "s1" observedSignal)

theorem confused : Confused asciiCasing (adopted "S4") (adopted "QR") := by
  have hvalue : textValue asciiCasing (adopted "S4") = textValue asciiCasing (adopted "QR") := by
    decide
  exact ⟨rfl, .inl (congrArg (· % _) hvalue)⟩

theorem not_same : ¬Same asciiCasing (adopted "S4") (adopted "QR") :=
  fun h => absurd h.2.2.2.2 (by decide)

/-- **The second of two signals with one hash is dropped.** -/
theorem not_signals :
    (¬∀ a b : Signal, computeDedupIdentity asciiCasing a = computeDedupIdentity asciiCasing b ↔
      Same asciiCasing a b) ∧
    ¬AllStored asciiCasing (hashing asciiCasing sampleEnv) "acme"
      [adoption "s1" "S4", adoption "s2" "QR"]
      (exec ((hashing asciiCasing sampleEnv).detectSignalsForAccount
        (detecting [adoption "s1" "S4", adoption "s2" "QR"]) "acme") {}).2 := by
  constructor
  · exact fun h => not_same ((h _ _).mp ((computeDedupIdentity_eq_iff _ _ _).mpr confused))
  · intro h
    have hone : (exec ((hashing asciiCasing sampleEnv).detectSignalsForAccount
        (detecting [adoption "s1" "S4", adoption "s2" "QR"]) "acme") {}).2.signals.map
          (·.observedSignal) = ["S4"] := by decide
    obtain ⟨row, hrow, hsame⟩ := h (adoption "s2" "QR") (List.mem_cons_of_mem _ List.mem_cons_self)
    have hold : row.observedSignal = "S4" :=
      List.mem_singleton.mp (hone ▸ List.mem_map_of_mem hrow)
    have htext := hsame.2.2.2.2
    rw [hold] at htext
    exact absurd htext (by decide)

end VegaRevenue.Intelligence.SignalIdentity

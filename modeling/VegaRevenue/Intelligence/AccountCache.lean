import VegaRevenue.Intelligence.ResearchEngine
import VegaRevenue.Lib.JoinedText
import VegaRevenue.Lib.Machine

/-!
# The cache of discovered accounts

`discoverAccounts` looks for the answer of a query under a key, and asks the provider where there
is none. The rows are those of one tenant and workspace.

* `cacheKey_iff` — where equal keys are keys of equal queries
* `answered_iff` — where no cached answer is that of another query, in any run
-/

namespace VegaRevenue.Intelligence.AccountCache

open JoinedText

/-- The parts of a request that `discoverAccounts` reads, with `profile.hardFilters.industries`. -/
structure DiscoveryRequest where
  icpProfileId : String
  territories : Option (List String) := none
  maxResults : Option Nat := none
  industries : Option (List String) := none

structure AccountDiscoveryQuery where
  icpProfileId : String
  territories : Option (List String)
  industries : Option (List String)
  maxResults : Nat
deriving DecidableEq

namespace DiscoveryRequest

variable (r : DiscoveryRequest)

/-- What the provider is asked. -/
def query : AccountDiscoveryQuery :=
  { icpProfileId := r.icpProfileId
    territories := r.territories
    industries := r.industries
    maxResults := r.maxResults.getD 10 }

/-- `(request.territories ?? []).join(',')`. -/
def territoryText : String :=
  String.ofList (joined ',' ((r.territories.getD []).map String.toList))

def cacheKey : String :=
  "accounts:" ++ r.icpProfileId ++ ":" ++ r.territoryText ++ ":" ++ toString (r.maxResults.getD 10)

end DiscoveryRequest

/-! ## The cache -/

structure CacheEntry where
  value : List AccountCandidate
  cachedAt : Date
  expiresAt : Date
  providerId : String
  queryHash : String

abbrev Cache := List (String × CacheEntry)

def Cache.get (cache : Cache) (now : Date) (queryHash : String) : Option CacheEntry :=
  (cache.find? fun row => row.1 = queryHash && now < row.2.expiresAt).map Prod.snd

def Cache.set (cache : Cache) (queryHash : String) (entry : CacheEntry) : Cache :=
  (queryHash, entry) :: cache.filter (·.1 ≠ queryHash)

/-- A call, with the rate limit and the answer of the provider, or the error it throws. -/
structure Call where
  request : DiscoveryRequest
  providerId : String
  now : Date
  allowed : Bool
  answer : Except String (List AccountCandidate)

def discoverAccounts : Machine.Step Cache Call (Except String (List AccountCandidate)) :=
  fun cache call =>
    match cache.get call.now call.request.cacheKey with
    | some cached => (cache, .ok cached.value)
    | none =>
      if call.allowed then
        match call.answer with
        | .error message => (cache, .error message)
        | .ok candidates =>
          (cache.set call.request.cacheKey
            { value := candidates
              cachedAt := call.now
              expiresAt := call.now + 24 * 60 * 60 * 1000
              providerId := call.providerId
              queryHash := call.request.cacheKey }, .ok candidates)
      else (cache, .error ("Rate limit exceeded for provider " ++ call.providerId))

/-! ## Keys and queries -/

/-- What the key joins. -/
def DiscoveryRequest.parts (r : DiscoveryRequest) : List (List Char) :=
  [r.icpProfileId.toList, r.territoryText.toList, (toString (r.maxResults.getD 10)).toList]

theorem cacheKey_toList (r : DiscoveryRequest) :
    r.cacheKey.toList = "accounts:".toList ++ joined ':' r.parts := by
  have hcolon : ":".toList = [':'] := rfl
  simp only [DiscoveryRequest.cacheKey, DiscoveryRequest.parts, joined, String.toList_append,
    hcolon, List.append_assoc, List.cons_append, List.nil_append]

theorem cacheKey_eq_iff (r s : DiscoveryRequest) :
    r.cacheKey = s.cacheKey ↔ pieces ':' r.parts = pieces ':' s.parts := by
  rw [← String.toList_inj, cacheKey_toList, cacheKey_toList, List.append_right_inj]
  exact joined_eq_iff (List.cons_ne_nil _ _) (List.cons_ne_nil _ _)

/-- The territories without their letters: whether they are given, how many, and how many commas
each has. -/
def DiscoveryRequest.shape (r : DiscoveryRequest) : Option (List Nat) :=
  r.territories.map (·.map (·.toList.count ','))

/-- Two requests whose keys have the same pieces have the same colons in the profile id, territories
of the same shape and the same industries. -/
def Distinguished (r s : DiscoveryRequest) : Prop :=
  pieces ':' r.parts = pieces ':' s.parts →
    r.icpProfileId.toList.count ':' = s.icpProfileId.toList.count ':' ∧ r.shape = s.shape ∧
      r.industries = s.industries

/-- Territories of one shape are told by their text. -/
theorem territories_eq {r s : DiscoveryRequest} (hshape : r.shape = s.shape)
    (htext : r.territoryText = s.territoryText) : r.territories = s.territories := by
  unfold DiscoveryRequest.territoryText at htext
  have hjoined := String.ofList_injective htext
  unfold DiscoveryRequest.shape at hshape
  cases hr : r.territories with
  | none =>
    rw [hr] at hshape
    exact (Option.map_eq_none_iff.mp hshape.symm).symm
  | some t =>
    cases hs : s.territories with
    | none =>
      rw [hr, hs] at hshape
      cases hshape
    | some u =>
      rw [hr, hs] at hshape hjoined
      have hcounts : t.map (·.toList.count ',') = u.map (·.toList.count ',') := Option.some.inj hshape
      have hparts : t.map String.toList = u.map String.toList :=
        eq_of_joined (by rw [List.map_map, List.map_map]; exact hcounts) hjoined
      rw [List.map_injective_iff.mpr (fun _ _ => String.toList_inj.mp) hparts]

/-- **Equal keys are keys of equal queries iff the two requests are distinguished.** -/
theorem cacheKey_iff (r s : DiscoveryRequest) :
    (r.cacheKey = s.cacheKey → r.query = s.query) ↔ Distinguished r s := by
  unfold Distinguished
  rw [cacheKey_eq_iff]
  refine forall_congr' fun hpieces => ⟨fun h => ?_, fun ⟨hcolons, hshape, hindustries⟩ => ?_⟩
  · obtain ⟨hid, hterritories, hindustries, -⟩ := AccountDiscoveryQuery.mk.inj h
    have hshape : r.shape = s.shape := congrArg (Option.map _) hterritories
    exact ⟨by rw [hid], hshape, hindustries⟩
  · have hjoined := (joined_eq_iff (List.cons_ne_nil _ _) (List.cons_ne_nil _ _)).mpr hpieces
    obtain ⟨hid, hrest⟩ := append_cons_inj hcolons hjoined
    -- the limit has no colon, so the territories have as many in both
    have hlimit : ∀ n : Nat, (toString n).toList.count ':' = 0 := count_toString (by decide)
    have hcount : r.territoryText.toList.count ':' = s.territoryText.toList.count ':' := by
      have htotal : (r.territoryText.toList ++ ':' ::
            (toString (r.maxResults.getD 10)).toList).count ':' =
          (s.territoryText.toList ++ ':' :: (toString (s.maxResults.getD 10)).toList).count ':' :=
        congrArg (List.count ':') hrest
      rw [List.count_append, List.count_append, List.count_cons_self, List.count_cons_self, hlimit,
        hlimit] at htotal
      exact Nat.add_right_cancel htotal
    obtain ⟨htext, hnumber⟩ := append_cons_inj hcount hrest
    unfold DiscoveryRequest.query
    rw [String.toList_inj.mp hid, territories_eq hshape (String.toList_inj.mp htext), hindustries,
      toString_inj hnumber]

/-! ## Runs -/

/-- The answer of the call, if any, is what the provider gave for its query, then or before. -/
def Answered (h : List Call) (call : Call) : Prop :=
  ∀ candidates, (discoverAccounts (Machine.final discoverAccounts [] h) call).2 = .ok candidates →
    ∃ asked ∈ h ++ [call], asked.request.query = call.request.query ∧
      asked.answer = .ok candidates

/-- Every row was answered to a call with its key. -/
def Filled (h : List Call) (cache : Cache) : Prop :=
  ∀ row ∈ cache, ∃ asked ∈ h, asked.request.cacheKey = row.1 ∧ asked.answer = .ok row.2.value

theorem Cache.get_mem {cache : Cache} {now : Date} {key : String} {entry : CacheEntry}
    (h : cache.get now key = some entry) : (key, entry) ∈ cache := by
  obtain ⟨row, hfind, rfl⟩ := Option.map_eq_some_iff.mp h
  have hfound := List.find?_some hfind
  rw [Bool.and_eq_true, decide_eq_true_iff] at hfound
  rw [← hfound.1]
  exact List.mem_of_find?_eq_some hfind

theorem Filled.mono {h h' : List Call} {cache : Cache} (hsub : h ⊆ h') (hf : Filled h cache) :
    Filled h' cache := by
  intro row hrow
  obtain ⟨asked, hmem, hasked⟩ := hf row hrow
  exact ⟨asked, hsub hmem, hasked⟩

theorem discoverAccounts_filled {h : List Call} {cache : Cache} (hf : Filled h cache)
    (call : Call) : Filled (h ++ [call]) (discoverAccounts cache call).1 := by
  have hkept := hf.mono (List.subset_append_left h [call])
  unfold discoverAccounts
  split
  · exact hkept
  · split
    · split
      · exact hkept
      next candidates hanswer =>
        intro row hrow
        rcases List.mem_cons.mp hrow with rfl | hrow
        · exact ⟨call, List.mem_append_right h List.mem_cons_self, rfl, hanswer⟩
        · exact hkept row (List.mem_filter.mp hrow).1
    · exact hkept

theorem filled_final (h : List Call) : Filled h (Machine.final discoverAccounts [] h) := by
  induction h using List.reverseRecOn with
  | nil => exact fun row hrow => absurd hrow List.not_mem_nil
  | append_singleton h call ih =>
    rw [Machine.final_concat]
    exact discoverAccounts_filled ih call

/-- An answer comes from the provider, or from the cache. -/
theorem discoverAccounts_ok {h : List Call} {cache : Cache} (hf : Filled h cache) {call : Call}
    {candidates : List AccountCandidate} (hok : (discoverAccounts cache call).2 = .ok candidates) :
    ∃ asked ∈ h ++ [call], asked.request.cacheKey = call.request.cacheKey ∧
      asked.answer = .ok candidates := by
  unfold discoverAccounts at hok
  split at hok
  next cached hget =>
    obtain ⟨asked, hmem, hkey, hanswer⟩ := hf _ (Cache.get_mem hget)
    rw [← Except.ok.inj hok]
    exact ⟨asked, List.mem_append_left _ hmem, hkey, hanswer⟩
  · split at hok
    · split at hok
      · cases hok
      next candidates' hanswer =>
        rw [← Except.ok.inj hok]
        exact ⟨call, List.mem_append_right h List.mem_cons_self, rfl, hanswer⟩
    · cases hok

def sampleCandidate : AccountCandidate := { providerAccountId := "a", name := "A" }

/-- A call is answered with what was found for another request with its key. -/
theorem second_cached {r s : DiscoveryRequest} (hkey : r.cacheKey = s.cacheKey) (providerId : String)
    (answer : Except String (List AccountCandidate)) :
    (discoverAccounts (Machine.final discoverAccounts []
      [⟨r, providerId, 0, true, .ok [sampleCandidate]⟩]) ⟨s, providerId, 1, true, answer⟩).2 =
        .ok [sampleCandidate] := by
  have hfirst : Machine.final discoverAccounts []
      [⟨r, providerId, 0, true, .ok [sampleCandidate]⟩] =
      [(r.cacheKey, ⟨[sampleCandidate], 0, 24 * 60 * 60 * 1000, providerId, r.cacheKey⟩)] := rfl
  rw [hfirst]
  unfold discoverAccounts
  simp [Cache.get, hkey]

/-- **In every run over some requests each answer is that of its own query, iff all of these are
distinguished from one another.** -/
theorem answered_iff (S : DiscoveryRequest → Prop) :
    (∀ h call, (∀ c ∈ h ++ [call], S c.request) → Answered h call) ↔
      ∀ r s, S r → S s → Distinguished r s := by
  constructor
  · intro h r s hr hs
    refine (cacheKey_iff r s).mp fun hkey => ?_
    -- the answer to `r` is still in the cache when `s` is asked
    have hrun := h [Call.mk r "p" 0 true (.ok [sampleCandidate])] ⟨s, "p", 1, true, .ok []⟩ fun c hc => by
      rcases List.mem_cons.mp hc with rfl | hc
      · exact hr
      · obtain rfl := List.mem_singleton.mp hc
        exact hs
    obtain ⟨asked, hasked, hquery, hanswer⟩ := hrun _ (second_cached hkey "p" (.ok []))
    rcases List.mem_cons.mp hasked with rfl | hasked
    · exact hquery
    · obtain rfl := List.mem_singleton.mp hasked
      cases hanswer
  · intro hS h call hmem candidates hok
    obtain ⟨asked, hasked, hkey, hanswer⟩ := discoverAccounts_ok (filled_final h) hok
    have hdistinguished := hS asked.request call.request (hmem asked hasked)
      (hmem call (List.mem_append_right h List.mem_cons_self))
    exact ⟨asked, hasked, (cacheKey_iff _ _).mpr hdistinguished hkey, hanswer⟩

end VegaRevenue.Intelligence.AccountCache

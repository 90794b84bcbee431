import VegaRevenue.Lib.Versioned

/-!
# Copies of a row that other writers move on

`π` is a part of the payload that never changes without the version (a status), `φ` a part that
never changes (an owner, a key). A row evolves when it is saved by a copy; what a copy knows of its
row is stable while the row evolves.

* `Row.Evolves` — a row moves on, within a preorder `ok` on `π`
* `Copy.evolve` — a copy stays a copy
* `Copy.swap` — a swap by a copy makes the row evolve and leaves a copy of the new row
-/

namespace Versioned

variable {σ τ ρ ε : Type*} {π : σ → τ} {φ : σ → ρ} {ok : τ → τ → Prop}

/-- `r'` is `r` after any number of saves. -/
structure Row.Evolves (π : σ → τ) (φ : σ → ρ) (ok : τ → τ → Prop) (r r' : Row σ) : Prop where
  version_le : r.version ≤ r'.version
  same : r'.version = r.version → π r'.payload = π r.payload
  fixed : φ r'.payload = φ r.payload
  moves : ok (π r.payload) (π r'.payload)

/-- The row is still the one the copy was loaded from, or last saved as. -/
def Fresh (r : Row σ) (a : Aggregate σ ε) : Prop := a.loadedVersion = some r.version

instance (r : Row σ) (a : Aggregate σ ε) : Decidable (Fresh r a) :=
  inferInstanceAs (Decidable (_ = _))

/-- The copy was loaded from the row, maybe long ago, and moved its version where it changed `π`. -/
structure Copy (π : σ → τ) (φ : σ → ρ) (r : Row σ) (a : Aggregate σ ε) : Prop where
  loaded : ∃ v, a.loadedVersion = some v ∧ v ≤ r.version ∧ v ≤ a.version
  same : Fresh r a → a.version = r.version → π a.state = π r.payload
  fixed : φ a.state = φ r.payload

theorem Row.Evolves.refl (hok : ∀ t, ok t t) (r : Row σ) : r.Evolves π φ ok r :=
  ⟨Nat.le_refl _, fun _ => rfl, rfl, hok _⟩

/-- A fresh copy of an evolved row was fresh before, and the row has not moved. -/
theorem Fresh.of_evolves {r r' : Row σ} {a : Aggregate σ ε} (h : Copy π φ r a)
    (he : r.Evolves π φ ok r') (hf : Fresh r' a) : Fresh r a ∧ r'.version = r.version := by
  obtain ⟨v, hv, hle, -⟩ := h.loaded
  have hv' : v = r'.version := Option.some.inj (hv.symm.trans hf)
  have heq : r'.version = r.version := by
    have := he.version_le
    omega
  exact ⟨hf.trans (congrArg some heq), heq⟩

/-- What a fresh copy knows of `π` stays known. -/
theorem Fresh.evolve {r r' : Row σ} {a : Aggregate σ ε} {Q : τ → Prop} (h : Copy π φ r a)
    (he : r.Evolves π φ ok r') (hQ : Fresh r a → Q (π r.payload)) (hf : Fresh r' a) :
    Q (π r'.payload) := by
  obtain ⟨hold, heq⟩ := Fresh.of_evolves h he hf
  rw [he.same heq]
  exact hQ hold

namespace Copy

/-- A load makes a copy. -/
theorem load {r : Row σ} {s : σ} (hπ : π s = π r.payload) (hφ : φ s = φ r.payload) :
    Copy π φ r (Aggregate.reconstitute s r.version : Aggregate σ ε) :=
  ⟨⟨r.version, rfl, Nat.le_refl _, Nat.le_refl _⟩, fun _ _ => hπ, hφ⟩

theorem evolve {r r' : Row σ} {a : Aggregate σ ε} (h : Copy π φ r a)
    (he : r.Evolves π φ ok r') : Copy π φ r' a := by
  obtain ⟨v, hv, hle, hva⟩ := h.loaded
  refine ⟨⟨v, hv, Nat.le_trans hle he.version_le, hva⟩, ?_, h.fixed.trans he.fixed.symm⟩
  intro hf hver
  obtain ⟨hold, heq⟩ := Fresh.of_evolves h he hf
  rw [he.same heq]
  exact h.same hold (hver.trans heq)

/-- An operation that changes `π` only together with the version keeps a copy. -/
theorem op {r : Row σ} {a b : Aggregate σ ε} (h : Copy π φ r a)
    (hl : b.loadedVersion = a.loadedVersion) (hv : a.version ≤ b.version)
    (hπ : b.version = a.version → π b.state = π a.state) (hφ : φ b.state = φ a.state) :
    Copy π φ r b := by
  obtain ⟨v, hv', hle, hva⟩ := h.loaded
  refine ⟨⟨v, hl.trans hv', hle, Nat.le_trans hva hv⟩, ?_, hφ.trans h.fixed⟩
  intro hf hver
  have hfa : Fresh r a := hl.symm.trans hf
  obtain rfl : v = r.version := Option.some.inj (hv'.symm.trans hfa)
  have heq : b.version = a.version := by omega
  rw [hπ heq]
  exact h.same hfa (by omega)

/-- A save by a copy makes the row evolve, and leaves a copy of the new row. -/
theorem swap {r r' : Row σ} {a : Aggregate σ ε} (h : Copy π φ r a)
    (hok : Fresh r a → ok (π r.payload) (π a.state)) (hs : r.swap a = some r') :
    r.Evolves π φ ok r' ∧ Copy π φ r' (a.setVersion a.version) ∧
      r' = ⟨a.state, a.version⟩ ∧ Fresh r a := by
  unfold Row.swap at hs
  split at hs
  next hf =>
    cases hs
    obtain ⟨v, hv, hle, hva⟩ := h.loaded
    obtain rfl : v = r.version := Option.some.inj (hv.symm.trans hf)
    exact ⟨⟨hva, fun heq => h.same hf heq, h.fixed, hok hf⟩,
      ⟨⟨a.version, rfl, Nat.le_refl _, Nat.le_refl _⟩, fun _ _ => rfl, rfl⟩, rfl, hf⟩
  · cases hs

end Copy

end Versioned

import Mathlib.Data.List.Nodup
import Mathlib.Data.List.Perm.Subperm
import Mathlib.Logic.Relation

/-!
# Depth-first search for a cycle

`succ` lists the successors of a node. A visit fails at a node it is still inside of, skips one it
has finished, and otherwise visits the successors before it finishes the node. Every node below the
fuel is on the stack, so that fuel for one node more than there are always suffices.

* `visitAll_isSome_iff` — the search succeeds iff no node reaches itself
* `search_total`, `Search.unique` — the search without fuel ends, with one result
-/

namespace DepthFirst

variable {α : Type*} (succ : α → List α)

/-- Visits a node inside the nodes of `stack`; the finished nodes, or `none` for a cycle. -/
def visit [DecidableEq α] : Nat → List α → List α → α → Option (List α)
  | 0, _, _, _ => none
  | fuel + 1, stack, finished, x =>
    if x ∈ stack then none
    else if x ∈ finished then some finished
    else ((succ x).foldlM (visit fuel (x :: stack)) finished).map (x :: ·)

/-- Visits the nodes of a list one after the other. -/
def visitAll [DecidableEq α] (fuel : Nat) (nodes : List α) : Option (List α) :=
  nodes.foldlM (visit succ fuel []) []

/-- There is an edge from `x` to `y`. -/
def Edge (x y : α) : Prop := y ∈ succ x

/-- No node reaches itself. -/
def Acyclic : Prop := ∀ x, ¬ Relation.TransGen (Edge succ) x x

/-! ## What a visit finishes -/

/-- A list in which every node comes before its successors, which are all in it. -/
inductive Finished : List α → Prop where
  | nil : Finished []
  | cons {x : α} {l : List α} (hx : x ∉ l) (hs : succ x ⊆ l) (hl : Finished l) : Finished (x :: l)

section

variable {succ} {fuel : Nat} {stack finished finished' : List α} {x y : α}

theorem Finished.edge (h : Finished succ finished) (hx : x ∈ finished) (hy : Edge succ x y) :
    y ∈ finished := by
  induction h with
  | nil => cases hx
  | cons _ hs _ ih =>
    rcases List.mem_cons.mp hx with rfl | hx
    · exact List.mem_cons_of_mem _ (hs hy)
    · exact List.mem_cons_of_mem _ (ih hx)

/-- What is reached from a finished node is finished. -/
theorem Finished.closed (h : Finished succ finished) (hx : x ∈ finished)
    (hr : Relation.TransGen (Edge succ) x y) : y ∈ finished := by
  induction hr with
  | single hy => exact h.edge hx hy
  | tail _ hy ih => exact h.edge ih hy

/-- No finished node reaches itself. -/
theorem Finished.acyclic (h : Finished succ finished) (hx : x ∈ finished) :
    ¬ Relation.TransGen (Edge succ) x x := by
  induction h with
  | nil => cases hx
  | cons hnot hs hl ih =>
    intro hr
    rcases List.mem_cons.mp hx with rfl | hx
    · -- the first step leads into the rest, which the path never leaves
      obtain ⟨y, hy, hyx⟩ := Relation.TransGen.head'_iff.mp hr
      rcases Relation.reflTransGen_iff_eq_or_transGen.mp hyx with rfl | hyx
      · exact hnot (hs hy)
      · exact hnot (hl.closed (hs hy) hyx)
    · exact ih hx hr

/-- A visit that succeeds finishes the node, and nothing of the stack. -/
structure Visited (succ : α → List α) (stack finished finished' : List α) : Prop where
  order : Finished succ finished'
  grows : finished ⊆ finished'
  apart : ∀ s ∈ stack, s ∈ finished' → s ∈ finished

theorem Visited.trans {finished'' : List α} (h : Visited succ stack finished finished')
    (h' : Visited succ stack finished' finished'') : Visited succ stack finished finished'' :=
  ⟨h'.order, fun _ ha => h'.grows (h.grows ha), fun s hs ha => h.apart s hs (h'.apart s hs ha)⟩

/-- Visits of a list, from what one visit does. -/
theorem visited_foldlM (stack : List α) {f : List α → α → Option (List α)}
    (hf : ∀ g g' y, Finished succ g → f g y = some g' → Visited succ stack g g' ∧ y ∈ g')
    {nodes : List α} :
    ∀ {finished}, Finished succ finished → nodes.foldlM f finished = some finished' →
      Visited succ stack finished finished' ∧ nodes ⊆ finished' := by
  induction nodes with
  | nil =>
    intro finished h hr
    obtain rfl : finished = finished' := Option.some.inj hr
    exact ⟨⟨h, fun _ ha => ha, fun _ _ ha => ha⟩, List.nil_subset _⟩
  | cons y nodes ih =>
    intro finished h hr
    rw [List.foldlM_cons] at hr
    obtain ⟨finished₁, h₁, hr⟩ := Option.bind_eq_some_iff.mp hr
    obtain ⟨hv, hy⟩ := hf finished finished₁ y h h₁
    obtain ⟨hv', hnodes⟩ := ih hv.order hr
    exact ⟨hv.trans hv', List.cons_subset.mpr ⟨hv'.grows hy, hnodes⟩⟩

theorem visited_visit [DecidableEq α] : ∀ {fuel stack finished finished' x}, Finished succ finished →
    visit succ fuel stack finished x = some finished' →
    Visited succ stack finished finished' ∧ x ∈ finished' := by
  intro fuel
  induction fuel with
  | zero => intro stack finished finished' x _ hr; cases hr
  | succ fuel ih =>
    intro stack finished finished' x h hr
    rw [visit] at hr
    split at hr
    · cases hr
    next hstack =>
      split at hr
      next hx =>
        obtain rfl : finished = finished' := Option.some.inj hr
        exact ⟨⟨h, fun _ ha => ha, fun _ _ ha => ha⟩, hx⟩
      next hx =>
        obtain ⟨finished₁, hfold, rfl⟩ := Option.map_eq_some_iff.mp hr
        obtain ⟨hv, hsucc⟩ := visited_foldlM _ (fun _ _ _ hg hy => ih hg hy) h hfold
        have hnot : x ∉ finished₁ := fun hmem => hx (hv.apart x List.mem_cons_self hmem)
        refine ⟨⟨.cons hnot hsucc hv.order, fun _ ha => List.mem_cons_of_mem _ (hv.grows ha),
          fun s hs ha => ?_⟩, List.mem_cons_self⟩
        rcases List.mem_cons.mp ha with rfl | ha
        · exact absurd hs hstack
        · exact hv.apart s (List.mem_cons_of_mem _ hs) ha

/-! ## Why a visit fails -/

theorem foldlM_eq_none {f : List α → α → Option (List α)} {nodes : List α} :
    ∀ {finished}, nodes.foldlM f finished = none → ∃ finished', ∃ y ∈ nodes, f finished' y = none := by
  induction nodes with
  | nil => intro finished hr; cases hr
  | cons y nodes ih =>
    intro finished hr
    rw [List.foldlM_cons] at hr
    cases hy : f finished y with
    | none => exact ⟨finished, y, List.mem_cons_self, hy⟩
    | some finished₁ =>
      rw [hy, Option.bind_eq_bind, Option.bind_some] at hr
      obtain ⟨finished', z, hz, hf⟩ := ih hr
      exact ⟨finished', z, List.mem_cons_of_mem _ hz, hf⟩

/-- With fuel for the nodes that are not on the stack, a visit fails only at a node that reaches
itself. -/
theorem cycle_of_visit [DecidableEq α] {nodes : List α} (hsucc : ∀ x ∈ nodes, succ x ⊆ nodes) :
    ∀ {fuel stack finished x}, nodes.length + 1 ≤ fuel + stack.length → stack.Nodup →
      stack ⊆ nodes → x ∈ nodes → (∀ s ∈ stack, Relation.TransGen (Edge succ) s x) →
      visit succ fuel stack finished x = none → ∃ z, Relation.TransGen (Edge succ) z z := by
  intro fuel
  induction fuel with
  | zero =>
    intro stack finished x hfuel hnodup hsub _ _ _
    have hle := (List.subperm_of_subset hnodup hsub).length_le
    omega
  | succ fuel ih =>
    intro stack finished x hfuel hnodup hsub hx hreach hr
    rw [visit] at hr
    split at hr
    next hstack => exact ⟨x, hreach x hstack⟩
    next hstack =>
      split at hr
      · cases hr
      · rw [Option.map_eq_none_iff] at hr
        obtain ⟨finished', y, hy, hr⟩ := foldlM_eq_none hr
        refine ih ?_ (List.nodup_cons.mpr ⟨hstack, hnodup⟩)
          (List.cons_subset.mpr ⟨hx, hsub⟩) (hsucc x hx hy) (fun s hs => ?_) hr
        · rw [List.length_cons]
          omega
        · rcases List.mem_cons.mp hs with rfl | hs
          · exact .single hy
          · exact (hreach s hs).tail hy

end

/-! ## The search without fuel -/

/-- A run of the search over the nodes of a list, as deep as it goes: a visit that does not end has
none. -/
inductive Search : List α → List α → List α → Option (List α) → Prop where
  | done {stack finished : List α} : Search stack finished [] (some finished)
  | cycle {stack finished nodes : List α} {x : α} (hstack : x ∈ stack) :
      Search stack finished (x :: nodes) none
  | skip {stack finished nodes : List α} {x : α} {r : Option (List α)} (hstack : x ∉ stack)
      (hx : x ∈ finished) (hrest : Search stack finished nodes r) :
      Search stack finished (x :: nodes) r
  | failed {stack finished nodes : List α} {x : α} (hstack : x ∉ stack) (hx : x ∉ finished)
      (hinner : Search (x :: stack) finished (succ x) none) :
      Search stack finished (x :: nodes) none
  | visited {stack finished finished' nodes : List α} {x : α} {r : Option (List α)}
      (hstack : x ∉ stack) (hx : x ∉ finished)
      (hinner : Search (x :: stack) finished (succ x) (some finished'))
      (hrest : Search stack (x :: finished') nodes r) : Search stack finished (x :: nodes) r

section

variable {succ} {stack finished nodes : List α} {r r' : Option (List α)}

/-- **A search has one result.** -/
theorem Search.unique (h : Search succ stack finished nodes r)
    (h' : Search succ stack finished nodes r') : r = r' := by
  induction h generalizing r' with
  | done => cases h' with
    | done => rfl
  | cycle hstack => cases h' with
    | cycle => rfl
    | skip hnot _ _ => exact absurd hstack hnot
    | failed hnot _ _ => exact absurd hstack hnot
    | visited hnot _ _ _ => exact absurd hstack hnot
  | skip hstack hx _ ih => cases h' with
    | cycle hmem => exact absurd hmem hstack
    | skip _ _ hrest => exact ih hrest
    | failed _ hnot _ => exact absurd hx hnot
    | visited _ hnot _ _ => exact absurd hx hnot
  | failed hstack hx _ ih => cases h' with
    | cycle hmem => exact absurd hmem hstack
    | skip _ hmem _ => exact absurd hmem hx
    | failed _ _ _ => rfl
    | visited _ _ hinner _ => cases ih hinner
  | visited hstack hx _ _ ih ihrest => cases h' with
    | cycle hmem => exact absurd hmem hstack
    | skip _ hmem _ => exact absurd hmem hx
    | failed _ _ hinner => cases ih hinner
    | visited _ _ hinner hrest =>
      cases ih hinner
      exact ihrest hrest

/-- With fuel for the nodes that are not on the stack, the visits are those of the search. -/
theorem search_foldlM [DecidableEq α] {all : List α} (hsucc : ∀ x ∈ all, succ x ⊆ all) :
    ∀ {fuel stack}, all.length + 1 ≤ fuel + stack.length → stack.Nodup → stack ⊆ all →
      ∀ {nodes finished}, nodes ⊆ all →
        Search succ stack finished nodes (nodes.foldlM (visit succ fuel stack) finished) := by
  intro fuel
  induction fuel with
  | zero =>
    intro stack hfuel hnodup hsub
    have hle := (List.subperm_of_subset hnodup hsub).length_le
    omega
  | succ fuel ih =>
    intro stack hfuel hnodup hsub nodes
    induction nodes with
    | nil =>
      intro finished _
      exact .done
    | cons x nodes ihrest =>
      intro finished hnodes
      obtain ⟨hx, hnodes⟩ := List.cons_subset.mp hnodes
      rw [List.foldlM_cons, visit]
      by_cases hstack : x ∈ stack
      · rw [if_pos hstack]
        exact .cycle hstack
      · rw [if_neg hstack]
        by_cases hfinished : x ∈ finished
        · rw [if_pos hfinished]
          exact .skip hstack hfinished (ihrest hnodes)
        · rw [if_neg hfinished]
          have hinner : Search succ (x :: stack) finished (succ x)
              ((succ x).foldlM (visit succ fuel (x :: stack)) finished) := by
            refine ih ?_ (List.nodup_cons.mpr ⟨hstack, hnodup⟩)
              (List.cons_subset.mpr ⟨hx, hsub⟩) (hsucc x hx)
            rw [List.length_cons]
            omega
          cases hvisit : (succ x).foldlM (visit succ fuel (x :: stack)) finished with
          | none =>
            rw [hvisit] at hinner
            exact .failed hstack hfinished hinner
          | some finished' =>
            rw [hvisit] at hinner
            exact .visited hstack hfinished hinner (ihrest hnodes)

/-- **The search ends**, and with fuel for one node more than there are it is `visitAll`. -/
theorem search_total [DecidableEq α] (hsucc : ∀ x ∈ nodes, succ x ⊆ nodes) :
    Search succ [] [] nodes (visitAll succ (nodes.length + 1) nodes) :=
  search_foldlM hsucc (by simp) List.nodup_nil (List.nil_subset _) (List.Subset.refl _)

end

/-- **The search succeeds iff no node reaches itself.** -/
theorem visitAll_isSome_iff [DecidableEq α] {nodes : List α} {fuel : Nat}
    (hsucc : ∀ x ∈ nodes, succ x ⊆ nodes) (houtside : ∀ x, x ∉ nodes → succ x = [])
    (hfuel : nodes.length + 1 ≤ fuel) :
    (visitAll succ fuel nodes).isSome ↔ Acyclic succ := by
  constructor
  · intro h x hr
    obtain ⟨finished, hf⟩ := Option.isSome_iff_exists.mp h
    obtain ⟨hv, hnodes⟩ := visited_foldlM [] (fun _ _ _ hg hy => visited_visit hg hy) Finished.nil hf
    by_cases hx : x ∈ nodes
    · exact hv.order.acyclic (hnodes hx) hr
    · obtain ⟨y, hy, -⟩ := Relation.TransGen.head'_iff.mp hr
      rw [Edge, houtside x hx] at hy
      cases hy
  · intro h
    rw [Option.isSome_iff_ne_none]
    intro hnone
    obtain ⟨finished, x, hx, hr⟩ := foldlM_eq_none hnone
    obtain ⟨z, hz⟩ := cycle_of_visit hsucc (by simpa using hfuel) List.nodup_nil
      (List.nil_subset _) hx (fun s hs => by cases hs) hr
    exact h z hz

end DepthFirst

import Mathlib
import RoutineFlow.Program.Basic

/-!
Routines refer to others by name: the graph of these references, and the names that it leads to from the main
routine. A name without a routine is one of them, and refers to nothing.
-/

namespace RoutineFlow

def Body.references : Body → List Value
  | .branch _ whenTrue whenFalse => [whenTrue, whenFalse].filter fun target => !target.isEmpty
  | .compose names | .join names => names.map .str
  | _ => []

theorem Body.taken_mem_references {condition whenTrue whenFalse : Value} {taken : Bool}
    (h : (if taken then whenTrue else whenFalse).isEmpty = false) :
    (if taken then whenTrue else whenFalse) ∈ (Body.branch condition whenTrue whenFalse).references := by
  refine List.mem_filter.mpr ⟨?_, by rw [h]; rfl⟩
  cases taken
  · exact List.mem_cons_of_mem _ List.mem_cons_self
  · exact List.mem_cons_self

namespace Program

variable {p : Program} {name target : Value}

def Refers (p : Program) (name target : Value) : Prop :=
  ∃ r, p.find? name = some r ∧ target ∈ r.body.references

def Reachable (p : Program) : Value → Prop :=
  Relation.ReflTransGen p.Refers p.main

def reachable (p : Program) : Set Value :=
  {name | p.Reachable name}

/-- No name that can be reached leads back to itself. -/
def Acyclic (p : Program) : Prop :=
  ∀ name, p.Reachable name → ¬Relation.TransGen p.Refers name name

theorem refers_of_listed {r : Routine} {names : List String} {listed : String} (hfound : p.find? name = some r)
    (hbody : r.body = .compose names ∨ r.body = .join names) (hlisted : listed ∈ names) :
    p.Refers name (.str listed) := by
  refine ⟨r, hfound, ?_⟩
  obtain hbody | hbody := hbody
  · rw [hbody]
    exact List.mem_map_of_mem hlisted
  · rw [hbody]
    exact List.mem_map_of_mem hlisted

theorem mem_of_find? {r : Routine} (h : p.find? name = some r) : ∃ n, name = .str n ∧ (n, r) ∈ p.routines := by
  cases name with
  | str n =>
    obtain ⟨before, after, hroutines, -⟩ := List.lookup_eq_some_iff.mp h
    refine ⟨n, rfl, ?_⟩
    rw [hroutines]
    exact List.mem_append_right _ List.mem_cons_self
  | _ => cases h

/-- The names that the program refers to anywhere, the main one first. -/
def mentions (p : Program) : List Value :=
  p.main :: p.routines.flatMap fun entry => entry.2.body.references

theorem reachable_subset (p : Program) : p.reachable ⊆ {name | name ∈ p.mentions} := by
  intro name hname
  cases hname with
  | refl => exact List.mem_cons_self
  | tail _ hrefers =>
    obtain ⟨r, hfound, htarget⟩ := hrefers
    obtain ⟨n, -, hmem⟩ := mem_of_find? hfound
    exact List.mem_cons_of_mem _ (List.mem_flatMap.mpr ⟨(n, r), hmem, htarget⟩)

theorem reachable_finite (p : Program) : p.reachable.Finite :=
  p.mentions.finite_toSet.subset p.reachable_subset

theorem ncard_reachable_le (p : Program) : p.reachable.ncard ≤ p.mentions.length := by
  classical
  have hmentions : {name | name ∈ p.mentions} = (p.mentions.toFinset : Set Value) := by
    ext name
    simp
  have hcard := Set.ncard_le_ncard p.reachable_subset p.mentions.finite_toSet
  rw [hmentions, Set.ncard_coe_finset] at hcard
  exact hcard.trans p.mentions.toFinset_card_le

theorem acyclic_of_rank (rank : Value → ℕ)
    (h : ∀ entry ∈ p.routines, ∀ target ∈ entry.2.body.references, rank target < rank (.str entry.1)) :
    p.Acyclic := by
  have hrefers : ∀ name target, p.Refers name target → rank target < rank name := by
    rintro name target ⟨r, hfound, htarget⟩
    obtain ⟨n, rfl, hmem⟩ := mem_of_find? hfound
    exact h (n, r) hmem target htarget
  have hleads : ∀ name target, Relation.TransGen p.Refers name target → rank target < rank name := by
    intro name target hleads
    induction hleads with
    | single hstep => exact hrefers _ _ hstep
    | tail _ hstep ih => exact (hrefers _ _ hstep).trans ih
  intro name _ hloop
  exact (hleads name name hloop).false

/-- A path from the main routine meets no name twice, so it is no longer than there are names. -/
theorem Acyclic.length_le_ncard (hacyclic : p.Acyclic) {names : List Value}
    (hpath : (p.main :: names).IsChain p.Refers) : (p.main :: names).length ≤ p.reachable.ncard := by
  classical
  have hpairs : (p.main :: names).Pairwise (Relation.TransGen p.Refers) :=
    (hpath.imp fun _ _ => Relation.TransGen.single).pairwise
  have hreachable : ∀ name ∈ p.main :: names, p.Reachable name := by
    intro name hname
    obtain rfl | hname := List.mem_cons.mp hname
    · exact Relation.ReflTransGen.refl
    · exact ((List.pairwise_cons.mp hpairs).1 name hname).to_reflTransGen
  have hnodup : (p.main :: names).Nodup := by
    apply hpairs.imp_of_mem
    rintro name target hname - hleads rfl
    exact hacyclic name (hreachable name hname) hleads
  have hsubset : ((p.main :: names).toFinset : Set Value) ⊆ p.reachable := by
    intro name hname
    exact hreachable name (List.mem_toFinset.mp hname)
  rw [← List.toFinset_card_of_nodup hnodup, ← Set.ncard_coe_finset]
  exact Set.ncard_le_ncard hsubset p.reachable_finite

end Program

end RoutineFlow

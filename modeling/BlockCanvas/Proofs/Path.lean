import Mathlib.Data.Fintype.Card
import Mathlib.Data.Set.Finite.List
import Mathlib.Logic.Relation
namespace BlockCanvas
open Relation

variable {step larger : String → String → Prop} {allowed : List String}

-- No way along the steps leads from an id back to it.
def Acyclic (step : String → String → Prop) : Prop :=
  ∀ id, ¬ TransGen step id id

theorem Acyclic.mono (acyclic : Acyclic larger) (part : ∀ first second, step first second → larger first second) :
    Acyclic step := by
  intro id cycle
  exact acyclic id (TransGen.mono part id id cycle)

-- A way that uses one additional step either avoids it or goes up to its start and on from its end.
theorem way_through (extended : ∀ first second, larger first second → step first second ∨ first = source ∧ second = target)
    (way : TransGen larger start goal) :
    TransGen step start goal ∨ ReflTransGen step start source ∧ ReflTransGen step target goal := by
  induction way with
  | single taken =>
      rcases extended _ _ taken with old | ⟨rfl, rfl⟩
      · exact Or.inl (.single old)
      · exact Or.inr ⟨.refl, .refl⟩
  | tail _ taken ih =>
      rcases extended _ _ taken with old | ⟨rfl, rfl⟩
      · rcases ih with before | ⟨before, after⟩
        · exact Or.inl (before.tail old)
        · exact Or.inr ⟨before, after.tail old⟩
      · rcases ih with before | ⟨before, _⟩
        · exact Or.inr ⟨before.to_reflTransGen, .refl⟩
        · exact Or.inr ⟨before, .refl⟩

-- A new step closes no cycle if its end did not lead to its start before.
theorem Acyclic.insert (acyclic : Acyclic step) (apart : ¬ ReflTransGen step target source)
    (extended : ∀ first second, larger first second → step first second ∨ first = source ∧ second = target) :
    Acyclic larger := by
  intro id cycle
  rcases way_through extended cycle with old | ⟨before, after⟩
  · exact acyclic id old
  · exact apart (after.trans before)

theorem Acyclic.ne (acyclic : Acyclic step) (taken : step first second) : first ≠ second := by
  intro equal
  subst second
  exact acyclic first (.single taken)

theorem Acyclic.swap (acyclic : Acyclic step) : Acyclic (Function.swap step) := by
  intro id cycle
  exact acyclic id (transGen_swap.mp cycle)

-- Steps that start at finitely many ids only can be followed backwards for finitely many steps only.
theorem Acyclic.founded (acyclic : Acyclic step) {ids : List String}
    (within : ∀ first second, step first second → first ∈ ids) : WellFounded step := by
  let Listed := { id : String // id ∈ ids }
  let Earlier : Listed → Listed → Prop := fun first second => TransGen step first.val second.val
  have : Finite Listed := List.finite_toSet ids
  have : IsTrans Listed Earlier := ⟨fun _ _ _ left right => left.trans right⟩
  have : Std.Irrefl Earlier := ⟨fun id cycle => acyclic id.val cycle⟩
  have founded : WellFounded Earlier := Finite.wellFounded_of_trans_of_irrefl Earlier
  have listed : ∀ id : Listed, Acc step id.val := by
    intro id
    induction id using founded.induction with
    | _ id ih => exact ⟨_, fun first taken => ih ⟨first, within _ _ taken⟩ (.single taken)⟩
  exact ⟨fun id => ⟨id, fun first taken => listed ⟨first, within _ _ taken⟩⟩⟩

-- Where every listed id has a step into it from a listed one, the steps run in a circle.
theorem Acyclic.eq_nil (acyclic : Acyclic step) {ids : List String}
    (entered : ∀ id ∈ ids, ∃ before ∈ ids, step before id) : ids = [] := by
  let Inside : String → String → Prop := fun first second => first ∈ ids ∧ step first second
  have inside : Acyclic Inside := acyclic.mono fun _ _ taken => taken.2
  have founded : WellFounded Inside := inside.founded fun _ _ taken => taken.1
  apply List.eq_nil_iff_forall_not_mem.mpr
  intro id
  induction id using founded.induction with
  | _ id ih =>
      intro member
      obtain ⟨before, listed, taken⟩ := entered id member
      exact ih before ⟨listed, taken⟩ listed

-- The ids that a search has not met.
def unmet (ids met : List String) : List String := ids.filter fun id => id ∉ met

theorem unmet_cons {ids : List String} (distinct : ids.Nodup) (id : String) (met : List String) :
    unmet ids (id :: met) = (unmet ids met).erase id := by
  unfold unmet
  rw [(distinct.filter _).erase_eq_filter, List.filter_filter]
  apply List.filter_congr
  intro other _
  by_cases same : other = id
  · simp [same]
  · simp [same]

theorem mem_unmet_iff {ids met : List String} {id : String} : id ∈ unmet ids met ↔ id ∈ ids ∧ id ∉ met := by
  simp [unmet]

theorem unmet_nil (ids : List String) : unmet ids [] = ids := by
  simp [unmet]

-- The steps that a search may still take: those that leave an id it has not yet left.
def Leaving (step : String → String → Prop) (allowed : List String) (first second : String) : Prop :=
  first ∈ allowed ∧ step first second

-- Once an id is left, a way either needs it no more or goes on from one of its successors.
theorem leave_once (id : String) (way : ReflTransGen (Leaving step allowed) start goal) :
    ReflTransGen (Leaving step (allowed.erase id)) start goal ∨
      ∃ next, step id next ∧ ReflTransGen (Leaving step (allowed.erase id)) next goal := by
  induction way using ReflTransGen.head_induction_on with
  | refl => exact Or.inl .refl
  | @head first second taken _ ih =>
      rcases ih with rest | through
      · by_cases same : first = id
        · subst first
          exact Or.inr ⟨second, taken.2, rest⟩
        · have kept : first ∈ allowed.erase id := (List.mem_erase_of_ne same).mpr taken.1
          exact Or.inl (.head ⟨kept, taken.2⟩ rest)
      · exact Or.inr through

theorem leave_start (apart : start ≠ goal) (way : ReflTransGen (Leaving step allowed) start goal) :
    start ∈ allowed ∧
      ∃ next, step start next ∧ ReflTransGen (Leaving step (allowed.erase start)) next goal := by
  rcases way.cases_head with same | ⟨second, taken, rest⟩
  · exact absurd same apart
  · refine ⟨taken.1, ?_⟩
    rcases leave_once start rest with direct | through
    · exact ⟨second, taken.2, direct⟩
    · exact through

end BlockCanvas

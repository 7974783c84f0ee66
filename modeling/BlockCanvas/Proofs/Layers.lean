import BlockCanvas.Proofs.Residue
import Mathlib.Order.Bounds.Basic
namespace BlockCanvas

-- A way of so many steps that ends at the id, wherever it starts.
inductive Trail (step : String → String → Prop) : Nat → String → Prop
  | start (id : String) : Trail step 0 id
  | onward {length : Nat} {source target : String} (before : Trail step length source)
      (taken : step source target) : Trail step (length + 1) target

-- The longest way that ends at the id has so many steps.
def Deep (step : String → String → Prop) (id : String) (depth : Nat) : Prop :=
  IsGreatest { length | Trail step length id } depth

namespace Deep
variable {step : String → String → Prop} {id source target : String} {depth : Nat}

theorem zero_iff : Deep step id 0 ↔ ∀ source, ¬step source id := by
  constructor
  · intro deep source taken
    have longer := deep.2 (Trail.onward (.start source) taken)
    omega
  · intro entered
    refine ⟨.start id, ?_⟩
    intro length trail
    cases trail with
    | start => exact Nat.le_refl 0
    | onward _ taken => exact absurd taken (entered _)

-- One step beyond the deepest of its sources.
theorem succ (deep : Deep step source depth) (taken : step source target)
    (others : ∀ other, step other target → ∃ lower ≤ depth, Deep step other lower) :
    Deep step target (depth + 1) := by
  refine ⟨.onward deep.1 taken, ?_⟩
  intro length trail
  cases trail with
  | start => exact Nat.zero_le _
  | onward before last =>
      obtain ⟨lower, bound, most⟩ := others _ last
      have shorter := most.2 before
      omega

end Deep

namespace EvaluationOrder
variable {id : String} {ids rest queue waiting now next : List String} {edges links : List Edge} {depth : Nat}

def Enters (links : List Edge) (source target : String) : Prop := (source, target) ∈ links

-- The queue holds the rest of one layer and behind it the free part of the next; no block that is placed
-- lies deeper than the first of the two.
structure Tiered (links : List Edge) (depth : Nat) (now next waiting : List String) : Prop where
  ready : Ready links (now ++ next) waiting
  near : ∀ id ∈ now, Deep (Enters links) id depth
  far : ∀ id ∈ next, Deep (Enters links) id (depth + 1)
  placed : ∀ source target, Enters links source target → source ∉ waiting →
    ∃ lower ≤ depth, Deep (Enters links) source lower

namespace Tiered

-- A layer that is used up gives way to the next one.
theorem descend (tiered : Tiered links depth [] next waiting) : Tiered links (depth + 1) next [] waiting := by
  refine ⟨by simpa using tiered.ready, tiered.far, List.forall_mem_nil _, ?_⟩
  intro source target enters gone
  obtain ⟨lower, bound, deep⟩ := tiered.placed source target enters gone
  exact ⟨lower, Nat.le_succ_of_le bound, deep⟩

-- The first block of the queue stands in a layer that has begun.
theorem front (tiered : Tiered links depth now next waiting) (first : now ++ next = id :: rest) :
    ∃ deeper others later, depth ≤ deeper ∧ rest = others ++ later ∧
      Tiered links deeper (id :: others) later waiting := by
  cases now with
  | cons head others =>
      obtain ⟨rfl, rfl⟩ := List.cons.inj first
      exact ⟨depth, others, next, Nat.le_refl depth, rfl, tiered⟩
  | nil =>
      have same : next = id :: rest := first
      subst same
      exact ⟨depth + 1, rest, [], Nat.le_succ depth, by simp, tiered.descend⟩

theorem skip (tiered : Tiered links depth (id :: now) next waiting) (absent : id ∉ waiting) :
    Tiered links depth now next waiting :=
  ⟨tiered.ready.skip absent, fun other member => tiered.near other (List.mem_cons_of_mem id member), tiered.far,
    tiered.placed⟩

-- What a block of the layer frees belongs to the next layer: all its other sources are placed already.
theorem step (tiered : Tiered links depth (id :: now) next waiting) :
    Tiered links depth now (next ++ freed links id (waiting.erase id)) (waiting.erase id) := by
  have here : Deep (Enters links) id depth := tiered.near id List.mem_cons_self
  have placed : ∀ source target, Enters links source target → source ∉ waiting.erase id →
      ∃ lower ≤ depth, Deep (Enters links) source lower := by
    intro source target enters gone
    by_cases same : source = id
    · subst source
      exact ⟨depth, Nat.le_refl depth, here⟩
    · exact tiered.placed source target enters fun held => gone ((List.mem_erase_of_ne same).mpr held)
  refine ⟨?_, fun other member => tiered.near other (List.mem_cons_of_mem id member), ?_, placed⟩
  · rw [← List.append_assoc]
    exact tiered.ready.place
  · intro target member
    rcases List.mem_append.mp member with later | opened
    · exact tiered.far target later
    · obtain ⟨enters, free⟩ := mem_freed.mp opened
      refine here.succ enters ?_
      intro other entering
      exact placed other target entering (isFree_iff.mp free (other, target) entering rfl)

end Tiered

def Ascending (step : String → String → Prop) (order : List String) : Prop :=
  order.Pairwise fun first second => ∀ before after, Deep step first before → Deep step second after → before ≤ after

-- Layer after layer: what comes later lies at least as deep.
theorem Tiered.run (tiered : Tiered links depth now next waiting) :
    (∀ id ∈ (drain links (now ++ next) waiting).order, ∃ deeper, depth ≤ deeper ∧ Deep (Enters links) id deeper) ∧
      Ascending (Enters links) (drain links (now ++ next) waiting).order := by
  generalize whole : now ++ next = queue
  fun_induction drain links queue waiting generalizing depth now next with
  | case1 waiting => exact ⟨List.forall_mem_nil _, List.Pairwise.nil⟩
  | case2 waiting id rest present _ left =>
      rename_i ih
      obtain ⟨level, others, behind, bound, rfl, begun⟩ := tiered.front whole
      have here : Deep (Enters links) id level := begun.near id List.mem_cons_self
      obtain ⟨deeper, sorted⟩ := ih begun.step (List.append_assoc others behind _).symm
      refine ⟨?_, List.pairwise_cons.mpr ⟨?_, sorted⟩⟩
      · intro other member
        rcases List.mem_cons.mp member with same | listed
        · exact ⟨level, bound, same ▸ here⟩
        · obtain ⟨far, lower, deep⟩ := deeper other listed
          exact ⟨far, bound.trans lower, deep⟩
      · intro other listed before after first second
        obtain ⟨far, lower, deep⟩ := deeper other listed
        have same : before = level := first.unique here
        have also : after = far := second.unique deep
        omega
  | case3 waiting id rest absent ih =>
      obtain ⟨level, others, behind, bound, rfl, begun⟩ := tiered.front whole
      obtain ⟨deeper, sorted⟩ := ih (begun.skip absent) rfl
      refine ⟨?_, sorted⟩
      intro other listed
      obtain ⟨far, lower, deep⟩ := deeper other listed
      exact ⟨far, bound.trans lower, deep⟩

-- What stands in the queue is placed before all that joins it later.
theorem queue_prefix (distinct : now.Nodup) (within : ∀ id ∈ now, id ∈ waiting) :
    now <+: (drain links (now ++ next) waiting).order := by
  induction now generalizing next waiting with
  | nil => exact List.nil_prefix
  | cons id rest ih =>
      obtain ⟨fresh, distinct⟩ := List.nodup_cons.mp distinct
      have present : id ∈ waiting := within id List.mem_cons_self
      have remain : ∀ other ∈ rest, other ∈ waiting.erase id := by
        intro other member
        have apart : other ≠ id := fun same => fresh (same ▸ member)
        exact (List.mem_erase_of_ne apart).mpr (within other (List.mem_cons_of_mem id member))
      rw [List.cons_append, drain, dif_pos present]
      dsimp only
      rw [List.append_assoc]
      exact (List.prefix_cons_inj id).mpr (ih distinct remain)

-- From the start: the blocks without sources make up the first layer.

theorem enters_known (ids : List String) (edges : List Edge) :
    Enters (known (firsts ids) edges) = Linked ids edges := by
  funext source target
  simp only [Enters, Linked, mem_known, mem_firsts]

theorem isFree_start (present : id ∈ ids) :
    isFree (known (firsts ids) edges) (firsts ids) id = true ↔ Deep (Linked ids edges) id 0 := by
  rw [isFree_iff, Deep.zero_iff, ← enters_known]
  constructor
  · intro free source enters
    exact free (source, id) enters rfl (mem_known.mp enters).2.1
  · rintro free ⟨source, target⟩ enters rfl
    exact absurd enters (free source)

theorem tiered_start (ids : List String) (edges : List Edge) :
    Tiered (known (firsts ids) edges) 0 ((firsts ids).filter (isFree (known (firsts ids) edges) (firsts ids))) []
      (firsts ids) := by
  refine ⟨by simpa using Ready.start _ (firsts_nodup ids), ?_, List.forall_mem_nil _, ?_⟩
  · intro id member
    obtain ⟨listed, free⟩ := List.mem_filter.mp member
    rw [enters_known]
    exact (isFree_start (mem_firsts.mp listed)).mp free
  · intro source target enters gone
    exact absurd (mem_known.mp enters).2.1 gone

-- The blocks of the order stand in layers: the depth of a block is the number of edges on the longest way of
-- known edges that ends at it.
structure Layered (ids : List String) (edges : List Edge) (ordering : EvaluationOrder) : Prop where
  depth : ∀ id ∈ ordering.order, ∃ depth, Deep (Linked ids edges) id depth
  ascending : ordering.order.Pairwise fun first second => ∀ before after,
    Deep (Linked ids edges) first before → Deep (Linked ids edges) second after → before ≤ after
  sources : ∀ id, id ∈ ids → Deep (Linked ids edges) id 0 → id ∈ ordering.order
  sorted : ordering.order.Pairwise fun first second =>
    Deep (Linked ids edges) first 0 → Deep (Linked ids edges) second 0 → ids.idxOf first < ids.idxOf second

theorem ofEdges_layered (ids : List String) (edges : List Edge) : (ofEdges ids edges).Layered ids edges := by
  let queue := (firsts ids).filter (isFree (known (firsts ids) edges) (firsts ids))
  have order : (ofEdges ids edges).order = (drain (known (firsts ids) edges) (queue ++ []) (firsts ids)).order := by
    rw [List.append_nil]
    rfl
  have queued : ∀ id, id ∈ ids → Deep (Linked ids edges) id 0 → id ∈ queue :=
    fun id present deep => List.mem_filter.mpr ⟨mem_firsts.mpr present, (isFree_start present).mpr deep⟩
  have first : queue <+: (ofEdges ids edges).order := by
    rw [order]
    exact queue_prefix ((firsts_nodup ids).filter _) fun _ member => (List.mem_filter.mp member).1
  obtain ⟨deep, ascending⟩ := (tiered_start ids edges).run
  rw [← order, enters_known] at deep ascending
  refine ⟨?_, ascending, fun id present free => first.subset (queued id present free), ?_⟩
  · intro id listed
    obtain ⟨depth, _, found⟩ := deep id listed
    exact ⟨depth, found⟩
  · obtain ⟨later, whole⟩ := first
    have distinct : (queue ++ later).Nodup := whole ▸ (List.nodup_append.mp (ofEdges_nodup ids edges)).1
    -- Behind the first layer no block of depth zero is left.
    have deeper : ∀ id ∈ later, ¬Deep (Linked ids edges) id 0 := by
      intro id member free
      have placed : id ∈ (ofEdges ids edges).order := whole ▸ List.mem_append_right queue member
      have present : id ∈ ids := mem_ofEdges.mp (List.mem_append_left _ placed)
      exact (List.nodup_append.mp distinct).2.2 id (queued id present free) id member rfl
    rw [← whole]
    refine List.pairwise_append.mpr ⟨?_, ?_, ?_⟩
    · exact ((firsts_sorted ids).filter _).imp fun before _ _ => before
    · refine List.pairwise_of_forall_mem_list ?_
      intro _ one _ _ free
      exact absurd free (deeper _ one)
    · intro _ _ second member _ free
      exact absurd free (deeper second member)

-- The short way from "a" to "d" does not bring "d" forward; a circle elsewhere and an edge from outside change nothing.
example : ofEdges ["d", "c", "e", "a", "b", "e", "f"]
      [("a", "d"), ("a", "b"), ("a", "b"), ("b", "c"), ("c", "d"), ("g", "a"), ("f", "f")] =
    ⟨["e", "a", "b", "c", "d"], ["f"]⟩ := by cbv

end EvaluationOrder
end BlockCanvas

import BlockCanvas.Proofs.Countdown
namespace BlockCanvas.EvaluationOrder
open Relation

variable {id source target : String} {ids order : List String} {edges : List Edge}

-- An edge counts if both its ends are listed.
def Linked (ids : List String) (edges : List Edge) (source target : String) : Prop :=
  (source, target) ∈ edges ∧ source ∈ ids ∧ target ∈ ids

-- The block lies on a circle of edges, or a circle leads to it.
def Circling (ids : List String) (edges : List Edge) (id : String) : Prop :=
  ∃ start, TransGen (Linked ids edges) start start ∧ ReflTransGen (Linked ids edges) start id

theorem Circling.tail (circling : Circling ids edges source) (linked : Linked ids edges source target) :
    Circling ids edges target := by
  obtain ⟨start, circle, way⟩ := circling
  exact ⟨start, circle, way.tail linked⟩

-- Places in a list.

theorem idxOf_lt_of_sublist (distinct : order.Nodup) (listed : [source, target].Sublist order) :
    order.idxOf source < order.idxOf target := by
  induction order with
  | nil => cases listed
  | cons head rest ih =>
      obtain ⟨fresh, distinct⟩ := List.nodup_cons.mp distinct
      cases listed with
      | cons _ later =>
          have first : head ≠ source := fun same => fresh (same ▸ later.subset (by simp))
          have second : head ≠ target := fun same => fresh (same ▸ later.subset (by simp))
          rw [List.idxOf_cons_ne _ first, List.idxOf_cons_ne _ second]
          exact Nat.succ_lt_succ (ih distinct later)
      | cons_cons _ later =>
          have apart : source ≠ target := fun same => fresh (same ▸ List.singleton_sublist.mp later)
          rw [List.idxOf_cons_self, List.idxOf_cons_ne _ apart]
          exact Nat.succ_pos _

theorem firsts_sorted (ids : List String) :
    (firsts ids).Pairwise fun first second => ids.idxOf first < ids.idxOf second := by
  induction ids with
  | nil => exact List.Pairwise.nil
  | cons head rest ih =>
      rw [firsts, List.pairwise_cons]
      have others : ∀ other ∈ (firsts rest).filter fun other => other ≠ head, head ≠ other := by
        intro other member
        have apart := (List.mem_filter.mp member).2
        exact Ne.symm (by simpa using apart)
      refine ⟨?_, (ih.filter _).imp_of_mem ?_⟩
      · intro other member
        rw [List.idxOf_cons_self, List.idxOf_cons_ne _ (others other member)]
        exact Nat.succ_pos _
      · intro first second one two before
        rw [List.idxOf_cons_ne _ (others first one), List.idxOf_cons_ne _ (others second two)]
        exact Nat.succ_lt_succ before

-- What is placed, and what is left.

theorem ofEdges_nodup (ids : List String) (edges : List Edge) :
    ((ofEdges ids edges).order ++ (ofEdges ids edges).residue).Nodup :=
  (ofEdges_perm ids edges).nodup_iff.mpr (firsts_nodup ids)

theorem mem_ofEdges : id ∈ (ofEdges ids edges).order ++ (ofEdges ids edges).residue ↔ id ∈ ids :=
  (ofEdges_perm ids edges).mem_iff.trans mem_firsts

theorem mem_residue_iff : id ∈ (ofEdges ids edges).residue ↔ id ∈ ids ∧ id ∉ (ofEdges ids edges).order := by
  simp [ofEdges_residue, mem_firsts]

theorem linked_earlier (linked : Linked ids edges source target) (placed : target ∈ (ofEdges ids edges).order) :
    source ∈ (ofEdges ids edges).order ∧
      (ofEdges ids edges).order.idxOf source < (ofEdges ids edges).order.idxOf target := by
  obtain ⟨listed, present, _⟩ := linked
  have both := ofEdges_ordered listed present placed
  exact ⟨both.subset (by simp), idxOf_lt_of_sublist (List.nodup_append.mp (ofEdges_nodup ids edges)).1 both⟩

-- Along a way every step goes to a later place.
theorem way_earlier (way : TransGen (Linked ids edges) source target)
    (placed : target ∈ (ofEdges ids edges).order) :
    source ∈ (ofEdges ids edges).order ∧
      (ofEdges ids edges).order.idxOf source < (ofEdges ids edges).order.idxOf target := by
  induction way with
  | single linked => exact linked_earlier linked placed
  | tail _ linked ih =>
      obtain ⟨between, last⟩ := linked_earlier linked placed
      obtain ⟨present, first⟩ := ih between
      exact ⟨present, first.trans last⟩

theorem Circling.mem (circling : Circling ids edges id) : id ∈ ids := by
  obtain ⟨start, circle, way⟩ := circling
  rcases way.cases_tail with same | ⟨_, _, linked⟩
  · obtain ⟨_, _, linked⟩ := TransGen.tail'_iff.mp circle
    exact same ▸ linked.2.2
  · exact linked.2.2

-- A circle would have to be placed before itself.
theorem Circling.not_placed (circling : Circling ids edges id) : id ∉ (ofEdges ids edges).order := by
  intro placed
  obtain ⟨start, circle, way⟩ := circling
  have first : start ∈ (ofEdges ids edges).order := by
    rcases reflTransGen_iff_eq_or_transGen.mp way with same | path
    · exact same ▸ placed
    · exact (way_earlier path placed).1
  exact Nat.lt_irrefl _ (way_earlier circle first).2

-- Going back from a block that is left, along blocks that are left, cannot go on for ever without a circle.
theorem circling_of_residue (left : id ∈ (ofEdges ids edges).residue) : Circling ids edges id := by
  let Loose : String → String → Prop := fun first second =>
    first ∈ (ofEdges ids edges).residue ∧ Linked ids edges first second ∧ ¬Circling ids edges second
  have acyclic : Acyclic Loose := by
    intro start circle
    obtain ⟨_, _, _, _, outside⟩ := TransGen.tail'_iff.mp circle
    exact outside ⟨start, TransGen.mono (fun _ _ taken => taken.2.1) _ _ circle, .refl⟩
  have founded : WellFounded Loose := acyclic.founded fun _ _ taken => taken.1
  induction id using founded.induction with
  | _ id ih =>
      apply Classical.byContradiction
      intro outside
      obtain ⟨before, also, listed⟩ := ofEdges_stuck left
      have linked : Linked ids edges before id := ⟨listed, (mem_residue_iff.mp also).1, (mem_residue_iff.mp left).1⟩
      exact outside ((ih before ⟨also, linked, outside⟩ also).tail linked)

theorem mem_residue_iff_circling : id ∈ (ofEdges ids edges).residue ↔ Circling ids edges id :=
  ⟨circling_of_residue, fun circling => mem_residue_iff.mpr ⟨circling.mem, circling.not_placed⟩⟩

theorem isComplete_iff : (ofEdges ids edges).isComplete = true ↔ Acyclic (Linked ids edges) := by
  rw [isComplete, List.isEmpty_iff, List.eq_nil_iff_forall_not_mem]
  simp only [mem_residue_iff_circling]
  constructor
  · intro none start circle
    exact none start ⟨start, circle, .refl⟩
  · rintro acyclic id ⟨start, circle, _⟩
    exact acyclic start circle

-- The order and the residue of a list of ids, which may repeat, and of edges, which may lead anywhere.
structure Settles (ids : List String) (edges : List Edge) (ordering : EvaluationOrder) : Prop where
  counted : (Sweep.start ids edges).Ends ordering
  distinct : (ordering.order ++ ordering.residue).Nodup
  whole : ∀ id, id ∈ ordering.order ++ ordering.residue ↔ id ∈ ids
  ordered : ∀ source target, Linked ids edges source target → target ∈ ordering.order →
    source ∈ ordering.order ∧ ordering.order.idxOf source < ordering.order.idxOf target
  circling : ∀ id, id ∈ ordering.residue ↔ Circling ids edges id
  sorted : ordering.residue.Pairwise fun first second => ids.idxOf first < ids.idxOf second
  complete : ordering.isComplete = true ↔ Acyclic (Linked ids edges)

theorem ofEdges_settles (ids : List String) (edges : List Edge) : (ofEdges ids edges).Settles ids edges where
  counted := Sweep.ends_ofEdges ids edges
  distinct := ofEdges_nodup ids edges
  whole := fun _ => mem_ofEdges
  ordered := fun _ _ => linked_earlier
  circling := fun _ => mem_residue_iff_circling
  sorted := by
    rw [ofEdges_residue]
    exact (firsts_sorted ids).filter _
  complete := isComplete_iff

-- A circle of two with a block behind it, a loop, parallel edges, an edge from outside and a repeated id.
example : ofEdges ["c", "a", "b", "a", "d", "g", "e"]
      [("a", "b"), ("b", "a"), ("b", "c"), ("d", "d"), ("e", "g"), ("e", "g"), ("f", "e")] =
    ⟨["e", "g"], ["c", "a", "b", "d"]⟩ := by cbv

end BlockCanvas.EvaluationOrder

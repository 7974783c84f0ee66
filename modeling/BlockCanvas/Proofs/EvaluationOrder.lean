import BlockCanvas.EvaluationOrder
import BlockCanvas.Proofs.Path
import Mathlib.Data.List.Basic
namespace BlockCanvas.EvaluationOrder

variable {id source target : String} {ids queue rest waiting : List String} {edges : List Edge}

theorem mem_firsts : id ∈ firsts ids ↔ id ∈ ids := by
  induction ids with
  | nil => simp [firsts]
  | cons head rest ih =>
      by_cases same : id = head
      · simp [firsts, same]
      · simp [firsts, same, ih]

theorem firsts_nodup (ids : List String) : (firsts ids).Nodup := by
  induction ids with
  | nil => exact List.nodup_nil
  | cons head rest ih =>
      rw [firsts, List.nodup_cons]
      exact ⟨by simp, ih.filter _⟩

theorem firsts_eq_self (distinct : ids.Nodup) : firsts ids = ids := by
  induction ids with
  | nil => rfl
  | cons head rest ih =>
      obtain ⟨fresh, distinct⟩ := List.nodup_cons.mp distinct
      have kept : rest.filter (fun other => other ≠ head) = rest := by
        apply List.filter_eq_self.mpr
        intro other member
        simp only [ne_eq, decide_not, Bool.not_eq_eq_eq_not, Bool.not_true, decide_eq_false_iff_not]
        intro equal
        exact fresh (equal ▸ member)
      rw [firsts, ih distinct, kept]

theorem mem_lasts : id ∈ lasts ids ↔ id ∈ ids := by
  induction ids with
  | nil => simp [lasts]
  | cons head rest ih =>
      by_cases again : head ∈ rest
      · rw [lasts, if_pos again, ih, List.mem_cons]
        refine ⟨Or.inr, ?_⟩
        rintro (equal | later)
        · exact equal ▸ again
        · exact later
      · rw [lasts, if_neg again, List.mem_cons, ih, List.mem_cons]

theorem isFree_iff : isFree edges waiting id = true ↔ ∀ edge ∈ edges, edge.2 = id → edge.1 ∉ waiting := by
  simp only [isFree, List.all_eq_true, Bool.or_eq_true, decide_eq_true_eq]
  constructor
  · intro free edge member into
    exact (free edge member).resolve_left fun other => other into
  · intro free edge member
    by_cases into : edge.2 = id
    · exact Or.inr (free edge member into)
    · exact Or.inl into

theorem mem_freed : target ∈ freed edges id waiting ↔ (id, target) ∈ edges ∧ isFree edges waiting target = true := by
  simp [freed, mem_lasts, targets]

-- Among the waiting blocks, the queue holds exactly those that no waiting block holds back.
structure Ready (edges : List Edge) (queue waiting : List String) : Prop where
  distinct : waiting.Nodup
  queued : ∀ id ∈ waiting, id ∈ queue ↔ isFree edges waiting id = true

namespace Ready

theorem start (edges : List Edge) (distinct : ids.Nodup) : Ready edges (ids.filter (isFree edges ids)) ids := by
  refine ⟨distinct, ?_⟩
  intro id member
  rw [List.mem_filter]
  exact ⟨And.right, fun free => ⟨member, free⟩⟩

theorem skip (ready : Ready edges (id :: rest) waiting) (absent : id ∉ waiting) : Ready edges rest waiting := by
  refine ⟨ready.distinct, ?_⟩
  intro other member
  have apart : other ≠ id := fun equal => absent (equal ▸ member)
  rw [← ready.queued other member, List.mem_cons]
  exact ⟨Or.inr, fun listed => listed.resolve_left apart⟩

-- Placing a block frees those that only it held back.
theorem place (ready : Ready edges (id :: rest) waiting) :
    Ready edges (rest ++ freed edges id (waiting.erase id)) (waiting.erase id) := by
  refine ⟨ready.distinct.erase id, ?_⟩
  intro other member
  obtain ⟨apart, old⟩ := (ready.distinct.mem_erase_iff).mp member
  rw [List.mem_append, mem_freed]
  constructor
  · rintro (later | ⟨_, free⟩)
    · have free := isFree_iff.mp ((ready.queued other old).mp (List.mem_cons_of_mem id later))
      exact isFree_iff.mpr fun edge listed into held => free edge listed into (List.mem_of_mem_erase held)
    · exact free
  · intro free
    by_cases before : isFree edges waiting other = true
    · have listed := (ready.queued other old).mpr before
      exact Or.inl ((List.mem_cons.mp listed).resolve_left apart)
    · refine Or.inr ⟨?_, free⟩
      rw [isFree_iff] at before
      push Not at before
      obtain ⟨edge, listed, into, held⟩ := before
      have loose : edge.1 ∉ waiting.erase id := isFree_iff.mp free edge listed into
      have only : edge.1 = id := by
        apply Classical.byContradiction
        intro other
        exact loose ((List.mem_erase_of_ne other).mpr held)
      rw [← only, ← into]
      exact listed

end Ready

theorem drain_perm (edges : List Edge) (queue waiting : List String) :
    ((drain edges queue waiting).order ++ (drain edges queue waiting).residue).Perm waiting := by
  fun_induction drain edges queue waiting with
  | case1 waiting => exact .refl _
  | case2 waiting id rest present _ left later ih => exact (ih.cons id).trans (List.perm_cons_erase present).symm
  | case3 waiting id rest absent ih => exact ih

-- A block is placed only when no source of it still waits.
theorem drain_ordered (ready : Ready edges queue waiting) (listed : (source, target) ∈ edges)
    (held : source ∈ waiting) (placed : target ∈ (drain edges queue waiting).order) :
    [source, target].Sublist (drain edges queue waiting).order := by
  fun_induction drain edges queue waiting with
  | case1 waiting => cases placed
  | case2 waiting id rest present _ left later ih =>
      have free := isFree_iff.mp ((ready.queued id present).mp List.mem_cons_self)
      have apart : target ≠ id := by
        intro equal
        exact free (source, target) listed equal held
      have placedLater := (List.mem_cons.mp placed).resolve_left apart
      by_cases first : source = id
      · subst source
        exact .cons_cons id (List.singleton_sublist.mpr placedLater)
      · have stillHeld : source ∈ left := (List.mem_erase_of_ne first).mpr held
        exact .cons id (ih ready.place stillHeld placedLater)
  | case3 waiting id rest absent ih => exact ih (ready.skip absent) held placed

-- What is left over waits for something that is left over.
theorem drain_stuck (ready : Ready edges queue waiting) (left : id ∈ (drain edges queue waiting).residue) :
    ∃ before ∈ (drain edges queue waiting).residue, (before, id) ∈ edges := by
  fun_induction drain edges queue waiting with
  | case1 waiting =>
      have held : ¬ isFree edges waiting id = true := by
        rw [← ready.queued id left]
        exact List.not_mem_nil
      rw [isFree_iff] at held
      push Not at held
      obtain ⟨edge, listed, rfl, waits⟩ := held
      exact ⟨edge.1, waits, listed⟩
  | case2 waiting head rest present _ others later ih => exact ih ready.place left
  | case3 waiting head rest absent ih => exact ih (ready.skip absent) left

theorem mem_known : (source, target) ∈ known ids edges ↔ (source, target) ∈ edges ∧ source ∈ ids ∧ target ∈ ids := by
  simp [known]

theorem ofEdges_perm (ids : List String) (edges : List Edge) :
    ((ofEdges ids edges).order ++ (ofEdges ids edges).residue).Perm (firsts ids) :=
  drain_perm _ _ _

theorem ofEdges_ordered (listed : (source, target) ∈ edges) (present : source ∈ ids)
    (placed : target ∈ (ofEdges ids edges).order) : [source, target].Sublist (ofEdges ids edges).order := by
  have member : target ∈ firsts ids := (ofEdges_perm ids edges).subset (List.mem_append_left _ placed)
  have held : source ∈ firsts ids := mem_firsts.mpr present
  exact drain_ordered (.start _ (firsts_nodup ids)) (mem_known.mpr ⟨listed, held, member⟩) held placed

theorem ofEdges_stuck (left : id ∈ (ofEdges ids edges).residue) :
    ∃ before ∈ (ofEdges ids edges).residue, (before, id) ∈ edges := by
  obtain ⟨before, also, listed⟩ := drain_stuck (.start _ (firsts_nodup ids)) left
  exact ⟨before, also, (mem_known.mp listed).1⟩

theorem residue_eq_nil (acyclic : Acyclic fun source target => (source, target) ∈ edges) :
    (ofEdges ids edges).residue = [] :=
  acyclic.eq_nil fun _ left => ofEdges_stuck left

end BlockCanvas.EvaluationOrder

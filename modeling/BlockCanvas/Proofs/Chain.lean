import BlockCanvas.Proofs.Sequence
import Mathlib.Data.List.Nodup
namespace BlockCanvas.Graph
open Relation

variable {graph : Graph} {id wanted root other : String}

-- The blocks of all chains, root by root.
def chained (graph : Graph) : List String :=
  graph.roots.flatMap graph.chain

def IsChainCapable (graph : Graph) (id : String) : Prop :=
  ∃ block, graph.get? id = some block ∧ block.definition.isChainCapable = true

-- A walk meets what lies ahead of its start, as far as it may go, and nothing twice.

theorem mem_walk_iff {unseen : List String} :
    wanted ∈ graph.walk unseen id ↔
      wanted ∈ unseen ∧ ReflTransGen (Leaving graph.Follows unseen) id wanted := by
  fun_induction walk graph unseen id with
  | case1 unseen id present _ ih =>
      by_cases here : id = wanted
      · subst wanted
        exact ⟨fun _ => ⟨present, .refl⟩, fun _ => List.mem_cons_self⟩
      · rw [List.mem_cons, or_iff_right (Ne.symm here)]
        cases follows : graph.next.get? id with
        | none =>
            refine ⟨by simp, fun ⟨_, way⟩ => ?_⟩
            obtain ⟨_, _, taken, _⟩ := leave_start here way
            rw [Follows, follows] at taken
            cases taken
        | some next =>
            simp only [ih next, List.mem_erase_of_ne (Ne.symm here)]
            refine and_congr_right fun _ => ⟨fun rest => ?_, fun way => ?_⟩
            · have kept : ∀ a b, Leaving graph.Follows (unseen.erase id) a b →
                  Leaving graph.Follows unseen a b :=
                fun _ _ taken => ⟨List.mem_of_mem_erase taken.1, taken.2⟩
              exact .head ⟨present, follows⟩ (ReflTransGen.mono kept _ _ rest)
            · obtain ⟨_, _, taken, rest⟩ := leave_start here way
              rw [Follows, follows] at taken
              cases taken
              exact rest
  | case2 unseen id absent =>
      refine ⟨by simp, fun ⟨listed, way⟩ => ?_⟩
      by_cases here : id = wanted
      · exact absurd (here ▸ listed) absent
      · exact absurd (leave_start here way).1 absent

theorem walk_nodup {unseen : List String} (distinct : unseen.Nodup) : (graph.walk unseen id).Nodup := by
  fun_induction walk graph unseen id with
  | case1 unseen id present _ ih =>
      rw [List.nodup_cons]
      cases graph.next.get? id with
      | none => exact ⟨List.not_mem_nil, List.nodup_nil⟩
      | some next =>
          refine ⟨fun again => ?_, ih next (distinct.erase id)⟩
          exact distinct.not_mem_erase (mem_walk_iff.mp again).1
  | case2 unseen id absent => exact List.nodup_nil

-- A walk that does not come to an id need not know whether it was seen.
theorem walk_erase {unseen : List String} (clear : ¬ ReflTransGen graph.Follows id wanted) :
    graph.walk (unseen.erase wanted) id = graph.walk unseen id := by
  fun_induction walk graph unseen id with
  | case1 unseen id present _ ih =>
      have apart : id ≠ wanted := by
        intro same
        exact clear (same ▸ .refl)
      rw [walk, dif_pos ((List.mem_erase_of_ne apart).mpr present)]
      cases follows : graph.next.get? id with
      | none => rfl
      | some next =>
          dsimp only
          rw [List.erase_comm, ih next fun way => clear (way.head follows)]
  | case2 unseen id absent => rw [walk, dif_neg fun member => absent (List.mem_of_mem_erase member)]

theorem chain_of_absent (absent : id ∉ graph.ids) : graph.chain id = [] := by
  rw [chain, walk, dif_neg absent]

theorem mem_roots_iff : root ∈ graph.roots ↔ graph.previous.get? root = none ∧ graph.IsChainCapable root := by
  simp only [roots, List.mem_map, List.mem_filter, Prod.exists, exists_and_right, exists_eq_right,
    Table.mem_rows_iff, Bool.and_eq_true, Bool.not_eq_true', Table.contains, Option.isSome_eq_false_iff,
    Option.isNone_iff_eq_none, IsChainCapable, get?]
  constructor
  · rintro ⟨block, found, free, capable⟩
    exact ⟨free, block, found, capable⟩
  · rintro ⟨free, block, found, capable⟩
    exact ⟨block, found, free, capable⟩

theorem roots_nodup (graph : Graph) : graph.roots.Nodup :=
  (List.Sublist.map Prod.fst List.filter_sublist).nodup graph.blocks.distinct

namespace Sequenced

theorem capable_first (valid : Sequenced graph) (follows : graph.Follows id wanted) : graph.IsChainCapable id := by
  obtain ⟨before, _, found, _, canLead, _⟩ := valid.capable follows
  exact ⟨before, found, by simp [Definition.isChainCapable, canLead]⟩

theorem capable_second (valid : Sequenced graph) (follows : graph.Follows id wanted) :
    graph.IsChainCapable wanted := by
  obtain ⟨_, after, _, found, _, canFollow⟩ := valid.capable follows
  exact ⟨after, found, by simp [Definition.isChainCapable, canFollow]⟩

theorem capable_ahead (valid : Sequenced graph) (capable : graph.IsChainCapable id)
    (way : ReflTransGen graph.Follows id wanted) : graph.IsChainCapable wanted := by
  rcases way.cases_tail with same | ⟨before, _, follows⟩
  · exact same ▸ capable
  · exact valid.capable_second follows

theorem mem_chain_iff (valid : Sequenced graph) (capable : graph.IsChainCapable root) :
    wanted ∈ graph.chain root ↔ ReflTransGen graph.Follows root wanted := by
  have listed : ∀ id, graph.IsChainCapable id → id ∈ graph.ids :=
    fun _ ⟨block, found, _⟩ => mem_ids_iff.mpr ⟨block, found⟩
  have same : Leaving graph.Follows graph.ids = graph.Follows := by
    funext first second
    exact propext ⟨And.right, fun follows => ⟨listed first (valid.capable_first follows), follows⟩⟩
  rw [chain, mem_walk_iff, same]
  exact ⟨And.right, fun way => ⟨listed wanted (valid.capable_ahead capable way), way⟩⟩

-- A chain is its first block and the chain from the block after that.
theorem chain_eq (valid : Sequenced graph) (present : id ∈ graph.ids) :
    graph.chain id = id :: (graph.next.get? id).elim [] graph.chain := by
  rw [chain, walk, dif_pos present]
  cases follows : graph.next.get? id with
  | none => rfl
  | some next =>
      have clear : ¬ ReflTransGen graph.Follows next id := fun way => valid.acyclic id (.head' follows way)
      dsimp only
      rw [walk_erase clear]
      rfl

-- Going back along the links from a block ends where none leads in.
theorem exists_root (valid : Sequenced graph) (capable : graph.IsChainCapable id) :
    ∃ root ∈ graph.roots, ReflTransGen graph.Follows root id := by
  have founded : WellFounded graph.Follows := by
    apply valid.acyclic.founded
    intro first second follows
    obtain ⟨block, found, _⟩ := valid.capable_first follows
    exact mem_ids_iff.mpr ⟨block, found⟩
  induction id using founded.induction with
  | _ id ih =>
      cases behind : graph.previous.get? id with
      | none => exact ⟨id, mem_roots_iff.mpr ⟨behind, capable⟩, .refl⟩
      | some before =>
          have follows : graph.Follows before id := (valid.inverse before id).mpr behind
          obtain ⟨root, member, way⟩ := ih before follows (valid.capable_first follows)
          exact ⟨root, member, way.tail follows⟩

-- Two ways to one block differ only in where they start, so a root is met by no other root's walk.
theorem root_unique (valid : Sequenced graph) (one : root ∈ graph.roots) (two : other ∈ graph.roots)
    (way : ReflTransGen graph.Follows root id) (also : ReflTransGen graph.Follows other id) : root = other := by
  have unique : Relator.RightUnique (Function.swap graph.Follows) := by
    intro second first before follows behind
    have same := (valid.inverse first second).mp follows
    rw [(valid.inverse before second).mp behind] at same
    exact (Option.some.inj same).symm
  have first : ∀ start goal, start ∈ graph.roots → ReflTransGen (Function.swap graph.Follows) start goal →
      start = goal := by
    intro start goal free back
    rcases back.cases_head with same | ⟨before, follows, _⟩
    · exact same
    · have behind := (valid.inverse before start).mp follows
      rw [(mem_roots_iff.mp free).1] at behind
      cases behind
  rcases ReflTransGen.total_of_right_unique unique (reflTransGen_swap.mpr way) (reflTransGen_swap.mpr also) with
    back | back
  · exact first root other one back
  · exact (first other root two back).symm

theorem mem_chained_iff (valid : Sequenced graph) : id ∈ graph.chained ↔ graph.IsChainCapable id := by
  rw [chained, List.mem_flatMap]
  constructor
  · rintro ⟨root, member, met⟩
    have capable := (mem_roots_iff.mp member).2
    exact valid.capable_ahead capable ((valid.mem_chain_iff capable).mp met)
  · intro capable
    obtain ⟨root, member, way⟩ := valid.exists_root capable
    exact ⟨root, member, (valid.mem_chain_iff (mem_roots_iff.mp member).2).mpr way⟩

theorem chained_nodup (valid : Sequenced graph) : graph.chained.Nodup := by
  refine List.nodup_flatMap.mpr ⟨fun _ _ => walk_nodup graph.ids_nodup, ?_⟩
  refine graph.roots_nodup.imp_of_mem ?_
  intro root other one two apart id met also
  have way := (valid.mem_chain_iff (mem_roots_iff.mp one).2).mp met
  have otherWay := (valid.mem_chain_iff (mem_roots_iff.mp two).2).mp also
  exact apart (valid.root_unique one two way otherWay)

end Sequenced
end BlockCanvas.Graph

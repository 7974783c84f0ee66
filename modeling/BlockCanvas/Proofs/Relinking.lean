import BlockCanvas.Proofs.Chain
import BlockCanvas.Proofs.CleanFailure
namespace BlockCanvas
open Relation

namespace Graph
variable {graph changed : Graph} {id wanted start other : String}

-- The links after both old neighbours are let go and the new link is made.

theorem Sequenced.next_unlinkBefore (valid : Sequenced graph) (id start : String) :
    (graph.unlinkBefore id).next.get? start =
      if graph.next.get? start = some id then none else graph.next.get? start := by
  unfold Graph.unlinkBefore
  cases behind : graph.previous.get? id with
  | none =>
      have loose : graph.next.get? start ≠ some id := by
        intro follows
        rw [valid.inverse, behind] at follows
        cases follows
      rw [if_neg loose]
  | some before =>
      have into : graph.next.get? start = some id ↔ before = start := by
        rw [valid.inverse, behind, Option.some.injEq]
      simp only [next_unlinkNext, into]

theorem Sequenced.next_setNext (valid : Sequenced graph)
    (accepted : graph.setNext id (some wanted) = .ok changed) (start : String) :
    changed.next.get? start =
      if start = id then some wanted
      else if graph.next.get? start = some wanted then none else graph.next.get? start := by
  obtain ⟨_, _, _, _, _, _, _, rfl⟩ := setNext_some_eq_ok_iff.mp accepted
  rw [next_link, (valid.unlinkNext id).next_unlinkBefore, next_unlinkNext]
  by_cases here : start = id
  · rw [if_pos here.symm, if_pos here]
  · simp only [if_neg here, if_neg (Ne.symm here)]

theorem Sequenced.previous_unlinkBefore_eq (valid : Sequenced graph) (id other : String) :
    (graph.unlinkBefore id).previous.get? other = if id = other then none else graph.previous.get? other := by
  unfold Graph.unlinkBefore
  cases behind : graph.previous.get? id with
  | none =>
      by_cases same : id = other
      · subst other
        rw [if_pos rfl, behind]
      · rw [if_neg same]
  | some before =>
      have follows : graph.next.get? before = some id := (valid.inverse before id).mpr behind
      simp only [previous_unlinkNext, follows, Option.some.injEq]

theorem Sequenced.previous_setNext (valid : Sequenced graph)
    (accepted : graph.setNext id (some wanted) = .ok changed) (other : String) :
    changed.previous.get? other =
      if other = wanted then some id
      else if graph.next.get? id = some other then none else graph.previous.get? other := by
  obtain ⟨_, _, _, _, _, _, _, rfl⟩ := setNext_some_eq_ok_iff.mp accepted
  rw [previous_link, (valid.unlinkNext id).previous_unlinkBefore_eq, previous_unlinkNext]
  by_cases there : other = wanted
  · rw [if_pos there.symm, if_pos there]
  · simp only [if_neg there, if_neg (Ne.symm there)]

theorem ids_setNext {next : Option String} (accepted : graph.setNext id next = .ok changed) :
    changed.ids = graph.ids := by
  rw [ids, ids, blocks_setNext accepted]

theorem Sequenced.setNext_accepted_iff (valid : Sequenced graph) :
    (∃ changed, graph.setNext id (some wanted) = .ok changed) ↔
      ∃ block following, graph.get? id = some block ∧ graph.get? wanted = some following ∧
        block.definition.hasNext = true ∧ following.definition.hasPrevious = true ∧ id ∉ graph.chain wanted := by
  have reaches : ∀ following, graph.get? wanted = some following → following.definition.hasPrevious = true →
      (graph.chainReaches wanted id = false ↔ id ∉ graph.chain wanted) := by
    intro following present canFollow
    have capable : graph.IsChainCapable wanted :=
      ⟨following, present, by simp [Definition.isChainCapable, canFollow]⟩
    rw [valid.mem_chain_iff capable, ← chainReaches_iff, Bool.not_eq_true]
  constructor
  · rintro ⟨changed, accepted⟩
    obtain ⟨block, following, found, present, canLead, canFollow, clear, _⟩ := setNext_some_eq_ok_iff.mp accepted
    exact ⟨block, following, found, present, canLead, canFollow, (reaches following present canFollow).mp clear⟩
  · rintro ⟨block, following, found, present, canLead, canFollow, clear⟩
    have unreached := (reaches following present canFollow).mpr clear
    exact ⟨_, setNext_some_eq_ok_iff.mpr ⟨block, following, found, present, canLead, canFollow, unreached, rfl⟩⟩

theorem takeWhile_chain (unmet : wanted ∉ graph.chain start) :
    (graph.chain start).takeWhile (· ≠ wanted) = graph.chain start := by
  apply List.takeWhile_eq_self_iff.mpr
  intro other member
  have different : other ≠ wanted := fun same => unmet (same ▸ member)
  simpa using different

-- What comes after a block does not lead back to it.
theorem Sequenced.not_mem_chain (valid : Sequenced graph) (follows : graph.Follows start other) :
    start ∉ graph.chain other := by
  rw [valid.mem_chain_iff (valid.capable_second follows)]
  exact fun back => valid.acyclic start (.head' follows back)

section Relinked
variable (valid : Sequenced graph) (accepted : graph.setNext id (some wanted) = .ok changed)
include valid accepted

theorem Sequenced.chain_setNext_cons (present : start ∈ graph.ids) :
    changed.chain start = start :: (if start = id then some wanted
      else if graph.next.get? start = some wanted then none else graph.next.get? start).elim [] changed.chain := by
  rw [(valid.setNext accepted).chain_eq (ids_setNext accepted ▸ present), valid.next_setNext accepted]

-- A chain that does not come to the block with the new link loses at most what it had from the wanted block on.
theorem Sequenced.chain_setNext_cut (clear : id ∉ graph.chain start) (apart : start ≠ wanted) :
    changed.chain start = (graph.chain start).takeWhile (· ≠ wanted) := by
  induction start using valid.finite.induction with
  | _ start ih =>
    by_cases present : start ∈ graph.ids
    · rw [valid.chain_eq present, List.mem_cons, not_or] at clear
      rw [valid.chain_setNext_cons accepted present, valid.chain_eq present, if_neg (Ne.symm clear.1),
        List.takeWhile_cons_of_pos (by simpa using apart)]
      cases follows : graph.next.get? start with
      | none => rfl
      | some next =>
          rw [follows] at clear
          by_cases cut : next = wanted
          · subst next
            obtain ⟨_, _, _, found, _⟩ := valid.capable follows
            rw [if_pos rfl, Option.elim_some, valid.chain_eq (mem_ids_iff.mpr ⟨_, found⟩),
              List.takeWhile_cons_of_neg (by simp)]
            rfl
          · rw [if_neg (by simpa using cut)]
            exact congrArg _ (ih next follows clear.2 cut)
    · have absent : start ∉ changed.ids := ids_setNext accepted ▸ present
      rw [chain_of_absent absent, chain_of_absent present, List.takeWhile_nil]

theorem Sequenced.chain_setNext_wanted (clear : id ∉ graph.chain wanted) : changed.chain wanted = graph.chain wanted := by
  obtain ⟨_, _, _, found, _⟩ := setNext_some_eq_ok_iff.mp accepted
  have present : wanted ∈ graph.ids := mem_ids_iff.mpr ⟨_, found⟩
  rw [valid.chain_eq present, List.mem_cons, not_or] at clear
  rw [valid.chain_setNext_cons accepted present, valid.chain_eq present, if_neg (Ne.symm clear.1)]
  cases follows : graph.next.get? wanted with
  | none => rfl
  | some next =>
      rw [follows] at clear
      have apart : wanted ≠ next := valid.acyclic.ne follows
      rw [if_neg (by simpa using Ne.symm apart), Option.elim_some, Option.elim_some,
        valid.chain_setNext_cut accepted clear.2 (Ne.symm apart), takeWhile_chain (valid.not_mem_chain follows)]

-- The induction goes along the old links up to the block with the new one.
theorem Sequenced.chain_setNext_joined (clear : id ∉ graph.chain wanted) (met : id ∈ graph.chain start) :
    changed.chain start = (graph.chain start).takeWhile (· ≠ id) ++ id :: graph.chain wanted := by
  induction start using valid.finite.induction with
  | _ start ih =>
    have present : start ∈ graph.ids := by
      by_contra absent
      rw [chain_of_absent absent] at met
      cases met
    rw [valid.chain_setNext_cons accepted present]
    by_cases here : start = id
    · subst start
      rw [valid.chain_eq present, List.takeWhile_cons_of_neg (by simp), if_pos rfl, Option.elim_some,
        valid.chain_setNext_wanted accepted clear, List.nil_append]
    · rw [valid.chain_eq present, List.mem_cons, or_iff_right (Ne.symm here)] at met
      rw [valid.chain_eq present, List.takeWhile_cons_of_pos (by simpa using here), if_neg here]
      cases follows : graph.next.get? start with
      | none =>
          rw [follows] at met
          cases met
      | some next =>
          rw [follows, Option.elim_some] at met
          have kept : next ≠ wanted := by
            rintro rfl
            exact clear met
          rw [if_neg (by simpa using kept), Option.elim_some, Option.elim_some, ih next follows met, List.cons_append]

end Relinked

-- The chain from a block once the wanted block is put after the given one.
def relinked (graph : Graph) (id wanted start : String) : List String :=
  if id ∈ graph.chain start then (graph.chain start).takeWhile (· ≠ id) ++ id :: graph.chain wanted
  else if wanted ∈ graph.chain start ∧ start ≠ wanted then (graph.chain start).takeWhile (· ≠ wanted)
  else graph.chain start

theorem Sequenced.chain_setNext (valid : Sequenced graph)
    (accepted : graph.setNext id (some wanted) = .ok changed) (start : String) :
    changed.chain start = graph.relinked id wanted start := by
  have clear : id ∉ graph.chain wanted := by
    obtain ⟨_, _, _, _, _, _, clear⟩ := valid.setNext_accepted_iff.mp ⟨changed, accepted⟩
    exact clear
  unfold relinked
  split_ifs with met cut
  · exact valid.chain_setNext_joined accepted clear met
  · exact valid.chain_setNext_cut accepted met cut.2
  · by_cases same : start = wanted
    · subst same
      exact valid.chain_setNext_wanted accepted clear
    · have unmet : wanted ∉ graph.chain start := fun member => cut ⟨member, same⟩
      rw [valid.chain_setNext_cut accepted met same, takeWhile_chain unmet]

-- What a graph is like when the wanted block was put after the given one.
structure Relinked (graph : Graph) (id wanted : String) (changed : Graph) : Prop where
  blocks : changed.blocks = graph.blocks
  next : ∀ start, changed.next.get? start =
    if start = id then some wanted
    else if graph.next.get? start = some wanted then none else graph.next.get? start
  previous : ∀ other, changed.previous.get? other =
    if other = wanted then some id
    else if graph.next.get? id = some other then none else graph.previous.get? other
  chains : ∀ start, changed.chain start = graph.relinked id wanted start

theorem Sequenced.setNext_relinked (valid : Sequenced graph) (accepted : graph.setNext id (some wanted) = .ok changed) :
    graph.Relinked id wanted changed :=
  ⟨blocks_setNext accepted, valid.next_setNext accepted, valid.previous_setNext accepted, valid.chain_setNext accepted⟩

end Graph

variable {catalog : Catalog} {canvas : Canvas}

-- Putting a block after another, also when it is worked out write by write.
structure Canvas.Links (catalog : Catalog) (canvas : Canvas) (id wanted : String) : Prop where
  accepted : (canvas.step catalog (.setNext id (some wanted))).2 = .verdict none ↔
    ∃ block following, canvas.graph.get? id = some block ∧ canvas.graph.get? wanted = some following ∧
      block.definition.hasNext = true ∧ following.definition.hasPrevious = true ∧ id ∉ canvas.graph.chain wanted
  inPlace : (canvas.inPlace catalog (.setNext id (some wanted))).1.toCanvas =
    (canvas.step catalog (.setNext id (some wanted))).1
  supply : (canvas.step catalog (.setNext id (some wanted))).1.supply = canvas.supply
  relinked : (canvas.step catalog (.setNext id (some wanted))).2 = .verdict none →
    canvas.graph.Relinked id wanted (canvas.step catalog (.setNext id (some wanted))).1.graph

theorem Canvas.judge_accepted_iff {result : Except Refusal Graph} :
    (canvas.judge result).2 = .verdict none ↔ ∃ graph, result = .ok graph := by
  cases result with
  | ok graph => simp [judge]
  | error refusal => simp [judge]

theorem reached_links (path : Reached catalog canvas) (id wanted : String) : canvas.Links catalog id wanted := by
  have valid := path.grown.sequenced
  refine ⟨?_, (canvas.worksOut catalog (.setNext id (some wanted))).agrees path.keyed, ?_, ?_⟩
  · rw [Canvas.step, Canvas.judge_accepted_iff, valid.setNext_accepted_iff]
  · rw [Canvas.step]
    cases canvas.graph.setNext id (some wanted) <;> rfl
  · rw [Canvas.step, Canvas.judge_accepted_iff]
    rintro ⟨changed, accepted⟩
    rw [accepted, Canvas.judge]
    exact valid.setNext_relinked accepted

-- Four writes in a row. The second is linked to the last, and the third stays behind alone.
def queueCommands : List Command :=
  [.create "io.write" none, .create "io.write" none, .create "io.write" none, .create "io.write" none,
    .setNext "gen-1" (some "gen-2"), .setNext "gen-2" (some "gen-3"), .setNext "gen-3" (some "gen-4")]

theorem reached_links_skip :
    (Canvas.run Catalog.builtin queueCommands).Links Catalog.builtin "gen-2" "gen-4" ∧
      (Canvas.run Catalog.builtin queueCommands).Links Catalog.builtin "gen-4" "gen-2" ∧
      ((Canvas.run Catalog.builtin queueCommands).step Catalog.builtin (.setNext "gen-4" (some "gen-2"))).2 =
        .verdict (some (.sequenceCycle "gen-4" "gen-2")) ∧
      (Canvas.run Catalog.builtin queueCommands).graph.chain "gen-1" = ["gen-1", "gen-2", "gen-3", "gen-4"] ∧
      ["gen-1", "gen-2", "gen-3", "gen-4"].map ((Canvas.run Catalog.builtin queueCommands).step Catalog.builtin
        (.setNext "gen-2" (some "gen-4"))).1.graph.chain =
        [["gen-1", "gen-2", "gen-4"], ["gen-2", "gen-4"], ["gen-3"], ["gen-4"]] := by
  have path : Reached Catalog.builtin (Canvas.run Catalog.builtin queueCommands) :=
    reached_run (by simp [queueCommands, Command.Known])
  exact ⟨reached_links path _ _, reached_links path _ _, by cbv, by cbv, by cbv⟩

end BlockCanvas

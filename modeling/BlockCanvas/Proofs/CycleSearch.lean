import BlockCanvas.Proofs.DataFlow
namespace BlockCanvas.Graph
open Relation

variable {graph : Graph} {id source target socket : String}

-- One step of dependence: from a block on the canvas to the source of one of its connections or to the block
-- after it, whether these are on the canvas or not.
inductive Requires (graph : Graph) (id : String) : String → Prop
  | source {block : Block} {socket : String} {connection : Connection} (found : graph.get? id = some block)
      (stored : block.inputs.get? socket = some connection) : Requires graph id connection.source
  | next {block : Block} {after : String} (found : graph.get? id = some block)
      (follows : graph.next.get? id = some after) : Requires graph id after

theorem mem_dependencies_iff {block : Block} (found : graph.get? id = some block) :
    target ∈ graph.dependencies id ↔
      target ∈ (graph.next.get? id).toList ∨ target ∈ block.connections.map Connection.source := by
  simp only [dependencies, found, List.mem_append]
  exact or_comm

theorem depends_iff_requires : graph.Depends id target ↔ graph.Requires id target := by
  constructor
  · intro depends
    obtain ⟨block, found⟩ := mem_ids_iff.mp (mem_ids_of_depends depends)
    rcases (mem_dependencies_iff found).mp depends with follows | given
    · exact .next found (Option.mem_toList.mp follows)
    · obtain ⟨connection, listed, rfl⟩ := List.mem_map.mp given
      obtain ⟨socket, stored⟩ := mem_connections_iff.mp listed
      exact .source found stored
  · intro requires
    cases requires with
    | source found stored =>
        refine (mem_dependencies_iff found).mpr (Or.inr (List.mem_map.mpr ⟨_, ?_, rfl⟩))
        exact mem_connections_iff.mpr ⟨_, stored⟩
    | next found follows => exact (mem_dependencies_iff found).mpr (Or.inl (Option.mem_toList.mpr follows))

theorem dependsOn_iff_requires :
    graph.dependsOn source target = true ↔ target = source ∨ TransGen graph.Requires source target := by
  have same : graph.Depends = graph.Requires := funext fun _ => funext fun _ => propext depends_iff_requires
  rw [dependsOn_iff, same, reflTransGen_iff_eq_or_transGen]

-- A search as it goes on: a stack of ids to look at, the last one put there on top, and the ids looked at.
structure Hunt where
  pending : List String
  visited : List String

namespace Hunt
variable {hunt after : Hunt} {visited : List String}

-- What looking at an id puts on the stack: its sources one after the other, then its next block.
def added (graph : Graph) (id : String) : List String :=
  match graph.get? id with
  | none => []
  | some block => (graph.next.get? id).toList ++ (block.connections.map Connection.source).reverse

-- One turn of the loop gives an answer or another search. An id may stand on the stack more than once.
def turn (graph : Graph) (target : String) (hunt : Hunt) : Bool ⊕ Hunt :=
  match hunt.pending with
  | [] => .inl false
  | id :: rest =>
      if id = target then .inl true
      else if id ∈ hunt.visited then .inr { hunt with pending := rest }
      else .inr ⟨added graph id ++ rest, id :: hunt.visited⟩

-- After so many turns that go on, a turn gives the answer.
inductive Ends (graph : Graph) (target : String) : Nat → Hunt → Bool → Prop
  | answer {hunt : Hunt} {answer : Bool} (told : hunt.turn graph target = .inl answer) : Ends graph target 0 hunt answer
  | turn {hunt after : Hunt} {turns : Nat} {answer : Bool} (goes : hunt.turn graph target = .inr after)
      (rest : Ends graph target turns after answer) : Ends graph target (turns + 1) hunt answer

theorem turn_answer {answer : Bool} (told : hunt.turn graph target = .inl answer) :
    hunt.pending = [] ∧ answer = false ∨ target ∈ hunt.pending ∧ answer = true := by
  unfold turn at told
  split at told
  · rename_i empty
    cases told
    exact Or.inl ⟨empty, rfl⟩
  · rename_i id rest top
    split_ifs at told with same
    · cases told
      exact Or.inr ⟨by rw [top, same]; exact List.mem_cons_self, rfl⟩

theorem turn_onward (goes : hunt.turn graph target = .inr after) :
    ∃ id rest, hunt.pending = id :: rest ∧ id ≠ target ∧
      (id ∈ hunt.visited ∧ after = { hunt with pending := rest } ∨
        id ∉ hunt.visited ∧ after = ⟨added graph id ++ rest, id :: hunt.visited⟩) := by
  unfold turn at goes
  split at goes
  · cases goes
  · rename_i id rest top
    split_ifs at goes with same seen
    · cases goes
      exact ⟨id, rest, top, same, Or.inl ⟨seen, rfl⟩⟩
    · cases goes
      exact ⟨id, rest, top, same, Or.inr ⟨seen, rfl⟩⟩

theorem mem_added_iff : target ∈ added graph id ↔ graph.Depends id target := by
  unfold added
  cases found : graph.get? id with
  | none => simp [Depends, dependencies, found]
  | some block =>
      rw [Depends, mem_dependencies_iff found]
      simp

-- Every block can fill the stack once. What it may still put there is lost when the block has been looked at.

def allowance (graph : Graph) (visited : List String) : Nat :=
  ((unmet graph.ids visited).flatMap (added graph)).length

theorem allowance_visit (fresh : id ∉ visited) :
    (added graph id).length + allowance graph (id :: visited) = allowance graph visited := by
  rw [allowance, unmet_cons graph.ids_nodup]
  by_cases present : id ∈ graph.ids
  · have moved := List.perm_cons_erase (mem_unmet_iff.mpr ⟨present, fresh⟩)
    rw [allowance, (moved.flatMap_right (added graph)).length_eq, List.flatMap_cons, List.length_append]
  · have absent : graph.get? id = none := Table.get?_eq_none_iff.mpr present
    rw [List.erase_of_not_mem fun listed => present (mem_unmet_iff.mp listed).1]
    simp [added, absent, allowance]

theorem allowance_start (graph : Graph) : allowance graph [] ≤ graph.connections.length + graph.size := by
  have each : ∀ row ∈ graph.blocks.rows, (added graph row.1).length ≤ row.2.connections.length + 1 := by
    intro row member
    have found : graph.get? row.1 = some row.2 := Table.mem_rows_iff.mp member
    cases follows : graph.next.get? row.1 with
    | none => simp [added, found, follows]
    | some after => simp [added, found, follows]
  rw [allowance, unmet_nil, ids, Table.keys, Rows.keys, connections, Table.values, size, Table.size]
  generalize graph.blocks.rows = rows at each ⊢
  induction rows with
  | nil => exact Nat.le_refl 0
  | cons row rows ih =>
      obtain ⟨own, others⟩ := List.forall_mem_cons.mp each
      have later := ih others
      simp only [List.map_cons, List.flatMap_cons, List.length_append, List.length_cons]
      omega

def weight (graph : Graph) (hunt : Hunt) : Nat := hunt.pending.length + allowance graph hunt.visited

-- The search has lost nothing on its way from the source: all that the ids looked at lead to is looked at
-- or pending, and the target is not yet met.
structure Covers (graph : Graph) (source target : String) (hunt : Hunt) : Prop where
  reached : ∀ id ∈ hunt.pending, ReflTransGen graph.Depends source id
  missed : target ∉ hunt.visited
  begun : source ∈ hunt.pending ∨ source ∈ hunt.visited
  closed : ∀ id ∈ hunt.visited, ∀ next, graph.Depends id next → next ∈ hunt.pending ∨ next ∈ hunt.visited

theorem Covers.start (graph : Graph) (source target : String) : Covers graph source target ⟨[source], []⟩ := by
  refine ⟨?_, List.not_mem_nil, Or.inl List.mem_cons_self, List.forall_mem_nil _⟩
  intro id member
  rw [List.mem_singleton.mp member]

theorem Covers.step (covers : Covers graph source target hunt) (goes : hunt.turn graph target = .inr after) :
    Covers graph source target after ∧ weight graph after + 1 = weight graph hunt := by
  obtain ⟨id, rest, top, apart, ⟨seen, rfl⟩ | ⟨fresh, rfl⟩⟩ := turn_onward goes
  · -- An id that was looked at before leaves the stack; it still counts among the visited ones.
    have moved : ∀ other, other ∈ hunt.pending ∨ other ∈ hunt.visited → other ∈ rest ∨ other ∈ hunt.visited := by
      rw [top]
      rintro other (waiting | known)
      · rcases List.mem_cons.mp waiting with same | later
        · exact Or.inr (same ▸ seen)
        · exact Or.inl later
      · exact Or.inr known
    refine ⟨⟨?_, covers.missed, moved _ covers.begun, ?_⟩, ?_⟩
    · intro other later
      exact covers.reached other (top ▸ List.mem_cons_of_mem id later)
    · intro other known next depends
      exact moved next (covers.closed other known next depends)
    · simp only [weight, top, List.length_cons]
      omega
  · have here : ReflTransGen graph.Depends source id := covers.reached id (top ▸ List.mem_cons_self)
    have moved : ∀ other, other ∈ hunt.pending ∨ other ∈ hunt.visited →
        other ∈ added graph id ++ rest ∨ other ∈ id :: hunt.visited := by
      rw [top]
      rintro other (waiting | known)
      · rcases List.mem_cons.mp waiting with same | later
        · exact Or.inr (same ▸ List.mem_cons_self)
        · exact Or.inl (List.mem_append_right _ later)
      · exact Or.inr (List.mem_cons_of_mem id known)
    refine ⟨⟨?_, ?_, moved _ covers.begun, ?_⟩, ?_⟩
    · intro other member
      rcases List.mem_append.mp member with new | later
      · exact here.tail (mem_added_iff.mp new)
      · exact covers.reached other (top ▸ List.mem_cons_of_mem id later)
    · intro member
      rcases List.mem_cons.mp member with same | known
      · exact apart same.symm
      · exact covers.missed known
    · intro other member next depends
      rcases List.mem_cons.mp member with same | known
      · exact Or.inl (List.mem_append_left rest (mem_added_iff.mpr (same ▸ depends)))
      · exact moved next (covers.closed other known next depends)
    · have spent : (added graph id).length + allowance graph (id :: hunt.visited) = allowance graph hunt.visited :=
        allowance_visit fresh
      simp only [weight, top, List.length_cons, List.length_append]
      omega

theorem Covers.answer {answer : Bool} (covers : Covers graph source target hunt)
    (told : hunt.turn graph target = .inl answer) :
    answer = graph.dependsOn source target := by
  rcases turn_answer told with ⟨empty, rfl⟩ | ⟨met, rfl⟩
  · -- Nothing is pending, so that the visited ids hold all that the source leads to.
    have all : ∀ id, ReflTransGen graph.Depends source id → id ∈ hunt.visited := by
      intro id way
      have kept : ∀ other, other ∈ hunt.pending ∨ other ∈ hunt.visited → other ∈ hunt.visited := by
        rintro other (waiting | known)
        · rw [empty] at waiting
          cases waiting
        · exact known
      induction way with
      | refl => exact kept source covers.begun
      | tail _ depends ih => exact kept _ (covers.closed _ ih _ depends)
    symm
    rw [Bool.eq_false_iff]
    intro found
    exact covers.missed (all target (dependsOn_iff.mp found))
  · exact (dependsOn_iff.mpr (covers.reached target met)).symm

-- Each turn that goes on uses up one unit of the weight.
theorem Covers.run (covers : Covers graph source target hunt) :
    ∃ turns ≤ weight graph hunt, Ends graph target turns hunt (graph.dependsOn source target) := by
  induction size : weight graph hunt using Nat.strong_induction_on generalizing hunt with
  | _ size ih =>
    cases goes : hunt.turn graph target with
    | inl answer =>
        have same := covers.answer goes
        exact ⟨0, Nat.zero_le _, .answer (same ▸ goes)⟩
    | inr after =>
        obtain ⟨covering, less⟩ := covers.step goes
        obtain ⟨turns, bound, ends⟩ := ih (weight graph after) (by omega) covering rfl
        exact ⟨turns + 1, by omega, .turn goes ends⟩

end Hunt

-- The verdict on a connection, with the search behind it, for any state of a graph.
structure SearchesCycles (graph : Graph) : Prop where
  ends : ∀ source target, ∃ turns ≤ graph.connections.length + graph.size + 1,
    Hunt.Ends graph target turns ⟨[source], []⟩ (graph.dependsOn source target)
  reaches : ∀ source target,
    graph.dependsOn source target = true ↔ target = source ∨ TransGen graph.Requires source target
  refused : ∀ target socket source,
    (graph.connectRefusal? target socket source).map Refusal.code = some "would_create_cycle" ↔
      ∃ targetBlock sourceBlock input output,
        graph.get? target = some targetBlock ∧ graph.get? source = some sourceBlock ∧
        targetBlock.definition.input? socket = some input ∧ sourceBlock.definition.output = some output ∧
        input.acceptsType output.type = true ∧ (target = source ∨ TransGen graph.Requires source target)

theorem connectRefusal?_cycle_iff :
    (graph.connectRefusal? target socket source).map Refusal.code = some "would_create_cycle" ↔
      ∃ targetBlock sourceBlock input output,
        graph.get? target = some targetBlock ∧ graph.get? source = some sourceBlock ∧
        targetBlock.definition.input? socket = some input ∧ sourceBlock.definition.output = some output ∧
        input.acceptsType output.type = true ∧ graph.dependsOn source target = true := by
  unfold connectRefusal?
  cases graph.get? target with
  | none => simp [Refusal.code]
  | some targetBlock =>
      cases graph.get? source with
      | none => simp [Refusal.code]
      | some sourceBlock =>
          cases declared : targetBlock.definition.input? socket with
          | none => simp [Refusal.code, declared]
          | some input =>
              cases given : sourceBlock.definition.output with
              | none => simp [Refusal.code, declared, given]
              | some output =>
                  by_cases fit : input.acceptsType output.type = true
                  · by_cases circle : graph.dependsOn source target = true
                    · simp [Refusal.code, declared, given, fit, circle]
                    · simp [declared, given, fit, circle]
                  · simp [Refusal.code, declared, given, fit]

theorem searches_cycles (graph : Graph) : graph.SearchesCycles := by
  refine ⟨?_, fun _ _ => dependsOn_iff_requires, ?_⟩
  · intro source target
    obtain ⟨turns, bound, ends⟩ := (Hunt.Covers.start graph source target).run
    have most := Hunt.allowance_start graph
    refine ⟨turns, ?_, ends⟩
    simp only [Hunt.weight, List.length_singleton] at bound
    omega
  · intro target socket source
    simp only [connectRefusal?_cycle_iff, dependsOn_iff_requires]

-- Two sums feed each other, and one of them is followed by a block that is not there.
example :
    let sums := (Canvas.run Catalog.builtin [.create "op.add" none, .create "op.add" none]).graph
    let torn := ((sums.attach "gen-1" ⟨"gen-2", "gen-1", "left"⟩).attach "gen-2" ⟨"gen-1", "gen-2", "left"⟩).link
      "gen-2" "gone"
    torn.dependsOn "gen-1" "gone" = true ∧ torn.dependsOn "gone" "gen-1" = false ∧
      torn.dependsOn "gen-1" "gen-3" = false := by cbv

end BlockCanvas.Graph

import BlockCanvas.Catalog.Builtin
import BlockCanvas.Proofs.Growth
import BlockCanvas.Proofs.Path
namespace BlockCanvas.Graph
open Relation

variable {graph changed : Graph} {id wanted first second : String}

def Follows (graph : Graph) (first second : String) : Prop :=
  graph.next.get? first = some second

-- Both blocks are on the canvas, and their definitions allow a link from the first to the second.
def MayFollow (graph : Graph) (first second : String) : Prop :=
  ∃ before after, graph.definition? first = some before ∧ graph.definition? second = some after ∧
    before.hasNext = true ∧ after.hasPrevious = true

-- The links are disjoint paths over the blocks of the canvas.
structure Sequenced (graph : Graph) : Prop where
  inverse : ∀ first second, graph.next.get? first = some second ↔ graph.previous.get? second = some first
  ends : ∀ first second, graph.Follows first second → graph.MayFollow first second
  acyclic : Acyclic graph.Follows

-- The walk along the links finds what lies ahead, and only that.

theorem leadsTo_iff {unseen : List String} :
    graph.leadsTo wanted unseen id = true ↔ ReflTransGen (Leaving graph.Follows unseen) id wanted := by
  fun_induction leadsTo graph wanted unseen id with
  | case1 unseen => exact ⟨fun _ => .refl, fun _ => rfl⟩
  | case2 unseen id apart present _ last =>
      refine ⟨by simp, fun way => ?_⟩
      obtain ⟨_, _, taken, _⟩ := leave_start apart way
      rw [Follows, last] at taken
      cases taken
  | case3 unseen id apart present _ next follows ih =>
      rw [ih]
      constructor
      · intro rest
        have kept : ∀ a b, Leaving graph.Follows (unseen.erase id) a b → Leaving graph.Follows unseen a b :=
          fun _ _ taken => ⟨List.mem_of_mem_erase taken.1, taken.2⟩
        exact .head ⟨present, follows⟩ (ReflTransGen.mono kept _ _ rest)
      · intro way
        obtain ⟨_, other, taken, rest⟩ := leave_start apart way
        rw [Follows, follows] at taken
        cases taken
        exact rest
  | case4 unseen id apart absent =>
      refine ⟨by simp, fun way => ?_⟩
      exact absurd (leave_start apart way).1 absent

theorem chainReaches_iff : graph.chainReaches first wanted = true ↔ ReflTransGen graph.Follows first wanted := by
  have same : Leaving graph.Follows graph.next.keys = graph.Follows := by
    funext first second
    exact propext ⟨And.right, fun follows => ⟨Table.mem_keys_iff.mpr ⟨second, follows⟩, follows⟩⟩
  rw [chainReaches, leadsTo_iff, same]

-- The index after each of its elementary changes.

theorem next_unlinkNext (graph : Graph) (id first : String) :
    (graph.unlinkNext id).next.get? first = if id = first then none else graph.next.get? first := by
  unfold unlinkNext
  split
  · rename_i last
    by_cases same : id = first
    · subst first
      simp [last]
    · simp [same]
  · simp

theorem previous_unlinkNext (graph : Graph) (id second : String) :
    (graph.unlinkNext id).previous.get? second =
      if graph.next.get? id = some second then none else graph.previous.get? second := by
  unfold unlinkNext
  split
  · rename_i last
    simp [last]
  · rename_i next follows
    simp [follows]

theorem unlinkNext_eq_self (last : graph.next.get? id = none) : graph.unlinkNext id = graph := by
  simp only [unlinkNext, last]

theorem unlinkBefore_eq_self (root : graph.previous.get? id = none) : graph.unlinkBefore id = graph := by
  simp only [unlinkBefore, root]

theorem next_link (graph : Graph) (id wanted first : String) :
    (graph.link id wanted).next.get? first = if id = first then some wanted else graph.next.get? first := by
  simp [link]

theorem previous_link (graph : Graph) (id wanted second : String) :
    (graph.link id wanted).previous.get? second =
      if wanted = second then some id else graph.previous.get? second := by
  simp [link]

theorem MayFollow.mono (may : graph.MayFollow first second)
    (kept : ∀ id definition, graph.definition? id = some definition → changed.definition? id = some definition) :
    changed.MayFollow first second := by
  obtain ⟨before, after, foundFirst, foundSecond, ahead, behind⟩ := may
  exact ⟨before, after, kept _ _ foundFirst, kept _ _ foundSecond, ahead, behind⟩

namespace Sequenced

theorem empty : Sequenced Graph.empty := by
  refine ⟨by simp [Graph.empty], ?_, ?_⟩
  · intro first second follows
    simp [Follows, Graph.empty] at follows
  · intro id cycle
    obtain ⟨_, follows, _⟩ := TransGen.head'_iff.mp cycle
    simp [Follows, Graph.empty] at follows

-- Whatever leaves the links alone and drops no block keeps the paths.
theorem frame (valid : Sequenced graph) (next : changed.next = graph.next)
    (previous : changed.previous = graph.previous)
    (kept : ∀ id definition, graph.definition? id = some definition → changed.definition? id = some definition) :
    Sequenced changed := by
  have same : changed.Follows = graph.Follows := by
    funext first second
    rw [Follows, Follows, next]
  refine ⟨?_, ?_, ?_⟩
  · intro first second
    rw [next, previous]
    exact valid.inverse first second
  · intro first second follows
    rw [same] at follows
    exact (valid.ends first second follows).mono kept
  · rw [same]
    exact valid.acyclic

theorem edit {edit : Block → Block} (valid : Sequenced graph)
    (same : ∀ block, (edit block).definition = block.definition) : Sequenced (graph.change id edit) := by
  refine valid.frame rfl rfl ?_
  intro wanted definition found
  rw [definition?_change same, found]

theorem follows_unlinkNext (follows : (graph.unlinkNext id).Follows first second) :
    id ≠ first ∧ graph.Follows first second := by
  rw [Follows, next_unlinkNext] at follows
  by_cases same : id = first
  · simp [same] at follows
  · rw [if_neg same] at follows
    exact ⟨same, follows⟩

theorem unlinkNext (valid : Sequenced graph) (id : String) : Sequenced (graph.unlinkNext id) := by
  refine ⟨?_, ?_, ?_⟩
  · intro first second
    rw [next_unlinkNext, previous_unlinkNext]
    by_cases cut : id = first
    · subst first
      by_cases linked : graph.next.get? id = some second
      · simp [linked]
      · have other : graph.previous.get? second ≠ some id := fun behind =>
          linked ((valid.inverse id second).mpr behind)
        simp [linked, other]
    · by_cases linked : graph.next.get? id = some second
      · have other : graph.next.get? first ≠ some second := by
          intro also
          have behind := (valid.inverse first second).mp also
          rw [(valid.inverse id second).mp linked] at behind
          exact cut (Option.some.inj behind)
        simp [cut, linked, other]
      · simpa [cut, linked] using valid.inverse first second
  · intro first second follows
    have old := (follows_unlinkNext follows).2
    rw [show (graph.unlinkNext id).MayFollow = graph.MayFollow by
      unfold MayFollow; rw [definition?_of_blocks (blocks_unlinkNext graph id)]]
    exact valid.ends first second old
  · exact valid.acyclic.mono fun _ _ follows => (follows_unlinkNext follows).2

theorem unlinkBefore (valid : Sequenced graph) (id : String) : Sequenced (graph.unlinkBefore id) := by
  unfold Graph.unlinkBefore
  split
  · exact valid
  · exact valid.unlinkNext _

theorem follows_unlinkBefore (follows : (graph.unlinkBefore id).Follows first second) :
    graph.Follows first second := by
  unfold Graph.unlinkBefore at follows
  split at follows
  · exact follows
  · exact (follows_unlinkNext follows).2

theorem previous_unlinkBefore (valid : Sequenced graph) (id : String) :
    (graph.unlinkBefore id).previous.get? id = none := by
  unfold Graph.unlinkBefore
  split
  · assumption
  · rename_i before behind
    rw [previous_unlinkNext, if_pos ((valid.inverse before id).mpr behind)]

-- A link between free ends that closes no circle.
theorem link (valid : Sequenced graph) (last : graph.next.get? id = none)
    (root : graph.previous.get? wanted = none) (may : graph.MayFollow id wanted)
    (apart : ¬ ReflTransGen graph.Follows wanted id) : Sequenced (graph.link id wanted) := by
  refine ⟨?_, ?_, ?_⟩
  · intro first second
    rw [next_link, previous_link]
    by_cases start : id = first
    · subst first
      by_cases stop : wanted = second
      · simp [stop]
      · have other : graph.previous.get? second ≠ some id := by
          intro behind
          rw [← valid.inverse, last] at behind
          cases behind
        simp [stop, other]
    · by_cases stop : wanted = second
      · subst second
        have other : graph.next.get? first ≠ some wanted := by
          intro ahead
          rw [valid.inverse, root] at ahead
          cases ahead
        simp [start, other]
      · simpa [start, stop] using valid.inverse first second
  · intro first second follows
    rw [Follows, next_link] at follows
    change graph.MayFollow first second
    by_cases start : id = first
    · subst first
      rw [if_pos rfl] at follows
      cases follows
      exact may
    · rw [if_neg start] at follows
      exact valid.ends first second follows
  · apply valid.acyclic.insert apart
    intro first second follows
    rw [Follows, next_link] at follows
    by_cases start : id = first
    · rw [if_pos start] at follows
      exact Or.inr ⟨start.symm, (Option.some.inj follows).symm⟩
    · rw [if_neg start] at follows
      exact Or.inl follows

-- The splice joins the neighbours only after both links at the gap are gone.
theorem spliceOut (valid : Sequenced graph) (id : String) :
    Sequenced (graph.spliceOut id) ∧ (graph.spliceOut id).next.get? id = none ∧
      (graph.spliceOut id).previous.get? id = none := by
  have rest := valid.unlinkNext id
  have ahead : (graph.unlinkNext id).next.get? id = none := by simp [next_unlinkNext]
  have behind : (graph.unlinkNext id).previous.get? id = graph.previous.get? id := by
    have straight : graph.next.get? id ≠ some id := fun loop => valid.acyclic.ne loop rfl
    rw [previous_unlinkNext, if_neg straight]
  unfold Graph.spliceOut
  dsimp only
  split
  · rename_i root
    exact ⟨rest, ahead, behind.trans root⟩
  · rename_i before linked
    have into : graph.Follows before id := (valid.inverse before id).mpr linked
    have apartBefore : before ≠ id := valid.acyclic.ne into
    have stillInto : (graph.unlinkNext id).next.get? before = some id := by
      rw [next_unlinkNext, if_neg apartBefore.symm]
      exact into
    have loose := rest.unlinkNext before
    have looseAhead : ((graph.unlinkNext id).unlinkNext before).next.get? id = none := by
      rw [next_unlinkNext, if_neg apartBefore, ahead]
    have looseBehind : ((graph.unlinkNext id).unlinkNext before).previous.get? id = none := by
      rw [previous_unlinkNext, if_pos stillInto]
    split
    · exact ⟨loose, looseAhead, looseBehind⟩
    · rename_i after follows
      have out : graph.Follows id after := follows
      have apartAfter : id ≠ after := valid.acyclic.ne out
      have last : ((graph.unlinkNext id).unlinkNext before).next.get? before = none := by
        rw [next_unlinkNext, if_pos rfl]
      have root : ((graph.unlinkNext id).unlinkNext before).previous.get? after = none := by
        rw [previous_unlinkNext, previous_unlinkNext, if_pos follows]
        split <;> rfl
      have may : graph.MayFollow before after := by
        obtain ⟨first, _, foundFirst, _, canLead, _⟩ := valid.ends before id into
        obtain ⟨_, second, _, foundSecond, _, canFollow⟩ := valid.ends id after out
        exact ⟨first, second, foundFirst, foundSecond, canLead, canFollow⟩
      have apart : ¬ ReflTransGen ((graph.unlinkNext id).unlinkNext before).Follows after before := by
        intro way
        have old : ReflTransGen graph.Follows after before := ReflTransGen.mono
          (fun _ _ taken => (follows_unlinkNext (follows_unlinkNext taken).2).2) _ _ way
        exact valid.acyclic id (.head' out (old.tail into))
      have kept : ((graph.unlinkNext id).unlinkNext before).definition? = graph.definition? :=
        definition?_of_blocks (by simp)
      refine ⟨loose.link last root (may.mono fun _ _ found => by rw [kept]; exact found) apart, ?_, ?_⟩
      · rw [next_link, if_neg apartBefore, looseAhead]
      · rw [previous_link, if_neg apartAfter.symm, looseBehind]

theorem delete (valid : Sequenced graph) (id : String) : Sequenced (graph.delete id) := by
  obtain ⟨spliced, ahead, behind⟩ := valid.spliceOut id
  refine ⟨spliced.inverse, ?_, spliced.acyclic⟩
  intro first second follows
  have link : (graph.spliceOut id).next.get? first = some second := follows
  have apartFirst : id ≠ first := by
    intro equal
    rw [← equal, ahead] at link
    cases link
  have apartSecond : id ≠ second := by
    intro equal
    rw [spliced.inverse, ← equal, behind] at link
    cases link
  obtain ⟨before, after, foundFirst, foundSecond, canLead, canFollow⟩ := spliced.ends first second link
  rw [definition?_of_blocks (blocks_spliceOut graph id)] at foundFirst foundSecond
  refine ⟨before, after, ?_, ?_, canLead, canFollow⟩
  · rw [definition?_delete, if_neg apartFirst, foundFirst]
  · rw [definition?_delete, if_neg apartSecond, foundSecond]

theorem setNext {next : Option String} (valid : Sequenced graph)
    (accepted : graph.setNext id next = .ok changed) : Sequenced changed := by
  cases next with
  | none =>
      obtain ⟨_, rfl⟩ := setNext_none_eq_ok_iff.mp accepted
      exact valid.unlinkNext id
  | some wanted =>
      obtain ⟨block, nextBlock, found, foundNext, canLead, canFollow, clear, rfl⟩ :=
        setNext_some_eq_ok_iff.mp accepted
      have cut := valid.unlinkNext id
      have loose := cut.unlinkBefore wanted
      have last : ((graph.unlinkNext id).unlinkBefore wanted).next.get? id = none := by
        apply Option.eq_none_iff_forall_not_mem.mpr
        intro second ahead
        exact (follows_unlinkNext (follows_unlinkBefore ahead)).1 rfl
      have apart : ¬ ReflTransGen ((graph.unlinkNext id).unlinkBefore wanted).Follows wanted id := by
        intro way
        have old : ReflTransGen graph.Follows wanted id := ReflTransGen.mono
          (fun _ _ taken => (follows_unlinkNext (follows_unlinkBefore taken)).2) _ _ way
        rw [← chainReaches_iff, clear] at old
        cases old
      have kept : ((graph.unlinkNext id).unlinkBefore wanted).definition? = graph.definition? :=
        definition?_of_blocks (by simp)
      refine loose.link last (cut.previous_unlinkBefore wanted) ?_ apart
      refine ⟨block.definition, nextBlock.definition, ?_, ?_, canLead, canFollow⟩
      · rw [kept, definition?_of_get? found]
      · rw [kept, definition?_of_get? foundNext]

theorem change {catalog : Catalog} (valid : Sequenced graph) (step : Change catalog graph changed) :
    Sequenced changed := by
  rcases step.kind with ⟨_, _, _, _, added⟩ | ⟨_, _, rfl⟩ | ⟨_, _, rfl, same⟩ | ⟨_, _, accepted⟩
  · refine valid.frame ?_ ?_ fun _ _ found => definition?_add_of_some added found
    · obtain ⟨_, rfl⟩ := add_eq_some_iff.mp added
      rfl
    · obtain ⟨_, rfl⟩ := add_eq_some_iff.mp added
      rfl
  · exact valid.delete _
  · exact valid.edit same
  · exact valid.setNext accepted

end Sequenced

theorem Grown.sequenced {catalog : Catalog} (grown : Grown catalog graph) : Sequenced graph := by
  induction grown with
  | empty => exact .empty
  | change _ step ih => exact ih.change step

-- The same as seen through the look-ups, which show a neighbour only if it is on the canvas.
structure DisjointPaths (graph : Graph) : Prop where
  inverse : ∀ first second, graph.nextOf? first = some second ↔ graph.previousOf? second = some first
  present : ∀ id, graph.nextOf? id = graph.next.get? id ∧ graph.previousOf? id = graph.previous.get? id
  capable : ∀ first second, graph.next.get? first = some second →
    ∃ before after, graph.get? first = some before ∧ graph.get? second = some after ∧
      before.definition.hasNext = true ∧ after.definition.hasPrevious = true
  acyclic : Acyclic fun first second => graph.nextOf? first = some second
  finite : WellFounded fun second first => graph.nextOf? first = some second

theorem Sequenced.capable (valid : Sequenced graph) (follows : graph.Follows first second) :
    ∃ before after, graph.get? first = some before ∧ graph.get? second = some after ∧
      before.definition.hasNext = true ∧ after.definition.hasPrevious = true := by
  obtain ⟨_, _, foundFirst, foundSecond, canLead, canFollow⟩ := valid.ends first second follows
  obtain ⟨before, present, rfl⟩ := get?_of_definition? foundFirst
  obtain ⟨after, presentToo, rfl⟩ := get?_of_definition? foundSecond
  exact ⟨before, after, present, presentToo, canLead, canFollow⟩

theorem Sequenced.nextOf?_eq (valid : Sequenced graph) (id : String) : graph.nextOf? id = graph.next.get? id := by
  cases follows : graph.next.get? id with
  | none => simp [nextOf?, follows]
  | some second =>
      obtain ⟨_, _, _, present, _⟩ := valid.capable follows
      simp [nextOf?, follows, Option.filter, contains_of_get? present]

theorem Sequenced.previousOf?_eq (valid : Sequenced graph) (id : String) :
    graph.previousOf? id = graph.previous.get? id := by
  cases behind : graph.previous.get? id with
  | none => simp [previousOf?, behind]
  | some first =>
      obtain ⟨_, _, present, _⟩ := valid.capable ((valid.inverse first id).mpr behind)
      simp [previousOf?, behind, Option.filter, contains_of_get? present]

-- Walking on along the links ends, since each step comes to another block of the canvas.
theorem Sequenced.finite (valid : Sequenced graph) : WellFounded (Function.swap graph.Follows) := by
  apply valid.acyclic.swap.founded
  intro second first follows
  obtain ⟨_, after, _, present, _⟩ := valid.capable follows
  exact mem_ids_iff.mpr ⟨after, present⟩

theorem Sequenced.disjointPaths (valid : Sequenced graph) : DisjointPaths graph := by
  have seen : (fun first second => graph.nextOf? first = some second) = graph.Follows := by
    funext first second
    rw [valid.nextOf?_eq, Follows]
  refine ⟨?_, fun id => ⟨valid.nextOf?_eq id, valid.previousOf?_eq id⟩, fun _ _ => valid.capable, ?_, ?_⟩
  · intro first second
    rw [valid.nextOf?_eq, valid.previousOf?_eq]
    exact valid.inverse first second
  · rw [seen]
    exact valid.acyclic
  · change WellFounded (Function.swap fun first second => graph.nextOf? first = some second)
    rw [seen]
    exact valid.finite

end BlockCanvas.Graph

namespace BlockCanvas
variable {catalog : Catalog} {canvas : Canvas}

theorem reached_disjoint_paths (path : Reached catalog canvas) : canvas.graph.DisjointPaths :=
  path.grown.sequenced.disjointPaths

-- A block is taken out of the middle of a chain of three.
def gapCommands : List Command :=
  [.create "io.write" none, .create "control.if" none, .create "io.write" none,
    .setNext "gen-1" (some "gen-2"), .setNext "gen-2" (some "gen-3"), .delete "gen-2"]

theorem reached_disjoint_paths_gap :
    (Canvas.run Catalog.builtin gapCommands).graph.DisjointPaths ∧
      (Canvas.run Catalog.builtin gapCommands).graph.nextOf? "gen-1" = some "gen-3" :=
  ⟨reached_disjoint_paths (reached_run (by simp [gapCommands, Command.Known])), by decide +kernel⟩

end BlockCanvas

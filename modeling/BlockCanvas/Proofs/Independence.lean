import BlockCanvas.Proofs.RoundTrip
import BlockCanvas.Proofs.Typing
namespace BlockCanvas
open Relation

-- Where no step of the second kind leaves the end of a step of the first kind, a way takes all its
-- steps of the second kind before those of the first.
theorem way_divided {first second : String → String → Prop}
    (apart : ∀ before here after, first before here → ¬ second here after)
    (way : TransGen (fun one other => first one other ∨ second one other) start goal) :
    TransGen second start goal ∨ ∃ middle, ReflTransGen second start middle ∧ TransGen first middle goal := by
  induction way with
  | single taken =>
      rcases taken with taken | taken
      · exact Or.inr ⟨start, .refl, .single taken⟩
      · exact Or.inl (.single taken)
  | tail _ taken ih =>
      rcases taken with taken | taken
      · rcases ih with before | ⟨middle, before, after⟩
        · exact Or.inr ⟨_, before.to_reflTransGen, .single taken⟩
        · exact Or.inr ⟨middle, before, after.tail taken⟩
      · rcases ih with before | ⟨middle, _, after⟩
        · exact Or.inl (before.tail taken)
        · obtain ⟨_, _, last⟩ := TransGen.tail'_iff.mp after
          exact absurd taken (apart _ _ _ last)

theorem Acyclic.union {first second : String → String → Prop} (one : Acyclic first) (two : Acyclic second)
    (apart : ∀ before here after, first before here → ¬ second here after) :
    Acyclic fun before after => first before after ∨ second before after := by
  intro id cycle
  rcases way_divided apart cycle with way | ⟨middle, before, after⟩
  · exact two id way
  · rcases before.cases_head with same | ⟨next, taken, _⟩
    · subst same
      exact one id after
    · obtain ⟨_, _, last⟩ := TransGen.tail'_iff.mp after
      exact apart _ _ _ last taken

-- No definition gives a value and leads on to a next block.
def Catalog.Divided (catalog : Catalog) : Prop :=
  ∀ definition ∈ catalog.definitions, definition.output = none ∨ definition.hasNext = false

theorem Catalog.Divided.hasNext {catalog : Catalog} {definition : Definition} {output : Socket}
    (divided : catalog.Divided) (known : definition.Known catalog) (out : definition.output = some output) :
    definition.hasNext = false := by
  rcases divided definition (Table.mem_values_iff.mpr ⟨definition.id, known⟩) with nothing | last
  · rw [nothing] at out
    cases out
  · exact last

theorem Catalog.builtin_divided : Catalog.builtin.Divided := by
  have every : ∀ definition ∈ Catalog.builtinDefinitions, definition.output = none ∨ definition.hasNext = false := by
    decide +kernel
  intro definition listed
  obtain ⟨key, found⟩ := Table.mem_values_iff.mp listed
  exact every definition (Catalog.mem_builtinDefinitions (Definition.known_of_get? found))

namespace Graph
variable {catalog : Catalog} {graph changed : Graph} {id : String}

theorem Sequenced.next_eq_none_of_hasNext (valid : Sequenced graph) {block : Block}
    (found : graph.get? id = some block) (last : block.definition.hasNext = false) : graph.next.get? id = none := by
  apply Option.eq_none_iff_forall_not_mem.mpr
  intro second follows
  obtain ⟨before, _, present, _, canLead, _⟩ := valid.capable follows
  rw [found] at present
  cases present
  rw [last] at canLead
  cases canLead

namespace Sound

-- A block that feeds another stands in no chain before a third.
theorem feeding_last (sound : Sound catalog graph) (divided : catalog.Divided) (feeds : graph.Feeds source target) :
    graph.next.get? source = none := by
  obtain ⟨block, socket, connection, found, stored, rfl⟩ := feeds
  obtain ⟨_, _, definition, output, _, given, out, _⟩ :=
    (sound.wired.fits target block found).connection socket connection stored
  have last := divided.hasNext (sound.known _ _ given) out
  obtain ⟨giving, present, rfl⟩ := get?_of_definition? given
  exact sound.sequenced.next_eq_none_of_hasNext present last

theorem acyclic_union (sound : Sound catalog graph) (divided : catalog.Divided) :
    Acyclic fun first second => graph.Feeds second first ∨ graph.Follows first second := by
  refine Acyclic.union sound.wired.acyclic.swap sound.sequenced.acyclic ?_
  intro before here after feeds follows
  rw [Follows, sound.feeding_last divided feeds] at follows
  cases follows

-- The search that starts at a block without a next one meets no link.
theorem dependsOn_iff_feeds (sound : Sound catalog graph) (divided : catalog.Divided)
    (last : graph.next.get? source = none) :
    graph.dependsOn source target = true ↔ ReflTransGen graph.Feeds target source := by
  rw [dependsOn_iff]
  refine ⟨fun way => ?_, reflTransGen_depends⟩
  induction way using ReflTransGen.head_induction_on with
  | refl => exact .refl
  | @head here next depends _ ih =>
      have feeds : graph.Feeds next here := by
        cases found : graph.get? here with
        | none => simp [Depends, dependencies, found] at depends
        | some block =>
            simp only [Depends, dependencies, found, last, Option.toList_none, List.append_nil, List.mem_map] at depends
            obtain ⟨connection, listed, rfl⟩ := depends
            obtain ⟨socket, stored⟩ := mem_connections_iff.mp listed
            exact ⟨block, socket, connection, found, stored, rfl⟩
      exact (ih (sound.feeding_last divided feeds)).tail feeds

theorem relink (sound : Sound catalog graph) (same : changed.blocks = graph.blocks) (sequenced : Sequenced changed) :
    Sound catalog changed := by
  refine ⟨sound.wired.relink same, sequenced, ?_⟩
  rw [definition?_of_blocks same]
  exact sound.known

-- The verdict on a connection is the same whatever the links are.
theorem connectRefusal?_relink (sound : Sound catalog graph) (divided : catalog.Divided)
    (same : changed.blocks = graph.blocks) (sequenced : Sequenced changed) (target socket source : String) :
    changed.connectRefusal? target socket source = graph.connectRefusal? target socket source := by
  have relinked := sound.relink same sequenced
  have shared : changed.get? = graph.get? := by
    funext id
    rw [get?, get?, same]
  have feeds : changed.Feeds = graph.Feeds := by
    funext source target
    rw [Feeds, Feeds, shared]
  unfold connectRefusal?
  rw [shared]
  cases foundTarget : graph.get? target with
  | none => rfl
  | some targetBlock =>
      cases found : graph.get? source with
      | none => rfl
      | some sourceBlock =>
          cases declared : targetBlock.definition.input? socket with
          | none => simp only [declared]
          | some input =>
              cases out : sourceBlock.definition.output with
              | none => simp only [declared, out]
              | some output =>
                  have last := divided.hasNext (sound.known _ _ (definition?_of_get? found)) out
                  have alone := sound.sequenced.next_eq_none_of_hasNext found last
                  have stillAlone := sequenced.next_eq_none_of_hasNext (shared ▸ found) last
                  have depends : changed.dependsOn source target = graph.dependsOn source target := by
                    rw [Bool.eq_iff_iff, relinked.dependsOn_iff_feeds divided stillAlone,
                      sound.dependsOn_iff_feeds divided alone, feeds]
                  simp only [depends]

end Sound

-- A link is made or refused without a look at the sockets.

theorem unlinkNext_change (edit : Block → Block) (first : String) :
    (graph.change id edit).unlinkNext first = (graph.unlinkNext first).change id edit := by
  simp only [unlinkNext, change]
  split <;> rfl

theorem unlinkBefore_change (edit : Block → Block) (second : String) :
    (graph.change id edit).unlinkBefore second = (graph.unlinkBefore second).change id edit := by
  have same : (graph.change id edit).previous = graph.previous := rfl
  simp only [unlinkBefore, same]
  split
  · rfl
  · exact unlinkNext_change edit _

theorem linkRefusal?_change {edit : Block → Block} (same : ∀ block, (edit block).definition = block.definition)
    (first second : String) : (graph.change id edit).linkRefusal? first second = graph.linkRefusal? first second := by
  have chains : (graph.change id edit).chainReaches second first = graph.chainReaches second first := by
    rw [Bool.eq_iff_iff, chainReaches_iff, chainReaches_iff]
    rfl
  have definitions : ∀ wanted, ((graph.change id edit).get? wanted).map Block.definition =
      (graph.get? wanted).map Block.definition := congrFun (definition?_change same)
  have atFirst := definitions first
  have atSecond := definitions second
  unfold linkRefusal?
  cases found : graph.get? first with
  | none =>
      rw [found, Option.map_none, Option.map_eq_none_iff] at atFirst
      simp only [atFirst]
  | some block =>
      rw [found, Option.map_some, Option.map_eq_some_iff] at atFirst
      obtain ⟨edited, present, kept⟩ := atFirst
      cases foundNext : graph.get? second with
      | none =>
          rw [foundNext, Option.map_none, Option.map_eq_none_iff] at atSecond
          simp only [present, atSecond]
      | some nextBlock =>
          rw [foundNext, Option.map_some, Option.map_eq_some_iff] at atSecond
          obtain ⟨editedNext, presentNext, keptNext⟩ := atSecond
          simp only [present, presentNext, kept, keptNext, chains]

theorem setNext_change {edit : Block → Block} (same : ∀ block, (edit block).definition = block.definition)
    (first : String) (next : Option String) :
    (graph.change id edit).setNext first next = (graph.setNext first next).map fun linked => linked.change id edit := by
  cases next with
  | none =>
      have present : (graph.change id edit).contains first = graph.contains first := by
        rw [Bool.eq_iff_iff, contains, contains, Table.contains_iff, Table.contains_iff]
        change first ∈ (graph.change id edit).ids ↔ first ∈ graph.ids
        rw [ids_change]
      simp only [setNext, present, unlinkNext_change]
      split <;> rfl
  | some wanted =>
      simp only [setNext, linkRefusal?_change same, unlinkNext_change, unlinkBefore_change]
      cases graph.linkRefusal? first wanted with
      | none => rfl
      | some refusal => rfl

end Graph

-- Either order gives the same two outcomes and leaves the same canvas.
structure Canvas.Commute (catalog : Catalog) (canvas : Canvas) (one other : Command) : Prop where
  outcome : ((canvas.step catalog other).1.step catalog one).2 = (canvas.step catalog one).2
  otherOutcome : ((canvas.step catalog one).1.step catalog other).2 = (canvas.step catalog other).2
  canvas : ((canvas.step catalog one).1.step catalog other).1 = ((canvas.step catalog other).1.step catalog one).1

theorem Graph.Sound.commute {catalog : Catalog} {canvas : Canvas} (sound : canvas.graph.Sound catalog)
    (divided : catalog.Divided) (target socket source first : String) (next : Option String) :
    canvas.Commute catalog (.connect target socket source) (.setNext first next) := by
  have linkAfter : ∀ connected, canvas.graph.connect target socket source = .ok connected →
      connected.setNext first next =
        (canvas.graph.setNext first next).map fun linked => linked.attach target ⟨source, target, socket⟩ := by
    intro connected accepted
    obtain ⟨_, _, _, _, _, _, _, _, _, _, rfl⟩ := connect_eq_ok_iff.mp accepted
    have same : ∀ block : Block, (block.attach ⟨source, target, socket⟩).definition = block.definition := fun _ => rfl
    exact setNext_change same first next
  have connectAfter : ∀ linked, canvas.graph.setNext first next = .ok linked →
      linked.connect target socket source =
        (canvas.graph.connect target socket source).map fun _ => linked.attach target ⟨source, target, socket⟩ := by
    intro linked accepted
    have verdict := sound.connectRefusal?_relink divided (blocks_setNext accepted)
      (sound.sequenced.setNext accepted) target socket source
    simp only [Graph.connect, verdict]
    cases canvas.graph.connectRefusal? target socket source with
    | none => rfl
    | some refusal => rfl
  cases connecting : canvas.graph.connect target socket source with
  | error refusal =>
      cases linking : canvas.graph.setNext first next with
      | error _ => constructor <;> simp only [Canvas.step, Canvas.judge, connecting, linking]
      | ok linked =>
          have verdict := connectAfter linked linking
          rw [connecting, Except.map] at verdict
          constructor <;> simp only [Canvas.step, Canvas.judge, connecting, linking, verdict]
  | ok connected =>
      have verdict := linkAfter connected connecting
      cases linking : canvas.graph.setNext first next with
      | error _ =>
          rw [linking, Except.map] at verdict
          constructor <;> simp only [Canvas.step, Canvas.judge, connecting, linking, verdict]
      | ok linked =>
          have other := connectAfter linked linking
          rw [linking, Except.map] at verdict
          rw [connecting, Except.map] at other
          constructor <;> simp only [Canvas.step, Canvas.judge, connecting, linking, verdict, other]

-- Connections and links do not meet: no circle runs through both, no link decides on a connection, and
-- it does not matter which of the two is made first.
structure Canvas.Independent (catalog : Catalog) (canvas : Canvas) : Prop where
  acyclic : Acyclic fun first second => canvas.graph.Feeds second first ∨ canvas.graph.Follows first second
  verdict : ∀ other : Graph, other.blocks = canvas.graph.blocks → other.Sequenced → ∀ target socket source,
    other.connectRefusal? target socket source = canvas.graph.connectRefusal? target socket source
  commute : ∀ target socket source first next,
    canvas.Commute catalog (.connect target socket source) (.setNext first next)

theorem reached_independent {catalog : Catalog} {canvas : Canvas} :
    Catalog.builtin.Divided ∧ (catalog.Divided → Reached catalog canvas → canvas.Independent catalog) := by
  refine ⟨Catalog.builtin_divided, fun divided path => ?_⟩
  have sound := path.grown.sound
  exact ⟨sound.acyclic_union divided, fun _ => sound.connectRefusal?_relink divided, sound.commute divided⟩

-- A sum feeds the second of two writes, and the first is linked to the second.
def linkedSumCommands : List Command :=
  [.create "io.write" none, .create "io.write" none, .create "op.add" none, .create "literal.number" none,
    .connect "gen-2" "value" "gen-3", .setNext "gen-1" (some "gen-2")]

theorem reached_independent_sum :
    (Canvas.run Catalog.builtin linkedSumCommands).Independent Catalog.builtin ∧
    (Canvas.run Catalog.builtin linkedSumCommands).graph.nextOf? "gen-1" = some "gen-2" ∧
    (Canvas.run Catalog.builtin linkedSumCommands).graph.connectRefusal? "gen-3" "left" "gen-4" = none :=
  ⟨reached_independent.2 Catalog.builtin_divided (reached_run (by simp [linkedSumCommands, Command.Known])),
    by cbv, by cbv⟩

end BlockCanvas

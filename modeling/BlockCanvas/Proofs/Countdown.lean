import BlockCanvas.Proofs.EvaluationOrder
import BlockCanvas.Proofs.Table
import Mathlib.Data.List.Basic
import Mathlib.Data.List.Nodup
namespace BlockCanvas.EvaluationOrder
open Relation

-- A loop that counts down: for each block the edges that still hold it back and the blocks it feeds,
-- then the blocks whose turn has come and the blocks placed so far.
structure Sweep where
  counts : Table Int
  onward : Table (List String)
  queue : List String
  placed : List String

namespace Sweep

-- An edge with an end that is not listed is passed over.
def enter (sweep : Sweep) (edge : Edge) : Sweep :=
  if sweep.counts.contains edge.1 && sweep.counts.contains edge.2 then
    { sweep with
      counts := sweep.counts.update edge.2 (· + 1)
      onward := sweep.onward.update edge.1 (· ++ [edge.2]) }
  else sweep

-- One edge less holds the target back; with the last one its turn has come.
def release (sweep : Sweep) (target : String) : Sweep :=
  let counts := sweep.counts.update target (· - 1)
  { sweep with
    counts := counts
    queue := if counts.get? target = some 0 then sweep.queue ++ [target] else sweep.queue }

def advance? (sweep : Sweep) : Option Sweep :=
  match sweep.queue with
  | [] => none
  | id :: rest =>
      some (((sweep.onward.get? id).getD []).foldl release
        { sweep with queue := rest, placed := sweep.placed ++ [id] })

def bare (ids : List String) : Sweep :=
  ⟨.ofRows (ids.map fun id => (id, 0)), .ofRows (ids.map fun id => (id, [])), [], []⟩

def start (ids : List String) (edges : List Edge) : Sweep :=
  let entered := edges.foldl enter (bare ids)
  { entered with queue := (entered.counts.rows.filter fun row => row.2 = 0).map Prod.fst }

def Advances (before after : Sweep) : Prop := before.advance? = some after

def outcome (sweep : Sweep) : EvaluationOrder :=
  ⟨sweep.placed, sweep.counts.keys.filter fun id => id ∉ sweep.placed⟩

-- The loop comes to its end, and this is what it has found there.
def Ends (sweep : Sweep) (ordering : EvaluationOrder) : Prop :=
  ∃ last, ReflTransGen Advances sweep last ∧ last.advance? = none ∧ last.outcome = ordering

end Sweep

variable {id target : String} {ids nodes queue rest waiting left names : List String} {edges links : List Edge}

-- The edges into a block that start at a block that still waits, parallel ones counted one by one.
def held (links : List Edge) (waiting : List String) (id : String) : Nat :=
  links.countP fun edge => edge.2 = id && edge.1 ∈ waiting

theorem held_eq_zero_iff : held links waiting id = 0 ↔ isFree links waiting id = true := by
  rw [held, List.countP_eq_zero, isFree_iff]
  simp

theorem held_cons (edge : Edge) (links : List Edge) (waiting : List String) (target : String) :
    held (edge :: links) waiting target =
      held links waiting target + if edge.2 = target ∧ edge.1 ∈ waiting then 1 else 0 := by
  simp [held, List.countP_cons]

theorem count_targets_cons (edge : Edge) (links : List Edge) (id target : String) :
    (targets (edge :: links) id).count target =
      (targets links id).count target + if edge.2 = target ∧ edge.1 = id then 1 else 0 := by
  by_cases out : edge.1 = id
  · simp [targets, out, List.count_cons]
  · simp [targets, out]

-- Placing a block takes away just the edges that leave it.
theorem held_erase (distinct : waiting.Nodup) (present : id ∈ waiting) (target : String) :
    held links waiting target = held links (waiting.erase id) target + (targets links id).count target := by
  induction links with
  | nil => rfl
  | cons edge rest ih =>
      rw [held_cons, held_cons, count_targets_cons, ih]
      by_cases out : edge.1 = id
      · have gone : id ∉ waiting.erase id := distinct.not_mem_erase
        simp only [out, gone, present, and_true, and_false, if_false]
        omega
      · simp only [out, List.mem_erase_of_ne out, and_false, if_false]
        omega

theorem lasts_nodup (ids : List String) : (lasts ids).Nodup := by
  induction ids with
  | nil => exact List.nodup_nil
  | cons head rest ih =>
      by_cases again : head ∈ rest
      · rwa [lasts, if_pos again]
      · rw [lasts, if_neg again, List.nodup_cons, mem_lasts]
        exact ⟨again, ih⟩

-- What is left over keeps its order.
theorem drain_residue (edges : List Edge) (queue : List String) (distinct : waiting.Nodup) :
    (drain edges queue waiting).residue =
      waiting.filter fun id => id ∉ (drain edges queue waiting).order := by
  fun_induction drain edges queue waiting with
  | case1 waiting => simp
  | case2 waiting id rest present _ others later ih =>
      have kept : later.residue = others.filter fun other => other ∉ later.order := ih (distinct.erase id)
      change later.residue = waiting.filter fun other => other ∉ id :: later.order
      rw [kept, show others = waiting.erase id from rfl, distinct.erase_eq_filter, List.filter_filter]
      apply List.filter_congr
      intro other _
      by_cases same : other = id
      · simp [same]
      · simp [same]
  | case3 waiting id rest absent ih => exact ih distinct

theorem ofEdges_residue (ids : List String) (edges : List Edge) :
    (ofEdges ids edges).residue = (firsts ids).filter fun id => id ∉ (ofEdges ids edges).order :=
  drain_residue _ _ (firsts_nodup ids)

namespace Sweep
variable {sweep : Sweep}

-- Releasing the targets of a placed block lowers each count by the number of its edges. A target joins the
-- queue at the last of them, if no other edge holds it back.
theorem foldl_release (listed : ∀ name ∈ names, name ∈ nodes)
    (counted : ∀ id ∈ nodes, sweep.counts.get? id = some ((held links left id + names.count id : Nat) : Int)) :
    (∀ id ∈ nodes, (names.foldl release sweep).counts.get? id = some (held links left id : Int)) ∧
      (names.foldl release sweep).queue = sweep.queue ++ (lasts names).filter (isFree links left) := by
  induction names generalizing sweep with
  | nil => simpa [lasts] using counted
  | cons name rest ih =>
      have lowered : ∀ id ∈ nodes, (sweep.release name).counts.get? id =
          some ((held links left id + rest.count id : Nat) : Int) := by
        intro id member
        by_cases same : name = id
        · subst id
          rw [release, Table.get?_update, if_pos rfl, counted name member, List.count_cons_self]
          simp only [Option.map_some, Option.some.injEq]
          omega
        · rw [release, Table.get?_update, if_neg same, counted id member, List.count_cons_of_ne same]
      obtain ⟨counts, queue⟩ := ih (fun other later => listed other (List.mem_cons_of_mem name later)) lowered
      refine ⟨counts, ?_⟩
      have reached : (sweep.release name).counts.get? name = some 0 ↔ name ∉ rest ∧ isFree links left name = true := by
        rw [lowered name (listed name List.mem_cons_self), ← held_eq_zero_iff, ← List.count_eq_zero]
        simp only [Option.some.injEq]
        omega
      have joined : (sweep.release name).queue =
          if (sweep.release name).counts.get? name = some 0 then sweep.queue ++ [name] else sweep.queue := rfl
      rw [List.foldl_cons, queue, joined]
      by_cases again : name ∈ rest
      · have waits : ¬(sweep.release name).counts.get? name = some 0 := fun zero => (reached.mp zero).1 again
        rw [if_neg waits, lasts, if_pos again]
      · rw [lasts, if_neg again]
        by_cases free : isFree links left name = true
        · rw [if_pos (reached.mpr ⟨again, free⟩), List.filter_cons_of_pos free, List.append_assoc,
            List.singleton_append]
        · rw [if_neg fun zero => free (reached.mp zero).2, List.filter_cons_of_neg free]

theorem foldl_release_frame (names : List String) (sweep : Sweep) :
    (names.foldl release sweep).placed = sweep.placed ∧ (names.foldl release sweep).onward = sweep.onward ∧
      (names.foldl release sweep).counts.keys = sweep.counts.keys := by
  induction names generalizing sweep with
  | nil => exact ⟨rfl, rfl, rfl⟩
  | cons name rest ih =>
      obtain ⟨placed, onward, keys⟩ := ih (sweep.release name)
      exact ⟨placed, onward, by rw [List.foldl_cons, keys]; simp [release]⟩

-- The loop stands where the blocks in the queue come next and the waiting ones are not placed yet.
structure Tracks (nodes : List String) (links : List Edge) (sweep : Sweep) (queue waiting : List String) : Prop where
  keys : sweep.counts.keys = nodes
  counts : ∀ id ∈ nodes, sweep.counts.get? id = some (held links waiting id : Int)
  onward : ∀ id ∈ nodes, sweep.onward.get? id = some (targets links id)
  turn : sweep.queue = queue
  ready : Ready links queue waiting
  distinct : queue.Nodup
  within : ∀ id ∈ queue, id ∈ waiting
  part : ∀ id ∈ waiting, id ∈ nodes
  closed : ∀ edge ∈ links, edge.2 ∉ waiting → edge.1 ∉ waiting

theorem Tracks.step (tracks : Tracks nodes links sweep (id :: rest) waiting)
    (listed : ∀ edge ∈ links, edge.2 ∈ nodes) :
    ∃ after, Advances sweep after ∧ after.placed = sweep.placed ++ [id] ∧
      Tracks nodes links after (rest ++ freed links id (waiting.erase id)) (waiting.erase id) := by
  have present : id ∈ waiting := tracks.within id List.mem_cons_self
  have distinct : waiting.Nodup := tracks.ready.distinct
  have free := isFree_iff.mp ((tracks.ready.queued id present).mp List.mem_cons_self)
  obtain ⟨fresh, others⟩ := List.nodup_cons.mp tracks.distinct
  let begun : Sweep := { sweep with queue := rest, placed := sweep.placed ++ [id] }
  have advances : Advances sweep ((targets links id).foldl release begun) := by
    have onward := tracks.onward id (tracks.part id present)
    simp only [Advances, advance?, tracks.turn, onward, Option.getD_some, begun]
  have lowered : ∀ other ∈ nodes, begun.counts.get? other =
      some ((held links (waiting.erase id) other + (targets links id).count other : Nat) : Int) := by
    intro other member
    rw [← held_erase distinct present]
    exact tracks.counts other member
  have aimed : ∀ name ∈ targets links id, name ∈ nodes := by
    intro name member
    obtain ⟨edge, kept, rfl⟩ := List.mem_map.mp member
    exact listed edge (List.mem_filter.mp kept).1
  obtain ⟨placed, onward, keys⟩ := foldl_release_frame (targets links id) begun
  obtain ⟨counts, queue⟩ := foldl_release aimed lowered
  refine ⟨_, advances, placed, ?_⟩
  refine ⟨keys.trans tracks.keys, counts, ?_, queue, tracks.ready.place, ?_, ?_, ?_, ?_⟩
  · intro other member
    rw [onward]
    exact tracks.onward other member
  · -- A queued block was free already, so no edge from this one leads to it.
    refine List.nodup_append.mpr ⟨others, (lasts_nodup _).filter _, ?_⟩
    rintro one later other opened rfl
    have before := (tracks.ready.queued one (tracks.within one (List.mem_cons_of_mem id later))).mp
      (List.mem_cons_of_mem id later)
    exact isFree_iff.mp before _ (mem_freed.mp opened).1 rfl present
  · intro other member
    rcases List.mem_append.mp member with later | opened
    · have apart : other ≠ id := fun same => fresh (same ▸ later)
      exact (List.mem_erase_of_ne apart).mpr (tracks.within other (List.mem_cons_of_mem id later))
    · have edge := (mem_freed.mp opened).1
      have apart : other ≠ id := fun same => free _ edge same present
      refine (List.mem_erase_of_ne apart).mpr ?_
      apply Classical.byContradiction
      intro gone
      exact tracks.closed _ edge gone present
  · exact fun other member => tracks.part other (List.mem_of_mem_erase member)
  · intro edge member gone held
    have source : edge.1 ∈ waiting := List.mem_of_mem_erase held
    by_cases same : edge.2 = id
    · exact free edge member same source
    · exact tracks.closed edge member (fun there => gone ((List.mem_erase_of_ne same).mpr there)) source

-- The loop places what the queue of free blocks would, in the same order.
theorem Tracks.run (tracks : Tracks nodes links sweep queue waiting) (listed : ∀ edge ∈ links, edge.2 ∈ nodes) :
    ∃ last, ReflTransGen Advances sweep last ∧ last.advance? = none ∧ last.counts.keys = nodes ∧
      last.placed = sweep.placed ++ (drain links queue waiting).order := by
  fun_induction drain links queue waiting generalizing sweep with
  | case1 waiting =>
      refine ⟨sweep, .refl, ?_, tracks.keys, by simp⟩
      rw [advance?, tracks.turn]
  | case2 waiting id rest present shorter others later =>
      rename_i ih
      obtain ⟨after, advances, placed, next⟩ := tracks.step listed
      obtain ⟨last, way, ended, keys, order⟩ := ih next
      refine ⟨last, .head advances way, ended, keys, ?_⟩
      rw [order, placed, List.append_assoc, List.singleton_append]
  | case3 waiting id rest absent ih => exact absurd (tracks.within id List.mem_cons_self) absent

-- Counting the edges of a list, from nothing.

theorem firsts_concat (ids : List String) (id : String) :
    firsts (ids ++ [id]) = if id ∈ ids then firsts ids else firsts ids ++ [id] := by
  induction ids with
  | nil => simp [firsts]
  | cons head rest ih =>
      rw [List.cons_append, firsts, ih, firsts]
      by_cases same : id = head
      · subst head
        by_cases again : id ∈ rest
        · simp [again]
        · simp [again]
      · by_cases again : id ∈ rest
        · simp [again]
        · simp [again, same]

theorem keys_ofRows (value : α) (ids : List String) :
    (Table.ofRows (ids.map fun id => (id, value))).keys = firsts ids := by
  induction ids using List.reverseRecOn with
  | nil => rfl
  | append_singleton ids id ih =>
      rw [List.map_append, List.map_singleton, Table.ofRows_concat, firsts_concat]
      by_cases again : id ∈ ids
      · rw [Table.keys_put_of_mem (ih ▸ mem_firsts.mpr again), ih, if_pos again]
      · rw [Table.keys_put_of_not_mem (fun there => again (mem_firsts.mp (ih ▸ there))), ih, if_neg again]

theorem get?_ofRows_const (value : α) (member : id ∈ ids) :
    (Table.ofRows (ids.map fun id => (id, value))).get? id = some value := by
  induction ids using List.reverseRecOn with
  | nil => cases member
  | append_singleton ids last ih =>
      rw [List.map_append, List.map_singleton, Table.ofRows_concat, Table.get?_put]
      by_cases same : last = id
      · rw [if_pos same]
      · have before : id ∈ ids := by
          rcases List.mem_append.mp member with before | here
          · exact before
          · exact absurd (List.mem_singleton.mp here).symm same
        rw [if_neg same, ih before]

-- The counts and the targets after some of the edges are entered.
structure Entered (ids : List String) (edges : List Edge) (sweep : Sweep) : Prop where
  keys : sweep.counts.keys = firsts ids
  counts : ∀ id ∈ firsts ids, sweep.counts.get? id = some (held (known (firsts ids) edges) (firsts ids) id : Int)
  onward : ∀ id ∈ firsts ids, sweep.onward.get? id = some (targets (known (firsts ids) edges) id)
  placed : sweep.placed = []

theorem Entered.bare (ids : List String) : Entered ids [] (Sweep.bare ids) :=
  ⟨keys_ofRows 0 ids, fun _ member => get?_ofRows_const 0 (mem_firsts.mp member),
    fun _ member => get?_ofRows_const [] (mem_firsts.mp member), rfl⟩

theorem Entered.step (entered : Entered ids edges sweep) (edge : Edge) :
    Entered ids (edges ++ [edge]) (sweep.enter edge) := by
  have listed : (sweep.counts.contains edge.1 && sweep.counts.contains edge.2) = true ↔
      edge.1 ∈ firsts ids ∧ edge.2 ∈ firsts ids := by
    rw [Bool.and_eq_true, Table.contains_iff, Table.contains_iff, entered.keys]
  by_cases ends : edge.1 ∈ firsts ids ∧ edge.2 ∈ firsts ids
  · have more : known (firsts ids) (edges ++ [edge]) = known (firsts ids) edges ++ [edge] := by
      simp [known, ends]
    rw [enter, if_pos (listed.mpr ends)]
    refine ⟨by simp [entered.keys], ?_, ?_, entered.placed⟩
    · intro id member
      by_cases into : edge.2 = id
      · simp [more, held, into, entered.counts id member, ends.1]
      · simp [more, held, into, entered.counts id member]
    · intro id member
      by_cases out : edge.1 = id
      · simp [more, targets, out, entered.onward id member]
      · simp [more, targets, out, entered.onward id member]
  · have same : known (firsts ids) (edges ++ [edge]) = known (firsts ids) edges := by
      simpa [known] using ends
    rw [enter, if_neg fun there => ends (listed.mp there)]
    exact ⟨entered.keys, same ▸ entered.counts, same ▸ entered.onward, entered.placed⟩

theorem entered_foldl (ids : List String) (edges : List Edge) : Entered ids edges (edges.foldl enter (Sweep.bare ids)) := by
  induction edges using List.reverseRecOn with
  | nil => exact .bare ids
  | append_singleton edges edge ih =>
      rw [List.foldl_append]
      exact ih.step edge

theorem target_listed {edge : Edge} (member : edge ∈ known ids edges) : edge.2 ∈ ids :=
  (mem_known.mp member).2.2

theorem tracks_start (ids : List String) (edges : List Edge) :
    Tracks (firsts ids) (known (firsts ids) edges) (start ids edges)
      ((firsts ids).filter (isFree (known (firsts ids) edges) (firsts ids))) (firsts ids) := by
  have entered := entered_foldl ids edges
  have queue : (start ids edges).queue =
      (firsts ids).filter (isFree (known (firsts ids) edges) (firsts ids)) := by
    rw [← entered.keys]
    change List.map Prod.fst (List.filter _ _) = List.filter _ (List.map Prod.fst _)
    rw [List.filter_map]
    refine congrArg (List.map Prod.fst) (List.filter_congr fun row member => ?_)
    have stored := Table.mem_rows_iff.mp member
    have key : row.1 ∈ firsts ids := entered.keys ▸ Table.mem_keys_iff.mpr ⟨row.2, stored⟩
    have count : row.2 = (held (known (firsts ids) edges) (firsts ids) row.1 : Int) :=
      Option.some.inj (stored.symm.trans (entered.counts row.1 key))
    rw [Function.comp_apply, entered.keys, Bool.eq_iff_iff, decide_eq_true_eq, ← held_eq_zero_iff, count]
    omega
  refine ⟨entered.keys, entered.counts, entered.onward, queue, .start _ (firsts_nodup ids),
    (firsts_nodup ids).filter _, fun _ member => (List.mem_filter.mp member).1, fun _ member => member, ?_⟩
  intro edge member gone
  exact absurd (target_listed member) gone

theorem ends_ofEdges (ids : List String) (edges : List Edge) : (start ids edges).Ends (ofEdges ids edges) := by
  obtain ⟨last, way, ended, keys, placed⟩ := (tracks_start ids edges).run fun _ => target_listed
  have order : last.placed = (ofEdges ids edges).order := by
    rw [placed]
    exact congrArg (· ++ _) (entered_foldl ids edges).placed
  refine ⟨last, way, ended, ?_⟩
  rw [outcome, keys, order, ← ofEdges_residue]

end Sweep
end BlockCanvas.EvaluationOrder

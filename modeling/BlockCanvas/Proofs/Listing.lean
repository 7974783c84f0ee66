import BlockCanvas.Proofs.Growth
import BlockCanvas.Proofs.Residue
import Mathlib
namespace BlockCanvas.Catalog
open EvaluationOrder (firsts firsts_nodup firsts_sorted mem_firsts)
open EvaluationOrder.Sweep (firsts_concat)

variable {catalog : Catalog} {given : List Definition} {definition : Definition} {id name : String}

-- What a catalog holds of the definitions it was made of.

-- No definition that comes later has the same id.
def IsLast (given : List Definition) (definition : Definition) : Prop :=
  ∃ before after, given = before ++ definition :: after ∧ ∀ other ∈ after, other.id ≠ definition.id

theorem isLast_concat {added : Definition} :
    IsLast (given ++ [added]) definition ↔ definition = added ∨ added.id ≠ definition.id ∧ IsLast given definition := by
  constructor
  · rintro ⟨before, after, split, later⟩
    rcases List.eq_nil_or_concat after with rfl | ⟨between, last, rfl⟩
    · obtain ⟨_, same⟩ := List.append_inj' split rfl
      cases same
      exact Or.inl rfl
    · rw [List.concat_eq_append, ← List.cons_append, ← List.append_assoc] at split
      obtain ⟨earlier, same⟩ := List.append_inj' split rfl
      cases same
      refine Or.inr ⟨later added (by simp), before, between, earlier, ?_⟩
      intro other listed
      exact later other (by simp [listed])
  · rintro (rfl | ⟨other, before, after, rfl, later⟩)
    · exact ⟨given, [], rfl, by simp⟩
    · refine ⟨before, after ++ [added], by simp, ?_⟩
      intro next listed
      rcases List.mem_append.mp listed with listed | last
      · exact later next listed
      · rwa [List.mem_singleton.mp last]

theorem ofDefinitions_concat (given : List Definition) (added : Definition) :
    ofDefinitions (given ++ [added]) = (ofDefinitions given).insert added := by
  simp [ofDefinitions]

theorem ids_eq_keys (catalog : Catalog) : catalog.definitions.map Definition.id = catalog.table.keys := by
  simp only [definitions, Table.values, Table.keys, Rows.keys, List.map_map]
  exact List.map_congr_left fun row listed => (catalog.keyed row listed).symm

theorem ids_ofDefinitions (given : List Definition) :
    (ofDefinitions given).definitions.map Definition.id = firsts (given.map Definition.id) := by
  rw [ids_eq_keys]
  induction given using List.reverseRecOn with
  | nil => rfl
  | append_singleton given added ih =>
      rw [ofDefinitions_concat, List.map_append, List.map_singleton, firsts_concat]
      change ((ofDefinitions given).table.put added.id added).keys = _
      by_cases again : added.id ∈ given.map Definition.id
      · rw [Table.keys_put_of_mem (ih ▸ mem_firsts.mpr again), ih, if_pos again]
      · rw [Table.keys_put_of_not_mem fun there => again (mem_firsts.mp (ih ▸ there)), ih, if_neg again]

theorem get?_ofDefinitions_eq_some_iff :
    (ofDefinitions given).get? id = some definition ↔ IsLast given definition ∧ definition.id = id := by
  induction given using List.reverseRecOn with
  | nil => simp [ofDefinitions, empty, get?, IsLast]
  | append_singleton given added ih =>
      rw [ofDefinitions_concat, isLast_concat, get?, insert, Table.get?_put]
      by_cases same : added.id = id
      · subst same
        rw [if_pos rfl, Option.some.injEq]
        constructor
        · rintro rfl
          exact ⟨Or.inl rfl, rfl⟩
        · rintro ⟨rfl | ⟨other, _⟩, equal⟩
          · rfl
          · exact absurd equal.symm other
      · rw [if_neg same, ← get?, ih]
        constructor
        · rintro ⟨last, rfl⟩
          exact ⟨Or.inr ⟨same, last⟩, rfl⟩
        · rintro ⟨rfl | ⟨_, last⟩, equal⟩
          · exact absurd equal same
          · exact ⟨last, equal⟩

theorem mem_definitions_iff : definition ∈ catalog.definitions ↔ catalog.get? definition.id = some definition := by
  rw [definitions, Table.mem_values_iff]
  constructor
  · rintro ⟨key, found⟩
    rwa [id_of_get? found]
  · intro found
    exact ⟨_, found⟩

-- Each id of the given definitions once, where it came first, with what came last for it.
structure Lists (given : List Definition) (catalog : Catalog) : Prop where
  once : (catalog.definitions.map Definition.id).Nodup
  ids : ∀ id, id ∈ catalog.definitions.map Definition.id ↔ id ∈ given.map Definition.id
  places : (catalog.definitions.map Definition.id).Pairwise fun first second =>
    (given.map Definition.id).idxOf first < (given.map Definition.id).idxOf second
  last : ∀ definition ∈ catalog.definitions, IsLast given definition
  found : ∀ id definition, catalog.get? id = some definition ↔ definition ∈ catalog.definitions ∧ definition.id = id
  known : ∀ id, catalog.contains id = true ↔ id ∈ given.map Definition.id

theorem ofDefinitions_lists (given : List Definition) : Lists given (ofDefinitions given) := by
  have ids := ids_ofDefinitions given
  refine ⟨?_, ?_, ?_, ?_, ?_, ?_⟩
  · rw [ids]
    exact firsts_nodup _
  · intro id
    rw [ids, mem_firsts]
  · rw [ids]
    exact firsts_sorted _
  · intro definition listed
    exact (get?_ofDefinitions_eq_some_iff.mp (mem_definitions_iff.mp listed)).1
  · intro id definition
    constructor
    · intro found
      have own : definition.id = id := id_of_get? found
      exact ⟨mem_definitions_iff.mpr (own ▸ found), own⟩
    · rintro ⟨listed, rfl⟩
      exact mem_definitions_iff.mp listed
  · intro id
    rw [contains, Table.contains_iff, ← ids_eq_keys, ids, mem_firsts]

-- What is asked for by category and level.

theorem select_all (catalog : Catalog) : catalog.select none none = catalog.definitions := by
  simp [select]

-- What is listed for a category and a level, and what a higher level adds to it.
structure Selects (catalog : Catalog) (category : String) : Prop where
  sublist : ∀ level, (catalog.select (some category) (some level)).Sublist (catalog.select none none)
  mem_iff : ∀ level definition, definition ∈ catalog.select (some category) (some level) ↔
    definition ∈ catalog.select none none ∧ definition.category.name = category ∧ definition.level ≤ level
  grows : ∀ level higher, level ≤ higher →
    (catalog.select (some category) (some level)).Sublist (catalog.select (some category) (some higher))

theorem selects (catalog : Catalog) (filled : name ≠ "") : Selects catalog name := by
  refine ⟨?_, ?_, ?_⟩
  · intro level
    rw [select_all]
    exact List.filter_sublist
  · intro level definition
    rw [select_all]
    simp [select, filled]
  · intro level higher least
    apply List.monotone_filter_right
    intro definition kept
    simp only [Bool.and_eq_true, decide_eq_true_eq] at kept ⊢
    exact ⟨kept.1, kept.2.trans least⟩

-- The categories and their counts.

theorem name_injective : Function.Injective Category.name := by
  intro one two same
  have found := Category.find?_name one
  rw [same, Category.find?_name] at found
  exact (Option.some.inj found).symm

theorem mem_sortedCategories (category : Category) : category ∈ sortedCategories := by
  cases category <;> decide

-- The category of each definition.
def categoryNames (definitions : List Definition) : List String :=
  definitions.map fun definition => definition.category.name

theorem categoryNames_concat (definitions : List Definition) (added : Definition) :
    categoryNames (definitions ++ [added]) = categoryNames definitions ++ [added.category.name] := by
  rw [categoryNames, List.map_append, List.map_singleton, ← categoryNames]

theorem count_eq (catalog : Catalog) (category : Category) :
    catalog.count category = (categoryNames catalog.definitions).count category.name := by
  rw [count, categoryNames, List.count, List.countP_map, List.countP_eq_length_filter]
  congr 2
  funext definition
  rw [Bool.eq_iff_iff]
  simp [name_injective.eq_iff]

theorem length_select (filled : name ≠ "") :
    (catalog.select (some name) none).length = (categoryNames catalog.definitions).count name := by
  rw [select, categoryNames, List.count, List.countP_map, List.countP_eq_length_filter]
  congr 2
  funext definition
  rw [Bool.eq_iff_iff]
  simp [filled]

theorem mem_categories_iff {row : String × Nat} :
    row ∈ catalog.categories ↔
      row.1 ∈ categoryNames catalog.definitions ∧ row.2 = (categoryNames catalog.definitions).count row.1 := by
  obtain ⟨name, number⟩ := row
  simp only [categories, List.mem_map, List.mem_filter, decide_eq_true_eq, Prod.mk.injEq, count_eq, ne_eq,
    List.count_eq_zero, not_not]
  constructor
  · rintro ⟨category, ⟨_, occurs⟩, rfl, rfl⟩
    exact ⟨occurs, rfl⟩
  · rintro ⟨occurs, rfl⟩
    obtain ⟨definition, _, rfl⟩ := List.mem_map.mp occurs
    exact ⟨definition.category, ⟨mem_sortedCategories _, occurs⟩, rfl, rfl⟩

theorem categories_ascending (catalog : Catalog) : (catalog.categories.map Prod.fst).Pairwise (· < ·) := by
  have sorted : (sortedCategories.map Category.name).Pairwise (· < ·) := by decide
  rw [categories, List.map_map]
  exact sorted.sublist (List.filter_sublist.map _)

theorem mem_map_fst_categories_iff :
    name ∈ catalog.categories.map Prod.fst ↔ name ∈ categoryNames catalog.definitions := by
  constructor
  · intro listed
    obtain ⟨row, member, rfl⟩ := List.mem_map.mp listed
    exact (mem_categories_iff.mp member).1
  · intro occurs
    have member : (name, (categoryNames catalog.definitions).count name) ∈ catalog.categories :=
      mem_categories_iff.mpr ⟨occurs, rfl⟩
    exact List.mem_map.mpr ⟨_, member, rfl⟩

theorem categories_total (catalog : Catalog) : (catalog.categories.map Prod.snd).sum = catalog.definitions.length := by
  let names := categoryNames catalog.definitions
  have counts : catalog.categories.map Prod.snd = (catalog.categories.map Prod.fst).map names.count := by
    rw [List.map_map]
    exact List.map_congr_left fun row listed => (mem_categories_iff.mp listed).2
  have occurring : (catalog.categories.map Prod.fst).Perm names.dedup := by
    refine (List.perm_ext_iff_of_nodup (catalog.categories_ascending.imp ne_of_lt) (List.nodup_dedup _)).mpr ?_
    intro name
    rw [mem_map_fst_categories_iff, List.mem_dedup]
  calc (catalog.categories.map Prod.snd).sum
      = ((catalog.categories.map Prod.fst).map names.count).sum := by rw [counts]
    _ = (names.dedup.map names.count).sum := (occurring.map _).sum_eq
    _ = names.length := List.sum_map_count_dedup_eq_length _
    _ = catalog.definitions.length := List.length_map ..

-- A counter for each category that was met, in the order of meeting them.
def tally (definitions : List Definition) : Table Nat :=
  definitions.foldl (fun counters definition =>
    counters.put definition.category.name ((counters.get? definition.category.name).getD 0 + 1)) Table.empty

theorem get?_tally (definitions : List Definition) (name : String) :
    (tally definitions).get? name =
      if name ∈ categoryNames definitions then some ((categoryNames definitions).count name) else none := by
  induction definitions using List.reverseRecOn with
  | nil => rfl
  | append_singleton definitions added ih =>
      have step : tally (definitions ++ [added]) = (tally definitions).put added.category.name
          (((tally definitions).get? added.category.name).getD 0 + 1) := by simp [tally]
      rw [step, Table.get?_put, categoryNames_concat]
      by_cases same : added.category.name = name
      · subst same
        rw [if_pos rfl, ih]
        by_cases met : added.category.name ∈ categoryNames definitions
        · rw [if_pos met]
          simp
        · rw [if_neg met]
          simp [List.count_eq_zero.mpr met]
      · rw [if_neg same, ih]
        have other : name ≠ added.category.name := fun equal => same equal.symm
        simp [other, same]

theorem mem_rows_tally_iff {definitions : List Definition} {row : String × Nat} :
    row ∈ (tally definitions).rows ↔ row.1 ∈ categoryNames definitions ∧
      row.2 = (categoryNames definitions).count row.1 := by
  obtain ⟨name, number⟩ := row
  rw [Table.mem_rows_iff, get?_tally]
  split
  · rename_i met
    simp [met, eq_comm]
  · rename_i unmet
    simp [unmet]

theorem sorted_rows (table : Table Nat) :
    (table.rows.mergeSort fun one two => one.1 ≤ two.1).Pairwise fun one two => one.1 < two.1 := by
  have sorted : (table.rows.mergeSort fun one two => one.1 ≤ two.1).Pairwise fun one two => decide (one.1 ≤ two.1) := by
    apply List.pairwise_mergeSort
    · intro one two three before after
      simp only [decide_eq_true_eq] at before after ⊢
      exact String.le_trans before after
    · intro one two
      simp only [Bool.or_eq_true, decide_eq_true_eq]
      exact String.le_total one.1 two.1
  have apart := ((List.mergeSort_perm table.rows fun one two => one.1 ≤ two.1).map Prod.fst).nodup_iff.mpr table.distinct
  refine (List.pairwise_map.mp apart).imp₂ ?_ sorted
  intro one two other before
  exact lt_of_le_of_ne (of_decide_eq_true before) other

-- Counting one definition after the other and sorting the counters gives the same answer.
theorem categories_eq_tally (catalog : Catalog) :
    catalog.categories = (tally catalog.definitions).rows.mergeSort fun one two => one.1 ≤ two.1 := by
  have listed : catalog.categories.Pairwise fun one two => one.1 < two.1 :=
    List.pairwise_map.mp catalog.categories_ascending
  have counted := sorted_rows (tally catalog.definitions)
  refine List.Perm.eq_of_pairwise (fun one two _ _ before after => absurd after (lt_asymm before)) listed counted ?_
  refine (List.perm_ext_iff_of_nodup ?_ ?_).mpr ?_
  · exact listed.imp fun before => ne_of_apply_ne Prod.fst (ne_of_lt before)
  · exact counted.imp fun before => ne_of_apply_ne Prod.fst (ne_of_lt before)
  · intro row
    rw [List.mem_mergeSort, mem_rows_tally_iff, mem_categories_iff, categoryNames]

-- The categories that occur, by name, and how many of the listed definitions each has.
structure Counts (given : List Definition) (catalog : Catalog) : Prop where
  ascending : (catalog.categories.map Prod.fst).Pairwise (· < ·)
  occurring : ∀ name, name ∈ catalog.categories.map Prod.fst ↔
    ∃ definition ∈ catalog.select none none, definition.category.name = name
  counted : ∀ row ∈ catalog.categories, row.2 = (catalog.select (some row.1) none).length
  total : (catalog.categories.map Prod.snd).sum = (given.map Definition.id).toFinset.card
  tallied : catalog.categories = (tally (catalog.select none none)).rows.mergeSort fun one two => one.1 ≤ two.1

theorem ofDefinitions_counts (given : List Definition) : Counts given (ofDefinitions given) := by
  refine ⟨categories_ascending _, ?_, ?_, ?_, ?_⟩
  · intro name
    rw [mem_map_fst_categories_iff, categoryNames, List.mem_map, select_all]
  · intro row listed
    obtain ⟨occurs, count⟩ := mem_categories_iff.mp listed
    obtain ⟨definition, _, named⟩ := List.mem_map.mp occurs
    have filled : row.1 ≠ "" := by
      rw [← named]
      cases definition.category <;> decide
    rw [length_select filled, count]
  · have ids : (given.map Definition.id).toFinset = ((ofDefinitions given).definitions.map Definition.id).toFinset := by
      ext id
      rw [List.mem_toFinset, List.mem_toFinset, (ofDefinitions_lists given).ids]
    rw [categories_total, ids, List.toFinset_card_of_nodup (ofDefinitions_lists given).once, List.length_map]
  · rw [select_all]
    exact categories_eq_tally _

theorem ofDefinitions_answers (given : List Definition) :
    Lists given (ofDefinitions given) ∧
      (∀ category, category ≠ "" → Selects (ofDefinitions given) category) ∧
      Counts given (ofDefinitions given) :=
  ⟨ofDefinitions_lists given, fun _ filled => selects _ filled, ofDefinitions_counts given⟩

-- An id that comes back with another category leaves the category it had.
def movedDefinitions : List Definition :=
  [{ id := "a", category := .io, kind := .statement, label := "a" },
    { id := "b", category := .control, kind := .control, label := "b", level := 2 },
    { id := "a", category := .control, kind := .statement, label := "moved", level := 3 }]

theorem ofDefinitions_answers_moved :
    "control" ≠ "" ∧ Lists movedDefinitions (ofDefinitions movedDefinitions) ∧
      Selects (ofDefinitions movedDefinitions) "control" ∧ Counts movedDefinitions (ofDefinitions movedDefinitions) ∧
      (ofDefinitions movedDefinitions).definitions.map Definition.label = ["moved", "b"] ∧
      ((ofDefinitions movedDefinitions).select (some "control") (some 2)).map Definition.label = ["b"] ∧
      (ofDefinitions movedDefinitions).categories = [("control", 2)] := by
  obtain ⟨lists, selects, counts⟩ := ofDefinitions_answers movedDefinitions
  exact ⟨by decide, lists, selects "control" (by decide), counts, by decide, by decide, by decide⟩

end BlockCanvas.Catalog

import Mathlib.Data.List.Basic
import Mathlib.Tactic.Common
import StorageCluster.Store.KeyValue

/-!
# Flat keys

A column is filed under the path of its table, its primary key and its name. As long as no part of a
path holds a slash, a path tells its parts: the root of a row is the beginning of the paths of its
own columns and of no others, and the text after the last slash is the column.
-/
namespace StorageCluster

/-- A text without a slash can be a part of a path. -/
def IsPart (text : String) : Prop := '/' ∉ text.toList

instance (text : String) : Decidable (IsPart text) :=
  inferInstanceAs (Decidable ('/' ∉ text.toList))

/-- Of two texts whose first parts end in front of a separator, one begins with the other just if
the parts are the same and what follows them does. -/
theorem part_prefix_iff {sep : Char} {a b rest more : List Char} (ha : sep ∉ a) (hb : sep ∉ b) :
    (a ++ sep :: rest) <+: (b ++ sep :: more) ↔ a = b ∧ rest <+: more := by
  induction a generalizing b with
  | nil =>
    cases b with
    | nil => simp
    | cons c b =>
      have hc : sep ≠ c := fun he => hb (he ▸ List.mem_cons_self)
      simp [hc]
  | cons x a ih =>
    have hx : x ≠ sep := fun he => ha (he ▸ List.mem_cons_self)
    cases b with
    | nil => simp [hx]
    | cons c b =>
      have hi := ih (b := b) (fun h => ha (List.mem_cons_of_mem x h))
        (fun h => hb (List.mem_cons_of_mem c h))
      simp only [List.cons_append, List.cons_prefix_cons, List.cons.injEq, hi, and_assoc]

theorem part_append_inj {sep : Char} {a b rest more : List Char} (ha : sep ∉ a) (hb : sep ∉ b)
    (h : a ++ sep :: rest = b ++ sep :: more) : a = b ∧ rest = more := by
  have hp : (a ++ sep :: rest) <+: (b ++ sep :: more) := h ▸ List.prefix_rfl
  obtain ⟨rfl, _⟩ := (part_prefix_iff ha hb).1 hp
  exact ⟨rfl, (List.cons.inj (List.append_cancel_left h)).2⟩

namespace Table

theorem name_isPart (table : Table) : IsPart table.name := by
  cases table <;> decide

theorem name_injective {a b : Table} (h : a.name = b.name) : a = b := by
  revert h
  cases a <;> cases b <;> decide

end Table

namespace KeyValueStore

/-- The key of a column. -/
def path (table : Table) (key column : String) : String := rowRoot table key ++ column

theorem toList_tableRoot (table : Table) :
    (tableRoot table).toList = "LINSTOR/".toList ++ (table.name.toList ++ '/' :: []) := by
  simp [tableRoot]

theorem toList_rowRoot (table : Table) (key : String) :
    (rowRoot table key).toList =
      "LINSTOR/".toList ++ (table.name.toList ++ '/' :: (key.toList ++ '/' :: [])) := by
  simp [rowRoot, tableRoot]

theorem toList_path (table : Table) (key column : String) :
    (path table key column).toList =
      "LINSTOR/".toList ++ (table.name.toList ++ '/' :: (key.toList ++ '/' :: column.toList)) := by
  simp [path, rowRoot, tableRoot]

theorem startsWith_tableRoot {table other : Table} {key column : String} :
    startsWith (tableRoot table) (path other key column) = true ↔ table = other := by
  rw [startsWith, List.isPrefixOf_iff_prefix, toList_tableRoot, toList_path,
    List.prefix_append_right_inj, part_prefix_iff table.name_isPart other.name_isPart]
  simp only [List.nil_prefix, and_true, String.toList_inj]
  exact ⟨Table.name_injective, fun h => h ▸ rfl⟩

theorem startsWith_rowRoot {table other : Table} {key key' column : String} (hk : IsPart key)
    (hk' : IsPart key') :
    startsWith (rowRoot table key) (path other key' column) = true ↔
      table = other ∧ key = key' := by
  rw [startsWith, List.isPrefixOf_iff_prefix, toList_rowRoot, toList_path,
    List.prefix_append_right_inj, part_prefix_iff table.name_isPart other.name_isPart,
    part_prefix_iff hk hk']
  simp only [List.nil_prefix, and_true, String.toList_inj]
  exact and_congr_left fun _ => ⟨Table.name_injective, fun h => h ▸ rfl⟩

theorem path_inj {table other : Table} {key key' column column' : String} (hk : IsPart key)
    (hk' : IsPart key') (h : path table key column = path other key' column') :
    table = other ∧ key = key' ∧ column = column' := by
  have hl := congrArg String.toList h
  rw [toList_path, toList_path] at hl
  obtain ⟨ht, hrest⟩ := part_append_inj table.name_isPart other.name_isPart
    (List.append_cancel_left hl)
  obtain ⟨hkey, hcolumn⟩ := part_append_inj hk hk' hrest
  exact ⟨Table.name_injective (String.toList_inj.1 ht), String.toList_inj.1 hkey,
    String.toList_inj.1 hcolumn⟩

theorem splitAtLastSlash?_eq {before after : List Char} (h : '/' ∉ after) :
    splitAtLastSlash? (before ++ '/' :: after) = some (before, after) := by
  have hr : (before ++ '/' :: after).reverse = after.reverse ++ '/' :: before.reverse := by simp
  have ha : ∀ c ∈ after.reverse, (c != '/') = true := by
    intro c hc
    rw [bne_iff_ne]
    rintro rfl
    exact h (List.mem_reverse.1 hc)
  have htake : (after.reverse ++ '/' :: before.reverse).takeWhile (· != '/') = after.reverse := by
    rw [List.takeWhile_append_of_pos ha, List.takeWhile_cons_of_neg (by decide), List.append_nil]
  have hdrop : (after.reverse ++ '/' :: before.reverse).dropWhile (· != '/') =
      '/' :: before.reverse := by
    rw [List.dropWhile_append_of_pos ha, List.dropWhile_cons_of_neg (by decide)]
  simp only [splitAtLastSlash?, hr, htake, hdrop, List.reverse_reverse]

/-- What is left of a path behind its table splits into primary key and column. -/
theorem split_path (table : Table) (key : String) {column : String} (h : IsPart column) :
    splitAtLastSlash? ((path table key column).toList.drop (tableRoot table).length) =
      some (key.toList, column.toList) := by
  have hp : (path table key column).toList =
      (tableRoot table).toList ++ (key.toList ++ '/' :: column.toList) := by
    simp [toList_path, toList_tableRoot]
  rw [hp, ← String.length_toList, List.drop_left, splitAtLastSlash?_eq h]

end KeyValueStore

end StorageCluster

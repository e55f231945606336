import StorageCluster.Proofs.SortedMap
import StorageCluster.Store.KeyValue

/-!
# Scans

In the order of texts, the keys that start with a root stand together, and the root stands in front
of them. So a scan from the root on finds all of them and nothing else.
-/
namespace StorageCluster

theorem compare_eq_lt_iff (a b : String) : compare a b = .lt ↔ a.toList < b.toList := by
  rw [← String.lt_iff]
  change compareOfLessAndEq a b = .lt ↔ a < b
  unfold compareOfLessAndEq
  split
  next h => exact iff_of_true rfl h
  next h => exact iff_of_false (by split <;> nofun) h

theorem not_append_lt (root rest : List Char) : ¬ root ++ rest < root := by
  induction root with
  | nil => exact List.not_lt_nil _
  | cons c root ih => simpa [List.cons_lt_cons_iff] using ih

theorem prefix_of_between {root text more : List Char} (hfrom : ¬ text < root)
    (hto : text < root ++ more) : root <+: text := by
  induction root generalizing text with
  | nil => exact List.nil_prefix
  | cons c root ih =>
    cases text with
    | nil => exact absurd (List.nil_lt_cons c root) hfrom
    | cons d text =>
      rw [List.cons_lt_cons_iff, not_or, not_and] at hfrom
      rw [List.cons_append, List.cons_lt_cons_iff] at hto
      rcases hto with hlt | ⟨rfl, hrest⟩
      · exact absurd hlt hfrom.1
      · exact List.cons_prefix_cons.2 ⟨rfl, ih (hfrom.2 rfl) hrest⟩

namespace KeyValueStore

variable {root : String}

theorem compare_root_ne_lt {text : String} (h : startsWith root text = true) :
    compare text root ≠ .lt := by
  rw [startsWith, List.isPrefixOf_iff_prefix] at h
  obtain ⟨rest, hrest⟩ := h
  rw [ne_eq, compare_eq_lt_iff, ← hrest]
  exact not_append_lt root.toList rest

/-- What stands between a root and a key that starts with it starts with it too. -/
theorem startsWith_of_between {text other : String} (hfrom : compare text root ≠ .lt)
    (hto : compare text other = .lt) (hother : startsWith root other = true) :
    startsWith root text = true := by
  rw [startsWith, List.isPrefixOf_iff_prefix] at hother ⊢
  obtain ⟨rest, hrest⟩ := hother
  rw [compare_eq_lt_iff, ← hrest] at hto
  exact prefix_of_between (fun h => hfrom ((compare_eq_lt_iff text root).2 h)) hto

variable {α : Type} {entries : List (String × α)}

/-- From a root on, the entries whose keys start with it come first. -/
theorem takeWhile_startsWith (hr : Rising entries)
    (hfrom : ∀ e ∈ entries, compare e.1 root ≠ .lt) :
    entries.takeWhile (fun e => startsWith root e.1) =
      entries.filter fun e => startsWith root e.1 := by
  induction entries with
  | nil => rfl
  | cons e rest ih =>
    obtain ⟨hhead, hrest⟩ := List.pairwise_cons.1 hr
    rw [List.forall_mem_cons] at hfrom
    let p (e : String × α) : Bool := startsWith root e.1
    by_cases he : p e = true
    · rw [List.takeWhile_cons_of_pos he, List.filter_cons_of_pos he, ih hrest hfrom.2]
    · rw [List.takeWhile_cons_of_neg he, List.filter_cons_of_neg he, eq_comm,
        List.filter_eq_nil_iff]
      exact fun other ho hs => he (startsWith_of_between hfrom.1 (hhead other ho) hs)

theorem takeWhile_dropWhile (hr : Rising entries) (root : String) :
    (entries.dropWhile fun e => compare e.1 root == .lt).takeWhile
        (fun e => startsWith root e.1) =
      entries.filter fun e => startsWith root e.1 := by
  induction entries with
  | nil => rfl
  | cons e rest ih =>
    obtain ⟨hhead, hrest⟩ := List.pairwise_cons.1 hr
    by_cases he : compare e.1 root = .lt
    · have hnot : ¬ startsWith root e.1 = true := fun hs => compare_root_ne_lt hs he
      rw [List.dropWhile_cons_of_pos (by simpa using he), ih hrest, List.filter_cons, if_neg hnot]
    · rw [List.dropWhile_cons_of_neg (by simpa using he)]
      refine takeWhile_startsWith hr (List.forall_mem_cons.2 ⟨he, fun other ho hlt => he ?_⟩)
      exact Std.TransCmp.lt_trans (hhead other ho) hlt

variable (s : KeyValueStore)

/-- A scan finds all entries below its root. -/
theorem scan_eq_filter (root : String) :
    s.scan root = s.entries.entries.filter fun e => startsWith root e.1 :=
  takeWhile_dropWhile s.entries.rising root

/-- A row is there if a scan from its root on finds something. -/
theorem isEmpty_scan (table : Table) (key : String) :
    (s.scan (rowRoot table key)).isEmpty = !s.hasRow table key := by
  rw [scan, hasRow]
  cases s.entries.entriesFrom (rowRoot table key) with
  | nil => rfl
  | cons e rest => cases hs : startsWith (rowRoot table key) e.1 <;> simp [hs]

theorem hasRow_eq_any (table : Table) (key : String) :
    s.hasRow table key = s.entries.keys.any (startsWith (rowRoot table key)) := by
  have hempty := s.isEmpty_scan table key
  rw [scan_eq_filter] at hempty
  rw [← Bool.not_inj_iff, ← hempty, Bool.eq_iff_iff]
  simp [SortedMap.keys, List.filter_eq_nil_iff]

/-- Erasing what a scan finds leaves the entries outside its root. -/
theorem foldl_erase_scan (root : String) :
    ((s.scan root).map (·.1)).foldl SortedMap.erase s.entries =
      s.entries.filter fun key _ => !startsWith root key := by
  refine SortedMap.ext ?_
  rw [SortedMap.entries_foldl_erase]
  refine List.filter_congr fun e he => ?_
  rw [scan_eq_filter, Bool.eq_iff_iff, List.all_eq_true, Bool.not_eq_true']
  constructor
  · intro hall
    by_contra hs
    have hown : e ∈ s.entries.entries.filter fun e => startsWith root e.1 :=
      List.mem_filter.2 ⟨he, Bool.not_eq_false _ ▸ hs⟩
    simpa using hall e.1 (List.mem_map_of_mem hown)
  · intro hs key hkey
    obtain ⟨other, ho, rfl⟩ := List.mem_map.1 hkey
    rw [bne_iff_ne, ne_eq, Std.compare_eq_iff_eq]
    intro hsame
    rw [← hsame, (List.mem_filter.1 ho).2] at hs
    cases hs

end KeyValueStore

end StorageCluster

/-!
# Sorted maps

A finite map kept as a list of entries in strictly rising order of their keys. Two keys that
compare as equal are one key: the map keeps the spelling under which the key was first inserted.
`find?_insert` and `find?_erase` say what each operation does to look-ups.
-/
namespace StorageCluster

variable {κ α β : Type} [Ord κ]

/-- Entries are in strictly rising order of their keys. -/
def Rising (entries : List (κ × α)) : Prop :=
  entries.Pairwise fun a b => compare a.1 b.1 = .lt

structure SortedMap (κ α : Type) [Ord κ] where
  entries : List (κ × α)
  rising : Rising entries

namespace SortedMap

def lookup (key : κ) : List (κ × α) → Option α
  | [] => none
  | (k, v) :: rest => if compare key k = .eq then some v else lookup key rest

def put (key : κ) (value : α) : List (κ × α) → List (κ × α)
  | [] => [(key, value)]
  | (k, v) :: rest =>
    match compare key k with
    | .lt => (key, value) :: (k, v) :: rest
    | .eq => (k, value) :: rest
    | .gt => (k, v) :: put key value rest

theorem mem_put {key : κ} {value : α} {entries : List (κ × α)} {e : κ × α}
    (h : e ∈ put key value entries) :
    e = (key, value) ∨ e ∈ entries ∨ ∃ old, (e.1, old) ∈ entries := by
  induction entries with
  | nil => simp [put] at h; exact .inl h
  | cons head rest ih =>
    obtain ⟨k, v⟩ := head
    unfold put at h
    split at h
    · rcases List.mem_cons.1 h with h | h
      · exact .inl h
      · exact .inr (.inl h)
    · rcases List.mem_cons.1 h with h | h
      · exact .inr (.inr ⟨v, by simp [h]⟩)
      · exact .inr (.inl (List.mem_cons_of_mem _ h))
    · rcases List.mem_cons.1 h with h | h
      · exact .inr (.inl (by simp [h]))
      · rcases ih h with h | h | ⟨old, h⟩
        · exact .inl h
        · exact .inr (.inl (List.mem_cons_of_mem _ h))
        · exact .inr (.inr ⟨old, List.mem_cons_of_mem _ h⟩)

theorem rising_filter {p : κ × α → Bool} {entries : List (κ × α)} (h : Rising entries) :
    Rising (entries.filter p) :=
  List.Pairwise.filter p h

theorem rising_map {f : κ → α → β} {entries : List (κ × α)} (h : Rising entries) :
    Rising (entries.map fun e => (e.1, f e.1 e.2)) :=
  List.pairwise_map.2 h

section Order

variable [Std.TransOrd κ]

theorem rising_put {key : κ} {value : α} {entries : List (κ × α)} (h : Rising entries) :
    Rising (put key value entries) := by
  induction entries with
  | nil => simp [put, Rising]
  | cons head rest ih =>
    obtain ⟨k, v⟩ := head
    have hk := (List.pairwise_cons.1 h).1
    have hr : Rising rest := (List.pairwise_cons.1 h).2
    unfold put
    split
    next hlt =>
      refine List.pairwise_cons.2 ⟨fun e he => ?_, h⟩
      rcases List.mem_cons.1 he with he | he
      · simpa [he] using hlt
      · exact Std.TransCmp.lt_trans hlt (hk e he)
    next heq => exact List.pairwise_cons.2 ⟨fun e he => hk e he, hr⟩
    next hgt =>
      refine List.pairwise_cons.2 ⟨fun e he => ?_, ih hr⟩
      rcases mem_put he with he | he | ⟨old, he⟩
      · subst he; exact Std.OrientedCmp.gt_iff_lt.1 hgt
      · exact hk e he
      · exact hk (e.1, old) he

theorem lookup_put (key other : κ) (value : α) (entries : List (κ × α)) (h : Rising entries) :
    lookup other (put key value entries) =
      if compare other key = .eq then some value else lookup other entries := by
  induction entries with
  | nil => simp [put, lookup]
  | cons head rest ih =>
    obtain ⟨k, v⟩ := head
    have hr : Rising rest := (List.pairwise_cons.1 h).2
    unfold put
    split
    next hlt => simp [lookup]
    next heq =>
      have hc : compare other key = compare other k := Std.TransCmp.congr_right heq
      by_cases ho : compare other k = .eq <;> simp [lookup, hc, ho]
    next hgt =>
      simp only [lookup, ih hr]
      by_cases ho : compare other k = .eq
      · have : compare other key ≠ .eq := by
          have hc : compare key other = compare key k := Std.TransCmp.congr_right ho
          intro he
          have := Std.OrientedCmp.eq_symm he
          rw [hc, hgt] at this
          simp at this
        simp [ho, this]
      · simp [ho]

end Order

def empty : SortedMap κ α := ⟨[], List.Pairwise.nil⟩

instance : Inhabited (SortedMap κ α) := ⟨empty⟩

def find? (m : SortedMap κ α) (key : κ) : Option α := lookup key m.entries

def contains (m : SortedMap κ α) (key : κ) : Bool := (m.find? key).isSome

def keys (m : SortedMap κ α) : List κ := m.entries.map (·.1)

def values (m : SortedMap κ α) : List α := m.entries.map (·.2)

/-- The entries from a key on. -/
def entriesFrom (m : SortedMap κ α) (key : κ) : List (κ × α) :=
  m.entries.dropWhile fun e => compare e.1 key == .lt

def size (m : SortedMap κ α) : Nat := m.entries.length

def isEmpty (m : SortedMap κ α) : Bool := m.entries.isEmpty

def erase (m : SortedMap κ α) (key : κ) : SortedMap κ α :=
  ⟨m.entries.filter fun e => compare key e.1 != .eq, rising_filter m.rising⟩

def filter (m : SortedMap κ α) (p : κ → α → Bool) : SortedMap κ α :=
  ⟨m.entries.filter fun e => p e.1 e.2, rising_filter m.rising⟩

def map (m : SortedMap κ α) (f : κ → α → β) : SortedMap κ β :=
  ⟨m.entries.map fun e => (e.1, f e.1 e.2), rising_map m.rising⟩

/-- Apply `f` to the value of a key, if there is one. -/
def modify (m : SortedMap κ α) (key : κ) (f : α → α) : SortedMap κ α :=
  m.map fun k v => if compare key k = .eq then f v else v

@[simp] theorem find?_empty (key : κ) : (empty : SortedMap κ α).find? key = none := rfl

variable [Std.TransOrd κ]

/-- The key of an entry that is already there keeps its spelling. -/
def insert (m : SortedMap κ α) (key : κ) (value : α) : SortedMap κ α :=
  ⟨put key value m.entries, rising_put m.rising⟩

/-- Later entries win. -/
def ofList (entries : List (κ × α)) : SortedMap κ α :=
  entries.foldl (fun m e => m.insert e.1 e.2) empty

/-- Put a value made from the present one (or from nothing). -/
def upsert (m : SortedMap κ α) (key : κ) (f : Option α → α) : SortedMap κ α :=
  m.insert key (f (m.find? key))

theorem find?_insert (m : SortedMap κ α) (key other : κ) (value : α) :
    (m.insert key value).find? other =
      if compare other key = .eq then some value else m.find? other :=
  lookup_put key other value m.entries m.rising

theorem find?_insert_self (m : SortedMap κ α) (key : κ) (value : α) :
    (m.insert key value).find? key = some value := by
  simp [find?_insert, Std.ReflCmp.compare_self]

theorem find?_erase (m : SortedMap κ α) (key other : κ) :
    (m.erase key).find? other = if compare other key = .eq then none else m.find? other := by
  obtain ⟨entries, h⟩ := m
  simp only [find?, erase]
  clear h
  induction entries with
  | nil => simp [lookup]
  | cons head rest ih =>
    obtain ⟨k, v⟩ := head
    simp only [List.filter_cons]
    by_cases hk : compare key k = .eq
    · have hc : compare other key = compare other k := Std.TransCmp.congr_right hk
      simp only [hk, bne_self_eq_false, Bool.false_eq_true, if_false, ih, lookup, hc]
      by_cases ho : compare other k = .eq <;> simp [ho]
    · simp only [bne_iff_ne, ne_eq, hk, not_false_eq_true, if_true, lookup, ih]
      by_cases ho : compare other k = .eq
      · have : compare other key ≠ .eq := by
          intro he
          apply hk
          have hc : compare key other = compare key k := Std.TransCmp.congr_right ho
          rw [← hc]
          exact Std.OrientedCmp.eq_symm he
        simp [ho, this]
      · simp [ho]

theorem contains_insert (m : SortedMap κ α) (key other : κ) (value : α) :
    (m.insert key value).contains other = (compare other key == .eq || m.contains other) := by
  by_cases h : compare other key = .eq <;> simp [contains, find?_insert, h]

end SortedMap

instance [DecidableEq κ] [DecidableEq α] : DecidableEq (SortedMap κ α) := fun a b =>
  if h : a.entries = b.entries then
    isTrue (by cases a; cases b; simp_all)
  else isFalse (fun e => h (by rw [e]))

end StorageCluster

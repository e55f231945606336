import Mathlib.Data.List.Pairwise
import Mathlib.Tactic.Common
import StorageCluster.SortedMap

/-!
# Views of sorted maps

A sorted map is known by its look-ups, and by its entries in any order. Entries, values and keys are
tied to look-ups here, and what `insert` and `modify` do to the entries is told up to order.
-/
namespace StorageCluster.SortedMap

variable {κ α β : Type} [Ord κ]

theorem mem_of_lookup {key : κ} {value : α} {entries : List (κ × α)}
    (h : lookup key entries = some value) :
    ∃ k, (k, value) ∈ entries ∧ compare key k = .eq := by
  induction entries with
  | nil => simp [lookup] at h
  | cons head rest ih =>
    obtain ⟨k, v⟩ := head
    by_cases hk : compare key k = .eq
    · simp only [lookup, hk, if_true, Option.some.injEq] at h
      exact ⟨k, by simp [h], hk⟩
    · simp only [lookup, hk, if_false] at h
      obtain ⟨k', hm, hc⟩ := ih h
      exact ⟨k', List.mem_cons_of_mem _ hm, hc⟩

theorem lookup_eq_none_of_lt {key : κ} {entries : List (κ × α)}
    (h : ∀ e ∈ entries, compare key e.1 = .lt) : lookup key entries = none := by
  by_contra hn
  obtain ⟨value, hv⟩ := Option.ne_none_iff_exists'.1 hn
  obtain ⟨k, hm, hc⟩ := mem_of_lookup hv
  have hlt : compare key k = .lt := h (k, value) hm
  rw [hlt] at hc
  cases hc

theorem forall_empty {p : α → Prop} : ∀ v ∈ (empty : SortedMap κ α).values, p v := by
  intro v hv
  cases hv

theorem contains_of_find? {m : SortedMap κ α} {key : κ} {value : α}
    (h : m.find? key = some value) : m.contains key = true := by
  rw [contains, h, Option.isSome_some]

/-- No two keys of a map are the same. -/
theorem keys_pairwise (m : SortedMap κ α) : m.keys.Pairwise fun a b => compare a b ≠ .eq := by
  refine List.pairwise_map.2 (m.rising.imp ?_)
  intro a b hlt heq
  rw [hlt] at heq
  exact absurd heq (by decide)

theorem lookup_map (key : κ) (f : κ → α → β) (entries : List (κ × α)) (g : α → β)
    (hf : ∀ k v, compare key k = .eq → f k v = g v) :
    lookup key (entries.map fun e => (e.1, f e.1 e.2)) = (lookup key entries).map g := by
  induction entries with
  | nil => rfl
  | cons head rest ih =>
    obtain ⟨k, v⟩ := head
    by_cases hk : compare key k = .eq
    · simp [lookup, hk, hf k v hk]
    · simpa [lookup, hk] using ih

/-- `g` is what `f` does to values whose key is the same as `key`. -/
theorem find?_map (m : SortedMap κ α) (key : κ) (f : κ → α → β) (g : α → β)
    (hf : ∀ k v, compare key k = .eq → f k v = g v) :
    (m.map f).find? key = (m.find? key).map g :=
  lookup_map key f m.entries g hf

/-- What is made of values is found where they were. -/
theorem find?_map_values (m : SortedMap κ α) (g : α → β) (key : κ) :
    (m.map fun _ v => g v).find? key = (m.find? key).map g :=
  m.find?_map key _ g fun _ _ _ => rfl

theorem put_perm {key : κ} {entries : List (κ × α)} (value : α)
    (h : lookup key entries = none) : (put key value entries).Perm ((key, value) :: entries) := by
  induction entries with
  | nil => exact .refl _
  | cons head rest ih =>
    obtain ⟨k, v⟩ := head
    have hne : compare key k ≠ .eq := fun he => by simp [lookup, he] at h
    have hr : lookup key rest = none := by simpa [lookup, hne] using h
    unfold put
    split
    next => exact .refl _
    next heq => exact absurd heq hne
    next => exact ((ih hr).cons _).trans (.swap ..)

theorem ext {m n : SortedMap κ α} (h : m.entries = n.entries) : m = n := by
  cases m
  cases n
  cases h
  rfl

theorem map_map {γ : Type} (m : SortedMap κ α) (f : κ → α → β) (g : κ → β → γ) :
    (m.map f).map g = m.map fun k v => g k (f k v) :=
  ext (List.map_map ..)

theorem map_congr {m : SortedMap κ α} {f g : κ → α → β}
    (h : ∀ e ∈ m.entries, f e.1 e.2 = g e.1 e.2) : m.map f = m.map g := by
  refine ext (List.map_congr_left ?_)
  intro e he
  rw [h e he]

theorem map_eq_self {m : SortedMap κ α} {f : κ → α → α} (h : ∀ e ∈ m.entries, f e.1 e.2 = e.2) :
    m.map f = m := by
  refine ext ((List.map_congr_left ?_).trans (List.map_id m.entries))
  intro e he
  rw [h e he, id]

theorem erase_erase (m : SortedMap κ α) (key : κ) : (m.erase key).erase key = m.erase key := by
  refine ext ?_
  simp only [erase, List.filter_filter, Bool.and_self]

theorem entries_foldl_erase (keys : List κ) (m : SortedMap κ α) :
    (keys.foldl erase m).entries =
      m.entries.filter fun e => keys.all fun key => compare key e.1 != .eq := by
  induction keys generalizing m with
  | nil => exact (List.filter_eq_self.2 fun _ _ => rfl).symm
  | cons key rest ih =>
    rw [List.foldl_cons, ih, erase, List.filter_filter]
    exact List.filter_congr fun e _ => by rw [List.all_cons, Bool.and_comm]

theorem put_append {key k : κ} {old : α} (value : α) {before : List (κ × α)}
    (after : List (κ × α)) (hbefore : ∀ e ∈ before, compare key e.1 = .gt)
    (hk : compare key k = .eq) :
    put key value (before ++ (k, old) :: after) = before ++ (k, value) :: after := by
  induction before with
  | nil => simp [put, hk]
  | cons head rest ih =>
    have hgt : compare key head.1 = .gt := hbefore head List.mem_cons_self
    have hrest := ih fun e he => hbefore e (List.mem_cons_of_mem head he)
    rw [List.cons_append, put, hgt]
    exact congrArg (head :: ·) hrest

/-- Values that are changed one after the other: each comes through the changes meant for it. -/
theorem foldl_modify {γ : Type} (own : γ → κ) (f : γ → α → α) (steps : List γ)
    (m : SortedMap κ α) :
    steps.foldl (fun m step => m.modify (own step) (f step)) m =
      m.map fun k v => (steps.filter fun step => compare (own step) k == .eq).foldl
        (fun v step => f step v) v := by
  induction steps generalizing m with
  | nil => exact (map_eq_self fun _ _ => rfl).symm
  | cons step rest ih =>
    rw [List.foldl_cons, ih, modify, map_map]
    refine congrArg m.map (funext fun k => funext fun v => ?_)
    by_cases hk : compare (own step) k = .eq <;> simp [hk]

/-- Values are filed under keys that are the same as their own. -/
def Filed (own : α → κ) (m : SortedMap κ α) : Prop :=
  ∀ key value, m.find? key = some value → compare key (own value) = .eq

theorem Filed.empty (own : α → κ) : Filed own (SortedMap.empty : SortedMap κ α) := by
  intro key value h
  simp at h

/-- Values are filed under their own keys, spelled alike. -/
def Spelled (own : α → κ) (m : SortedMap κ α) : Prop := ∀ e ∈ m.entries, e.1 = own e.2

namespace Spelled

variable {own : α → κ} {m : SortedMap κ α}

theorem empty (own : α → κ) : Spelled own (SortedMap.empty : SortedMap κ α) := by
  intro e he
  cases he

theorem entries_eq (h : m.Spelled own) : m.entries = m.values.map fun v => (own v, v) := by
  rw [values, List.map_map]
  refine (List.map_id m.entries).symm.trans (List.map_congr_left fun e he => ?_)
  exact Prod.ext (h e he) rfl

theorem filed (h : m.Spelled own) : m.Filed own := by
  intro key value hv
  obtain ⟨k, hm, hk⟩ := mem_of_lookup hv
  rwa [← h (k, value) hm]

theorem map (h : m.Spelled own) {own' : β → κ} {f : κ → α → β}
    (hf : ∀ e ∈ m.entries, own' (f e.1 e.2) = own e.2) : (m.map f).Spelled own' := by
  intro e he
  obtain ⟨old, ho, rfl⟩ := List.mem_map.1 he
  exact (h old ho).trans (hf old ho).symm

theorem modify (h : m.Spelled own) {f : α → α} (hf : ∀ v, own (f v) = own v) (key : κ) :
    (m.modify key f).Spelled own := by
  refine h.map fun e _ => ?_
  split
  · exact hf e.2
  · rfl

end Spelled

variable [Std.TransOrd κ]

/-- Whether all keys in a list are different does not depend on its order. -/
theorem apart_perm (key : α → κ) {xs ys : List α} (h : xs.Perm ys) :
    xs.Pairwise (fun a b => compare (key a) (key b) ≠ .eq) ↔
      ys.Pairwise fun a b => compare (key a) (key b) ≠ .eq :=
  h.pairwise_iff fun hab he => hab (Std.OrientedCmp.eq_symm he)

theorem lookup_congr {a b : κ} (h : compare a b = .eq) (entries : List (κ × α)) :
    lookup a entries = lookup b entries := by
  induction entries with
  | nil => rfl
  | cons head rest ih =>
    have hc : compare a head.1 = compare b head.1 := Std.TransCmp.congr_left h
    simp only [lookup, hc, ih]

/-- A look-up does not see the spelling of its key. -/
theorem find?_congr {a b : κ} (h : compare a b = .eq) (m : SortedMap κ α) :
    m.find? a = m.find? b :=
  lookup_congr h m.entries

theorem contains_congr {a b : κ} (h : compare a b = .eq) (m : SortedMap κ α) :
    m.contains a = m.contains b := by
  simp only [contains, find?_congr h m]

theorem lookup_of_mem {key : κ} {value : α} {entries : List (κ × α)} (h : Rising entries)
    (hm : (key, value) ∈ entries) : lookup key entries = some value := by
  induction entries with
  | nil => simp at hm
  | cons head rest ih =>
    obtain ⟨k, v⟩ := head
    obtain ⟨hk, hr⟩ := List.pairwise_cons.1 h
    rcases List.mem_cons.1 hm with he | hm
    · cases he
      simp [lookup, Std.ReflCmp.compare_self]
    · have hlt : compare k key = .lt := hk (key, value) hm
      have hgt : compare key k = .gt := Std.OrientedCmp.gt_iff_lt.2 hlt
      simp [lookup, hgt, ih hr hm]

/-- The keys after a key differ from it. -/
theorem lookup_rest {key : κ} {head : κ × α} {rest : List (κ × α)} (h : Rising (head :: rest))
    (hk : compare key head.1 = .eq) : lookup key rest = none := by
  by_contra hn
  obtain ⟨value, hv⟩ := Option.ne_none_iff_exists'.1 hn
  obtain ⟨k, hm, hc⟩ := mem_of_lookup hv
  have hlt : compare head.1 k = .lt := (List.pairwise_cons.1 h).1 (k, value) hm
  have heq : compare head.1 k = .eq := Std.TransCmp.eq_trans (Std.OrientedCmp.eq_symm hk) hc
  rw [hlt] at heq
  cases heq

theorem find?_of_mem {key : κ} {value : α} {m : SortedMap κ α} (h : (key, value) ∈ m.entries) :
    m.find? key = some value :=
  lookup_of_mem m.rising h

/-- The values of a map are what look-ups find. -/
theorem mem_values {m : SortedMap κ α} {value : α} :
    value ∈ m.values ↔ ∃ key, m.find? key = some value := by
  constructor
  · intro h
    obtain ⟨⟨key, v⟩, hm, rfl⟩ := List.mem_map.1 h
    exact ⟨key, find?_of_mem hm⟩
  · rintro ⟨key, h⟩
    obtain ⟨k, hm, _⟩ := mem_of_lookup h
    exact List.mem_map.2 ⟨(k, value), hm, rfl⟩

theorem contains_iff {m : SortedMap κ α} {key : κ} :
    m.contains key = true ↔ ∃ k ∈ m.keys, compare key k = .eq := by
  constructor
  · intro h
    obtain ⟨value, hv⟩ := Option.isSome_iff_exists.1 h
    obtain ⟨k, hm, hc⟩ := mem_of_lookup hv
    exact ⟨k, List.mem_map.2 ⟨(k, value), hm, rfl⟩, hc⟩
  · rintro ⟨k, hk, hc⟩
    obtain ⟨⟨k, value⟩, hm, rfl⟩ := List.mem_map.1 hk
    simp [contains, find?_congr hc m, find?_of_mem hm]

theorem eq_empty_iff {m : SortedMap κ α} : m = .empty ↔ ∀ key, m.contains key = false := by
  refine ⟨fun h key => h ▸ rfl, fun h => ext (List.eq_nil_iff_forall_not_mem.2 fun e he => ?_)⟩
  have hkey := h e.1
  rw [contains, find?_of_mem he] at hkey
  cases hkey

theorem find?_modify (m : SortedMap κ α) (key other : κ) (f : α → α) :
    (m.modify key f).find? other =
      if compare other key = .eq then (m.find? other).map f else m.find? other := by
  unfold modify
  by_cases h : compare other key = .eq
  · rw [if_pos h, find?_map m other _ f]
    intro k v hk
    have hc : compare key k = compare other k := (Std.TransCmp.congr_left h).symm
    rw [if_pos (hc.trans hk)]
  · rw [if_neg h, find?_map m other _ id, Option.map_id, id]
    intro k v hk
    have hne : compare key k ≠ .eq := fun he =>
      h (Std.TransCmp.eq_trans hk (Std.OrientedCmp.eq_symm he))
    rw [if_neg hne, id]

/-- Changing a value into itself changes nothing. -/
theorem modify_eq_self {m : SortedMap κ α} {key : κ} {f : α → α}
    (h : ∀ v, m.find? key = some v → f v = v) : m.modify key f = m := by
  refine map_eq_self ?_
  intro e he
  split
  next hk => exact h e.2 ((find?_congr hk m).trans (find?_of_mem he))
  next => rfl

theorem entries_insert_perm {m : SortedMap κ α} {key : κ} (value : α)
    (h : m.contains key = false) :
    (m.insert key value).entries.Perm ((key, value) :: m.entries) := by
  have hn : m.find? key = none := by simpa [contains] using h
  exact put_perm value hn

theorem values_insert_perm {m : SortedMap κ α} {key : κ} (value : α)
    (h : m.contains key = false) : (m.insert key value).values.Perm (value :: m.values) :=
  (entries_insert_perm value h).map Prod.snd

/-- The entry of a key stands between those with smaller and those with greater keys, and gives way
to another value in its place. -/
theorem exists_entries_split {m : SortedMap κ α} {key : κ} {old : α}
    (h : m.find? key = some old) :
    ∃ k before after, m.entries = before ++ (k, old) :: after ∧ compare key k = .eq ∧
      (∀ e ∈ before ++ after, compare key e.1 ≠ .eq) ∧
      ∀ value, (m.insert key value).entries = before ++ (k, value) :: after := by
  obtain ⟨k, hm, hk⟩ := mem_of_lookup h
  obtain ⟨before, after, hsplit⟩ := List.append_of_mem hm
  have hrising : Rising (before ++ (k, old) :: after) := hsplit ▸ m.rising
  obtain ⟨_, hafter, hcross⟩ := List.pairwise_append.1 hrising
  have hgt : ∀ e ∈ before, compare key e.1 = .gt := by
    intro e he
    have hlt : compare e.1 k = .lt := hcross e he (k, old) List.mem_cons_self
    exact (Std.TransCmp.congr_left hk).trans (Std.OrientedCmp.gt_iff_lt.2 hlt)
  refine ⟨k, before, after, hsplit, hk, ?_, fun value => ?_⟩
  · intro e he
    rcases List.mem_append.1 he with he | he
    · simp [hgt e he]
    · have hlt : compare k e.1 = .lt := (List.pairwise_cons.1 hafter).1 e he
      simp [Std.TransCmp.congr_left hk, hlt]
  · have hput : (m.insert key value).entries = put key value m.entries := rfl
    rw [hput, hsplit]
    exact put_append value after hgt hk

/-- Another value under a key that is there. -/
theorem insert_eq_modify {m : SortedMap κ α} {key : κ} {old : α} (h : m.find? key = some old)
    (f : α → α) : m.insert key (f old) = m.modify key f := by
  obtain ⟨k, before, after, hsplit, hk, hother, hinsert⟩ := exists_entries_split h
  have hkeep (es : List (κ × α)) (hes : ∀ e ∈ es, compare key e.1 ≠ .eq) :
      es.map (fun e => (e.1, if compare key e.1 = .eq then f e.2 else e.2)) = es := by
    refine (List.map_congr_left fun e he => ?_).trans (List.map_id es)
    rw [if_neg (hes e he), id]
  have hbefore := hkeep before fun e he => hother e (List.mem_append_left _ he)
  have hafter := hkeep after fun e he => hother e (List.mem_append_right _ he)
  refine ext ?_
  have hmodify : (m.modify key f).entries =
      m.entries.map fun e => (e.1, if compare key e.1 = .eq then f e.2 else e.2) := rfl
  rw [hinsert, hmodify, hsplit, List.map_append, List.map_cons, hbefore, hafter, if_pos hk]

/-- What is told of a value can be told of its replacement. -/
theorem exists_values_insert {m : SortedMap κ α} {key : κ} {old : α}
    (h : m.find? key = some old) :
    ∃ rest, m.values.Perm (old :: rest) ∧
      ∀ value, (m.insert key value).values.Perm (value :: rest) := by
  obtain ⟨k, before, after, hsplit, _, _, hinsert⟩ := exists_entries_split h
  have hvalues (value : α) :
      ((before ++ (k, value) :: after).map Prod.snd).Perm
        (value :: (before ++ after).map Prod.snd) :=
    (List.perm_middle.map Prod.snd)
  refine ⟨(before ++ after).map Prod.snd, ?_, fun value => ?_⟩
  · rw [values, hsplit]
    exact hvalues old
  · rw [values, hinsert]
    exact hvalues value

/-- What is erased leaves the other values as they are. -/
theorem values_erase_perm {m : SortedMap κ α} {key : κ} {old : α} (h : m.find? key = some old) :
    m.values.Perm (old :: (m.erase key).values) := by
  obtain ⟨k, before, after, hsplit, hk, hother, _⟩ := exists_entries_split h
  have hkeep (es : List (κ × α)) (hes : ∀ e ∈ es, compare key e.1 ≠ .eq) :
      es.filter (fun e => compare key e.1 != .eq) = es :=
    List.filter_eq_self.2 fun e he => by simpa using hes e he
  have herase : m.entries.filter (fun e => compare key e.1 != .eq) = before ++ after := by
    rw [hsplit, List.filter_append, List.filter_cons,
      hkeep before fun e he => hother e (List.mem_append_left after he),
      hkeep after fun e he => hother e (List.mem_append_right before he)]
    simp [hk]
  have hvalues : (m.erase key).values = (before ++ after).map Prod.snd := congrArg _ herase
  rw [hvalues, values, hsplit, List.map_append, List.map_append, List.map_cons]
  exact List.perm_middle

theorem modify_congr {a b : κ} (h : compare a b = .eq) (m : SortedMap κ α) (f : α → α) :
    m.modify a f = m.modify b f := by
  have hc (k : κ) : compare a k = compare b k := Std.TransCmp.congr_left h
  simp only [modify, hc]

theorem contains_map (m : SortedMap κ α) (f : κ → α → β) (key : κ) :
    (m.map f).contains key = m.contains key := by
  rw [Bool.eq_iff_iff, contains_iff, contains_iff]
  simp [map, keys]

theorem contains_insert_of_contains {m : SortedMap κ α} {other : κ} (h : m.contains other = true)
    (key : κ) (value : α) : (m.insert key value).contains other = true := by
  rw [contains_insert, h, Bool.or_true]

theorem contains_modify (m : SortedMap κ α) (key other : κ) (f : α → α) :
    (m.modify key f).contains other = m.contains other :=
  contains_map m _ other

theorem contains_erase (m : SortedMap κ α) (key other : κ) :
    (m.erase key).contains other = (compare other key != .eq && m.contains other) := by
  by_cases h : compare other key = .eq <;> simp [contains, find?_erase, h]

theorem erase_eq_self {m : SortedMap κ α} {key : κ} (h : m.contains key = false) :
    m.erase key = m := by
  refine ext (List.filter_eq_self.2 fun e he => ?_)
  rw [bne_iff_ne]
  intro hkey
  have hfind : m.find? e.1 = some e.2 := find?_of_mem he
  have hcontains : m.contains e.1 = true := contains_of_find? hfind
  rw [← contains_congr hkey, h] at hcontains
  cases hcontains

/-- What holds of the values of a map and of another value holds of all when that is inserted. -/
theorem forall_insert {p : α → Prop} {m : SortedMap κ α} {key : κ} {value : α} (hvalue : p value)
    (h : ∀ v ∈ m.values, p v) : ∀ v ∈ (m.insert key value).values, p v := by
  intro v hv
  obtain ⟨other, ho⟩ := mem_values.1 hv
  rw [find?_insert] at ho
  split at ho
  · cases ho
    exact hvalue
  · exact h v (mem_values.2 ⟨other, ho⟩)

theorem forall_ofList {p : α → Prop} {entries : List (κ × α)} (h : ∀ e ∈ entries, p e.2) :
    ∀ v ∈ (ofList entries).values, p v := by
  refine List.foldlRecOn entries _ (motive := fun m => ∀ v ∈ values m, p v)
    forall_empty fun m hm e he => ?_
  exact forall_insert (h e he) hm

theorem forall_modify {p : α → Prop} {m : SortedMap κ α} {f : α → α} (key : κ)
    (hf : ∀ v, p v → p (f v)) (h : ∀ v ∈ m.values, p v) : ∀ v ∈ (m.modify key f).values, p v := by
  intro v hv
  obtain ⟨other, ho⟩ := mem_values.1 hv
  rw [find?_modify] at ho
  split at ho
  · obtain ⟨old, hold, rfl⟩ := Option.map_eq_some_iff.1 ho
    exact hf old (h old (mem_values.2 ⟨other, hold⟩))
  · exact h v (mem_values.2 ⟨other, ho⟩)

namespace Spelled

variable {own : α → κ} {m : SortedMap κ α}

theorem find? (h : m.Spelled own) {v : α} (hv : v ∈ m.values) : m.find? (own v) = some v := by
  obtain ⟨e, he, rfl⟩ := List.mem_map.1 hv
  rw [← h e he]
  exact find?_of_mem he

theorem insert_new (h : m.Spelled own) {v : α} (hfree : m.contains (own v) = false) :
    (m.insert (own v) v).Spelled own := by
  intro e he
  rcases List.mem_cons.1 ((entries_insert_perm v hfree).mem_iff.1 he) with rfl | he
  · rfl
  · exact h e he

theorem insert_old (h : m.Spelled own) {key : κ} {old v : α} (hk : m.find? key = some old)
    (hv : own v = own old) : (m.insert key v).Spelled own := by
  rw [insert_eq_modify hk fun _ => v]
  obtain ⟨k, hm, hc⟩ := mem_of_lookup hk
  refine h.map fun e he => ?_
  dsimp only
  split
  next heq =>
    have hsame := (find?_congr heq m).trans (find?_of_mem he)
    rw [hk] at hsame
    cases hsame
    exact hv
  next => rfl

end Spelled

namespace Filed

variable {own : α → κ} {m : SortedMap κ α}

theorem of_mem (h : Filed own m) {e : κ × α} (he : e ∈ m.entries) :
    compare e.1 (own e.2) = .eq :=
  h e.1 e.2 (find?_of_mem he)

theorem insert (h : Filed own m) {key : κ} {value : α} (hv : compare key (own value) = .eq) :
    Filed own (m.insert key value) := by
  intro other v ho
  rw [find?_insert] at ho
  split at ho
  next hk =>
    cases ho
    exact Std.TransCmp.eq_trans hk hv
  next => exact h other v ho

theorem ofList {entries : List (κ × α)} (h : ∀ e ∈ entries, compare e.1 (own e.2) = .eq) :
    Filed own (SortedMap.ofList entries) := by
  have hfold (m : SortedMap κ α) (hm : Filed own m) :
      Filed own (entries.foldl (fun m e => m.insert e.1 e.2) m) := by
    induction entries generalizing m with
    | nil => exact hm
    | cons e rest ih =>
      exact ih (fun e he => h e (List.mem_cons_of_mem _ he)) _ (hm.insert (h e List.mem_cons_self))
  exact hfold .empty (.empty own)

theorem modify (h : Filed own m) {f : α → α} (hf : ∀ v, own (f v) = own v) (key : κ) :
    Filed own (m.modify key f) := by
  intro other v ho
  rw [find?_modify] at ho
  split at ho
  next =>
    obtain ⟨w, hw, rfl⟩ := Option.map_eq_some_iff.1 ho
    rw [hf]
    exact h other w hw
  next => exact h other v ho

/-- Of values that are filed under their own keys just one is changed under a key. -/
theorem forall_modify (h : Filed own m) {p : α → Prop} {f : α → α} {key : κ}
    (hf : ∀ v, compare key (own v) = .eq → p v → p (f v)) (hp : ∀ v ∈ m.values, p v) :
    ∀ v ∈ (m.modify key f).values, p v := by
  intro v hv
  obtain ⟨other, ho⟩ := mem_values.1 hv
  rw [find?_modify] at ho
  split at ho
  next hk =>
    obtain ⟨old, hold, rfl⟩ := Option.map_eq_some_iff.1 ho
    have hown : compare key (own old) = .eq :=
      Std.TransCmp.eq_trans (Std.OrientedCmp.eq_symm hk) (h other old hold)
    exact hf old hown (hp old (mem_values.2 ⟨other, hold⟩))
  next => exact hp v (mem_values.2 ⟨other, ho⟩)

/-- Values that are filed under their own keys have different keys. -/
theorem values_pairwise (h : Filed own m) :
    m.values.Pairwise fun a b => compare (own a) (own b) ≠ .eq := by
  have hk : m.entries.Pairwise fun a b => compare a.1 b.1 ≠ .eq :=
    List.pairwise_map.1 m.keys_pairwise
  refine List.pairwise_map.2 (hk.imp_of_mem ?_)
  intro a b ha hb hab he
  have hac : compare a.1 (own b.2) = .eq := Std.TransCmp.eq_trans (h.of_mem ha) he
  exact hab (Std.TransCmp.eq_trans hac (Std.OrientedCmp.eq_symm (h.of_mem hb)))

theorem eq_of_mem (h : Filed own m) {v w : α} (hv : v ∈ m.values) (hw : w ∈ m.values)
    (he : compare (own v) (own w) = .eq) : v = w := by
  obtain ⟨key, hkey⟩ := mem_values.1 hv
  obtain ⟨other, hother⟩ := mem_values.1 hw
  have hsame : compare key other = .eq :=
    Std.TransCmp.eq_trans (Std.TransCmp.eq_trans (h key v hkey) he)
      (Std.OrientedCmp.eq_symm (h other w hother))
  rw [find?_congr hsame, hother] at hkey
  exact (Option.some.inj hkey).symm

/-- Of all that belongs to the values of a map, the part that belongs to one of them. -/
theorem filter_flatMap_values {γ : Type} (h : m.Filed own) {items : α → List γ} {owner : γ → κ}
    (howner : ∀ v ∈ m.values, ∀ x ∈ items v, compare (owner x) (own v) = .eq) {e : κ × α}
    (he : e ∈ m.entries) :
    (m.values.flatMap items).filter (fun x => compare (owner x) e.1 == .eq) = items e.2 := by
  have hkeys : m.entries.Pairwise fun a b => compare a.1 b.1 ≠ .eq :=
    List.pairwise_map.1 m.keys_pairwise
  obtain ⟨before, after, hsplit⟩ := List.append_of_mem he
  have hkey : ∀ other ∈ m.entries, ∀ x ∈ items other.2, compare (owner x) other.1 = .eq := by
    intro other ho x hx
    have hx' := howner other.2 (List.mem_map.2 ⟨other, ho, rfl⟩) x hx
    exact Std.TransCmp.eq_trans hx' (Std.OrientedCmp.eq_symm (h.of_mem ho))
  have hnone (es : List (κ × α)) (hes : ∀ other ∈ es, other ∈ m.entries ∧
      compare other.1 e.1 ≠ .eq) :
      ((es.map Prod.snd).flatMap items).filter (fun x => compare (owner x) e.1 == .eq) = [] := by
    refine List.filter_eq_nil_iff.2 fun x hx heq => ?_
    obtain ⟨v, hv, hxv⟩ := List.mem_flatMap.1 hx
    obtain ⟨other, ho, rfl⟩ := List.mem_map.1 hv
    have hxo := Std.OrientedCmp.eq_symm (hkey other (hes other ho).1 x hxv)
    exact (hes other ho).2 (Std.TransCmp.eq_trans hxo (by simpa using heq))
  have hself : (items e.2).filter (fun x => compare (owner x) e.1 == .eq) = items e.2 :=
    List.filter_eq_self.2 fun x hx => by simp [hkey e he x hx]
  rw [hsplit] at hkeys
  obtain ⟨_, hafter, hcross⟩ := List.pairwise_append.1 hkeys
  have hbefore := hnone before fun other ho =>
    ⟨by simp [hsplit, ho], hcross other ho e List.mem_cons_self⟩
  have hlater := hnone after fun other ho =>
    ⟨by simp [hsplit, ho], fun he => (List.pairwise_cons.1 hafter).1 other ho
      (Std.OrientedCmp.eq_symm he)⟩
  rw [values, hsplit]
  simp only [List.map_append, List.map_cons, List.flatMap_append, List.flatMap_cons,
    List.filter_append, hbefore, hlater, hself, List.append_nil, List.nil_append]

end Filed

/-- Maps with the same entries are equal. -/
theorem eq_of_entries_perm {m n : SortedMap κ α} (h : m.entries.Perm n.entries) : m = n := by
  refine ext (h.eq_of_pairwise ?_ m.rising n.rising)
  intro a b _ _ hab hba
  have hgt : compare a.1 b.1 = .gt := Std.OrientedCmp.gt_iff_lt.2 hba
  rw [hab] at hgt
  cases hgt

/-- Entries with different keys are all there once they are inserted. -/
theorem foldl_insert_perm {entries : List (κ × α)} {m : SortedMap κ α}
    (hnew : ∀ e ∈ entries, m.contains e.1 = false)
    (hapart : entries.Pairwise fun a b => compare a.1 b.1 ≠ .eq) :
    (entries.foldl (fun m e => m.insert e.1 e.2) m).entries.Perm (entries ++ m.entries) := by
  induction entries generalizing m with
  | nil => exact .refl _
  | cons e rest ih =>
    obtain ⟨hne, hrest⟩ := List.pairwise_cons.1 hapart
    have hfree : ∀ other ∈ rest, (m.insert e.1 e.2).contains other.1 = false := by
      intro other ho
      have hc : compare other.1 e.1 ≠ .eq := fun he => hne other ho (Std.OrientedCmp.eq_symm he)
      simp [contains_insert, hc, hnew other (List.mem_cons_of_mem e ho)]
    have hinsert := entries_insert_perm e.2 (hnew e List.mem_cons_self)
    exact (ih hfree hrest).trans ((hinsert.append_left rest).trans List.perm_middle)

theorem entries_ofList_perm {entries : List (κ × α)}
    (hapart : entries.Pairwise fun a b => compare a.1 b.1 ≠ .eq) :
    (ofList entries).entries.Perm entries := by
  have h := foldl_insert_perm (m := empty) (fun _ _ => rfl) hapart
  rwa [show (empty : SortedMap κ α).entries = [] from rfl, List.append_nil] at h

/-- The order in which entries with different keys are inserted does not matter. -/
theorem ofList_congr {entries others : List (κ × α)} (h : entries.Perm others)
    (hapart : others.Pairwise fun a b => compare a.1 b.1 ≠ .eq) :
    ofList entries = ofList others :=
  eq_of_entries_perm ((entries_ofList_perm ((apart_perm Prod.fst h).2 hapart)).trans
    (h.trans (entries_ofList_perm hapart).symm))

/-- A map is rebuilt from its entries, in any order. -/
theorem ofList_perm {entries : List (κ × α)} {m : SortedMap κ α} (h : entries.Perm m.entries) :
    ofList entries = m := by
  have hapart : m.entries.Pairwise fun a b => compare a.1 b.1 ≠ .eq :=
    List.pairwise_map.1 m.keys_pairwise
  exact eq_of_entries_perm ((entries_ofList_perm ((apart_perm Prod.fst h).2 hapart)).trans h)

/-- A map is rebuilt from its values, in any order, and whatever is made of each of them. -/
theorem Spelled.ofList_map {own : α → κ} {m : SortedMap κ α} (h : m.Spelled own) (f : α → β)
    {vs : List α} (hvs : vs.Perm m.values) :
    ofList (vs.map fun v => (own v, f v)) = m.map fun _ v => f v := by
  refine ofList_perm ((hvs.map _).trans (.of_eq ?_))
  have hentries : (m.map fun _ v => f v).entries = m.entries.map fun e => (e.1, f e.2) := rfl
  rw [hentries, h.entries_eq, List.map_map, Function.comp_def]

theorem Spelled.ofList {own : α → κ} {m : SortedMap κ α} (h : m.Spelled own) {vs : List α}
    (hvs : vs.Perm m.values) : SortedMap.ofList (vs.map fun v => (own v, v)) = m :=
  (h.ofList_map id hvs).trans (map_eq_self fun _ _ => rfl)

/-- Values that are filed anew under their own keys are found where they were. -/
theorem Filed.find?_ofList {own : α → κ} {m : SortedMap κ α} (h : m.Filed own) (key : κ) :
    (SortedMap.ofList (m.values.map fun v => (own v, v))).find? key = m.find? key := by
  have hapart : (m.values.map fun v => (own v, v)).Pairwise fun a b => compare a.1 b.1 ≠ .eq :=
    List.pairwise_map.2 h.values_pairwise
  have hentries := entries_ofList_perm hapart
  refine Option.ext fun v => ⟨fun hv => ?_, fun hv => ?_⟩
  · obtain ⟨k, hm, hk⟩ := mem_of_lookup hv
    obtain ⟨w, hw, he⟩ := List.mem_map.1 (hentries.mem_iff.1 hm)
    cases he
    obtain ⟨other, ho⟩ := mem_values.1 hw
    have hsame : compare key other = .eq :=
      Std.TransCmp.eq_trans hk (Std.OrientedCmp.eq_symm (h other v ho))
    rwa [find?_congr hsame]
  · have hin : (own v, v) ∈ m.values.map fun v => (own v, v) :=
      List.mem_map.2 ⟨v, mem_values.2 ⟨key, hv⟩, rfl⟩
    rw [find?_congr (h key v hv)]
    exact find?_of_mem (hentries.mem_iff.2 hin)

/-- The first keys of lists that answer all look-ups alike are the same. -/
theorem compare_head_of_lookup {a b : κ × α} {rest more : List (κ × α)}
    (ha : Rising (a :: rest)) (hb : Rising (b :: more))
    (h : ∀ key, lookup key (a :: rest) = lookup key (b :: more)) : compare a.1 b.1 = .eq := by
  have hfirst {c d : κ × α} {cs ds : List (κ × α)} (hd : Rising (d :: ds))
      (hcd : ∀ key, lookup key (c :: cs) = lookup key (d :: ds)) : compare c.1 d.1 ≠ .lt := by
    intro hlt
    have hnone : lookup c.1 (d :: ds) = none := by
      refine lookup_eq_none_of_lt fun e he => ?_
      rcases List.mem_cons.1 he with rfl | he
      · exact hlt
      · exact Std.TransCmp.lt_trans hlt ((List.pairwise_cons.1 hd).1 e he)
    have hsome : lookup c.1 (c :: cs) = some c.2 := by
      simp [lookup, Std.ReflCmp.compare_self]
    rw [← hcd, hsome] at hnone
    cases hnone
  cases hc : compare a.1 b.1 with
  | eq => rfl
  | lt => exact absurd hc (hfirst hb h)
  | gt => exact absurd (Std.OrientedCmp.gt_iff_lt.1 hc) (hfirst ha fun key => (h key).symm)

/-- Maps that answer all look-ups alike differ at most in the spelling of their keys. -/
theorem eq_of_find? {m n : SortedMap κ α} (h : ∀ key, m.find? key = n.find? key)
    (hkeys : ∀ a ∈ m.keys, ∀ b ∈ n.keys, compare a b = .eq → a = b) : m = n := by
  obtain ⟨entries, hm⟩ := m
  obtain ⟨others, hn⟩ := n
  refine ext ?_
  simp only [find?, keys] at h hkeys ⊢
  induction entries generalizing others with
  | nil =>
    cases others with
    | nil => rfl
    | cons b more =>
      have hb := h b.1
      simp [lookup, Std.ReflCmp.compare_self] at hb
  | cons a rest ih =>
    cases others with
    | nil =>
      have ha := h a.1
      simp [lookup, Std.ReflCmp.compare_self] at ha
    | cons b more =>
      have hc := compare_head_of_lookup hm hn h
      have hkey : a.1 = b.1 := hkeys a.1 (by simp) b.1 (by simp) hc
      have hvalue : a.2 = b.2 := by
        have ha := h a.1
        simpa [lookup, Std.ReflCmp.compare_self, hc] using ha
      have hrest : rest = more := by
        refine ih (List.pairwise_cons.1 hm).2 more (List.pairwise_cons.1 hn).2 (fun key => ?_) ?_
        · by_cases hk : compare key a.1 = .eq
          · rw [lookup_rest hm hk, lookup_rest hn (hkey ▸ hk)]
          · have hl := h key
            rw [hkey] at hk
            simpa [lookup, hkey, hk] using hl
        · intro x hx y hy
          exact hkeys x (List.mem_cons_of_mem a.1 hx) y (List.mem_cons_of_mem b.1 hy)
      rw [hrest, Prod.ext hkey hvalue]

section Lawful

variable [Std.LawfulEqOrd κ]

theorem find?_eq_some_iff {m : SortedMap κ α} {key : κ} {value : α} :
    m.find? key = some value ↔ (key, value) ∈ m.entries := by
  constructor
  · intro h
    obtain ⟨k, hm, hc⟩ := mem_of_lookup h
    rw [Std.compare_eq_iff_eq.1 hc]
    exact hm
  · exact find?_of_mem

theorem mem_keys_iff {m : SortedMap κ α} {key : κ} :
    key ∈ m.keys ↔ ∃ value, m.find? key = some value := by
  simp [keys, find?_eq_some_iff]

theorem Spelled.insert {own : α → κ} {m : SortedMap κ α} (h : m.Spelled own) (v : α) :
    (m.insert (own v) v).Spelled own := by
  cases hv : m.find? (own v) with
  | none => exact h.insert_new (by rw [contains, hv]; rfl)
  | some old => exact h.insert_old hv (h _ (find?_eq_some_iff.1 hv))

/-- Keys that have only one spelling: maps that answer all look-ups alike are equal. -/
theorem eq_of_find?_of_lawful {m n : SortedMap κ α} (h : ∀ key, m.find? key = n.find? key) :
    m = n :=
  eq_of_find? h fun _ _ _ _ => Std.compare_eq_iff_eq.1

theorem find?_ofList_iff {entries : List (κ × α)} (h : (entries.map (·.1)).Nodup) {key : κ}
    {value : α} : (ofList entries).find? key = some value ↔ (key, value) ∈ entries := by
  have hapart : entries.Pairwise fun a b => compare a.1 b.1 ≠ .eq :=
    (List.pairwise_map.1 h).imp fun hne he => hne (Std.compare_eq_iff_eq.1 he)
  rw [find?_eq_some_iff, (entries_ofList_perm hapart).mem_iff]

/-- Another value for one of the keys. -/
theorem insert_ofList (before : List (κ × α)) {after : List (κ × α)} {key : κ} {old : α}
    (h : ((before ++ (key, old) :: after).map (·.1)).Nodup) (value : α) :
    (ofList (before ++ (key, old) :: after)).insert key value =
      ofList (before ++ (key, value) :: after) := by
  have h' : ((before ++ (key, value) :: after).map (·.1)).Nodup := by simpa using h
  refine eq_of_find?_of_lawful fun other => Option.ext fun v => ?_
  rw [find?_insert, find?_ofList_iff h']
  split
  next he =>
    obtain rfl := Std.compare_eq_iff_eq.1 he
    constructor
    · intro hv
      cases hv
      simp
    · intro hm
      have hs : (ofList (before ++ (other, value) :: after)).find? other = some value :=
        (find?_ofList_iff h').2 (by simp)
      exact hs.symm.trans ((find?_ofList_iff h').2 hm)
  next hne =>
    have hk : other ≠ key := fun he => hne (Std.compare_eq_iff_eq.2 he)
    rw [find?_ofList_iff h]
    simp [hk]

theorem find?_insert_eq_ite [DecidableEq κ] (m : SortedMap κ α) (key other : κ) (value : α) :
    (m.insert key value).find? other = if other = key then some value else m.find? other := by
  rw [find?_insert]
  exact if_congr Std.compare_eq_iff_eq rfl rfl

theorem find?_erase_eq_ite [DecidableEq κ] (m : SortedMap κ α) (key other : κ) :
    (m.erase key).find? other = if other = key then none else m.find? other := by
  rw [find?_erase]
  exact if_congr Std.compare_eq_iff_eq rfl rfl

theorem find?_filter_keys (m : SortedMap κ α) (p : κ → Bool) (key : κ) :
    (m.filter fun k _ => p k).find? key = if p key then m.find? key else none := by
  refine Option.ext fun value => ?_
  rw [find?_eq_some_iff, filter, List.mem_filter, ← find?_eq_some_iff]
  cases p key <;> simp

/-- Entries that are inserted under keys made from their own. -/
theorem find?_foldl_insert {ι : Type} [Ord ι] [Std.TransOrd ι] [Std.LawfulEqOrd ι] {f : ι → κ}
    (hf : Function.Injective f) (own : SortedMap ι α) (m : SortedMap κ α) (i : ι) :
    (own.entries.foldl (fun m e => m.insert (f e.1) e.2) m).find? (f i) =
      (own.find? i).or (m.find? (f i)) := by
  obtain ⟨entries, h⟩ := own
  simp only [find?]
  induction entries generalizing m with
  | nil => rfl
  | cons e rest ih =>
    have hi := ih (m.insert (f e.1) e.2) (List.pairwise_cons.1 h).2
    have hm := find?_insert m (f e.1) (f i) e.2
    simp only [find?] at hi hm
    have hc : compare (f i) (f e.1) = .eq ↔ compare i e.1 = .eq := by
      rw [Std.compare_eq_iff_eq, Std.compare_eq_iff_eq, hf.eq_iff]
    rw [List.foldl_cons, hi, hm]
    by_cases he : compare i e.1 = .eq
    · simp [lookup, he, hc, lookup_rest h he]
    · simp [lookup, he, hc]

theorem find?_foldl_insert_of_ne {ι : Type} {f : ι → κ} (entries : List (ι × α))
    (m : SortedMap κ α) {key : κ} (h : ∀ i, key ≠ f i) :
    (entries.foldl (fun m e => m.insert (f e.1) e.2) m).find? key = m.find? key := by
  induction entries generalizing m with
  | nil => rfl
  | cons e rest ih => rw [List.foldl_cons, ih, find?_insert, if_neg (by simp [h e.1])]

end Lawful

end StorageCluster.SortedMap

import StorageCluster.Proofs.SortedMap

/-!
# Erasing many keys

Keys that are erased one after the other are filtered out, whatever their order, and it does not
matter whether others are inserted before or afterwards.
-/
namespace StorageCluster.SortedMap

variable {κ α : Type} [Ord κ] [Std.TransOrd κ]

theorem contains_foldl_erase (keys : List κ) (m : SortedMap κ α) (other : κ) :
    (keys.foldl erase m).contains other =
      (keys.all (fun key => compare other key != .eq) && m.contains other) := by
  induction keys generalizing m with
  | nil => rfl
  | cons key rest ih =>
    rw [List.foldl_cons, ih, contains_erase, List.all_cons]
    cases compare other key != .eq <;> simp

omit [Std.TransOrd κ] in
theorem foldl_erase (keys : List κ) (m : SortedMap κ α) :
    keys.foldl erase m = m.filter fun k _ => keys.all fun key => compare key k != .eq := by
  induction keys generalizing m with
  | nil => exact ext (List.filter_eq_self.2 fun _ _ => rfl).symm
  | cons key rest ih =>
    rw [List.foldl_cons, ih]
    refine ext ?_
    simp only [filter, erase, List.filter_filter, List.all_cons]
    exact List.filter_congr fun e _ => Bool.and_comm ..

omit [Std.TransOrd κ] in
theorem put_of_lt {key : κ} {entries : List (κ × α)} (value : α)
    (h : ∀ e ∈ entries, compare key e.1 = .lt) :
    put key value entries = (key, value) :: entries := by
  cases entries with
  | nil => rfl
  | cons head rest => rw [put, h head List.mem_cons_self]

theorem filter_put {p : κ → Bool} (hp : ∀ a b, compare a b = .eq → p a = p b) {key : κ} {value : α}
    {entries : List (κ × α)} (h : Rising entries) :
    (put key value entries).filter (fun e => p e.1) =
      if p key then put key value (entries.filter fun e => p e.1)
      else entries.filter fun e => p e.1 := by
  induction entries with
  | nil => cases hk : p key <;> simp [put, hk]
  | cons head rest ih =>
    obtain ⟨k, v⟩ := head
    obtain ⟨hhead, hrest⟩ := List.pairwise_cons.1 h
    have ih := ih hrest
    cases hc : compare key k with
    | lt =>
      have hbelow : ∀ e ∈ ((k, v) :: rest).filter fun e => p e.1, compare key e.1 = .lt := by
        intro e he
        rcases List.mem_cons.1 (List.mem_filter.1 he).1 with rfl | he
        · exact hc
        · exact Std.TransCmp.lt_trans hc (hhead e he)
      rw [put_of_lt value hbelow, put, hc]
      cases hk : p key <;> simp [hk]
    | eq => cases hk : p k <;> simp [put, hc, hp key k hc, hk]
    | gt =>
      cases hk : p k
      · simp [put, hc, hk, ih]
      · cases hkey : p key <;> simp [put, hc, hk, hkey, ih]

/-- Inserting a key that is kept commutes with filtering, and one that is not leaves no trace. -/
theorem filter_insert {p : κ → Bool} (hp : ∀ a b, compare a b = .eq → p a = p b)
    (m : SortedMap κ α) (key : κ) (value : α) :
    (m.insert key value).filter (fun k _ => p k) =
      if p key then (m.filter fun k _ => p k).insert key value else m.filter fun k _ => p k := by
  refine ext ((filter_put hp m.rising).trans ?_)
  cases p key <;> rfl

/-- A value that is there already can be inserted again. -/
theorem insert_eq_self {m : SortedMap κ α} {key : κ} {value : α} (h : m.find? key = some value) :
    m.insert key value = m :=
  (insert_eq_modify h id).trans (modify_eq_self fun _ _ => rfl)

end StorageCluster.SortedMap

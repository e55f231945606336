import StorageCluster.Proofs.Store.Loading

/-!
# What was loaded is stored

Loading brings the snapshots of a graph to the definitions that they name, and each of them to one
definition only. So the rows of a graph that was loaded are those that it was loaded from, and it
can be stored as the one before.
-/
namespace StorageCluster

namespace SortedMap

variable {κ α γ : Type} [Ord κ] [Std.TransOrd κ]

/-- What belongs to one of several owners each comes together again. -/
theorem flatMap_filter_perm (own : α → κ) (owner : γ → κ) {values : List α} {items : List γ}
    (hapart : values.Pairwise fun a b => compare (own a) (own b) ≠ .eq)
    (howned : ∀ x ∈ items, ∃ v ∈ values, compare (owner x) (own v) = .eq) :
    (values.flatMap fun v => items.filter fun x =>
      compare (owner x) (own v) == .eq).Perm items := by
  induction values generalizing items with
  | nil =>
    have hnone : items = [] := List.eq_nil_iff_forall_not_mem.2 fun x hx => by
      obtain ⟨v, hv, _⟩ := howned x hx
      cases hv
    rw [hnone]
    exact .refl _
  | cons v rest ih =>
    obtain ⟨hv, hrest⟩ := List.pairwise_cons.1 hapart
    let mine (x : γ) : Bool := compare (owner x) (own v) == .eq
    -- the other owners share what is not of the first
    have hothers : (rest.flatMap fun w => items.filter fun x => compare (owner x) (own w) == .eq) =
        rest.flatMap fun w =>
          (items.filter fun x => !mine x).filter fun x => compare (owner x) (own w) == .eq := by
      refine List.flatMap_congr fun w hw => ?_
      rw [List.filter_filter]
      refine List.filter_congr fun x _ => ?_
      by_cases hx : compare (owner x) (own w) = .eq
      · have hnot : compare (owner x) (own v) ≠ .eq := fun he =>
          hv w hw (Std.TransCmp.eq_trans (Std.OrientedCmp.eq_symm he) hx)
        simp [mine, hx, hnot]
      · simp [hx]
    rw [List.flatMap_cons, hothers]
    refine ((ih hrest fun x hx => ?_).append_left _).trans (List.filter_append_perm mine items)
    obtain ⟨hx, hnot⟩ := List.mem_filter.1 hx
    obtain ⟨w, hw, howner⟩ := howned x hx
    rcases List.mem_cons.1 hw with rfl | hw
    · simp [mine, howner] at hnot
    · exact ⟨w, hw, howner⟩

theorem values_ofList_perm {entries : List (κ × α)}
    (hapart : entries.Pairwise fun a b => compare a.1 b.1 ≠ .eq) :
    (ofList entries).values.Perm (entries.map (·.2)) :=
  (entries_ofList_perm hapart).map Prod.snd

end SortedMap

namespace Graph

variable {g : Graph} {m : MemoryStore}

theorem stored_snapshots_perm (hg : g.Storable) (hm : m.Holds g.changes) (hgrounded : g.Grounded) :
    g.stored.snapshots.Perm g.snapshots := by
  have hkeys : (g.snapshots.map Stored.key).Pairwise fun a b => compare a b ≠ .eq := by
    have hperm : (m.rows .snapshots).keys.Perm (g.snapshots.map Stored.key) := by
      simpa [records, Stored.record, Function.comp_def, SortedMap.keys] using
        (entries_perm hm .snapshots).map Prod.fst
    exact (SortedMap.apart_perm id hperm).1 (m.rows .snapshots).keys_pairwise
  have hown (name : ResourceName) : (g.snapshotsOf name).values.Perm
      (g.snapshots.filter fun s => compare s.resource name == .eq) := by
    have hperm := SortedMap.values_ofList_perm (snapshots_apart name hkeys)
    simpa [snapshotsOf, Function.comp_def] using hperm
  have hmap : g.stored.snapshots =
      g.definitions.values.flatMap fun d => (g.snapshotsOf d.name).values := by
    simp only [snapshots, stored, SortedMap.values, SortedMap.map, List.flatMap_map, List.map_map,
      Function.comp_def]
  rw [hmap]
  refine (List.Perm.flatMap_left _ fun d _ => hown d.name).trans ?_
  refine SortedMap.flatMap_filter_perm _ _ hg.definitions.filed.values_pairwise fun s hs => ?_
  obtain ⟨d, hd⟩ := Option.isSome_iff_exists.1 (hgrounded.2 s hs).2
  exact ⟨d, SortedMap.mem_values.2 ⟨_, hd⟩, hg.definitions.filed _ d hd⟩

/-- A graph that was loaded has the rows that it was loaded from. -/
theorem stored_records_perm (hg : g.Storable) (hm : m.Holds g.changes) (hgrounded : g.Grounded)
    (table : Table) : (g.records table).Perm (g.stored.records table) := by
  have hdefinitions {β : Type} (f : Definition → List β)
      (hf : ∀ d snapshots, f { d with snapshots } = f d) :
      g.stored.definitions.values.flatMap f = g.definitions.values.flatMap f := by
    simp only [stored, SortedMap.values, SortedMap.map, List.flatMap_map, List.map_map,
      Function.comp_def, hf]
  cases table with
  | snapshots => exact (stored_snapshots_perm hg hm hgrounded).symm.map _
  | groups | pools | connections => exact .refl _
  | nodes =>
    refine .of_eq ?_
    simp only [records, stored, offline, SortedMap.values, SortedMap.map, List.map_map]
    rfl
  | definitions =>
    have hsame := hdefinitions (fun d => [Stored.record d]) fun _ _ => rfl
    rw [records, records, List.map_eq_flatMap, List.map_eq_flatMap, hsame]
  | volumeDefinitions =>
    rw [records, records, namedVolumes, namedVolumes,
      hdefinitions Definition.namedVolumes fun _ _ => rfl]
  | resources =>
    rw [records, records, resources, resources, hdefinitions (·.resources.values) fun _ _ => rfl]
  | volumes =>
    rw [records, records, deployedVolumes, deployedVolumes,
      hdefinitions Definition.deployedVolumes fun _ _ => rfl]

theorem holds_stored (hg : g.Storable) (hm : m.Holds g.changes) (hgrounded : g.Grounded) :
    m.Holds g.stored.changes := by
  intro table
  rw [changes_records]
  exact (entries_perm hm table).trans (stored_records_perm hg hm hgrounded table)

theorem Storable.stored (hg : g.Storable) : g.stored.Storable := by
  have hnode (name : NodeName) (h : g.nodes.contains name = true) :
      g.stored.nodes.contains name = true :=
    (contains_offline g name).trans h
  have hflags : ∀ s ∈ g.snapshots, s.flags.IsKnown := by
    intro s hs
    obtain ⟨d, hd, hsd⟩ := List.mem_flatMap.1 hs
    exact (hg.definition d hd).1.snapshot s hsd
  refine
    { nodes := hg.nodes.map fun _ _ => rfl
      node := fun n hn => ?_
      groups := hg.groups
      definitions := hg.definitions.map fun _ _ => rfl
      definition := fun d hd => ?_
      pools := hg.pools
      pool := fun p hp => hnode _ (hg.pool p hp)
      connections := hg.connections
      connection := fun c hc => ?_ }
  · obtain ⟨name, hfound⟩ := SortedMap.mem_values.1 hn
    rw [Graph.stored, offline, SortedMap.find?_map_values] at hfound
    obtain ⟨old, hold, rfl⟩ := Option.map_eq_some_iff.1 hfound
    exact { hg.node old (SortedMap.mem_values.2 ⟨name, hold⟩) with }
  · obtain ⟨name, hfound⟩ := SortedMap.mem_values.1 hd
    rw [Graph.stored, SortedMap.find?_map_values] at hfound
    obtain ⟨old, hold, rfl⟩ := Option.map_eq_some_iff.1 hfound
    obtain ⟨hstorable, hanchored⟩ := hg.definition old (SortedMap.mem_values.2 ⟨name, hold⟩)
    refine ⟨{ hstorable with snapshots := ?_, snapshot := ?_ }, hanchored.group, fun r hr =>
      hnode _ (hanchored.nodes r hr)⟩
    · refine .ofList fun e he => ?_
      obtain ⟨s, _, rfl⟩ := List.mem_map.1 he
      exact Std.ReflCmp.compare_self
    · refine SortedMap.forall_ofList fun e he => ?_
      obtain ⟨s, hs, rfl⟩ := List.mem_map.1 he
      exact hflags s (List.mem_filter.1 hs).1
  · have hanchored := hg.connection c hc
    exact ⟨hnode _ hanchored.source, hnode _ hanchored.target, hanchored.ordered⟩

end Graph

end StorageCluster

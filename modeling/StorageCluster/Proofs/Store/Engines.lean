import StorageCluster.Proofs.Store.Image
import StorageCluster.Store.Engine

/-!
# The two engines

A store with either engine shows the rows of a store in memory. Changes whose keys and columns hold
no slash keep it so: they are refused by both engines for the same reason, and what is read back are
the same rows. Main result: `engines_agree`.
-/
namespace StorageCluster

/-- Two attempts end alike: both are refused for the same reason, or both succeed with results that
belong together. -/
inductive Alike {ε α β : Type} (R : α → β → Prop) : Except ε α → Except ε β → Prop
  | ok {a : α} {b : β} (h : R a b) : Alike R (.ok a) (.ok b)
  | error (fault : ε) : Alike R (.error fault) (.error fault)

namespace Alike

variable {ε α β γ ι : Type} {R : α → β → Prop}

theorem bind {α' β' : Type} {S : α' → β' → Prop} {x : Except ε α} {y : Except ε β}
    {f : α → Except ε α'} {g : β → Except ε β'} (h : Alike R x y)
    (hnext : ∀ a b, R a b → Alike S (f a) (g b)) : Alike S (x >>= f) (y >>= g) := by
  cases h with
  | ok h => exact hnext _ _ h
  | error fault => exact .error fault

theorem foldlM {f : α → ι → Except ε α} {g : β → ι → Except ε β} {steps : List ι}
    (hstep : ∀ i ∈ steps, ∀ a b, R a b → Alike R (f a i) (g b i)) {a : α} {b : β} (h : R a b) :
    Alike R (steps.foldlM f a) (steps.foldlM g b) := by
  induction steps generalizing a b with
  | nil => exact .ok h
  | cons i rest ih =>
    rw [List.foldlM_cons, List.foldlM_cons]
    refine (hstep i List.mem_cons_self a b h).bind fun a' b' hab => ?_
    exact ih (fun j hj => hstep j (List.mem_cons_of_mem i hj)) hab

theorem map_left {S : γ → β → Prop} {f : α → γ} {x : Except ε α} {y : Except ε β}
    (h : Alike (fun a b => S (f a) b) x y) : Alike S (x.map f) y := by
  cases h with
  | ok h => exact .ok h
  | error fault => exact .error fault

/-- Attempts that both end like a third one end alike. -/
theorem join {S : γ → β → Prop} {x : Except ε α} {y : Except ε γ} {z : Except ε β}
    (hx : Alike R x z) (hy : Alike S y z) : Alike (fun a c => ∃ b, R a b ∧ S c b) x y := by
  cases hx with
  | error fault =>
    cases hy with
    | error => exact .error fault
  | ok ha =>
    cases hy with
    | ok hc => exact .ok ⟨_, ha, hc⟩

end Alike

namespace KeyValueStore

variable {s : KeyValueStore} {m : MemoryStore}

/-- Both stores accept the same changes, and refuse the others for the same reason. -/
theorem Shows.apply (h : s.Shows m) {change : Change} (hc : change.Flat) :
    Alike Shows (s.apply change) (m.apply change) := by
  cases change with
  | create table key row =>
    obtain ⟨hk, hrow⟩ := hc
    simp only [KeyValueStore.apply, MemoryStore.apply, h.hasRow table hk]
    split
    next => exact .error _
    next hnew => exact .ok (h.create hk hrow (Bool.eq_false_iff.2 hnew))
  | delete table key =>
    simp only [KeyValueStore.apply, MemoryStore.apply, List.isEmpty_map, isEmpty_scan,
      h.hasRow table hc]
    cases (m.rows table).contains key with
    | false => exact .error _
    | true => exact .ok (h.delete table hc)
  | update table key column value =>
    obtain ⟨hk, hcolumn⟩ := hc
    simp only [KeyValueStore.apply, MemoryStore.apply, h.hasRow table hk]
    cases hr : (m.rows table).find? key with
    | none =>
      rw [if_neg (by simp [SortedMap.contains, hr])]
      exact .error _
    | some row =>
      rw [if_pos (SortedMap.contains_of_find? hr)]
      exact .ok (h.update hk hcolumn hr value)

/-- Reading one more entry of a table. -/
def readEntry (table : Table) (rows : Rows) (e : String × String) : Except Fault Rows :=
  match splitAtLastSlash? (e.1.toList.drop (tableRoot table).length) with
  | some (key, column) => .ok (addColumn rows (String.ofList key) (String.ofList column) e.2)
  | none => .error (malformed table e.1)

theorem rows_eq (s : KeyValueStore) (table : Table) :
    s.rows table = (s.entries.filter fun text _ =>
      startsWith (tableRoot table) text).entries.foldlM (readEntry table) .empty := by
  have hscan : (s.entries.filter fun text _ => startsWith (tableRoot table) text).entries =
      s.scan (tableRoot table) := (s.scan_eq_filter _).symm
  rw [hscan]
  rfl

theorem readEntry_path (table : Table) (rows : Rows) (key value : String) {column : String}
    (hc : IsPart column) :
    readEntry table rows (path table key column, value) =
      .ok (addColumn rows key column value) := by
  simp [readEntry, split_path table key hc]

/-- The entries of one table are read column by column. -/
theorem foldlM_readEntry (table : Table) {entries : List (String × String)}
    (hr : Rising entries) (hkeys : ∀ e ∈ entries, ∃ key column, IsPart key ∧ IsPart column ∧
      e.1 = path table key column) {rows : Rows} (hrows : rows.Flat) :
    ∃ read : Rows, entries.foldlM (readEntry table) rows = .ok read ∧ read.Flat ∧
      ∀ key column, IsPart key → IsPart column → read.column? key column =
        (SortedMap.lookup (path table key column) entries).or (rows.column? key column) := by
  induction entries generalizing rows with
  | nil => exact ⟨rows, rfl, hrows, fun _ _ _ _ => rfl⟩
  | cons e rest ih =>
    obtain ⟨key, column, hk, hc, he⟩ := hkeys e List.mem_cons_self
    obtain ⟨read, hread, hflat, hcolumns⟩ := ih (List.pairwise_cons.1 hr).2
      (fun e he => hkeys e (List.mem_cons_of_mem _ he)) (hrows.addColumn hk hc e.2)
    refine ⟨read, ?_, hflat, ?_⟩
    · have hread1 : readEntry table rows e = .ok (addColumn rows key column e.2) := by
        rw [← readEntry_path table rows key e.2 hc, ← he]
      rw [List.foldlM_cons, hread1]
      exact hread
    · intro key' column' hk' hc'
      rw [hcolumns key' column' hk' hc', Rows.column?_addColumn]
      by_cases hs : key' = key ∧ column' = column
      · obtain ⟨rfl, rfl⟩ := hs
        have heq : compare (path table key' column') e.1 = .eq := Std.compare_eq_iff_eq.2 he.symm
        have hrest : SortedMap.lookup (path table key' column') rest = none :=
          SortedMap.lookup_rest hr heq
        simp [SortedMap.lookup, heq, hrest]
      · have hne : compare (path table key' column') e.1 ≠ .eq := by
          rw [Std.compare_eq_iff_eq.ne, he]
          intro hp
          obtain ⟨_, hkey, hcolumn⟩ := path_inj hk' hk hp
          exact hs ⟨hkey, hcolumn⟩
        simp [SortedMap.lookup, hne, hs]

/-- What is read back are the rows that are shown. -/
theorem Shows.rows (h : s.Shows m) (table : Table) : s.rows table = .ok (m.rows table) := by
  let own := s.entries.filter fun text _ => startsWith (tableRoot table) text
  have hkeys : ∀ e ∈ own.entries, ∃ key column, IsPart key ∧ IsPart column ∧
      e.1 = path table key column := by
    intro e he
    obtain ⟨hm, hs⟩ := List.mem_filter.1 he
    obtain ⟨other, key, column, hk, hc, ht⟩ := h.keys e.1 (List.mem_map.2 ⟨e, hm, rfl⟩)
    rw [ht, startsWith_tableRoot] at hs
    exact ⟨key, column, hk, hc, hs ▸ ht⟩
  obtain ⟨read, hread, hflat, hcolumns⟩ := foldlM_readEntry table own.rising hkeys .empty
  have hsame : read = m.rows table := by
    refine hflat.ext (h.flat table) fun key column hk hc => ?_
    have hfind : own.find? (path table key column) = s.entries.find? (path table key column) := by
      rw [SortedMap.find?_filter_keys, if_pos (startsWith_tableRoot.2 rfl)]
    rw [hcolumns key column hk hc, ← h.columns table key column hk hc, ← hfind]
    exact Option.or_none
  rw [rows_eq, hread, hsame]

end KeyValueStore

/-- What an engine holds, as the rows of a store in memory. -/
def Engine.Shows : Engine → MemoryStore → Prop
  | .memory store, m => store = m
  | .keyValue store, m => store.Shows m

namespace Engine.Shows

variable {e : Engine} {m : MemoryStore}

theorem new (kind : EngineKind) : (Engine.new kind).Shows .empty := by
  cases kind with
  | memory => rfl
  | keyValue => exact .empty

theorem rows (h : e.Shows m) (table : Table) : e.rows table = .ok (m.rows table) := by
  cases e with
  | memory store => rw [Engine.rows, show store = m from h]
  | keyValue store => exact KeyValueStore.Shows.rows h table

theorem applyAll (h : e.Shows m) {changes : List Change} (hc : ∀ change ∈ changes, change.Flat) :
    Alike Engine.Shows (e.applyAll changes) (changes.foldlM MemoryStore.apply m) := by
  cases e with
  | memory store =>
    refine Alike.map_left (Alike.foldlM (fun change _ a b hab => ?_) h)
    rw [show a = b from hab]
    cases b.apply change with
    | ok _ => exact .ok rfl
    | error fault => exact .error fault
  | keyValue store =>
    exact Alike.map_left (Alike.foldlM (fun change hm a b hab => hab.apply (hc change hm)) h)

end Engine.Shows

namespace Store

/-- The engine keeps nothing of a batch that is refused. -/
theorem engine_of_refused {s after : Store} {changes : List Change} {fault : Fault}
    (h : s.commit changes = (after, .error fault)) : after.engine = s.engine := by
  unfold commit at h
  split at h
  · simp at h
  · split at h
    · cases h; rfl
    · split at h
      · simp at h
      · cases h; rfl

/-- The store after batches were committed, whatever came of each of them. -/
def commitAll (s : Store) (batches : List (List Change)) : Store :=
  batches.foldl (fun s batch => (s.commit batch).1) s

/-- Two stores hold the same rows, and are going to refuse as many batches. -/
structure Like (a b : Store) : Prop where
  outage : a.outage = b.outage
  engines : ∃ m, a.engine.Shows m ∧ b.engine.Shows m

namespace Like

variable {a b : Store} {batch : List Change}

theorem new (outage : Nat) (kind other : EngineKind) :
    Like ⟨.new kind, outage⟩ ⟨.new other, outage⟩ :=
  ⟨rfl, .empty, .new kind, .new other⟩

theorem rows (h : Like a b) (table : Table) :
    ∃ rows, a.rows table = .ok rows ∧ b.rows table = .ok rows := by
  obtain ⟨m, ha, hb⟩ := h.engines
  exact ⟨m.rows table, ha.rows table, hb.rows table⟩

/-- A batch comes to the same on both, and leaves them alike. -/
theorem commit (h : Like a b) (hc : ∀ change ∈ batch, change.Flat) :
    (a.commit batch).2 = (b.commit batch).2 ∧ Like (a.commit batch).1 (b.commit batch).1 := by
  obtain ⟨m, ha, hb⟩ := h.engines
  unfold Store.commit
  rw [← h.outage]
  split
  · exact ⟨rfl, h⟩
  · split
    next n _ => exact ⟨rfl, ⟨rfl, m, ha, hb⟩⟩
    next =>
      -- both engines are held against the rows in memory that they show
      have hboth := (ha.applyAll hc).join (hb.applyAll hc)
      generalize a.engine.applyAll batch = x, b.engine.applyAll batch = y at hboth
      cases hboth with
      | error fault => exact ⟨rfl, h⟩
      | ok hshow => exact ⟨rfl, ⟨rfl, hshow⟩⟩

theorem commitAll (h : Like a b) {batches : List (List Change)}
    (hc : ∀ batch ∈ batches, ∀ change ∈ batch, change.Flat) :
    Like (a.commitAll batches) (b.commitAll batches) := by
  induction batches generalizing a b with
  | nil => exact h
  | cons batch rest ih =>
    exact ih (h.commit (hc batch List.mem_cons_self)).2
      fun other ho => hc other (List.mem_cons_of_mem _ ho)

end Like

/-- After any batches, the next batch comes to the same on both engines, and all tables read the
same afterwards. If the batch is refused, neither engine has changed. -/
theorem engines_agree (outage : Nat) (batches : List (List Change)) (batch : List Change)
    (hflat : ∀ t ∈ batches ++ [batch], ∀ change ∈ t, change.Flat) :
    let m := commitAll ⟨.new .memory, outage⟩ batches
    let k := commitAll ⟨.new .keyValue, outage⟩ batches
    (m.commit batch).2 = (k.commit batch).2 ∧
      (∀ table, ∃ rows, (m.commit batch).1.rows table = .ok rows ∧
        (k.commit batch).1.rows table = .ok rows) ∧
      ∀ fault, (m.commit batch).2 = .error fault →
        (m.commit batch).1.engine = m.engine ∧ (k.commit batch).1.engine = k.engine := by
  intro m k
  have hlike : Like m k :=
    (Like.new outage .memory .keyValue).commitAll fun t ht => hflat t (List.mem_append_left _ ht)
  obtain ⟨hsame, hafter⟩ := hlike.commit (hflat batch (by simp))
  refine ⟨hsame, fun table => hafter.rows table, fun fault hm => ⟨?_, ?_⟩⟩
  · exact engine_of_refused (Prod.ext rfl hm)
  · exact engine_of_refused (Prod.ext rfl (hsame ▸ hm))

namespace Sample

/-- Two rows whose keys begin alike are created, and one of them gets a column more. -/
def batches : List (List Change) :=
  [[.create .nodes "ALPHA" (.ofList [("UUID", "1")]),
    .create .nodes "ALPHA2" (.ofList [("UUID", "2")])],
   [.update .nodes "ALPHA" "PROPS" "\x7b\x7d"]]

/-- A batch that deletes one of the rows and then fails. -/
def refused : List Change := [.delete .nodes "ALPHA", .delete .nodes "BRAVO"]

end Sample

example : ((commitAll ⟨.new .keyValue, 0⟩ Sample.batches).commit Sample.refused).2 =
    .error (StoreFault.deleteUnknown "BRAVO" .nodes).toFault := by rfl

theorem engines_agree_midway :
    let m := commitAll ⟨.new .memory, 0⟩ Sample.batches
    let k := commitAll ⟨.new .keyValue, 0⟩ Sample.batches
    (m.commit Sample.refused).2 = (k.commit Sample.refused).2 ∧
      (∀ table, ∃ rows, (m.commit Sample.refused).1.rows table = .ok rows ∧
        (k.commit Sample.refused).1.rows table = .ok rows) ∧
      ∀ fault, (m.commit Sample.refused).2 = .error fault →
        (m.commit Sample.refused).1.engine = m.engine ∧
          (k.commit Sample.refused).1.engine = k.engine :=
  engines_agree 0 Sample.batches Sample.refused (by decide)

end Store

end StorageCluster

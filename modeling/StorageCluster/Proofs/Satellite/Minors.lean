import Mathlib.Data.List.Nodup
import Mathlib.Data.List.Perm.Subperm
import StorageCluster.Proofs.Satellite.Settlement

/-!
# DRBD minors

A new minor is the smallest one that nobody holds. By the pigeonhole principle there is one among
the first numbers, one more than are held, so the search always ends. It follows for every history
of calls that no minor is held twice, that minors lie as densely as the most resources that ever
held some at the same time, and that a resource keeps its minor until a deletion gives it back.
-/
namespace StorageCluster

/-- A map whose keys are all among some names has no more entries than there are names. -/
theorem SortedMap.size_le_of_names {α : Type} {m : SortedMap ResourceName α}
    {names : List ResourceName}
    (h : ∀ key, m.contains key = true → ∃ name ∈ names, (name == key) = true) :
    m.size ≤ names.length := by
  have hapart : (m.keys.map Name.value).Nodup :=
    List.pairwise_map.2 (m.keys_pairwise.imp fun hne he => hne ((Name.compare_eq_iff _ _).2 he))
  have hsub : m.keys.map Name.value ⊆ names.map Name.value := by
    intro text htext
    obtain ⟨key, hkey, rfl⟩ := List.mem_map.1 htext
    obtain ⟨name, hname, hsame⟩ := h key (SortedMap.contains_iff.2 ⟨key, hkey, by simp⟩)
    exact List.mem_map.2 ⟨name, hname, (Name.beq_iff _ _).1 hsame⟩
  have hle := (List.subperm_of_subset hapart hsub).length_le
  rwa [List.length_map, List.length_map, SortedMap.keys, List.length_map] at hle

namespace DrbdState

/-! ## The search -/

/-- The smallest minor not in `taken`, as its definition by a bounded search should give it. -/
structure SmallestFree (taken : List Nat) (minor : Nat) : Prop where
  first : firstMinor ≤ minor
  free : minor ∉ taken
  least : ∀ m, firstMinor ≤ m → m < minor → m ∈ taken

/-- All minors of 32 bits, in the order in which they are tried. -/
def allMinors : List Nat := List.range' firstMinor (UInt32.size - firstMinor)

/-- Not all of these candidates are taken, since there are too many of them. -/
theorem exists_free (taken : List Nat) :
    ∃ n ∈ List.range (taken.length + 1), firstMinor + n ∉ taken := by
  by_contra hnone
  have hall : ∀ n ∈ List.range (taken.length + 1), firstMinor + n ∈ taken := fun n hn =>
    by_contra fun hfree => hnone ⟨n, hn, hfree⟩
  have hsub : (List.range (taken.length + 1)).map (firstMinor + ·) ⊆ taken := by
    intro m hm
    obtain ⟨n, hn, rfl⟩ := List.mem_map.1 hm
    exact hall n hn
  have hapart : ((List.range (taken.length + 1)).map (firstMinor + ·)).Nodup :=
    List.Nodup.map (fun _ _ => Nat.add_left_cancel) List.nodup_range
  have hle := (List.subperm_of_subset hapart hsub).length_le
  rw [List.length_map, List.length_range] at hle
  omega

theorem freeMinor_spec (taken : List Nat) :
    SmallestFree taken (freeMinor taken) ∧ freeMinor taken ≤ firstMinor + taken.length := by
  obtain ⟨n, hn, hfree⟩ := exists_free taken
  have hsome : ((List.range (taken.length + 1)).find?
      ((fun m => decide (m ∉ taken)) ∘ (firstMinor + ·))).isSome = true :=
    List.find?_isSome.2 ⟨n, hn, by simpa using hfree⟩
  obtain ⟨k, hk⟩ := Option.isSome_iff_exists.1 hsome
  have hminor : freeMinor taken = firstMinor + k := by
    rw [freeMinor, List.find?_map, hk]
    rfl
  obtain ⟨hfree, hmem, hleast⟩ := List.find?_range_eq_some.1 hk
  have hlt := List.mem_range.1 hmem
  rw [hminor]
  refine ⟨⟨Nat.le_add_right .., by simpa using hfree, fun m hfirst hm => ?_⟩, by omega⟩
  obtain ⟨j, rfl⟩ := Nat.exists_eq_add_of_le hfirst
  simpa using hleast j (by omega)

/-- As long as there is one, the search through all minors finds the smallest free one. -/
theorem find?_allMinors {taken : List Nat} {minor : Nat} (h : SmallestFree taken minor)
    (hlt : minor < UInt32.size) : allMinors.find? (· ∉ taken) = some minor := by
  refine List.find?_range'_eq_some.2 ⟨by simpa using h.free, ?_, fun m hfirst hm => ?_⟩
  · have hfirst := h.first
    rw [List.mem_range'_1]
    omega
  · simpa using h.least m hfirst hm

/-! ## What is held -/

/-- Minors are held once, and lie below the peak. -/
structure Numbered (s : DrbdState) (peak : Nat) : Prop where
  apart : ∀ a b minor, s.minors.find? a = some minor → s.minors.find? b = some minor →
    (a == b) = true
  range : ∀ name minor, s.minors.find? name = some minor →
    firstMinor ≤ minor ∧ minor < firstMinor + peak
  fits : s.minors.size ≤ peak

variable {s : DrbdState} {name other : ResourceName} {peak : Nat}

theorem find?_allocate_same (h : (name == other) = true) :
    (s.allocate name).2.minors.find? other =
      some ((s.minors.find? other).getD (freeMinor s.minors.values)) := by
  have hsame := (Name.beq_iff_compare _ _).1 h
  rw [← SortedMap.find?_congr hsame, ← SortedMap.find?_congr hsame]
  unfold allocate
  cases hm : s.minors.find? name with
  | some minor => exact hm
  | none => exact SortedMap.find?_insert_self ..

theorem find?_release_same (h : (name == other) = true) :
    (s.release name).minors.find? other = none := by
  rw [Name.beq_comm] at h
  exact (SortedMap.find?_erase ..).trans (if_pos ((Name.beq_iff_compare _ _).1 h))

theorem find?_release_other (h : (name == other) = false) :
    (s.release name).minors.find? other = s.minors.find? other :=
  (SortedMap.find?_erase ..).trans (if_neg (Name.compare_ne_of_beq h))

theorem size_allocate (h : s.minors.find? name = none) :
    (s.allocate name).2.minors.size = s.minors.size + 1 := by
  have hnew : s.minors.contains name = false := by rw [SortedMap.contains, h]; rfl
  have hperm := SortedMap.entries_insert_perm (freeMinor s.minors.values) hnew
  unfold allocate
  rw [h]
  exact hperm.length_eq

/-- A minor that is held by others is none that the search finds. -/
theorem find?_ne_freeMinor (s : DrbdState) (name : ResourceName) :
    s.minors.find? name ≠ some (freeMinor s.minors.values) := fun h =>
  (freeMinor_spec s.minors.values).1.free (SortedMap.mem_values.2 ⟨name, h⟩)

theorem Numbered.mono (h : s.Numbered peak) {more : Nat} (hle : peak ≤ more) : s.Numbered more :=
  ⟨h.apart, fun name minor hm => (h.range name minor hm).imp_right fun hlt => by omega,
    Nat.le_trans h.fits hle⟩

theorem Numbered.allocate (h : s.Numbered peak) (name : ResourceName) :
    (s.allocate name).2.Numbered (max peak (s.allocate name).2.minors.size) := by
  cases hm : s.minors.find? name with
  | some minor =>
    rw [allocate_eq_self (SortedMap.contains_of_find? hm)]
    exact h.mono (Nat.le_max_left ..)
  | none =>
    have hsize := size_allocate hm
    obtain ⟨hsmallest, hbound⟩ := freeMinor_spec s.minors.values
    have hlength : s.minors.values.length = s.minors.size := List.length_map ..
    have hold {k : ResourceName} (hk : (name == k) = false) := find?_allocate (s := s) hk
    have hsame {k : ResourceName} (hk : (name == k) = true) :
        (s.allocate name).2.minors.find? k = some (freeMinor s.minors.values) := by
      rw [find?_allocate_same hk, ← SortedMap.find?_congr ((Name.beq_iff_compare _ _).1 hk), hm]
      rfl
    refine ⟨fun a b minor ha hb => ?_, fun k minor hk => ?_, Nat.le_max_right ..⟩
    · cases hna : name == a <;> cases hnb : name == b
      · rw [hold hna] at ha
        rw [hold hnb] at hb
        exact h.apart a b minor ha hb
      · rw [hold hna] at ha
        rw [hsame hnb] at hb
        exact absurd (ha.trans hb.symm) (find?_ne_freeMinor s a)
      · rw [hsame hna] at ha
        rw [hold hnb] at hb
        exact absurd (hb.trans ha.symm) (find?_ne_freeMinor s b)
      · rw [Name.beq_iff] at hna hnb ⊢
        exact hna.symm.trans hnb
    · have hmax := Nat.le_max_right peak (s.allocate name).2.minors.size
      cases hnk : name == k
      · rw [hold hnk] at hk
        have hrange := h.range k minor hk
        exact ⟨hrange.1, by omega⟩
      · rw [hsame hnk] at hk
        cases hk
        exact ⟨hsmallest.first, by omega⟩

theorem Numbered.release (h : s.Numbered peak) (name : ResourceName) :
    (s.release name).Numbered peak := by
  have hold {k : ResourceName} {minor : Nat} (hk : (s.release name).minors.find? k = some minor) :
      s.minors.find? k = some minor := by
    rw [DrbdState.release, SortedMap.find?_erase] at hk
    split at hk
    · cases hk
    · exact hk
  exact ⟨fun a b minor ha hb => h.apart a b minor (hold ha) (hold hb),
    fun k minor hk => h.range k minor (hold hk),
    Nat.le_trans (List.length_filter_le ..) h.fits⟩

end DrbdState

namespace Drbd

/-! ## Histories of calls -/

/-- A call on the layer for a resource, and how the layers below fared if they were called. -/
structure Call where
  resource : Resource
  below : Option (Except Fault Unit)

namespace Call

def failed (c : Call) : Bool :=
  match c.below with
  | some (.error _) => true
  | _ => false

/-- A deletion gives back the minor of its resource unless the layers below failed. -/
def Frees (c : Call) (name : ResourceName) : Prop :=
  (c.resource.name == name) = true ∧ c.resource.isDeleted = true ∧ c.failed = false

/-- What a call does to the minors. -/
def settle (c : Call) (s : DrbdState) : DrbdState :=
  if c.resource.isDeleted then if c.failed then s else s.release c.resource.name
  else (s.allocate c.resource.name).2

end Call

/-- What the layers below meet: a live resource has its minor before they are called. -/
def passDown (l : LayerResource) (d : Devices) : Devices :=
  if l.resource.isDeleted then d
  else { d with drbd := (d.drbd.allocate l.resource.name).2 }

/-- The call on a layer, told by what the layers below make of it. -/
def callOf (l : LayerResource) (descend : Act Devices Unit) (d : Devices) (entries : Report) :
    Call where
  resource := l.resource
  below :=
    if l.resource.isDiskless then none else some (descend.run (passDown l d, entries)).1

/-- The layers below leave the minors alone. -/
def Spares (descend : Act Devices Unit) : Prop :=
  ∀ state, (descend.run state).2.1.drbd.minors = state.1.drbd.minors

/-- No other layer has minors to give or take. -/
theorem Spares.of_work (r : Resource) {stack : List LayerKind} (hstack : LayerKind.drbd ∉ stack) :
    Spares (r.work stack) := fun state =>
  (r.work_steps stack state.1 state.2).keeps (P := fun d => d.drbd.minors = state.1.drbd.minors)
    (fun kind hk _ _ hstep ih => by
      have hne : kind ≠ .drbd := fun he => hstack (he ▸ r.reached_subset stack hk)
      cases hstep <;> first | exact absurd rfl hne | exact ih) rfl

/-- A run of calls on the layer from a start, and the most minors that were held at a time. What
happens elsewhere in between does not touch the minors. -/
inductive Calls (start : Devices) : List Call → Nat → Devices → Prop
  | nothing : Calls start [] start.drbd.minors.size start
  | process {calls : List Call} {peak : Nat} {d : Devices} (before : Calls start calls peak d)
    (l : LayerResource) (descend : Act Devices Unit) (entries : Report)
    (spares : Spares descend) :
    Calls start (calls ++ [callOf l descend d entries])
      (max peak ((process l descend).run (d, entries)).2.1.drbd.minors.size)
      ((process l descend).run (d, entries)).2.1
  | elsewhere {calls : List Call} {peak : Nat} {d d' : Devices} (before : Calls start calls peak d)
    (same : d'.drbd.minors = d.drbd.minors) : Calls start calls peak d'

theorem process_minors (l : LayerResource) {descend : Act Devices Unit} (d : Devices)
    (entries : Report) (hspares : Spares descend) :
    ((process l descend).run (d, entries)).2.1.drbd.minors =
      ((callOf l descend d entries).settle d.drbd).minors := by
  have hbelow := hspares (passDown l d, entries)
  rw [process_run]
  unfold Call.settle Call.failed callOf Resource.under
  unfold passDown at hbelow ⊢
  cases hdeleted : l.resource.isDeleted <;> cases hdiskless : l.resource.isDiskless
  · simp only [hdeleted, Bool.false_eq_true, if_false] at hbelow ⊢
    generalize descend.run _ = after at hbelow ⊢
    rcases after with ⟨_ | _, _, _⟩
    · exact hbelow
    · exact hbelow
  · rfl
  · simp only [hdeleted, Bool.false_eq_true, if_true, if_false] at hbelow ⊢
    generalize descend.run _ = after at hbelow ⊢
    rcases after with ⟨_ | _, _, _⟩
    · exact hbelow
    · exact congrArg (SortedMap.erase · l.resource.name) hbelow
  · rfl

end Drbd

namespace DrbdState

open Drbd

variable {s : DrbdState} {name : ResourceName} {minor peak : Nat} {call : Call}

theorem Numbered.settle (h : s.Numbered peak) (call : Call) :
    (call.settle s).Numbered (max peak (call.settle s).minors.size) := by
  unfold Call.settle
  split
  · split
    · exact h.mono (Nat.le_max_left ..)
    · exact (h.release _).mono (Nat.le_max_left ..)
  · exact h.allocate _

/-- A call that does not free a resource leaves it the minor that it has. -/
theorem find?_settle (hheld : s.minors.find? name = some minor) (hkept : ¬ call.Frees name) :
    (call.settle s).minors.find? name = some minor := by
  unfold Call.settle
  split
  next hdeleted =>
    cases hfailed : call.failed with
    | true => exact hheld
    | false =>
      have hname : (call.resource.name == name) = false := by
        rw [← Bool.not_eq_true]
        exact fun hname => hkept ⟨hname, hdeleted, hfailed⟩
      exact (find?_release_other hname).trans hheld
  next =>
    cases hname : call.resource.name == name with
    | false => rw [find?_allocate hname, hheld]
    | true =>
      rw [find?_allocate_same hname, hheld]
      rfl

/-- A live resource has a minor after it was called, however the call ended. -/
theorem contains_settle (hlive : call.resource.isDeleted = false) :
    (call.settle s).minors.contains call.resource.name = true := by
  rw [Call.settle, hlive, if_neg Bool.false_ne_true]
  exact contains_allocate

/-- A call that frees a resource takes its minor. -/
theorem find?_settle_of_frees (h : call.Frees name) :
    (call.settle s).minors.find? name = none := by
  obtain ⟨hname, hdeleted, hfailed⟩ := h
  simp only [Call.settle, hdeleted, hfailed, if_true, Bool.false_eq_true, if_false]
  exact find?_release_same hname

/-- Who gets a minor asked for it while alive, and gets the one that the search finds. -/
theorem eq_freeMinor_of_settle (hnone : s.minors.find? name = none)
    (hgot : (call.settle s).minors.find? name = some minor) :
    (call.resource.name == name) = true ∧ call.resource.isDeleted = false ∧
      minor = freeMinor s.minors.values := by
  unfold Call.settle at hgot
  cases hdeleted : call.resource.isDeleted with
  | true =>
    rw [hdeleted, if_pos rfl] at hgot
    cases hfailed : call.failed <;> rw [hfailed] at hgot
    · cases hname : call.resource.name == name
      · rw [if_neg Bool.false_ne_true, find?_release_other hname, hnone] at hgot
        cases hgot
      · rw [if_neg Bool.false_ne_true, find?_release_same hname] at hgot
        cases hgot
    · rw [if_pos rfl, hnone] at hgot
      cases hgot
  | false =>
    rw [hdeleted, if_neg Bool.false_ne_true] at hgot
    cases hname : call.resource.name == name with
    | false =>
      rw [find?_allocate hname, hnone] at hgot
      cases hgot
    | true =>
      rw [find?_allocate_same hname, hnone] at hgot
      exact ⟨rfl, rfl, (Option.some.inj hgot).symm⟩

end DrbdState

namespace DrbdState.Numbered

theorem of_minors {s s' : DrbdState} {peak : Nat} (h : s.Numbered peak)
    (hsame : s'.minors = s.minors) : s'.Numbered peak :=
  ⟨by rw [hsame]; exact h.apart, by rw [hsame]; exact h.range, by rw [hsame]; exact h.fits⟩

end DrbdState.Numbered

namespace Drbd.Calls

variable {start d d' : Devices} {calls more : List Call} {peak peak' : Nat} {name : ResourceName}
  {minor : Nat}

theorem numbered (h : Calls start calls peak d) (hstart : start.drbd.minors = .empty) :
    d.drbd.Numbered peak := by
  induction h with
  | nothing =>
    rw [hstart]
    refine ⟨fun a _ _ ha => ?_, fun k _ hk => ?_, Nat.le_of_eq (congrArg SortedMap.size hstart)⟩
    · rw [hstart, SortedMap.find?_empty] at ha
      cases ha
    · rw [hstart, SortedMap.find?_empty] at hk
      cases hk
  | @process calls peak d _ l descend entries spares ih =>
    have hsame := process_minors l d entries spares
    have hsettled := ih.settle (callOf l descend d entries)
    rw [← hsame] at hsettled
    exact hsettled.of_minors hsame
  | elsewhere _ same ih => exact ih.of_minors same

/-- A resource keeps its minor until a call frees it. -/
theorem find?_minors (h : Calls d more peak' d') (hheld : d.drbd.minors.find? name = some minor)
    (hkept : ∀ call ∈ more, ¬ call.Frees name) : d'.drbd.minors.find? name = some minor := by
  induction h with
  | nothing => exact hheld
  | @process calls _ d _ l descend entries spares ih =>
    have hbefore := ih fun call hcall => hkept call (List.mem_append_left _ hcall)
    rw [process_minors l d entries spares]
    exact DrbdState.find?_settle hbefore
      (hkept _ (List.mem_append_right _ (List.mem_singleton_self _)))
  | elsewhere _ same ih => rw [same]; exact ih hkept

/-- Only resources that were called hold minors. -/
theorem exists_name (h : Calls start calls peak d) (hstart : start.drbd.minors = .empty)
    (hheld : d.drbd.minors.contains name = true) :
    ∃ call ∈ calls, (call.resource.name == name) = true := by
  induction h with
  | nothing =>
    rw [hstart] at hheld
    cases hheld
  | @process calls _ d _ l descend entries spares ih =>
    rw [process_minors l d entries spares] at hheld
    by_cases hbefore : d.drbd.minors.contains name = true
    · obtain ⟨call, hcall, hname⟩ := ih hbefore
      exact ⟨call, List.mem_append_left _ hcall, hname⟩
    · obtain ⟨minor, hminor⟩ := Option.isSome_iff_exists.1 hheld
      have hnone : d.drbd.minors.find? name = none := by
        simpa [SortedMap.contains] using hbefore
      exact ⟨_, List.mem_append_right _ (List.mem_singleton_self _),
        (DrbdState.eq_freeMinor_of_settle hnone hminor).1⟩
  | elsewhere _ same ih =>
    rw [same] at hheld
    exact ih hheld

/-- No more minors are held at a time than resources were called. -/
theorem peak_le (h : Calls start calls peak d) (hstart : start.drbd.minors = .empty)
    {names : List ResourceName}
    (hnames : ∀ call ∈ calls, ∃ name ∈ names, (call.resource.name == name) = true) :
    peak ≤ names.length := by
  induction h with
  | nothing =>
    rw [hstart]
    exact Nat.zero_le _
  | process before l descend entries spares ih =>
    have hbefore := ih fun call hcall => hnames call (List.mem_append_left _ hcall)
    refine Nat.max_le.2 ⟨hbefore, SortedMap.size_le_of_names fun held hheld => ?_⟩
    obtain ⟨call, hcall, hheld⟩ :=
      (before.process l descend entries spares).exists_name hstart hheld
    obtain ⟨name, hname, hsame⟩ := hnames call hcall
    rw [Name.beq_iff] at hheld hsame
    exact ⟨name, hname, (Name.beq_iff _ _).2 (hsame.symm.trans hheld)⟩
  | elsewhere _ _ ih => exact ih hnames

/-- The layer numbers the resources that it is called for: no two of them hold the same minor, the
minors lie below the most that were held at a time, a resource keeps its minor until a call frees
it, and who gets one gets the smallest that is free, which the search through all minors finds. -/
theorem numbers_resources (hstart : start.drbd.minors = .empty) (h : Calls start calls peak d)
    (names : List ResourceName)
    (hnames : ∀ call ∈ calls, ∃ name ∈ names, (call.resource.name == name) = true)
    (hfew : names.length < UInt32.size - DrbdState.firstMinor) :
    (∀ a b minor, d.drbd.minors.find? a = some minor → d.drbd.minors.find? b = some minor →
      (a == b) = true) ∧
    (∀ name minor, d.drbd.minors.find? name = some minor →
      DrbdState.firstMinor ≤ minor ∧ minor < DrbdState.firstMinor + peak) ∧
    (∀ name minor more peak' d', d.drbd.minors.find? name = some minor →
      Calls d more peak' d' → (∀ call ∈ more, ¬ call.Frees name) →
        d'.drbd.minors.find? name = some minor) ∧
    ∀ l descend entries, Spares descend →
      let call := callOf l descend d entries
      let after := ((Drbd.process l descend).run (d, entries)).2.1
      (l.resource.isDeleted = false → after.drbd.minors.contains l.resource.name = true) ∧
      (∀ name, call.Frees name → after.drbd.minors.find? name = none) ∧
      ∀ name minor, d.drbd.minors.find? name = none → after.drbd.minors.find? name = some minor →
        (l.resource.name == name) = true ∧ l.resource.isDeleted = false ∧
        DrbdState.SmallestFree d.drbd.minors.values minor ∧
        DrbdState.allMinors.find? (· ∉ d.drbd.minors.values) = some minor := by
  have hnumbered := h.numbered hstart
  refine ⟨hnumbered.apart, hnumbered.range, fun name minor more peak' d' hheld hmore hkept =>
    hmore.find?_minors hheld hkept, fun l descend entries hspares => ?_⟩
  have hsettle := process_minors l d entries hspares
  refine ⟨fun hlive => ?_, fun name hfrees => ?_, fun name minor hnone hgot => ?_⟩
  · rw [hsettle]
    exact DrbdState.contains_settle hlive
  · rw [hsettle]
    exact DrbdState.find?_settle_of_frees hfrees
  · rw [hsettle] at hgot
    obtain ⟨hname, hlive, rfl⟩ := DrbdState.eq_freeMinor_of_settle hnone hgot
    obtain ⟨hsmallest, hbound⟩ := DrbdState.freeMinor_spec d.drbd.minors.values
    have hheld : d.drbd.minors.values.length ≤ names.length := by
      rw [SortedMap.values, List.length_map]
      exact Nat.le_trans hnumbered.fits (h.peak_le hstart hnames)
    exact ⟨hname, hlive, hsmallest, DrbdState.find?_allMinors hsmallest (by omega)⟩

end Drbd.Calls

namespace Sample

/-- A call for a resource that has only storage below. -/
def visit (d : Devices) (l : LayerResource) : Devices :=
  ((Drbd.process l (l.resource.work [.storage])).run (d, [])).2.1

/-- `journal` finds no space, `mirror` needs none, and `MAIL` ends. -/
def visits : List LayerResource :=
  [stored ⟨"mail", by decide⟩ .none [(0, 60)], stored ⟨"journal", by decide⟩ .none [(0, 60)],
    stored ⟨"mirror", by decide⟩ ResourceFlags.drbdDiskless [],
    stored ⟨"MAIL", by decide⟩ ResourceFlags.delete []]

theorem calls_visits {calls : List Drbd.Call} {peak : Nat} {d : Devices}
    (before : Drbd.Calls vacant calls peak d) (layers : List LayerResource) :
    ∃ more peak', Drbd.Calls vacant (calls ++ more) peak' (layers.foldl visit d) ∧
      more.map (·.resource) = layers.map (·.resource) := by
  induction layers generalizing calls peak d with
  | nil => exact ⟨[], peak, by rwa [List.append_nil], rfl⟩
  | cons l rest ih =>
    obtain ⟨more, peak', hmore, hsame⟩ := ih (before.process l (l.resource.work [.storage]) []
      (.of_work l.resource (by decide)))
    exact ⟨_ :: more, peak', by rwa [List.append_assoc] at hmore, congrArg _ hsame⟩

/-- Comes next. -/
def cache : LayerResource := stored ⟨"cache", by decide⟩ .none [(0, 80)]

end Sample

open Sample in
theorem Drbd.Calls.numbers_resources_visits :
    let d := visits.foldl visit vacant
    d.drbd.minors.entries.map (fun e => (e.1.display, e.2)) =
        [("journal", 1001), ("mirror", 1002)] ∧
      (visit d cache).drbd.minors.find? cache.resource.name = some 1000 ∧
      DrbdState.SmallestFree d.drbd.minors.values 1000 ∧
      DrbdState.allMinors.find? (· ∉ d.drbd.minors.values) = some 1000 := by
  intro d
  obtain ⟨calls, peak, hcalls, hsame⟩ := calls_visits .nothing visits
  have hgot : (visit d cache).drbd.minors.find? cache.resource.name = some 1000 := by
    decide +kernel
  obtain ⟨-, -, -, hnext⟩ := hcalls.numbers_resources rfl (visits.map (·.resource.name))
    (fun call hcall => ⟨call.resource.name, by
      have hmem : call.resource ∈ visits.map (·.resource) := hsame ▸ List.mem_map_of_mem hcall
      obtain ⟨l, hl, he⟩ := List.mem_map.1 hmem
      exact List.mem_map.2 ⟨l, hl, congrArg _ he⟩, Name.beq_self _⟩) (by decide)
  obtain ⟨-, -, hsmallest⟩ := hnext cache (cache.resource.work [.storage]) []
    (.of_work cache.resource (by decide))
  obtain ⟨-, -, hfree, hfound⟩ := hsmallest _ _ (by decide +kernel) hgot
  exact ⟨by decide +kernel, hgot, hfree, hfound⟩

end StorageCluster

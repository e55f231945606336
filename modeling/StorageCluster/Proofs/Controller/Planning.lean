import Mathlib.Data.List.Induction
import StorageCluster.Proofs.Controller.Tracking

/-!
# Planning a cycle

A cycle first manages all definitions, each of them once. What happens to one of them depends on
nothing that is done for those before it, and stays as it is while those after it are managed.
-/
namespace StorageCluster

namespace Tracking

variable {t t' : Tracking} {name : ResourceName}

/-- The definitions that are newly noted to have no connected diskful replica. -/
def newlyNoted (before after : Tracking) : List ResourceName :=
  after.needsDiskful.keys.filter fun name => !before.lacksDiskful name

theorem lacksDiskful_congr {other : ResourceName} (h : compare name other = .eq) (t : Tracking) :
    t.lacksDiskful name = t.lacksDiskful other :=
  SortedMap.contains_congr h _

theorem lacksDiskful_of_mem (h : name ∈ t.needsDiskful.keys) : t.lacksDiskful name = true := by
  obtain ⟨e, he, rfl⟩ := List.mem_map.1 h
  have hfind : t.needsDiskful.find? e.1 = some e.2 := SortedMap.find?_of_mem he
  exact SortedMap.contains_of_find? hfind

theorem newlyNoted_self (t : Tracking) : t.newlyNoted t = [] := by
  refine List.filter_eq_nil_iff.2 fun name hname => ?_
  simp [lacksDiskful_of_mem hname]

theorem length_newlyNoted_insert (h : t'.lacksDiskful name = false)
    (hsame : t'.lacksDiskful name = t.lacksDiskful name) :
    (t.newlyNoted ⟨t'.needsReconciliation, t'.needsDiskful.insert name ()⟩).length =
      (t.newlyNoted t').length + 1 := by
  have hkeys : (t'.needsDiskful.insert name ()).keys.Perm (name :: t'.needsDiskful.keys) :=
    (SortedMap.entries_insert_perm () h).map Prod.fst
  have hnew : (!t.lacksDiskful name) = true := by rw [← hsame, h]; rfl
  have hperm := hkeys.filter fun name => !t.lacksDiskful name
  rw [List.filter_cons_of_pos (p := fun name => !t.lacksDiskful name) hnew] at hperm
  exact hperm.length_eq

/-- A name that is not noted any more was noted before, if it was noted at all. -/
theorem newlyNoted_erase (hsame : t'.lacksDiskful name = t.lacksDiskful name)
    {after : Tracking} (ha : after.needsDiskful = t'.needsDiskful.erase name) :
    t.newlyNoted after = t.newlyNoted t' := by
  have hkeys : (t'.needsDiskful.erase name).keys =
      t'.needsDiskful.keys.filter fun key => compare name key != .eq := by
    simp only [SortedMap.keys, SortedMap.erase, List.filter_map, Function.comp_def]
  rw [newlyNoted, newlyNoted, ha, hkeys, List.filter_filter]
  refine List.filter_congr fun key hkey => ?_
  by_cases hname : compare name key = .eq
  · have hold : t.lacksDiskful key = true := by
      rw [← lacksDiskful_congr hname, ← hsame, lacksDiskful_congr hname]
      exact lacksDiskful_of_mem hkey
    simp [hold]
  · simp [hname]

end Tracking

namespace Controller

variable {σ : Type} {team : Collaborators σ} {c c' : Controller σ} {name other : ResourceName}
  {names : List ResourceName}

namespace QueueStep

theorem elsewhere (h : QueueStep c name c') (hother : compare other name ≠ .eq) :
    c'.tracking.isTracked other = c.tracking.isTracked other ∧
      c'.tracking.lacksDiskful other = c.tracking.lacksDiskful other := by
  have herase : (c.tracking.needsDiskful.erase name).contains other =
      c.tracking.lacksDiskful other := by
    simp [SortedMap.contains_erase, hother, Tracking.lacksDiskful]
  cases h with
  | kept tracking =>
    rw [tracking]
    exact ⟨rfl, rfl⟩
  | noted _ _ tracking =>
    rw [tracking]
    refine ⟨rfl, ?_⟩
    simp [Tracking.lacksDiskful, SortedMap.contains_insert, hother]
  | eased tracking =>
    rw [tracking]
    exact ⟨rfl, herase⟩
  | released _ tracking =>
    rw [tracking, Tracking.isTracked_release]
    exact ⟨by simp [hother], herase⟩

/-- Managing definitions adds none to the queue. -/
theorem isTracked_of (h : QueueStep c name c') (ht : c'.tracking.isTracked other = true) :
    c.tracking.isTracked other = true := by
  cases h with
  | kept tracking | noted _ _ tracking | eased tracking => rwa [tracking] at ht
  | released _ tracking =>
    rw [tracking, Tracking.isTracked_release, Bool.and_eq_true] at ht
    exact ht.2

theorem nested (h : QueueStep c name c') (hc : c.tracking.Nested) : c'.tracking.Nested := by
  intro other hother
  by_cases hname : compare other name = .eq
  · cases h with
    | kept tracking =>
      rw [tracking] at hother ⊢
      exact hc other hother
    | noted tracked _ tracking =>
      rw [tracking]
      exact (Tracking.isTracked_congr hname _).trans tracked
    | eased tracking | released _ tracking =>
      rw [tracking] at hother
      simp [Tracking.lacksDiskful, Tracking.release, SortedMap.contains_erase, hname] at hother
  · obtain ⟨htracked, hlacks⟩ := h.elsewhere hname
    rw [htracked]
    exact hc other (hlacks ▸ hother)

/-- A definition that leaves the queue is gone or needs nothing. -/
theorem why (h : QueueStep c name c') (ht : c.tracking.isTracked name = true)
    (hgone : c'.tracking.isTracked name = false) :
    c.core.graph.definitions.find? name = none ∨ c.core.Whole name := by
  cases h with
  | released why => exact why
  | kept tracking | noted _ _ tracking | eased tracking =>
    rw [tracking] at hgone
    exact absurd (ht.symm.trans hgone) (by decide)

/-- The counter moves when a definition is newly noted. -/
theorem counted (h : QueueStep c name c') {start : Tracking}
    (hsame : c.tracking.lacksDiskful name = start.lacksDiskful name) :
    c'.metrics.needsDiskful + (start.newlyNoted c.tracking).length =
      c.metrics.needsDiskful + (start.newlyNoted c'.tracking).length := by
  cases h with
  | kept tracking counted => rw [tracking, counted]
  | noted _ new tracking counted =>
    have hlength := Tracking.length_newlyNoted_insert new hsame
    rw [tracking, counted]
    omega
  | eased tracking counted =>
    have hsame := Tracking.newlyNoted_erase hsame (congrArg Tracking.needsDiskful tracking)
    rw [counted, hsame]
  | released _ tracking counted =>
    have hsame := Tracking.newlyNoted_erase hsame (congrArg Tracking.needsDiskful tracking)
    rw [counted, hsame]

end QueueStep

/-- A replacement of the definition was committed when it was managed, which made it `d`, and the
pipeline runs what is left to do. -/
structure Replaces (team : Collaborators σ) (c : Controller σ) (name : ResourceName)
    (p : Pipeline) (d : Definition) : Prop where
  scheduled : (manage team c { name }).outcome = .ok .scheduled
  committed : ∃ (s : Search team (c.diskfulAgain name) name) (store : Store)
    (nodes : List NodeName), (s.creation []).result = .ok (p.tasks, nodes) ∧
      c.core.store.commit (s.creation []).draft.transaction = (store, .ok ()) ∧
      d = (s.creation []).draft.definition ∧ p.eviction = some (name, s.evicted)
  stored : (manage team c { name }).controller.core.graph.definitions.find? name = some d

theorem manage_replaces {p : Pipeline}
    (hp : p ∈ (manage team c { name }).context.pipelines) :
    (∃ d, Replaces team c name p d) ∧ (manage team c { name }).context.pipelines = [p] := by
  have hs : (manage team c { name }).outcome = .ok .scheduled := by
    by_contra hs
    rw [(manage_exit team c { name }).pipelines hs] at hp
    cases hp
  obtain ⟨s, store, tasks, nodes, hresult, hcommit, hcore, hpipelines⟩ := manage_scheduled hs
  have hone : (manage team c { name }).context.pipelines =
      [{ tasks, eviction := some (name, s.evicted) }] := hpipelines
  rw [hone] at hp
  obtain rfl := List.mem_singleton.1 hp
  refine ⟨⟨_, hs, ⟨s, store, nodes, hresult, hcommit, rfl, rfl⟩, ?_⟩, hone⟩
  rw [hcore]
  exact SortedMap.find?_insert_self ..

/-- The controller and the plan once some definitions are managed; a cycle manages all. -/
def planned (team : Collaborators σ) (c : Controller σ) (names : List ResourceName) :
    Controller σ × CyclePlan :=
  names.foldl (manageAll [manage team]) (c, {})

theorem planned_concat (team : Collaborators σ) (c : Controller σ) (names : List ResourceName)
    (name : ResourceName) :
    let before := planned team c names
    let m := manage team before.1 { name }
    let after := planned team c (names ++ [name])
    after.1 = m.controller ∧
      after.2.pipelines = before.2.pipelines ++ m.context.pipelines.map (fun p => (name, p)) ∧
      after.2.report.failures = before.2.report.failures := by
  intro before m after
  have hafter : after = manageAll [manage team] (before.1, before.2) name := by
    simp only [after, before, planned, List.foldl_append, List.foldl_cons, List.foldl_nil]
  rw [hafter]
  exact manageAll_single team before.1 before.2 name

theorem planned_queueStep (team : Collaborators σ) (c : Controller σ)
    (names : List ResourceName) (name : ResourceName) :
    QueueStep (planned team c names).1 name (planned team c (names ++ [name])).1 := by
  rw [(planned_concat team c names name).1]
  exact manage_queueStep team (planned team c names).1 { name }

/-- Planning keeps what managing single definitions keeps. -/
theorem planned_keeps {P : Core → Prop}
    (h : ∀ (c : Controller σ) context, P c.core → P (manage team c context).controller.core)
    (names : List ResourceName) (hc : P c.core) : P (planned team c names).1.core := by
  induction names using List.reverseRecOn with
  | nil => exact hc
  | append_singleton names name ih =>
    rw [(planned_concat team c names name).1]
    exact h _ _ ih

/-! ## What planning does to the queue -/

theorem planned_failures (team : Collaborators σ) (c : Controller σ)
    (names : List ResourceName) : (planned team c names).2.report.failures = 0 := by
  induction names using List.reverseRecOn with
  | nil => rfl
  | append_singleton names name ih => exact (planned_concat team c names name).2.2.trans ih

theorem planned_satellites (team : Collaborators σ) (c : Controller σ)
    (names : List ResourceName) : (planned team c names).1.satellites = c.satellites := by
  induction names using List.reverseRecOn with
  | nil => rfl
  | append_singleton names name ih =>
    rw [(planned_concat team c names name).1]
    exact (manage_frame team _ _).2.trans ih

theorem planned_isTracked_of (ht : (planned team c names).1.tracking.isTracked other = true) :
    c.tracking.isTracked other = true := by
  induction names using List.reverseRecOn with
  | nil => exact ht
  | append_singleton names name ih =>
    exact ih ((planned_queueStep team c names name).isTracked_of ht)

theorem planned_nested (team : Collaborators σ) (names : List ResourceName)
    (hc : c.tracking.Nested) : (planned team c names).1.tracking.Nested := by
  induction names using List.reverseRecOn with
  | nil => exact hc
  | append_singleton names name ih => exact (planned_queueStep team c names name).nested ih

theorem planned_elsewhere (team : Collaborators σ) (c : Controller σ)
    (hname : ∀ other ∈ names, compare name other ≠ .eq) :
    Core.SameFor name c.core (planned team c names).1.core ∧
      (planned team c names).1.tracking.isTracked name = c.tracking.isTracked name ∧
      (planned team c names).1.tracking.lacksDiskful name = c.tracking.lacksDiskful name := by
  induction names using List.reverseRecOn with
  | nil => exact ⟨.refl name c.core, rfl, rfl⟩
  | append_singleton names other ih =>
    obtain ⟨hnames, hother⟩ := List.forall_mem_append.1 hname
    obtain ⟨hsame, htracked, hlacks⟩ := ih hnames
    have hne : compare name other ≠ .eq := hother other List.mem_cons_self
    have hstep := (planned_queueStep team c names other).elsewhere hne
    refine ⟨?_, hstep.1.trans htracked, hstep.2.trans hlacks⟩
    rw [(planned_concat team c names other).1]
    exact hsame.trans (manage_sameFor team _ hne)

/-- In a plan every definition is managed once. -/
theorem apart_concat (h : (names ++ [name]).Pairwise fun a b => compare a b ≠ .eq) :
    (names.Pairwise fun a b => compare a b ≠ .eq) ∧
      ∀ other ∈ names, compare name other ≠ .eq := by
  obtain ⟨hnames, _, hcross⟩ := List.pairwise_append.1 h
  refine ⟨hnames, fun other ho hsame => ?_⟩
  exact hcross other ho name List.mem_cons_self (Std.OrientedCmp.eq_symm hsame)

/-- A definition that leaves the queue while a cycle is planned is gone or needs nothing. -/
theorem planned_why (hapart : names.Pairwise fun a b => compare a b ≠ .eq)
    (ht : c.tracking.isTracked name = true)
    (hgone : (planned team c names).1.tracking.isTracked name = false) :
    c.core.graph.definitions.find? name = none ∨ c.core.Whole name := by
  induction names using List.reverseRecOn with
  | nil => exact absurd (ht.symm.trans hgone) (by decide)
  | append_singleton names other ih =>
    obtain ⟨hnames, hfresh⟩ := apart_concat hapart
    have hstep := planned_queueStep team c names other
    cases hmid : (planned team c names).1.tracking.isTracked name with
    | false => exact ih hnames hmid
    | true =>
      have hname : compare name other = .eq := by
        by_contra hne
        rw [(hstep.elsewhere hne).1, hmid] at hgone
        cases hgone
      rw [Tracking.isTracked_congr hname] at hmid hgone
      obtain ⟨hsame, _⟩ := planned_elsewhere team c hfresh
      have hname' : compare other name = .eq := Std.OrientedCmp.eq_symm hname
      refine (hstep.why hmid hgone).imp (fun hnone => ?_) fun hwhole => ?_
      · rw [SortedMap.find?_congr hname, ← hsame.definition, hnone]
      · exact (hsame.whole hwhole).congr hname'

theorem planned_counted (hapart : names.Pairwise fun a b => compare a b ≠ .eq) :
    (planned team c names).1.metrics.needsDiskful =
      c.metrics.needsDiskful +
        (c.tracking.newlyNoted (planned team c names).1.tracking).length := by
  induction names using List.reverseRecOn with
  | nil =>
    have hnone : c.tracking.newlyNoted (planned team c []).1.tracking = [] :=
      c.tracking.newlyNoted_self
    rw [hnone]
    rfl
  | append_singleton names name ih =>
    obtain ⟨hnames, hfresh⟩ := apart_concat hapart
    obtain ⟨_, _, hlacks⟩ := planned_elsewhere team c hfresh
    have hcounted := (planned_queueStep team c names name).counted hlacks
    have hbefore := ih hnames
    omega

/-- Every pipeline of a plan completes a replacement that was committed. The definition is as it was
committed, and in the queue for its pipeline. -/
theorem planned_replaces (hapart : names.Pairwise fun a b => compare a b ≠ .eq) {p : Pipeline}
    (hp : (name, p) ∈ (planned team c names).2.pipelines) :
    (∃ before after d, names = before ++ name :: after ∧
        Replaces team (planned team c before).1 name p d ∧
        (planned team c names).1.core.graph.definitions.find? name = some d) ∧
      (planned team c names).1.tracking.isTracked name = true ∧
      (planned team c names).1.tracking.lacksDiskful name = false := by
  induction names using List.reverseRecOn with
  | nil => cases hp
  | append_singleton names other ih =>
    obtain ⟨hnames, hfresh⟩ := apart_concat hapart
    obtain ⟨hcontroller, hpipelines, _⟩ := planned_concat team c names other
    rw [hpipelines] at hp
    rcases List.mem_append.1 hp with hold | hnew
    · obtain ⟨⟨before, after, d, hsplit, hreplaces, hstored⟩, htracked, hlacks⟩ := ih hnames hold
      have hne : compare name other ≠ .eq := by
        intro hsame
        refine hfresh name ?_ (Std.OrientedCmp.eq_symm hsame)
        rw [hsplit]
        exact List.mem_append_right _ List.mem_cons_self
      have hstep := (planned_queueStep team c names other).elsewhere hne
      have hsame : Core.SameFor name (planned team c names).1.core
          (planned team c (names ++ [other])).1.core := by
        rw [hcontroller]
        exact manage_sameFor team _ hne
      refine ⟨⟨before, after ++ [other], d, ?_, hreplaces, hsame.definition.trans hstored⟩,
        hstep.1.trans htracked, hstep.2.trans hlacks⟩
      rw [hsplit, List.append_assoc, List.cons_append]
    · obtain ⟨p', hp', hpair⟩ := List.mem_map.1 hnew
      obtain ⟨rfl, rfl⟩ := Prod.ext_iff.1 hpair
      obtain ⟨⟨d, hreplaces⟩, _⟩ := manage_replaces hp'
      obtain ⟨htracking, htracked⟩ := manage_scheduled_tracking hreplaces.scheduled
      refine ⟨⟨names, [], d, rfl, hreplaces, ?_⟩, ?_, ?_⟩
      · rw [hcontroller]
        exact hreplaces.stored
      · rw [hcontroller, htracking]
        exact htracked
      · rw [hcontroller, htracking]
        simp [Tracking.lacksDiskful, SortedMap.contains_erase, Std.ReflCmp.compare_self]

/-- No definition has two pipelines. -/
theorem planned_apart (hapart : names.Pairwise fun a b => compare a b ≠ .eq) :
    (planned team c names).2.pipelines.Pairwise fun a b => compare a.1 b.1 ≠ .eq := by
  induction names using List.reverseRecOn with
  | nil => exact .nil
  | append_singleton names name ih =>
    obtain ⟨hnames, hfresh⟩ := apart_concat hapart
    obtain ⟨_, hpipelines, _⟩ := planned_concat team c names name
    rw [hpipelines, List.pairwise_append]
    refine ⟨ih hnames, ?_, ?_⟩
    · rcases hm : (manage team (planned team c names).1 { name }).context.pipelines with _ | ⟨p, _⟩
      · exact .nil
      · obtain ⟨_, hone⟩ := manage_replaces (hm ▸ List.mem_cons_self)
        rw [← hm, hone]
        exact List.pairwise_singleton _ _
    · intro a ha b hb hsame
      obtain ⟨⟨before, after, _, hsplit, _⟩, _⟩ := planned_replaces hnames (p := a.2) ha
      obtain ⟨p, _, rfl⟩ := List.mem_map.1 hb
      refine hfresh a.1 ?_ (Std.OrientedCmp.eq_symm hsame)
      rw [hsplit]
      exact List.mem_append_right _ List.mem_cons_self

end Controller

end StorageCluster

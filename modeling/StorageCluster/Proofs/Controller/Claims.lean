import StorageCluster.Controller.Primary
import StorageCluster.Proofs.Controller.Operations

/-!
# Claims on the primary role

The node that holds the primary role of a resource is kept as a property of the definition, in
memory and in the store. A request is granted to the holder again, and to another node only while
nobody holds the role; it changes something only when it is the first to be granted.
-/
namespace StorageCluster

/-! ## Who holds the role -/

namespace Graph

/-- The node that holds the primary role of a resource, as it was spelled. -/
def holder? (g : Graph) (name : ResourceName) : Option String :=
  (g.definitions.find? name).bind fun d => d.props.get? Props.primarySetOnKey none

/-- Whoever holds the primary role of a resource goes on holding it. -/
def KeepsHolders (g g' : Graph) : Prop :=
  ∀ name holder, g.holder? name = some holder → g'.holder? name = some holder

variable {g g' g'' : Graph} {name other : ResourceName} {holder : String}

theorem holder?_congr (h : compare name other = .eq) (g : Graph) :
    g.holder? name = g.holder? other := by
  rw [holder?, holder?, SortedMap.find?_congr h]

theorem holder?_of_find? {d : Definition} (h : g.definitions.find? name = some d) :
    g.holder? name = d.props.get? Props.primarySetOnKey none := by
  rw [holder?, h, Option.bind_some]

theorem mem_changes {d : Definition} (h : g.definitions.find? name = some d) :
    Change.ofNew d ∈ g.changes := by
  have hrows : Change.ofNew d ∈ g.definitions.values.flatMap Core.definitionChanges := by
    refine List.mem_flatMap.2 ⟨d, SortedMap.mem_values.2 ⟨name, h⟩, ?_⟩
    simp only [Core.definitionChanges, List.cons_append]
    exact List.mem_cons_self
  simp only [changes, List.mem_append]
  exact .inr (.inr (.inl hrows))

namespace KeepsHolders

theorem of_definitions (h : g'.definitions = g.definitions) : g.KeepsHolders g' := by
  intro name holder hh
  rwa [holder?, h]

theorem refl (g : Graph) : g.KeepsHolders g := .of_definitions rfl

theorem trans (h : g.KeepsHolders g') (h' : g'.KeepsHolders g'') : g.KeepsHolders g'' :=
  fun name holder hh => h' name holder (h name holder hh)

/-- A definition takes its place with the claim of the one that was there, if it had one. -/
theorem insert {e : Definition} (h : ∀ holder, g.holder? name = some holder →
      e.props.get? Props.primarySetOnKey none = some holder) :
    g.KeepsHolders { g with definitions := g.definitions.insert name e } := by
  intro other holder hh
  by_cases hname : compare other name = .eq
  · rw [holder?_congr hname] at hh ⊢
    rw [holder?_of_find? (SortedMap.find?_insert_self ..)]
    exact h holder hh
  · rwa [holder?, SortedMap.find?_insert, if_neg hname]

end KeepsHolders

end Graph

/-! ## What is stored of it -/

namespace Core

variable {c : Core} {name : ResourceName} {holder : String}

/-- The node that holds the primary role is the same in memory and in the column of properties. -/
structure Claimed (c : Core) (name : ResourceName) (holder : String) : Prop where
  known : c.graph.holder? name = some holder
  stored : ∃ rows row props, c.store.rows .definitions = .ok rows ∧
    rows.find? name.value = some row ∧ row.props = .ok props ∧
    props.get? Props.primarySetOnKey none = some holder

/-- What is known of a claim is stored. -/
theorem Backed.claimed (h : c.Backed) (hholder : c.graph.holder? name = some holder) :
    c.Claimed name holder := by
  obtain ⟨d, hd, hget⟩ := Option.bind_eq_some_iff.1 hholder
  obtain ⟨rows, hrows, hrow⟩ := h.holds.row (Graph.mem_changes hd)
  have hkey : Stored.key d = name.value :=
    ((Name.compare_eq_iff _ _).1 (h.storable.definitions.filed name d hd)).symm
  exact ⟨hholder, rows, Stored.row d, d.props, hrows, hkey ▸ hrow,
    d.row_lists.props d.props (by simp), hget⟩

end Core

/-! ## Requests -/

namespace Definition

variable {d : Definition} {node : NodeName} {request : PrimaryRequest}

/-- The definition has a resource on the node, with this uuid. -/
def Bears (d : Definition) (node : NodeName) (uuid : Uuid) : Prop :=
  ∃ r, d.resource? node = some r ∧ r.uuid = uuid

/-- What becomes of a claim. -/
inductive ClaimExit (d : Definition) (node : NodeName) (request : PrimaryRequest) :
    Except Rejection Claim → Prop
  | strange (h : ¬ d.Bears node request.uuid) (rejection : Rejection) :
    ClaimExit d node request (.error rejection)
  | taken {holder : String} (held : d.props.get? Props.primarySetOnKey none = some holder)
    (other : sameIgnoringCase holder node.display = false) (rejection : Rejection) :
    ClaimExit d node request (.error rejection)
  | renewed (bears : d.Bears node request.uuid) {holder : String}
    (held : d.props.get? Props.primarySetOnKey none = some holder)
    (same : sameIgnoringCase holder node.display = true) : ClaimExit d node request (.ok .renewed)
  | fresh (bears : d.Bears node request.uuid)
    (free : d.props.get? Props.primarySetOnKey none = none) : ClaimExit d node request (.ok .fresh)

theorem claimPrimary_exit (d : Definition) (node : NodeName) (request : PrimaryRequest) :
    ClaimExit d node request (d.claimPrimary node request) := by
  unfold claimPrimary
  split
  next hnone =>
    refine .strange ?_ _
    rintro ⟨r, hr, _⟩
    rw [hnone] at hr
    cases hr
  next r hr =>
    split
    next hother =>
      refine .strange ?_ _
      rintro ⟨r', hr', huuid⟩
      rw [hr] at hr'
      cases hr'
      exact hother huuid
    next huuid =>
      have hbears : d.Bears node request.uuid := ⟨r, hr, not_not.1 huuid⟩
      split
      next hfree => exact .fresh hbears hfree
      next holder hheld =>
        split
        next hsame => exact .renewed hbears hheld hsame
        next hother => exact .taken hheld (Bool.eq_false_iff.2 hother) _

end Definition

namespace Controller

variable {σ : Type} {team : Collaborators σ} {c : Controller σ} {who : AccessContext}
  {node : NodeName} {request : PrimaryRequest}

/-- Access is allowed, and the resource on the node has the uuid of the request. -/
structure Entitled (team : Collaborators σ) (c : Controller σ) (who : AccessContext)
    (node : NodeName) (request : PrimaryRequest) : Prop where
  allowed : team.access who .resource request.resource.display .use = true
  deployed : ∃ d, c.core.graph.definitions.find? request.resource = some d ∧
    d.Bears node request.uuid

/-- How a primary request ends: without a grant, with one that is repeated, or with a new one, if
the store takes it. -/
inductive PrimaryExit (team : Collaborators σ) (c : Controller σ) (who : AccessContext)
    (node : NodeName) (request : PrimaryRequest) :
    Controller σ × Except Fault PrimaryResponse → Prop
  | denied (why : ¬ Entitled team c who node request) (fault : Fault) :
    PrimaryExit team c who node request (c, .error fault)
  | strange (why : ¬ Entitled team c who node request) (reason : String) :
    PrimaryExit team c who node request (c, .ok (.rejected reason))
  | taken {holder : String} (held : c.core.graph.holder? request.resource = some holder)
    (other : sameIgnoringCase holder node.display = false) (reason : String) :
    PrimaryExit team c who node request (c, .ok (.rejected reason))
  | renewed (entitled : Entitled team c who node request) {holder : String}
    (held : c.core.graph.holder? request.resource = some holder)
    (same : sameIgnoringCase holder node.display = true) :
    PrimaryExit team c who node request (c, .ok (.granted request.alreadyInitialized))
  | unstored {d : Definition} (found : c.core.graph.definitions.find? request.resource = some d)
    (free : c.core.graph.holder? request.resource = none) {store : Store} {fault : Fault}
    (refused : c.core.store.commit
      [Change.ofColumn d Column.props (d.setPrimary node).props.toColumn] = (store, .error fault)) :
    PrimaryExit team c who node request ({ c with core.store := store }, .error fault)
  | fresh (entitled : Entitled team c who node request) {d : Definition}
    (found : c.core.graph.definitions.find? request.resource = some d)
    (free : c.core.graph.holder? request.resource = none) {store : Store}
    (committed : c.core.store.commit
      [Change.ofColumn d Column.props (d.setPrimary node).props.toColumn] = (store, .ok ())) :
    PrimaryExit team c who node request
      ((push team
        { c with core := { c.core with
            store, graph.definitions :=
              c.core.graph.definitions.insert request.resource (d.setPrimary node) } }
        (d.setPrimary node) allNodes).1, .ok (.granted request.alreadyInitialized))

theorem handlePrimary_exit (team : Collaborators σ) (c : Controller σ) (who : AccessContext)
    (node : NodeName) (request : PrimaryRequest) :
    PrimaryExit team c who node request (c.handlePrimary team who node request) := by
  unfold handlePrimary AccessPolicy.require
  dsimp only
  by_cases hallowed : team.access who .resource request.resource.display .use = true
  · rw [if_pos hallowed]
    dsimp only
    split
    next hnone =>
      refine .strange (fun he => ?_) _
      obtain ⟨d, hd, _⟩ := he.deployed
      rw [hnone] at hd
      cases hd
    next d hd =>
      have hholder := Graph.holder?_of_find? hd
      have hexit := d.claimPrimary_exit node request
      have hentitled (hbears : d.Bears node request.uuid) : Entitled team c who node request :=
        ⟨hallowed, d, hd, hbears⟩
      generalize d.claimPrimary node request = claim at hexit ⊢
      cases hexit with
      | strange hnot rejection =>
        refine .strange (fun he => hnot ?_) _
        obtain ⟨d', hd', hbears⟩ := he.deployed
        rw [hd] at hd'
        exact Option.some.inj hd' ▸ hbears
      | taken hheld hother rejection => exact .taken (hholder.trans hheld) hother _
      | renewed hbears hheld hsame =>
        exact .renewed (hentitled hbears) (hholder.trans hheld) hsame
      | fresh hbears hfree =>
        dsimp only
        rcases hc : c.core.store.commit [Change.ofColumn (d.setPrimary node) Column.props
            (d.setPrimary node).props.toColumn] with ⟨store, fault | _⟩
        · simp only [grantPrimary, Core.persist, hc, Except.map]
          exact .unstored hd (hholder.trans hfree) hc
        · simp only [grantPrimary, Core.persist, hc, Except.map]
          exact .fresh (hentitled hbears) hd (hholder.trans hfree) hc
  · rw [if_neg hallowed]
    exact .denied (fun he => hallowed he.allowed) _

/-- A claim is stored only where there is none. -/
theorem handlePrimary_keeps_holders (team : Collaborators σ) (c : Controller σ)
    (who : AccessContext) (node : NodeName) (request : PrimaryRequest) :
    c.core.graph.KeepsHolders (c.handlePrimary team who node request).1.core.graph := by
  have hexit := handlePrimary_exit team c who node request
  generalize c.handlePrimary team who node request = x at hexit ⊢
  cases hexit with
  | denied | strange | taken | renewed | unstored => exact .refl _
  | fresh _ _ free =>
    refine .insert fun holder hh => ?_
    rw [free] at hh
    cases hh

/-! ## Grants -/

def IsGrant (answer : Except Fault PrimaryResponse) : Prop := ∃ skip, answer = .ok (.granted skip)

@[simp] theorem isGrant_granted (skip : Bool) : IsGrant (.ok (.granted skip)) := ⟨skip, rfl⟩

@[simp] theorem not_isGrant_rejected (reason : String) : ¬ IsGrant (.ok (.rejected reason)) := nofun

@[simp] theorem not_isGrant_error (fault : Fault) : ¬ IsGrant (.error fault) := nofun

/-- A request is granted when the role is the node's own already, or when it is free and the store
takes the claim. -/
theorem isGrant_iff (hb : c.core.Backed) :
    IsGrant (c.handlePrimary team who node request).2 ↔
      Entitled team c who node request ∧
        (c.core.graph.holder? request.resource = none ∧ c.core.store.outage = 0 ∨
          ∃ holder, c.core.graph.holder? request.resource = some holder ∧
            sameIgnoringCase holder node.display = true) := by
  have hcommit {d : Definition} (hd : c.core.graph.definitions.find? request.resource = some d) :
      (∃ s', c.core.store.commit
        [Change.ofColumn d Column.props (d.setPrimary node).props.toColumn] = (s', .ok ())) ↔
        c.core.store.outage = 0 :=
    hb.holds.commit_column_iff (Graph.mem_changes hd) (by decide) _
  have hexit := handlePrimary_exit team c who node request
  generalize c.handlePrimary team who node request = x at hexit ⊢
  cases hexit with
  | denied why | strange why => simp [why]
  | taken held other => simp [held, other]
  | renewed entitled held same => simp [entitled, held, same]
  | unstored found free refused =>
    have hdown : c.core.store.outage ≠ 0 := by
      intro hup
      obtain ⟨store, hstored⟩ := (hcommit found).2 hup
      rw [refused] at hstored
      cases hstored
    simp [free, hdown]
  | fresh entitled found free committed =>
    have hup : c.core.store.outage = 0 := (hcommit found).1 ⟨_, committed⟩
    simp [entitled, free, hup]

/-- Once the role is given, requests change nothing, and only the holder's own are granted. -/
theorem handlePrimary_of_holder {holder : String}
    (hh : c.core.graph.holder? request.resource = some holder) :
    (c.handlePrimary team who node request).1 = c ∧
      (IsGrant (c.handlePrimary team who node request).2 →
        sameIgnoringCase holder node.display = true) := by
  have hexit := handlePrimary_exit team c who node request
  generalize c.handlePrimary team who node request = x at hexit ⊢
  cases hexit with
  | denied | strange | taken => simp
  | renewed _ held same =>
    rw [hh] at held
    exact ⟨rfl, fun _ => Option.some.inj held ▸ same⟩
  | unstored _ free | fresh _ _ free =>
    rw [hh] at free
    cases free

/-- A request that is not the first to be granted leaves the graph, the tables and the satellites
alone. -/
theorem handlePrimary_untouched
    (h : ¬ (IsGrant (c.handlePrimary team who node request).2 ∧
      c.core.graph.holder? request.resource = none)) :
    c.core.Untouched (c.handlePrimary team who node request).1.core ∧
      (c.handlePrimary team who node request).1 =
        { c with core := (c.handlePrimary team who node request).1.core } := by
  have hexit := handlePrimary_exit team c who node request
  generalize c.handlePrimary team who node request = x at hexit h ⊢
  cases hexit with
  | denied | strange | taken | renewed => exact ⟨.refl _, rfl⟩
  | unstored _ _ refused => exact ⟨⟨rfl, rfl, Store.engine_of_refused refused⟩, rfl⟩
  | fresh _ _ free => exact absurd ⟨isGrant_granted _, free⟩ h

/-- The first grant stores the claim as the node is spelled and pushes the definition once. -/
theorem handlePrimary_first
    (hgrant : IsGrant (c.handlePrimary team who node request).2)
    (hfree : c.core.graph.holder? request.resource = none) :
    let after := (c.handlePrimary team who node request).1
    ∃ d, after.core.graph.definitions.find? request.resource = some d ∧
      d.props.get? Props.primarySetOnKey none = some node.display ∧
      after.satellites = (team.push c.satellites after.core d allNodes).satellites := by
  have hexit := handlePrimary_exit team c who node request
  generalize c.handlePrimary team who node request = x at hexit hgrant ⊢
  cases hexit with
  | denied | strange | taken | unstored => simp at hgrant
  | renewed _ held =>
    rw [held] at hfree
    cases hfree
  | @fresh _ d =>
    refine ⟨d.setPrimary node, SortedMap.find?_insert_self .., ?_, rfl⟩
    exact SortedMap.find?_insert_self ..

/-- Whoever is granted the role holds it then. -/
theorem holder?_of_isGrant (h : IsGrant (c.handlePrimary team who node request).2) :
    ∃ holder, (c.handlePrimary team who node request).1.core.graph.holder? request.resource =
        some holder ∧ sameIgnoringCase holder node.display = true := by
  cases hheld : c.core.graph.holder? request.resource with
  | none =>
    obtain ⟨d, hd, hset, _⟩ := handlePrimary_first h hheld
    exact ⟨node.display, (Graph.holder?_of_find? hd).trans hset, beq_self_eq_true _⟩
  | some holder =>
    obtain ⟨hkept, hown⟩ := handlePrimary_of_holder hheld
    refine ⟨holder, ?_, hown h⟩
    rw [hkept]
    exact hheld

end Controller

end StorageCluster

import StorageCluster.Proofs.Controller.Deficit

/-!
# What a policy has no say in

The request for replacements comes with a list of resources to stay away from and with layers of its
own, and these win over the policy of the group. The list names the definition alone, whose nodes
are excluded anyway, so the list of the policy is lost; its pattern is obeyed. The layers win over
those of the definition too: every replacement is made of DRBD over storage.
-/
namespace StorageCluster

namespace Definition

/-- The diskful resources among those that joined a definition. -/
def replacements (before after : Definition) : List Resource :=
  (before.newcomers after).filter fun r => !r.isDiskless

theorem mem_newcomers_of_mem_replacements {before after : Definition} {r : Resource}
    (h : r ∈ before.replacements after) : r ∈ before.newcomers after :=
  (List.mem_filter.1 h).1

end Definition

namespace Controller

variable {σ : Type} {team : Collaborators σ} {engine : PatternEngine} {c : Controller σ}
  {context : ManageContext} {name : ResourceName}

namespace Search

variable {responses : Report} {tasks : List Task} {created : List NodeName}
  {diskful diskless : List Resource} {after : Definition}

/-- What the creator of the core adds in pools are the replacements. -/
theorem replacements_perm (s : Search team c name)
    (h : c.core.Created s.request (s.draft responses) tasks created diskful diskless)
    (ha : after = (c.core.createResources s.request (s.draft responses)).draft.definition) :
    (s.definition.replacements after).Perm diskful := by
  have hfull : diskful.filter (fun r => !r.isDiskless) = diskful := by
    refine List.filter_eq_self.2 fun r hr => ?_
    obtain ⟨_, _, hin⟩ := exists_of_forall₂ h.inPools hr
    simp [hin.isDiskless]
  have hless : diskless.filter (fun r => !r.isDiskless) = [] := by
    refine List.filter_eq_nil_iff.2 fun r hr => ?_
    obtain ⟨_, _, _, hon⟩ := h.onNodes r hr
    simp [hon.isDiskless]
  have hp := (s.newcomers_perm h ha).filter fun r => !r.isDiskless
  rwa [List.filter_append, hfull, hless, List.append_nil] at hp

/-- Every replacement fills one of the pools that were found. -/
theorem fills_of_mem_replacements (hw : c.core.graph.WellFiled) (s : Search team c name)
    (h : c.core.Created s.request (s.draft responses) tasks created diskful diskless)
    (ha : after = (c.core.createResources s.request (s.draft responses)).draft.definition)
    {r : Resource} (hr : r ∈ s.definition.replacements after) :
    ∃ pool ∈ s.pools, compare pool.node r.node = .eq ∧ r.Fills s.definition pool.name := by
  obtain ⟨pool, hp, hin⟩ := exists_of_forall₂ h.inPools ((s.replacements_perm h ha).mem_iff.1 hr)
  exact ⟨pool, hp, s.fills_of_diskfulIn hw hin⟩

theorem replacements_ne_nil (hteam : team.BuiltIn engine) (s : Search team c name)
    (h : c.core.Created s.request (s.draft responses) tasks created diskful diskless)
    (ha : after = (c.core.createResources s.request (s.draft responses)).draft.definition) :
    s.definition.replacements after ≠ [] := by
  have hlength : (s.definition.replacements after).length = s.counts.deficit :=
    calc (s.definition.replacements after).length
      _ = diskful.length := (s.replacements_perm h ha).length_eq
      _ = s.pools.length := h.inPools.length_eq.symm
      _ = s.counts.deficit := (s.pools_suit hteam).1
  intro hnil
  rw [hnil] at hlength
  exact absurd hlength (Nat.ne_of_lt s.lacking)

/-! ## Layers -/

/-- The layers of the request come before those of the policy and of the definition. -/
theorem stackFor_eq (s : Search team c name) (d : Definition) :
    s.request.stackFor d = [.drbd, .storage] := rfl

theorem layerStack_of_mem_newcomers (s : Search team c name)
    (h : c.core.Created s.request (s.draft responses) tasks created diskful diskless)
    (ha : after = (c.core.createResources s.request (s.draft responses)).draft.definition)
    {r : Resource} (hr : r ∈ s.definition.newcomers after) :
    r.layerStack = [.drbd, .storage] := by
  rcases List.mem_append.1 ((s.newcomers_perm h ha).mem_iff.1 hr) with hr | hr
  · obtain ⟨_, _, hin⟩ := exists_of_forall₂ h.inPools hr
    exact hin.layerStack.trans (s.stackFor_eq _)
  · obtain ⟨_, _, _, hon⟩ := h.onNodes r hr
    exact hon.layerStack.trans (s.stackFor_eq _)

end Search

/-- Whatever the layers of a definition and of the policy, what a scheduled replacement adds is made
of DRBD over storage. So the replacements have the layers that are meant for new resources of the
definition if and only if these are DRBD over storage. -/
theorem manage_fixes_layers (hteam : team.BuiltIn engine)
    (h : (manage team c context).outcome = .ok .scheduled) :
    ∃ before after, c.core.graph.definitions.find? context.name = some before ∧
      (manage team c context).controller.core.graph.definitions.find? context.name = some after ∧
      (∀ r ∈ before.newcomers after, r.layerStack = [.drbd, .storage]) ∧
      ((∀ r ∈ before.replacements after, r.layerStack = completeStack before.layerStack) ↔
        completeStack before.layerStack = [.drbd, .storage]) := by
  obtain ⟨s, after, tasks, created, diskful, diskless, ha, hcreated, _, hgraph⟩ :=
    manage_grows hteam.create h
  have hnew (r : Resource) (hr : r ∈ s.definition.newcomers after) :
      r.layerStack = [.drbd, .storage] := s.layerStack_of_mem_newcomers hcreated ha hr
  have hmade (r : Resource) (hr : r ∈ s.definition.replacements after) :
      r.layerStack = [.drbd, .storage] := hnew r (Definition.mem_newcomers_of_mem_replacements hr)
  obtain ⟨r, hr⟩ := List.exists_mem_of_ne_nil _ (s.replacements_ne_nil hteam hcreated ha)
  refine ⟨s.definition, after, s.found, ?_, hnew, ?_, ?_⟩
  · rw [hgraph]
    exact SortedMap.find?_insert_self ..
  · intro hall
    rw [← hall r hr, hmade r hr]
  · intro hstack r hr
    rw [hstack, hmade r hr]

end Controller

/-! A small cluster with definitions of one's choice, whose group places by a policy: `alpha` is
evicted but still connected, and `bravo` has room in a pool. -/
namespace Sample

def replicated (name : ResourceName) (layerStack : List LayerKind) (sizeBytes : UInt64)
    (holders : List NodeName) : Definition :=
  { uuid := default, name, group := dflt, layerStack
    volumes := .ofList [(0, { uuid := default, number := 0, sizeBytes })]
    resources := .ofList (holders.map fun node =>
      (node, { uuid := default, name, node, layerStack })) }

def coreWith (definitions : List Definition) (policy : Filter) : Core :=
  let c : Core := { store := .new .memory }
  let c := [alpha, bravo, charlie].foldl (fun c name => (c.createNode (node name)).1) c
  let c := (c.createPool (.new default pool1 bravo .lvm 16)).1
  let c := (c.createGroup { uuid := default, name := dflt, autoPlace := policy }).1
  let c := definitions.foldl (fun c d => (c.createDefinition d).1) c
  (c.updateNodeFlags alpha NodeFlags.evicted .none).1

theorem replicated_wellFiled (name : ResourceName) (layerStack : List LayerKind)
    (sizeBytes : UInt64) (holders : List NodeName) :
    (replicated name layerStack sizeBytes holders).WellFiled := by
  constructor
  · refine .ofList fun e he => ?_
    obtain rfl := List.mem_singleton.1 he
    exact Std.ReflCmp.compare_self
  · refine .ofList fun e he => ?_
    obtain ⟨node, _, rfl⟩ := List.mem_map.1 he
    exact Std.ReflCmp.compare_self

theorem coreWith_wellFiled {definitions : List Definition} (policy : Filter)
    (hd : ∀ d ∈ definitions, d.WellFiled) : (coreWith definitions policy).graph.WellFiled := by
  have h := foldl_createNode_wellFiled [alpha, bravo, charlie] (c := { store := .new .memory })
    .empty
  have hpool := Core.createPool_wellFiled h (.new default pool1 bravo .lvm 16)
  have hgroup := Core.createGroup_wellFiled hpool
    { uuid := default, name := dflt, autoPlace := policy }
  have hdefinitions := List.foldlRecOn definitions (fun c d => (c.createDefinition d).1)
    (motive := fun c => Graph.WellFiled (Core.graph c)) hgroup
    fun _ hc d hmem => Core.createDefinition_wellFiled hc (hd d hmem)
  exact Core.updateNodeFlags_wellFiled hdefinitions alpha NodeFlags.evicted .none

/-- All definitions wait for reconciliation. -/
def controllerWith (definitions : List Definition) (policy : Filter) : Controller Unit where
  core := coreWith definitions policy
  satellites := ()
  tracking := definitions.foldl (fun t d => t.mark d.name) {}
  events := .ofCapacity 1

/-- The group of `r0` has a policy for layers, to no avail. -/
def layered (layerStack : List LayerKind) : Controller Unit :=
  controllerWith [replicated r0 layerStack 4 [alpha, charlie]]
    { placeCount := some 2, layerStack := [.luks, .storage] }

end Sample

open Sample in
theorem manage_fixes_layers_of_plain :
    let c := layered [.storage, .drbd]
    let m := Controller.manage team c { name := r0 }
    m.outcome = .ok .scheduled ∧
      ∃ before after, c.core.graph.definitions.find? r0 = some before ∧
        m.controller.core.graph.definitions.find? r0 = some after ∧
        (∀ r ∈ before.newcomers after, r.layerStack = [.drbd, .storage]) ∧
        ((∀ r ∈ before.replacements after, r.layerStack = completeStack before.layerStack) ↔
          completeStack before.layerStack = [.drbd, .storage]) := by
  intro c m
  have h : m.outcome = .ok .scheduled := by decide +kernel
  obtain ⟨before, after, hb, ha, hlayers⟩ := Controller.manage_fixes_layers ⟨rfl, rfl⟩ h
  exact ⟨h, before, after, hb, ha, hlayers⟩

open Sample in
/-- The replicas of `r0` are encrypted, the one that replaces a lost one is not. -/
theorem manage_replaces_in_clear :
    let c := layered [.drbd, .luks, .storage]
    let m := Controller.manage team c { name := r0 }
    m.outcome = .ok .scheduled ∧
      ∃ before ∈ c.core.graph.definitions.find? r0,
        ∃ after ∈ m.controller.core.graph.definitions.find? r0,
          LayerKind.luks ∈ before.layerStack ∧ ∃ r ∈ before.replacements after,
            r.layerStack ≠ completeStack before.layerStack ∧ LayerKind.luks ∉ r.layerStack := by
  decide +kernel

/-! ## Resources to stay away from -/

/-- The graph with other lists of resources to stay away from in its groups. -/
def Graph.relisted (g : Graph) (lists : Group → List ResourceName) : Graph :=
  { g with
    groups := g.groups.map fun _ group =>
      { group with autoPlace := { group.autoPlace with avoidResources := lists group } } }

section

variable {σ : Type}

def Controller.relisted (c : Controller σ) (lists : Group → List ResourceName) : Controller σ :=
  { c with core := { c.core with graph := c.core.graph.relisted lists } }

def Replaced.relisted (r : Replaced σ) (lists : Group → List ResourceName) : Replaced σ :=
  { r with controller := r.controller.relisted lists }

def Managed.relisted (m : Managed σ) (lists : Group → List ResourceName) : Managed σ :=
  { m with controller := m.controller.relisted lists }

end

namespace Controller

variable {σ : Type} {team : Collaborators σ} {engine : PatternEngine} {c : Controller σ}
  {context : ManageContext} (lists : Group → List ResourceName)

/-- The search for pools does not look at groups. -/
theorem place_relisted (c : Controller σ) (f : Filter) (d : Definition) (size : UInt64) :
    (c.relisted lists).core.graph.place engine f d size = c.core.graph.place engine f d size :=
  rfl

/-- Definitions are assessed alike, and replacements asked for alike. -/
theorem assess_relisted (team : Collaborators σ) (c : Controller σ) (d : Definition) :
    (∃ fault, assess team c d = .error fault ∧ assess team (c.relisted lists) d = .error fault) ∨
      ∃ counts policy policy', assess team c d = .ok (counts, policy) ∧
        assess team (c.relisted lists) d = .ok (counts, policy') ∧
        ∀ name deficit, replacementFilter name deficit policy' =
          replacementFilter name deficit policy := by
  have hgroups : (c.relisted lists).core.graph.groups.find? d.group =
      (c.core.graph.groups.find? d.group).map fun group =>
        { group with autoPlace := { group.autoPlace with avoidResources := lists group } } :=
    SortedMap.find?_map_values ..
  unfold assess
  rw [hgroups]
  cases requireAccess team d.name .view with
  | error fault => exact .inl ⟨fault, rfl, rfl⟩
  | ok =>
    cases c.core.graph.groups.find? d.group with
    | none => exact .inl ⟨_, rfl, rfl⟩
    | some group => exact .inr ⟨_, _, _, rfl, rfl, fun _ _ => rfl⟩

/-- The creator of the core does not look at groups. -/
theorem createResources_relisted (c : Controller σ) (request : CreationRequest) (draft : Draft) :
    (c.relisted lists).core.createResources request draft = c.core.createResources request draft :=
  rfl

theorem createReplacements_relisted (hteam : team.BuiltIn engine) (c : Controller σ)
    (responses : Report) (name : ResourceName) (filter : Filter) (evicted : List NodeName)
    (pools : List Pool) (working : Definition) (changes : Transaction) :
    createReplacements team (c.relisted lists) responses name filter evicted pools working changes =
      (createReplacements team c responses name filter evicted pools working changes).relisted
        lists := by
  have huuids : (c.relisted lists).uuids = c.uuids := rfl
  have hstore : (c.relisted lists).core.store = c.core.store := rfl
  simp only [createReplacements, hteam.create, createResources_relisted, huuids, Core.persist,
    hstore]
  rcases c.core.createResources _ _ with ⟨draft, fault | ⟨tasks, nodes⟩⟩
  · rfl
  · rcases c.core.store.commit draft.transaction with ⟨store, fault | _⟩
    · rfl
    · rfl

theorem replaceMissing_relisted (hteam : team.BuiltIn engine) (c : Controller σ)
    (responses : Report) (name : ResourceName) (d : Definition) (deficit : Nat)
    {policy policy' : Filter}
    (h : replacementFilter name deficit policy' = replacementFilter name deficit policy) :
    replaceMissing team (c.relisted lists) responses name d deficit policy' =
      (replaceMissing team c responses name d deficit policy).relisted lists := by
  have hnodes : (c.relisted lists).core.graph.nodes = c.core.graph.nodes := rfl
  simp only [replaceMissing, hteam.place, h, hnodes, place_relisted]
  rcases c.core.graph.place _ _ _ _ with fault | _ | pools
  · rfl
  · rfl
  · exact createReplacements_relisted lists hteam (c.note _) ..

theorem placeReplacements_relisted (hteam : team.BuiltIn engine) (c : Controller σ)
    (responses : Report) (name : ResourceName) :
    placeReplacements team (c.relisted lists) responses name =
      (placeReplacements team c responses name).relisted lists := by
  have hdefinitions : (c.relisted lists).core.graph.definitions = c.core.graph.definitions := rfl
  unfold placeReplacements
  rw [hdefinitions]
  cases c.core.graph.definitions.find? name with
  | none => rfl
  | some d =>
    dsimp only
    rcases assess_relisted lists team c d with
      ⟨fault, ha, ha'⟩ | ⟨counts, policy, policy', ha, ha', hf⟩
    · rw [ha, ha']
      rfl
    · rw [ha, ha']
      dsimp only
      split
      · rfl
      · cases requireAccess team name .change with
        | error fault => rfl
        | ok => exact replaceMissing_relisted lists hteam c responses name d counts.deficit (hf ..)

theorem concludeReplacement_relisted (context : ManageContext) (r : Replaced σ) :
    concludeReplacement context (r.relisted lists) =
      (concludeReplacement context r).relisted lists := by
  unfold concludeReplacement Replaced.relisted
  dsimp only
  split <;> rfl

theorem noteNeedsDiskful_relisted (c : Controller σ) (name : ResourceName) :
    (c.relisted lists).noteNeedsDiskful name = (c.noteNeedsDiskful name).relisted lists := by
  have htracking : (c.relisted lists).tracking = c.tracking := rfl
  unfold noteNeedsDiskful
  rw [htracking]
  split <;> rfl

/-- What a reconciliation does is the same for other lists of resources to stay away from. -/
theorem manage_relisted (hteam : team.BuiltIn engine) (c : Controller σ) (context : ManageContext) :
    manage team (c.relisted lists) context = (manage team c context).relisted lists := by
  have htracking : (c.relisted lists).tracking = c.tracking := rfl
  unfold manage
  rw [htracking]
  dsimp only
  split
  · rfl
  · have hmetrics : (c.relisted lists).mapMetrics ReconcileMetrics.recordManage =
        (c.mapMetrics ReconcileMetrics.recordManage).relisted lists := rfl
    rw [hmetrics]
    generalize c.mapMetrics ReconcileMetrics.recordManage = c
    have hdefinitions : (c.relisted lists).core.graph.definitions = c.core.graph.definitions := rfl
    rw [hdefinitions]
    cases c.core.graph.definitions.find? context.name with
    | none => rfl
    | some d =>
      dsimp only
      rcases assess_relisted lists team c d with
        ⟨fault, ha, ha'⟩ | ⟨counts, policy, policy', ha, ha', hf⟩
      · rw [ha, ha']
        rfl
      · rw [ha, ha']
        dsimp only
        split
        · rw [noteNeedsDiskful_relisted]
          rfl
        · split
          · rfl
          · rw [← concludeReplacement_relisted, ← placeReplacements_relisted lists hteam]
            rfl

/-- Replacements lie on no node with a resource of the definition itself or of one whose name
matches the pattern of the policy, however it is read, unless that resource is deleted. The list of
the policy does not matter: with any other lists in the groups the reconciliation does the same. -/
theorem manage_avoids_by_pattern (hteam : team.BuiltIn engine) (hw : c.core.graph.WellFiled)
    (h : (manage team c context).outcome = .ok .scheduled) :
    let g := c.core.graph
    (∃ (before after : Definition) (group : Group) (pattern : Option Pattern),
      g.definitions.find? context.name = some before ∧
        (manage team c context).controller.core.graph.definitions.find? context.name =
          some after ∧
        g.groups.find? before.group = some group ∧ group.autoPlace.pattern engine = .ok pattern ∧
        ∀ other ∈ g.definitions.values,
          { group.autoPlace with avoidResources := [context.name] }.avoids pattern other = true →
            ∀ held ∈ other.resources.values, held.isDeleted = false →
              ∀ r ∈ before.replacements after, compare held.node r.node ≠ .eq) ∧
      ∀ lists, manage team (c.relisted lists) context =
        (manage team c context).relisted lists := by
  intro g
  refine ⟨?_, fun lists => manage_relisted lists hteam c context⟩
  obtain ⟨s, after, tasks, created, diskful, diskless, ha, hcreated, _, hgraph⟩ :=
    manage_grows hteam.create h
  obtain ⟨group, hgroup, _, hpolicy⟩ := assess_ok s.assessed
  have hplaced := s.placed
  rw [hteam.place] at hplaced
  obtain ⟨pattern, hpattern, hexcluded⟩ := Graph.place_not_excluded hplaced
  refine ⟨s.definition, after, group, pattern, s.found, ?_, hgroup, ?_, ?_⟩
  · rw [hgraph]
    exact SortedMap.find?_insert_self ..
  · rw [← hpolicy]
    exact hpattern
  · intro other ho havoids held hheld hlive r hr hsame
    have hw' : (c.diskfulAgain context.name).core.graph.WellFiled := hw
    obtain ⟨pool, hpool, hnode, _⟩ := s.fills_of_mem_replacements hw' hcreated ha hr
    have hapart := Graph.apart_of_not_excluded (hexcluded pool hpool) ho havoids hheld hlive
    exact hapart (Std.TransCmp.eq_trans hnode (Std.OrientedCmp.eq_symm hsame))

end Controller

namespace Sample

def backup : ResourceName := ⟨"backup", by decide⟩

/-- The policy of `r0` is to stay away from `backup`, by its name or by a pattern. -/
def besideBackup (holders : List NodeName) (policy : Filter) : Controller Unit :=
  controllerWith [replicated r0 [.drbd, .storage] 4 [alpha, charlie],
    replicated backup [.storage] 4 holders] { policy with placeCount := some 2 }

theorem besideBackup_wellFiled (holders : List NodeName) (policy : Filter) :
    (besideBackup holders policy).core.graph.WellFiled :=
  coreWith_wellFiled _ (by simp [replicated_wellFiled])

end Sample

open Sample in
theorem manage_avoids_backup_by_pattern :
    let c := besideBackup [charlie] { avoidPattern := some "^back" }
    let m := Controller.manage team c { name := r0 }
    m.outcome = .ok .scheduled ∧
      (∃ (before after : Definition) (group : Group) (pattern : Option Pattern),
        c.core.graph.definitions.find? r0 = some before ∧
          m.controller.core.graph.definitions.find? r0 = some after ∧
          c.core.graph.groups.find? before.group = some group ∧
          group.autoPlace.pattern initials = .ok pattern ∧
          ∀ other ∈ c.core.graph.definitions.values,
            { group.autoPlace with avoidResources := [r0] }.avoids pattern other = true →
              ∀ held ∈ other.resources.values, held.isDeleted = false →
                ∀ r ∈ before.replacements after, compare held.node r.node ≠ .eq) ∧
      ∀ lists, Controller.manage team (c.relisted lists) { name := r0 } = m.relisted lists := by
  intro c m
  have h : m.outcome = .ok .scheduled := by decide +kernel
  have hw : c.core.graph.WellFiled := besideBackup_wellFiled ..
  obtain ⟨hplaces, hlists⟩ := Controller.manage_avoids_by_pattern ⟨rfl, rfl⟩ hw h
  exact ⟨h, hplaces, hlists⟩

open Sample in
/-- The list of the group names `backup`, which lies on `bravo`, and `bravo` gets a replica. -/
theorem manage_disregards_list :
    let c := besideBackup [bravo] { avoidResources := [backup] }
    let m := Controller.manage team c { name := r0 }
    m.outcome = .ok .scheduled ∧
      ∃ before ∈ c.core.graph.definitions.find? r0,
        ∃ after ∈ m.controller.core.graph.definitions.find? r0,
          ∃ group ∈ c.core.graph.groups.find? before.group,
            ∃ other ∈ c.core.graph.definitions.values,
              group.autoPlace.avoidResources.contains other.name = true ∧
                ∃ held ∈ other.resources.values, held.isDeleted = false ∧
                  ∃ r ∈ before.replacements after, compare held.node r.node = .eq := by
  decide +kernel

end StorageCluster

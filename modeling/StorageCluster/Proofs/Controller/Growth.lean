import Mathlib.Data.List.Forall2
import StorageCluster.Controller.Creation
import StorageCluster.Proofs.Name
import StorageCluster.Proofs.WellFiled

/-!
# How a definition grows

A creation that succeeds adds resources to the definition of its draft, each on a node without one:
a diskful resource for each pool, and diskless ones if asked for. The resources that were there stay
as they are.
-/
namespace StorageCluster

/-- Resources join a definition one by one, each on a node that has none. -/
inductive Definition.Grows : Definition → List Resource → Definition → Prop
  | done (d : Definition) : Grows d [] d
  | join {d grown : Definition} {r : Resource} {news : List Resource}
    (free : d.resources.contains r.node = false)
    (next : Grows { d with resources := d.resources.insert r.node r } news grown) :
    Grows d (r :: news) grown

namespace Definition.Grows

variable {d grown : Definition} {news : List Resource}

theorem trans {further : Definition} {more : List Resource} (h : Grows d news grown)
    (h' : Grows grown more further) : Grows d (news ++ more) further := by
  induction h with
  | done => exact h'
  | join free _ ih => exact .join free (ih h')

theorem frame (h : Grows d news grown) : grown = { d with resources := grown.resources } := by
  induction h with
  | done => rfl
  | join _ _ ih => exact ih

/-- What a node holds is not touched. -/
theorem resource?_of_contains (h : Grows d news grown) {node : NodeName}
    (hn : d.resources.contains node = true) : grown.resource? node = d.resource? node := by
  induction h with
  | done => rfl
  | @join d _ r _ free _ ih =>
    have hc : compare node r.node ≠ .eq := by
      intro he
      rw [SortedMap.contains_congr he, free] at hn
      cases hn
    rw [ih (by simp [SortedMap.contains_insert, hn])]
    simp only [resource?, SortedMap.find?_insert, hc, if_false]

theorem entries_perm (h : Grows d news grown) :
    grown.resources.entries.Perm (news.map (fun r => (r.node, r)) ++ d.resources.entries) := by
  induction h with
  | done => exact .refl _
  | @join d _ r news free _ ih =>
    have hp := SortedMap.entries_insert_perm r free
    exact ih.trans ((hp.append_left _).trans List.perm_middle)

theorem values_perm (h : Grows d news grown) :
    grown.resources.values.Perm (news ++ d.resources.values) := by
  have hp := h.entries_perm.map Prod.snd
  simpa [SortedMap.values, Function.comp_def] using hp

/-- A node has a resource afterwards if it had one or got one. -/
theorem contains_iff (h : Grows d news grown) {node : NodeName} :
    grown.resources.contains node = true ↔
      d.resources.contains node = true ∨ ∃ r ∈ news, (r.node == node) = true := by
  induction h with
  | done => simp
  | @join d _ r _ free _ ih =>
    have hinsert : (d.resources.insert r.node r).contains node = true ↔
        (r.node == node) = true ∨ d.resources.contains node = true := by
      rw [SortedMap.contains_insert, Bool.or_eq_true, beq_iff_eq, Name.compare_eq_iff,
        Name.beq_iff, eq_comm]
    rw [ih, hinsert, List.exists_mem_cons_iff, or_assoc, or_left_comm]

theorem contains (h : Grows d news grown) {node : NodeName}
    (hn : d.resources.contains node = true) : grown.resources.contains node = true :=
  h.contains_iff.2 (.inl hn)

/-- The new resources lie on different nodes. -/
theorem apart (h : Grows d news grown) :
    news.Pairwise fun a b => compare a.node b.node ≠ .eq := by
  have hk : (grown.resources.entries.map Prod.fst).Pairwise fun a b => compare a b ≠ .eq :=
    grown.resources.keys_pairwise
  have hp := (SortedMap.apart_perm id (h.entries_perm.map Prod.fst)).1 hk
  rw [List.map_append] at hp
  simpa [List.pairwise_map] using (List.pairwise_append.1 hp).1

/-- The new resources lie on nodes that held none. -/
theorem free (h : Grows d news grown) {r : Resource} (hr : r ∈ news) :
    d.resources.contains r.node = false := by
  induction h with
  | done => cases hr
  | @join d _ s _ free _ ih =>
    rcases List.mem_cons.1 hr with rfl | hr
    · exact free
    · have hi := ih hr
      rw [SortedMap.contains_insert, Bool.or_eq_false_iff] at hi
      exact hi.2

theorem wellFiled (h : Grows d news grown) (hd : d.WellFiled) : grown.WellFiled := by
  induction h with
  | done => exact hd
  | join _ _ ih => exact ih ⟨hd.volumes, hd.resources.insert Std.ReflCmp.compare_self⟩

end Definition.Grows

/-- The volumes of a resource lie in one pool, one for each volume definition and of its size. -/
def Resource.Fills (r : Resource) (d : Definition) (pool : PoolName) : Prop :=
  ∀ number, (r.volumes.find? number).map (fun v => (v.number, v.pool, v.sizeBytes)) =
    (d.volumes.find? number).map fun v => (v.number, pool, v.sizeBytes)

/-- A diskful resource as it is created in a pool. -/
structure Definition.DiskfulIn (d : Definition) (stack : List LayerKind) (nodes : NodeMap)
    (pool : Pool) (r : Resource) : Prop where
  host : ∃ n, nodes.find? pool.node = some n ∧ n.isEvicted = false ∧ r.node = n.name
  name : r.name = d.name
  flags : r.flags = .none
  layerStack : r.layerStack = stack
  volumes : d.volumes.Filed (·.number) → r.Fills d pool.name

/-- A diskless resource as it is created on a node. -/
structure Definition.DisklessOn (d : Definition) (stack : List LayerKind) (n : Node)
    (r : Resource) : Prop where
  host : n.isConnected = true ∧ n.isEvicted = false ∧ r.node = n.name
  name : r.name = d.name
  flags : r.flags = ResourceFlags.drbdDiskless
  layerStack : r.layerStack = stack
  volumes : r.volumes = .empty

theorem Definition.DiskfulIn.isDiskless {d : Definition} {stack : List LayerKind} {nodes : NodeMap}
    {pool : Pool} {r : Resource} (h : d.DiskfulIn stack nodes pool r) : r.isDiskless = false := by
  rw [Resource.isDiskless, h.flags]
  decide

theorem Definition.DisklessOn.isDiskless {d : Definition} {stack : List LayerKind} {n : Node}
    {r : Resource} (h : d.DisklessOn stack n r) : r.isDiskless = true := by
  rw [Resource.isDiskless, h.flags]
  decide

/-- What is said of a new resource. -/
def Resource.announcement (r : Resource) : String :=
  if r.isDiskless then Draft.disklessMessage r.name r.node else Draft.diskfulMessage r.name r.node

def ResponseContext.announce (context : ResponseContext) (r : Resource) : Entry :=
  context.success Code.created r.announcement

/-- Resources join the definition of a draft, its transaction is to store them, and its entries
announce them. -/
structure Draft.Takes (d : Draft) (context : ResponseContext) (news : List Resource)
    (after : Draft) : Prop where
  grows : d.definition.Grows news after.definition
  stores : after.transaction = d.transaction ++ news.flatMap Resource.changes
  reports : after.responses = d.responses ++ news.map context.announce

namespace Draft

variable {d : Draft} {context : ResponseContext} {stack : List LayerKind} {nodes : NodeMap}

theorem Takes.nothing (d : Draft) (context : ResponseContext) : d.Takes context [] d :=
  ⟨.done _, by simp, by simp⟩

theorem Takes.trans {mid after : Draft} {news more : List Resource} (h : d.Takes context news mid)
    (h' : mid.Takes context more after) : d.Takes context (news ++ more) after :=
  ⟨h.grows.trans h'.grows, by rw [h'.stores, h.stores, List.flatMap_append, List.append_assoc],
    by rw [h'.reports, h.reports, List.map_append, List.append_assoc]⟩

theorem Takes.of_drawn {drawn after : Draft} {news : List Resource} {uuids : Uuid.Supply}
    (h : drawn.Takes context news after) (hd : drawn = { d with uuids }) :
    d.Takes context news after := by
  subst hd
  exact ⟨h.grows, h.stores, h.reports⟩

theorem deploy_ok {r : Resource} (h : (d.deploy context r r.announcement).2 = .ok ()) :
    d.Takes context [r] (d.deploy context r r.announcement).1 := by
  unfold deploy at h ⊢
  dsimp only at h ⊢
  split at h
  · cases h
  next added hadded =>
    obtain ⟨_, hfree, rfl⟩ := Definition.addResource_ok_iff.1 hadded
    exact ⟨.join hfree (.done _), by simp, rfl⟩

/-- Adding volumes draws identifiers and touches nothing else of the draft. -/
theorem foldl_addVolume_frame (pool : PoolName) (vs : List VolumeDefinition)
    (state : Draft × Resource) :
    let after := vs.foldl (addVolume pool) state
    after.1 = { state.1 with uuids := after.1.uuids } ∧
      after.2 = { state.2 with volumes := after.2.volumes } := by
  induction vs generalizing state with
  | nil => exact ⟨rfl, rfl⟩
  | cons v rest ih =>
    obtain ⟨hd, hr⟩ := ih (addVolume pool state v)
    exact ⟨hd.trans rfl, hr.trans rfl⟩

theorem foldl_addVolume_find? (pool : PoolName) (entries : List (UInt32 × VolumeDefinition))
    (hrise : Rising entries) (hown : ∀ e ∈ entries, compare e.1 e.2.number = .eq)
    (state : Draft × Resource) (number : UInt32) :
    ((((entries.map Prod.snd).foldl (addVolume pool) state).2.volumes.find? number).map
        fun v => (v.number, v.pool, v.sizeBytes)) =
      match SortedMap.lookup number entries with
      | some v => some (v.number, pool, v.sizeBytes)
      | none => (state.2.volumes.find? number).map fun v => (v.number, v.pool, v.sizeBytes) := by
  induction entries generalizing state with
  | nil => rfl
  | cons head rest ih =>
    obtain ⟨k, v⟩ := head
    obtain ⟨_, hr⟩ := List.pairwise_cons.1 hrise
    have hv : compare k v.number = .eq := hown (k, v) List.mem_cons_self
    rw [List.map_cons, List.foldl_cons,
      ih hr (fun e he => hown e (List.mem_cons_of_mem _ he)) (addVolume pool state v)]
    by_cases hk : compare number k = .eq
    · have hn : compare number v.number = .eq := Std.TransCmp.eq_trans hk hv
      simp [SortedMap.lookup, hk, SortedMap.lookup_rest hrise hk, addVolume,
        SortedMap.find?_insert, hn]
    · have hn : compare number v.number ≠ .eq := fun he =>
        hk (Std.TransCmp.eq_trans he (Std.OrientedCmp.eq_symm hv))
      simp [SortedMap.lookup, hk, addVolume, SortedMap.find?_insert, hn]

/-- The resource that a pool gets, and the draft once its identifiers are drawn. -/
def filled (d : Draft) (stack : List LayerKind) (node : NodeName) (pool : PoolName) :
    Draft × Resource :=
  d.definition.volumes.values.foldl (addVolume pool) (d.newResource node stack)

theorem filled_frame (d : Draft) (stack : List LayerKind) (node : NodeName) (pool : PoolName) :
    (d.filled stack node pool).1 = { d with uuids := (d.filled stack node pool).1.uuids } :=
  (foldl_addVolume_frame pool d.definition.volumes.values (d.newResource node stack)).1

theorem filled_diskfulIn {n : Node} {pool : Pool} (hn : nodes.find? pool.node = some n)
    (he : n.isEvicted = false) :
    d.definition.DiskfulIn stack nodes pool (d.filled stack n.name pool.name).2 := by
  have h : (d.filled stack n.name pool.name).2 =
      { (d.newResource n.name stack).2 with
        volumes := (d.filled stack n.name pool.name).2.volumes } :=
    (foldl_addVolume_frame pool.name d.definition.volumes.values (d.newResource n.name stack)).2
  have hv (hd : d.definition.volumes.Filed (·.number)) :
      (d.filled stack n.name pool.name).2.Fills d.definition pool.name := by
    intro number
    have hf := foldl_addVolume_find? pool.name d.definition.volumes.entries
      d.definition.volumes.rising (fun e he => hd.of_mem he) (d.newResource n.name stack) number
    have hl : d.definition.volumes.find? number =
        SortedMap.lookup number d.definition.volumes.entries := rfl
    rw [hl]
    refine hf.trans ?_
    cases SortedMap.lookup number d.definition.volumes.entries <;> rfl
  exact ⟨⟨n, hn, he, by rw [h]; rfl⟩, by rw [h]; rfl, by rw [h]; rfl, by rw [h]; rfl, hv⟩

theorem deploy_map_ok {r : Resource} {message : String} {after : Draft} {place node : NodeName}
    {result : Except Fault Unit} (hdeploy : d.deploy context r message = (after, result))
    (hmessage : message = r.announcement) (h : (result.map fun _ => place) = .ok node) :
    place = node ∧ d.Takes context [r] after := by
  subst hmessage
  cases result with
  | error fault => cases h
  | ok =>
    have ht := deploy_ok (congrArg Prod.snd hdeploy)
    rw [hdeploy] at ht
    cases h
    exact ⟨rfl, ht⟩

theorem addDiskful_ok {pool : Pool} {node : NodeName}
    (h : (d.addDiskful context stack nodes pool).2 = .ok node) :
    ∃ r, d.definition.DiskfulIn stack nodes pool r ∧ node = r.node ∧
      d.Takes context [r] (d.addDiskful context stack nodes pool).1 := by
  cases hn : nodes.find? pool.node with
  | none => simp [addDiskful, hn] at h
  | some n =>
    cases he : n.isEvicted with
    | true => simp [addDiskful, hn, he] at h
    | false =>
      have hin : d.definition.DiskfulIn stack nodes pool (d.filled stack n.name pool.name).2 :=
        filled_diskfulIn hn he
      have hdrawn := filled_frame d stack n.name pool.name
      rcases hf : d.filled stack n.name pool.name with ⟨drawn, r⟩
      rw [hf] at hin hdrawn
      rcases hd : drawn.deploy context r (diskfulMessage drawn.definition.name n.name) with
        ⟨after, result⟩
      have ha : d.addDiskful context stack nodes pool = (after, result.map fun _ => n.name) := by
        unfold filled at hf
        simp only [addDiskful, hn, he, hf, hd]
        rfl
      rw [ha] at h ⊢
      obtain ⟨host, hh, _, hnode⟩ := hin.host
      rw [hn] at hh
      cases hh
      have hmessage : diskfulMessage drawn.definition.name n.name = r.announcement := by
        have hsame : drawn.definition = d.definition := (congrArg Draft.definition hdrawn :)
        rw [Resource.announcement, if_neg (by rw [hin.isDiskless]; exact Bool.false_ne_true),
          hin.name, hnode, hsame]
      obtain ⟨rfl, ht⟩ := deploy_map_ok hd hmessage h
      exact ⟨r, hin, hnode.symm, ht.of_drawn hdrawn⟩

theorem addDiskless_ok {n : Node} {node : NodeName} (hw : d.wantsDiskless n = true)
    (h : (d.addDiskless context stack n).2 = .ok node) :
    ∃ r, d.definition.DisklessOn stack n r ∧ node = r.node ∧
      d.Takes context [r] (d.addDiskless context stack n).1 := by
  rcases hb : d.newResource n.name stack with ⟨drawn, blank⟩
  have hdrawn : drawn = { d with uuids := d.uuids.take.2 } := congrArg Prod.fst hb.symm
  have hblank : blank = { uuid := d.uuids.take.1, name := d.definition.name, node := n.name
                          layerStack := stack } := congrArg Prod.snd hb.symm
  obtain ⟨r, hr⟩ : ∃ r, r = { blank with
      flags := blank.flags.union ResourceFlags.drbdDiskless } := ⟨_, rfl⟩
  have hon : d.definition.DisklessOn stack n r := by
    simp only [wantsDiskless, Bool.and_eq_true, Bool.not_eq_true'] at hw
    have hflags : Flags.union .none ResourceFlags.drbdDiskless = ResourceFlags.drbdDiskless := by
      decide
    subst hblank hr
    exact ⟨⟨hw.1.2, hw.2, rfl⟩, rfl, hflags, rfl, rfl⟩
  rcases hd : drawn.deploy context r (disklessMessage drawn.definition.name n.name) with
    ⟨after, result⟩
  have ha : d.addDiskless context stack n = (after, result.map fun _ => n.name) := by
    simp only [addDiskless, hb, ← hr, hd]
  rw [ha] at h ⊢
  have hmessage : disklessMessage drawn.definition.name n.name = r.announcement := by
    rw [Resource.announcement, if_pos hon.isDiskless, hon.name, hon.host.2.2, hdrawn]
  obtain ⟨rfl, ht⟩ := deploy_map_ok hd hmessage h
  exact ⟨r, hon, hon.host.2.2.symm, ht.of_drawn hdrawn⟩

/-- What holds of a resource that is created does not depend on those created before it. -/
theorem diskfulIn_of_grows {before grown : Definition} {news : List Resource} {pool : Pool}
    {r : Resource} (hg : before.Grows news grown) (h : grown.DiskfulIn stack nodes pool r) :
    before.DiskfulIn stack nodes pool r := by
  rw [hg.frame] at h
  exact ⟨h.host, h.name, h.flags, h.layerStack, h.volumes⟩

theorem disklessOn_of_grows {before grown : Definition} {news : List Resource} {n : Node}
    {r : Resource} (hg : before.Grows news grown) (h : grown.DisklessOn stack n r) :
    before.DisklessOn stack n r := by
  rw [hg.frame] at h
  exact ⟨h.host, h.name, h.flags, h.layerStack, h.volumes⟩

/-- A creation in several pools comes through if it does in the first and then in the others. -/
theorem addAllDiskful_cons_ok {pool : Pool} {rest : List Pool} {created : List NodeName}
    (h : (addAllDiskful context stack nodes d (pool :: rest)).2 = .ok created) :
    ∃ mid node names, d.addDiskful context stack nodes pool = (mid, .ok node) ∧
      (addAllDiskful context stack nodes mid rest).2 = .ok names ∧ created = node :: names ∧
      (addAllDiskful context stack nodes d (pool :: rest)).1 =
        (addAllDiskful context stack nodes mid rest).1 := by
  rcases ha : d.addDiskful context stack nodes pool with ⟨mid, fault | node⟩
  · simp [addAllDiskful, ha] at h
  · rcases hx : addAllDiskful context stack nodes mid rest with ⟨last, fault | names⟩
    · simp [addAllDiskful, ha, hx, Except.map] at h
    · simp only [addAllDiskful, ha, hx, Except.map] at h ⊢
      cases h
      exact ⟨mid, node, names, rfl, by rw [hx], rfl, by rw [hx]⟩

theorem addAllDiskful_ok {pools : List Pool} {created : List NodeName}
    (h : (addAllDiskful context stack nodes d pools).2 = .ok created) :
    ∃ news, pools.Forall₂ (d.definition.DiskfulIn stack nodes) news ∧
      created = news.map (·.node) ∧
      d.Takes context news (addAllDiskful context stack nodes d pools).1 := by
  induction pools generalizing d created with
  | nil =>
    cases h
    exact ⟨[], .nil, rfl, .nothing d context⟩
  | cons pool rest ih =>
    obtain ⟨mid, node, names, ha, hrest, rfl, hsame⟩ := addAllDiskful_cons_ok h
    obtain ⟨r, hr, hnode, ht⟩ := addDiskful_ok (congrArg Prod.snd ha)
    obtain ⟨news, hn, hc, ht'⟩ := ih hrest
    rw [ha] at ht
    rw [hsame]
    refine ⟨r :: news, .cons hr (hn.imp fun _ _ => diskfulIn_of_grows ht.grows), ?_, ht.trans ht'⟩
    rw [hnode, hc, List.map_cons]

theorem addAllDiskless_skip {n : Node} (hw : d.wantsDiskless n = false) (rest : List Node) :
    addAllDiskless context stack d (n :: rest) = addAllDiskless context stack d rest := by
  simp [addAllDiskless, hw]

theorem addAllDiskless_cons_ok {n : Node} {rest : List Node} {created : List NodeName}
    (hw : d.wantsDiskless n = true)
    (h : (addAllDiskless context stack d (n :: rest)).2 = .ok created) :
    ∃ mid node names, d.addDiskless context stack n = (mid, .ok node) ∧
      (addAllDiskless context stack mid rest).2 = .ok names ∧ created = node :: names ∧
      (addAllDiskless context stack d (n :: rest)).1 =
        (addAllDiskless context stack mid rest).1 := by
  rcases ha : d.addDiskless context stack n with ⟨mid, fault | node⟩
  · simp [addAllDiskless, hw, ha] at h
  · rcases hx : addAllDiskless context stack mid rest with ⟨last, fault | names⟩
    · simp [addAllDiskless, hw, ha, hx, Except.map] at h
    · simp only [addAllDiskless, hw, ha, hx, if_true, Except.map] at h ⊢
      cases h
      exact ⟨mid, node, names, rfl, by rw [hx], rfl, by rw [hx]⟩

theorem addAllDiskless_ok {ns : List Node} {created : List NodeName}
    (h : (addAllDiskless context stack d ns).2 = .ok created) :
    ∃ news, (∀ r ∈ news, ∃ n ∈ ns, d.definition.DisklessOn stack n r) ∧
      created = news.map (·.node) ∧
      d.Takes context news (addAllDiskless context stack d ns).1 ∧
      ∀ n ∈ ns, n.isConnected = true → n.isEvicted = false →
        (addAllDiskless context stack d ns).1.definition.resources.contains n.name = true := by
  induction ns generalizing d created with
  | nil =>
    cases h
    exact ⟨[], by simp, rfl, .nothing d context, by simp⟩
  | cons n rest ih =>
    cases hw : d.wantsDiskless n with
    | false =>
      rw [addAllDiskless_skip hw] at h ⊢
      obtain ⟨news, hn, hc, ht, hall⟩ := ih h
      refine ⟨news, fun r hr => ?_, hc, ht, fun m hm hconnected hevicted => ?_⟩
      · obtain ⟨m, hm, hon⟩ := hn r hr
        exact ⟨m, List.mem_cons_of_mem n hm, hon⟩
      · rcases List.mem_cons.1 hm with rfl | hm
        · -- it was passed over because it has a resource
          rw [wantsDiskless, hconnected, hevicted] at hw
          exact ht.grows.contains (by simpa using hw)
        · exact hall m hm hconnected hevicted
    | true =>
      obtain ⟨mid, node, names, ha, hrest, rfl, hsame⟩ := addAllDiskless_cons_ok hw h
      obtain ⟨r, hr, hnode, ht⟩ := addDiskless_ok hw (congrArg Prod.snd ha)
      obtain ⟨news, hn, hc, ht', hall⟩ := ih hrest
      rw [ha] at ht
      rw [hsame]
      refine ⟨r :: news, fun s hs => ?_, by rw [hnode, hc, List.map_cons], ht.trans ht',
        fun m hm hconnected hevicted => ?_⟩
      · rcases List.mem_cons.1 hs with rfl | hs
        · exact ⟨n, List.mem_cons_self, hr⟩
        · obtain ⟨m, hm, hon⟩ := hn s hs
          exact ⟨m, List.mem_cons_of_mem n hm, disklessOn_of_grows ht.grows hon⟩
      · rcases List.mem_cons.1 hm with rfl | hm
        · exact ht'.grows.contains (ht.grows.contains_iff.2
            (.inr ⟨r, List.mem_singleton_self r, by rw [hr.host.2.2, Name.beq_self]⟩))
        · exact hall m hm hconnected hevicted

end Draft

/-- The layers of new resources. -/
def CreationRequest.stackFor (request : CreationRequest) (d : Definition) : List LayerKind :=
  completeStack (if request.layerStack.isEmpty then d.layerStack else request.layerStack)

/-- The nodes that are looked at for diskless resources. -/
def CreationRequest.remaining (request : CreationRequest) (nodes : NodeMap) : List Node :=
  if request.disklessOnRemaining then nodes.values else []

/-- What a creation that comes through adds to the definition of its draft. -/
structure Core.Created (c : Core) (request : CreationRequest) (d : Draft) (tasks : List Task)
    (created : List NodeName) (diskful diskless : List Resource) : Prop where
  grows : d.definition.Grows (diskful ++ diskless) (c.createResources request d).draft.definition
  inPools : request.pools.Forall₂
    (d.definition.DiskfulIn (request.stackFor d.definition) c.graph.nodes) diskful
  onNodes : ∀ r ∈ diskless, request.disklessOnRemaining = true ∧
    ∃ n ∈ c.graph.nodes.values, d.definition.DisklessOn (request.stackFor d.definition) n r
  nodes : created = (diskful ++ diskless).map (·.node)
  activation : tasks = [.activate (c.createResources request d).draft.definition created]
  stores : (c.createResources request d).draft.transaction =
    d.transaction ++ (diskful ++ diskless).flatMap Resource.changes
  reports : (c.createResources request d).draft.responses =
    d.responses ++ (diskful ++ diskless).map request.context.announce
  covers : request.disklessOnRemaining = true → ∀ n ∈ c.graph.nodes.values,
    n.isConnected = true → n.isEvicted = false →
      (c.createResources request d).draft.definition.resources.contains n.name = true

theorem exists_of_forall₂ {α β : Type} {related : α → β → Prop} {xs : List α} {ys : List β}
    (h : xs.Forall₂ related ys) {y : β} (hy : y ∈ ys) : ∃ x ∈ xs, related x y := by
  induction h with
  | nil => cases hy
  | @cons x z xs _ hxz _ ih =>
    rcases List.mem_cons.1 hy with rfl | hy
    · exact ⟨x, List.mem_cons_self, hxz⟩
    · obtain ⟨w, hw, hr⟩ := ih hy
      exact ⟨w, List.mem_cons_of_mem x hw, hr⟩

/-- A creation comes through if it does in all pools and then on the remaining nodes. -/
theorem Core.createResources_eq_ok {c : Core} {request : CreationRequest} {d : Draft}
    {tasks : List Task} {created : List NodeName}
    (h : (c.createResources request d).result = .ok (tasks, created)) :
    ∃ mid last diskful diskless,
      Draft.addAllDiskful request.context (request.stackFor d.definition) c.graph.nodes d
        request.pools = (mid, .ok diskful) ∧
      Draft.addAllDiskless request.context (request.stackFor d.definition) mid
        (request.remaining c.graph.nodes) = (last, .ok diskless) ∧
      created = diskful ++ diskless ∧ tasks = [.activate last.definition created] ∧
      (c.createResources request d).draft = last := by
  rcases hf : Draft.addAllDiskful request.context (request.stackFor d.definition) c.graph.nodes d
    request.pools with ⟨mid, fault | diskful⟩
  · unfold CreationRequest.stackFor at hf
    simp only [Core.createResources, hf] at h
    cases h
  · rcases hl : Draft.addAllDiskless request.context (request.stackFor d.definition) mid
      (request.remaining c.graph.nodes) with ⟨last, fault | diskless⟩
    · unfold CreationRequest.stackFor at hf
      unfold CreationRequest.stackFor CreationRequest.remaining at hl
      simp only [Core.createResources, hf, hl] at h
      cases h
    · refine ⟨mid, last, diskful, diskless, rfl, hl, ?_⟩
      unfold CreationRequest.stackFor at hf
      unfold CreationRequest.stackFor CreationRequest.remaining at hl
      simp only [Core.createResources, hf, hl] at h ⊢
      cases h
      exact ⟨rfl, rfl, trivial⟩

theorem Core.createResources_ok {c : Core} {request : CreationRequest} {d : Draft}
    {tasks : List Task} {created : List NodeName}
    (h : (c.createResources request d).result = .ok (tasks, created)) :
    ∃ diskful diskless, c.Created request d tasks created diskful diskless := by
  obtain ⟨mid, last, names, more, hf, hl, rfl, rfl, hlast⟩ := createResources_eq_ok h
  obtain ⟨diskful, hin, hnames, ht⟩ := Draft.addAllDiskful_ok (congrArg Prod.snd hf)
  obtain ⟨diskless, hon, hmore, ht', hcovers⟩ := Draft.addAllDiskless_ok (congrArg Prod.snd hl)
  rw [hf] at ht
  rw [hl] at ht' hcovers
  have htakes : d.Takes request.context (diskful ++ diskless) last := ht.trans ht'
  rw [← hlast] at htakes hcovers ⊢
  refine ⟨diskful, diskless, htakes.grows, hin, fun r hr => ?_, ?_, rfl, htakes.stores,
    htakes.reports, fun hw n hn => ?_⟩
  · obtain ⟨n, hn, hrn⟩ := hon r hr
    have hw : request.disklessOnRemaining = true := by
      by_contra hw
      simp [CreationRequest.remaining, hw] at hn
    simp only [CreationRequest.remaining, hw, if_true] at hn
    exact ⟨hw, n, hn, Draft.disklessOn_of_grows ht.grows hrn⟩
  · rw [hnames, hmore, List.map_append]
  · exact hcovers n (by rwa [CreationRequest.remaining, if_pos hw])

end StorageCluster

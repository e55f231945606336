import StorageCluster.Proofs.Format
import StorageCluster.Proofs.Store.Image
import StorageCluster.Store.Load

/-!
# Rows are read back

Every entity is restored from the row it is stored in: each column holds a text that is read as what
it was written from. Keys and columns hold no slash, so rows can be kept on either engine. Setting a
column of a row gives the row of the changed entity.
-/
namespace StorageCluster

/-- Flags without unknown bits. -/
def Flags.IsKnown {kind : FlagKind} (f : Flags kind) : Prop := f.bits &&& (~~~ kind.knownBits) = 0

instance {kind : FlagKind} (f : Flags kind) : Decidable f.IsKnown :=
  inferInstanceAs (Decidable (f.bits &&& (~~~ kind.knownBits) = 0))

/-- A row lists these texts by column. -/
structure Row.Lists (row : Row) (cells : List (String × String)) : Prop where
  row_eq : row = .ofList cells
  columns : (cells.map (·.1)).Nodup
  parts : ∀ column ∈ cells.map (·.1), IsPart column

namespace Row.Lists

variable {row : Row} {cells : List (String × String)} {column : String}

theorem of (names : List String) (hrow : row = .ofList cells) (hnames : cells.map (·.1) = names)
    (h : names.Nodup ∧ ∀ column ∈ names, IsPart column) : row.Lists cells :=
  ⟨hrow, hnames ▸ h.1, hnames ▸ h.2⟩

theorem text (h : row.Lists cells) {text : String} (hm : (column, text) ∈ cells) :
    row.text column = .ok text := by
  rw [Row.text, h.row_eq, (SortedMap.find?_ofList_iff h.columns).2 hm]

theorem name (h : row.Lists cells) {kind : NameKind} (name : Name kind)
    (hm : (column, name.display) ∈ cells) : row.name kind column = .ok name := by
  rw [Row.name, h.text hm]
  simp [bind, Except.bind, Name.parse, Name.ofText_display, Except.mapError]

theorem uuid (h : row.Lists cells) (id : Uuid) (hm : (Column.uuid, id.toText) ∈ cells) :
    row.uuid = .ok id := by
  rw [Row.uuid, h.text hm]
  simp [bind, Except.bind, Uuid.ofText?_toText]

theorem uint64 (h : row.Lists cells) (n : UInt64)
    (hm : (column, Numeral.write n.toNat) ∈ cells) : row.uint64 column = .ok n := by
  rw [Row.uint64, numberBelow, h.text hm]
  simp [bind, Except.bind, Numeral.readDecimal_write n.toNat_lt, Except.mapError]

theorem uint32 (h : row.Lists cells) (n : UInt32)
    (hm : (column, Numeral.write n.toNat) ∈ cells) : row.uint32 column = .ok n := by
  rw [Row.uint32, numberBelow, h.text hm]
  simp [bind, Except.bind, Numeral.readDecimal_write n.toNat_lt, Except.mapError]

theorem json (h : row.Lists cells) {α : Type} {encode : α → Json} {decode : Json → Option α} {a : α}
    (ha : Json.Recovers encode decode a) (hm : (column, (encode a).render) ∈ cells) :
    row.json decode column = .ok a := by
  rw [Row.json, h.text hm]
  simp [bind, Except.bind, ha.read?]

theorem props (h : row.Lists cells) (p : Props) (hm : (Column.props, p.toColumn) ∈ cells) :
    row.props = .ok p :=
  h.json p.recovers hm

theorem stack (h : row.Lists cells) (stack : List LayerKind)
    (hm : (Column.layerStack, stackColumn stack) ∈ cells) :
    row.json LayerKind.stackOfJson? Column.layerStack = .ok stack :=
  h.json (LayerKind.recovers_stack stack) hm

theorem flags (h : row.Lists cells) {kind : FlagKind} {f : Flags kind} (hf : f.IsKnown)
    (owner : String) (hm : (Column.flags, f.toColumn) ∈ cells) :
    row.flags kind owner = .ok f := by
  rw [Row.flags, h.uint64 _ hm]
  simp [bind, Except.bind, Flags.ofKnownBits?, show f.bits &&& (~~~ kind.knownBits) = 0 from hf]

theorem flat (h : row.Lists cells) (hne : cells ≠ []) : row.Flat := by
  have hp : row.entries.Perm cells := by
    rw [h.row_eq]
    refine SortedMap.entries_ofList_perm ((List.pairwise_map.1 h.columns).imp ?_)
    exact fun hne he => hne (Std.compare_eq_iff_eq.1 he)
  refine ⟨fun column hc => h.parts column ((hp.map Prod.fst).mem_iff.1 hc), fun he => hne ?_⟩
  rw [he] at hp
  exact hp.nil_eq.symm

end Row.Lists

/-! ## Nodes, groups, definitions and pools -/

/-- A node that can be read back from its row. -/
structure Node.Storable (n : Node) : Prop where
  flags : n.flags.IsKnown
  interfaces : n.interfaces.Spelled (·.name)
  addresses : ∀ i ∈ n.interfaces.values, i.address.IsReadBack

theorem Node.row_lists (n : Node) : (Stored.row n).Lists
    [(Column.uuid, n.uuid.toText), (Column.nodeName, n.name.display),
      (Column.flags, n.flags.toColumn), (Column.props, n.props.toColumn),
      (Column.interfaces, (Json.listOf Interface.toJson n.interfaces.values).render)] :=
  .of [Column.uuid, Column.nodeName, Column.flags, Column.props, Column.interfaces] rfl rfl
    (by decide)

theorem Group.row_lists (r : Group) : (Stored.row r).Lists
    ([(Column.uuid, r.uuid.toText), (Column.groupName, r.name.display),
      (Column.props, r.props.toColumn), (Column.autoPlace, r.autoPlace.toJson.render)] ++
      r.description.toList.map fun text => (Column.description, text)) := by
  obtain ⟨uuid, name, description, props, autoPlace⟩ := r
  cases description with
  | none =>
    exact .of [Column.uuid, Column.groupName, Column.props, Column.autoPlace] rfl rfl (by decide)
  | some text =>
    exact .of [Column.uuid, Column.groupName, Column.props, Column.autoPlace, Column.description]
      rfl rfl (by decide)

theorem Definition.row_lists (d : Definition) : (Stored.row d).Lists
    [(Column.uuid, d.uuid.toText), (Column.resourceName, d.name.display),
      (Column.groupName, d.group.display), (Column.flags, d.flags.toColumn),
      (Column.props, d.props.toColumn), (Column.layerStack, stackColumn d.layerStack)] :=
  .of [Column.uuid, Column.resourceName, Column.groupName, Column.flags, Column.props,
    Column.layerStack] rfl rfl (by decide)

theorem NamedVolumeDefinition.row_lists (v : NamedVolumeDefinition) : (Stored.row v).Lists
    [(Column.uuid, v.volume.uuid.toText), (Column.resourceName, v.resource.display),
      (Column.volumeNumber, Numeral.write v.volume.number.toNat),
      (Column.volumeSize, Numeral.write v.volume.sizeBytes.toNat),
      (Column.props, v.volume.props.toColumn)] :=
  .of [Column.uuid, Column.resourceName, Column.volumeNumber, Column.volumeSize, Column.props] rfl
    rfl (by decide)

theorem Pool.row_lists (p : Pool) : (Stored.row p).Lists
    [(Column.uuid, p.uuid.toText), (Column.nodeName, p.node.display),
      (Column.poolName, p.name.display), (Column.provider, p.provider.toJson.render),
      (Column.freeCapacity, Numeral.write p.freeBytes.toNat),
      (Column.totalCapacity, Numeral.write p.totalBytes.toNat),
      (Column.props, p.props.toColumn)] :=
  .of [Column.uuid, Column.nodeName, Column.poolName, Column.provider, Column.freeCapacity,
    Column.totalCapacity, Column.props] rfl rfl (by decide)

theorem Resource.row_lists (r : Resource) : (Stored.row r).Lists
    [(Column.uuid, r.uuid.toText), (Column.nodeName, r.node.display),
      (Column.resourceName, r.name.display), (Column.flags, r.flags.toColumn),
      (Column.layerStack, stackColumn r.layerStack), (Column.props, r.props.toColumn)] :=
  .of [Column.uuid, Column.nodeName, Column.resourceName, Column.flags, Column.layerStack,
    Column.props] rfl rfl (by decide)

theorem DeployedVolume.row_lists (v : DeployedVolume) : (Stored.row v).Lists
    [(Column.uuid, v.volume.uuid.toText), (Column.nodeName, v.resource.node.display),
      (Column.resourceName, v.resource.name.display),
      (Column.volumeNumber, Numeral.write v.volume.number.toNat),
      (Column.poolName, v.volume.pool.display),
      (Column.volumeSize, Numeral.write v.volume.sizeBytes.toNat),
      (Column.props, v.volume.props.toColumn)] :=
  .of [Column.uuid, Column.nodeName, Column.resourceName, Column.volumeNumber, Column.poolName,
    Column.volumeSize, Column.props] rfl rfl (by decide)

theorem Snapshot.row_lists (s : Snapshot) : (Stored.row s).Lists
    [(Column.uuid, s.uuid.toText), (Column.nodeName, s.node.display),
      (Column.resourceName, s.resource.display), (Column.snapshotName, s.name.display),
      (Column.flags, s.flags.toColumn), (Column.layerStack, stackColumn s.layerStack)] :=
  .of [Column.uuid, Column.nodeName, Column.resourceName, Column.snapshotName, Column.flags,
    Column.layerStack] rfl rfl (by decide)

theorem Connection.row_lists (c : Connection) : (Stored.row c).Lists
    [(Column.uuid, c.uuid.toText), (Column.sourceNode, c.source.display),
      (Column.targetNode, c.target.display), (Column.props, c.props.toColumn)] :=
  .of [Column.uuid, Column.sourceNode, Column.targetNode, Column.props] rfl rfl (by decide)

namespace Graph

variable (g : Graph)

theorem loadNode_row {n : Node} (h : n.Storable) :
    g.loadNode (Stored.row n) = .ok (g.setNode { n with status := .offline }) := by
  have hrow := n.row_lists
  have hinterfaces : Json.Recovers (Json.listOf Interface.toJson) (Json.list? Interface.ofJson?)
      n.interfaces.values :=
    Json.recovers_listOf fun i hi => Interface.recovers (h.addresses i hi)
  rw [loadNode, hrow.name n.name (by simp), hrow.flags h.flags "node" (by simp),
    hrow.json hinterfaces (by simp), hrow.uuid n.uuid (by simp),
    hrow.props n.props (by simp)]
  simp [bind, Except.bind, pure, Except.pure, h.interfaces.ofList (.refl _)]

theorem find?_description (r : Group) :
    (Stored.row r : Row).find? Column.description = r.description := by
  refine Option.ext fun text => ?_
  rw [r.row_lists.row_eq, SortedMap.find?_ofList_iff r.row_lists.columns]
  simp [Column.description, Column.uuid, Column.groupName, Column.props, Column.autoPlace]

theorem loadGroup_row (r : Group) : g.loadGroup (Stored.row r) = .ok (g.setGroup r) := by
  have hrow := r.row_lists
  rw [loadGroup, hrow.name r.name (by simp), hrow.json r.autoPlace.recovers (by simp),
    hrow.uuid r.uuid (by simp), hrow.props r.props (by simp), find?_description]
  rfl

/-- A definition before anything that belongs to it is loaded. -/
def bare (d : Definition) : Definition :=
  { d with volumes := .empty, resources := .empty, snapshots := .empty }

theorem loadDefinition_row {d : Definition} (h : d.flags.IsKnown)
    (hgroup : g.groups.contains d.group = true) :
    g.loadDefinition (Stored.row d) = .ok (g.setDefinition (bare d)) := by
  have hrow := d.row_lists
  rw [loadDefinition, hrow.name d.name (by simp), hrow.name d.group (by simp),
    hrow.flags h "resource definition" (by simp), hrow.stack d.layerStack (by simp),
    hrow.uuid d.uuid (by simp), hrow.props d.props (by simp)]
  simp [bind, Except.bind, pure, Except.pure, hgroup, bare]

theorem definition_of_find? {name : ResourceName} {d : Definition}
    (h : g.definitions.find? name = some d) : g.definition name = .ok d := by
  rw [definition, h]

theorem node_of_contains {name : NodeName} (h : g.nodes.contains name = true) :
    ∃ n, g.node name = .ok n := by
  obtain ⟨n, hn⟩ := Option.isSome_iff_exists.1 h
  exact ⟨n, by rw [node, hn]⟩

theorem loadVolumeDefinition_row (v : NamedVolumeDefinition) {d : Definition}
    (hd : g.definitions.find? v.resource = some d) :
    g.loadVolumeDefinition (Stored.row v) = .ok (g.setDefinition (d.addVolume v.volume)) := by
  have hrow := v.row_lists
  rw [loadVolumeDefinition, hrow.name v.resource (by simp),
    hrow.uint32 v.volume.number (by simp), hrow.uint64 v.volume.sizeBytes (by simp),
    hrow.uuid v.volume.uuid (by simp), hrow.props v.volume.props (by simp)]
  simp [bind, Except.bind, pure, Except.pure, g.definition_of_find? hd]

theorem loadPool_row (p : Pool) (hnode : g.nodes.contains p.node = true) :
    g.loadPool (Stored.row p) = .ok (g.setPool p) := by
  obtain ⟨n, hn⟩ := g.node_of_contains hnode
  have hrow := p.row_lists
  rw [loadPool, hrow.name p.node (by simp), hrow.name p.name (by simp),
    hrow.json p.provider.recovers (by simp), hrow.uint64 p.totalBytes (by simp),
    hrow.uuid p.uuid (by simp), hrow.uint64 p.freeBytes (by simp),
    hrow.props p.props (by simp)]
  simp [bind, Except.bind, pure, Except.pure, hn]

theorem loadResource_row {r : Resource} {d : Definition} (h : r.flags.IsKnown)
    (hnode : g.nodes.contains r.node = true) (hd : g.definitions.find? r.name = some d)
    (hname : compare r.name d.name = .eq) (hfree : d.resources.contains r.node = false) :
    g.loadResource (Stored.row r) = .ok (g.setDefinition
      { d with resources := d.resources.insert r.node { r with volumes := .empty } }) := by
  obtain ⟨n, hn⟩ := g.node_of_contains hnode
  have hbeq : (r.name == d.name) = true := (Name.beq_iff _ _).2 ((Name.compare_eq_iff _ _).1 hname)
  have hrow := r.row_lists
  rw [loadResource, hrow.name r.node (by simp), hrow.name r.name (by simp),
    hrow.stack r.layerStack (by simp), hrow.uuid r.uuid (by simp),
    hrow.flags h "resource" (by simp), hrow.props r.props (by simp)]
  simp [bind, Except.bind, pure, Except.pure, hn, g.definition_of_find? hd, Definition.addResource,
    bne, hbeq, hfree, Except.mapError]

/-- A volume of a resource that is there is read back just if its pool is known. -/
theorem loadVolume_row_iff (v : DeployedVolume) {d : Definition}
    (hd : g.definitions.find? v.resource.name = some d)
    (hr : d.resources.contains v.resource.node = true) (loaded : Graph) :
    g.loadVolume (Stored.row v) = .ok loaded ↔
      g.pools.contains (v.resource.node, v.volume.pool) = true ∧
        loaded = g.setDefinition (d.modifyResource v.resource.node fun r =>
          { r with volumes := r.volumes.insert v.volume.number v.volume }) := by
  have hrow := v.row_lists
  rw [loadVolume, hrow.name v.resource.node (by simp),
    hrow.name v.resource.name (by simp), hrow.name v.volume.pool (by simp),
    hrow.uint32 v.volume.number (by simp), hrow.uint64 v.volume.sizeBytes (by simp),
    hrow.uuid v.volume.uuid (by simp), hrow.props v.volume.props (by simp)]
  cases hp : g.pools.contains (v.resource.node, v.volume.pool) with
  | false => simp [bind, Except.bind, hp, throw, throwThe, MonadExceptOf.throw]
  | true => simp [bind, Except.bind, pure, Except.pure, hp, hd, hr, eq_comm]

/-- A snapshot is read back just if its node and its definition are known. -/
theorem loadSnapshot_row_iff {s : Snapshot} (h : s.flags.IsKnown) (loaded : Graph) :
    g.loadSnapshot (Stored.row s) = .ok loaded ↔
      g.nodes.contains s.node = true ∧ ∃ d, g.definitions.find? s.resource = some d ∧
        loaded = g.setDefinition (d.addSnapshot s) := by
  have hrow := s.row_lists
  rw [loadSnapshot, hrow.name s.node (by simp), hrow.name s.resource (by simp),
    hrow.name s.name (by simp), hrow.uuid s.uuid (by simp),
    hrow.flags h "snapshot" (by simp), hrow.stack s.layerStack (by simp)]
  cases hn : g.nodes.find? s.node with
  | none => simp [bind, Except.bind, node, hn, SortedMap.contains]
  | some n =>
    cases hd : g.definitions.find? s.resource with
    | none => simp [bind, Except.bind, node, definition, hn, hd]
    | some d =>
      simp [bind, Except.bind, pure, Except.pure, node, definition, hn, hd, SortedMap.contains,
        eq_comm]

theorem loadConnection_row {c : Connection} (hsource : g.nodes.contains c.source = true)
    (htarget : g.nodes.contains c.target = true) (h : compare c.source c.target = .lt) :
    g.loadConnection (Stored.row c) = .ok (g.setConnection c) := by
  obtain ⟨n, hn⟩ := g.node_of_contains hsource
  obtain ⟨m, hm⟩ := g.node_of_contains htarget
  have hrow := c.row_lists
  rw [loadConnection, hrow.name c.source (by simp),
    hrow.name c.target (by simp), hrow.uuid c.uuid (by simp),
    hrow.props c.props (by simp)]
  simp [bind, Except.bind, pure, Except.pure, hn, hm, Connection.between, h, Except.mapError]

end Graph

/-! ## Keys -/

theorem isPart_value {kind : NameKind} (name : Name kind) : IsPart name.value := fun hm =>
  absurd (name.isNameCharacter_of_mem_value hm) (by decide)

theorem isPart_compositeKey {parts : List String} (h : ∀ part ∈ parts, IsPart part) :
    IsPart (compositeKey parts) := by
  rw [IsPart, compositeKey, String.toList_intercalate]
  induction parts with
  | nil => simp [List.intercalate]
  | cons part rest ih =>
    have hp := h part List.mem_cons_self
    have hr := ih fun p hp => h p (List.mem_cons_of_mem part hp)
    cases rest with
    | nil => simpa [List.intercalate, IsPart] using hp
    | cons next more =>
      simp [List.intercalate] at hr ⊢
      exact ⟨hp, hr⟩

/-- Entities that can be stored on either engine. -/
class FlatStored (α : Type) [Stored α] : Prop where
  isPart_key : ∀ a : α, IsPart (Stored.key a)
  flat_row : ∀ a : α, Row.Flat (Stored.row a)

namespace Change

variable {α : Type} [Stored α] [FlatStored α]

theorem ofNew_flat (a : α) : (Change.ofNew a).Flat :=
  ⟨FlatStored.isPart_key a, FlatStored.flat_row a⟩

theorem ofColumn_flat (a : α) {column : String} (h : IsPart column) (value : String) :
    (Change.ofColumn a column value).Flat :=
  ⟨FlatStored.isPart_key a, h⟩

end Change

theorem isPart_number (n : Nat) : IsPart (Numeral.write n) := by
  rw [IsPart, Numeral.toList_write]
  exact Numeral.not_mem_toDigits (by decide) (by decide) n (by decide)

instance : FlatStored Node :=
  ⟨fun n => isPart_value n.name, fun n => n.row_lists.flat (by simp)⟩

instance : FlatStored Group :=
  ⟨fun r => isPart_value r.name, fun r => r.row_lists.flat (by simp)⟩

instance : FlatStored Definition :=
  ⟨fun d => isPart_value d.name, fun d => d.row_lists.flat (by simp)⟩

instance : FlatStored NamedVolumeDefinition :=
  ⟨fun v => isPart_compositeKey (by simp [isPart_value, isPart_number]),
    fun v => v.row_lists.flat (by simp)⟩

instance : FlatStored Pool :=
  ⟨fun p => isPart_compositeKey (by simp [isPart_value]), fun p => p.row_lists.flat (by simp)⟩

instance : FlatStored Resource :=
  ⟨fun r => isPart_compositeKey (by simp [isPart_value]), fun r => r.row_lists.flat (by simp)⟩

instance : FlatStored DeployedVolume :=
  ⟨fun v => isPart_compositeKey (by simp [isPart_value, isPart_number]),
    fun v => v.row_lists.flat (by simp)⟩

instance : FlatStored Snapshot :=
  ⟨fun s => isPart_compositeKey (by simp [isPart_value]), fun s => s.row_lists.flat (by simp)⟩

instance : FlatStored Connection :=
  ⟨fun c => isPart_compositeKey (by simp [isPart_value]), fun c => c.row_lists.flat (by simp)⟩

/-! ## Single columns -/

theorem Node.row_setFlags (n : Node) (flags : NodeFlags) :
    (Stored.row n : Row).insert Column.flags flags.toColumn = Stored.row { n with flags } := by
  rw [n.row_lists.row_eq, ({ n with flags } : Node).row_lists.row_eq]
  exact SortedMap.insert_ofList [(Column.uuid, n.uuid.toText),
    (Column.nodeName, n.name.display)] n.row_lists.columns _

theorem Resource.row_setFlags (r : Resource) (flags : ResourceFlags) :
    (Stored.row r : Row).insert Column.flags flags.toColumn = Stored.row { r with flags } := by
  rw [r.row_lists.row_eq, ({ r with flags } : Resource).row_lists.row_eq]
  exact SortedMap.insert_ofList [(Column.uuid, r.uuid.toText),
    (Column.nodeName, r.node.display), (Column.resourceName, r.name.display)]
    r.row_lists.columns _

theorem Definition.row_setProps (d : Definition) (props : Props) :
    (Stored.row d : Row).insert Column.props props.toColumn = Stored.row { d with props } := by
  rw [d.row_lists.row_eq, ({ d with props } : Definition).row_lists.row_eq]
  exact SortedMap.insert_ofList [(Column.uuid, d.uuid.toText),
    (Column.resourceName, d.name.display), (Column.groupName, d.group.display),
    (Column.flags, d.flags.toColumn)] d.row_lists.columns _

end StorageCluster

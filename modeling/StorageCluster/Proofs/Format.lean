import StorageCluster.Format.Node
import StorageCluster.Format.Resource
import StorageCluster.Proofs.SortedMap
import StorageCluster.Proofs.Spelling
import StorageCluster.Proofs.Text.Json
import StorageCluster.Proofs.Uuid

/-!
# Written forms are read back

Every decoder undoes its encoder: what was written of properties, stacks, providers, filters and
interfaces is what is read from the text.
-/
namespace StorageCluster

namespace Json

variable {α β : Type} {encode : α → Json} {decode : Json → Option α}

/-- What is written of a value is told by its text and decoded to that value. -/
structure Recovers (encode : α → Json) (decode : Json → Option α) (a : α) : Prop where
  exact : (encode a).IsExact
  decoded : decode (encode a).asRead = some a

theorem Recovers.read? {a : α} (h : Recovers encode decode a) :
    (Json.read? (render (encode a))).bind decode = some a := by
  rw [read?_render h.exact, Option.bind_some, h.decoded]

theorem mapM_map_of_forall {γ : Type} {xs : List α} {f : α → β} {g : β → Option γ} {k : α → γ}
    (h : ∀ x ∈ xs, g (f x) = some (k x)) : (xs.map f).mapM g = some (xs.map k) := by
  induction xs with
  | nil => rfl
  | cons x rest ih =>
    rw [List.map_cons, List.mapM_cons, h x List.mem_cons_self,
      ih fun y hy => h y (List.mem_cons_of_mem x hy)]
    rfl

theorem mapM_map_decode {xs : List α} {f : α → β} {decode : β → Option α}
    (h : ∀ x ∈ xs, decode (f x) = some x) : (xs.map f).mapM decode = some xs := by
  rw [mapM_map_of_forall (k := id) h, List.map_id]

theorem recovers_string (text : String) : Recovers .string text? text := ⟨trivial, rfl⟩

theorem recovers_bool (b : Bool) : Recovers .bool bool? b := ⟨trivial, rfl⟩

theorem naturalBelow?_of_lt {limit n : Nat} (h : n < limit) :
    naturalBelow? limit (.natural n) = some n := if_pos h

theorem recovers_uint32 (n : UInt32) : Recovers uint32 uint32? n := by
  refine ⟨trivial, ?_⟩
  simp [uint32, asRead, uint32?, naturalBelow?_of_lt n.toNat_lt]

theorem recovers_uint16 (n : UInt16) : Recovers (fun p : UInt16 => .natural p.toNat) uint16? n := by
  refine ⟨trivial, ?_⟩
  simp [asRead, uint16?, naturalBelow?_of_lt n.toNat_lt]

theorem asRead_array (items : List Json) : asRead (.array items) = .array (items.map asRead) := by
  rw [asRead, asReadItems_eq]

theorem recovers_listOf {xs : List α} (h : ∀ x ∈ xs, Recovers encode decode x) :
    Recovers (listOf encode) (list? decode) xs := by
  constructor
  · refine areExact_iff.2 fun item hi => ?_
    obtain ⟨x, hx, rfl⟩ := List.mem_map.1 hi
    exact (h x hx).exact
  · rw [listOf, asRead_array, List.map_map]
    exact mapM_map_decode fun x hx => (h x hx).decoded

/-- Maps are read back if their keys are. -/
theorem recovers_ofSortedMap {κ : Type} [Ord κ] [Std.TransOrd κ] {key : κ → String}
    {key? : String → Option κ} (hkey : ∀ k, key? (key k) = some k) {m : SortedMap κ α}
    (h : ∀ x ∈ m.values, Recovers encode decode x) :
    Recovers (ofSortedMap key encode) (sortedMap? key? decode) m := by
  have hvalue : ∀ e ∈ m.entries, Recovers encode decode e.2 := fun e he =>
    h e.2 (List.mem_map.2 ⟨e, he, rfl⟩)
  constructor
  · refine areExactMembers_iff.2 fun member hm => ?_
    obtain ⟨e, he, rfl⟩ := List.mem_map.1 hm
    exact (hvalue e he).exact
  · have hentries : (m.entries.map fun e => (key e.1, (encode e.2).asRead)).mapM (fun member => do
        let k ← key? member.1
        let v ← decode member.2
        return (k, v)) = some m.entries := by
      refine mapM_map_decode fun e he => ?_
      simp [hkey, (hvalue e he).decoded]
    rw [ofSortedMap, asRead, asReadMembers_eq, List.map_map, sortedMap?, pairs?]
    simp only [Function.comp_def, hentries, Option.map_some, SortedMap.ofList_perm (.refl _)]

theorem nullable?_eq_optional (decode : Json → Option α) (j : Json) :
    nullable? decode j = Slot.optional decode (.given j) := by
  cases j <;> rfl

/-- What may be absent is read back if nothing that is written looks as if it were. -/
theorem recovers_nullOr (hnull : decode .null = none) {o : Option α}
    (h : ∀ a ∈ o, Recovers encode decode a) :
    Recovers (nullOr encode) (nullable? decode) o := by
  cases o with
  | none => exact ⟨trivial, rfl⟩
  | some a =>
    obtain ⟨hexact, hdecoded⟩ := h a rfl
    refine ⟨hexact, ?_⟩
    rw [nullOr]
    generalize (encode a).asRead = j at hdecoded
    unfold nullable?
    split
    next => cases hnull.symm.trans hdecoded
    next => rw [hdecoded, Option.map_some]

theorem filter_name {members : List (String × Json)} (h : (members.map (·.1)).Nodup)
    {m : String × Json} (hm : m ∈ members) : members.filter (fun x => x.1 == m.1) = [m] := by
  induction members with
  | nil => cases hm
  | cons head rest ih =>
    obtain ⟨hnew, hrest⟩ := List.nodup_cons.1 h
    rcases List.mem_cons.1 hm with rfl | hm
    · have hnone : rest.filter (fun x => x.1 == m.1) = [] := by
        refine List.filter_eq_nil_iff.2 fun x hx he => hnew ?_
        exact List.mem_map.2 ⟨x, hx, by simpa using he⟩
      simp [hnone]
    · have hne : head.1 ≠ m.1 := fun he => hnew (List.mem_map.2 ⟨m, hm, he.symm⟩)
      simp [hne, ih hrest hm]

/-- A record is read field by field. -/
theorem slots?_object (members : List (String × Json)) (plain : Bool)
    (h : (members.map (·.1)).Nodup) :
    slots? (members.map (·.1)) (asRead (.object members plain)) =
      some (members.map fun m => .given m.2.asRead) := by
  have hread : ((members.map fun m => (m.1, m.2.asRead)).map (·.1)).Nodup := by
    simpa [Function.comp_def] using h
  rw [asRead, asReadMembers_eq, slots?, memberSlots]
  refine mapM_map_of_forall fun m hm => ?_
  rw [filter_name hread (m := (m.1, m.2.asRead)) (List.mem_map.2 ⟨m, hm, rfl⟩)]

end Json

theorem Name.recovers {kind : NameKind} (name : Name kind) :
    Json.Recovers toJson ofJson? name := by
  refine ⟨trivial, ?_⟩
  simp [toJson, Json.asRead, ofJson?, Json.text?, ofText?, ofText_display, Except.toOption]

theorem Uuid.recovers (id : Uuid) : Json.Recovers toJson ofJson? id := by
  refine ⟨trivial, ?_⟩
  simp [toJson, Json.asRead, ofJson?, Json.text?, ofText?_toText]

theorem LayerKind.recovers (kind : LayerKind) : Json.Recovers toJson ofJson? kind := by
  cases kind <;> exact ⟨trivial, by decide⟩

theorem Provider.recovers (p : Provider) : Json.Recovers toJson ofJson? p := by
  cases p <;> exact ⟨trivial, by decide⟩

theorem LayerKind.recovers_stack (stack : List LayerKind) :
    Json.Recovers stackToJson stackOfJson? stack :=
  Json.recovers_listOf fun kind _ => kind.recovers

theorem Encryption.recovers (e : Encryption) :
    Json.Recovers (Json.word Encryption.names) (Json.choice? Encryption.names) e := by
  cases e <;> exact ⟨trivial, by decide⟩

theorem Props.recovers (p : Props) : Json.Recovers toJson ofJson? p := by
  have hmap : Json.Recovers (Json.ofSortedMap id .string) (Json.sortedMap? some Json.text?) p.map :=
    Json.recovers_ofSortedMap (fun _ => rfl) fun text _ => Json.recovers_string text
  constructor
  · exact ⟨hmap.exact, trivial⟩
  · have hslots := Json.slots?_object [("map", Json.ofSortedMap id .string p.map)] true (by simp)
    simp only [List.map_cons, List.map_nil] at hslots
    simp [toJson, ofJson?, hslots, Json.Slot.required, hmap.decoded]

/-- The address of an interface is what its text is read as. -/
def Address.IsReadBack (a : Address) : Prop := ofText? a.toText = some a

theorem Address.IsReadBack.recovers {a : Address} (h : a.IsReadBack) :
    Json.Recovers toJson ofJson? a := ⟨trivial, h⟩

theorem Interface.recovers {i : Interface} (h : i.address.IsReadBack) :
    Json.Recovers toJson ofJson? i := by
  have hport : Json.Recovers (Json.nullOr fun p : UInt16 => .natural p.toNat)
      (Json.nullable? Json.uint16?) i.port :=
    Json.recovers_nullOr rfl fun port _ => Json.recovers_uint16 port
  have hencryption : Json.Recovers (Json.nullOr (Json.word Encryption.names))
      (Json.nullable? (Json.choice? Encryption.names)) i.encryption :=
    Json.recovers_nullOr rfl fun e _ => e.recovers
  constructor
  · exact ⟨i.uuid.recovers.exact, i.name.recovers.exact, h.recovers.exact, hport.exact,
      hencryption.exact, trivial⟩
  · have hslots := Json.slots?_object
      [("uuid", i.uuid.toJson), ("name", i.name.toJson), ("address", i.address.toJson),
        ("stlt_port", Json.nullOr (fun p => .natural p.toNat) i.port),
        ("stlt_encryption", Json.nullOr (Json.word Encryption.names) i.encryption)] true
      (by simp)
    simp only [List.map_cons, List.map_nil] at hslots
    simp [toJson, ofJson?, hslots, Json.Slot.required, ← Json.nullable?_eq_optional,
      i.uuid.recovers.decoded, i.name.recovers.decoded, h.recovers.decoded, hport.decoded,
      hencryption.decoded]

theorem Filter.recovers (f : Filter) : Json.Recovers toJson ofJson? f := by
  have hcount : Json.Recovers (Json.nullOr Json.uint32) (Json.nullable? Json.uint32?)
      f.placeCount :=
    Json.recovers_nullOr rfl fun n _ => Json.recovers_uint32 n
  have hnames {kind : NameKind} (names : List (Name kind)) :
      Json.Recovers (Json.listOf Name.toJson) (Json.list? Name.ofJson?) names :=
    Json.recovers_listOf fun name _ => name.recovers
  have htexts (texts : List String) :
      Json.Recovers (Json.listOf .string) (Json.list? Json.text?) texts :=
    Json.recovers_listOf fun text _ => Json.recovers_string text
  have hpattern : Json.Recovers (Json.nullOr .string) (Json.nullable? Json.text?)
      f.avoidPattern :=
    Json.recovers_nullOr rfl fun text _ => Json.recovers_string text
  have hproviders : Json.Recovers (Json.listOf Provider.toJson) (Json.list? Provider.ofJson?)
      f.providers :=
    Json.recovers_listOf fun p _ => p.recovers
  have hdiskless : Json.Recovers (Json.nullOr .bool) (Json.nullable? Json.bool?)
      f.disklessOnRemaining :=
    Json.recovers_nullOr rfl fun b _ => Json.recovers_bool b
  have hstack := LayerKind.recovers_stack f.layerStack
  constructor
  · exact ⟨hcount.exact, (hnames _).exact, (hnames _).exact, (hnames _).exact, hpattern.exact,
      (htexts _).exact, (htexts _).exact, hstack.exact, hproviders.exact, hdiskless.exact, trivial⟩
  · have hslots := Json.slots?_object (fields.zip [Json.nullOr Json.uint32 f.placeCount,
      Json.listOf Name.toJson f.nodes, Json.listOf Name.toJson f.pools,
      Json.listOf Name.toJson f.avoidResources, Json.nullOr .string f.avoidPattern,
      Json.listOf .string f.sameProps, Json.listOf .string f.differentProps,
      LayerKind.stackToJson f.layerStack, Json.listOf Provider.toJson f.providers,
      Json.nullOr .bool f.disklessOnRemaining]) true (by simp [fields])
    simp only [fields, List.zip_cons_cons, List.zip_nil_left, List.map_cons, List.map_nil] at hslots
    simp [toJson, ofJson?, fields, hslots, Json.Slot.defaulted, hcount.decoded,
      (hnames _).decoded, hpattern.decoded, (htexts _).decoded, hstack.decoded,
      hproviders.decoded, hdiskless.decoded]

end StorageCluster

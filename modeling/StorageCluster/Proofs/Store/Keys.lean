import Mathlib.Data.List.Basic
import Mathlib.Data.List.Forall2
import StorageCluster.Controller.Primary
import StorageCluster.Proofs.Spelling
import StorageCluster.Proofs.Store.Rows

/-!
# Keys tell entities apart

A primary key joins upper-case names and numbers by colons. No part holds a colon, so a key tells
its parts, and the parts tell the names but for the case of letters: two entities of a table have
one key just if they go by the same names and the same number.
-/
namespace StorageCluster

/-! ## Joining by colons -/

theorem toList_compositeKey_cons {part next : String} {rest : List String} :
    (compositeKey (part :: next :: rest)).toList =
      part.toList ++ ':' :: (compositeKey (next :: rest)).toList := by
  simp [compositeKey]

/-- Keys of equally many parts are told apart by their parts. -/
theorem compositeKey_inj {parts others : List String} (hlength : parts.length = others.length)
    (hparts : ∀ part ∈ parts, ':' ∉ part.toList) (hothers : ∀ part ∈ others, ':' ∉ part.toList) :
    compositeKey parts = compositeKey others ↔ parts = others := by
  refine ⟨fun h => ?_, fun h => h ▸ rfl⟩
  induction parts generalizing others with
  | nil => exact (List.length_eq_zero_iff.1 hlength.symm).symm
  | cons part rest ih =>
    obtain ⟨other, more, rfl⟩ := List.exists_cons_of_length_eq_add_one hlength.symm
    rw [List.forall_mem_cons] at hparts hothers
    have hrest : rest.length = more.length := Nat.succ.inj hlength
    cases rest with
    | nil =>
      obtain rfl := List.length_eq_zero_iff.1 hrest.symm
      simpa [compositeKey] using h
    | cons next rest =>
      obtain ⟨another, more, rfl⟩ := List.exists_cons_of_length_eq_add_one hrest.symm
      have hchars := congrArg String.toList h
      rw [toList_compositeKey_cons, toList_compositeKey_cons] at hchars
      obtain ⟨hfirst, hmore⟩ := part_append_inj hparts.1 hothers.1 hchars
      rw [String.toList_inj.1 hfirst, ih hrest hparts.2 hothers.2 (String.toList_inj.1 hmore)]

theorem colon_notMem_upperCase {kind : NameKind} (name : Name kind) :
    ':' ∉ (upperCase name.display).toList := fun hm =>
  absurd (name.isNameCharacter_of_mem_value hm) (by decide)

theorem colon_notMem_number (n : Nat) : ':' ∉ (Numeral.write n).toList := by
  rw [Numeral.toList_write]
  exact Numeral.not_mem_toDigits (by decide) (by decide) n (by decide)

/-! ## Entities -/

namespace Table

/-- How many names an entity of the table goes by. -/
def nameCount : Table → Nat
  | nodes | groups | definitions | volumeDefinitions => 1
  | pools | resources | volumes | connections => 2
  | snapshots => 3

/-- Volumes and volume definitions go by a number besides. -/
def isNumbered : Table → Bool
  | volumeDefinitions | volumes => true
  | _ => false

end Table

/-- An entity of any of the tables. -/
inductive Entity
  | node (n : Node)
  | group (g : Group)
  | definition (d : Definition)
  | volumeDefinition (v : NamedVolumeDefinition)
  | pool (p : Pool)
  | resource (r : Resource)
  | volume (v : DeployedVolume)
  | snapshot (s : Snapshot)
  | connection (c : Connection)

namespace Entity

def table : Entity → Table
  | node _ => Stored.table Node
  | group _ => Stored.table Group
  | definition _ => Stored.table Definition
  | volumeDefinition _ => Stored.table NamedVolumeDefinition
  | pool _ => Stored.table Pool
  | resource _ => Stored.table Resource
  | volume _ => Stored.table DeployedVolume
  | snapshot _ => Stored.table Snapshot
  | connection _ => Stored.table Connection

def key : Entity → String
  | node n => Stored.key n
  | group g => Stored.key g
  | definition d => Stored.key d
  | volumeDefinition v => Stored.key v
  | pool p => Stored.key p
  | resource r => Stored.key r
  | volume v => Stored.key v
  | snapshot s => Stored.key s
  | connection c => Stored.key c

/-- The names by which an entity is known in its table, as they are displayed. -/
def names : Entity → List String
  | node n => [n.name.display]
  | group g => [g.name.display]
  | definition d => [d.name.display]
  | volumeDefinition v => [v.resource.display]
  | pool p => [p.node.display, p.name.display]
  | resource r => [r.node.display, r.name.display]
  | volume v => [v.resource.node.display, v.resource.name.display]
  | snapshot s => [s.node.display, s.resource.display, s.name.display]
  | connection c => [c.source.display, c.target.display]

def number? : Entity → Option UInt32
  | volumeDefinition v => some v.volume.number
  | volume v => some v.volume.number
  | _ => none

/-- What the key of an entity is joined of. -/
def parts (e : Entity) : List String :=
  e.names.map upperCase ++ (e.number?.map fun n => Numeral.write n.toNat).toList

theorem key_eq (e : Entity) : e.key = compositeKey e.parts := by
  cases e <;> simp only [key, Stored.key, parts, names, number?, List.map_cons, List.map_nil,
    Option.map_none, Option.map_some, Option.toList_none, Option.toList_some, List.append_nil,
    List.cons_append, List.nil_append, Name.value, compositeKey, String.intercalate_singleton]

theorem colon_notMem_parts (e : Entity) : ∀ part ∈ e.parts, ':' ∉ part.toList := by
  cases e <;>
    simp [parts, names, number?, colon_notMem_number, colon_notMem_upperCase]

theorem isPart_key (e : Entity) : IsPart e.key := by
  cases e <;> exact FlatStored.isPart_key _

theorem length_names (e : Entity) : e.names.length = e.table.nameCount := by
  cases e <;> rfl

/-- The same names but for the case of letters, and the same number if they have one. -/
structure SameIdentity (a b : Entity) : Prop where
  names : List.Forall₂ (fun x y => sameIgnoringCase x y = true) a.names b.names
  number : a.number? = b.number?

theorem map_upperCase_eq_iff (xs ys : List String) :
    xs.map upperCase = ys.map upperCase ↔
      List.Forall₂ (fun x y => sameIgnoringCase x y = true) xs ys := by
  simp only [← List.forall₂_eq_eq_eq, List.forall₂_map_left_iff, List.forall₂_map_right_iff,
    sameIgnoringCase, beq_iff_eq]

theorem numberPart_inj (m n : Option UInt32) :
    (m.map fun n => Numeral.write n.toNat).toList = (n.map fun n => Numeral.write n.toNat).toList ↔
      m = n := by
  have hwrite (m n : UInt32) : Numeral.write m.toNat = Numeral.write n.toNat ↔ m = n :=
    Numeral.write_injective.eq_iff.trans UInt32.toNat_inj
  cases m <;> cases n <;> simp [hwrite]

theorem parts_eq_iff {a b : Entity} (h : a.table = b.table) :
    a.parts = b.parts ↔ a.SameIdentity b := by
  have hlength : (a.names.map upperCase).length = (b.names.map upperCase).length := by
    simp only [List.length_map, length_names, h]
  refine ⟨fun he => ?_, fun ⟨hnames, hnumber⟩ => ?_⟩
  · obtain ⟨hnames, hnumber⟩ := List.append_inj he hlength
    exact ⟨(map_upperCase_eq_iff _ _).1 hnames, (numberPart_inj _ _).1 hnumber⟩
  · rw [parts, parts, (map_upperCase_eq_iff _ _).2 hnames, hnumber]

theorem length_parts (e : Entity) :
    e.parts.length = e.table.nameCount + e.table.isNumbered.toNat := by
  cases e <;> rfl

/-- The key is the identity: entities of one table have one key just if they go by the same names
and the same number. -/
theorem key_eq_iff {a b : Entity} (h : a.table = b.table) : a.key = b.key ↔ a.SameIdentity b := by
  have hlength : a.parts.length = b.parts.length := by rw [length_parts, length_parts, h]
  rw [key_eq, key_eq, compositeKey_inj hlength a.colon_notMem_parts b.colon_notMem_parts,
    parts_eq_iff h]

end Entity

/-- The ends of a connection stand in the order of their names, whichever way they are given. -/
theorem between_eq_ok_iff {uuid : Uuid} {a b : NodeName} {c : Connection} :
    Connection.between uuid a b = .ok c ↔
      compare a.value b.value = .lt ∧ c = { uuid, source := a, target := b } ∨
        compare b.value a.value = .lt ∧ c = { uuid, source := b, target := a } := by
  have hlt : compare b.value a.value = .lt ↔ compare a.value b.value = .gt :=
    Std.OrientedCmp.gt_iff_lt.symm
  rw [hlt, Connection.between, Name.compare_eq_compareOn, Name.compareOn_value]
  cases compare a.value b.value <;> simp [eq_comm]

theorem key_connection_eq_iff (c d : Connection) :
    Stored.key c = Stored.key d ↔
      c.source.value = d.source.value ∧ c.target.value = d.target.value := by
  refine (Entity.key_eq_iff (a := .connection c) (b := .connection d) rfl).trans ⟨fun h => ?_,
    fun h => ⟨?_, rfl⟩⟩
  · simpa [Entity.names, sameIgnoringCase, Name.value] using h.names
  · simpa [Entity.names, sameIgnoringCase, Name.value] using h

/-- Two connections have one key just if they join the same two nodes. -/
theorem key_between_iff {u v : Uuid} {a b a' b' : NodeName} {c d : Connection}
    (hc : Connection.between u a b = .ok c) (hd : Connection.between v a' b' = .ok d) :
    Stored.key c = Stored.key d ↔
      (a == a') = true ∧ (b == b') = true ∨ (a == b') = true ∧ (b == a') = true := by
  -- the ends of one connection cannot be those of the other the other way round
  have hasymm {x y : String} (h : compare x y = .lt) : compare y x ≠ .lt := fun h' => by
    rw [Std.OrientedCmp.gt_of_lt h] at h'
    cases h'
  simp only [Name.beq_iff, key_connection_eq_iff]
  rcases between_eq_ok_iff.1 hc with ⟨hab, rfl⟩ | ⟨hab, rfl⟩ <;>
    rcases between_eq_ok_iff.1 hd with ⟨hab', rfl⟩ | ⟨hab', rfl⟩ <;> grind

/-! ## Where spellings are compared -/

/-- Who has set the primary role of a resource gets it again under any spelling of its name. -/
theorem claimPrimary_renewed_iff {d : Definition} {holder node : NodeName}
    {request : PrimaryRequest} {r : Resource} (hr : d.resource? node = some r)
    (huuid : r.uuid = request.uuid)
    (hheld : d.props.get? Props.primarySetOnKey none = some holder.display) :
    d.claimPrimary node request = .ok .renewed ↔ (holder == node) = true := by
  simp only [Definition.claimPrimary, hr, huuid, hheld, holder.beq_eq_sameIgnoringCase node]
  split <;> simp_all

/-- A rule about an object is a rule about the object under any spelling of its name. -/
theorem appliesTo_iff {kind : NameKind} {rule : AccessRule} {a : Name kind}
    (h : rule.objectName = some a.display) (who : AccessContext) (object : ObjectKind)
    (b : Name kind) :
    AccessPolicy.appliesTo rule who object b.display = true ↔
      rule.identity = who.identity ∧ rule.kind = object ∧ (a == b) = true := by
  simp [AccessPolicy.appliesTo, h, a.beq_eq_sameIgnoringCase b, and_assoc]

/-- A text is accepted as a name just if it is spelled like one. Names are compared, hashed and
ordered by their upper-case texts, which say no more and no less than the spelling but for the case
of letters: whoever holds the primary role and whatever a rule of access is about is told by the
same comparison. So entities of a table share their key just if they share names and number, and no
key holds a slash. -/
theorem keys_tell_entities_apart :
    (∀ (kind : NameKind) (text : String),
      ((Name.ofText kind text).isOk = true ↔ IsSpelling text) ∧
      ∀ name, Name.ofText kind text = .ok name ↔ name.display = text) ∧
    (∀ (kind : NameKind) (a b : Name kind),
      -- upper-casing may do what it likes with characters that are not in ASCII
      (∀ upper : Char → List Char, (∀ c : Char, c.toNat < 128 → upper c = [c.toUpper]) →
        a.value.toList = a.display.toList.flatMap upper) ∧
      (a == b) = (a.value == b.value) ∧ hash a = hash a.value ∧
      compare a b = compare a.value b.value ∧
      (a == b) = sameIgnoringCase a.display b.display) ∧
    (∀ s t : String, sameIgnoringCase s t = true ↔
      List.Forall₂ (fun c d => c.toLower = d.toLower) s.toList t.toList) ∧
    (∀ (d : Definition) (holder node : NodeName) (request : PrimaryRequest) (r : Resource),
      d.resource? node = some r → r.uuid = request.uuid →
      d.props.get? Props.primarySetOnKey none = some holder.display →
      (d.claimPrimary node request = .ok .renewed ↔ (holder == node) = true)) ∧
    (∀ (kind : NameKind) (rule : AccessRule) (a b : Name kind),
      rule.objectName = some a.display → ∀ (who : AccessContext) (object : ObjectKind),
      (AccessPolicy.appliesTo rule who object b.display = true ↔
        rule.identity = who.identity ∧ rule.kind = object ∧ (a == b) = true)) ∧
    (∀ a b : Entity, a.table = b.table → (a.key = b.key ↔ a.SameIdentity b)) ∧
    (∀ (u v : Uuid) (a b a' b' : NodeName) (c d : Connection),
      Connection.between u a b = .ok c → Connection.between v a' b' = .ok d →
      (Stored.key c = Stored.key d ↔
        (a == a') = true ∧ (b == b') = true ∨ (a == b') = true ∧ (b == a') = true)) ∧
    ∀ a : Entity, '/' ∉ a.key.toList :=
  ⟨fun kind text => ⟨Name.isOk_ofText kind text, Name.ofText_eq_ok_iff text⟩,
    fun _ a b => ⟨fun _ => a.toList_value_eq_flatMap, rfl, rfl, rfl, a.beq_eq_sameIgnoringCase b⟩,
    sameIgnoringCase_iff, fun _ _ _ _ _ => claimPrimary_renewed_iff,
    fun _ _ _ b h who object => appliesTo_iff h who object b, fun _ _ => Entity.key_eq_iff,
    fun _ _ _ _ _ _ _ _ => key_between_iff, Entity.isPart_key⟩

end StorageCluster

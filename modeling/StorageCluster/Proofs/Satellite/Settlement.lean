import StorageCluster.Proofs.Satellite.Volumes
import StorageCluster.Proofs.Satellite.Work

/-!
# Settled resources

A resource is settled in a layer when the devices hold there what it asks for: everything while it
lives, and nothing once it is deleted. Work that comes through settles a resource in every layer
that it reaches, and work on a settled resource changes nothing. Work for other names touches
nothing that a resource holds.
-/
namespace StorageCluster

namespace DrbdState

variable {s : DrbdState} {name other : ResourceName}

theorem contains_allocate : (s.allocate name).2.minors.contains name = true := by
  unfold allocate
  split
  next minor hm => exact SortedMap.contains_of_find? hm
  next => simp [SortedMap.contains_insert, Std.ReflCmp.compare_self]

theorem find?_allocate (h : (name == other) = false) :
    (s.allocate name).2.minors.find? other = s.minors.find? other := by
  have hne := Name.compare_ne_of_beq h
  unfold allocate
  split
  · rfl
  · exact (SortedMap.find?_insert ..).trans (if_neg hne)

theorem allocate_eq_self (h : s.minors.contains name = true) : (s.allocate name).2 = s := by
  obtain ⟨minor, hm⟩ := Option.isSome_iff_exists.1 h
  unfold allocate
  rw [hm]

end DrbdState

namespace Devices

variable {d d' : Devices} {name : ResourceName}

/-- What the devices hold for a name in a layer. -/
def Holds (d : Devices) (name : ResourceName) : LayerKind → Prop
  | .drbd => d.drbd.minors.contains name = true
  | .luks => d.luks.opened.contains name = true
  | .nvme => False
  | .storage => ∃ number, d.storage.volumes.contains (name, number) = true

/-- What the devices hold for a name is the same. -/
structure Same (name : ResourceName) (d d' : Devices) : Prop where
  minor : d'.drbd.minors.find? name = d.drbd.minors.find? name
  opened : d'.luks.opened.find? name = d.luks.opened.find? name
  volume : ∀ number,
    d'.storage.volumes.find? (name, number) = d.storage.volumes.find? (name, number)

theorem Same.holds (h : Same name d d') (kind : LayerKind) :
    d'.Holds name kind ↔ d.Holds name kind := by
  cases kind <;> simp [Holds, SortedMap.contains, h.minor, h.opened, h.volume]

end Devices

namespace Resource

variable {r other : Resource} {kind layer : LayerKind} {d d' : Devices}

/-- The devices hold in a layer what a resource asks for. -/
def Settled (r : Resource) (d : Devices) : LayerKind → Prop
  | .drbd => d.drbd.minors.contains r.name = !r.isDeleted
  | .luks => d.luks.opened.contains r.name = !r.isDeleted ∧
      (r.isDeleted = false → d.luks.masterKey.isNone = false)
  | .nvme => False
  | .storage =>
    if r.isDeleted then ∀ number, d.storage.volumes.contains (r.name, number) = false
    else r.isDiskless = true ∨
      ∀ v ∈ r.volumes.values, d.storage.volumes.contains (r.name, v.number) = true

/-- A deleted resource that is settled in a layer holds nothing there. -/
theorem Settled.not_holds (h : r.Settled d kind) (hdeleted : r.isDeleted = true) :
    ¬ d.Holds r.name kind := by
  cases kind with
  | drbd => simpa [Settled, Devices.Holds, hdeleted] using h
  | luks => simpa [Settled, Devices.Holds, hdeleted] using h
  | nvme => exact id
  | storage => simpa [Settled, Devices.Holds, hdeleted] using h

/-! ## What a step does -/

/-- A change for one name is none for another. -/
theorem Step.same (h : other.Step kind d d') {name : ResourceName}
    (hname : (other.name == name) = false) : Devices.Same name d d' := by
  have hne := Name.compare_ne_of_beq hname
  cases h with
  | allocate => exact ⟨DrbdState.find?_allocate hname, rfl, fun _ => rfl⟩
  | surrender => exact ⟨(SortedMap.find?_erase ..).trans (if_neg hne), rfl, fun _ => rfl⟩
  | unlock => exact ⟨rfl, (SortedMap.find?_insert ..).trans (if_neg hne), fun _ => rfl⟩
  | lock => exact ⟨rfl, (SortedMap.find?_erase ..).trans (if_neg hne), fun _ => rfl⟩
  | create => exact ⟨rfl, rfl, StorageState.find?_volumes_addVolumes hname _⟩
  | remove => exact ⟨rfl, rfl, StorageState.find?_volumes_release hname⟩

/-- A change in one layer is none in another. -/
theorem Step.holds_elsewhere (h : other.Step kind d d') (hne : layer ≠ kind) (name : ResourceName) :
    d'.Holds name layer ↔ d.Holds name layer := by
  cases h <;> cases layer <;> first | exact absurd rfl hne | exact Iff.rfl

/-- What is held after a change was held before it, or belongs to the resource and the layer of the
change. -/
theorem Step.holds (h : other.Step kind d d') {name : ResourceName} (hheld : d'.Holds name layer) :
    d.Holds name layer ∨ ((other.name == name) = true ∧ layer = kind) := by
  by_cases hlayer : layer = kind
  · cases hname : other.name == name with
    | true => exact .inr ⟨rfl, hlayer⟩
    | false => exact .inl (((h.same hname).holds layer).1 hheld)
  · exact .inl ((h.holds_elsewhere hlayer name).1 hheld)

theorem Step.capacity_eq (h : r.Step kind d d') (pool : PoolName) :
    d'.storage.capacity pool = d.storage.capacity pool := by
  cases h with
  | create => exact StorageState.capacity_addVolumes ..
  | remove => exact StorageState.capacity_release ..
  | _ => rfl

/-- Changes for other names leave a resource settled. -/
theorem Step.settled_other (h : other.Step kind d d') (hname : (other.name == r.name) = false)
    (hs : r.Settled d layer) : r.Settled d' layer := by
  have hsame := h.same hname
  have hkey := h.masterKey_eq
  cases layer with
  | nvme => exact hs
  | _ =>
    simpa only [Settled, SortedMap.contains, hsame.minor, hsame.opened, hsame.volume, hkey] using hs

theorem Step.settled_drbd (h : r.Step .drbd d d') : r.Settled d' .drbd := by
  cases h with
  | allocate live => simp [Settled, live, DrbdState.contains_allocate]
  | surrender deleted =>
    simp [Settled, deleted, DrbdState.release, SortedMap.contains_erase, Std.ReflCmp.compare_self]

/-- Changes for a resource itself leave it settled. -/
theorem Step.settled (h : r.Step kind d d') (hs : r.Settled d layer) : r.Settled d' layer := by
  cases h with
  | allocate live =>
    cases layer with
    | drbd => exact (Step.allocate live).settled_drbd
    | _ => exact hs
  | surrender deleted =>
    cases layer with
    | drbd => exact (Step.surrender deleted).settled_drbd
    | _ => exact hs
  | unlock live =>
    cases layer with
    | luks => exact ⟨by simp [live, SortedMap.contains_insert, Std.ReflCmp.compare_self], hs.2⟩
    | _ => exact hs
  | lock deleted =>
    cases layer with
    | luks => exact ⟨by simp [deleted, SortedMap.contains_erase, Std.ReflCmp.compare_self], hs.2⟩
    | _ => exact hs
  | create live diskful =>
    cases layer with
    | storage =>
      simp only [Settled, live, diskful, Bool.false_eq_true, if_false, false_or] at hs ⊢
      exact fun v hv => StorageState.contains_addVolumes (hs v hv) _
    | _ => exact hs
  | remove deleted =>
    cases layer with
    | storage => simp [Settled, deleted, StorageState.contains_release, Name.beq_self]
    | _ => exact hs

theorem Steps.settled {kinds : List LayerKind} (h : r.Steps kinds d d') (hs : r.Settled d layer) :
    r.Settled d' layer :=
  h.keeps (fun _ _ _ _ hstep => hstep.settled) hs

theorem Steps.settled_other {kinds : List LayerKind} (h : other.Steps kinds d d')
    (hname : (other.name == r.name) = false) (hs : r.Settled d layer) : r.Settled d' layer :=
  h.keeps (fun _ _ _ _ hstep => hstep.settled_other hname) hs

/-! ## What work does -/

section Ok

variable {rest : List LayerKind} {entries more : Report}

theorem drbd_ok (h : (r.work (.drbd :: rest)).run (d, entries) = (.ok (), d', more)) :
    (r.isDeleted = false ∧ ∃ mid, (r.under (r.work rest)).run
        ({ d with drbd := (d.drbd.allocate r.name).2 }, entries) = (.ok (), d', mid)) ∨
      (r.isDeleted = true ∧ ∃ below mid, (r.under (r.work rest)).run (d, entries) =
        (.ok (), below, mid) ∧ d' = { below with drbd := below.drbd.release r.name }) := by
  rw [work_drbd] at h
  cases hdeleted : r.isDeleted
  · simp only [hdeleted, Bool.false_eq_true, if_false] at h
    rcases hx : (r.under (r.work rest)).run
      ({ d with drbd := (d.drbd.allocate r.name).2 }, entries) with ⟨fault | _, below, mid⟩
    · rw [hx] at h
      cases h
    · rw [hx] at h
      cases h
      exact .inl ⟨rfl, mid, rfl⟩
  · simp only [hdeleted, if_true] at h
    rcases hx : (r.under (r.work rest)).run (d, entries) with ⟨fault | _, below, mid⟩
    · rw [hx] at h
      cases h
    · rw [hx] at h
      cases h
      exact .inr ⟨rfl, below, mid, rfl, rfl⟩

theorem luks_ok (h : (r.work (.luks :: rest)).run (d, entries) = (.ok (), d', more)) :
    (r.isDeleted = false ∧ d.luks.masterKey.isNone = false ∧ ∃ below mid,
        (r.work rest).run (d, entries) = (.ok (), below, mid) ∧ d' = { below with
          luks := { below.luks with opened := below.luks.opened.insert r.name () } }) ∨
      (r.isDeleted = true ∧ (r.work rest).run
        ({ d with luks := { d.luks with opened := d.luks.opened.erase r.name } }, entries) =
          (.ok (), d', more)) := by
  rw [work_luks] at h
  cases hdeleted : r.isDeleted
  · simp only [hdeleted, Bool.false_eq_true, if_false] at h
    cases hkey : d.luks.masterKey.isNone
    · simp only [hkey, Bool.false_eq_true, if_false] at h
      rcases hx : (r.work rest).run (d, entries) with ⟨fault | _, below, mid⟩
      · rw [hx] at h
        cases h
      · rw [hx] at h
        cases h
        exact .inl ⟨rfl, rfl, below, mid, rfl, rfl⟩
    · simp only [hkey, if_true] at h
      cases h
  · simp only [hdeleted, if_true] at h
    exact .inr ⟨rfl, h⟩

theorem storage_ok (h : (r.work (.storage :: rest)).run (d, entries) = (.ok (), d', more)) :
    (r.isDeleted = true ∧ d' = { d with storage := d.storage.release r.name }) ∨
      (r.isDeleted = false ∧ r.isDiskless = true ∧ d' = d) ∨
      (r.isDeleted = false ∧ r.isDiskless = false ∧
        (d.storage.addVolumes r.name r.volumes.values).2 = .ok () ∧
        d' = { d with storage := (d.storage.addVolumes r.name r.volumes.values).1 }) := by
  rw [work_storage] at h
  cases hdeleted : r.isDeleted
  · cases hdiskless : r.isDiskless
    · simp only [hdeleted, hdiskless, Bool.false_eq_true, if_false] at h
      rcases hx : (d.storage.addVolumes r.name r.volumes.values).2 with fault | _
      · rw [hx] at h
        cases h
      · rw [hx] at h
        cases h
        exact .inr (.inr ⟨rfl, rfl, rfl, rfl⟩)
    · simp only [hdeleted, hdiskless, Bool.false_eq_true, if_false, if_true] at h
      cases h
      exact .inr (.inl ⟨rfl, rfl, rfl⟩)
  · simp only [hdeleted, if_true] at h
    cases h
    exact .inl ⟨rfl, rfl⟩

/-- Below a diskful resource its work goes on; below a diskless one nothing is reached. -/
theorem under_ok (h : (r.under (r.work rest)).run (d, entries) = (.ok (), d', more)) :
    (r.isDiskless = false ∧ (r.work rest).run (d, entries) = (.ok (), d', more)) ∨
      (r.isDiskless = true ∧ d' = d) := by
  unfold under at h
  cases hdiskless : r.isDiskless
  · simp only [hdiskless, Bool.false_eq_true, if_false] at h
    exact .inl ⟨rfl, h⟩
  · simp only [hdiskless, if_true] at h
    cases h
    exact .inr ⟨rfl, rfl⟩

/-! Whatever a layer does before or after those below it, they leave each other settled. -/

theorem settled_of_drbd {below : List LayerKind}
    (hbelow : ∀ {d d' : Devices} {entries more : Report},
      (r.under (r.work rest)).run (d, entries) = (.ok (), d', more) →
        r.Steps (r.reached rest) d d' ∧ ∀ kind ∈ below, r.Settled d' kind)
    (h : (r.work (.drbd :: rest)).run (d, entries) = (.ok (), d', more)) :
    ∀ kind ∈ .drbd :: below, r.Settled d' kind := by
  intro kind hk
  rcases drbd_ok h with ⟨live, mid, hx⟩ | ⟨deleted, now, mid, hx, rfl⟩
  · obtain ⟨hsteps, hsettled⟩ := hbelow hx
    rcases List.mem_cons.1 hk with rfl | hk
    · exact hsteps.settled (Step.allocate live).settled_drbd
    · exact hsettled kind hk
  · rcases List.mem_cons.1 hk with rfl | hk
    · exact (Step.surrender deleted).settled_drbd
    · exact (Step.surrender deleted).settled ((hbelow hx).2 kind hk)

theorem settled_of_luks {below : List LayerKind}
    (hbelow : ∀ {d d' : Devices} {entries more : Report},
      (r.work rest).run (d, entries) = (.ok (), d', more) → ∀ kind ∈ below, r.Settled d' kind)
    (h : (r.work (.luks :: rest)).run (d, entries) = (.ok (), d', more)) :
    ∀ kind ∈ .luks :: below, r.Settled d' kind := by
  intro kind hk
  rcases luks_ok h with ⟨live, hkey, now, mid, hx, rfl⟩ | ⟨deleted, hx⟩
  · rcases List.mem_cons.1 hk with rfl | hk
    · refine ⟨by simp [live, SortedMap.contains_insert, Std.ReflCmp.compare_self], fun _ => ?_⟩
      exact (congrArg Option.isNone (steps_of_run hx).masterKey_eq).trans hkey
    · exact (Step.unlock live).settled (hbelow hx kind hk)
  · rcases List.mem_cons.1 hk with rfl | hk
    · refine (steps_of_run hx).settled ⟨?_, fun hlive => ?_⟩
      · simp [deleted, SortedMap.contains_erase, Std.ReflCmp.compare_self]
      · rw [deleted] at hlive
        cases hlive
    · exact hbelow hx kind hk

theorem settled_of_storage
    (h : (r.work (.storage :: rest)).run (d, entries) = (.ok (), d', more)) :
    r.Settled d' .storage := by
  rcases storage_ok h with ⟨deleted, rfl⟩ | ⟨live, diskless, rfl⟩ | ⟨live, diskful, hadded, rfl⟩
  · simp [Settled, deleted, StorageState.contains_release, Name.beq_self]
  · simp [Settled, live, diskless]
  · simp only [Settled, live, diskful, Bool.false_eq_true, if_false, false_or]
    exact fun v hv => StorageState.contains_of_addVolumes hadded hv

/-- Work that comes through settles a resource in all layers that it reaches. -/
theorem settled_of_work {stack : List LayerKind}
    (h : (r.work stack).run (d, entries) = (.ok (), d', more)) :
    ∀ kind ∈ r.reached stack, r.Settled d' kind := by
  induction stack generalizing d d' entries more with
  | nil => exact fun _ hk => absurd hk List.not_mem_nil
  | cons top rest ih =>
    cases top with
    | drbd =>
      refine settled_of_drbd (fun {d d' entries more} hx => ?_) h
      rcases under_ok hx with ⟨hdiskful, hrest⟩ | ⟨hdiskless, rfl⟩
      · simp only [hdiskful, Bool.false_eq_true, if_false]
        exact ⟨steps_of_run hrest, ih hrest⟩
      · simp only [hdiskless, if_true]
        exact ⟨.refl r _ _, fun _ hk => absurd hk List.not_mem_nil⟩
    | luks => exact settled_of_luks ih h
    | nvme => cases h
    | storage =>
      intro kind hk
      rw [List.mem_singleton.1 hk]
      exact settled_of_storage h

end Ok

section Settled

variable {rest : List LayerKind} {entries : Report}

theorem drbd_of_settled (htop : r.Settled d .drbd)
    (hbelow : ∃ more, (r.under (r.work rest)).run (d, entries) = (.ok (), d, more)) :
    ∃ more, (r.work (.drbd :: rest)).run (d, entries) = (.ok (), d, more) := by
  obtain ⟨more, hbelow⟩ := hbelow
  have hminor : d.drbd.minors.contains r.name = !r.isDeleted := htop
  rw [work_drbd]
  cases hdeleted : r.isDeleted
  · rw [hdeleted] at hminor
    simp only [Bool.false_eq_true, if_false, DrbdState.allocate_eq_self hminor, hbelow]
    exact ⟨_, rfl⟩
  · rw [hdeleted] at hminor
    simp only [if_true, hbelow, DrbdState.release, SortedMap.erase_eq_self hminor]
    exact ⟨_, rfl⟩

theorem luks_of_settled (htop : r.Settled d .luks)
    (hbelow : ∃ more, (r.work rest).run (d, entries) = (.ok (), d, more)) :
    ∃ more, (r.work (.luks :: rest)).run (d, entries) = (.ok (), d, more) := by
  obtain ⟨hopened, hkey⟩ := htop
  rw [work_luks]
  cases hdeleted : r.isDeleted
  · rw [hdeleted] at hopened
    obtain ⟨_, hopened⟩ := Option.isSome_iff_exists.1 hopened
    obtain ⟨more, hbelow⟩ := hbelow
    simp only [Bool.false_eq_true, if_false, hkey hdeleted, hbelow,
      SortedMap.insert_eq_self hopened]
    exact ⟨_, rfl⟩
  · rw [hdeleted] at hopened
    simp only [if_true, SortedMap.erase_eq_self hopened]
    exact hbelow

theorem storage_of_settled (htop : r.Settled d .storage) :
    ∃ more, (r.work (.storage :: rest)).run (d, entries) = (.ok (), d, more) := by
  rw [work_storage]
  cases hdeleted : r.isDeleted
  · cases hdiskless : r.isDiskless
    · simp only [Settled, hdeleted, hdiskless, Bool.false_eq_true, if_false, false_or] at htop
      simp only [Bool.false_eq_true, if_false, StorageState.addVolumes_eq_self htop]
      exact ⟨_, rfl⟩
    · exact ⟨entries, rfl⟩
  · simp only [Settled, hdeleted, if_true] at htop
    simp only [if_true, StorageState.release_eq_self htop]
    exact ⟨_, rfl⟩

/-- Work on a settled resource comes through and changes nothing. -/
theorem work_of_settled {stack : List LayerKind} (hs : ∀ kind ∈ r.reached stack, r.Settled d kind)
    (entries : Report) : ∃ more, (r.work stack).run (d, entries) = (.ok (), d, more) := by
  induction stack generalizing entries with
  | nil => exact ⟨entries, rfl⟩
  | cons top rest ih =>
    cases top with
    | drbd =>
      refine drbd_of_settled (hs .drbd List.mem_cons_self) ?_
      unfold under
      cases hdiskless : r.isDiskless
      · refine ih (fun kind hk => hs kind ?_) entries
        simp only [reached, hdiskless, Bool.false_eq_true, if_false]
        exact List.mem_cons_of_mem _ hk
      · exact ⟨entries, rfl⟩
    | luks =>
      refine luks_of_settled (hs .luks List.mem_cons_self) ?_
      exact ih (fun kind hk => hs kind (List.mem_cons_of_mem _ hk)) entries
    | nvme => exact (hs .nvme List.mem_cons_self).elim
    | storage => exact storage_of_settled (hs .storage List.mem_cons_self)

end Settled

end Resource

end StorageCluster

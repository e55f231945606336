import StorageCluster.Proofs.Satellite.Batches
import StorageCluster.Proofs.Satellite.Settlement

/-!
# Work on encrypted resources

A valid stack holds the LUKS layer at most once, and never below the storage layer. So what the work
on a resource does to the opened devices is what passing its LUKS layer does, and without the master
key the work on a live resource does not get below that layer, wherever it stands.
-/
namespace StorageCluster

/-! ## Valid stacks -/

namespace Stack

theorem repeated?_eq_none_iff {seen stack : List LayerKind} :
    repeated? seen stack = none ↔ stack.Nodup ∧ ∀ kind ∈ stack, kind ∉ seen := by
  induction stack generalizing seen with
  | nil => simp [repeated?]
  | cons kind rest ih =>
    unfold repeated?
    by_cases hseen : kind ∈ seen
    · simp [hseen]
    · simp only [hseen, if_false, ih, List.mem_cons, List.nodup_cons]
      grind

/-- A valid stack ends with the storage layer and holds no layer twice. -/
theorem validate_eq_ok_iff {stack : List LayerKind} :
    validate stack = .ok () ↔ stack.getLast? = some .storage ∧ stack.Nodup := by
  have hnodup : repeated? [] stack = none ↔ stack.Nodup := by simp [repeated?_eq_none_iff]
  unfold validate
  cases stack.getLast? with
  | none => simp
  | some last =>
    by_cases hlast : last = .storage
    · rw [← hnodup]
      cases repeated? [] stack <;> simp [hlast]
    · simp [hlast]

end Stack

/-! ## The LUKS layer within the work on a resource -/

namespace Resource

variable {r : Resource} {kind : LayerKind} {stack : List LayerKind} {d d' : Devices}

theorem Step.luks_eq (h : r.Step kind d d') (hkind : kind ≠ .luks) : d'.luks = d.luks := by
  cases h <;> first | rfl | exact absurd rfl hkind

theorem work_luks_unreached (h : .luks ∉ r.reached stack) (d : Devices) (entries : Report) :
    ((r.work stack).run (d, entries)).2.1.luks = d.luks :=
  (work_steps r stack d entries).keeps (P := fun now => now.luks = d.luks)
    (fun _ hk _ _ hs hnow => (hs.luks_eq (ne_of_mem_of_not_mem hk h)).trans hnow) rfl

/-- A DRBD layer ends as what is below it does, and changes nothing in other layers. -/
theorem work_drbd_frame (r : Resource) (rest : List LayerKind) (d : Devices) (entries : Report) :
    ∃ now : Devices, now.luks = d.luks ∧ now.storage = d.storage ∧
      let below := (r.under (r.work rest)).run (now, entries)
      let done := (r.work (.drbd :: rest)).run (d, entries)
      done.1 = below.1 ∧ done.2.1.luks = below.2.1.luks ∧
        done.2.1.storage = below.2.1.storage := by
  rw [work_drbd]
  cases r.isDeleted
  · refine ⟨{ d with drbd := (d.drbd.allocate r.name).2 }, rfl, rfl, ?_⟩
    simp only [Bool.false_eq_true, if_false]
    rcases (r.under (r.work rest)).run _ with ⟨_ | _, _⟩ <;> exact ⟨rfl, rfl, rfl⟩
  · refine ⟨d, rfl, rfl, ?_⟩
    simp only [if_true]
    rcases (r.under (r.work rest)).run _ with ⟨_ | _, _⟩ <;> exact ⟨rfl, rfl, rfl⟩

/-- How the LUKS layer is passed: what it makes of the opened devices, and how the work ends. -/
inductive Passes (r : Resource) : LuksState → Except Fault Unit → LuksState → Prop
  | close {luks : LuksState} (outcome : Except Fault Unit) (deleted : r.isDeleted = true) :
    r.Passes luks outcome { luks with opened := luks.opened.erase r.name }
  | refuse {luks : LuksState} (live : r.isDeleted = false) (locked : luks.masterKey = none) :
    r.Passes luks (.error (Luks.keyMissing r.name)) luks
  | fail {luks : LuksState} (fault : Fault) (live : r.isDeleted = false)
    (key : luks.masterKey.isSome = true) : r.Passes luks (.error fault) luks
  | open {luks : LuksState} (live : r.isDeleted = false) (key : luks.masterKey.isSome = true) :
    r.Passes luks (.ok ()) { luks with opened := luks.opened.insert r.name () }

theorem work_passes (hnodup : stack.Nodup) (hreached : .luks ∈ r.reached stack) (d : Devices)
    (entries : Report) :
    let done := (r.work stack).run (d, entries)
    r.Passes d.luks done.1 done.2.1.luks := by
  induction stack generalizing d entries with
  | nil => cases hreached
  | cons kind rest ih =>
    obtain ⟨hfresh, hrest⟩ := List.nodup_cons.1 hnodup
    cases kind with
    | drbd =>
      obtain ⟨hdiskful, hbelow⟩ : r.isDiskless = false ∧ .luks ∈ r.reached rest := by
        simpa [reached] using hreached
      have hunder : r.under (r.work rest) = r.work rest := by simp [under, hdiskful]
      obtain ⟨now, hsame, -, houtcome, hluks, -⟩ := r.work_drbd_frame rest d entries
      rw [hunder] at houtcome hluks
      dsimp only
      rw [houtcome, hluks, ← hsame]
      exact ih hrest hbelow now entries
    | luks =>
      have hbelow (d : Devices) : ((r.work rest).run (d, entries)).2.1.luks = d.luks :=
        work_luks_unreached (fun h => hfresh (r.reached_subset rest h)) d entries
      rw [work_luks]
      cases hdeleted : r.isDeleted
      · simp only [Bool.false_eq_true, if_false]
        cases hkey : d.luks.masterKey with
        | none => exact .refuse hdeleted hkey
        | some key =>
          have h := hbelow d
          have hsome : d.luks.masterKey.isSome = true := by rw [hkey, Option.isSome_some]
          simp only [Option.isNone_some, Bool.false_eq_true, if_false]
          generalize (r.work rest).run _ = after at h ⊢
          rw [← h] at hsome ⊢
          rcases after with ⟨fault | _, now, more⟩
          · exact .fail fault hdeleted hsome
          · exact .open hdeleted hsome
      · simp only [if_true, hbelow]
        exact .close _ hdeleted
    | nvme => cases hreached with | tail _ h => cases h
    | storage => cases hreached with | tail _ h => cases h

/-- A DRBD layer above the LUKS layer stops, since the resource is diskless. -/
def Shielded (r : Resource) (stack : List LayerKind) : Prop :=
  r.isDiskless = true ∧ ∃ above below, stack = above ++ .luks :: below ∧ .drbd ∈ above

theorem Shielded.cons (h : r.Shielded stack) (kind : LayerKind) : r.Shielded (kind :: stack) := by
  obtain ⟨hdiskless, above, below, rfl, hdrbd⟩ := h
  exact ⟨hdiskless, kind :: above, below, rfl, List.mem_cons_of_mem kind hdrbd⟩

/-- Without the key, work on an encrypted resource leaves the storage as it is. It fails, unless a
DRBD layer stops above the LUKS layer. -/
theorem work_locked (hvalid : Stack.validate stack = .ok ()) (hluks : .luks ∈ stack)
    (hlive : r.isDeleted = false) {d : Devices} (hkey : d.luks.masterKey = none)
    (entries : Report) :
    let done := (r.work stack).run (d, entries)
    done.2.1.storage = d.storage ∧
      ((∃ fault, done.1 = .error fault) ∨ (done.1 = .ok () ∧ r.Shielded stack)) := by
  obtain ⟨hlast, hnodup⟩ := Stack.validate_eq_ok_iff.1 hvalid
  clear hvalid
  induction stack generalizing d entries with
  | nil => cases hluks
  | cons kind rest ih =>
    obtain ⟨hfresh, hrest⟩ := List.nodup_cons.1 hnodup
    have hdown (hne : kind ≠ .luks) : .luks ∈ rest ∧ rest.getLast? = some .storage := by
      have hbelow : .luks ∈ rest := (List.mem_cons.1 hluks).resolve_left hne.symm
      cases rest with
      | nil => cases hbelow
      | cons next more => exact ⟨hbelow, by rwa [List.getLast?_cons_cons] at hlast⟩
    cases kind with
    | drbd =>
      obtain ⟨hbelow, hend⟩ := hdown (by decide)
      obtain ⟨now, hsame, hstorage, houtcome, -, hdone⟩ := r.work_drbd_frame rest d entries
      dsimp only
      rw [houtcome, hdone, ← hstorage]
      unfold under
      cases hdiskless : r.isDiskless
      · obtain ⟨hkept, hfailed | ⟨hok, hshielded⟩⟩ :=
          ih hbelow (hsame ▸ hkey) entries hend hrest
        · exact ⟨hkept, .inl hfailed⟩
        · exact ⟨hkept, .inr ⟨hok, hshielded.cons .drbd⟩⟩
      · obtain ⟨above, below, rfl⟩ := List.append_of_mem hbelow
        exact ⟨rfl, .inr ⟨rfl, hdiskless, .drbd :: above, below, rfl, List.mem_cons_self⟩⟩
    | luks =>
      rw [work_luks, hlive, hkey]
      exact ⟨rfl, .inl ⟨_, rfl⟩⟩
    | nvme => exact ⟨rfl, .inl ⟨_, rfl⟩⟩
    | storage =>
      -- nothing stands below the storage layer of a valid stack
      obtain ⟨-, hend⟩ := hdown (by decide)
      exact absurd (List.mem_of_getLast? hend) hfresh

/-- Work on a deleted resource creates no volume. -/
theorem Step.volume_of_deleted (h : r.Step kind d d') (hdeleted : r.isDeleted = true)
    {key : ResourceName × UInt32} {volume : PoolName × Nat}
    (hv : d'.storage.volumes.find? key = some volume) :
    d.storage.volumes.find? key = some volume := by
  cases h with
  | allocate | surrender | unlock | lock => exact hv
  | create live =>
    rw [hdeleted] at live
    cases live
  | remove =>
    cases hname : r.name == key.1 with
    | false => rwa [StorageState.find?_volumes_release hname] at hv
    | true =>
      have hgone := SortedMap.contains_of_find? hv
      rw [StorageState.contains_release, hname] at hgone
      cases hgone

/-- Without the key, no work creates a volume of a name under which all that lives is encrypted. -/
theorem work_volume_locked (hvalid : Stack.validate stack = .ok ()) {name : ResourceName}
    (hluks : (r.name == name) = true → r.isDeleted = false → .luks ∈ stack)
    (hkey : d.luks.masterKey = none) (entries : Report) {number : UInt32}
    {volume : PoolName × Nat} (hv : ((r.work stack).run (d, entries)).2.1.storage.volumes.find?
      (name, number) = some volume) : d.storage.volumes.find? (name, number) = some volume := by
  have hsteps := work_steps r stack d entries
  cases hname : r.name == name with
  | false =>
    have hsame := hsteps.keeps (P := fun now => now.storage.volumes.find? (name, number) =
        d.storage.volumes.find? (name, number))
      (fun _ _ _ _ hs hnow => ((hs.same hname).volume number).trans hnow) rfl
    exact hsame.symm.trans hv
  | true =>
    cases hdeleted : r.isDeleted with
    | false => rwa [(work_locked hvalid (hluks hname hdeleted) hdeleted hkey entries).1] at hv
    | true =>
      exact hsteps.keeps (P := fun now => now.storage.volumes.find? (name, number) = some volume →
          d.storage.volumes.find? (name, number) = some volume)
        (fun _ _ _ _ hs hnow hv => hnow (hs.volume_of_deleted hdeleted hv)) id hv

end Resource

end StorageCluster

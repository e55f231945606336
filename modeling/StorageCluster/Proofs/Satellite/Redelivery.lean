import StorageCluster.Proofs.Satellite.Succession

/-!
# Delivering a batch again

Once a batch was applied without an error, all of its resources are settled, whatever the later ones
did after the earlier ones. Applied again it finds nothing left to do: it reports no error either
and leaves the devices and the memory as they are.
-/
namespace StorageCluster

namespace Devices

variable {plan : StackMemory.Plan} {resources : List Resource} {r : Resource} {d : Devices}

/-- An answer without errors comes from work that came through. -/
theorem ok_of_answer (h : (answer plan d r).hasErrors = false) :
    ∃ stack, plan r = .ok stack ∧ ∃ d' more, (r.work stack).run (d, []) = (.ok (), d', more) := by
  unfold answer at h
  cases hr : plan r with
  | error fault =>
    have herror : fault.toFault.toEntry.isError = true := Fault.isError_toEntry rfl
    simp [hr, Report.hasErrors, Entry.isError_aboutDefinition, herror] at h
  | ok stack =>
    refine ⟨stack, rfl, ?_⟩
    rcases hrun : (r.work stack).run (d, []) with ⟨fault | _, d', more⟩
    · have hfault := (r.work_orderly stack).fault (d, []) fault rfl (by rw [hrun])
      have herror := Fault.isError_toEntry hfault
      simp [hr, hrun, Report.hasErrors, Batch.closing, Entry.isError_aboutDefinition, herror] at h
    · exact ⟨d', more, rfl⟩

theorem advance_ok {stack : List LayerKind} {d' : Devices} {more : Report} (hr : plan r = .ok stack)
    (hrun : (r.work stack).run (d, []) = (.ok (), d', more)) : advance plan d r = d' := by
  simp only [advance, hr, hrun]

/-- Work that comes through gives an answer without errors. -/
theorem answer_ok {stack : List LayerKind} {d' : Devices} {more : Report} (hr : plan r = .ok stack)
    (hrun : (r.work stack).run (d, []) = (.ok (), d', more)) :
    (answer plan d r).hasErrors = false := by
  have hentries := (r.work_orderly stack).entries (d, []) rfl
  rw [hrun] at hentries
  rw [← Bool.not_eq_true] at hentries ⊢
  simp only [answer, hr, hrun, Report.hasErrors_append, not_or]
  refine ⟨hentries, ?_⟩
  simp [Report.hasErrors, Batch.closing, Batch.isError_appliedEntry]

/-- A resource that is answered without an error is settled in all its layers, and remains so while
the others of the batch are worked on. -/
theorem settled_of_answer (hdistinct : resources.Pairwise fun a b => (a.name == b.name) = false)
    (hr : r ∈ resources)
    (hclean : ∀ told ∈ answers plan d resources, told.1 = r.name → told.2.hasErrors = false) :
    ∃ stack, plan r = .ok stack ∧
      ∀ kind ∈ r.reached stack, r.Settled (resources.foldl (advance plan) d) kind := by
  induction resources generalizing d with
  | nil => cases hr
  | cons head rest ih =>
    obtain ⟨hhead, hrest⟩ := List.pairwise_cons.1 hdistinct
    rcases List.mem_cons.1 hr with rfl | hr
    · obtain ⟨stack, hplan, d', more, hrun⟩ := ok_of_answer (hclean _ List.mem_cons_self rfl)
      refine ⟨stack, hplan, fun kind hk => ?_⟩
      rw [List.foldl_cons, advance_ok hplan hrun]
      refine List.foldlRecOn rest _ (motive := fun now => r.Settled now kind)
        (Resource.settled_of_work hrun kind hk) fun now hnow other ho => ?_
      have hname : (other.name == r.name) = false := by rw [Name.beq_comm, hhead other ho]
      exact (advance_steps plan now other).settled_other hname hnow
    · exact ih hrest hr fun told htold => hclean told (List.mem_cons_of_mem _ htold)

/-- Resources that are settled already are worked on without a change. -/
theorem answers_of_settled (hsettled : ∀ r ∈ resources, ∃ stack, plan r = .ok stack ∧
      ∀ kind ∈ r.reached stack, r.Settled d kind) :
    resources.foldl (advance plan) d = d ∧
      ∀ told ∈ answers plan d resources, told.2.hasErrors = false := by
  induction resources with
  | nil => exact ⟨rfl, fun told htold => absurd htold List.not_mem_nil⟩
  | cons r rest ih =>
    obtain ⟨stack, hplan, hown⟩ := hsettled r List.mem_cons_self
    obtain ⟨more, hrun⟩ := Resource.work_of_settled hown []
    obtain ⟨hsame, hclean⟩ := ih fun other ho => hsettled other (List.mem_cons_of_mem r ho)
    rw [List.foldl_cons, answers, advance_ok hplan hrun]
    refine ⟨hsame, fun told htold => ?_⟩
    rcases List.mem_cons.1 htold with rfl | htold
    · exact answer_ok hplan hrun
    · exact hclean told htold

end Devices

/-- A resource that comes with a stack gets that stack, whatever is remembered. -/
theorem StackMemory.stackFor_explicit {r : Resource} (h : r.layerStack.isEmpty = false)
    (m m' : StackMemory) (fullSync fullSync' : Bool) :
    m.stackFor fullSync r = m'.stackFor fullSync' r := by
  unfold stackFor stackOf
  simp [h]

namespace Satellite

open Batch

variable {s : Satellite Devices} {resources : List Resource} {snapshots : List Snapshot}

/-- Every resource of a batch has an answer, and a truthful one. -/
theorem exists_answer (hbuiltIn : s.registry = .builtIn)
    (hdistinct : resources.Pairwise fun a b => (a.name == b.name) = false)
    (snapshots : List Snapshot) {r : Resource} (hr : r ∈ resources) :
    ∃ answer, (r.name, answer) ∈ (s.dispatch resources snapshots).notified ∧
      s.Truthful (s.calls resources snapshots) r answer := by
  have hd := batch_defect hbuiltIn resources snapshots
  have hname := (batch_keys_perm hdistinct hd).mem_iff.2 (List.mem_map_of_mem (f := (·.name)) hr)
  obtain ⟨⟨_, answer⟩, hm, rfl⟩ := List.mem_map.1 hname
  have hnotified := (dispatch_ok hd).1
  refine ⟨answer, ?_, batch_truthful hdistinct hd ?_ hr hm⟩
  · rw [hnotified]
    exact hm
  · rw [hbuiltIn]
    exact Registry.builtIn_orderly

/-- A batch that is answered without errors was ready. -/
theorem ready_of_answers (hbuiltIn : s.registry = .builtIn)
    (hdistinct : resources.Pairwise fun a b => (a.name == b.name) = false)
    (hclean : ∀ told ∈ (s.dispatch resources snapshots).notified, told.2.hasErrors = false) :
    s.Ready resources := by
  have he := s.expansion_expands snapshots hdistinct
  have hd := batch_defect hbuiltIn resources snapshots
  refine (ready_iff hbuiltIn hdistinct snapshots).2 fun kind fault hc => ?_
  have hkind : kind ∈ (s.expansion resources snapshots).arena.kinds := by
    rw [← (run_ok hd).2.1]
    exact List.mem_map_of_mem (f := Prod.fst) hc
  obtain ⟨l, hl, hsame⟩ := List.any_eq_true.1 (List.mem_filter.1 hkind).2
  obtain ⟨hr, hk⟩ := (he.mem_layers l.resource kind).1 ⟨l, hl, rfl, by simpa using hsame⟩
  obtain ⟨answer, hm, htruthful⟩ := exists_answer hbuiltIn hdistinct snapshots hr
  have herror := htruthful.errors.2 (.inr (.inl ⟨kind, hk, .inr ⟨fault, hc⟩⟩))
  rw [hclean _ hm] at herror
  cases herror

/-- Delivering a batch again is harmless. -/
theorem dispatch_redelivered (s : Satellite Devices) (hbuiltIn : s.registry = .builtIn)
    (resources : List Resource) (snapshots : List Snapshot)
    (hdistinct : resources.Pairwise fun a b => (a.name == b.name) = false)
    (hexplicit : ∀ r ∈ resources, r.layerStack.isEmpty = false)
    (hclean : ∀ told ∈ (s.dispatch resources snapshots).notified, told.2.hasErrors = false) :
    let first := s.dispatch resources snapshots
    let second := first.satellite.dispatch resources snapshots
    (∃ report, second.result = .ok report) ∧
      (∀ told ∈ second.notified, told.2.hasErrors = false) ∧
      second.satellite.devices.drbd.minors = first.satellite.devices.drbd.minors ∧
      second.satellite.devices.luks.opened = first.satellite.devices.luks.opened ∧
      second.satellite.devices.storage.volumes = first.satellite.devices.storage.volumes ∧
      second.satellite.devices.storage.pools = first.satellite.devices.storage.pools ∧
      second.satellite.memory = first.satellite.memory := by
  intro first second
  have hready := ready_of_answers hbuiltIn hdistinct hclean
  obtain ⟨_, hdevices, hnotified⟩ := dispatch_ready hbuiltIn hdistinct hready snapshots
  have hstacks : ∀ r ∈ resources, first.satellite.memory.stackFor first.satellite.fullSync r =
      s.memory.stackFor s.fullSync r := fun r hr =>
    StackMemory.stackFor_explicit (hexplicit r hr) ..
  have hsettled : ∀ r ∈ resources, ∃ stack,
      first.satellite.memory.stackFor first.satellite.fullSync r = .ok stack ∧
        ∀ kind ∈ r.reached stack, r.Settled first.satellite.devices.lasting kind := by
    intro r hr
    rw [hstacks r hr, hdevices]
    exact Devices.settled_of_answer hdistinct hr fun told htold _ =>
      hclean told (hnotified.mem_iff.2 htold)
  have hready' : first.satellite.Ready resources :=
    hready.congr hstacks (dispatch_capacity hbuiltIn hdistinct)
  have hbuiltIn' : first.satellite.registry = .builtIn :=
    (dispatch_registry s resources snapshots).1.trans hbuiltIn
  obtain ⟨hresult, hdevices', hnotified'⟩ := dispatch_ready hbuiltIn' hdistinct hready' snapshots
  obtain ⟨hsame, hclean'⟩ := Devices.answers_of_settled hsettled
  rw [hsame] at hdevices'
  refine ⟨hresult, fun told htold => hclean' told (hnotified'.mem_iff.1 htold), ?_, ?_, ?_, ?_, ?_⟩
  · exact congrArg (·.drbd.minors) hdevices'
  · exact congrArg (·.luks.opened) hdevices'
  · exact congrArg (·.storage.volumes) hdevices'
  · exact congrArg (·.storage.pools) hdevices'
  · have hmemory : first.satellite.memory = _ := s.dispatch_memory snapshots hdistinct
    have hmemory' : second.satellite.memory = _ :=
      first.satellite.dispatch_memory snapshots hdistinct
    rw [hmemory', StackMemory.foldl_memorize_congr hstacks, hmemory]
    refine congrArg (fun known => { s.memory with known }) ?_
    refine StackMemory.foldl_memorize_again hdistinct (fun r hr => ?_) _
    obtain ⟨stack, hplan, _⟩ := hsettled r hr
    exact ⟨stack, (hstacks r hr).symm.trans hplan⟩

namespace Sample

def retired : Resource := resource ⟨"retired", by decide⟩ [.drbd, .storage] 8

/-- Holds `retired` and can open encrypted devices. -/
def occupied : Satellite Devices :=
  ({ satellite with devices := { satellite.devices with luks := { masterKey := some "secret" } } :
    Satellite Devices }.dispatch [retired] []).satellite

/-- New resources, of which one is encrypted and one diskless, and the end of `retired`. -/
def replacement : List Resource :=
  [encrypted, { retired with flags := ResourceFlags.delete },
    { resource ⟨"client", by decide⟩ [.drbd, .storage] 64 with
      flags := ResourceFlags.drbdDiskless }]

end Sample

open Satellite.Sample in
theorem dispatch_redelivered_replacement :
    let first := occupied.dispatch replacement []
    let second := first.satellite.dispatch replacement []
    (first.notified.map fun told => (told.1.display, told.2.hasErrors)) =
        [("client", false), ("encrypted", false), ("retired", false)] ∧
      (∀ told ∈ second.notified, told.2.hasErrors = false) ∧
      first.satellite.devices.drbd.minors.keys.map (·.display) = ["client", "encrypted"] ∧
      second.satellite.devices.drbd.minors = first.satellite.devices.drbd.minors := by
  have hbuiltIn : occupied.registry = .builtIn := (dispatch_registry _ _ _).1
  have hdistinct : replacement.Pairwise fun a b => (a.name == b.name) = false := by decide +kernel
  have hexplicit : ∀ r ∈ replacement, r.layerStack.isEmpty = false := by decide +kernel
  have hclean : ∀ told ∈ (occupied.dispatch replacement []).notified,
      told.2.hasErrors = false := by decide +kernel
  obtain ⟨_, hagain, hminors, _⟩ :=
    dispatch_redelivered occupied hbuiltIn replacement [] hdistinct hexplicit hclean
  exact ⟨by decide +kernel, hagain, by decide +kernel, hminors⟩

end Satellite

end StorageCluster

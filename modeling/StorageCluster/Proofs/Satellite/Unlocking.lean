import StorageCluster.Proofs.Satellite.Batches
import StorageCluster.Proofs.Satellite.Encryption

/-!
# Encrypted resources wait for the key

As long as the master key was never set, no batch gets storage for an encrypted resource, and no
device is open. A device that is open was opened by work that came through after the key was set,
and no deletion closed it since.
-/
namespace StorageCluster

/-! ## What opens and closes devices -/

namespace Turn

/-- A turn that opens the device of a name: the work on a live resource gets to the LUKS layer and
comes through. -/
structure Opens (turn : Turn) (name : ResourceName) : Prop where
  named : (turn.resource.name == name) = true
  live : turn.resource.isDeleted = false
  reached : .luks ∈ turn.resource.reached turn.stack
  done : turn.outcome = .ok ()

/-- A turn that closes the device of a name: the deletion gets to the LUKS layer. -/
structure Closes (turn : Turn) (name : ResourceName) : Prop where
  named : (turn.resource.name == name) = true
  deleted : turn.resource.isDeleted = true
  reached : .luks ∈ turn.resource.reached turn.stack

/-- The turn of a live resource that is encrypted. -/
structure Encrypted (turn : Turn) : Prop where
  live : turn.resource.isDeleted = false
  luks : .luks ∈ turn.stack

end Turn

namespace Luks

/-- What happens to a satellite as far as its encrypted devices go. -/
inductive Event
  | key
  | turn (turn : Turn)

/-- The last turn that opened the device of a name came after the key was set, and no turn closed
the device since. -/
def OpenedIn (events : List Event) (name : ResourceName) : Prop :=
  ∃ before turn after, events = before ++ .turn turn :: after ∧ turn.Opens name ∧
    .key ∈ before ∧ ∀ later, .turn later ∈ after → ¬ later.Opens name ∧ ¬ later.Closes name

theorem OpenedIn.append {events : List Event} {name : ResourceName} (h : OpenedIn events name)
    {more : List Event}
    (hmore : ∀ later, .turn later ∈ more → ¬ later.Opens name ∧ ¬ later.Closes name) :
    OpenedIn (events ++ more) name := by
  obtain ⟨before, turn, after, rfl, hopens, hkey, hlater⟩ := h
  refine ⟨before, turn, after ++ more, by simp, hopens, hkey, fun later hm => ?_⟩
  rcases List.mem_append.1 hm with hm | hm
  · exact hlater later hm
  · exact hmore later hm

end Luks

/-- The key and the open devices are what the events account for. -/
structure LuksState.Tracks (luks : LuksState) (events : List Luks.Event) : Prop where
  key : luks.masterKey.isSome = true → .key ∈ events
  opened : ∀ name, luks.opened.contains name = true → Luks.OpenedIn events name

namespace LuksState.Tracks

variable {luks : LuksState} {events : List Luks.Event} {turn : Turn}

/-- A turn that leaves the devices of the LUKS layer alone. -/
theorem idle (h : luks.Tracks events)
    (hidle : ∀ name, ¬ turn.Opens name ∧ ¬ turn.Closes name) :
    luks.Tracks (events ++ [.turn turn]) := by
  refine ⟨fun hkey => List.mem_append_left _ (h.key hkey), fun name hname =>
    (h.opened name hname).append fun later hm => ?_⟩
  cases List.mem_singleton.1 hm
  exact hidle name

theorem pass {luks' : LuksState} {r : Resource} {stack : List LayerKind} {entries : Report}
    {outcome : Except Fault Unit} (h : luks.Tracks events) (hreached : .luks ∈ r.reached stack)
    (hpass : r.Passes luks outcome luks') :
    luks'.Tracks (events ++ [.turn ⟨r, stack, entries, outcome⟩]) := by
  -- what is open under another name was opened before
  have hother {name : ResourceName} (hname : (r.name == name) = false)
      (hopen : luks.opened.contains name = true) :
      Luks.OpenedIn (events ++ [.turn ⟨r, stack, entries, outcome⟩]) name := by
    refine (h.opened name hopen).append fun later hm => ?_
    cases List.mem_singleton.1 hm
    constructor
    · exact fun hopens => Bool.false_ne_true (hname.symm.trans hopens.named)
    · exact fun hcloses => Bool.false_ne_true (hname.symm.trans hcloses.named)
  have hfailed (fault : Fault) (live : r.isDeleted = false) :
      luks.Tracks (events ++ [.turn ⟨r, stack, entries, .error fault⟩]) := by
    refine h.idle fun name => ⟨fun hopens => ?_, fun hcloses => ?_⟩
    · cases hopens.done
    · exact Bool.false_ne_true (live.symm.trans hcloses.deleted)
  cases hpass with
  | close _ deleted =>
    refine ⟨fun hkey => List.mem_append_left _ (h.key hkey), fun name hopen => ?_⟩
    rw [SortedMap.contains_erase, Bool.and_eq_true, bne_iff_ne] at hopen
    refine hother ?_ hopen.2
    rw [Name.beq_comm]
    exact (Name.beq_eq_false_iff _ _).2 hopen.1
  | refuse live => exact hfailed _ live
  | fail fault live => exact hfailed fault live
  | «open» live key =>
    refine ⟨fun hkey => List.mem_append_left _ (h.key hkey), fun name hopen => ?_⟩
    cases hname : r.name == name with
    | true =>
      exact ⟨events, _, [], rfl, ⟨hname, live, hreached, rfl⟩, h.key key, fun _ hm => by cases hm⟩
    | false =>
      refine hother hname ?_
      simpa [SortedMap.contains_insert, Name.compare_ne_of_beq hname] using hopen

end LuksState.Tracks

theorem Devices.Takes.tracks {d d' : Devices} {turns : List Turn} (h : d.Takes turns d')
    (hvalid : ∀ turn ∈ turns, Stack.validate turn.stack = .ok ()) {events : List Luks.Event}
    (htracks : d.luks.Tracks events) : d'.luks.Tracks (events ++ turns.map .turn) := by
  induction h generalizing events with
  | done => simpa using htracks
  | @next d now after turn turns run _ ih =>
    have hnodup := (Stack.validate_eq_ok_iff.1 (hvalid turn List.mem_cons_self)).2
    have hnow : now.luks.Tracks (events ++ [.turn turn]) := by
      by_cases hreached : .luks ∈ turn.resource.reached turn.stack
      · have hpass := Resource.work_passes hnodup hreached d []
        rw [run] at hpass
        exact htracks.pass hreached hpass
      · have hsame := Resource.work_luks_unreached hreached d []
        rw [run] at hsame
        exact hsame ▸ htracks.idle fun name =>
          ⟨fun hopens => hreached hopens.reached, fun hcloses => hreached hcloses.reached⟩
    rw [List.map_cons, List.append_cons]
    exact ih (fun later hlater => hvalid later (List.mem_cons_of_mem turn hlater)) hnow

/-! ## Batches without the key -/

theorem Devices.Takes.masterKey_eq {d d' : Devices} {turns : List Turn} (h : d.Takes turns d') :
    d'.luks.masterKey = d.luks.masterKey :=
  h.keeps (P := fun now => now.luks.masterKey = d.luks.masterKey)
    (fun turn _ now hnow =>
      (Resource.work_steps turn.resource turn.stack now []).masterKey_eq.trans hnow) rfl

namespace Satellite

open Batch

variable {s : Satellite Devices} {resources : List Resource} {snapshots : List Snapshot}
  {events : List Luks.Event}

theorem turn_valid (hbuiltIn : s.registry = .builtIn) {turn : Turn}
    (hturn : turn ∈ s.turns resources snapshots) : Stack.validate turn.stack = .ok () := by
  obtain ⟨root, hroot, -, hstack⟩ := root_of_turn hbuiltIn hturn
  rw [hstack]
  exact ((s.expansion_valid resources snapshots).stackOf
    (s.expansion_laid resources snapshots).woven.linked hroot).1

/-- What a dispatch without the key does for encrypted resources. Names may repeat in the batch. -/
structure Locks (s : Satellite Devices) (resources : List Resource) (snapshots : List Snapshot) :
    Prop where
  answered : ∃ report, (s.dispatch resources snapshots).result = .ok report
  closed : ∀ name, s.devices.luks.opened.contains name = false ∧
    (s.dispatch resources snapshots).satellite.devices.luks.opened.contains name = false
  /-- The turn of an encrypted resource changes nothing in the storage. -/
  spared : ∀ before turn after, s.turns resources snapshots = before ++ turn :: after →
    turn.Encrypted → ∃ now next, s.devices.lasting.Takes before now ∧ now.Takes [turn] next ∧
      next.Takes after (s.dispatch resources snapshots).satellite.devices.lasting ∧
      next.storage = now.storage
  /-- A name under which all that lives is encrypted gets no volume. -/
  kept : ∀ name, (∀ root ∈ (s.expansion resources snapshots).arena.roots,
      (root.resource.name == name) = true → root.resource.isDeleted = false →
        .luks ∈ (s.expansion resources snapshots).arena.stackOf root) →
    ∀ number volume, (s.dispatch resources snapshots).satellite.devices.storage.volumes.find?
        (name, number) = some volume →
      s.devices.storage.volumes.find? (name, number) = some volume
  /-- An error is delivered, unless a DRBD layer stopped above the LUKS layer. -/
  told : ∀ root ∈ (s.expansion resources snapshots).arena.roots, root.resource.isDeleted = false →
    .luks ∈ (s.expansion resources snapshots).arena.stackOf root →
    (∃ answer ∈ (s.dispatch resources snapshots).notified,
      (answer.1 == root.resource.name) = true ∧ answer.2.hasErrors = true) ∨
    ∃ turn ∈ s.turns resources snapshots, turn.resource = root.resource ∧
      turn.stack = (s.expansion resources snapshots).arena.stackOf root ∧ turn.outcome = .ok () ∧
      turn.resource.Shielded turn.stack

section Locked

variable (hbuiltIn : s.registry = .builtIn) (hkey : s.devices.luks.masterKey = none)

include hbuiltIn hkey

/-- The turn of an encrypted resource changes nothing in the storage and fails, unless a DRBD layer
stops it. -/
theorem locked_turn {before after : List Turn} {turn : Turn}
    (hturns : s.turns resources snapshots = before ++ turn :: after) (h : turn.Encrypted) :
    (∃ now next, s.devices.lasting.Takes before now ∧ now.Takes [turn] next ∧
      next.Takes after (s.dispatch resources snapshots).satellite.devices.lasting ∧
      next.storage = now.storage) ∧
    ((∃ fault, turn.outcome = .error fault) ∨
      (turn.outcome = .ok () ∧ turn.resource.Shielded turn.stack)) := by
  have htakes := dispatch_takes hbuiltIn resources snapshots
  have hturn : turn ∈ s.turns resources snapshots := by simp [hturns]
  have hvalid := turn_valid hbuiltIn hturn
  rw [hturns] at htakes
  obtain ⟨now, hbefore, hlater⟩ := htakes.split
  cases hlater with
  | @next _ next _ _ _ run hafter =>
    have hlocked := Resource.work_locked hvalid h.luks h.live (hbefore.masterKey_eq.trans hkey) []
    rw [run] at hlocked
    exact ⟨⟨now, next, hbefore, .next run (.done next), hafter, hlocked.1⟩, hlocked.2⟩

theorem locked_volumes {name : ResourceName}
    (hencrypted : ∀ root ∈ (s.expansion resources snapshots).arena.roots,
      (root.resource.name == name) = true → root.resource.isDeleted = false →
        .luks ∈ (s.expansion resources snapshots).arena.stackOf root) {number : UInt32}
    {volume : PoolName × Nat}
    (hv : (s.dispatch resources snapshots).satellite.devices.storage.volumes.find? (name, number) =
      some volume) : s.devices.storage.volumes.find? (name, number) = some volume := by
  have hkept := (dispatch_takes hbuiltIn resources snapshots).keeps
    (P := fun now => now.luks.masterKey = none ∧
      (now.storage.volumes.find? (name, number) = some volume →
        s.devices.storage.volumes.find? (name, number) = some volume))
    (fun turn hturn now hnow => ?_) ⟨hkey, id⟩
  · exact hkept.2 hv
  · obtain ⟨root, hroot, hr, hstack⟩ := root_of_turn hbuiltIn hturn
    refine ⟨?_, fun hv => hnow.2 ?_⟩
    · exact (Resource.work_steps turn.resource turn.stack now []).masterKey_eq.trans hnow.1
    · refine Resource.work_volume_locked (turn_valid hbuiltIn hturn) ?_ hnow.1 [] hv
      rw [hr, hstack]
      exact hencrypted root hroot

theorem locked_told {root : LayerResource}
    (hroot : root ∈ (s.expansion resources snapshots).arena.roots)
    (hlive : root.resource.isDeleted = false)
    (hluks : .luks ∈ (s.expansion resources snapshots).arena.stackOf root) :
    (∃ answer ∈ (s.dispatch resources snapshots).notified,
      (answer.1 == root.resource.name) = true ∧ answer.2.hasErrors = true) ∨
    ∃ turn ∈ s.turns resources snapshots, turn.resource = root.resource ∧
      turn.stack = (s.expansion resources snapshots).arena.stackOf root ∧ turn.outcome = .ok () ∧
      turn.resource.Shielded turn.stack := by
  have ha := (s.expansion_laid resources snapshots).woven.linked
  have hd := batch_defect hbuiltIn resources snapshots
  by_cases hblocked : root.id ∈ (s.calls resources snapshots).prepares.flatMap
      (blockedBy (s.expansion resources snapshots).arena)
  · -- some layer of the stack is not prepared, and that is told
    obtain ⟨told, hm, hname⟩ := List.mem_map.1 (ha.exists_blocker hroot hblocked)
    obtain ⟨kind, fault, -, l, -, -, htold⟩ := mem_kindLog.1 hm
    have hlog : told ∈ log s.registry (s.expansion resources snapshots) s.start :=
      List.mem_append_left _ (List.mem_append_left _ (List.mem_append_right _ hm))
    obtain ⟨answer, hanswer, hsame, herror⟩ := exists_notified hd hlog
      (by simp [htold, Report.hasErrors, isError_prepareEntry])
    exact .inl ⟨answer, hanswer, hname ▸ hsame, herror⟩
  · obtain ⟨call, hc, rfl⟩ := List.mem_map.1 ((mem_processed_iff hbuiltIn).2 ⟨hroot, hblocked⟩)
    have hturn : call.turn (s.expansion resources snapshots).arena ∈ s.turns resources snapshots :=
      List.mem_map_of_mem hc
    obtain ⟨before, after, hturns⟩ := List.append_of_mem hturn
    rcases (locked_turn hbuiltIn hkey hturns ⟨hlive, hluks⟩).2 with ⟨fault, hfault⟩ | ⟨hok, hshield⟩
    · have hlayer := (calls_orderly (hbuiltIn ▸ Registry.builtIn_orderly) ha s.start call hc).fault
        fault hfault
      have houtcome : call.outcome = .error fault := hfault
      have hlog : (call.root.resource.name, [closing call.root.resource.name call.outcome]) ∈
          log s.registry (s.expansion resources snapshots) s.start :=
        List.mem_append_left _ (List.mem_append_right _ (mem_processLog.2 ⟨call, hc, .inr rfl⟩))
      obtain ⟨answer, hanswer, hsame, herror⟩ := exists_notified hd hlog
        (by simp [Report.hasErrors, closing, houtcome, Entry.isError_aboutDefinition,
          Fault.isError_toEntry hlayer])
      exact .inl ⟨answer, hanswer, hsame, herror⟩
    · exact .inr ⟨_, hturn, rfl, rfl, hok, hshield⟩

end Locked

/-- The lives of satellites with the built-in layers that began without a key and with no device
open. Any batches come, and the key may be set at any time. -/
inductive Lived : List Luks.Event → Satellite Devices → Prop
  | start {s : Satellite Devices} (builtIn : s.registry = .builtIn) (locked : s.devices.luks = {}) :
    Lived [] s
  | dispatch {events : List Luks.Event} {s : Satellite Devices} (before : Lived events s)
    (resources : List Resource) (snapshots : List Snapshot) :
    Lived (events ++ (s.turns resources snapshots).map .turn)
      (s.dispatch resources snapshots).satellite
  | unlock {events : List Luks.Event} {s : Satellite Devices} (before : Lived events s)
    (key : String) : Lived (events ++ [.key]) { s with
      devices := { s.devices with luks := { s.devices.luks with masterKey := some key } } }
  | sync {events : List Luks.Event} {s : Satellite Devices} (before : Lived events s)
    (fullSync : Bool) : Lived events { s with fullSync }

namespace Lived

theorem tracks (h : Lived events s) :
    s.registry = .builtIn ∧ s.devices.luks.Tracks events := by
  induction h with
  | start builtIn locked =>
    refine ⟨builtIn, ?_⟩
    rw [locked]
    constructor
    · intro hkey
      cases hkey
    · intro name hopen
      cases hopen
  | @dispatch events s _ resources snapshots ih =>
    refine ⟨(dispatch_registry s resources snapshots).1.trans ih.1, ?_⟩
    exact (dispatch_takes ih.1 resources snapshots).tracks
      (fun turn hturn => turn_valid ih.1 hturn) (d := s.devices.lasting) ih.2
  | unlock _ key ih =>
    refine ⟨ih.1, fun _ => by simp, fun name hopen => ?_⟩
    exact (ih.2.opened name hopen).append fun later hm => by simp at hm
  | sync _ _ ih => exact ih

theorem masterKey_eq_none (h : Lived events s) (hkey : .key ∉ events) :
    s.devices.luks.masterKey = none := by
  cases hmaster : s.devices.luks.masterKey with
  | none => rfl
  | some key => exact absurd (h.tracks.2.key (by rw [hmaster, Option.isSome_some])) hkey

/-- Before the key is set no device is open. -/
theorem closed (h : Lived events s) (hkey : .key ∉ events) (name : ResourceName) :
    s.devices.luks.opened.contains name = false := by
  rw [← Bool.not_eq_true]
  intro hopen
  obtain ⟨before, turn, after, rfl, -, hbefore, -⟩ := h.tracks.2.opened name hopen
  exact hkey (List.mem_append_left _ hbefore)

/-- A device is open only if work came through its LUKS layer after the key was set, and no deletion
got there since. As long as the key was not set, no batch gets storage for encrypted resources, and
all of them are answered with errors, but for diskless ones that a DRBD layer keeps from it. -/
theorem awaits_key (h : Lived events s) :
    (∀ name, s.devices.luks.opened.contains name = true → Luks.OpenedIn events name) ∧
    (.key ∉ events → ∀ resources snapshots, s.Locks resources snapshots) := by
  obtain ⟨hbuiltIn, htracks⟩ := h.tracks
  refine ⟨htracks.opened, fun hkey resources snapshots => ?_⟩
  have hnone := h.masterKey_eq_none hkey
  have hlater : .key ∉ events ++ (s.turns resources snapshots).map .turn := by simpa using hkey
  exact
    { answered := ⟨_, (dispatch_ok (batch_defect hbuiltIn resources snapshots)).2⟩
      closed := fun name =>
        ⟨h.closed hkey name, (h.dispatch resources snapshots).closed hlater name⟩
      spared := fun _ _ _ hturns hencrypted => (locked_turn hbuiltIn hnone hturns hencrypted).1
      kept := fun _ hencrypted _ _ hv => locked_volumes hbuiltIn hnone hencrypted hv
      told := fun _ hroot hlive hluks => locked_told hbuiltIn hnone hroot hlive hluks }

end Lived

namespace Sample

/-- Is encrypted elsewhere, and has no disk here. -/
def screened : Resource :=
  { resource ⟨"screened", by decide⟩ [.drbd, .luks, .storage] 4 with
    flags := ResourceFlags.drbdDiskless }

def barred : Satellite Devices := (satellite.dispatch [encrypted, fitting] []).satellite

def unlocked : Satellite Devices :=
  { barred with devices :=
    { barred.devices with luks := { barred.devices.luks with masterKey := some "secret" } } }

def admitted : Satellite Devices := (unlocked.dispatch [encrypted] []).satellite

end Sample

open Satellite.Sample in
theorem Lived.awaits_key_encrypted :
    barred.Locks [encrypted, screened] [] ∧
      ((barred.dispatch [encrypted, screened] []).notified.map fun told => told.2.hasErrors) =
        [true, false] ∧
      ∃ events, .key ∈ events ∧ Lived events admitted ∧
        admitted.devices.luks.opened.contains encrypted.name = true ∧
        Luks.OpenedIn events encrypted.name := by
  have hbarred : Lived _ barred := (Lived.start rfl rfl).dispatch [encrypted, fitting] []
  have hadmitted : Lived _ admitted := (hbarred.unlock "secret").dispatch [encrypted] []
  have hopen : admitted.devices.luks.opened.contains encrypted.name = true := by decide +kernel
  refine ⟨(Lived.awaits_key hbarred).2 (by simp) _ _, by decide +kernel, _, ?_, hadmitted, hopen,
    (Lived.awaits_key hadmitted).1 _ hopen⟩
  simp

end Satellite

end StorageCluster

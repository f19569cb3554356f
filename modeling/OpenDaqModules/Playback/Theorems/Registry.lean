import OpenDaqModules.Library.Exec
import OpenDaqModules.Playback.DeviceModule

namespace PlaybackDevice.PlaybackDeviceModule

open EStateM WeakRefs
open Sie (str)

variable {m : PlaybackDeviceModule} {options : Option ModuleOptions} {events : List Event} {e : Event}
variable {connectionString : Bytes} {config : Option DeviceConfig} {id : UInt64} {d : Device}
variable {construction : Except Exception Unit} {max ref : ℕ}

def InUse (m : PlaybackDeviceModule) (id : UInt64) : Prop :=
  ∃ ref d, m.created.Live ref d ∧ d.id = id

-- There is a slot for each device that there may be, and it refers to the one that is in use.
structure Registered (max : ℕ) (m : PlaybackDeviceModule) : Prop where
  length_eq : m.devices.length = max
  tracked   : Tracked (fun d : Device => d.id.toNat) m.created m.devices

theorem create_eq (h : create options = .ok m) : m = {
    options
    maxNumberOfDevices := m.maxNumberOfDevices
    devices            := List.replicate m.maxNumberOfDevices.toNat none } := by
  cases options
  case none => cases h
  case some options =>
    obtain ⟨max, -, hmax⟩ := Except.bind_eq_ok.mp h
    dsimp only at hmax
    split at hmax
    case isTrue => cases hmax
    case isFalse =>
      cases hmax
      rfl

theorem registered_create (h : create options = .ok m) : m.Registered m.maxNumberOfDevices.toNat := by
  rw [create_eq h]
  exact ⟨List.length_replicate, .empty⟩

theorem Registered.clear (h : m.Registered max) : m.clearRemovedDevices.Registered max where
  length_eq := (List.length_map _).trans h.length_eq
  tracked   := h.tracked.clear fun hlive => Heap.live_iff.mpr ⟨_, hlive⟩

theorem Registered.isTaken_clear (h : m.Registered max) :
    m.clearRemovedDevices.isTaken id ↔ m.InUse id := by
  have hrefers := h.clear.tracked.refers_iff (i := id.toNat)
  simp only [UInt64.toNat_inj] at hrefers
  change _ ↔ m.clearRemovedDevices.InUse id
  rw [InUse, ← hrefers, isTaken, Option.isSome_iff_exists]
  constructor
  case mp =>
    rintro ⟨o, ho⟩
    obtain ⟨ref, hslot, -⟩ := Option.bind_eq_some_iff.mp ho
    have hslot := Option.join_eq_some_iff.mp hslot
    obtain ⟨d, hlive⟩ := Heap.live_iff.mp (Tracked.getElem?_clear.mp hslot).right
    exact ⟨ref, d, hslot, hlive⟩
  case mpr =>
    rintro ⟨ref, d, hslot, hlive⟩
    rw [hslot, Option.join_some, Option.bind_some]
    exact ⟨_, hlive.getRef⟩

theorem constructDevice_id (h : m.constructDevice id config construction = .ok d) : d.id = id := by
  obtain ⟨_, -, h⟩ := Except.bind_eq_ok.mp h
  obtain ⟨_, -, h⟩ := Except.bind_eq_ok.mp h
  obtain ⟨_, -, h⟩ := Except.bind_eq_ok.mp h
  cases h
  rfl

theorem checkId_run : (checkId connectionString).run m =
    match getIdFromConnectionString connectionString with
    | .error e => .error e m
    | .ok id   =>
      if id.toNat ≥ m.devices.length then .error .notFound m
      else if m.clearRemovedDevices.isTaken id then .error .alreadyExists m.clearRemovedDevices
      else .ok id m.clearRemovedDevices := by
  rw [checkId, run_bind]
  cases getIdFromConnectionString connectionString
  case error => rfl
  case ok id =>
    simp only [ofExcept_ok, run_pure, run_bind, run_get, run_ite, run_modify]
    rfl

theorem checkId_run_ok (h : m.Registered max)
    (hid : getIdFromConnectionString connectionString = .ok id) (hlt : id.toNat < max)
    (hfree : ¬m.InUse id) : (checkId connectionString).run m = .ok id m.clearRemovedDevices := by
  have hbound : ¬id.toNat ≥ m.devices.length := by rwa [h.length_eq, not_le]
  have htaken : ¬m.clearRemovedDevices.isTaken id := fun htaken => hfree (h.isTaken_clear.mp htaken)
  simp only [checkId_run, hid, if_neg hbound, if_neg htaken]

theorem onCreateDevice_run_ok {m' : PlaybackDeviceModule}
    (hcheck : (checkId connectionString).run m = .ok id m')
    (hdevice : m'.constructDevice id config construction = .ok d) :
    (onCreateDevice connectionString config construction).run m =
      .ok m'.created.length (m'.register d) := by
  simp only [onCreateDevice, run_bind, hcheck, run_get, hdevice, ofExcept_ok, run_pure, run_set]

-- A call that throws may have cleared the slots. One that returns has found a free slot.
inductive Created (m : PlaybackDeviceModule) (connectionString : Bytes) :
    Result Exception PlaybackDeviceModule ℕ → Prop
  | refused (e : Exception) : Created m connectionString (.error e m)
  | cleared (e : Exception) : Created m connectionString (.error e m.clearRemovedDevices)
  | registered {d : Device} (hid : getIdFromConnectionString connectionString = .ok d.id)
    (hlt : d.id.toNat < m.devices.length) (hfree : ¬m.clearRemovedDevices.isTaken d.id) :
    Created m connectionString (.ok m.created.length (m.clearRemovedDevices.register d))

theorem onCreateDevice_created : Created m connectionString
    ((onCreateDevice connectionString config construction).run m) := by
  have hthrows : ∀ {e m'}, (checkId connectionString).run m = .error e m' →
      (onCreateDevice connectionString config construction).run m = .error e m' := by
    intro e m' hcheck
    rw [onCreateDevice, run_bind, hcheck]
  have hcheck : (checkId connectionString).run m = _ := checkId_run
  split at hcheck
  case h_1 e _ =>
    rw [hthrows hcheck]
    exact .refused e
  case h_2 id hid =>
    split at hcheck
    case isTrue =>
      rw [hthrows hcheck]
      exact .refused .notFound
    case isFalse hbound =>
      split at hcheck
      case isTrue =>
        rw [hthrows hcheck]
        exact .cleared .alreadyExists
      case isFalse htaken =>
        cases hdevice : m.clearRemovedDevices.constructDevice id config construction
        case error e =>
          have hrun : (onCreateDevice connectionString config construction).run m =
              .error e m.clearRemovedDevices := by
            simp only [onCreateDevice, run_bind, hcheck, run_get, hdevice, ofExcept_error]
            rfl
          rw [hrun]
          exact .cleared e
        case ok d =>
          rw [onCreateDevice_run_ok hcheck hdevice]
          cases constructDevice_id hdevice
          exact .registered hid (not_le.mp hbound) htaken

theorem Registered.register (h : m.Registered max) (hlt : d.id.toNat < max) (hfree : ¬m.InUse d.id) :
    (m.register d).Registered max where
  length_eq := (List.length_set).trans h.length_eq
  tracked   := by
    refine h.tracked.add (fun {ref d'} hlive hid => hfree ⟨ref, d', hlive, ?_⟩) ?_
    case refine_1 => exact UInt64.toNat_inj.mp hid
    case refine_2 => rwa [h.length_eq]

theorem Event.create_state :
    ((Event.create connectionString config construction).step.run m).state =
      ((onCreateDevice connectionString config construction).run m).state := by
  change ((onCreateDevice connectionString config construction >>= fun _ => pure ()).run m).state = _
  rw [run_bind]
  cases (onCreateDevice connectionString config construction).run m <;> rfl

theorem Event.create_created (connectionString : Bytes) (config : Option DeviceConfig)
    (construction : Except Exception Unit) : ∃ r, Created m connectionString r ∧
      ((Event.create connectionString config construction).step.run m).state = r.state :=
  ⟨_, onCreateDevice_created, Event.create_state⟩

theorem Registered.step (h : m.Registered max) : (e.step.run m).state.Registered max := by
  cases e
  case remove  => exact ⟨h.length_eq, h.tracked.ends Heap.ends_remove⟩
  case destroy => exact ⟨h.length_eq, h.tracked.ends Heap.ends_destroy⟩
  case create connectionString config construction =>
    obtain ⟨r, hcreated, hstate⟩ := Event.create_created (m := m) connectionString config construction
    rw [hstate]
    cases hcreated
    case refused => exact h
    case cleared => exact h.clear
    case registered d _ hlt hfree =>
      refine h.clear.register (h.length_eq ▸ hlt) fun hinUse => hfree ?_
      exact h.isTaken_clear.mpr hinUse

theorem registered_run (h : create options = .ok m) (events : List Event) :
    (Exec.run Event.step events m).Registered m.maxNumberOfDevices.toNat :=
  Exec.run_invariant (registered_create h) fun _ _ _ => Registered.step

-- At most one device of an id is in use, and nothing but such a device keeps its id from being
-- created.
structure Registry (max : ℕ) (m : PlaybackDeviceModule) : Prop where
  unique    : ∀ {ref ref' d d'}, m.created.Live ref d → m.created.Live ref' d' → d.id = d'.id →
    ref = ref'
  below     : ∀ {ref d}, m.created.Live ref d → d.id.toNat < max
  unchanged : ∀ {connectionString config construction},
    let r := (onCreateDevice connectionString config construction).run m
    ¬r.Returns → r.state.created = m.created
  again     : ∀ {connectionString config construction id d},
    getIdFromConnectionString connectionString = .ok id → id.toNat < max → ¬m.InUse id →
      m.constructDevice id config construction = .ok d →
        ∃ ref m', (onCreateDevice connectionString config construction).run m = .ok ref m' ∧
          m'.created.Live ref d
  removed   : ∀ {ref d}, m.created.Live ref d → ¬((Event.remove ref).step.run m).state.InUse d.id
  destroyed : ∀ {ref d}, m.created.Live ref d → ¬((Event.destroy ref).step.run m).state.InUse d.id

theorem Registered.not_inUse (h : m.Registered max) {heap : Heap Device}
    (hends : m.created.Ends heap) (hlive : m.created.Live ref d) (hended : ∀ d, ¬heap.Live ref d) :
    ¬InUse { m with created := heap } d.id := by
  rintro ⟨ref', d', hlive', hid⟩
  cases h.tracked.unique (hends.live hlive') hlive (congrArg UInt64.toNat hid)
  exact hended d' hlive'

theorem registry (h : create options = .ok m) (events : List Event) :
    (Exec.run Event.step events m).Registry m.maxNumberOfDevices.toNat := by
  have hm := registered_run h events
  constructor
  case unique =>
    intro ref ref' d d' hlive hlive' hid
    exact hm.tracked.unique hlive hlive' (congrArg UInt64.toNat hid)
  case below =>
    intro ref d hlive
    exact hm.length_eq ▸ hm.tracked.key_lt hlive
  case unchanged =>
    intro connectionString config construction r hthrows
    have hcreated : Created _ connectionString r := onCreateDevice_created
    generalize r = r at hcreated hthrows
    cases hcreated
    case refused    => rfl
    case cleared    => rfl
    case registered => exact absurd trivial hthrows
  case again =>
    intro connectionString config construction id d hid hlt hfree hdevice
    exact ⟨_, _, onCreateDevice_run_ok (checkId_run_ok hm hid hlt hfree) hdevice, Heap.live_length⟩
  case removed =>
    intro ref d hlive
    exact hm.not_inUse Heap.ends_remove hlive fun _ => Heap.not_live_remove
  case destroyed =>
    intro ref d hlive
    exact hm.not_inUse Heap.ends_destroy hlive fun _ => Heap.not_live_destroy

theorem registry_recreated :
    let create := Event.create (str "daqpb://device1") none (.ok ())
    ∃ m, PlaybackDeviceModule.create (some {}) = .ok m ∧ m.maxNumberOfDevices = 2 ∧
      (Exec.run Event.step [create, .remove 0, create] m).Registry 2 := by
  intro create
  have hm : PlaybackDeviceModule.create (some {}) = .ok ⟨some {}, 2, [none, none], []⟩ := rfl
  exact ⟨_, hm, rfl, registry hm _⟩

end PlaybackDevice.PlaybackDeviceModule

import OpenDaqModules.Playback.Theorems.ConnectionString
import OpenDaqModules.Playback.Theorems.Registry

namespace PlaybackDevice.PlaybackDeviceModule

open EStateM WeakRefs
open Sie (str)

variable {m m₀ : PlaybackDeviceModule} {options : Option ModuleOptions} {events : List Event}
variable {infos order : List DeviceInfo} {info : DeviceInfo} {id id' : UInt64} {d : Device} {e : Event}
variable {max : ℕ}

-- A device is created only with an id that passes the checks, if it is one to be created.
def Event.Passes : Event → PlaybackDeviceModule → Prop
  | .create connectionString _ _, m => ((checkId connectionString).run m).Returns
  | .remove _, _                    => True
  | .destroy _, _                   => True

def creation (config : DeviceInfo → Option DeviceConfig)
    (construction : DeviceInfo → Except Exception Unit) (info : DeviceInfo) : Event :=
  .create info.connectionString (config info) (construction info)

-- In any order, with any configurations, and however the constructors end.
def AllCreatable (m : PlaybackDeviceModule) (infos : List DeviceInfo) : Prop :=
  ∀ order : List DeviceInfo, order.Perm infos → ∀ config construction,
    Exec.Along Event.step Event.Passes (order.map (creation config construction)) m

-- With a serial number one device is advertised, and otherwise two are.
def advertised (options : Option ModuleOptions) : ℕ :=
  if (options.bind ModuleOptions.serialNumber).isSome then 1 else 2

theorem inUse_register : (m.register d).InUse id ↔ m.InUse id ∨ d.id = id := by
  constructor
  case mp =>
    rintro ⟨ref, d', hlive, rfl⟩
    rcases Heap.live_concat hlive with hold | ⟨-, rfl⟩
    · exact .inl ⟨ref, d', hold, rfl⟩
    · exact .inr rfl
  case mpr =>
    rintro (⟨ref, d', hlive, rfl⟩ | rfl)
    · exact ⟨ref, d', hlive.concat d, rfl⟩
    · exact ⟨m.created.length, d, Heap.live_length, rfl⟩

-- No other id is taken by the creation of a device.
theorem inUse_of_create {connectionString : Bytes} {config : Option DeviceConfig}
    {construction : Except Exception Unit}
    (h : ((Event.create connectionString config construction).step.run m).state.InUse id) :
    m.InUse id ∨ getIdFromConnectionString connectionString = .ok id := by
  obtain ⟨r, hcreated, hstate⟩ := Event.create_created (m := m) connectionString config construction
  rw [hstate] at h
  cases hcreated
  case refused => exact .inl h
  case cleared => exact .inl h
  case registered d hid hlt hfree =>
    rcases inUse_register.mp h with hinUse | rfl
    · exact .inl hinUse
    · exact .inr hid

-- Ids that are free and differ from each other can be created one after another.
theorem along_passes (h : m.Registered max)
    (hfree : ∀ info ∈ order, ∃ id, getIdFromConnectionString info.connectionString = .ok id ∧
      id.toNat < max ∧ ¬m.InUse id)
    (hdistinct : order.Pairwise fun info info' =>
      getIdFromConnectionString info.connectionString ≠
        getIdFromConnectionString info'.connectionString)
    (config : DeviceInfo → Option DeviceConfig) (construction : DeviceInfo → Except Exception Unit) :
    Exec.Along Event.step Event.Passes (order.map (creation config construction)) m := by
  induction order generalizing m
  case nil => trivial
  case cons info order ih =>
    obtain ⟨hfirst, hrest⟩ := List.pairwise_cons.mp hdistinct
    constructor
    case left =>
      obtain ⟨id, hid, hlt, hnone⟩ := hfree info List.mem_cons_self
      rw [creation, Event.Passes, checkId_run_ok h hid hlt hnone]
      trivial
    case right =>
      refine ih h.step (fun info' hinfo' => ?_) hrest
      obtain ⟨id, hid, hlt, hnone⟩ := hfree info' (List.mem_cons_of_mem info hinfo')
      refine ⟨id, hid, hlt, fun hinUse => ?_⟩
      rcases inUse_of_create hinUse with hold | hsame
      · exact hnone hold
      · exact hfirst info' hinfo' (hsame.trans hid.symm)

theorem options_step : (e.step.run m).state.options = m.options := by
  cases e
  case remove  => rfl
  case destroy => rfl
  case create connectionString config construction =>
    obtain ⟨r, hcreated, hstate⟩ := Event.create_created (m := m) connectionString config construction
    rw [hstate]
    cases hcreated <;> rfl

theorem options_run (h : create options = .ok m) :
    (Exec.run Event.step events m).options = options := by
  have hoptions : m.options = options := by rw [create_eq h]
  exact Exec.run_invariant (P := fun m : PlaybackDeviceModule => m.options = options) hoptions
    fun _ _ _ hm => options_step.trans hm

theorem of_onGetAvailableDevices (h : m.onGetAvailableDevices = .ok infos) :
    ∃ serialNumber, infos = (List.range (advertised m.options)).map fun i =>
      CreateDeviceInfo (UInt64.ofNat i) serialNumber := by
  rw [onGetAvailableDevices] at h
  cases hserial : m.options.bind ModuleOptions.serialNumber
  case none =>
    rw [hserial] at h
    cases h
    exact ⟨none, by rw [advertised, hserial]; rfl⟩
  case some serialNumber =>
    rw [hserial] at h
    obtain ⟨serialNumber, -, h⟩ := Except.bind_eq_ok.mp h
    cases h
    exact ⟨some serialNumber, by rw [advertised, hserial]; rfl⟩

theorem of_checkId_returns {connectionString : Bytes}
    (h : ((checkId connectionString).run m).Returns) :
    ∃ id, getIdFromConnectionString connectionString = .ok id ∧ id.toNat < m.devices.length := by
  rw [checkId_run] at h
  cases hid : getIdFromConnectionString connectionString
  case error e =>
    rw [hid] at h
    cases h
  case ok id =>
    rw [hid] at h
    refine ⟨id, rfl, not_le.mp fun hbound => ?_⟩
    simp only [ge_iff_le, if_pos hbound] at h
    cases h

theorem advertised_pos_le (options : Option ModuleOptions) :
    0 < advertised options ∧ advertised options ≤ 2 := by
  rw [advertised]
  split <;> decide

theorem getIdFromConnectionString_advertised {i : ℕ} (h : i < 2) (serialNumber : Option Bytes) :
    getIdFromConnectionString (CreateDeviceInfo (UInt64.ofNat i) serialNumber).connectionString =
        .ok (UInt64.ofNat i) ∧ (UInt64.ofNat i).toNat = i := by
  have hi : (UInt64.ofNat i).toNat = i := UInt64.toNat_ofNat'.trans (Nat.mod_eq_of_lt (by omega))
  rw [getIdFromConnectionString_info, if_neg (by omega)]
  exact ⟨rfl, hi⟩

theorem allCreatable_iff (h : create options = .ok m₀) (events : List Event)
    (hnone : ∀ id, ¬(Exec.run Event.step events m₀).InUse id)
    (hinfos : (Exec.run Event.step events m₀).onGetAvailableDevices = .ok infos) :
    (Exec.run Event.step events m₀).AllCreatable infos ↔
      advertised options ≤ m₀.maxNumberOfDevices.toNat := by
  have hm := registered_run h events
  obtain ⟨serialNumber, rfl⟩ := of_onGetAvailableDevices hinfos
  obtain ⟨hpos, htwo⟩ := advertised_pos_le options
  rw [options_run h]
  constructor
  case mp =>
    intro hall
    -- The last one may be created first.
    let info := CreateDeviceInfo (UInt64.ofNat (advertised options - 1)) serialNumber
    have hmem : info ∈ (List.range (advertised options)).map fun i =>
        CreateDeviceInfo (UInt64.ofNat i) serialNumber :=
      List.mem_map.mpr ⟨_, List.mem_range.mpr (by omega), rfl⟩
    have hfirst := (hall _ (List.perm_cons_erase hmem).symm (fun _ => none) fun _ => .ok ()).left
    obtain ⟨id, hid, hlt⟩ := of_checkId_returns hfirst
    obtain ⟨hparsed, hi⟩ := getIdFromConnectionString_advertised
      (show advertised options - 1 < 2 by omega) serialNumber
    cases hid.symm.trans hparsed
    rw [hm.length_eq, hi] at hlt
    omega
  case mpr =>
    intro hle order hperm
    refine along_passes hm (fun info hinfo => ?_) ?_
    case refine_1 =>
      obtain ⟨i, hi, rfl⟩ := List.mem_map.mp (hperm.mem_iff.mp hinfo)
      have hi := List.mem_range.mp hi
      obtain ⟨hparsed, hnat⟩ := getIdFromConnectionString_advertised
        (show i < 2 by omega) serialNumber
      exact ⟨_, hparsed, by omega, hnone _⟩
    case refine_2 =>
      refine (hperm.pairwise_iff fun hne => hne.symm).mpr ?_
      rw [List.pairwise_map]
      refine List.pairwise_lt_range.imp_of_mem fun {i j} hi hj hlt hsame => ?_
      have hi := List.mem_range.mp hi
      have hj := List.mem_range.mp hj
      obtain ⟨hparsed, hnat⟩ := getIdFromConnectionString_advertised
        (show i < 2 by omega) serialNumber
      obtain ⟨hparsed', hnat'⟩ := getIdFromConnectionString_advertised
        (show j < 2 by omega) serialNumber
      rw [hparsed, hparsed'] at hsame
      have hij := congrArg UInt64.toNat (Except.ok.inj hsame)
      omega

theorem allCreatable_iff_default :
    ∃ m infos, create (some {}) = .ok m ∧ m.onGetAvailableDevices = .ok infos ∧
      m.AllCreatable infos := by
  have hm : create (some {}) = .ok ⟨some {}, 2, [none, none], []⟩ := rfl
  have hiff := allCreatable_iff hm [] (by rintro id ⟨ref, d, hlive, -⟩; cases hlive) rfl
  exact ⟨_, _, hm, rfl, hiff.mpr (by decide)⟩

-- The second device is advertised, and there is no slot for it.
theorem not_allCreatable_one_slot :
    ∃ m infos, create (some { maxNumberOfDevices := some (.ok 1) }) = .ok m ∧ m.created = [] ∧
      m.onGetAvailableDevices = .ok infos ∧ ¬m.AllCreatable infos := by
  let m : PlaybackDeviceModule := ⟨some { maxNumberOfDevices := some (.ok 1) }, 1, [none], []⟩
  refine ⟨m, [CreateDeviceInfo 0 none, CreateDeviceInfo 1 none], rfl, rfl, rfl, fun h => ?_⟩
  have hfirst : ((checkId (CreateDeviceInfo 1 none).connectionString).run m).Returns :=
    (h _ (List.Perm.swap _ _ []) (fun _ => none) fun _ => .ok ()).left
  exact absurd hfirst (by decide +kernel)

end PlaybackDevice.PlaybackDeviceModule

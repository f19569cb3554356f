import OpenDaqModules.Library.WeakRefs
import OpenDaqModules.Playback.Platform

namespace PlaybackDevice

open Sie (str)

structure DeviceInfo where
  name             : Bytes
  connectionString : Bytes
  manufacturer     : Bytes
  model            : Bytes
  serialNumber     : Bytes
  deriving DecidableEq

-- `getLength() ? text : nullptr`.
def nonempty? (text : Bytes) : Option Bytes :=
  if text.isEmpty then none else some text

-- The type of the device and the date of its setup are left out.
def CreateDeviceInfo (id : UInt64) (serialNumber : Option Bytes) : DeviceInfo where
  name             := str "Device " ++ Decimal.ofNat id.toNat
  connectionString := str "daqpb://device" ++ Decimal.ofNat id.toNat
  manufacturer     := str "openDAQ"
  model            := str "Playbackerence device"
  serialNumber     :=
    (serialNumber.bind nonempty?).getD (str "DevSer" ++ Decimal.ofNat id.toNat)

inductive Exception
  | invalidParameter
  | notFound
  | alreadyExists
  | outOfRange
  | lengthError
  -- What openDAQ throws where a value has another type, and what the constructor of a device throws.
  | other
  deriving DecidableEq

-- Options and properties that are not set are none. Those that are set may not convert.
structure ModuleOptions where
  maxNumberOfDevices : Option (Except Exception Int64) := none
  serialNumber       : Option (Except Exception Bytes) := none
  localId            : Option (Except Exception Bytes) := none
  name               : Option (Except Exception Bytes) := none

structure DeviceConfig where
  localId : Option (Except Exception Bytes) := none
  name    : Option (Except Exception Bytes) := none

structure Device where
  id      : UInt64
  localId : Bytes
  name    : Option Bytes
  deriving DecidableEq

-- Devices belong to those who asked for them: the module only has weak references to the ones that
-- were created.
structure PlaybackDeviceModule where
  options            : Option ModuleOptions
  maxNumberOfDevices : UInt64
  devices            : List (Option ℕ)
  created            : WeakRefs.Heap Device := []

namespace PlaybackDeviceModule

abbrev Action :=
  EStateM Exception PlaybackDeviceModule

-- Memory suffices for a vector that is not too long.
def create (options : Option ModuleOptions) : Except Exception PlaybackDeviceModule := do
  let some options := options | throw .invalidParameter
  let maxNumberOfDevices := (← options.maxNumberOfDevices.getD (.ok 2)).toUInt64
  if 2 ^ 63 ≤ maxNumberOfDevices.toNat then throw .lengthError
  return {
    options
    maxNumberOfDevices
    devices := List.replicate maxNumberOfDevices.toNat none }

def onGetAvailableDevices (m : PlaybackDeviceModule) : Except Exception (List DeviceInfo) := do
  match m.options.bind ModuleOptions.serialNumber with
  | some serialNumber => return [CreateDeviceInfo 0 (← serialNumber)]
  | none              => return [0, 1].map fun i => CreateDeviceInfo i none

def prefixWithDeviceStr : Bytes :=
  str "daqpb://device"

-- Of the exceptions of `stoi` one is caught.
def catchInvalidArgument : Except Error Int32 → Except Exception UInt64
  | .ok id             => .ok id.toInt64.toUInt64
  | .error .outOfRange => .error .outOfRange
  | .error _           => .error .invalidParameter

def getIdFromConnectionString (connectionString : Bytes) : Except Exception UInt64 :=
  if ¬prefixWithDeviceStr.isPrefixOf connectionString then .error .invalidParameter
  else catchInvalidArgument (stoi (connectionString.drop prefixWithDeviceStr.length))

def clearRemovedDevices (m : PlaybackDeviceModule) : PlaybackDeviceModule where
  __      := m
  devices := m.devices.map
    (·.filter fun ref => (m.created.getRef ref).isSome && !m.created.isRemoved ref)

def isTaken (m : PlaybackDeviceModule) (id : UInt64) : Bool :=
  (m.devices[id.toNat]?.join.bind m.created.getRef).isSome

def checkId (connectionString : Bytes) : Action UInt64 := do
  let id ← MonadExcept.ofExcept (getIdFromConnectionString connectionString)
  if id.toNat ≥ (← get).devices.length then throw .notFound
  else
    modify clearRemovedDevices
    if (← get).isTaken id then throw .alreadyExists
    else return id

structure Naming where
  localId : Option Bytes
  name    : Option Bytes

def Naming.override (naming : Naming) (localId name : Option (Except Exception Bytes)) :
    Except Exception Naming := do
  return {
    localId := ← localId.elim (.ok naming.localId) (Except.map nonempty?)
    name    := ← name.elim (.ok naming.name) (Except.map nonempty?) }

-- Options come after the properties of the configuration. How the constructor of the device ends is
-- up to its environment.
def constructDevice (m : PlaybackDeviceModule) (id : UInt64) (config : Option DeviceConfig)
    (construction : Except Exception Unit) : Except Exception Device := do
  let naming : Naming := ⟨none, some (str "Device " ++ Decimal.ofNat id.toNat)⟩
  let naming ← config.elim (.ok naming) fun config => naming.override config.localId config.name
  let naming ← m.options.elim (.ok naming) fun options => naming.override options.localId options.name
  construction
  return {
    id
    localId := naming.localId.getD (str "PlaybackDev" ++ Decimal.ofNat id.toNat)
    name    := naming.name }

def register (m : PlaybackDeviceModule) (device : Device) : PlaybackDeviceModule where
  __      := m
  devices := m.devices.set device.id.toNat (some m.created.length)
  created := m.created ++ [⟨device, .live⟩]

-- Gives the number of the device among those that were created.
def onCreateDevice (connectionString : Bytes) (config : Option DeviceConfig)
    (construction : Except Exception Unit) : Action ℕ := do
  let id ← checkId connectionString
  let m ← get
  let device ← MonadExcept.ofExcept (m.constructDevice id config construction)
  set (m.register device)
  return m.created.length

-- Devices are removed and destroyed outside of the module.
inductive Event
  | create (connectionString : Bytes) (config : Option DeviceConfig)
    (construction : Except Exception Unit)
  | remove (ref : ℕ)
  | destroy (ref : ℕ)

def Event.step : Event → Action Unit
  | .create connectionString config construction => do
    let _ ← onCreateDevice connectionString config construction
  | .remove ref  => modify fun m => { m with created := m.created.remove ref }
  | .destroy ref => modify fun m => { m with created := m.created.destroy ref }

example : getIdFromConnectionString (str "daqpb://device1") = .ok 1 := by rfl

end PlaybackDeviceModule
end PlaybackDevice

import OpenDaqModules.Playback.FileData

namespace PlaybackDevice

open EStateM Updates
open Platform (Double)
open Sie (str)

variable [Platform] {c : Channel} {f : FileData} {entry : Entry} {es : List Entry} {e : Event}

-- The numbers of a file are of type `int`.
def Entry.OfInts : Entry → Prop
  | .resolution ratio => ∃ numerator denominator : Int32,
      ratio = ⟨numerator.toInt64, denominator.toInt64⟩
  | .deltaT delta     => ∃ number : Int32, delta = number.toInt64.toUInt64
  | _                 => True

structure FileData.OfInts (f : FileData) : Prop where
  resolution : (Entry.resolution f.resolution).OfInts
  deltaT     : (Entry.deltaT f.deltaT).OfInts

theorem FileData.OfInts.after (h : f.OfInts) (hes : ∀ entry ∈ es, entry.OfInts) :
    (f.after es).OfInts := by
  constructor
  case resolution =>
    rw [FileData.after]
    cases hlast : (es.filterMap Entry.resolution?).getLast?
    case none => exact h.resolution
    case some ratio =>
      obtain ⟨entry, hentry, hratio⟩ := List.mem_filterMap.mp (List.mem_of_getLast? hlast)
      have hints := hes entry hentry
      cases entry <;> cases hratio
      exact hints
  case deltaT =>
    rw [FileData.after]
    cases hlast : (es.filterMap Entry.deltaT?).getLast?
    case none => exact h.deltaT
    case some delta =>
      obtain ⟨entry, hentry, hdelta⟩ := List.mem_filterMap.mp (List.mem_of_getLast? hlast)
      have hints := hes entry hentry
      cases entry <;> cases hdelta
      exact hints

end PlaybackDevice

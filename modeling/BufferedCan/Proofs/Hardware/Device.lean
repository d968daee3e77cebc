import BufferedCan.Hardware.Wire
import BufferedCan.Proofs.Hardware.Memory

/-! A program that holds one controller of a wire sees that controller alone. What it leaves behind on
the wire are the new state of the controller and the transfers that it asked for. -/

namespace BufferedCan

namespace Station

def asks (station : Station) (node offset : Nat) : Option Transfer := do
  let word ← Wire.ramWord? offset
  station.request? node word

def device (node : Nat) : Handler registers (Station × List Transfer)
  | .read offset, (station, waiting) =>
    ((station.read offset).1, ((station.read offset).2, waiting))
  | .write offset value, (station, waiting) =>
    ((), (station.write offset value,
      waiting ++ ((station.write offset value).asks node offset).toList))

end Station

namespace Wire

def replace (wire : Wire) (node : Nat) (after : Station × List Transfer) : Wire :=
  ⟨wire.stations.set node after.1, after.2⟩

theorem station_replace (wire : Wire) {node : Nat} (after : Station × List Transfer)
    (bound : node < wire.stations.length) :
    (wire.replace node after).stations[node]? = some after.1 := by
  simp [replace, bound]

theorem station_replace_of_ne (wire : Wire) {node other : Nat} (after : Station × List Transfer)
    (apart : node ≠ other) :
    (wire.replace node after).stations[other]? = wire.stations[other]? := by
  simp [replace, apart]

theorem read_eq {wire : Wire} {node : Nat} {station : Station}
    (present : wire.stations[node]? = some station) (offset : Nat) :
    wire.read node offset =
      ((station.read offset).1, wire.replace node ((station.read offset).2, wire.pending)) := by
  simp only [read, present, replace]

theorem modify_eq {wire : Wire} {node : Nat} {station : Station}
    (present : wire.stations[node]? = some station) (change : Station → Station) :
    wire.modify node change = wire.replace node (change station, wire.pending) := by
  obtain ⟨bound, found⟩ := List.getElem?_eq_some_iff.1 present
  simp only [modify, replace, Wire.mk.injEq, and_true]
  apply List.ext_getElem?
  intro other
  by_cases own : node = other
  · subst other
    simp [bound, found]
  · simp [own]

theorem write_eq {wire : Wire} {node : Nat} {station : Station}
    (present : wire.stations[node]? = some station) (offset : Nat) (value : UInt32) :
    wire.write node offset value =
      wire.replace node (station.write offset value,
        wire.pending ++ ((station.write offset value).asks node offset).toList) := by
  have bound : node < wire.stations.length := (List.getElem?_eq_some_iff.1 present).1
  simp only [write, modify_eq present, request?, station_replace wire _ bound, Station.asks]
  cases ramWord? offset <;> rfl

theorem replace_replace (wire : Wire) (node : Nat) (first second : Station × List Transfer) :
    (wire.replace node first).replace node second = wire.replace node second := by
  simp [replace]

theorem replace_self {wire : Wire} {node : Nat} {station : Station}
    (present : wire.stations[node]? = some station) :
    wire.replace node (station, wire.pending) = wire := by
  obtain ⟨bound, found⟩ := List.getElem?_eq_some_iff.1 present
  simp [replace, ← found]

theorem run_access {α : Type} {node : Nat} {station : Station} (program : Program registers α)
    {wire : Wire} (present : wire.stations[node]? = some station) :
    program.run (access node) wire =
      ((program.run (Station.device node) (station, wire.pending)).1,
        wire.replace node (program.run (Station.device node) (station, wire.pending)).2) := by
  induction program generalizing wire station with
  | done value =>
      obtain ⟨bound, found⟩ := List.getElem?_eq_some_iff.1 present
      simp [Program.run_done, replace, ← found]
  | ask call next ih =>
      have bound : node < wire.stations.length := (List.getElem?_eq_some_iff.1 present).1
      cases call with
      | read offset =>
          simp only [Program.run_ask, access, read_eq present]
          rw [ih _ (station_replace wire _ bound), replace_replace]
          rfl
      | write offset value =>
          simp only [Program.run_ask, access, write_eq present]
          rw [ih _ (station_replace wire _ bound), replace_replace]
          rfl

end Wire

end BufferedCan

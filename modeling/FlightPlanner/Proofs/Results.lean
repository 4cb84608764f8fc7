/-!
# Readings that succeed

A reading in several steps succeeds when each of its steps does, and what is done with a result or to a complaint
afterwards changes nothing about that.
-/

namespace FlightPlanner

/-- A reading in steps succeeds when each step does. -/
theorem bind_eq_ok_iff {ε α β : Type} {first : Except ε α} {next : α → Except ε β} {result : β} :
    first >>= next = .ok result ↔ ∃ value, first = .ok value ∧ next value = .ok result := by
  cases first with
  | error => exact ⟨nofun, nofun⟩
  | ok value => exact ⟨fun h => ⟨value, rfl, h⟩, fun ⟨_, hfirst, h⟩ => Except.ok.inj hfirst ▸ h⟩

/-- A reading that gives something succeeds. -/
theorem exists_eq_ok {ε α : Type} {reading : Except ε α} (h : reading.toOption.isSome = true) :
    ∃ value, reading = .ok value := by
  cases reading with
  | error cause => contradiction
  | ok value => exact ⟨value, rfl⟩

/-- A reading of which something is made succeeds when it does. -/
theorem map_eq_ok_iff {ε α β : Type} {reading : Except ε α} {make : α → β} {result : β} :
    reading.map make = .ok result ↔ ∃ value, reading = .ok value ∧ make value = result := by
  cases reading with
  | error cause => exact ⟨nofun, nofun⟩
  | ok value => exact ⟨fun h => ⟨value, rfl, Except.ok.inj h⟩, fun ⟨_, hvalue, h⟩ => by cases hvalue; rw [← h]; rfl⟩

/-- A reading whose complaints are worded otherwise succeeds when it does. -/
theorem mapError_eq_ok_iff {ε ε' α : Type} {reading : Except ε α} {word : ε → ε'} {result : α} :
    reading.mapError word = .ok result ↔ reading = .ok result := by
  cases reading with
  | error cause => exact ⟨nofun, nofun⟩
  | ok value => exact ⟨fun h => congrArg Except.ok (Except.ok.inj h), fun h => congrArg Except.ok (Except.ok.inj h)⟩

end FlightPlanner

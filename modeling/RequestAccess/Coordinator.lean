import RequestAccess.RenderConfig
import RequestAccess.Table
import RequestAccess.Tracking
import RequestAccess.Work
import RequestAccess.WorkUnit

/-!
# Coordinators

A coordinator decides what an access comes to. Renders may share one.
-/

namespace RequestAccess

/-- Which draft mode a cache scope may read. The host tells by what the work and the unit were made
with, so that it gives one answer as long as a render goes on. -/
structure DraftLookup where
  provider? (work : Work) (unit : Variant) : Option (Key .draft)
  steady (work : Work) (unit : Variant) : provider? work.asMade unit.asMade = provider? work unit

namespace DraftLookup

/-- The one that was forwarded into the scope. -/
def forwarded : DraftLookup where
  provider? _ unit := unit.forwarded?
  steady _ unit := by cases unit <;> rfl

/-- Always the same one, or none. -/
def fixed (provider : Option (Key .draft)) : DraftLookup where
  provider? _ _ := provider
  steady _ _ := rfl

end DraftLookup

/-- How accesses are decided: the settings, who is told of them, and the parts that the host has. -/
structure Coordinator where
  config : RenderConfig := {}
  reporter : Key .reporter
  postponer : Postponer := .tracking
  lookup : DraftLookup := .forwarded

instance : Inhabited Coordinator := ⟨{ reporter := ⟨0⟩ }⟩

/-- The draft mode that a cache scope of the work may read. -/
def Coordinator.draftFor (c : Coordinator) (work : Work) (unit : Variant) : Option (Key .draft) :=
  c.lookup.provider? work unit

theorem Coordinator.draftFor_of_made (c : Coordinator) {work work' : Work} {unit unit' : Variant}
    (hw : work'.asMade = work.asMade) (hu : unit'.asMade = unit.asMade) :
    c.draftFor work' unit' = c.draftFor work unit := by
  unfold draftFor
  rw [← c.lookup.steady, hw, hu, c.lookup.steady]

end RequestAccess

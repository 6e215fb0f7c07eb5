import InlineMarkup.Store

/-!
# Stores in memory

A store in memory never fails. A switchable store loads and saves only while it is told to, and
keeps its collection when a save fails.
-/

namespace InlineMarkup

/-- A collection in memory. -/
structure MemoryStore where
  records : Collection := .empty

instance : Store MemoryStore where
  load s := .ok s.records
  save records _ := (.ok (), ⟨records⟩)

/-- A collection in memory that may be out of reach. -/
structure SwitchableStore where
  records : Collection := .empty
  loadFails : Bool := false
  saveFails : Bool := false

namespace SwitchableStore

/-- The path in the faults of the store. -/
def path : String := "/unavailable/conventions.json"

instance : Store SwitchableStore where
  load s := if s.loadFails then .error (.unreadable path .offline) else .ok s.records
  save records s :=
    if s.saveFails then (.error (.unwritable path .offline), s)
    else (.ok (), { s with records })

end SwitchableStore

end InlineMarkup

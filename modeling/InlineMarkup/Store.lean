import InlineMarkup.Disk
import InlineMarkup.Json.Record

/-!
# Stores

A store keeps one collection of records. It is loaded and saved as a whole, and either may fail.
-/

namespace InlineMarkup

/-- What made a store fail to read or write. -/
inductive StoreCause where
  | disk (fault : Disk.Fault)
  /-- The store cannot be reached. -/
  | offline
deriving DecidableEq, Repr

/-- The message for a cause. -/
def StoreCause.message : StoreCause → String
  | disk fault => fault.message
  | offline => "store offline"

/-- Why a collection was not loaded or saved; `path` is where the store keeps it. -/
inductive StoreFault where
  | unreadable (path : String) (cause : StoreCause)
  | unwritable (path : String) (cause : StoreCause)
  | undecodable (path : String) (fault : Json.Fault)
deriving DecidableEq, Repr

namespace StoreFault

/-- The message for what lies behind a fault. -/
def causeMessage : StoreFault → String
  | unreadable _ cause => cause.message
  | unwritable _ cause => cause.message
  | undecodable _ fault => fault.message

/-- The message for a fault. -/
def message : StoreFault → String
  | unreadable path cause =>
    "Failed to read convention store at " ++ path ++ ": " ++ cause.message
  | unwritable path cause =>
    "Failed to write convention store at " ++ path ++ ": " ++ cause.message
  | undecodable path fault =>
    "Failed to decode convention store at " ++ path ++ ": " ++ fault.message

end StoreFault

/-- States of a store, with loading and saving. -/
class Store (σ : Type) where
  load : σ → Except StoreFault Collection
  /-- Saves a collection; the state afterwards is given in case of a fault, too. -/
  save : Collection → σ → Except StoreFault Unit × σ

end InlineMarkup

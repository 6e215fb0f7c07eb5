import Mathlib.Logic.Function.Basic
import InlineMarkup.Engine
import InlineMarkup.Proofs.Authoring.Drafts
import InlineMarkup.Proofs.Authoring.Plans
import InlineMarkup.Proofs.Authoring.Runs
import InlineMarkup.Proofs.Registry.Active

/-!
# What edits report

The convention that an edit reports carries what the draft says, and it is the convention that
every later rendering finds under its key, read back from the record that was saved. Under all
other keys a later rendering finds what it found before.
-/

namespace InlineMarkup

namespace Collection

/-- From the records `before` to those `after`, lookups among the active and among the custom
conventions change under `key` only, where they now give `found`. No key is listed twice among the
custom conventions, so that nothing is listed that lookups do not show. -/
structure Seen (key : String) (found : Option Convention) (before after : Collection) : Prop where
  active : (Registry.ofCollection after).find? =
    Function.update (Registry.ofCollection before).find? key found
  custom : after.custom? = Function.update before.custom? key found
  ordered : after.customs.Pairwise (·.key < ·.key)

/-- It is enough to know the custom convention under the key, and that the records stored under
other keys are the same. -/
theorem Seen.of_sameBeside {key : String} {found : Option Convention} {before after : Collection}
    (custom : Convention.isBuiltinKey key = false) (here : after.custom? key = found)
    (beside : SameBeside key before after) : Seen key found before after where
  active := by
    apply Function.eq_update_iff.2
    constructor
    · rw [Registry.find?_ofCollection_of_custom custom, here]
    · intro other different
      exact Registry.find?_ofCollection_congr (beside other different)
  custom := by
    apply Function.eq_update_iff.2
    constructor
    · exact here
    · intro other different
      exact custom?_congr (beside other different)
  ordered := pairwise_customs after

end Collection

namespace Request

open Collection (Seen)
open LawfulStore (content)

/-- The draft of the edit, if it has one, was typed. -/
def Typed : Request → Prop
  | submit draft _ => draft.Typed
  | update _ draft => draft.Typed
  | remove _ => True

/-- What the answer of a successful edit says of the records before and after it. -/
inductive Reported (fresh : String) (before after : Collection) : Request → Answer → Prop where
  | created (draft : Draft) (resolution : Resolution) (c : Convention) (key : c.key = fresh)
      (carried : draft.CarriedBy c) (seen : Seen c.key (some c) before after) :
      Reported fresh before after (.submit draft resolution) (.created c)
  | resolved (draft : Draft) (c : Convention) (carried : draft.CarriedBy c)
      (seen : Seen c.key (some c) before after) :
      Reported fresh before after (.submit draft .editExisting) (.updated c)
  | updated (key : String) (draft : Draft) (c : Convention) (named : c.key = key)
      (carried : draft.CarriedBy c) (seen : Seen c.key (some c) before after) :
      Reported fresh before after (.update key draft) (.updated c)
  | removed (key : String) (r : Record) (seen : Seen key none before after) :
      Reported fresh before after (.remove key) (.removed r)

variable {draft : Draft} {request : Request} {fresh key : String} {answer : Answer}
  {records before after : Collection}

/-- A stored draft is seen as the convention it became. -/
theorem seen_store (typed : draft.Typed) (custom : Convention.isBuiltinKey key = false) :
    Seen key (some (draft.toConvention key)) records (store draft key records).2 := by
  -- the record that was written is the one that is read, and it passes every check
  have mem : draft.toConvention key ∈ (store draft key records).2.customs :=
    Collection.mem_customs_iff.2
      ⟨_, find?_store draft key records, rfl, typed.toConvention_record custom⟩
  apply Seen.of_sameBeside custom
  · exact Collection.custom?_eq_some_iff.2 ⟨mem, rfl⟩
  · exact sameBeside_store draft key records

/-- Under the key of a removed record nothing is seen, whatever the record said. -/
theorem seen_erase (custom : Convention.isBuiltinKey key = false) :
    Seen key none records (records.erase key) := by
  apply Seen.of_sameBeside custom
  · apply Collection.custom?_eq_none
    rw [Collection.find?_erase, if_pos rfl]
  · exact records.sameBeside_erase key

theorem Planned.reported (planned : Planned fresh before request answer after)
    (allowed : request.check = .ok ()) (custom : Convention.isBuiltinKey fresh = false)
    (typed : request.Typed) : Reported fresh before after request answer := by
  cases planned with
  | created draft resolution free =>
    exact .created draft resolution _ rfl (draft.carriedBy_toConvention fresh)
      (seen_store typed custom)
  | resolved draft existing others taken notBuiltin =>
    exact .resolved draft _ (draft.carriedBy_toConvention existing.key)
      (seen_store typed notBuiltin)
  | updated key draft stored free =>
    exact .updated key draft _ rfl (draft.carriedBy_toConvention key)
      (seen_store typed (isBuiltinKey_of_check allowed rfl))
  | removed key r stored =>
    exact .removed key r (seen_erase (isBuiltinKey_of_check allowed rfl))

end Request

namespace Engine

open LawfulStore (content)

variable {σ : Type} [Store σ]

/-- What the engine reads from a store comes from `records`, unless the store cannot be loaded. -/
inductive Reads (s : σ) (records : Collection) : Prop where
  | failed (fault : StoreFault) (registry : loadRegistry s = .error fault)
      (customs : Engine.customs s = .error fault)
  | loaded (registry : loadRegistry s = .ok (.ofCollection records, Warning.ofCollection records))
      (customs : Engine.customs s = .ok records.customs)

theorem reads_content [LawfulStore σ] (s : σ) : Reads s (content s) := by
  cases loaded : Store.load s with
  | error fault =>
    apply Reads.failed fault
    · rw [loadRegistry, loaded]
      rfl
    · rw [customs, loaded]
      rfl
  | ok records =>
    rw [← LawfulStore.eq_content_of_load loaded]
    apply Reads.loaded
    · rw [loadRegistry, loaded]
      rfl
    · rw [customs, loaded, records.customs_eq_filterMap_filter]
      rfl

end Engine

namespace Request

open LawfulStore (content)

/-- When an edit with a typed draft succeeds, the convention it reports carries the draft, and is
what is found under its key from then on, as long as the store holds the same; under the key of a
removed record nothing is found, and under other keys what was found before. -/
theorem run_reported {σ : Type} [Store σ] [LawfulStore σ] {request : Request} {random : Bytes}
    {s s' : σ} {answer : Answer} (typed : request.Typed)
    (done : request.run (Key.ofRandom random) s = (.ok answer, s')) :
    Reported (Key.ofRandom random) (content s) (content s') request answer ∧
      ∀ later : σ, content later = content s' → Engine.Reads later (content s') := by
  constructor
  · have outcome := outcome_run request (Key.ofRandom random) s
    rw [done] at outcome
    cases outcome with
    | done answer records s' allowed planned saved =>
      rw [saved]
      exact (planned_of_plan_eq_ok planned).reported allowed (Key.isBuiltinKey_ofRandom random)
        typed
  · intro later kept
    rw [← kept]
    exact Engine.reads_content later

/-- A record that names another key than its own is not active. Once it is updated, the draft is
active in its place. -/
theorem run_reported_misfiled :
    let draft : Draft :=
      ⟨⟨"<*", "*<"⟩, .literal "#abc", .none, "<*text*<", "a note", "<*example*<"⟩
    let misfiled : Record :=
      { key := "custom-b", opening := "+", closing := "+", color := "keyword" }
    let s : SwitchableStore := { records := Collection.empty.insert "custom-a" misfiled }
    let s' := (run (.update "custom-a" draft) (Key.ofRandom []) s).2
    s.records.custom? "custom-a" = none ∧
      Reported (Key.ofRandom []) s.records s'.records (.update "custom-a" draft)
        (.updated (draft.toConvention "custom-a")) ∧
      Engine.Reads { s' with saveFails := true } s'.records := by
  intro draft misfiled s s'
  have made : draft.Typed := ⟨"<*", " #AbC ", .none, _, "a note", "<*example*<", rfl, rfl⟩
  have typed : Typed (.update "custom-a" draft) := made
  have done : run (.update "custom-a" draft) (Key.ofRandom []) s =
      (.ok (.updated (draft.toConvention "custom-a")), s') := rfl
  obtain ⟨reported, reads⟩ := run_reported typed done
  refine ⟨?_, reported, ?_⟩
  · decide
  · exact reads { s' with saveFails := true } rfl

end Request

end InlineMarkup

import InlineMarkup.Authoring.Key
import InlineMarkup.Authoring.Request

/-!
# What plans do

A plan that succeeds stores one draft or removes one record. `Planned` has a constructor for each
way in which that happens, with the conditions under which it does; whatever is said about edits
is said about these four.
-/

namespace InlineMarkup

/-- New conventions have keys that are not reserved. -/
theorem Key.isBuiltinKey_ofRandom (random : Bytes) :
    Convention.isBuiltinKey (ofRandom random) = false := by
  have first : (ofRandom random).toList.head? = some 'c' := by
    rw [ofRandom, String.toList_append]
    rfl
  have others : ∀ key ∈ Convention.builtinKeys, key.toList.head? ≠ some 'c' := by decide
  rw [Convention.isBuiltinKey, ← Bool.not_eq_true, List.contains_iff_mem]
  intro reserved
  exact others _ reserved first

namespace Collection

/-- Under every key but one the collections hold the same. -/
def SameBeside (key : String) (before after : Collection) : Prop :=
  ∀ other, other ≠ key → after.find? other = before.find? other

theorem sameBeside_insert (records : Collection) (key : String) (r : Record) :
    SameBeside key records (records.insert key r) := by
  intro other different
  rw [find?_insert, if_neg different]

theorem sameBeside_erase (records : Collection) (key : String) :
    SameBeside key records (records.erase key) := by
  intro other different
  rw [find?_erase, if_neg different]

end Collection

namespace Request

open Collection (SameBeside)

variable {request : Request} {fresh key : String} {answer : Answer} {before after : Collection}

theorem find?_store (draft : Draft) (key : String) (records : Collection) :
    (store draft key records).2.find? key = some (.ofConvention (draft.toConvention key)) := by
  rw [store, Collection.find?_insert, if_pos rfl]

theorem sameBeside_store (draft : Draft) (key : String) (records : Collection) :
    SameBeside key records (store draft key records).2 :=
  Collection.sameBeside_insert records key _

/-- The ways in which a plan succeeds, with the answer it gives and the records it leaves. -/
inductive Planned (fresh : String) (before : Collection) :
    Request → Answer → Collection → Prop where
  /-- Nothing uses the delimiters. -/
  | created (draft : Draft) (resolution : Resolution)
      (free : (Registry.ofCollection before).conflicts draft.delimiters = []) :
      Planned fresh before (.submit draft resolution) (.created (draft.toConvention fresh))
        (store draft fresh before).2
  /-- The first convention that uses the delimiters is a custom one. -/
  | resolved (draft : Draft) (existing : Convention) (others : List Convention)
      (taken : (Registry.ofCollection before).conflicts draft.delimiters = existing :: others)
      (custom : existing.isBuiltin = false) :
      Planned fresh before (.submit draft .editExisting)
        (.updated (draft.toConvention existing.key)) (store draft existing.key before).2
  /-- There is a record, and nothing else uses the delimiters. -/
  | updated (key : String) (draft : Draft) (stored : before.contains key)
      (free : (Registry.ofCollection before).conflictsBeside key draft.delimiters = []) :
      Planned fresh before (.update key draft) (.updated (draft.toConvention key))
        (store draft key before).2
  /-- There is a record. -/
  | removed (key : String) (r : Record) (stored : before.find? key = some r) :
      Planned fresh before (.remove key) (.removed r) (before.erase key)

/-- A plan succeeds in one of the four ways only. -/
theorem planned_of_plan_eq_ok (h : request.plan fresh before = .ok (answer, after)) :
    Planned fresh before request answer after := by
  cases request with
  | submit draft resolution =>
    rw [plan, planSubmit] at h
    split at h
    · rename_i free
      cases h
      exact .created draft resolution free
    · rename_i existing others taken
      cases resolution with
      | reject => cases h
      | editExisting =>
        dsimp only at h
        split at h
        · cases h
        · rename_i custom
          cases h
          exact .resolved draft existing others taken (eq_false_of_ne_true custom)
  | update key draft =>
    rw [plan, planUpdate] at h
    split at h
    · rename_i stored
      split at h
      · rename_i free
        cases h
        exact .updated key draft stored free
      · cases h
    · cases h
  | remove key =>
    rw [plan, planRemove] at h
    split at h
    · rename_i r stored
      cases h
      exact .removed key r stored
    · cases h

/-- Edits that name a reserved key are not carried out. -/
theorem isBuiltinKey_of_check (allowed : request.check = .ok ()) (named : request.key? = some key) :
    Convention.isBuiltinKey key = false := by
  rw [check, named] at allowed
  dsimp only at allowed
  split at allowed
  · cases allowed
  · rename_i custom
    exact eq_false_of_ne_true custom

end Request

end InlineMarkup

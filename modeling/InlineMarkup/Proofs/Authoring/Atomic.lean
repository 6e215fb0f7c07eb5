import InlineMarkup.Proofs.Authoring.Plans
import InlineMarkup.Proofs.Authoring.Runs

/-!
# Edits are atomic

An edit that fails leaves the records of a store as they were, wherever it fails. One that
succeeds changes what is stored under one key, which is not a reserved one; all other records
stay, those included that no registry would hold.
-/

namespace InlineMarkup

namespace Request

open Collection (SameBeside)
open LawfulStore (content)

/-- A success that concerns the records under `key` only. -/
structure ConcernsOnly (key : String) (request : Request) (answer : Answer)
    (before after : Collection) : Prop where
  custom : Convention.isBuiltinKey key = false
  named : ∀ name, request.key? = some name → name = key
  same : SameBeside key before after
  removed : request = .remove key →
    ∃ r, answer = .removed r ∧ before.find? key = some r ∧ after.find? key = none

/-- What a successful plan concerns: the fresh key, that of the convention in the way, or the one
that the edit names. -/
theorem Planned.concernsOnly {request : Request} {fresh : String} {answer : Answer}
    {before after : Collection} (planned : Planned fresh before request answer after)
    (allowed : request.check = .ok ()) (custom : Convention.isBuiltinKey fresh = false) :
    ∃ key, ConcernsOnly key request answer before after := by
  cases planned with
  | created draft resolution free =>
    exact ⟨fresh, custom, nofun, sameBeside_store draft fresh before, nofun⟩
  | resolved draft existing others taken notBuiltin =>
    exact ⟨existing.key, notBuiltin, nofun, sameBeside_store draft existing.key before, nofun⟩
  | updated key draft stored free =>
    refine ⟨key, isBuiltinKey_of_check allowed rfl, ?_, sameBeside_store draft key before, nofun⟩
    intro name named
    cases named
    rfl
  | removed key r stored =>
    have gone : (before.erase key).find? key = none := by rw [Collection.find?_erase, if_pos rfl]
    refine ⟨key, isBuiltinKey_of_check allowed rfl, ?_, before.sameBeside_erase key, ?_⟩
    · intro name named
      cases named
      rfl
    · intro _
      exact ⟨r, rfl, stored, gone⟩

variable {σ : Type} [Store σ] [LawfulStore σ]

/-- Whatever a store holds and whichever of its loads and saves fail: an edit that fails leaves
the records as they were, and one that succeeds concerns a single key, which is not reserved. So
nothing is ever stored under a reserved key, changed there or taken away. -/
theorem run_atomic (request : Request) (random : Bytes) (s : σ) :
    (match request.run (Key.ofRandom random) s with
      | (.error _, s') => content s' = content s
      | (.ok answer, s') => ∃ key, ConcernsOnly key request answer (content s) (content s')) ∧
    ∀ key, Convention.isBuiltinKey key →
      (content (request.run (Key.ofRandom random) s).2).find? key = (content s).find? key := by
  have outcome := outcome_run request (Key.ofRandom random) s
  generalize request.run (Key.ofRandom random) s = result at outcome ⊢
  cases outcome with
  | refused fault s' same =>
    refine ⟨same, ?_⟩
    intro key _
    rw [same]
  | done answer records s' allowed planned saved =>
    have concerns := (planned_of_plan_eq_ok planned).concernsOnly allowed
      (Key.isBuiltinKey_ofRandom random)
    rw [← saved] at concerns
    refine ⟨concerns, ?_⟩
    intro key reserved
    obtain ⟨changed, only⟩ := concerns
    apply only.same
    rintro rfl
    rw [only.custom] at reserved
    cases reserved

end Request

end InlineMarkup

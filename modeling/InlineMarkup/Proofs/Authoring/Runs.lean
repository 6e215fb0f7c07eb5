import InlineMarkup.Authoring.Request
import InlineMarkup.Store.Memory

/-!
# Runs of edits

What a store promises, and what follows for an edit carried out on it: either the store keeps its
content, or it holds what the edit was planned to leave. `Run` carries out edits one after
another, on a store whose loads and saves may begin to fail, and cease to, at any time.
-/

namespace InlineMarkup

/-- A store that loads what it holds, holds what was saved, and holds what it held before when a
save fails. -/
class LawfulStore (σ : Type) [Store σ] where
  content : σ → Collection
  eq_content_of_load : ∀ {s : σ} {records : Collection},
    Store.load s = .ok records → records = content s
  content_of_save_ok : ∀ {s s' : σ} {records : Collection},
    Store.save records s = (.ok (), s') → content s' = records
  content_of_save_error : ∀ {s s' : σ} {records : Collection} {fault : StoreFault},
    Store.save records s = (.error fault, s') → content s' = content s

instance : LawfulStore MemoryStore where
  content s := s.records
  eq_content_of_load loaded := by
    cases loaded
    rfl
  content_of_save_ok saved := by
    cases saved
    rfl
  content_of_save_error saved := by cases saved

instance : LawfulStore SwitchableStore where
  content s := s.records
  eq_content_of_load {s records} loaded := by
    obtain ⟨held, loadFails, saveFails⟩ := s
    cases loadFails
    · cases loaded
      rfl
    · cases loaded
  content_of_save_ok {s s' records} saved := by
    obtain ⟨held, loadFails, saveFails⟩ := s
    cases saveFails
    · cases saved
      rfl
    · cases saved
  content_of_save_error {s s' records fault} saved := by
    obtain ⟨held, loadFails, saveFails⟩ := s
    cases saveFails
    · cases saved
    · cases saved
      rfl

namespace Request

open LawfulStore (content)

section Plan

variable {σ : Type} [Store σ] {request : Request} {fresh : String} {s : σ} {records : Collection}
  (allowed : request.check = .ok ()) (loaded : Store.load s = .ok records)
include allowed loaded

theorem run_of_plan_eq_error {fault : AuthoringFault}
    (refused : request.plan fresh records = .error fault) :
    request.run fresh s = (.error fault, s) := by
  rw [run, allowed, loaded]
  dsimp only
  rw [refused]

theorem run_of_plan_eq_ok {answer : Answer} {after : Collection} {s' : σ}
    (planned : request.plan fresh records = .ok (answer, after))
    (saved : Store.save after s = (.ok (), s')) : request.run fresh s = (.ok answer, s') := by
  rw [run, allowed, loaded]
  dsimp only
  rw [planned]
  dsimp only
  rw [saved]

end Plan

variable {σ : Type} [Store σ] [LawfulStore σ]

/-- What comes of an edit carried out on `s`. -/
inductive Outcome (request : Request) (fresh : String) (s : σ) :
    Except AuthoringFault Answer × σ → Prop where
  | refused (fault : AuthoringFault) (s' : σ) (same : content s' = content s) :
      Outcome request fresh s (.error fault, s')
  | done (answer : Answer) (records : Collection) (s' : σ) (allowed : request.check = .ok ())
      (planned : request.plan fresh (content s) = .ok (answer, records))
      (saved : content s' = records) :
      Outcome request fresh s (.ok answer, s')

theorem outcome_run (request : Request) (fresh : String) (s : σ) :
    Outcome request fresh s (request.run fresh s) := by
  unfold run
  split
  · exact .refused _ s rfl
  · rename_i allowed
    split
    · exact .refused _ s rfl
    · rename_i records loaded
      rw [LawfulStore.eq_content_of_load loaded]
      split
      · exact .refused _ s rfl
      · rename_i answer records' planned
        split
        · rename_i fault s' failed
          exact .refused _ s' (LawfulStore.content_of_save_error failed)
        · rename_i s' saved
          exact .done answer records' s' allowed planned (LawfulStore.content_of_save_ok saved)

/-- A store may come from `s` to `s'` by edits. Between two of them nothing but its content is
sure to stay. -/
inductive Run (s : σ) : σ → Prop where
  | start : Run s s
  | edit {s' : σ} (run : Run s s') (request : Request) (fresh : String) :
      Run s (request.run fresh s').2
  | drift {s' s'' : σ} (run : Run s s') (same : content s'' = content s') : Run s s''

/-- What every successful plan keeps between the records before and after is kept by runs. -/
theorem Run.preserves {P : Collection → Collection → Prop} (refl : ∀ records, P records records)
    (trans : ∀ {a b c}, P a b → P b c → P a c)
    (step : ∀ {request : Request} {fresh answer before after}, request.check = .ok () →
      request.plan fresh before = .ok (answer, after) → P before after)
    {s s' : σ} (run : Run s s') : P (content s) (content s') := by
  induction run with
  | start => exact refl _
  | @edit s' run request fresh ih =>
    refine trans ih ?_
    cases eq : request.run fresh s' with
    | mk result s'' =>
      have outcome := outcome_run request fresh s'
      rw [eq] at outcome
      cases outcome with
      | refused fault s'' same => exact same ▸ refl _
      | done answer records s'' allowed planned saved => exact saved ▸ step allowed planned
  | drift run same ih => exact same ▸ ih

end Request

end InlineMarkup

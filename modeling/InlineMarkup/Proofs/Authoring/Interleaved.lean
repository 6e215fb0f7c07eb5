import Mathlib.Logic.Function.Basic
import InlineMarkup.Proofs.Authoring.Clash
import InlineMarkup.Proofs.Authoring.Drafts

/-!
# Two edits at once

An edit accesses its store twice: it loads the records that it plans with, and it saves those that
it planned. Two authors may take turns in any order (`Shared.play`). Unless both load before either
saves, all is as if one edit came after the other. If they do and both edits succeed, the later
save overwrites what the earlier one changed, and both authors are told that their edit was done.
-/

namespace InlineMarkup

/-- The convention that a successful edit reports. -/
def Answer.convention? : Answer → Option Convention
  | created made => some made
  | updated made => some made
  | removed _ => none

namespace Request

/-! ## Accesses one by one -/

/-- How far an edit has come. -/
inductive Progress where
  | waiting
  /-- The store was loaded, and the edit is going to save the records that it planned. -/
  | planned (answer : Answer) (records : Collection)
  | ended (result : Except AuthoringFault Answer)
deriving DecidableEq

/-- How many accesses to the store an edit may still make. -/
def Progress.left : Progress → Nat
  | waiting => 2
  | planned .. => 1
  | ended _ => 0

theorem Progress.ended_of_left_eq_zero {p : Progress} (h : p.left = 0) :
    ∃ result, p = .ended result := by
  cases p with
  | waiting => cases h
  | planned answer records => cases h
  | ended result => exact ⟨result, rfl⟩

/-- An edit of an author, with the key of a convention that it may create. -/
structure Call where
  request : Request
  fresh : String

namespace Call

variable {σ : Type} [Store σ]

/-- The edit as a whole. -/
def run (c : Call) (s : σ) : Except AuthoringFault Answer × σ :=
  c.request.run c.fresh s

/-- How far the edit comes by loading the store. -/
def load (c : Call) (s : σ) : Progress :=
  match c.request.check with
  | .error fault => .ended (.error fault)
  | .ok () =>
    match Store.load s with
    | .error fault => .ended (.error (.store fault))
    | .ok records =>
      match c.request.plan c.fresh records with
      | .error fault => .ended (.error fault)
      | .ok (answer, records) => .planned answer records

/-- What comes of saving the records that were planned. -/
def save (answer : Answer) (records : Collection) (s : σ) : Except AuthoringFault Answer × σ :=
  match Store.save records s with
  | (.error fault, s) => (.error (.store fault), s)
  | (.ok (), s) => (.ok answer, s)

/-- The next access to the store. -/
def advance (c : Call) : Progress → σ → Progress × σ
  | .waiting, s => (c.load s, s)
  | .planned answer records, s => ((.ended (save answer records s).1), (save answer records s).2)
  | .ended result, s => (.ended result, s)

/-- What comes of the edit if nobody else accesses the store from now on. -/
def finish (c : Call) : Progress → σ → Except AuthoringFault Answer × σ
  | .waiting, s => c.run s
  | .planned answer records, s => save answer records s
  | .ended result, s => (result, s)

/-- The two accesses one after the other are the edit. -/
theorem finish_load (c : Call) (s : σ) : c.finish (c.load s) s = c.run s := by
  simp only [load, run, Request.run]
  cases c.request.check with
  | error fault => rfl
  | ok _ =>
    cases Store.load s with
    | error fault => rfl
    | ok records =>
      dsimp only
      cases c.request.plan c.fresh records with
      | error fault => rfl
      | ok planned => rfl

theorem finish_advance (c : Call) (p : Progress) (s : σ) :
    c.finish (c.advance p s).1 (c.advance p s).2 = c.finish p s := by
  cases p with
  | waiting => exact c.finish_load s
  | planned answer records => rfl
  | ended result => rfl

/-- After it has loaded the store, an edit is refused or planned. -/
inductive Loaded (c : Call) (s : σ) : Progress → Prop where
  | refused (fault : AuthoringFault) (alone : c.run s = (.error fault, s)) :
      Loaded c s (.ended (.error fault))
  | planned (answer : Answer) (before after : Collection) (loaded : Store.load s = .ok before)
      (allowed : c.request.check = .ok ())
      (planned : c.request.plan c.fresh before = .ok (answer, after)) :
      Loaded c s (.planned answer after)

theorem loaded_load (c : Call) (s : σ) : c.Loaded s (c.load s) := by
  have alone := c.finish_load s
  unfold load at alone ⊢
  cases allowed : c.request.check with
  | error fault =>
    rw [allowed] at alone
    exact .refused fault alone.symm
  | ok _ =>
    rw [allowed] at alone
    cases loaded : Store.load s with
    | error fault =>
      rw [loaded] at alone
      exact .refused _ alone.symm
    | ok before =>
      rw [loaded] at alone
      dsimp only at alone ⊢
      cases planned : c.request.plan c.fresh before with
      | error fault =>
        rw [planned] at alone
        exact .refused fault alone.symm
      | ok result => exact .planned result.1 before result.2 loaded allowed planned

theorem left_advance (c : Call) (p : Progress) (s : σ) : (c.advance p s).1.left ≤ p.left - 1 := by
  cases p with
  | waiting =>
    have loaded := c.loaded_load s
    change (c.load s).left ≤ 1
    generalize c.load s = p at loaded ⊢
    cases loaded with
    | refused fault alone => exact Nat.zero_le _
    | planned answer before after loaded allowed planned => exact Nat.le_refl _
  | planned answer records => exact Nat.le_refl _
  | ended result => exact Nat.le_refl _

end Call

/-! ## Taking turns -/

/-- Two authors. -/
inductive Author where
  | first
  | second
deriving DecidableEq, Repr

namespace Author

/-- The other one of the two. -/
def other : Author → Author
  | first => second
  | second => first

@[simp]
theorem other_other (x : Author) : x.other.other = x := by
  cases x <;> rfl

theorem other_ne (x : Author) : x.other ≠ x := by
  cases x <;> nofun

theorem eq_or_eq_other (x y : Author) : y = x ∨ y = x.other := by
  cases x <;> cases y <;> simp [other]

end Author

/-- A store that two authors edit, and how far each has come. -/
structure Shared (σ : Type) where
  store : σ
  progress : Author → Progress

namespace Shared

variable {σ : Type} [Store σ]

/-- Nobody has accessed the store. -/
def start (s : σ) : Shared σ := ⟨s, fun _ => .waiting⟩

/-- The next access of an author. -/
def turn (calls : Author → Call) (state : Shared σ) (x : Author) : Shared σ :=
  let next := (calls x).advance (state.progress x) state.store
  ⟨next.2, Function.update state.progress x next.1⟩

/-- Authors access the store in the order of the list. -/
def play (calls : Author → Call) (turns : List Author) (state : Shared σ) : Shared σ :=
  turns.foldl (turn calls) state

/-- Both edits have ended with the results. -/
def Ended (results : Author → Except AuthoringFault Answer) (s : σ) (state : Shared σ) : Prop :=
  state.store = s ∧ ∀ x, state.progress x = .ended (results x)

variable {calls : Author → Call} {results : Author → Except AuthoringFault Answer} {s s' : σ}
  {state : Shared σ} {x : Author}

theorem progress_turn_self : (state.turn calls x).progress x =
    ((calls x).advance (state.progress x) state.store).1 :=
  Function.update_self x _ _

theorem progress_turn_of_ne {y : Author} (different : y ≠ x) :
    (state.turn calls x).progress y = state.progress y :=
  Function.update_of_ne different _ _

theorem turn_of_waiting (calls : Author → Call) (waits : state.progress x = .waiting) :
    (state.turn calls x).progress x = (calls x).load state.store ∧
      (state.turn calls x).store = state.store := by
  rw [progress_turn_self, turn, waits]
  exact ⟨rfl, rfl⟩

theorem turn_of_planned (calls : Author → Call) {answer : Answer} {after : Collection}
    (planned : state.progress x = .planned answer after) :
    (state.turn calls x).progress x = .ended (Call.save answer after state.store).1 ∧
      (state.turn calls x).store = (Call.save answer after state.store).2 := by
  rw [progress_turn_self, turn, planned]
  exact ⟨rfl, rfl⟩

/-- An edit that has ended accesses the store no more. -/
theorem turn_of_ended {result : Except AuthoringFault Answer}
    (ended : state.progress x = .ended result) : state.turn calls x = state := by
  simp only [turn, ended, Call.advance]
  rw [← ended, Function.update_eq_self]

/-- What two turns are enough for. -/
theorem left_play (turns : List Author) (state : Shared σ) (x : Author) :
    ((state.play calls turns).progress x).left ≤ (state.progress x).left - turns.count x := by
  induction turns generalizing state with
  | nil => exact Nat.le_refl _
  | cons y turns ih =>
    refine (ih (state.turn calls y)).trans ?_
    by_cases same : y = x
    · subst same
      have step := (calls y).left_advance (state.progress y) state.store
      rw [progress_turn_self, List.count_cons_self]
      omega
    · rw [progress_turn_of_ne (Ne.symm same), List.count_cons_of_ne same]

/-- Both edits end once each author had two turns. -/
theorem exists_ended (calls : Author → Call) (s : σ) {turns : List Author}
    (twice : ∀ x, 2 ≤ turns.count x) :
    ∃ results s', ((start s).play calls turns).Ended results s' := by
  have ended : ∀ x, ∃ result, ((start s).play calls turns).progress x = .ended result := by
    intro x
    apply Progress.ended_of_left_eq_zero
    have left : (((start s).play calls turns).progress x).left ≤ 2 - turns.count x :=
      left_play turns (start s) x
    have enough := twice x
    omega
  choose results ended using ended
  exact ⟨results, _, rfl, ended⟩

/-- When one edit has ended, what is left is the rest of the other one. -/
theorem finish_of_ended {turns : List Author} {result : Except AuthoringFault Answer}
    (before : state.progress x = .ended result)
    (after : (state.play calls turns).Ended results s') :
    results x = result ∧
      (calls x.other).finish (state.progress x.other) state.store = (results x.other, s') := by
  induction turns generalizing state with
  | nil =>
    obtain ⟨store, ended⟩ := after
    change state.store = s' at store
    change ∀ x, state.progress x = .ended (results x) at ended
    rw [ended x] at before
    cases before
    rw [ended x.other, store]
    exact ⟨rfl, rfl⟩
  | cons y turns ih =>
    change ((state.turn calls y).play calls turns).Ended results s' at after
    rcases x.eq_or_eq_other y with rfl | rfl
    · rw [turn_of_ended before] at after
      exact ih before after
    · have still : (state.turn calls x.other).progress x = .ended result := by
        rw [progress_turn_of_ne x.other_ne.symm, before]
      have rest := ih still after
      rw [progress_turn_self] at rest
      rw [← (calls x.other).finish_advance]
      exact rest

end Shared

/-! ## In one order or the other -/

/-- The edit of `x` as a whole, and then the other one. -/
def InOrder {σ : Type} [Store σ] (calls : Author → Call) (s : σ) (x : Author)
    (results : Author → Except AuthoringFault Answer) (s' : σ) : Prop :=
  ∃ between, (calls x).run s = (results x, between) ∧
    (calls x.other).run between = (results x.other, s')

open LawfulStore (content)

/-- What comes of an edit that was planned on the records `before` when it saves. -/
inductive Call.Saved {σ : Type} [Store σ] [LawfulStore σ] (c : Call) (before : Collection)
    (s : σ) : Except AuthoringFault Answer × σ → Prop where
  | failed (fault : StoreFault) (s' : σ) (same : content s' = content s) :
      Saved c before s (.error (.store fault), s')
  | done (answer : Answer) (s' : σ) (allowed : c.request.check = .ok ())
      (planned : c.request.plan c.fresh before = .ok (answer, content s')) :
      Saved c before s (.ok answer, s')

/-- Both edits were planned on the same records. That of `x` is saved, and then the other one. -/
def Overtaken {σ : Type} [Store σ] [LawfulStore σ] (calls : Author → Call) (s : σ) (x : Author)
    (results : Author → Except AuthoringFault Answer) (s' : σ) : Prop :=
  ∃ between, (calls x).Saved (content s) s (results x, between) ∧
    (calls x.other).Saved (content s) between (results x.other, s')

/-- The key under which an edit changes something. -/
def Call.touched? (c : Call) : Answer → Option String
  | .created made => some made.key
  | .updated made => some made.key
  | .removed _ => c.request.key?

/-- What the edit of `x` reports is stored, unless the other edit changed it. -/
def Stands (calls : Author → Call) (results : Author → Except AuthoringFault Answer)
    (records : Collection) (x : Author) : Prop :=
  ∀ answer made, results x = .ok answer → answer.convention? = some made →
    (∀ answer', results x.other = .ok answer' →
      (calls x.other).touched? answer' ≠ some made.key) →
    records.find? made.key = some (.ofConvention made)

section Planned

variable {request : Request} {fresh : String} {answer : Answer} {before after : Collection}

theorem Planned.find?_convention {made : Convention}
    (h : Planned fresh before request answer after) (reported : answer.convention? = some made) :
    after.find? made.key = some (.ofConvention made) := by
  cases h with
  | created draft resolution free =>
    cases reported
    exact find?_store draft fresh before
  | resolved draft existing others taken custom =>
    cases reported
    exact find?_store draft existing.key before
  | updated key draft stored free =>
    cases reported
    exact find?_store draft key before
  | removed key r stored => cases reported

theorem Planned.find?_of_touched?_ne {key : String} (h : Planned fresh before request answer after)
    (beside : Call.touched? ⟨request, fresh⟩ answer ≠ some key) :
    after.find? key = before.find? key := by
  cases h with
  | created draft resolution free =>
    exact sameBeside_store draft fresh before key fun same => beside (same ▸ rfl)
  | resolved draft existing others taken custom =>
    exact sameBeside_store draft existing.key before key fun same => beside (same ▸ rfl)
  | updated name draft stored free =>
    exact sameBeside_store draft name before key fun same => beside (same ▸ rfl)
  | removed name r stored =>
    exact before.sameBeside_erase name key fun same => beside (same ▸ rfl)

end Planned

section Orders

variable {σ : Type} [Store σ] [LawfulStore σ] {calls : Author → Call}
  {results : Author → Except AuthoringFault Answer} {s s' : σ} {x : Author}

theorem Call.saved_save {c : Call} {t : σ} {answer : Answer} {before after : Collection}
    (loaded : Store.load s = .ok before) (allowed : c.request.check = .ok ())
    (planned : c.request.plan c.fresh before = .ok (answer, after)) :
    c.Saved (content s) t (save answer after t) := by
  rw [LawfulStore.eq_content_of_load loaded] at planned
  unfold save
  split
  · rename_i fault t' failed
    exact .failed fault t' (LawfulStore.content_of_save_error failed)
  · rename_i t' saved
    rw [← LawfulStore.content_of_save_ok saved] at planned
    exact .done answer t' allowed planned

omit [LawfulStore σ] in
/-- When the edit of `x` has ended as it would alone, and the other one has still to do all that
it would do from here, they come to what they do in this order. -/
theorem inOrder_of_ended {state : Shared σ} {turns : List Author}
    {result : Except AuthoringFault Answer} (before : state.progress x = .ended result)
    (alone : (calls x).run s = (result, state.store))
    (rest : (calls x.other).finish (state.progress x.other) state.store =
      (calls x.other).run state.store)
    (ended : (state.play calls turns).Ended results s') : InOrder calls s x results s' := by
  obtain ⟨same, finish⟩ := Shared.finish_of_ended before ended
  refine ⟨state.store, ?_, ?_⟩
  · rw [alone, same]
  · rw [← rest, finish]

/-- A state in which both edits have loaded the store `s` and are planned. -/
def Overlap (calls : Author → Call) (s : σ) (state : Shared σ) : Prop :=
  state.store = s ∧ ∀ x, ∃ answer before after, state.progress x = .planned answer after ∧
    Store.load s = .ok before ∧ (calls x).request.check = .ok () ∧
    (calls x).request.plan (calls x).fresh before = .ok (answer, after)

/-- The author who takes the next turn is overtaken. -/
theorem Overlap.overtaken {state : Shared σ} {turns : List Author}
    (overlap : Overlap calls s state)
    (ended : (state.play calls (x :: turns)).Ended results s') :
    Overtaken calls s x results s' := by
  obtain ⟨store, planned⟩ := overlap
  obtain ⟨answer, before, after, here, loaded, allowed, plan⟩ := planned x
  obtain ⟨answer', before', after', there, loaded', allowed', plan'⟩ := planned x.other
  obtain ⟨saved, stored⟩ := Shared.turn_of_planned calls here
  rw [store] at saved stored
  obtain ⟨same, finish⟩ := Shared.finish_of_ended saved ended
  rw [Shared.progress_turn_of_ne x.other_ne, there, stored] at finish
  refine ⟨(Call.save answer after s).2, ?_, ?_⟩
  · rw [same]
    exact Call.saved_save loaded allowed plan
  · rw [← finish]
    exact Call.saved_save loaded' allowed' plan'

omit [LawfulStore σ] in
theorem Call.run_eq_save {c : Call} {answer : Answer} {before after : Collection}
    (loaded : Store.load s = .ok before) (allowed : c.request.check = .ok ())
    (planned : c.request.plan c.fresh before = .ok (answer, after)) :
    c.run s = save answer after s := by
  rw [run, Request.run, allowed, loaded]
  dsimp only
  rw [planned]
  rfl

/-- When one edit has loaded the store and is planned, all depends on who takes the next turn. -/
theorem inOrder_or_overtaken_of_planned {state : Shared σ} {answer : Answer}
    {before after : Collection} {y : Author} {turns : List Author} (store : state.store = s)
    (here : state.progress x = .planned answer after)
    (waits : state.progress x.other = .waiting) (loaded : Store.load s = .ok before)
    (allowed : (calls x).request.check = .ok ())
    (planned : (calls x).request.plan (calls x).fresh before = .ok (answer, after))
    (ended : (state.play calls (y :: turns)).Ended results s') :
    (∃ x, InOrder calls s x results s') ∨
      y = x.other ∧ ∃ x, Overtaken calls s x results s' := by
  subst store
  change ((state.turn calls y).play calls turns).Ended results s' at ended
  have saves := Call.run_eq_save loaded allowed planned
  rcases x.eq_or_eq_other y with rfl | rfl
  -- the edit saves before the other one has begun
  · obtain ⟨saved, stored⟩ := Shared.turn_of_planned calls here
    refine .inl ⟨y, inOrder_of_ended saved ?_ ?_ ended⟩
    · rw [saves, stored]
    · rw [Shared.progress_turn_of_ne y.other_ne, waits]
      rfl
  -- the other one loads what this one has loaded
  · obtain ⟨loads, stored⟩ := Shared.turn_of_waiting calls waits
    have still : (state.turn calls x.other).progress x = .planned answer after := by
      rw [Shared.progress_turn_of_ne x.other_ne.symm, here]
    have loaded' := (calls x.other).loaded_load state.store
    rw [← loads] at loaded'
    generalize there : (state.turn calls x.other).progress x.other = p at loaded'
    cases loaded' with
    | refused fault alone =>
      refine .inl ⟨x.other, inOrder_of_ended there ?_ ?_ ended⟩
      · rw [alone, stored]
      · rw [Author.other_other, still, stored, saves]
        rfl
    | planned answer' before' after' loaded' allowed' planned' =>
      have overlap : Overlap calls state.store (state.turn calls x.other) := by
        refine ⟨stored, fun z => ?_⟩
        rcases x.eq_or_eq_other z with rfl | rfl
        · exact ⟨answer, before, after, still, loaded, allowed, planned⟩
        · exact ⟨answer', before', after', there, loaded', allowed', planned'⟩
      cases turns with
      | nil =>
        have last := ended.2 x
        rw [Shared.play, List.foldl_nil, still] at last
        cases last
      | cons z turns => exact .inr ⟨rfl, z, overlap.overtaken ended⟩

/-- Two edits that take turns come to what they do in one of the two orders, or each was planned
before the other one was saved. -/
theorem inOrder_or_overtaken {turns : List Author}
    (ended : ((Shared.start s).play calls turns).Ended results s') :
    (∃ x, InOrder calls s x results s') ∨
      ∃ x, (∃ y rest, turns = y :: y.other :: rest) ∧ Overtaken calls s x results s' := by
  cases turns with
  | nil => cases ended.2 .first
  | cons x turns =>
    change (((Shared.start s).turn calls x).play calls turns).Ended results s' at ended
    have loads : ((Shared.start s).turn calls x).progress x = (calls x).load s :=
      Shared.progress_turn_self
    have waits : ((Shared.start s).turn calls x).progress x.other = .waiting :=
      Shared.progress_turn_of_ne x.other_ne
    have loaded := (calls x).loaded_load s
    rw [← loads] at loaded
    generalize progress : ((Shared.start s).turn calls x).progress x = p at loaded
    cases loaded with
    | refused fault alone =>
      exact .inl ⟨x, inOrder_of_ended progress alone (by rw [waits]; rfl) ended⟩
    | planned answer before after loaded allowed planned =>
      cases turns with
      | nil =>
        have last := ended.2 x
        rw [Shared.play, List.foldl_nil, progress] at last
        cases last
      | cons y turns =>
        have next := inOrder_or_overtaken_of_planned rfl progress waits loaded allowed planned ended
        rcases next with inOrder | ⟨rfl, z, overtaken⟩
        · exact .inl inOrder
        · exact .inr ⟨z, ⟨x, turns, rfl⟩, overtaken⟩

/-! ## What stays of two edits -/

theorem Outcome.noNewClash {request : Request} {fresh : String}
    {result : Except AuthoringFault Answer}
    (outcome : Outcome request fresh s (result, s')) : (content s).NoNewClash (content s') := by
  cases outcome with
  | refused fault s' same => exact same ▸ .refl _
  | done answer records s' allowed planned saved => exact saved ▸ noNewClash_plan planned

theorem InOrder.noNewClash (h : InOrder calls s x results s') :
    (content s).NoNewClash (content s') := by
  obtain ⟨between, one, two⟩ := h
  have first := outcome_run (calls x).request (calls x).fresh s
  have second := outcome_run (calls x.other).request (calls x.other).fresh between
  rw [← Call.run, one] at first
  rw [← Call.run, two] at second
  exact first.noNewClash.trans second.noNewClash

/-- The edit that comes second may only change what it touches itself. -/
theorem InOrder.stands (h : InOrder calls s x results s') (y : Author) :
    Stands calls results (content s') y := by
  obtain ⟨between, one, two⟩ := h
  have first := outcome_run (calls x).request (calls x).fresh s
  have second := outcome_run (calls x.other).request (calls x.other).fresh between
  rw [← Call.run, one] at first
  rw [← Call.run, two] at second
  intro answer made done reported beside
  rcases x.eq_or_eq_other y with rfl | rfl
  · rw [done] at first
    cases first with
    | done answer records between allowed planned saved =>
      have stored := (planned_of_plan_eq_ok planned).find?_convention reported
      rw [← saved] at stored
      generalize results y.other = result at second beside
      cases second with
      | refused fault s' same => rw [same, stored]
      | done answer' records' s' allowed' planned' saved' =>
        have kept := (planned_of_plan_eq_ok planned').find?_of_touched?_ne (beside answer' rfl)
        rw [saved', kept, stored]
  · rw [done] at second
    cases second with
    | done answer records s' allowed planned saved =>
      rw [saved]
      exact (planned_of_plan_eq_ok planned).find?_convention reported

theorem Overtaken.noNewClash (h : Overtaken calls s x results s') :
    (content s).NoNewClash (content s') := by
  obtain ⟨between, first, second⟩ := h
  generalize results x = result at first
  generalize results x.other = result' at second
  cases second with
  | done answer' s' allowed' planned' => exact noNewClash_plan planned'
  | failed fault s' same =>
    rw [same]
    cases first with
    | done answer between allowed planned => exact noNewClash_plan planned
    | failed fault between same => exact same ▸ .refl _

/-- The edit that is saved last stands, and so does the other one if this save fails. -/
theorem Overtaken.stands (h : Overtaken calls s x results s') :
    Stands calls results (content s') x.other ∧
      ∀ fault, results x.other = .error fault → Stands calls results (content s') x := by
  obtain ⟨between, first, second⟩ := h
  constructor
  · intro answer made done reported _
    rw [done] at second
    cases second with
    | done answer s' allowed planned =>
      exact (planned_of_plan_eq_ok planned).find?_convention reported
  · intro fault lost answer made done reported _
    rw [done] at first
    rw [lost] at second
    cases first with
    | done answer between allowed planned =>
      cases second with
      | failed fault s' same =>
        rw [same]
        exact (planned_of_plan_eq_ok planned).find?_convention reported

end Orders

end Request

end InlineMarkup

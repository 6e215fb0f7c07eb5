import InlineMarkup.Proofs.Authoring.Runs
import InlineMarkup.Proofs.Registry.Contents

/-!
# What becomes of a draft

Whether a draft is saved, and where, depends on the conventions that use its delimiters: a built-in
one comes first, and then custom ones by key, however many other conventions there are
(`Registry.conflicts_ofCollection`). `Request.Decided` is the table of the outcomes. A proposal
names the conventions that decide (`Engine.propose_and_submit`).
-/

namespace InlineMarkup

/-- The conventions with the delimiters `d`: a built-in one, and the active custom ones in
ascending order of their keys. -/
structure Collection.Users (records : Collection) (d : Delimiters) (builtin : Option Convention)
    (customs : List Convention) : Prop where
  builtin : ∀ c, builtin = some c ↔ c ∈ Convention.builtins ∧ c.delimiters = d
  custom : ∀ c, c ∈ customs ↔
    (∃ r, records.find? c.key = some r ∧ r.Describes c) ∧ c.delimiters = d
  ascending : customs.Pairwise (·.key < ·.key)

namespace Convention

theorem pairwise_delimiters_builtins : builtins.Pairwise (·.delimiters ≠ ·.delimiters) := by decide

/-- Where no two conventions have the same delimiters, at most one has those of `d`. -/
theorem filter_delimiters_eq_toList {l : List Convention}
    (apart : l.Pairwise (·.delimiters ≠ ·.delimiters)) (d : Delimiters) :
    l.filter (·.delimiters == d) = (l.find? (·.delimiters == d)).toList := by
  induction l with
  | nil => rfl
  | cons c rest ih =>
    obtain ⟨different, apart⟩ := List.pairwise_cons.1 apart
    by_cases here : c.delimiters = d
    · have none : rest.filter (·.delimiters == d) = [] := by
        apply List.filter_eq_nil_iff.2
        intro c' mem same
        exact different c' mem (here.trans (eq_of_beq same).symm)
      simp [here, none]
    · simp [here, ih apart]

end Convention

/-- What uses the delimiters, in matching order. -/
theorem Registry.conflicts_ofCollection (records : Collection) (d : Delimiters) :
    ∃ builtin customs, records.Users d builtin customs ∧
      (ofCollection records).conflicts d = builtin.toList ++ customs := by
  -- openings that are the same have the same length
  have same : ∀ c : Convention, (c.delimiters == d) = true →
      c.openingSize = (Utf8.encode d.opening).length := by
    intro c eq
    rw [Convention.openingSize, Convention.opening, eq_of_beq eq]
  refine ⟨Convention.builtins.find? (·.delimiters == d),
    records.customs.filter (·.delimiters == d), ⟨?_, ?_, ?_⟩, ?_⟩
  · intro c
    rw [← Option.mem_toList,
      ← Convention.filter_delimiters_eq_toList Convention.pairwise_delimiters_builtins,
      List.mem_filter, beq_iff_eq]
  · intro c
    rw [List.mem_filter, beq_iff_eq, (contents_ofCollection records).custom]
  · exact records.pairwise_customs.filter _
  · rw [conflicts, ofCollection, ofList, filter_arrange same, List.filter_append,
      Convention.filter_delimiters_eq_toList Convention.pairwise_delimiters_builtins]

namespace Request

variable {σ : Type} [Store σ]

/-- The draft is saved under `key`, beside the records under other keys. -/
def Stored (draft : Draft) (key : String) (records : Collection) (s s' : σ) : Prop :=
  Store.save (records.insert key (.ofConvention (draft.toConvention key))) s = (.ok (), s')

/-- What becomes of a draft that is submitted to `s`, which holds `records`, when its delimiters
are those of the conventions given. -/
inductive Decided (draft : Draft) (fresh : String) (records : Collection) (s : σ) :
    Option Convention → List Convention → Resolution → Except AuthoringFault Answer × σ → Prop where
  | created (resolution : Resolution) (s' : σ) (stored : Stored draft fresh records s s') :
      Decided draft fresh records s none [] resolution
        (.ok (.created (draft.toConvention fresh)), s')
  | refused (builtin : Option Convention) (customs : List Convention)
      (taken : builtin.toList ++ customs ≠ []) :
      Decided draft fresh records s builtin customs .reject
        (.error (.conflict draft.delimiters (builtin.toList ++ customs)), s)
  | immutable (b : Convention) (customs : List Convention) :
      Decided draft fresh records s (some b) customs .editExisting
        (.error (.builtinImmutable b.key), s)
  /-- The first key is the smallest. -/
  | replaced (c : Convention) (others : List Convention) (s' : σ)
      (stored : Stored draft c.key records s s') :
      Decided draft fresh records s none (c :: others) .editExisting
        (.ok (.updated (draft.toConvention c.key)), s')

variable {draft : Draft} {records : Collection} {s : σ}

section Runs

variable {resolution : Resolution} {fresh : String} {builtin : Option Convention}
  {customs : List Convention} (loaded : Store.load s = .ok records)
include loaded

/-- A draft that may be refused is refused where anything uses its delimiters. -/
theorem decided_reject
    (found : (Registry.ofCollection records).conflicts draft.delimiters =
      builtin.toList ++ customs) (taken : builtin.toList ++ customs ≠ []) :
    Decided draft fresh records s builtin customs .reject
      ((Request.submit draft .reject).run fresh s) := by
  have planned : (submit draft .reject).plan fresh records =
      .error (.conflict draft.delimiters (builtin.toList ++ customs)) := by
    obtain ⟨existing, others, eq⟩ := List.exists_cons_of_ne_nil taken
    rw [plan, planSubmit, found, eq]
  rw [run_of_plan_eq_error rfl loaded planned]
  exact .refused builtin customs taken

theorem decided_run (saves : ∀ after, (Store.save after s).1 = .ok ())
    (users : records.Users draft.delimiters builtin customs)
    (found : (Registry.ofCollection records).conflicts draft.delimiters =
      builtin.toList ++ customs) :
    Decided draft fresh records s builtin customs resolution
      ((Request.submit draft resolution).run fresh s) := by
  have stored : ∀ key, Stored draft key records s
      (Store.save (records.insert key (.ofConvention (draft.toConvention key))) s).2 := by
    intro key
    exact Prod.ext (saves _) rfl
  cases builtin with
  | some b =>
    cases resolution with
    | reject => exact decided_reject loaded found (List.cons_ne_nil b customs)
    | editExisting =>
      have reserved := Convention.isBuiltin_of_mem_builtins ((users.builtin b).1 rfl).1
      have planned : (submit draft .editExisting).plan fresh records =
          .error (.builtinImmutable b.key) := by
        rw [plan, planSubmit, found, Option.toList_some, List.singleton_append]
        exact if_pos reserved
      rw [run_of_plan_eq_error rfl loaded planned]
      exact .immutable b customs
  | none =>
    cases customs with
    | nil =>
      have planned : (submit draft resolution).plan fresh records =
          .ok (.created (draft.toConvention fresh), (store draft fresh records).2) := by
        rw [plan, planSubmit, found, Option.toList_none, List.nil_append]
        rfl
      rw [run_of_plan_eq_ok rfl loaded planned (stored fresh)]
      exact .created resolution _ (stored fresh)
    | cons c others =>
      cases resolution with
      | reject => exact decided_reject loaded found (List.cons_ne_nil c others)
      | editExisting =>
        obtain ⟨⟨r, -, describes⟩, -⟩ := (users.custom c).1 List.mem_cons_self
        have custom := Record.isBuiltin_of_toConvention (Record.describes_iff.1 describes)
        have planned : (submit draft .editExisting).plan fresh records =
            .ok (.updated (draft.toConvention c.key), (store draft c.key records).2) := by
          rw [plan, planSubmit, found, Option.toList_none, List.nil_append]
          exact if_neg (by rw [custom]; exact Bool.false_ne_true)
        rw [run_of_plan_eq_ok rfl loaded planned (stored c.key)]
        exact .replaced c others _ (stored c.key)

end Runs

end Request

namespace Engine

variable {σ : Type} [Store σ]

/-- A proposal names the conventions that use the delimiters of the draft, and they decide what
becomes of it when it is submitted, whatever else is stored. -/
theorem propose_and_submit {s : σ} {records : Collection} {typed color : String}
    {effects : Effects} {made : Draft} (loaded : Store.load s = .ok records)
    (saves : ∀ after, (Store.save after s).1 = .ok ())
    (input : Draft.ofInput typed color effects = .ok made) :
    ∃ builtin customs, records.Users made.delimiters builtin customs ∧
      propose s typed color effects =
        .ok (⟨made, builtin.toList ++ customs⟩, Warning.ofCollection records) ∧
      ∀ description sample resolution fresh,
        let draft := { made with description, sample }
        Request.Decided draft fresh records s builtin customs resolution
          ((Request.submit draft resolution).run fresh s) := by
  obtain ⟨builtin, customs, users, taken⟩ :=
    Registry.conflicts_ofCollection records made.delimiters
  refine ⟨builtin, customs, users, ?_, ?_⟩
  · simp only [propose, input, loaded, Draft.propose, taken]
  · intro description sample resolution fresh draft
    -- the delimiters stay with any description and any sample
    have users : records.Users draft.delimiters builtin customs := users
    exact Request.decided_run loaded saves users taken

/-- Two custom conventions have the delimiters, and were stored around the checks; the one with the
smaller key is replaced, though a longer opening is matched before them. -/
theorem propose_and_submit_twins :
    let twin (key : String) : String × Record :=
      (key, { key, opening := "+", closing := "+", color := "inherit" })
    let long : Record := { key := "custom-c", opening := "++", closing := "+", color := "inherit" }
    let records := Collection.ofList [("custom-c", long), twin "custom-b", twin "custom-a"]
    let s : SwitchableStore := { records }
    let made : Draft := ⟨⟨"+", "+"⟩, .literal "#abc", .none, "+text+", "", "+example+"⟩
    ∃ builtin customs, records.Users made.delimiters builtin customs ∧
      (builtin.toList ++ customs).map (·.key) = ["custom-a", "custom-b"] ∧
      propose s "+" "#ABC" .none =
        .ok (⟨made, builtin.toList ++ customs⟩, Warning.ofCollection records) ∧
      Request.Decided made "custom-d" records s builtin customs .editExisting
        ((Request.submit made .editExisting).run "custom-d" s) ∧
      ((Request.submit made .editExisting).run "custom-d" s).1 =
        .ok (.updated (made.toConvention "custom-a")) := by
  intro twin long records s made
  have loaded : Store.load s = .ok records := rfl
  have saves : ∀ after, (Store.save after s).1 = .ok () := fun _ => rfl
  have input : Draft.ofInput "+" "#ABC" .none = .ok made := by decide +kernel
  obtain ⟨builtin, customs, users, proposed, decided⟩ := propose_and_submit loaded saves input
  have keys : (propose s "+" "#ABC" .none).toOption.map (·.1.conflicts.map (·.key)) =
      some ["custom-a", "custom-b"] := by decide +kernel
  rw [proposed] at keys
  refine ⟨builtin, customs, users, Option.some.inj keys, proposed, ?_, ?_⟩
  · exact decided "" "+example+" .editExisting "custom-d"
  · decide +kernel

end Engine

end InlineMarkup

import InlineMarkup.Proofs.Authoring.Plans
import InlineMarkup.Proofs.Authoring.Runs
import InlineMarkup.Proofs.Registry.Active

/-!
# No new clash

Two keys clash when both are active with the same delimiters. A store can be brought to that by
hand only: whatever edits are carried out on it, and whichever of its loads and saves fail, two
keys that clash afterwards clashed with the same delimiters before.
-/

namespace InlineMarkup

namespace Collection

/-- A convention with key `key` and delimiters `d` is active under the records. -/
def Active (records : Collection) (key : String) (d : Delimiters) : Prop :=
  ∃ c ∈ (Registry.ofCollection records).conventions, c.key = key ∧ c.delimiters = d

/-- Two different keys are active with the delimiters `d`. -/
def Clash (records : Collection) (k₁ k₂ : String) (d : Delimiters) : Prop :=
  k₁ ≠ k₂ ∧ records.Active k₁ d ∧ records.Active k₂ d

/-- Every clash among the records `after` is one among the records `before`. -/
def NoNewClash (before after : Collection) : Prop :=
  ∀ k₁ k₂ d, after.Clash k₁ k₂ d → before.Clash k₁ k₂ d

/-- The active conventions have pairwise different delimiters. -/
def Distinct (records : Collection) : Prop :=
  ((Registry.ofCollection records).conventions.map (·.delimiters)).Nodup

theorem distinct_iff_not_clash {records : Collection} :
    records.Distinct ↔ ∀ k₁ k₂ d, ¬ records.Clash k₁ k₂ d := by
  constructor
  · rintro distinct _ _ d ⟨different, ⟨c₁, mem₁, rfl, eq₁⟩, ⟨c₂, mem₂, rfl, eq₂⟩⟩
    refine different ?_
    rw [List.inj_on_of_nodup_map distinct mem₁ mem₂ (eq₁.trans eq₂.symm)]
  · intro noClash
    have keys := List.pairwise_map.1 (Registry.nodup_keys_ofCollection records)
    apply List.pairwise_map.2
    apply keys.imp_of_mem
    intro c₁ c₂ mem₁ mem₂ different same
    apply noClash c₁.key c₂.key c₂.delimiters
    exact ⟨different, ⟨c₁, mem₁, rfl, same⟩, ⟨c₂, mem₂, rfl, rfl⟩⟩

/-- Without a clash before, there is none afterwards. -/
theorem NoNewClash.distinct {before after : Collection} (h : NoNewClash before after)
    (distinct : before.Distinct) : after.Distinct := by
  rw [distinct_iff_not_clash] at distinct ⊢
  intro k₁ k₂ d clash
  apply distinct k₁ k₂ d
  exact h k₁ k₂ d clash

theorem NoNewClash.of_active {before after : Collection}
    (h : ∀ key d, after.Active key d → before.Active key d) : NoNewClash before after := by
  rintro k₁ k₂ d ⟨different, active₁, active₂⟩
  exact ⟨different, h k₁ d active₁, h k₂ d active₂⟩

theorem NoNewClash.refl (records : Collection) : NoNewClash records records := by
  intro k₁ k₂ d clash
  exact clash

theorem NoNewClash.trans {a b c : Collection} (ab : NoNewClash a b) (bc : NoNewClash b c) :
    NoNewClash a c := by
  intro k₁ k₂ d clash
  apply ab
  exact bc k₁ k₂ d clash

end Collection

namespace Registry

variable {records : Collection} {d : Delimiters}

theorem active_of_mem_conflicts {c : Convention}
    (mem : c ∈ (ofCollection records).conflicts d) : records.Active c.key d := by
  obtain ⟨mem, same⟩ := List.mem_filter.1 mem
  exact ⟨c, mem, rfl, eq_of_beq same⟩

theorem not_active_of_conflicts_eq_nil (free : (ofCollection records).conflicts d = [])
    (key : String) : ¬ records.Active key d := by
  rintro ⟨c, mem, -, same⟩
  exact List.filter_eq_nil_iff.1 free c mem (beq_iff_eq.2 same)

theorem not_active_of_conflictsBeside_eq_nil {key key' : String}
    (free : (ofCollection records).conflictsBeside key d = []) (other : key' ≠ key) :
    ¬ records.Active key' d := by
  rintro ⟨c, mem, rfl, same⟩
  have conflict : c ∈ (ofCollection records).conflicts d :=
    List.mem_filter.2 ⟨mem, beq_iff_eq.2 same⟩
  exact List.filter_eq_nil_iff.1 free c conflict (bne_iff_ne.2 other)

end Registry

namespace Request

variable {records : Collection} {key : String}

/-- Besides what was active before, at most the draft is active once it is stored. -/
theorem active_of_active_store {draft : Draft} {key' : String} {d : Delimiters}
    (h : (store draft key records).2.Active key' d) :
    records.Active key' d ∨ key' = key ∧ d = draft.delimiters := by
  obtain ⟨c, mem, rfl, rfl⟩ := h
  rcases Registry.mem_ofCollection_iff.1 mem with builtin | custom
  · exact .inl ⟨c, Registry.mem_ofCollection_iff.2 (.inl builtin), rfl, rfl⟩
  · by_cases here : c.key = key
    · obtain ⟨r, stored, -, converts⟩ := Collection.mem_customs_iff.1 custom
      rw [here, find?_store] at stored
      cases stored
      obtain ⟨-, -, -, -, eq⟩ := Record.toConvention_eq_ok_iff.1 converts
      refine .inr ⟨here, ?_⟩
      rw [eq]
      rfl
    · have same := sameBeside_store draft key records c.key here
      have before := (Collection.mem_customs_congr same).1 custom
      exact .inl ⟨c, Registry.mem_ofCollection_iff.2 (.inr before), rfl, rfl⟩

/-- A draft may be stored under a key if no other key has its delimiters, and also if the key
has them already, whoever else does. -/
theorem noNewClash_store {draft : Draft}
    (taken : ∀ key', key' ≠ key → records.Active key' draft.delimiters →
      records.Active key draft.delimiters) :
    records.NoNewClash (store draft key records).2 := by
  rintro k₁ k₂ d ⟨different, active₁, active₂⟩
  rcases active_of_active_store active₁ with before₁ | ⟨rfl, rfl⟩
  · rcases active_of_active_store active₂ with before₂ | ⟨rfl, rfl⟩
    · exact ⟨different, before₁, before₂⟩
    · exact ⟨different, before₁, taken k₁ different before₁⟩
  · rcases active_of_active_store active₂ with before₂ | ⟨rfl, -⟩
    · exact ⟨different, taken k₂ different.symm before₂, before₂⟩
    · exact absurd rfl different

theorem active_of_active_erase {key' : String} {d : Delimiters}
    (h : (records.erase key).Active key' d) : records.Active key' d := by
  obtain ⟨c, mem, rfl, rfl⟩ := h
  refine ⟨c, Registry.mem_ofCollection_iff.2 ?_, rfl, rfl⟩
  rcases Registry.mem_ofCollection_iff.1 mem with builtin | custom
  · exact .inl builtin
  · obtain ⟨r, stored, named, converts⟩ := Collection.mem_customs_iff.1 custom
    rw [Collection.find?_erase] at stored
    split at stored
    · cases stored
    · exact .inr (Collection.mem_customs_iff.2 ⟨r, stored, named, converts⟩)

variable {answer : Answer} {after : Collection}

/-- A submitted draft is stored where nothing has its delimiters, or in the place of a convention
that has them; an updated one where nothing else has them. -/
theorem noNewClash_plan {request : Request} {fresh : String}
    (h : request.plan fresh records = .ok (answer, after)) : records.NoNewClash after := by
  cases planned_of_plan_eq_ok h with
  | created draft resolution free =>
    apply noNewClash_store
    intro key' _ active
    exact absurd active (Registry.not_active_of_conflicts_eq_nil free key')
  | resolved draft existing others taken custom =>
    have active : records.Active existing.key draft.delimiters :=
      Registry.active_of_mem_conflicts (taken ▸ List.mem_cons_self)
    apply noNewClash_store
    intro key' _ _
    exact active
  | updated key draft stored free =>
    apply noNewClash_store
    intro key' other active
    exact absurd active (Registry.not_active_of_conflictsBeside_eq_nil free other)
  | removed key r stored =>
    apply Collection.NoNewClash.of_active
    intro key' d active
    exact active_of_active_erase active

open LawfulStore (content)

/-- Edits make no two keys clash that did not clash before with the same delimiters, and so they
keep the delimiters of all active conventions pairwise different. -/
theorem noNewClash_and_distinct_of_run {σ : Type} [Store σ] [LawfulStore σ] {s s' : σ}
    (run : Run s s') :
    (content s).NoNewClash (content s') ∧ ((content s).Distinct → (content s').Distinct) := by
  have noNew : (content s).NoNewClash (content s') := by
    apply run.preserves Collection.NoNewClash.refl Collection.NoNewClash.trans
    intro request fresh answer before after _ planned
    exact noNewClash_plan planned
  exact ⟨noNew, noNew.distinct⟩

/-- Between two submissions of one draft, an update is planned but not saved. -/
theorem noNewClash_and_distinct_of_submitted_twice :
    let draft : Draft := ⟨⟨"~", "~"⟩, .keyword, .none, "~text~", "", "~example~"⟩
    let created : SwitchableStore := (run (.submit draft .reject) "custom-a" {}).2
    let failed := (run (.update "custom-a" draft) "" { created with saveFails := true }).2
    let back := { failed with saveFails := false }
    let edited := (run (.submit draft .editExisting) "custom-b" back).2
    edited.records.keys = ["custom-a"] ∧ Collection.empty.NoNewClash edited.records ∧
      edited.records.Distinct := by
  intro draft created failed back edited
  have creating : Run ({} : SwitchableStore) created := Run.start.edit _ _
  have out : Run ({} : SwitchableStore) { created with saveFails := true } := creating.drift rfl
  have failing : Run ({} : SwitchableStore) failed := out.edit _ _
  have again : Run ({} : SwitchableStore) back := failing.drift rfl
  have editing : Run ({} : SwitchableStore) edited := again.edit _ _
  obtain ⟨noNew, distinct⟩ := noNewClash_and_distinct_of_run editing
  have start : Collection.empty.Distinct := by
    unfold Collection.Distinct
    decide
  refine ⟨?_, noNew, distinct start⟩
  decide +kernel

end Request

end InlineMarkup

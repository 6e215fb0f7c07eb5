import InlineMarkup.Engine
import InlineMarkup.Store.Memory
import InlineMarkup.Proofs.Registry.Active
import InlineMarkup.Proofs.Registry.Order

/-!
# What a registry holds

The registry of a store holds the built-in conventions and what the records of the store describe,
in matching order. Every record that is left out is mentioned, with the reason
(`Engine.contents_of_load`).
-/

namespace InlineMarkup

namespace Record

/-- A record that passes every check, and the convention it stands for. -/
structure Describes (r : Record) (c : Convention) : Prop where
  key : c.key = r.key
  custom : Convention.isBuiltinKey r.key = false
  delimiters : c.delimiters = ⟨r.opening, r.closing⟩
  opening : Delimiters.isToken r.opening
  closing : Delimiters.isToken r.closing
  color : Color.parse? r.color = some c.color
  effects : c.effects = r.effects
  usage : c.usage = r.usage
  description : c.description = r.description
  sample : c.sample = r.sample

theorem describes_iff {r : Record} {c : Convention} : r.Describes c ↔ r.toConvention = .ok c := by
  rw [toConvention_eq_ok_iff]
  constructor
  · rintro ⟨key, custom, delimiters, opening, closing, color, effects, usage, description, sample⟩
    refine ⟨custom, opening, closing, color, ?_⟩
    cases c
    rw [Convention.mk.injEq]
    exact ⟨key, delimiters, rfl, effects, usage, description, sample⟩
  · rintro ⟨custom, opening, closing, color, eq⟩
    rw [eq]
    exact ⟨rfl, custom, rfl, opening, closing, color, rfl, rfl, rfl, rfl⟩

/-- The record stored under `key` is not active, for a reason. -/
inductive LeftOut (key : String) (r : Record) : Exclusion → Prop where
  | misfiled (other : r.key ≠ key) : LeftOut key r (.misfiled r.key)
  | invalid (named : r.key = key) (fault : Fault) (refused : r.toConvention = .error fault) :
      LeftOut key r (.invalid fault)

theorem activate_eq_error_iff {key : String} {r : Record} {reason : Exclusion} :
    r.activate key = .error reason ↔ r.LeftOut key reason := by
  constructor
  · intro failed
    unfold activate at failed
    split at failed
    · rename_i named
      cases refused : r.toConvention with
      | error fault =>
        rw [refused] at failed
        cases failed
        exact .invalid named fault refused
      | ok c =>
        rw [refused] at failed
        cases failed
    · rename_i other
      cases failed
      exact .misfiled other
  · rintro (other | ⟨named, fault, refused⟩)
    · rw [activate, if_neg other]
    · rw [activate, if_pos named, refused]
      rfl

end Record

namespace Collection

variable {records : Collection}

theorem mem_excluded_iff {key : String} {reason : Exclusion} :
    (key, reason) ∈ records.excluded ↔
      ∃ r, records.find? key = some r ∧ r.LeftOut key reason := by
  simp only [excluded, List.mem_filterMap, ← Record.activate_eq_error_iff]
  constructor
  · rintro ⟨⟨key', r⟩, mem, eq⟩
    dsimp only at eq
    split at eq
    · cases eq
    · rename_i reason' failed
      cases eq
      exact ⟨r, mem_entries_iff.1 mem, failed⟩
  · rintro ⟨r, stored, failed⟩
    exact ⟨(key, r), mem_entries_iff.2 stored, by rw [failed]⟩

/-- Excluded records are listed in ascending order of their keys. -/
theorem pairwise_excluded (records : Collection) : records.excluded.Pairwise (·.1 < ·.1) := by
  apply List.pairwise_filterMap.2
  apply records.ordered.imp
  intro e e' lt x eq x' eq'
  split at eq
  · cases eq
  · cases eq
    split at eq'
    · cases eq'
    · cases eq'
      exact lt

/-- A record becomes active or is left out, and not both. -/
theorem exists_mem_customs_iff {key : String} {r : Record} (stored : records.find? key = some r) :
    (∃ c ∈ records.customs, c.key = key) ↔ ∀ reason, (key, reason) ∉ records.excluded := by
  constructor
  · rintro ⟨c, mem, rfl⟩ reason out
    obtain ⟨r, stored, named, converts⟩ := mem_customs_iff.1 mem
    obtain ⟨r', stored', out⟩ := mem_excluded_iff.1 out
    rw [stored] at stored'
    cases stored'
    cases out with
    | misfiled other => exact other named
    | invalid named fault refused =>
      rw [converts] at refused
      cases refused
  · intro kept
    cases active : r.activate key with
    | error reason =>
      exact absurd (mem_excluded_iff.2 ⟨r, stored, Record.activate_eq_error_iff.1 active⟩)
        (kept reason)
    | ok c =>
      have described : (r.activate key).toOption = some c := by rw [active]; rfl
      obtain ⟨named, converts⟩ := Record.toOption_activate_eq_some_iff.1 described
      have same := (Record.key_of_toConvention converts).trans named
      refine ⟨c, mem_customs_iff.2 ⟨r, ?_, named.trans same.symm, converts⟩, same⟩
      rwa [same]

end Collection

namespace Registry

/-- Conventions with openings of one length: the built-in ones come first, and then the custom ones
by key. -/
theorem filter_openingSize_ofCollection (records : Collection) (n : Nat) :
    (ofCollection records).conventions.filter (·.openingSize == n) =
      Convention.builtins.filter (·.openingSize == n) ++
        records.customs.filter (·.openingSize == n) := by
  have same : ∀ c : Convention, (c.openingSize == n) = true → c.openingSize = n := by
    intro c eq
    exact eq_of_beq eq
  rw [ofCollection, ofList, filter_arrange same, List.filter_append]

theorem builtins_sublist_ofCollection (records : Collection) :
    Convention.builtins.Sublist (ofCollection records).conventions := by
  have short : Convention.builtins.filter (·.openingSize == 1) = Convention.builtins := by decide
  have ties := filter_openingSize_ofCollection records 1
  rw [short] at ties
  have front := List.sublist_append_left Convention.builtins
    (records.customs.filter (·.openingSize == 1))
  rw [← ties] at front
  exact front.trans List.filter_sublist

/-- What a registry, a list of custom conventions and a list of excluded records say about the
records they come from. -/
structure Contents (records : Collection) (registry : Registry) (customs : List Convention)
    (excluded : List (String × Exclusion)) : Prop where
  /-- The built-in and the custom conventions, stably sorted, the longest openings first. -/
  order : registry.conventions = (Convention.builtins ++ customs).mergeSort
    fun a b => decide (b.openingSize ≤ a.openingSize)
  /-- So with openings of one length the built-in ones come first. -/
  ties : ∀ n, registry.conventions.filter (·.openingSize == n) =
    Convention.builtins.filter (·.openingSize == n) ++ customs.filter (·.openingSize == n)
  builtins : Convention.builtins.Sublist registry.conventions
  distinct : registry.keys.Nodup
  find? : ∀ key c, registry.find? key = some c ↔
    (c ∈ Convention.builtins ∨ c ∈ customs) ∧ c.key = key
  custom : ∀ c, c ∈ customs ↔ ∃ r, records.find? c.key = some r ∧ r.Describes c
  ascending : customs.Pairwise (·.key < ·.key)
  leftOut : ∀ key reason, (key, reason) ∈ excluded ↔
    ∃ r, records.find? key = some r ∧ r.LeftOut key reason
  ascendingOut : excluded.Pairwise (·.1 < ·.1)
  /-- Every record is in one of the lists. -/
  apart : ∀ key r, records.find? key = some r →
    ((∃ c ∈ customs, c.key = key) ↔ ∀ reason, (key, reason) ∉ excluded)

theorem contents_ofCollection (records : Collection) :
    Contents records (ofCollection records) records.customs records.excluded where
  order := arrange_eq_mergeSort (Convention.builtins ++ records.customs)
  ties := filter_openingSize_ofCollection records
  builtins := builtins_sublist_ofCollection records
  distinct := nodup_keys_ofCollection records
  find? key c := by rw [find?_ofCollection_eq_some_iff, mem_ofCollection_iff]
  custom c := by
    rw [Collection.mem_customs_iff]
    constructor
    · rintro ⟨r, stored, -, converts⟩
      exact ⟨r, stored, Record.describes_iff.2 converts⟩
    · rintro ⟨r, stored, describes⟩
      exact ⟨r, stored, describes.key.symm, Record.describes_iff.1 describes⟩
  ascending := records.pairwise_customs
  leftOut key reason := Collection.mem_excluded_iff
  ascendingOut := records.pairwise_excluded
  apart key r := Collection.exists_mem_customs_iff

end Registry

namespace Engine

variable {σ : Type} [Store σ]

/-- From a store that can be loaded come a registry, with a warning for each record that is left
out of it, and the custom conventions alone; their contents are what the records say. -/
theorem contents_of_load {s : σ} {records : Collection} (loaded : Store.load s = .ok records) :
    ∃ registry customs excluded,
      loadRegistry s = .ok (registry, excluded.map fun (key, reason) => .excluded key reason) ∧
        Engine.customs s = .ok customs ∧ Registry.Contents records registry customs excluded := by
  refine ⟨.ofCollection records, records.customs, records.excluded, ?_, ?_, ?_⟩
  · rw [loadRegistry, loaded]
    rfl
  · rw [Engine.customs, loaded, records.customs_eq_filterMap_filter]
    rfl
  · exact Registry.contents_ofCollection records

/-- Records of every kind: under a reserved key, without a closing, misfiled, with a long opening,
with a color that is none, and one like the built-in conventions. -/
theorem contents_of_load_mixed :
    let records := Collection.ofList [
      ("exclamation", { key := "exclamation", opening := "%", closing := "%", color := "inherit" }),
      ("custom-open", { key := "custom-open", opening := "^", closing := "", color := "inherit" }),
      ("custom-moved", { key := "custom-b", opening := "+", closing := "+", color := "keyword" }),
      ("custom-long", { key := "custom-long", opening := "<<", closing := ">>", color := " #AbC" }),
      ("custom-plaid", { key := "custom-plaid", opening := "+", closing := "+", color := "plaid" }),
      ("custom-a", { key := "custom-a", opening := "~", closing := "~", color := "Inherit" })]
    let s : SwitchableStore := { records }
    Store.load s = .ok records ∧ ∃ registry customs excluded,
      loadRegistry s = .ok (registry, excluded.map fun (key, reason) => .excluded key reason) ∧
        Engine.customs s = .ok customs ∧ Registry.Contents records registry customs excluded ∧
        registry.keys =
          ["custom-long", "angleBrackets", "squareBrackets", "exclamation", "custom-a"] ∧
        excluded = [("custom-moved", .misfiled "custom-b"),
          ("custom-open", .invalid (.invalidDelimiter "")),
          ("custom-plaid", .invalid (.invalidColor "plaid")),
          ("exclamation", .invalid (.reservedKey "exclamation"))] := by
  intro records s
  have loaded : Store.load s = .ok records := rfl
  obtain ⟨registry, customs, excluded, load, listed, contents⟩ := contents_of_load loaded
  refine ⟨loaded, registry, customs, excluded, load, listed, contents, ?_, ?_⟩
  · have keys : (loadRegistry s).toOption.map (·.1.keys) =
        some ["custom-long", "angleBrackets", "squareBrackets", "exclamation", "custom-a"] := by
      decide +kernel
    rw [load] at keys
    exact Option.some.inj keys
  · have warned : (loadRegistry s).toOption.map (·.2) = some ([
        ("custom-moved", .misfiled "custom-b"), ("custom-open", .invalid (.invalidDelimiter "")),
        ("custom-plaid", .invalid (.invalidColor "plaid")),
        ("exclamation", .invalid (.reservedKey "exclamation"))].map
          fun (key, reason) => .excluded key reason) := by
      decide +kernel
    have injective : Function.Injective fun (key, reason) => Warning.excluded key reason := by
      rintro ⟨key, reason⟩ ⟨key', reason'⟩ same
      cases same
      rfl
    rw [load] at warned
    exact injective.list_map (Option.some.inj warned)

end Engine

end InlineMarkup

import Mathlib.Data.List.Nodup
import InlineMarkup.Registry

/-!
# Active conventions

Which conventions the registry of a collection holds: the built-in ones, and the custom ones that
records stand for. Every key is active at most once. What is active under a custom key depends on
the record stored under that key alone.
-/

namespace InlineMarkup

theorem Entries.mem_iff_lookup {α : Type} {l : List (String × α)}
    (ordered : l.Pairwise (·.1 < ·.1)) {key : String} {a : α} :
    (key, a) ∈ l ↔ l.lookup key = some a := by
  induction l with
  | nil => simp
  | cons e rest ih =>
    obtain ⟨above, ordered⟩ := List.pairwise_cons.1 ordered
    rw [List.mem_cons, ih ordered, lookup_cons]
    by_cases here : key = e.1
    · rw [if_pos here]
      constructor
      · rintro (eq | later)
        · rw [← eq]
        · have lt := above _ ((ih ordered).2 later)
          exact absurd (here ▸ lt) (String.lt_irrefl e.1)
      · intro eq
        cases eq
        exact .inl (by rw [here])
    · rw [if_neg here]
      apply or_iff_right
      intro eq
      apply here
      rw [← eq]

/-- A record becomes active under the key it names, as the convention it describes. -/
theorem Record.toOption_activate_eq_some_iff {key : String} {r : Record} {c : Convention} :
    (r.activate key).toOption = some c ↔ r.key = key ∧ r.toConvention = .ok c := by
  unfold activate
  split
  · rename_i named
    cases r.toConvention <;> simp [Except.mapError, Except.toOption, named]
  · rename_i named
    simp [Except.toOption, named]

theorem Record.key_of_toConvention {r : Record} {c : Convention} (h : r.toConvention = .ok c) :
    c.key = r.key := by
  obtain ⟨-, -, -, -, eq⟩ := toConvention_eq_ok_iff.1 h
  rw [eq]

theorem Record.isBuiltin_of_toConvention {r : Record} {c : Convention}
    (h : r.toConvention = .ok c) : c.isBuiltin = false := by
  rw [Convention.isBuiltin, key_of_toConvention h]
  exact (toConvention_eq_ok_iff.1 h).1

/-- Where keys are distinct, looking up a key finds the one convention that has it. -/
theorem Convention.find?_key_eq_some_iff {l : List Convention} (distinct : (l.map (·.key)).Nodup)
    {key : String} {c : Convention} :
    l.find? (·.key == key) = some c ↔ c ∈ l ∧ c.key = key := by
  constructor
  · intro found
    exact ⟨List.mem_of_find?_eq_some found, by simpa using List.find?_some found⟩
  · rintro ⟨mem, rfl⟩
    cases found : l.find? (·.key == c.key) with
    | none =>
      have missing := List.find?_eq_none.1 found c mem
      simp at missing
    | some d =>
      have same : d.key = c.key := by simpa using List.find?_some found
      have there := List.mem_of_find?_eq_some found
      rw [List.inj_on_of_nodup_map distinct there mem same]

namespace Collection

variable {records : Collection} {c : Convention}

/-- The custom convention with a key. -/
def custom? (records : Collection) (key : String) : Option Convention :=
  records.customs.find? (·.key == key)

theorem mem_entries_iff {key : String} {r : Record} :
    (key, r) ∈ records.entries ↔ records.find? key = some r :=
  Entries.mem_iff_lookup records.ordered

/-- A custom convention is what the record stored under its key describes, if the record names
that key too. -/
theorem mem_customs_iff :
    c ∈ records.customs ↔
      ∃ r, records.find? c.key = some r ∧ r.key = c.key ∧ r.toConvention = .ok c := by
  rw [customs, List.mem_filterMap]
  constructor
  · rintro ⟨⟨key, r⟩, mem, active⟩
    obtain ⟨named, converts⟩ := Record.toOption_activate_eq_some_iff.1 active
    have same := Record.key_of_toConvention converts
    refine ⟨r, ?_, same.symm, converts⟩
    rw [same, named]
    exact mem_entries_iff.1 mem
  · rintro ⟨r, stored, named, converts⟩
    exact ⟨(c.key, r), mem_entries_iff.2 stored,
      Record.toOption_activate_eq_some_iff.2 ⟨named, converts⟩⟩

/-- The records that name another key may be left out first. -/
theorem customs_eq_filterMap_filter (records : Collection) :
    records.customs = (records.entries.filter fun e => e.2.key == e.1).filterMap
      fun e => e.2.toConvention.toOption := by
  rw [customs, List.filterMap_filter]
  apply List.filterMap_congr
  rintro ⟨key, r⟩ -
  by_cases named : r.key = key
  · cases converted : r.toConvention <;>
      simp [Record.activate, named, converted, Except.mapError, Except.toOption]
  · simp [Record.activate, named, Except.toOption]

theorem isBuiltin_of_mem_customs (mem : c ∈ records.customs) : c.isBuiltin = false := by
  obtain ⟨r, -, -, converts⟩ := mem_customs_iff.1 mem
  exact Record.isBuiltin_of_toConvention converts

/-- A custom convention stays one while the record under its key is the same. -/
theorem mem_customs_congr {records' : Collection}
    (same : records'.find? c.key = records.find? c.key) :
    c ∈ records'.customs ↔ c ∈ records.customs := by
  rw [mem_customs_iff, mem_customs_iff, same]

/-- Custom conventions are listed in ascending order of their keys. -/
theorem pairwise_customs (records : Collection) :
    records.customs.Pairwise (·.key < ·.key) := by
  have key_of_activate : ∀ (e : String × Record) (c : Convention),
      (e.2.activate e.1).toOption = some c → c.key = e.1 := by
    intro e c active
    obtain ⟨named, converts⟩ := Record.toOption_activate_eq_some_iff.1 active
    exact (Record.key_of_toConvention converts).trans named
  apply List.pairwise_filterMap.2
  apply records.ordered.imp
  intro e e' lt c active c' active'
  rw [key_of_activate e c active, key_of_activate e' c' active']
  exact lt

theorem nodup_keys_customs (records : Collection) : (records.customs.map (·.key)).Nodup := by
  rw [List.Nodup, List.pairwise_map]
  apply (pairwise_customs records).imp
  intro c c' lt
  exact Std.ne_of_lt lt

theorem custom?_eq_some_iff {key : String} :
    records.custom? key = some c ↔ c ∈ records.customs ∧ c.key = key :=
  Convention.find?_key_eq_some_iff (nodup_keys_customs records)

theorem custom?_congr {records' : Collection} {key : String}
    (same : records'.find? key = records.find? key) :
    records'.custom? key = records.custom? key := by
  apply Option.ext
  intro c
  rw [custom?_eq_some_iff, custom?_eq_some_iff]
  apply and_congr_left
  rintro rfl
  exact mem_customs_congr same

theorem custom?_eq_none {key : String} (gone : records.find? key = none) :
    records.custom? key = none := by
  rw [Option.eq_none_iff_forall_ne_some]
  intro c found
  obtain ⟨mem, rfl⟩ := custom?_eq_some_iff.1 found
  obtain ⟨r, stored, -⟩ := mem_customs_iff.1 mem
  rw [gone] at stored
  cases stored

end Collection

namespace Registry

theorem place_perm (c : Convention) (l : List Convention) : (place c l).Perm (c :: l) := by
  induction l with
  | nil => exact .refl _
  | cons d rest ih =>
    unfold place
    split
    · exact .refl _
    · exact (ih.cons d).trans (.swap c d rest)

theorem arrange_perm (l : List Convention) : (arrange l).Perm l := by
  induction l with
  | nil => exact .refl _
  | cons c rest ih => exact (place_perm c (arrange rest)).trans (ih.cons c)

theorem mem_ofCollection_iff {records : Collection} {c : Convention} :
    c ∈ (ofCollection records).conventions ↔ c ∈ Convention.builtins ∨ c ∈ records.customs :=
  mem_arrange_iff.trans List.mem_append

/-- No two active conventions share a key. -/
theorem nodup_keys_ofCollection (records : Collection) : (ofCollection records).keys.Nodup := by
  have apart : ∀ key ∈ Convention.builtinKeys, ∀ key' ∈ records.customs.map (·.key),
      key ≠ key' := by
    rintro key reserved key' custom rfl
    obtain ⟨c, mem, rfl⟩ := List.mem_map.1 custom
    have notBuiltin := Collection.isBuiltin_of_mem_customs mem
    rw [Convention.isBuiltin, Convention.isBuiltinKey, List.contains_iff_mem.2 reserved]
      at notBuiltin
    cases notBuiltin
  have perm := (arrange_perm (Convention.builtins ++ records.customs)).map (·.key)
  refine perm.nodup_iff.2 ?_
  rw [List.map_append]
  exact List.nodup_append.2
    ⟨Convention.nodup_builtinKeys, Collection.nodup_keys_customs records, apart⟩

variable {records : Collection} {key : String}

theorem find?_ofCollection_eq_some_iff {c : Convention} :
    (ofCollection records).find? key = some c ↔
      c ∈ (ofCollection records).conventions ∧ c.key = key :=
  Convention.find?_key_eq_some_iff (nodup_keys_ofCollection records)

/-- A key that is not reserved has the custom convention that the records give it. -/
theorem find?_ofCollection_of_custom (custom : Convention.isBuiltinKey key = false) :
    (ofCollection records).find? key = records.custom? key := by
  apply Option.ext
  intro c
  rw [find?_ofCollection_eq_some_iff, Collection.custom?_eq_some_iff, mem_ofCollection_iff]
  apply and_congr_left
  rintro rfl
  apply or_iff_right
  intro builtin
  rw [show Convention.isBuiltinKey c.key = true from
    Convention.isBuiltin_of_mem_builtins builtin] at custom
  cases custom

/-- What is active under a key depends on the record stored under it. -/
theorem find?_ofCollection_congr {records' : Collection}
    (same : records'.find? key = records.find? key) :
    (ofCollection records').find? key = (ofCollection records).find? key := by
  apply Option.ext
  intro c
  rw [find?_ofCollection_eq_some_iff, find?_ofCollection_eq_some_iff]
  apply and_congr_left
  rintro rfl
  rw [mem_ofCollection_iff, mem_ofCollection_iff, Collection.mem_customs_congr same]

end Registry

end InlineMarkup

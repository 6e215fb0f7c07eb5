import InlineMarkup.Entries
import InlineMarkup.Record

/-!
# Collections of records

A collection keeps records under keys, in ascending order of the keys. A record may name another
key than the one it is stored under. `find?_insert` and `find?_erase` say what writing and
deleting do; the order makes two collections with the same records equal.
-/

namespace InlineMarkup

/-- Records under distinct keys, in ascending order. -/
structure Collection where
  entries : List (String × Record)
  ordered : entries.Pairwise (·.1 < ·.1)

namespace Collection

instance : DecidableEq Collection := fun a b =>
  decidable_of_iff (a.entries = b.entries) (by cases a; cases b; simp)

/-- No records. -/
def empty : Collection := ⟨[], .nil⟩

/-- The keys, ascending. -/
def keys (c : Collection) : List String :=
  c.entries.map (·.1)

/-- The record stored under `key`. -/
def find? (c : Collection) (key : String) : Option Record :=
  c.entries.lookup key

/-- Whether a record is stored under `key`. -/
def contains (c : Collection) (key : String) : Bool :=
  (c.find? key).isSome

/-- Puts an entry in its place, over one with the same key. -/
def insertEntry (key : String) (r : Record) : List (String × Record) → List (String × Record)
  | [] => [(key, r)]
  | e :: rest =>
    if key < e.1 then (key, r) :: e :: rest
    else if key = e.1 then (key, r) :: rest
    else e :: insertEntry key r rest

theorem fst_mem_of_mem_insertEntry {key : String} {r : Record} {l : List (String × Record)}
    {e : String × Record} (h : e ∈ insertEntry key r l) : e = (key, r) ∨ e ∈ l := by
  induction l with
  | nil => simpa [insertEntry] using h
  | cons a rest ih =>
    unfold insertEntry at h
    split at h
    · simpa using h
    · split at h
      · rcases List.mem_cons.1 h with h | h <;> simp [h]
      · rcases List.mem_cons.1 h with h | h
        · simp [h]
        · rcases ih h with h | h <;> simp [h]

theorem pairwise_insertEntry {key : String} {r : Record} {l : List (String × Record)}
    (h : l.Pairwise (·.1 < ·.1)) : (insertEntry key r l).Pairwise (·.1 < ·.1) := by
  induction l with
  | nil => simp [insertEntry]
  | cons a rest ih =>
    obtain ⟨ha, hr⟩ := List.pairwise_cons.1 h
    unfold insertEntry
    split
    · rename_i hlt
      refine List.pairwise_cons.2 ⟨fun e he => ?_, h⟩
      rcases List.mem_cons.1 he with rfl | he
      · exact hlt
      · exact String.lt_trans hlt (ha e he)
    · rename_i hlt
      split
      · rename_i heq
        subst heq
        exact List.pairwise_cons.2 ⟨ha, hr⟩
      · rename_i hne
        refine List.pairwise_cons.2 ⟨fun e he => ?_, ih hr⟩
        rcases fst_mem_of_mem_insertEntry he with rfl | he
        · exact Std.lt_of_le_of_ne (Std.not_lt.1 hlt) (Ne.symm hne)
        · exact ha e he

/-- The collection with `r` stored under `key`. -/
def insert (c : Collection) (key : String) (r : Record) : Collection where
  entries := insertEntry key r c.entries
  ordered := pairwise_insertEntry c.ordered

/-- The collection without the record stored under `key`. -/
def erase (c : Collection) (key : String) : Collection where
  entries := c.entries.filter (·.1 != key)
  ordered := c.ordered.filter _

/-- The collection of the listed entries; of several under one key the last counts. -/
def ofList (entries : List (String × Record)) : Collection :=
  entries.foldl (fun c e => c.insert e.1 e.2) empty

theorem lookup_insertEntry (key : String) (r : Record) (l : List (String × Record))
    (key' : String) :
    (insertEntry key r l).lookup key' = if key' = key then some r else l.lookup key' := by
  induction l with
  | nil => simp [insertEntry, Entries.lookup_cons]
  | cons e rest ih =>
    unfold insertEntry
    split
    · simp [Entries.lookup_cons]
    · split
      · rename_i heq
        by_cases h : key' = key <;> simp [Entries.lookup_cons, h, ← heq]
      · rename_i hne
        by_cases h : key' = e.1
        · simp [Entries.lookup_cons, h, Ne.symm hne]
        · simp [Entries.lookup_cons, h, ih]

theorem find?_insert (c : Collection) (key key' : String) (r : Record) :
    (c.insert key r).find? key' = if key' = key then some r else c.find? key' :=
  lookup_insertEntry key r c.entries key'

theorem find?_erase (c : Collection) (key key' : String) :
    (c.erase key).find? key' = if key' = key then none else c.find? key' :=
  Entries.lookup_filter_ne key key' c.entries

end Collection

end InlineMarkup

import InlineMarkup.Proofs.Json.Record
import InlineMarkup.Text.Blank

/-!
# Collections, as they may be written

A collection may be written by hand: as an object of its entries, in any order
(`CollectionText`). However it is written, decoding gives its entries
(`decodeCollection_of_written`). What is written for a collection is one of the ways, so decoding
its encoding gives the collection (`decodeCollection_encodeCollection`).
-/

namespace InlineMarkup

namespace Collection

theorem eq_of_entries_eq {c d : Collection} (h : c.entries = d.entries) : c = d := by
  cases c
  cases d
  cases h
  rfl

/-- An entry with a key above all others goes to the end. -/
theorem insertEntry_of_forall_lt {key : String} (r : Record) {l : List (String × Record)}
    (above : ∀ e ∈ l, e.1 < key) : insertEntry key r l = l ++ [(key, r)] := by
  induction l with
  | nil => rfl
  | cons e l ih =>
    obtain ⟨here, later⟩ := List.forall_mem_cons.1 above
    have notBelow : ¬ key < e.1 := String.lt_asymm here
    have other : key ≠ e.1 := by
      rintro rfl
      exact String.lt_irrefl _ here
    rw [insertEntry, if_neg notBelow, if_neg other, ih later, List.cons_append]

/-- Putting in the entries of a collection one after the other gives the collection. -/
theorem ofList_entries (c : Collection) : ofList c.entries = c := by
  have built (entries : List (String × Record)) (done : Collection)
      (ordered : (done.entries ++ entries).Pairwise (·.1 < ·.1)) :
      (entries.foldl (fun c e => c.insert e.1 e.2) done).entries = done.entries ++ entries := by
    induction entries generalizing done with
    | nil => simp
    | cons e entries ih =>
      have above : ∀ e' ∈ done.entries, e'.1 < e.1 := by
        intro e' mem
        exact (List.pairwise_append.1 ordered).2.2 e' mem e List.mem_cons_self
      have placed : (done.insert e.1 e.2).entries = done.entries ++ [e] :=
        insertEntry_of_forall_lt e.2 above
      rw [List.append_cons, ← placed] at ordered
      rw [List.foldl_cons, ih _ ordered, placed, List.append_assoc, List.singleton_append]
  exact eq_of_entries_eq (built c.entries empty c.ordered)

end Collection

namespace Json

/-! ## The grammar -/

/-- An entry of a collection. -/
inductive EntryText : String × Record → List Char → Prop where
  | mk {e : String × Record} {key w w' v : List Char} (named : Quotation e.1 key) (blank : Blank w)
      (blank' : Blank w') (record : RecordText e.2 v) :
      EntryText e (key ++ (w ++ ':' :: (w' ++ v)))

/-- What follows an entry of a collection, up to the end of the collection, with the entries in
it. -/
inductive EntriesText : List (String × Record) → List Char → Prop where
  | last {w : List Char} (blank : Blank w) : EntriesText [] (w ++ ['\x7d'])
  | next {e : String × Record} {entries : List (String × Record)} {w w' m rest : List Char}
      (blank : Blank w) (blank' : Blank w') (here : EntryText e m)
      (others : EntriesText entries rest) :
      EntriesText (e :: entries) (w ++ ',' :: (w' ++ (m ++ rest)))

/-- How a collection may be written, entry by entry. -/
inductive CollectionText : List (String × Record) → List Char → Prop where
  | empty {w : List Char} (blank : Blank w) : CollectionText [] ('\x7b' :: (w ++ ['\x7d']))
  | entries {e : String × Record} {entries : List (String × Record)} {w m rest : List Char}
      (blank : Blank w) (first : EntryText e m) (others : EntriesText entries rest) :
      CollectionText (e :: entries) ('\x7b' :: (w ++ (m ++ rest)))

/-! ## Reading -/

variable {e : String × Record} {entries : List (String × Record)} {v w w' : List Char}

/-- An entry is read, whatever its key is read after. -/
theorem readEntries_entry {m before : List Char} {first : Bool} (here : EntryText e m)
    (opens : ∀ {t chars}, Quotation t chars → ∀ s,
      readName? first (before ++ (chars ++ s)) = .ok (some t, s))
    (done : Collection) (fuel : Nat) (s : List Char) :
    readEntries (fuel + 1) first done (before ++ (m ++ s)) =
      readEntries fuel false (done.insert e.1 e.2) s := by
  cases here with
  | mk named blank blank' record =>
    rename_i key w w' v
    have key := opens named (w ++ ':' :: (w' ++ (v ++ s)))
    have colon := skipColon_append blank (w' ++ (v ++ s))
    have read := readRecord_of_text record blank' s
    simp [readEntries, key, colon, read, bind, Except.bind]

theorem readEntries_of_text (text : EntriesText entries v) (done : Collection) {fuel : Nat}
    (enough : v.length ≤ fuel) (s : List Char) :
    readEntries fuel false done (v ++ s) =
      .ok (entries.foldl (fun c e => c.insert e.1 e.2) done, s) := by
  induction text generalizing done fuel with
  | last blank =>
    obtain ⟨fuel, rfl⟩ := Nat.exists_eq_add_of_le' (show 1 ≤ fuel by grind)
    have close := readName?_close blank false s
    simp [readEntries, close, bind, Except.bind]
  | next blank blank' here others ih =>
    rename_i e entries w w' m rest
    obtain ⟨fuel, rfl⟩ := Nat.exists_eq_add_of_le' (show 1 ≤ fuel by grind)
    have step := readEntries_entry here (readName?_later · blank blank') done fuel (rest ++ s)
    rw [ih _ (by grind)] at step
    simpa using step

theorem readCollection_of_text (text : CollectionText entries v) (blank : Blank w)
    (s : List Char) : readCollection (w ++ (v ++ s)) = .ok (Collection.ofList entries, s) := by
  cases text with
  | empty blank' =>
    have close := readName?_close blank' true s
    rw [readCollection, List.cons_append, skipSpace_append_cons blank rfl]
    simp [readEntries, close, bind, Except.bind, Collection.ofList]
  | entries blank' first others =>
    rename_i e entries w' m rest
    have step := readEntries_entry first (readName?_first · blank') .empty
      (w' ++ (m ++ (rest ++ s))).length (rest ++ s)
    rw [readEntries_of_text others _ (by grind)] at step
    rw [readCollection, List.cons_append, skipSpace_append_cons blank rfl, List.append_assoc,
      List.append_assoc]
    exact step

/-- However a collection is written, with blanks around it, decoding gives its entries, put in one
after the other. -/
theorem decodeCollection_of_written (text : CollectionText entries v) (blank : Blank w)
    (blank' : Blank w') :
    decodeCollection (String.ofList (w ++ (v ++ w'))) = .ok (Collection.ofList entries) :=
  decodeWith_of_read (readCollection_of_text text blank w') blank'

/-! ## Writing -/

theorem entryText_pretty (e : String × Record) (depth : Nat) :
    EntryText e (Value.prettyMember depth (e.1, ofRecord e.2)) :=
  .mk (quotation_quote e.1) blank_nil blank_space (recordText_pretty e.2 depth)

theorem entriesText_pretty (entries : List (String × Record)) :
    EntriesText entries (Value.prettyRest 0 (entries.map fun e => (e.1, ofRecord e.2))) := by
  induction entries with
  | nil => exact .last (blank_newline 0)
  | cons e entries ih =>
    have next := EntriesText.next blank_nil (blank_newline 1) (entryText_pretty e 1) ih
    simpa [Value.prettyRest] using next

/-- What is written for a collection is one of the ways to write it. -/
theorem collectionText_pretty (c : Collection) :
    CollectionText c.entries ((ofCollection c).prettyChars 0) := by
  rw [ofCollection]
  cases c.entries with
  | nil => exact .empty blank_nil
  | cons e entries =>
    have written := CollectionText.entries (blank_newline 1) (entryText_pretty e 1)
      (entriesText_pretty entries)
    simpa [Value.prettyChars] using written

/-- Decoding the encoding of a collection gives the collection. -/
theorem decodeCollection_encodeCollection (c : Collection) :
    decodeCollection (encodeCollection c) = .ok c := by
  have decoded := decodeCollection_of_written (collectionText_pretty c) blank_nil blank_nil
  rwa [List.nil_append, List.append_nil, Collection.ofList_entries] at decoded

/-- The encoding of a collection begins with a brace, so it is not blank. -/
theorem isBlankText_encodeCollection (c : Collection) :
    Text.isBlankText (encodeCollection c) = false := by
  have begun : ∃ rest, (ofCollection c).prettyChars 0 = '\x7b' :: rest := by
    rw [ofCollection]
    cases c.entries with
    | nil => exact ⟨_, rfl⟩
    | cons e entries => exact ⟨_, rfl⟩
  obtain ⟨rest, begun⟩ := begun
  have brace : Text.isBlank '\x7b' = false := by decide
  rw [Text.isBlankText, encodeCollection, Value.pretty, String.toList_ofList, begun, List.all_cons,
    brace, Bool.false_and]

end Json

end InlineMarkup

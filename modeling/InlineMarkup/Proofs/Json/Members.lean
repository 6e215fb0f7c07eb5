import Mathlib.Data.List.Nodup
import InlineMarkup.Proofs.Json.Skip

/-!
# Values with named fields, as they may be written

A value of a shape may be written as an object or as an array (`Shape.Written`). An object lists its
fields in any order, with unknown members among them; an array lists them in the order of the
shape, up to any of them. If a shape reads the values of its fields, it reads both, and collects the
fields that are given (`Shape.Reads.readValue_of_written`).
-/

namespace InlineMarkup.Json

namespace Shape

variable {φ σ : Type}

/-! ## The grammar -/

section Grammar

variable (shape : Shape φ σ) (FieldText : φ → List Char → Prop)

/-- A member of an object: a field, or a well-formed value under a name of no field. -/
inductive Member : Option φ → List Char → Prop where
  | field {f : φ} {name w w' v : List Char} (named : Quotation (shape.name f) name)
      (blank : Blank w) (blank' : Blank w') (value : FieldText f v) :
      Member (some f) (name ++ (w ++ ':' :: (w' ++ v)))
  | unknown {t : String} {name w w' v : List Char} (other : ∀ f ∈ shape.fields, shape.name f ≠ t)
      (named : Quotation t name) (blank : Blank w) (blank' : Blank w')
      (value : WellFormed .value v) : Member none (name ++ (w ++ ':' :: (w' ++ v)))

/-- What follows a member of an object, up to the end of the object, with the fields in it. -/
inductive Members : List φ → List Char → Prop where
  | last {w : List Char} (blank : Blank w) : Members [] (w ++ ['\x7d'])
  | next {f? : Option φ} {given : List φ} {w w' m rest : List Char} (blank : Blank w)
      (blank' : Blank w') (here : shape.Member FieldText f? m) (others : Members given rest) :
      Members (f?.toList ++ given) (w ++ ',' :: (w' ++ (m ++ rest)))

/-- What follows an item of an array, up to the end of the array, with the fields in it. -/
inductive Items : List φ → List Char → Prop where
  | last {w : List Char} (blank : Blank w) : Items [] (w ++ [']'])
  | next {f : φ} {given : List φ} {w w' v rest : List Char} (blank : Blank w) (blank' : Blank w')
      (here : FieldText f v) (others : Items given rest) :
      Items (f :: given) (w ++ ',' :: (w' ++ (v ++ rest)))

/-- A value of the shape, with the fields that are given. -/
inductive Written : List φ → List Char → Prop where
  | emptyObject {w : List Char} (blank : Blank w) : Written [] ('\x7b' :: (w ++ ['\x7d']))
  | object {f? : Option φ} {given : List φ} {w m rest : List Char} (blank : Blank w)
      (first : shape.Member FieldText f? m) (others : shape.Members FieldText given rest) :
      Written (f?.toList ++ given) ('\x7b' :: (w ++ (m ++ rest)))
  | emptyArray {w : List Char} (blank : Blank w) : Written [] ('[' :: (w ++ [']']))
  | array {f : φ} {given : List φ} {w v rest : List Char} (inOrder : f :: given <+: shape.fields)
      (blank : Blank w) (first : FieldText f v) (others : Items FieldText given rest) :
      Written (f :: given) ('[' :: (w ++ (v ++ rest)))

end Grammar

/-! ## Reading -/

variable {shape : Shape φ σ} {FieldText : φ → List Char → Prop} {put : φ → σ → σ}
  {given : List φ} {done start : σ} {v s : List Char}

/-- The shape reads each of its fields where a text for the field stands, and `put`s it to those
that were read before. -/
structure Reads (shape : Shape φ σ) (FieldText : φ → List Char → Prop) (put : φ → σ → σ) :
    Prop where
  named : ∀ f, shape.field? (shape.name f) = some f
  has_put : ∀ f done g, shape.has (put f done) g = true ↔ f = g ∨ shape.has done g = true
  begins : ∀ {f v}, FieldText f v → ∃ c rest, v = c :: rest ∧ isSpace c = false ∧ c ≠ ']'
  read : ∀ {f v w}, FieldText f v → Blank w → ∀ done s,
    shape.read done f (w ++ (v ++ s)) = .ok (put f done, s)

/-- The fields that were read are those that were read before and those that are given. -/
theorem Reads.has_foldl (reads : shape.Reads FieldText put) (given : List φ) (done : σ) (g : φ) :
    shape.has (given.foldl (fun done f => put f done) done) g = true ↔
      g ∈ given ∨ shape.has done g = true := by
  induction given generalizing done with
  | nil => simp
  | cons f given ih =>
    rw [List.foldl_cons, ih, reads.has_put, List.mem_cons, eq_comm (a := g)]
    tauto

theorem members_stop (h : shape.Members FieldText given v) (s : List Char) : Stops (v ++ s) := by
  cases h with
  | last blank => exact stops_append blank (.inr (.inr rfl)) [] s
  | next blank blank' here others => exact stops_append blank (.inl rfl) _ s

theorem field?_eq_none {t : String} (other : ∀ f ∈ shape.fields, shape.name f ≠ t) :
    shape.field? t = none := by
  simpa [field?] using other

/-- A member is read, whatever its name is read after. -/
theorem Reads.readMembers_member (reads : shape.Reads FieldText put) {f? : Option φ}
    {m before : List Char} {first : Bool} (here : shape.Member FieldText f? m)
    (opens : ∀ {t chars}, Quotation t chars → ∀ s,
      readName? first (before ++ (chars ++ s)) = .ok (some t, s))
    (new : ∀ f ∈ f?, shape.has done f = false) (ends : Stops s) (fuel : Nat) :
    shape.readMembers (fuel + 1) first done (before ++ (m ++ s)) =
      shape.readMembers fuel false (f?.toList.foldl (fun done f => put f done) done) s := by
  cases here with
  | field named blank blank' value =>
    rename_i f name w w' v
    have isNew := new f rfl
    have name := opens named (w ++ ':' :: (w' ++ (v ++ s)))
    have colon := skipColon_append blank (w' ++ (v ++ s))
    have read := reads.read value blank' done s
    simp [readMembers, name, reads.named, isNew, colon, read, bind, Except.bind]
  | unknown other named blank blank' value =>
    rename_i t name w w' v
    have name := opens named (w ++ ':' :: (w' ++ (v ++ s)))
    have colon := skipColon_append blank (w' ++ (v ++ s))
    have skip := skipValue_of_wellFormed value blank' ends
    simp [readMembers, name, field?_eq_none other, colon, skip, bind, Except.bind]

/-- Once the first of distinct fields were read, the others are as new as they were. -/
theorem Reads.new_foldl (reads : shape.Reads FieldText put) {fs : List φ}
    (distinct : (fs ++ given).Nodup) (new : ∀ f ∈ fs ++ given, shape.has done f = false) :
    ∀ f ∈ given, shape.has (fs.foldl (fun done f => put f done) done) f = false := by
  intro f mem
  have apart : f ∉ fs := fun mem' => (List.nodup_append.1 distinct).2.2 f mem' f mem rfl
  rw [← Bool.not_eq_true, reads.has_foldl, not_or]
  exact ⟨apart, by simp [new f (List.mem_append_right fs mem)]⟩

theorem Reads.readMembers_of_members (reads : shape.Reads FieldText put)
    (h : shape.Members FieldText given v) (distinct : given.Nodup)
    (new : ∀ f ∈ given, shape.has done f = false) {fuel : Nat} (enough : v.length ≤ fuel)
    (s : List Char) :
    shape.readMembers fuel false done (v ++ s) =
      .ok (given.foldl (fun done f => put f done) done, s) := by
  induction h generalizing done fuel with
  | last blank =>
    obtain ⟨fuel, rfl⟩ := Nat.exists_eq_add_of_le' (show 1 ≤ fuel by grind)
    have close := readName?_close blank false s
    simp [readMembers, close, bind, Except.bind]
  | next blank blank' here others ih =>
    rename_i f? given w w' m rest
    obtain ⟨fuel, rfl⟩ := Nat.exists_eq_add_of_le' (show 1 ≤ fuel by grind)
    have isNew : ∀ f ∈ f?, shape.has done f = false := fun f mem =>
      new f (List.mem_append_left given (Option.mem_toList.2 mem))
    have step := reads.readMembers_member here (readName?_later · blank blank') isNew
      (members_stop others s) fuel
    rw [ih (List.nodup_append.1 distinct).2.1 (reads.new_foldl distinct new) (by grind)] at step
    simpa [List.foldl_append] using step

theorem Reads.readItems_of_items (reads : shape.Reads FieldText put)
    (h : Items FieldText given v) {fields : List φ} (inOrder : given <+: fields) (done : σ)
    (s : List Char) :
    shape.readItems fields false done (v ++ s) =
      .ok (given.foldl (fun done f => put f done) done, s) := by
  induction h generalizing fields done with
  | last blank =>
    cases fields <;>
      simp [readItems, skipSpace_append_cons blank (show isSpace ']' = false from rfl)]
  | next blank blank' here others ih =>
    rename_i f given w w' v rest
    obtain ⟨c, tail, rfl, noSpace, notClose⟩ := reads.begins here
    obtain ⟨later, rfl⟩ := inOrder
    have read := reads.read here blank_nil done (rest ++ s)
    simp only [List.nil_append, List.cons_append] at read
    simp [readItems, skipSpace_append_cons blank (show isSpace ',' = false from rfl),
      skipSpace_append_cons blank' noSpace, notClose, read, ih (List.prefix_append given later),
      bind, Except.bind]

/-- A value is read, whatever follows it, and the fields that are given are collected. -/
theorem Reads.readValue_of_written (reads : shape.Reads FieldText put)
    (written : shape.Written FieldText given v) (distinct : given.Nodup)
    (new : ∀ f, shape.has start f = false) {w : List Char} (blank : Blank w) (s : List Char) :
    shape.readValue start (w ++ (v ++ s)) =
      .ok (given.foldl (fun done f => put f done) start, s) := by
  cases written with
  | emptyObject blank' =>
    have close := readName?_close blank' true s
    rw [readValue, List.cons_append, skipSpace_append_cons blank rfl]
    simp [readMembers, close, bind, Except.bind]
  | object blank' first others =>
    rename_i f? given w' m rest
    have step := reads.readMembers_member first (readName?_first · blank') (fun f _ => new f)
      (members_stop others s) (w' ++ (m ++ (rest ++ s))).length
    rw [reads.readMembers_of_members others (List.nodup_append.1 distinct).2.1
      (reads.new_foldl distinct fun f _ => new f) (by grind), ← List.foldl_append] at step
    rw [readValue, List.cons_append, skipSpace_append_cons blank rfl, List.append_assoc,
      List.append_assoc]
    exact step
  | emptyArray blank' =>
    rw [readValue, List.cons_append, skipSpace_append_cons blank rfl]
    cases shape.fields <;>
      simp [readItems, skipSpace_append_cons blank' (show isSpace ']' = false from rfl)]
  | array inOrder blank' first others =>
    rename_i f given w' v rest
    obtain ⟨c, tail, rfl, noSpace, notClose⟩ := reads.begins first
    obtain ⟨later, fields⟩ := inOrder
    have read := reads.read first blank_nil start (rest ++ s)
    have items := reads.readItems_of_items others (List.prefix_append given later)
      (put f start) s
    simp only [List.nil_append, List.cons_append] at read
    rw [readValue, List.cons_append, skipSpace_append_cons blank rfl]
    simp [← fields, readItems, skipSpace_append_cons blank' noSpace, notClose, read, items, bind,
      Except.bind]

/-! ## Writing -/

section Pretty

variable (value : φ → Value) (depth : Nat)
  (texts : ∀ f ∈ given, FieldText f ((value f).prettyChars (depth + 1)))
include texts

theorem members_pretty :
    shape.Members FieldText given
      (Value.prettyRest depth (given.map fun f => (shape.name f, value f))) := by
  induction given with
  | nil => exact .last (blank_newline depth)
  | cons f given ih =>
    obtain ⟨here, later⟩ := List.forall_mem_cons.1 texts
    have member := Member.field (quotation_quote (shape.name f)) blank_nil blank_space here
    have members := Members.next blank_nil (blank_newline (depth + 1)) member (ih later)
    simpa [Value.prettyRest, Value.prettyMember] using members

/-- An object with one field a line is one of the ways to write its fields. -/
theorem written_pretty :
    shape.Written FieldText given
      ((Value.object (given.map fun f => (shape.name f, value f))).prettyChars depth) := by
  cases given with
  | nil => exact .emptyObject blank_nil
  | cons f given =>
    obtain ⟨here, later⟩ := List.forall_mem_cons.1 texts
    have member := Member.field (quotation_quote (shape.name f)) blank_nil blank_space here
    have object := Written.object (blank_newline (depth + 1)) member
      (members_pretty value depth later)
    simpa [Value.prettyChars, Value.prettyMember] using object

end Pretty

end Shape

end InlineMarkup.Json

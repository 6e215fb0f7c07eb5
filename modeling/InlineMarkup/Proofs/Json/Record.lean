import InlineMarkup.Json.Record
import InlineMarkup.Proofs.Json.Members

/-!
# Records, as they may be written

A record may be written by hand: as an object of its fields in any order or as an array, without
some of the fields that have their defaults, with unknown members, and with blanks between the
tokens (`RecordText`). However it is written, decoding gives the record (`decodeRecord_of_written`).
-/

namespace InlineMarkup

namespace Effects

theorem eq_of_contains_eq {es es' : Effects} (h : ∀ e, es.contains e = es'.contains e) :
    es = es' := by
  obtain ⟨glow, bold, flash, pulse⟩ := es
  obtain ⟨glow', bold', flash', pulse'⟩ := es'
  cases h .glow
  cases h .bold
  cases h .flash
  cases h .pulse
  rfl

theorem contains_ofList (l : List Effect) (e : Effect) :
    (ofList l).contains e = true ↔ e ∈ l := by
  have inserted (es : Effects) :
      (l.foldl insert es).contains e = true ↔ e ∈ l ∨ es.contains e = true := by
    induction l generalizing es with
    | nil => simp
    | cons e' l ih =>
      rw [List.foldl_cons, ih, contains_insert, List.mem_cons, Bool.or_eq_true, beq_iff_eq,
        eq_comm (a := e)]
      tauto
  have empty : none.contains e = false := by cases e <;> rfl
  simp [ofList, inserted, empty]

end Effects

namespace Json

/-! ## The grammar -/

/-- A value of a shape, with all its fields but some of those that may be left out. -/
def Shape.Complete {φ σ : Type} (shape : Shape φ σ) (FieldText : φ → List Char → Prop)
    (MayOmit : φ → Prop) (v : List Char) : Prop :=
  ∃ given : List φ, shape.Written FieldText given v ∧ given.Nodup ∧ ∀ f, f ∉ given → MayOmit f

/-- How a set of effects may be written: effects that are not in the set may be left out. -/
def EffectsText (es : Effects) : List Char → Prop :=
  effectsShape.Complete (fun e v => v = Value.ofFlag (es.contains e)) fun e => es.contains e = false

/-- How a field of a record may be written. -/
def FieldText (r : Record) : Field → List Char → Prop
  | .text f => Quotation (f.get r)
  | .effects => EffectsText r.effects

/-- Whether a field of a record may be left out: it need not be given, and has its default. -/
def Field.MayOmit (r : Record) : Field → Prop
  | .text .usage => r.usage = ""
  | .text .description => r.description = ""
  | .text .sample => r.sample = ""
  | .effects => r.effects = .none
  | _ => False

/-- How a record may be written. -/
def RecordText (r : Record) : List Char → Prop :=
  recordShape.Complete (FieldText r) (Field.MayOmit r)

theorem Shape.Written.begins {φ σ : Type} {shape : Shape φ σ} {FieldText : φ → List Char → Prop}
    {given : List φ} {v : List Char} (written : shape.Written FieldText given v) :
    ∃ c rest, v = c :: rest ∧ isSpace c = false ∧ c ≠ ']' := by
  cases written <;> exact ⟨_, _, rfl, rfl, by decide⟩

/-! ## Effects -/

section Effects

variable (es : Effects)

/-- The flags that were read, with one more. -/
def putFlag (e : Effect) (flags : List (Effect × Bool)) : List (Effect × Bool) :=
  (e, es.contains e) :: flags

theorem reads_effects :
    effectsShape.Reads (fun e v => v = Value.ofFlag (es.contains e)) (putFlag es) where
  named e := by cases e <;> decide
  has_put e flags e' := by
    by_cases same : e' = e
    · simp [effectsShape, putFlag, same]
    · simp [effectsShape, putFlag, List.lookup_cons, beq_eq_false_iff_ne.2 same, Ne.symm same]
  begins := by
    rintro e v rfl
    cases es.contains e <;> exact ⟨_, _, rfl, rfl, by decide⟩
  read := by
    rintro e v w rfl blank flags s
    simp [effectsShape, putFlag, readFlag_ofFlag blank, Except.map]

/-- The flags that were read decide the set if no effect of the set was left out. -/
theorem ofList_flags {given : List Effect} (omitted : ∀ e, e ∉ given → es.contains e = false) :
    Effects.ofList (((given.foldl (fun flags e => putFlag es e flags) []).filter (·.2)).map (·.1)) =
      es := by
  have flags : given.foldl (fun flags e => putFlag es e flags) [] =
      (given.map fun e => (e, es.contains e)).reverse ++ [] :=
    List.foldl_flip_cons_eq_append
  have listed (e : Effect) : es.contains e = true → e ∈ given := fun isIn =>
    Classical.not_not.1 fun out => by simp [omitted e out] at isIn
  refine Effects.eq_of_contains_eq fun e => Bool.eq_iff_iff.2 ?_
  rw [Effects.contains_ofList, flags]
  simpa using listed e

variable {es} {v w : List Char}

theorem readEffects_of_text (text : EffectsText es v) (blank : Blank w) (s : List Char) :
    readEffects (w ++ (v ++ s)) = .ok (es, s) := by
  obtain ⟨given, written, distinct, omitted⟩ := text
  have new (e : Effect) : effectsShape.has [] e = false := rfl
  have read := (reads_effects es).readValue_of_written written distinct new blank s
  simp [readEffects, read, Except.map, ofList_flags es omitted]

end Effects

/-! ## Records -/

section Record

variable (r : Record)

/-- What is known of a record once a field more was read. -/
def Fields.put : Field → Fields → Fields
  | .text f, done => { done with texts := (f, f.get r) :: done.texts }
  | .effects, done => { done with effects := some r.effects }

theorem lookup_put (g : Field) (done : Fields) (f : TextField) :
    (Fields.put r g done).texts.lookup f =
      if g = .text f then some (f.get r) else done.texts.lookup f := by
  cases g with
  | effects => rfl
  | text g =>
    by_cases same : f = g
    · simp [Fields.put, same]
    · simp [Fields.put, List.lookup_cons, beq_eq_false_iff_ne.2 same, Ne.symm same]

theorem effects_put (g : Field) (done : Fields) :
    (Fields.put r g done).effects = if g = .effects then some r.effects else done.effects := by
  cases g <;> rfl

theorem reads_record : recordShape.Reads (FieldText r) (Fields.put r) where
  named f := by
    cases f with
    | text f => cases f <;> decide
    | effects => decide
  has_put f done g := by
    cases g with
    | text g => by_cases same : f = .text g <;> simp [recordShape, lookup_put, same]
    | effects => by_cases same : f = .effects <;> simp [recordShape, effects_put, same]
  begins := by
    intro f v text
    cases f with
    | text f =>
      obtain ⟨body, -, rfl⟩ := text
      exact ⟨_, _, rfl, rfl, by decide⟩
    | effects =>
      obtain ⟨given, written, -⟩ := text
      exact written.begins
  read := by
    intro f v w text blank done s
    cases f with
    | text f => simp [recordShape, Fields.put, readString_of_quotation text blank, Except.map]
    | effects => simp [recordShape, Fields.put, readEffects_of_text text blank, Except.map]

theorem lookup_foldl_put (given : List Field) (done : Fields) (f : TextField) :
    (given.foldl (fun done g => Fields.put r g done) done).texts.lookup f =
      if .text f ∈ given then some (f.get r) else done.texts.lookup f := by
  induction given generalizing done with
  | nil => simp
  | cons g given ih =>
    rw [List.foldl_cons, ih, lookup_put]
    grind

theorem effects_foldl_put (given : List Field) (done : Fields) :
    (given.foldl (fun done g => Fields.put r g done) done).effects =
      if .effects ∈ given then some r.effects else done.effects := by
  induction given generalizing done with
  | nil => simp
  | cons g given ih =>
    rw [List.foldl_cons, ih, effects_put]
    grind

variable {r} {v w w' : List Char}

/-- The fields that were read make the record if none was left out that may not be. -/
theorem record?_foldl_put {given : List Field} (omitted : ∀ f, f ∉ given → f.MayOmit r) :
    (given.foldl (fun done f => Fields.put r f done) {}).record? = some r := by
  have required (f : TextField) (needed : ¬ Field.MayOmit r (.text f)) :
      (given.foldl (fun done f => Fields.put r f done) {}).texts.lookup f = some (f.get r) := by
    rw [lookup_foldl_put, if_pos (Classical.not_not.1 (mt (omitted (.text f)) needed))]
  have optional (f : TextField) (default : Field.MayOmit r (.text f) → f.get r = "") :
      ((given.foldl (fun done f => Fields.put r f done) {}).texts.lookup f).getD "" = f.get r := by
    rw [lookup_foldl_put]
    split
    · rfl
    · rename_i out
      exact (default (omitted _ out)).symm
  have effects : ((given.foldl (fun done f => Fields.put r f done) {}).effects).getD {} =
      r.effects := by
    rw [effects_foldl_put]
    split
    · rfl
    · rename_i out
      exact (show r.effects = .none from omitted _ out).symm
  have key := required .key id
  have opening := required .opening id
  have closing := required .closing id
  have color := required .color id
  have usage := optional .usage id
  have description := optional .description id
  have sample := optional .sample id
  simp only [TextField.get] at key opening closing color usage description sample
  simp [Fields.record?, key, opening, closing, color, usage, description, sample, effects]

theorem readRecord_of_text (text : RecordText r v) (blank : Blank w) (s : List Char) :
    readRecord (w ++ (v ++ s)) = .ok (r, s) := by
  obtain ⟨given, written, distinct, omitted⟩ := text
  have new (f : Field) : recordShape.has {} f = false := by cases f <;> rfl
  have read := (reads_record r).readValue_of_written written distinct new blank s
  simp [readRecord, read, record?_foldl_put omitted, bind, Except.bind]

/-- A text is decoded if only blanks are left of it. -/
theorem decodeWith_of_read {α : Type} {read : List Char → Except Fault (α × List Char)}
    {chars rest : List Char} {a : α} (found : read chars = .ok (a, rest)) (blank : Blank rest) :
    decodeWith read (String.ofList chars) = .ok a := by
  have nothing : skipSpace rest = [] := List.dropWhile_eq_nil_iff.2 blank
  rw [decodeWith, String.toList_ofList, found]
  simp [nothing, bind, Except.bind]

/-- However a record is written, with blanks around it, decoding gives the record. -/
theorem decodeRecord_of_written (text : RecordText r v) (blank : Blank w) (blank' : Blank w') :
    decodeRecord (String.ofList (w ++ (v ++ w'))) = .ok r := by
  exact decodeWith_of_read (readRecord_of_text text blank w') blank'

/-- An object written by hand: its fields from last to first, without the texts that have defaults
and three of the effects, with an unknown member, and with a key in escapes. -/
theorem decodeRecord_of_written_byHand :
    decodeRecord ("\t\x7b\"color\":\"#f00\", \"note\":[1e+9, \x7b\"a\":\"\\ud800\"\x7d]," ++
        " \"effects\":\x7b\"bold\":true\x7d, \"closing\":\">\", \"opening\":\"<\"," ++
        " \"key\":\"\\u0023\\ud83d\\ude00\" \x7d\n") =
      .ok { key := "#😀", opening := "<", closing := ">", color := "#f00",
            effects := { bold := true } } := by
  let es : Effects := { bold := true }
  let r : Record := { key := "#😀", opening := "<", closing := ">", color := "#f00", effects := es }
  have space : Blank [' '] := blank_space
  have text (f : TextField) : recordShape.Member (FieldText r) (some (.text f)) _ :=
    .field (quotation_quote (Field.text f).name) blank_nil blank_nil (quotation_quote (f.get r))
  have bold : effectsShape.Member (fun e v => v = Value.ofFlag (es.contains e)) (some .bold) _ :=
    .field (quotation_quote "bold") blank_nil blank_nil rfl
  have unset (e : Effect) (out : e ∉ [Effect.bold]) : es.contains e = false := by
    cases e <;> first | rfl | exact absurd (by decide) out
  have effects : recordShape.Member (FieldText r) (some .effects) _ :=
    .field (quotation_quote "effects") blank_nil blank_nil
      ⟨[.bold], .object blank_nil bold (.last blank_nil), by decide, unset⟩
  have number : Number ([] ++ (['1'] ++ ([] ++ 'e' :: (['+'] ++ ['9'])))) :=
    .mk (by decide) (.digits (by decide) ⟨nofun, List.forall_mem_singleton.2 rfl⟩) .none
      (.some (.inl rfl) (by decide) ⟨nofun, List.forall_mem_singleton.2 rfl⟩)
  have object : WellFormed .value _ :=
    .object blank_nil
      (.member (.itself (c := 'a') (by decide) (by decide) (by decide) .close) blank_nil blank_nil
        (.text (.unit (codeUnit_hex4 (n := 0xD800) (by decide)) .close)))
      (.lastMember blank_nil)
  have note : recordShape.Member (FieldText r) none _ :=
    .unknown (t := "note") (by decide) (quotation_quote "note") blank_nil blank_nil
      (.array blank_nil (.number number) (.item blank_nil space object (.lastItem blank_nil)))
  have hash : Spelled '#' ('\\' :: 'u' :: Ascii.hex4 0x23) := .unit (codeUnit_hex4 (by decide))
  have face : Spelled '😀'
      ('\\' :: 'u' :: (Ascii.hex4 0xD83D ++ '\\' :: 'u' :: Ascii.hex4 0xDE00)) :=
    .pair (m := 0x3D) (n := 0x200) (codeUnit_hex4 (by decide)) (codeUnit_hex4 (by decide))
      (by decide) (by decide) (by decide)
  have spelling : Spelling ['#', '😀'] _ := .cons hash (.cons face .nil)
  rw [← String.toList_ofList (l := ['#', '😀'])] at spelling
  have key : recordShape.Member (FieldText r) (some (.text .key)) _ :=
    .field (quotation_quote "key") blank_nil blank_nil ⟨_, spelling, rfl⟩
  have written : recordShape.Written (FieldText r) _ _ :=
    .object blank_nil (text .color) (.next blank_nil space note (.next blank_nil space effects
      (.next blank_nil space (text .closing) (.next blank_nil space (text .opening)
        (.next blank_nil space key (.last space))))))
  have omitted (f : Field)
      (out : f ∉ [.text .color, .effects, .text .closing, .text .opening, .text .key]) :
      f.MayOmit r := by
    match f with
    | .text .usage | .text .description | .text .sample => rfl
    | .effects | .text .key | .text .opening | .text .closing | .text .color =>
      exact absurd (by decide) out
  have tab : Blank ['\t'] := by simp [Blank, isSpace]
  have lineFeed : Blank ['\n'] := blank_newline 0
  have decoded := decodeRecord_of_written ⟨_, written, by decide, omitted⟩ tab lineFeed
  refine (congrArg decodeRecord ?_).trans decoded
  decide +kernel

end Record

/-! ## Writing -/

theorem effectsText_pretty (es : Effects) (depth : Nat) :
    EffectsText es ((ofEffects es).prettyChars depth) := by
  refine ⟨Effect.all, ?_, by decide, fun e out => absurd (Effect.mem_all e) out⟩
  exact Shape.written_pretty (fun e => .flag (es.contains e)) depth fun e _ => rfl

/-- What is written for a record is one of the ways to write it. -/
theorem recordText_pretty (r : Record) (depth : Nat) :
    RecordText r ((ofRecord r).prettyChars depth) := by
  have all (f : Field) : f ∈ Field.all := by
    cases f with
    | text f => cases f <;> decide
    | effects => decide
  refine ⟨Field.all, ?_, by decide, fun f out => absurd (all f) out⟩
  refine Shape.written_pretty (Field.get r) depth fun f _ => ?_
  cases f with
  | text f => exact quotation_quote (f.get r)
  | effects => exact effectsText_pretty r.effects (depth + 1)

end Json

end InlineMarkup

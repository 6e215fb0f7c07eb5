import InlineMarkup.Proofs.Color
import InlineMarkup.Proofs.Preview.Terminal
import InlineMarkup.Proofs.Segment.Atoms

/-!
# Previews on a terminal

What a terminal shows for a preview is the text of the segments and a line break. Each character is
in the color of the innermost span around it that has one, and in the attributes of all spans
around it. No look outlasts the run that it was selected for (`shown_render`).
-/

namespace InlineMarkup

namespace Preview

/-! ## What should be shown -/

/-- The look of text inside spans of the conventions `around`, of which the first is the innermost:
the color of the first style that declares one, and the attributes of all. -/
def lookOf (chosen : String) (around : List Convention) : Look where
  color := (around.findSome? fun c =>
    (Style.compile c.color c.effects chosen).get? "color").bind Rgb.named?
  bold := around.any (·.effects.contains .bold)
  underline := around.any (·.effects.contains .glow)
  blink := around.any fun c => c.effects.contains .flash || c.effects.contains .pulse

mutual

/-- The characters of a segment inside spans of `around`, with their looks. -/
def looksOne (chosen : String) (around : List Convention) : Segment String → List (Char × Look)
  | .plain run => run.toList.map fun c => (c, lookOf chosen around)
  | .span c cs => looks chosen (c :: around) cs

/-- The characters of segments inside spans of `around`, with their looks. -/
def looks (chosen : String) (around : List Convention) :
    List (Segment String) → List (Char × Look)
  | [] => []
  | s :: rest => looksOne chosen around s ++ looks chosen around rest

end

theorem map_fst_looks (chosen : String) (around : List Convention) (l : List (Segment String)) :
    (looks chosen around l).map (·.1) = (Segment.textAll l).toList := by
  induction l using Segment.listInduction generalizing around with
  | nil => rfl
  | plain run l ih =>
    simp [looks, looksOne, Segment.textAll, Segment.text, ih, Function.comp_def]
  | span c cs l inner ih => simp [looks, looksOne, Segment.textAll, Segment.text, inner, ih]

end Preview

/-! ## Looks on and off -/

namespace Look

theorem toList_escape (code : String) :
    (escape code).toList = escapeCharacter :: '[' :: (code.toList ++ ['m']) := by
  simp [escape, escapeCharacter]

theorem channel?_toDigits {n : Nat} (le : n ≤ 255) : channel? (Nat.toDigits 10 n) = some n := by
  have read : Nat.ofDigitChars 10 (Nat.toDigits 10 n) 0 = n :=
    Nat.ofDigitChars_toDigits (by decide) (by decide)
  have digits : (Nat.toDigits 10 n).all Char.isDigit := by
    rw [List.all_eq_true]
    intro c mem
    exact Nat.isDigit_of_mem_toDigits (by decide) (by decide) mem
  simp [channel?, read, digits, le, Nat.toDigits_ne_nil]

theorem select?_colorCode (look : Look) {c : Rgb} (inRange : c.InRange) :
    look.select? (colorCode c).toList = some { look with color := some c } := by
  have written : (colorCode c).toList = [';'].intercalate
      [['3', '8'], ['2'], Nat.toDigits 10 c.red, Nat.toDigits 10 c.green,
        Nat.toDigits 10 c.blue] := by
    simp [colorCode, List.intercalate]
  have noSeparator (n : Nat) : ';' ∉ Nat.toDigits 10 n := by
    intro mem
    have digit := Nat.isDigit_of_mem_toDigits (by decide) (by decide) mem
    revert digit
    decide
  have parts : (colorCode c).toList.splitOn ';' =
      [['3', '8'], ['2'], Nat.toDigits 10 c.red, Nat.toDigits 10 c.green,
        Nat.toDigits 10 c.blue] := by
    rw [written]
    exact List.splitOn_intercalate ';' (by simp [noSeparator]) (by simp)
  simp only [select?, parts, channel?_toDigits inRange.red, channel?_toDigits inRange.green,
    channel?_toDigits inRange.blue]
  rfl

/-- The look after one code after the other. -/
def selectAll? (look : Look) (codes : List String) : Option Look :=
  codes.foldlM (fun look code => look.select? code.toList) look

/-- The codes of a look select it. -/
theorem selectAll?_codes {l : Look} (inRange : ∀ c, l.color = some c → c.InRange) :
    selectAll? {} l.codes = some l := by
  obtain ⟨color, bold, underline, blink⟩ := l
  cases color with
  | none => cases bold <;> cases underline <;> cases blink <;> rfl
  | some c =>
    have colored : select? {} (colorCode c).toList = some { color := some c } :=
      select?_colorCode {} (inRange c rfl)
    have first : ∀ rest, selectAll? {} (colorCode c :: rest) =
        selectAll? { color := some c } rest := by
      intro rest
      rw [selectAll?, List.foldlM_cons, colored]
      rfl
    rw [codes, Option.toList_some, List.map_singleton, List.append_assoc, List.append_assoc,
      List.singleton_append, first]
    cases bold <;> cases underline <;> cases blink <;> rfl

theorem selectAll?_endCodes (l : Look) : l.selectAll? l.endCodes = some {} := by
  obtain ⟨color, bold, underline, blink⟩ := l
  cases color <;> cases bold <;> cases underline <;> cases blink <;> rfl

/-- A code is made of parameters. -/
def IsCode (code : String) : Prop :=
  code.toList.all Terminal.isParameter

instance (code : String) : Decidable (IsCode code) :=
  inferInstanceAs (Decidable (code.toList.all Terminal.isParameter))

theorem all_isParameter_toDigits (n : Nat) : (Nat.toDigits 10 n).all Terminal.isParameter := by
  rw [List.all_eq_true]
  intro c mem
  have digit := Nat.isDigit_of_mem_toDigits (by decide) (by decide) mem
  rw [Terminal.isParameter, digit, Bool.true_or]

theorem isCode_colorCode (c : Rgb) : IsCode (colorCode c) := by
  have separator : ";".toList.all Terminal.isParameter := by decide
  have start : "38;2;".toList.all Terminal.isParameter := by decide
  simp only [IsCode, colorCode, String.toList_append, List.all_append, Nat.toString_eq_repr,
    Nat.toList_repr, all_isParameter_toDigits, separator, start, Bool.and_self]

theorem isCode_of_mem_codes {l : Look} {code : String} (mem : code ∈ l.codes) : IsCode code := by
  simp only [codes, List.mem_append, List.mem_map, Option.mem_toList] at mem
  rcases mem with ((⟨c, -, rfl⟩ | mem) | mem) | mem
  · exact isCode_colorCode c
  all_goals
    split at mem
    · rw [List.mem_singleton.1 mem]
      decide
    · cases mem

theorem isCode_of_mem_endCodes {l : Look} {code : String} (mem : code ∈ l.endCodes) :
    IsCode code := by
  unfold endCodes at mem
  split at mem
  · rw [List.mem_singleton.1 mem]
    decide
  · split at mem
    · rw [List.mem_singleton.1 mem]
      decide
    · cases mem

end Look

namespace Terminal

open Look

variable (shown : List (Char × Look))

theorem run?_codes (look : Look) {codes : List String} (known : ∀ code ∈ codes, IsCode code) :
    run? ⟨look, .text, shown⟩ (String.join (codes.map escape)).toList =
      (look.selectAll? codes).map fun look => ⟨look, .text, shown⟩ := by
  induction codes generalizing look with
  | nil => rfl
  | cons code codes ih =>
    obtain ⟨here, later⟩ := List.forall_mem_cons.1 known
    rw [List.map_cons, String.join_cons, String.toList_append, toList_escape, run?_append,
      run?_sequence look shown here, selectAll?, List.foldlM_cons]
    cases look.select? code.toList with
    | none => rfl
    | some look => exact ih look later

/-- Text in a look is shown in it, and the terminal is in the default look again. -/
theorem run?_write {l : Look} (inRange : ∀ c, l.color = some c → c.InRange) {s : String}
    (printable : escapeCharacter ∉ s.toList) :
    run? ⟨{}, .text, shown⟩ (l.write s).toList =
      some ⟨{}, .text, shown ++ s.toList.map fun c => (c, l)⟩ := by
  have on := run?_codes shown {} (fun code => isCode_of_mem_codes (l := l))
  have off := run?_codes (shown ++ s.toList.map fun c => (c, l)) l
    (fun code => isCode_of_mem_endCodes (l := l))
  rw [selectAll?_codes inRange, Option.map_some] at on
  rw [selectAll?_endCodes, Option.map_some] at off
  rw [write, String.toList_append, String.toList_append, run?_append, run?_append, on,
    Option.bind_some, run?_text l shown printable, Option.bind_some, off]

end Terminal

namespace Preview

/-! ## The looks of spans -/

theorem foldl_addEffect (effects : Effects) (look : Look) :
    effects.toList.foldl Look.addEffect look =
      { look with
        bold := effects.contains .bold || look.bold
        underline := effects.contains .glow || look.underline
        blink := effects.contains .flash || effects.contains .pulse || look.blink } := by
  obtain ⟨glow, bold, flash, pulse⟩ := effects
  cases glow <;> cases bold <;> cases flash <;> cases pulse <;> rfl

/-- The look of a span is that of text inside it. -/
theorem ofSpan_lookOf (chosen : String) {c : Convention} (colored : c.color.WellFormed)
    (around : List Convention) :
    Look.ofSpan c chosen (lookOf chosen around) = lookOf chosen (c :: around) := by
  have color : ((c.color.resolve chosen).bind Rgb.ofHex?).or (lookOf chosen around).color =
      (lookOf chosen (c :: around)).color := by
    rw [lookOf, lookOf, List.findSome?_cons, Style.get?_color_compile]
    cases resolved : c.color.resolve chosen with
    | none => rfl
    | some hex =>
      obtain ⟨rgb, -, taken, named⟩ :=
        Rgb.exists_ofHex?_eq_some (Color.isHex_of_resolve colored resolved)
      simp [taken, named]
  rw [Look.ofSpan, foldl_addEffect, color]
  rfl

theorem inRange_lookOf (chosen : String) {around : List Convention}
    (colored : ∀ d ∈ around, d.color.WellFormed) {c : Rgb}
    (h : (lookOf chosen around).color = some c) : c.InRange := by
  obtain ⟨hex, declared, named⟩ := Option.bind_eq_some_iff.1 h
  obtain ⟨convention, mem, found⟩ := List.exists_of_findSome?_eq_some declared
  rw [Style.get?_color_compile] at found
  obtain ⟨rgb, inRange, -, named'⟩ :=
    Rgb.exists_ofHex?_eq_some (Color.isHex_of_resolve (colored convention mem) found)
  rw [named] at named'
  cases named'
  exact inRange

/-- Segments that a terminal can show: no run begins a control sequence, and fixed colors are well
formed. -/
structure Previewable (l : List (Segment String)) : Prop where
  printable : ∀ run, Segment.Inside (.plain run) l → escapeCharacter ∉ run.toList
  colored : ∀ c cs, Segment.Inside (.span c cs) l → c.color.WellFormed

section Previewable

variable {c : Convention} {cs l : List (Segment String)} {s : Segment String}

theorem Previewable.tail (h : Previewable (s :: l)) : Previewable l where
  printable run inside := h.printable run (inside.tail s)
  colored c cs inside := h.colored c cs (inside.tail s)

theorem Previewable.take (h : Previewable l) (n : Nat) : Previewable (l.take n) where
  printable run inside := h.printable run (inside.mono fun _ => List.mem_of_mem_take)
  colored c cs inside := h.colored c cs (inside.mono fun _ => List.mem_of_mem_take)

theorem Previewable.children (h : Previewable (.span c cs :: l)) : Previewable cs where
  printable run inside := h.printable run (inside.child c l)
  colored d ds inside := h.colored d ds (inside.child c l)

end Previewable

/-- The terminal shows the characters of segments in their looks, and is in the default look
afterwards. -/
theorem run?_renderAll (chosen : String) {l : List (Segment String)} (h : Previewable l)
    {path : List Convention} (colored : ∀ c ∈ path, c.color.WellFormed) {around : Option Look}
    (same : around.getD {} = lookOf chosen path) (shown : List (Char × Look)) :
    Terminal.run? ⟨{}, .text, shown⟩ (renderAll chosen around l).toList =
      some ⟨{}, .text, shown ++ looks chosen path l⟩ := by
  induction l using Segment.listInduction generalizing path around shown with
  | nil => simp [renderAll, looks, Terminal.run?]
  | plain run l ih =>
    have written : renderOne chosen around (.plain run) = (lookOf chosen path).write run := by
      rw [← same]
      cases around with
      | none => exact (write_default run).symm
      | some look => rfl
    have printable : escapeCharacter ∉ run.toList := by
      apply h.printable
      exact .here List.mem_cons_self
    have here := Terminal.run?_write shown (fun c => inRange_lookOf chosen colored) printable
    rw [renderAll, written, String.toList_append, Terminal.run?_append, here, Option.bind_some,
      ih h.tail colored same, looks, looksOne, List.append_assoc]
  | span c cs l inner ih =>
    have here : c.color.WellFormed := by
      apply h.colored c cs
      exact .here List.mem_cons_self
    have deeper : ∀ d ∈ c :: path, d.color.WellFormed := List.forall_mem_cons.2 ⟨here, colored⟩
    have look : (some (Look.ofSpan c chosen (around.getD {}))).getD {} =
        lookOf chosen (c :: path) := by
      rw [same]
      exact ofSpan_lookOf chosen here path
    rw [renderAll, renderOne, String.toList_append, Terminal.run?_append,
      inner h.children deeper look, Option.bind_some, ih h.tail colored same, looks, looksOne,
      List.append_assoc]

/-- A preview shows the text of its segments and a line break, each character of a run in the color
of the innermost span around it that declares one and in the attributes of all the spans. The
terminal is in the default look between the segments and at the end. -/
theorem shown_render {segments : List (Segment String)} (h : Previewable segments)
    (chosen : String) :
    Terminal.run? {} (render segments chosen).toList =
        some { shown := looks chosen [] segments ++ [('\n', {})] } ∧
      (looks chosen [] segments).map (·.1) = (Segment.textAll segments).toList ∧
      ∀ n, Terminal.run? {} (renderAll chosen none (segments.take n)).toList =
        some { shown := looks chosen [] (segments.take n) } := by
  have outside : (none : Option Look).getD {} = lookOf chosen [] := rfl
  have nothing : ∀ c ∈ ([] : List Convention), c.color.WellFormed := by simp
  refine ⟨?_, map_fst_looks chosen [] segments, ?_⟩
  · have shown := run?_renderAll chosen h nothing outside []
    have newline : escapeCharacter ∉ "\n".toList := by decide
    rw [render, String.toList_append, Terminal.run?_append, shown, Option.bind_some,
      Terminal.run?_text _ _ newline]
    rfl
  · intro n
    exact run?_renderAll chosen (h.take n) nothing outside []

/-- A span without a color inside one with a short color, beside a run outside all spans. -/
theorem shown_render_nested :
    let pulsing : Convention :=
      { Convention.squareBrackets with
        key := "pulsing", effects := { bold := true, pulse := true } }
    let short : Convention :=
      { Convention.exclamation with key := "short", color := .literal "#0aF" }
    let segments : List (Segment String) :=
      [.plain "é", .span short [.plain "a", .span pulsing [.plain "b", .plain ""]],
        .span .angleBrackets []]
    Previewable segments ∧
      Terminal.run? {} (render segments "#00ff00").toList =
        some { shown := looks "#00ff00" [] segments ++ [('\n', {})] } ∧
      (looks "#00ff00" [] segments).map (·.1) = (Segment.textAll segments).toList ∧
      ∀ n, Terminal.run? {} (renderAll "#00ff00" none (segments.take n)).toList =
        some { shown := looks "#00ff00" [] (segments.take n) } := by
  intro pulsing short segments
  have previewable : Previewable segments := by
    constructor
    · intro run inside
      simp only [segments, Segment.inside_plain_cons_iff, Segment.inside_span_cons_iff,
        Segment.not_inside_nil, Segment.plain.injEq, reduceCtorEq, or_false, false_or] at inside
      rcases inside with rfl | rfl | rfl | rfl <;> decide
    · intro c cs inside
      simp only [segments, Segment.inside_plain_cons_iff, Segment.inside_span_cons_iff,
        Segment.not_inside_nil, Segment.span.injEq, reduceCtorEq, or_false, false_or] at inside
      rcases inside with ⟨rfl, -⟩ | ⟨rfl, -⟩ | ⟨rfl, -⟩ <;> decide
  exact ⟨previewable, shown_render previewable "#00ff00"⟩

end Preview

end InlineMarkup

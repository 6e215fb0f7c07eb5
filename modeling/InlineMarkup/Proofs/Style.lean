import Mathlib.Tactic.SplitIfs
import InlineMarkup.Html
import InlineMarkup.Proofs.Authoring.Drafts

/-!
# Styles read back

A reader of style sheets cuts the text of a style at every `; ` and each piece at its first `: `.
What it finds are the declarations, and nothing else, because no value holds a character that
means something to it (`Style.read?_display`). Colors stand in values as they were typed or
chosen; the checks they pass keep them to a number sign and digits.
-/

namespace InlineMarkup

namespace Text

variable {a b : Char} {s : List Char}

/-- The pieces of a text between the places where `a` and `b` stand side by side. -/
def cutAll (a b : Char) : List Char → List (List Char)
  | c :: d :: rest =>
    if c = a ∧ d = b then [] :: cutAll a b rest
    else (cutAll a b (d :: rest)).modifyHead (c :: ·)
  | s => [s]

/-- The text before the first place where `a` and `b` stand side by side, and the text after it. -/
def cut? (a b : Char) : List Char → Option (List Char × List Char)
  | c :: d :: rest =>
    if c = a ∧ d = b then some ([], rest)
    else (cut? a b (d :: rest)).map fun (before, after) => (c :: before, after)
  | _ => none

theorem cutAll_append_cons (free : a ∉ s) (rest : List Char) :
    cutAll a b (s ++ a :: b :: rest) = s :: cutAll a b rest := by
  induction s with
  | nil => simp [cutAll]
  | cons c s ih =>
    obtain ⟨other, free⟩ := not_or.1 (mt List.mem_cons.2 free)
    have later := ih free
    cases s with
    | nil => simp_all [cutAll, Ne.symm other]
    | cons d s => simpa [cutAll, Ne.symm other] using congrArg (List.modifyHead (c :: ·)) later

theorem cutAll_eq_singleton (free : a ∉ s) : cutAll a b s = [s] := by
  induction s with
  | nil => rfl
  | cons c s ih =>
    obtain ⟨other, free⟩ := not_or.1 (mt List.mem_cons.2 free)
    cases s with
    | nil => rfl
    | cons d s => simp [cutAll, Ne.symm other, ih free]

theorem cutAll_intercalate {pieces : List (List Char)} (some : pieces ≠ [])
    (free : ∀ piece ∈ pieces, a ∉ piece) : cutAll a b ([a, b].intercalate pieces) = pieces := by
  induction pieces with
  | nil => exact absurd rfl some
  | cons piece pieces ih =>
    obtain ⟨here, free⟩ := List.forall_mem_cons.1 free
    cases pieces with
    | nil => simpa using cutAll_eq_singleton here
    | cons next pieces =>
      rw [List.intercalate_cons_cons, List.append_assoc]
      have later := ih (List.cons_ne_nil next pieces) free
      exact (cutAll_append_cons here _).trans (congrArg (piece :: ·) later)

theorem cut?_append_cons (free : a ∉ s) (rest : List Char) :
    cut? a b (s ++ a :: b :: rest) = some (s, rest) := by
  induction s with
  | nil => simp [cut?]
  | cons c s ih =>
    obtain ⟨other, free⟩ := not_or.1 (mt List.mem_cons.2 free)
    have later := ih free
    cases s with
    | nil => simp_all [cut?, Ne.symm other]
    | cons d s => simp_all [cut?, Ne.symm other]

theorem mem_of_mem_intercalate {separator : List Char} {pieces : List (List Char)} {c : Char}
    (mem : c ∈ separator.intercalate pieces) : c ∈ separator ∨ ∃ piece ∈ pieces, c ∈ piece := by
  induction pieces with
  | nil => simp at mem
  | cons piece pieces ih =>
    cases pieces with
    | nil => exact .inr ⟨piece, List.mem_singleton_self piece, by simpa using mem⟩
    | cons next pieces =>
      rw [List.intercalate_cons_cons, List.append_assoc] at mem
      rcases List.mem_append.1 mem with here | mem
      · exact .inr ⟨piece, List.mem_cons_self, here⟩
      rcases List.mem_append.1 mem with between | mem
      · exact .inl between
      rcases ih mem with between | ⟨piece', later, mem⟩
      · exact .inl between
      · exact .inr ⟨piece', List.mem_cons_of_mem piece later, mem⟩

end Text

theorem Html.escapeAttribute_eq_self {text : String}
    (itself : ∀ c ∈ text.toList, escapeAttributeChar c = [c]) : escapeAttribute text = text := by
  have same (l : List Char) (itself : ∀ c ∈ l, escapeAttributeChar c = [c]) :
      l.flatMap escapeAttributeChar = l := by
    induction l with
    | nil => rfl
    | cons c l ih =>
      obtain ⟨here, later⟩ := List.forall_mem_cons.1 itself
      rw [List.flatMap_cons, here, ih later, List.singleton_append]
  rw [escapeAttribute, same text.toList itself, String.ofList_toList]

namespace Style

/-- The declarations that a reader finds in the text of a style, as names and values. -/
def read? (text : String) : Option (List (String × String)) :=
  if text = "" then some []
  else (Text.cutAll ';' ' ' text.toList).mapM fun piece =>
    (Text.cut? ':' ' ' piece).map fun (name, value) => (String.ofList name, String.ofList value)

/-- The characters that mean something to a reader of style sheets or of tags. -/
def reserved : List Char := [';', ':', '"', '\'', '<', '>', '&', '(', ')']

/-- No character of the text means anything but itself. -/
def Inert (text : String) : Prop :=
  ∀ c ∈ text.toList, c ∉ reserved

instance : DecidablePred Inert :=
  fun text => List.decidableBAll (· ∉ reserved) text.toList

variable {s : Style} {color : Color} {effects : Effects} {chosen : String}

theorem Inert.not_mem {text : String} (inert : Inert text) {c : Char} (meaning : c ∈ reserved) :
    c ∉ text.toList := by
  intro mem
  exact inert c mem meaning

theorem Inert.append {text more : String} (inert : Inert text) (inert' : Inert more) :
    Inert (text ++ more) := by
  intro c mem
  rw [String.toList_append, List.mem_append] at mem
  rcases mem with mem | mem
  · exact inert c mem
  · exact inert' c mem

theorem inert_of_isHex {hex : String} (h : Color.isHex hex) : Inert hex := by
  obtain ⟨digits, eq, -, all⟩ := Color.isHex_iff.1 h
  have plain : Inert (String.ofList Ascii.hexDigits) := by decide
  intro c mem
  rw [eq] at mem
  rcases List.mem_cons.1 mem with rfl | mem
  · decide
  · exact plain c (Ascii.mem_hexDigits_of_isHexDigit (all c mem))

theorem inert_glowValue {hex : String} (inert : Inert hex) : Inert (glowValue hex) := by
  have near : Inert "0 0 4px " := by decide
  have middle : Inert ", 0 0 8px " := by decide
  have far : Inert ", 0 0 16px " := by decide
  exact ((((near.append inert).append middle).append inert).append far).append inert

theorem escapeAttributeChar_of_not_mem_reserved {c : Char} (free : c ∉ reserved) :
    Html.escapeAttributeChar c = [c] := by
  have other {special : Char} (meaning : special ∈ reserved) : c ≠ special := by
    rintro rfl
    exact free meaning
  rw [Html.escapeAttributeChar, if_neg (other (by decide)), if_neg (other (by decide)),
    if_neg (other (by decide)), if_neg (other (by decide))]

/-! ## Reading declarations -/

theorem toList_display_declaration (d : Declaration) :
    d.display.toList = d.property.name.toList ++ ':' :: ' ' :: d.value.toList := by
  simp [Declaration.display]

theorem toList_display (s : Style) :
    s.display.toList = [';', ' '].intercalate (s.declarations.map (·.display.toList)) := by
  simp [display, String.toList_intercalate, Function.comp_def]

theorem colon_not_mem_name (p : Property) : ':' ∉ p.name.toList := by
  cases p <;> decide

theorem semicolon_not_mem_display {d : Declaration} (inert : Inert d.value) :
    ';' ∉ d.display.toList := by
  have name : ';' ∉ d.property.name.toList := by cases d.property <;> decide
  have value : ';' ∉ d.value.toList := inert.not_mem (by decide)
  simp [toList_display_declaration, name, value]

theorem cut?_display (d : Declaration) :
    Text.cut? ':' ' ' d.display.toList = some (d.property.name.toList, d.value.toList) := by
  rw [toList_display_declaration]
  exact Text.cut?_append_cons (colon_not_mem_name d.property) d.value.toList

/-- The text of a style is read as its declarations. -/
theorem read?_display (inert : ∀ d ∈ s.declarations, Inert d.value) :
    read? s.display = some (s.declarations.map fun d => (d.property.name, d.value)) := by
  have pieces := toList_display s
  obtain ⟨declarations⟩ := s
  dsimp only at inert pieces ⊢
  cases declarations with
  | nil => rfl
  | cons d declarations =>
    have filled : display ⟨d :: declarations⟩ ≠ "" := by
      intro empty
      rw [empty] at pieces
      cases declarations with
      | nil => simp [toList_display_declaration] at pieces
      | cons next declarations =>
        rw [List.map_cons, List.map_cons, List.intercalate_cons_cons] at pieces
        simp at pieces
    have free : ∀ piece ∈ (d :: declarations).map (·.display.toList), ';' ∉ piece := by
      intro piece mem
      obtain ⟨d', declared, rfl⟩ := List.mem_map.1 mem
      exact semicolon_not_mem_display (inert d' declared)
    rw [read?, if_neg filled, pieces, Text.cutAll_intercalate (by simp) free]
    clear filled pieces free inert
    generalize d :: declarations = all
    induction all with
    | nil => rfl
    | cons d all ih => simp [cut?_display, ih]

/-! ## What is compiled -/

/-- A style for a color and effects says what it should, and nothing else can be read from it. -/
structure Contained (color : Color) (effects : Effects) (s : Style) : Prop where
  readBack : read? s.display = some (s.declarations.map fun d => (d.property.name, d.value))
  ordered : (s.declarations.map (·.property)).Sublist
    [.color, .textShadow, .fontWeight, .animation]
  once : (s.declarations.map (·.property)).Nodup
  hasColor : .color ∈ s.declarations.map (·.property) ↔ color ≠ .inherit
  hasShadow : .textShadow ∈ s.declarations.map (·.property) ↔ effects.contains .glow
  hasWeight : .fontWeight ∈ s.declarations.map (·.property) ↔ effects.contains .bold
  hasAnimation : .animation ∈ s.declarations.map (·.property) ↔
    effects.contains .flash ∨ effects.contains .pulse
  inert : ∀ d ∈ s.declarations, Inert d.value
  unescaped : Html.escapeAttribute s.display = s.display
  colorIsHex : ∀ value, ⟨.color, value⟩ ∈ s.declarations → Color.isHex value
  shadowColor : ∀ value, ⟨.textShadow, value⟩ ∈ s.declarations →
    value = glowValue ((s.get? "color").getD currentColor)

/-- Each property stands for one part of a convention. -/
theorem map_property_compile (color : Color) (effects : Effects) (chosen : String) :
    (compile color effects chosen).declarations.map (·.property) =
      (if color ≠ .inherit then [.color] else []) ++
        (if effects.contains .glow then [.textShadow] else []) ++
          (if effects.contains .bold then [.fontWeight] else []) ++
            (if effects.contains .flash ∨ effects.contains .pulse then [.animation] else []) := by
  obtain ⟨glow, bold, flash, pulse⟩ := effects
  cases color <;> cases glow <;> cases bold <;> cases flash <;> cases pulse <;> rfl

/-- What makes a property be declared. -/
def Reason (color : Color) (effects : Effects) : Property → Prop
  | .color => color ≠ .inherit
  | .textShadow => effects.contains .glow
  | .fontWeight => effects.contains .bold
  | .animation => effects.contains .flash ∨ effects.contains .pulse

theorem mem_properties_compile_iff (color : Color) (effects : Effects) (chosen : String)
    (p : Property) :
    p ∈ (compile color effects chosen).declarations.map (·.property) ↔ Reason color effects p := by
  rw [map_property_compile]
  cases p <;> rw [Reason] <;> split_ifs <;> simp_all

theorem inert_of_animation? {e : Effect} {value : String} (h : animation? e = some value) :
    Inert value := by
  cases e with
  | glow => cases h
  | bold => cases h
  | flash =>
    cases h
    decide
  | pulse =>
    cases h
    decide

theorem inert_animations (effects : Effects) : Inert (", ".intercalate (animations effects)) := by
  have separator : Inert ", " := by decide
  intro c mem
  rw [String.toList_intercalate] at mem
  rcases Text.mem_of_mem_intercalate mem with between | ⟨piece, written, mem⟩
  · exact separator c between
  · obtain ⟨value, animated, rfl⟩ := List.mem_map.1 written
    obtain ⟨e, -, named⟩ := List.mem_filterMap.1 animated
    exact inert_of_animation? named c mem

/-- The values that a style declares: a color as it is resolved, and a glow of that color. -/
theorem mem_compile {d : Declaration} (declared : d ∈ (compile color effects chosen).declarations) :
    (∃ hex, color.resolve chosen = some hex ∧ d = ⟨.color, hex⟩) ∨
      d = ⟨.textShadow, glowValue ((color.resolve chosen).getD currentColor)⟩ ∨
        d = ⟨.fontWeight, "bold"⟩ ∨
          d = ⟨.animation, ", ".intercalate (animations effects)⟩ := by
  simp only [compile, List.mem_append, List.mem_map, Option.mem_toList] at declared
  rcases declared with ((⟨hex, resolved, rfl⟩ | shadow) | weight) | animation
  · exact .inl ⟨hex, resolved, rfl⟩
  · split at shadow
    · exact .inr (.inl (List.mem_singleton.1 shadow))
    · cases shadow
  · split at weight
    · exact .inr (.inr (.inl (List.mem_singleton.1 weight)))
    · cases weight
  · split at animation
    · cases animation
    · exact .inr (.inr (.inr (List.mem_singleton.1 animation)))

/-- Whatever color is chosen for keywords, no value means anything to a reader. -/
theorem inert_compile (wellFormed : color.WellFormed) (effects : Effects) (chosen : String) :
    ∀ d ∈ (compile color effects chosen).declarations, Inert d.value := by
  have fixed (hex : String) (resolved : color.resolve chosen = some hex) : Inert hex :=
    inert_of_isHex (Color.isHex_of_resolve wellFormed resolved)
  have glow : Inert ((color.resolve chosen).getD currentColor) := by
    cases resolved : color.resolve chosen with
    | none => decide
    | some hex => exact fixed hex resolved
  intro d declared
  rcases mem_compile declared with ⟨hex, resolved, rfl⟩ | rfl | rfl | rfl
  · exact fixed hex resolved
  · exact inert_glowValue glow
  · exact (by decide : Inert "bold")
  · exact inert_animations effects

/-- Values that mean nothing to a reader are not escaped in an attribute. -/
theorem escapeAttribute_display (inert : ∀ d ∈ s.declarations, Inert d.value) :
    Html.escapeAttribute s.display = s.display := by
  have semicolon : Html.escapeAttributeChar ';' = [';'] := by decide
  have colon : Html.escapeAttributeChar ':' = [':'] := by decide
  have space : Html.escapeAttributeChar ' ' = [' '] := by decide
  have names (p : Property) : Inert p.name := by cases p <;> decide
  apply Html.escapeAttribute_eq_self
  intro c mem
  rw [toList_display] at mem
  rcases Text.mem_of_mem_intercalate mem with between | ⟨piece, written, mem⟩
  · simp only [List.mem_cons, List.not_mem_nil, or_false] at between
    rcases between with rfl | rfl
    · exact semicolon
    · exact space
  obtain ⟨d, declared, rfl⟩ := List.mem_map.1 written
  rw [toList_display_declaration] at mem
  rcases List.mem_append.1 mem with name | mem
  · exact escapeAttributeChar_of_not_mem_reserved (names d.property c name)
  rcases List.mem_cons.1 mem with rfl | mem
  · exact colon
  rcases List.mem_cons.1 mem with rfl | value
  · exact space
  · exact escapeAttributeChar_of_not_mem_reserved (inert d declared c value)

theorem sublist_properties_compile (color : Color) (effects : Effects) (chosen : String) :
    ((compile color effects chosen).declarations.map (·.property)).Sublist
      [.color, .textShadow, .fontWeight, .animation] := by
  have part (p : Property) (b : Prop) [Decidable b] : (if b then [p] else []).Sublist [p] := by
    split
    · exact .refl [p]
    · exact List.nil_sublist [p]
  rw [map_property_compile]
  exact (((part _ _).append (part _ _)).append (part _ _)).append (part _ _)

/-- Where the color is well formed, the style of a convention is contained, whatever the caller
chooses for keywords. -/
theorem contained_of_wellFormed (wellFormed : color.WellFormed) (effects : Effects)
    (chosen : String) : (compile color effects chosen).Contained color effects := by
  have inert := inert_compile wellFormed effects chosen
  have ordered := sublist_properties_compile color effects chosen
  have reason := mem_properties_compile_iff color effects chosen
  refine ⟨read?_display inert, ordered, ordered.nodup (by decide), reason .color,
    reason .textShadow, reason .fontWeight, reason .animation, inert,
    escapeAttribute_display inert, ?_, ?_⟩
  · intro value declared
    rcases mem_compile declared with ⟨hex, resolved, eq⟩ | eq | eq | eq
    · cases eq
      exact Color.isHex_of_resolve wellFormed resolved
    all_goals cases eq
  · intro value declared
    rw [get?_color_compile]
    rcases mem_compile declared with ⟨hex, resolved, eq⟩ | eq | eq | eq
    · cases eq
    · cases eq
      rfl
    all_goals cases eq

end Style

/-- Where the conventions of a rendering come from, beside the built-in ones: a stored record, or a
draft that was typed. -/
inductive Convention.Authored : Convention → Prop where
  | record (r : Record) (c : Convention) (valid : r.toConvention = .ok c) : Authored c
  | draft (d : Draft) (typed : d.Typed) (key : String) : Authored (d.toConvention key)

theorem Convention.Authored.wellFormed {c : Convention} (authored : c.Authored) :
    c.color.WellFormed := by
  cases authored with
  | record r c valid =>
    obtain ⟨-, -, -, readable, -⟩ := Record.toConvention_eq_ok_iff.1 valid
    exact Color.wellFormed_of_parse? readable
  | draft d typed key =>
    exact Color.wellFormed_of_parse? typed.parse?_display

/-- Whatever an author stores or types as a color and a caller chooses for keywords, the style of
a convention is read as its declarations, of which each has its place and its reason, and no value
adds to them. -/
theorem Style.contained_compile {c : Convention} (authored : c.Authored) (chosen : String) :
    (Style.compile c.color c.effects chosen).Contained c.color c.effects :=
  contained_of_wellFormed authored.wellFormed c.effects chosen

/-- A keyword color with declarations of its own. -/
theorem Style.contained_compile_injected :
    let r : Record :=
      { key := "custom-a", opening := "~", closing := "~", color := " KeyWord\n"
        effects := .ofList [.pulse, .glow] }
    ∃ c, r.toConvention = .ok c ∧ c.Authored ∧
      (Style.compile c.color c.effects "#fff; position: fixed").Contained c.color c.effects := by
  intro r
  have valid : r.toConvention = .ok
      { key := "custom-a", delimiters := ⟨"~", "~"⟩, color := .keyword
        effects := .ofList [.pulse, .glow], usage := "", description := "", sample := "" } := by
    decide
  have authored := Convention.Authored.record r _ valid
  exact ⟨_, valid, authored, contained_compile authored "#fff; position: fixed"⟩

end InlineMarkup

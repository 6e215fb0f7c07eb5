import Mathlib.Data.List.Infix
import InlineMarkup.Engine
import InlineMarkup.Proofs.Html.Rendering
import InlineMarkup.Proofs.Segment.Parse

/-!
# Text that stays plain

A scan claims nothing exactly when every opening, wherever it stands, is closed at once or not at
all (`Scan.claim_eq_self_iff`). It tries the openings one by one, those that overlap included, until
one is left without a closing; then no later one has a closing either. What one scan claims no
later scan gives back, so a text stays plain under a registry exactly when each of its conventions
claims nothing from the text itself (`Segment.parse_eq_plain_iff`).
-/

namespace InlineMarkup

/-- Wherever the opening of the convention stands in the text, its closing does not stand in the
rest, or first stands at the very beginning of the rest. -/
def Convention.IdleIn (c : Convention) (text : String) : Prop :=
  ∀ before rest : String, text = before ++ (c.opening ++ rest) →
    (∀ inside after, rest ≠ inside ++ (c.closing ++ after)) ∨ ∃ after, rest = c.closing ++ after

namespace Scan

open Segment

/-! ## Openings that begin nothing -/

section Idle

variable {α β : Type}

/-- What follows an opening that begins no span: the closing does not occur in it, or first occurs
at its very beginning. -/
def Unfilled (closing rest : List α) : Prop :=
  ¬ closing <:+: rest ∨ closing <+: rest

/-- No opening in the text begins a span. -/
def Idle (opening closing text : List α) : Prop :=
  ∀ before rest, text = before ++ (opening ++ rest) → Unfilled closing rest

variable {opening closing : List α}

theorem idle_nil (filled : opening ≠ []) : Idle opening closing [] := by
  intro before rest eq
  simp [filled] at eq

theorem idle_cons_iff {a : α} {text : List α} :
    Idle opening closing (a :: text) ↔
      (∀ rest, a :: text = opening ++ rest → Unfilled closing rest) ∧
        Idle opening closing text := by
  constructor
  · intro idle
    constructor
    · intro rest eq
      exact idle [] rest eq
    · intro before rest eq
      exact idle (a :: before) rest (by rw [eq, List.cons_append])
  · rintro ⟨here, idle⟩ before rest eq
    cases before with
    | nil => exact here rest eq
    | cons b before =>
      rw [List.cons_append, List.cons.injEq] at eq
      exact idle before rest eq.2

section Map

variable {f : α → β} (injective : Function.Injective f)
include injective

theorem unfilled_map_iff {rest : List α} :
    Unfilled (closing.map f) (rest.map f) ↔ Unfilled closing rest := by
  have occurs : closing.map f <:+: rest.map f ↔ closing <:+: rest := by
    constructor
    · intro mapped
      obtain ⟨closing', occurs, eq⟩ := List.infix_map_iff.1 mapped
      rwa [injective.list_map eq]
    · exact (List.IsInfix.map f ·)
  have starts : closing.map f <+: rest.map f ↔ closing <+: rest := by
    constructor
    · intro mapped
      obtain ⟨closing', starts, eq⟩ := List.prefix_map_iff.1 mapped
      rwa [injective.list_map eq]
    · exact (List.IsPrefix.map f ·)
  rw [Unfilled, Unfilled, occurs, starts]

theorem idle_map_iff {text : List α} :
    Idle (opening.map f) (closing.map f) (text.map f) ↔ Idle opening closing text := by
  constructor
  · rintro idle before rest rfl
    apply (unfilled_map_iff injective).1
    exact idle (before.map f) (rest.map f) (by simp)
  · intro idle before rest eq
    obtain ⟨before', later, rfl, -, split⟩ := List.map_eq_append_iff.1 eq
    obtain ⟨opening', rest', rfl, same, rfl⟩ := List.map_eq_append_iff.1 split
    rw [injective.list_map same] at idle
    exact (unfilled_map_iff injective).2 (idle before' rest' rfl)

end Map

theorem idle_iff_forall_tails {text : List α} :
    Idle opening closing text ↔ ∀ tail ∈ text.tails, opening <+: tail →
      Unfilled closing (tail.drop opening.length) := by
  constructor
  · rintro idle tail mem ⟨rest, rfl⟩
    obtain ⟨before, eq⟩ := (List.mem_tails _ _).1 mem
    rw [List.drop_left]
    exact idle before rest eq.symm
  · rintro idle before rest rfl
    have unfilled := idle (opening ++ rest) ((List.mem_tails _ _).2 (List.suffix_append before _))
      (List.prefix_append opening rest)
    rwa [List.drop_left] at unfilled

variable [DecidableEq α]

instance (closing rest : List α) : Decidable (Unfilled closing rest) :=
  inferInstanceAs (Decidable (_ ∨ _))

instance (opening closing text : List α) : Decidable (Idle opening closing text) :=
  decidable_of_iff _ idle_iff_forall_tails.symm

end Idle

/-! ## Scans that claim nothing -/

section Claim

variable {α : Type} [DecidableEq α] {c : Convention} {opening closing : List α}
  {atoms : List (Segment α)}

theorem split?_eq_none_iff {pattern : List α} :
    split? pattern atoms = none ↔ ¬ pattern.map .plain <:+: atoms := by
  induction atoms with
  | nil => rw [split?, Option.map_eq_none_iff, after?_eq_none_iff, List.infix_nil, List.prefix_nil]
  | cons atom atoms ih =>
    rw [List.infix_cons_iff, not_or, ← after?_eq_none_iff, ← ih]
    cases found : after? pattern (atom :: atoms) with
    | some rest => simp [split?_of_after?_eq_some found]
    | none => simp [split?_cons_of_after?_eq_none found]

theorem unfilled_iff :
    Unfilled (closing.map .plain) atoms ↔
      ∀ content rest, split? closing atoms = some (content, rest) → content = [] := by
  constructor
  · rintro (missing | ⟨after, rfl⟩) content rest found
    · rw [split?_eq_none_iff.2 missing] at found
      cases found
    · rw [split?_of_after?_eq_some (after?_map_plain_append closing after)] at found
      cases found
      rfl
  · intro unfilled
    cases found : split? closing atoms with
    | none => exact .inl (split?_eq_none_iff.1 found)
    | some parts =>
      obtain ⟨content, rest⟩ := parts
      have eq := eq_of_split?_eq_some found
      rw [unfilled content rest found, List.nil_append] at eq
      exact .inr ⟨rest, eq.symm⟩

theorem claim_eq_self_of_idle (idle : Idle (opening.map .plain) (closing.map .plain) atoms) :
    claim c opening closing atoms = atoms := by
  induction atoms using claim_cases c opening closing with
  | nil => exact claim_nil
  | literal atom atoms ih step => rw [step, ih (idle_cons_iff.1 idle).2]
  | stop atoms inside hopen hclose step => exact step
  | span content rest filled closed ih step =>
    exact absurd (unfilled_iff.1 (idle [] _ rfl) content rest closed) filled

theorem idle_of_claim_eq_self (ho : opening ≠ [])
    (same : claim c opening closing atoms = atoms) :
    Idle (opening.map .plain) (closing.map .plain) atoms := by
  induction atoms using claim_cases c opening closing with
  | nil => exact idle_nil (by simpa using ho)
  | literal atom atoms ih step =>
    rw [step, List.cons.injEq] at same
    refine idle_cons_iff.2 ⟨?_, ih same.2⟩
    -- an opening here with something inside would have become a span
    intro inside eq
    apply unfilled_iff.2
    intro content rest hclose
    by_contra filled
    have hopen := after?_eq_some_iff.2 eq
    have claimed := claim_of_content (c := c) hopen hclose filled
    rw [step, List.cons.injEq] at claimed
    rw [claimed.1, after?_span ho] at hopen
    cases hopen
  | stop atoms inside hopen hclose step =>
    intro before rest eq
    -- what follows an opening is at most what follows the first one
    have whole := after?_eq_some_iff.1 hopen
    have tail : rest <:+ inside := by
      have ends : rest <:+ atoms :=
        ⟨before ++ opening.map .plain, by rw [eq, List.append_assoc]⟩
      have size := congrArg List.length (eq.symm.trans whole)
      simp only [List.length_append] at size
      exact List.suffix_of_suffix_length_le ends ⟨opening.map .plain, whole.symm⟩ (by omega)
    left
    intro closes
    exact split?_eq_none_iff.1 hclose (closes.trans tail.isInfix)
  | span content rest filled closed ih step =>
    obtain ⟨a, tail, rfl⟩ := List.exists_cons_of_ne_nil ho
    rw [step, List.map_cons, List.cons_append] at same
    cases same

theorem claim_eq_self_iff (ho : opening ≠ []) :
    claim c opening closing atoms = atoms ↔
      Idle (opening.map .plain) (closing.map .plain) atoms :=
  ⟨idle_of_claim_eq_self ho, claim_eq_self_of_idle⟩

/-- A scan that leaves no span has claimed nothing and was given none. -/
theorem claim_eq_self_of_eq_map_plain {text : List α}
    (plain : claim c opening closing atoms = text.map .plain) :
    claim c opening closing atoms = atoms := by
  induction atoms using claim_cases c opening closing generalizing text with
  | nil => exact claim_nil
  | literal atom atoms ih step =>
    rw [step] at plain
    obtain ⟨a, text, rfl, -, plain⟩ := List.map_eq_cons_iff.1 plain.symm
    rw [step, ih plain.symm]
  | stop atoms inside hopen hclose step => exact step
  | span content rest filled closed ih step =>
    rw [step] at plain
    obtain ⟨a, text, rfl, eq, -⟩ := List.map_eq_cons_iff.1 plain.symm
    cases eq

end Claim

end Scan

/-! ## Texts -/

theorem Text.isInfix_toList_iff {s t : String} :
    t.toList <:+: s.toList ↔ ∃ before after, s = before ++ (t ++ after) := by
  constructor
  · rintro ⟨before, after, eq⟩
    refine ⟨.ofList before, .ofList after, String.toList_inj.1 ?_⟩
    rw [← eq]
    simp
  · rintro ⟨before, after, rfl⟩
    exact ⟨before.toList, after.toList, by simp⟩

theorem Text.isPrefix_toList_iff {s t : String} :
    t.toList <+: s.toList ↔ ∃ after, s = t ++ after := by
  constructor
  · rintro ⟨after, eq⟩
    refine ⟨.ofList after, String.toList_inj.1 ?_⟩
    rw [← eq]
    simp
  · rintro ⟨after, rfl⟩
    exact ⟨after.toList, by simp⟩

theorem Convention.idleIn_iff {c : Convention} {text : String} :
    c.IdleIn text ↔ Scan.Idle c.opening.toList c.closing.toList text.toList := by
  have unfilled : ∀ rest : String, Scan.Unfilled c.closing.toList rest.toList ↔
      (∀ inside after, rest ≠ inside ++ (c.closing ++ after)) ∨
        ∃ after, rest = c.closing ++ after := by
    intro rest
    rw [Scan.Unfilled, Text.isInfix_toList_iff, Text.isPrefix_toList_iff]
    simp only [not_exists, ne_eq]
  constructor
  · intro idle before rest eq
    have found := idle (.ofList before) (.ofList rest) (String.toList_inj.1 (by simp [eq]))
    rwa [← unfilled, String.toList_ofList] at found
  · intro idle before rest eq
    apply (unfilled rest).1
    exact idle before.toList rest.toList (by simp [eq])

instance (c : Convention) (text : String) : Decidable (c.IdleIn text) :=
  decidable_of_iff _ Convention.idleIn_iff.symm

namespace Segment

open Scan

variable {conventions : List Convention} {registry : Registry} {text : String}

/-- Conventions claim nothing from a text one after another where none claims anything from the
text itself. -/
theorem scanned_eq_plain_iff :
    scanned conventions text = text.toList.map .plain ↔
      ∀ c ∈ conventions,
        Scan.pass String.toList c (text.toList.map .plain) = text.toList.map .plain := by
  -- from the last convention back: what it left plain was plain before it
  induction conventions using List.reverseRecOn with
  | nil => simp
  | append_singleton conventions c ih =>
    have step : scanned (conventions ++ [c]) text =
        Scan.pass String.toList c (scanned conventions text) :=
      scanned_append conventions [c] text
    rw [step, List.forall_mem_append, List.forall_mem_singleton, ← ih]
    constructor
    · intro plain
      have before : scanned conventions text = text.toList.map .plain :=
        (claim_eq_self_of_eq_map_plain plain).symm.trans plain
      rw [before] at plain
      exact ⟨before, plain⟩
    · rintro ⟨before, idle⟩
      rw [before, idle]

theorem pass_eq_self_iff {c : Convention} (delimited : c.Delimited) :
    Scan.pass String.toList c (text.toList.map .plain) = text.toList.map .plain ↔
      c.IdleIn text := by
  rw [Scan.pass, claim_eq_self_iff (toList_ne_nil delimited.opening),
    idle_map_iff plain_injective, Convention.idleIn_iff]

/-- A parse is the plain text where its atoms are those of the text. -/
theorem parse_eq_plain_iff_atoms (delimited : ∀ c ∈ registry.conventions, c.Delimited)
    (filled : text ≠ "") :
    parse registry text = [.plain text] ↔
      atoms String.toList (parse registry text) = text.toList.map .plain := by
  have whole : atoms String.toList [.plain text] = text.toList.map .plain := by simp
  have alone : Normal String.toList [.plain text] :=
    normal_plain_cons.2 ⟨toList_ne_nil filled, rfl, .nil⟩
  constructor
  · intro eq
    rw [eq, whole]
  · intro eq
    exact (normal_parse delimited text).eq_of_atoms_eq (fun _ _ => String.toList_inj.1) alone
      (eq.trans whole.symm)

/-- A text is one plain run under a registry exactly when no convention has a span to begin in it;
and this shows in a page, whatever the keyword color: the page is the escaped text. -/
theorem parse_eq_plain_iff (delimited : ∀ c ∈ registry.conventions, c.Delimited)
    (filled : text ≠ "") :
    (parse registry text = [.plain text] ↔ ∀ c ∈ registry.conventions, c.IdleIn text) ∧
      ∀ chosen, (Engine.render registry text chosen).1 = Html.escape text ↔
        parse registry text = [.plain text] := by
  constructor
  · rw [parse_eq_plain_iff_atoms delimited filled, atoms_parse delimited, scanned_eq_plain_iff]
    apply forall₂_congr
    intro c mem
    exact pass_eq_self_iff (delimited c mem)
  · intro chosen
    rw [parse_eq_plain_iff_atoms delimited filled]
    exact Html.render_eq_escape_iff

/-- Openings that overlap: with all of them closed at once or not at all the text stays plain, and
the second one of three stars begins a span. -/
theorem parse_eq_plain_iff_stars :
    let stars : Convention :=
      ⟨"custom-stars", ⟨"**", "*"⟩, .inherit, .none, "**text*", "", "**example*"⟩
    let registry := Registry.ofList [.exclamation, stars]
    (∀ c ∈ registry.conventions, c.Delimited) ∧
      (∀ chosen, (Engine.render registry "****<é>!!" chosen).1 = "****&lt;é&gt;!!") ∧
      ∀ chosen, (Engine.render registry "***<é>*" chosen).1 ≠ "***&lt;é&gt;*" := by
  intro stars registry
  have delimited : ∀ c ∈ registry.conventions, c.Delimited := by
    intro c mem
    apply Convention.delimited_of_isValid
    revert c
    decide +kernel
  refine ⟨delimited, ?_, ?_⟩
  · intro chosen
    have filled : "****<é>!!" ≠ "" := by decide
    have spec := parse_eq_plain_iff delimited filled
    have idle : ∀ c ∈ registry.conventions, c.IdleIn "****<é>!!" := by decide +kernel
    exact (spec.2 chosen).2 (spec.1.2 idle)
  · intro chosen page
    have filled : "***<é>*" ≠ "" := by decide
    have spec := parse_eq_plain_iff delimited filled
    have used : ¬ ∀ c ∈ registry.conventions, c.IdleIn "***<é>*" := by decide +kernel
    exact used (spec.1.1 ((spec.2 chosen).1 page))

end Segment

end InlineMarkup

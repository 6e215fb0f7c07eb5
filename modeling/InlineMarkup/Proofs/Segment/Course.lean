import Mathlib.Data.List.Induction
import InlineMarkup.Proofs.Segment.Boundary

/-!
# The course of a pass

What a pass does, said without a limit on the number of its attempts, and with every copy that it
makes on the way: `Course`. It exists only if the attempts come to an end and no copy cuts a run
out of range or inside a character. Every pass of a parse has a course, which gives the result of
the pass (`course_parse`); its openings lie further and further on, so that there are no more of
them than places in the runs (`ascending_parse`).
-/

namespace InlineMarkup

/-- What the passes over a text in the given letters ask of a convention: one of the delimiters at
least has characters, and an opening without any is looked for among ASCII letters only. -/
structure Convention.Usable (c : Convention) (letters : List Char) : Prop where
  delimited : c.opening ≠ "" ∨ c.closing ≠ ""
  ascii : c.opening = "" → ∀ ch ∈ letters, ch.val ≤ 127

theorem Convention.Delimited.usable {c : Convention} (delimited : c.Delimited)
    (letters : List Char) : c.Usable letters where
  delimited := .inl delimited.opening
  ascii empty := absurd empty delimited.opening

theorem Utf8.length_encode_pos {s : String} (filled : s ≠ "") : 0 < (encode s).length :=
  List.length_pos_iff.2 (encode_ne_nil filled)

namespace Segment

open Position

/-- Runs are apart, and they spell texts in the given letters, at every depth. -/
structure Legible (letters : List Char) (segments : List (Segment Bytes)) : Prop where
  normal : Normal id segments
  spelled : Spelled letters segments

theorem legible_ofBytes (text : String) : Legible text.toList (ofBytes (Utf8.encode text)) where
  normal := normal_ofBytes _
  spelled run here := by
    unfold ofBytes at here
    split at here
    · exact absurd here not_inside_nil
    · rw [inside_plain_cons_iff] at here
      rcases here with same | later
      · cases same
        exact ⟨text, rfl, List.Subset.refl _⟩
      · exact absurd later not_inside_nil

theorem Legible.copy {letters : List Char} {segments : List (Segment Bytes)} {p q : Position}
    (legible : Legible letters segments) (hp : Within segments p) (hq : Within segments q)
    (clean : CleanCopy segments p q) : Legible letters (copy segments p q) where
  normal := normal_copy hp hq legible.normal
  spelled := spelled_copy legible.spelled clean

/-- The next opening at or after `origin` stands at `first`, and the first closing after it at
`last`. -/
structure Next (c : Convention) (segments : List (Segment Bytes)) (origin first last : Position) :
    Prop where
  opens : find? segments origin (Utf8.encode c.opening) = some first
  closes : find? segments (first.advance c.openingSize) (Utf8.encode c.closing) = some last

/-- The course of a pass that goes on with an attempt at `origin`, when all that lies before
`copied` has been put out: `openings` are the places of the openings that it finds closed, and
`out` is what it puts out from `copied` on. -/
inductive Course (c : Convention) (segments : List (Segment Bytes)) :
    (copied origin : Position) → (openings : List Position) → (out : List (Segment Bytes)) →
      Prop where
  /-- No opening ahead is closed. -/
  | done {copied origin : Position} (none : ∀ first last, ¬ Next c segments origin first last)
      (clean : CleanCopy segments copied (.endOf segments)) :
      Course c segments copied origin [] (copy segments copied (.endOf segments))
  /-- Nothing lies between the delimiters. -/
  | literal {copied origin first last : Position} {openings : List Position}
      {out : List (Segment Bytes)} (next : Next c segments origin first last)
      (cleanInside : CleanCopy segments (first.advance c.openingSize) last)
      (empty : copy segments (first.advance c.openingSize) last = [])
      (later : Course c segments copied (first.advance 1) openings out) :
      Course c segments copied origin (first :: openings) out
  /-- The delimiters bound a span. -/
  | span {copied origin first last resume : Position} {openings : List Position}
      {out : List (Segment Bytes)} (next : Next c segments origin first last)
      (cleanInside : CleanCopy segments (first.advance c.openingSize) last)
      (filled : copy segments (first.advance c.openingSize) last ≠ [])
      (clean : CleanCopy segments copied first)
      (after : resume = last.advance (Utf8.encode c.closing).length)
      (later : Course c segments resume resume openings out) :
      Course c segments copied origin (first :: openings)
        (copy segments copied first ++
          .span c (copy segments (first.advance c.openingSize) last) :: out)

variable {c : Convention} {letters : List Char} {segments out : List (Segment Bytes)}
  {copied origin first last : Position} {openings : List Position}

/-! ## Courses and passes -/

theorem attempt_of_next (next : Next c segments origin first last) :
    attempt segments (Utf8.encode c.opening) (Utf8.encode c.closing) origin =
      if copy segments (first.advance c.openingSize) last = [] then .literal (first.advance 1)
      else .matched first (last.advance (Utf8.encode c.closing).length)
        (copy segments (first.advance c.openingSize) last) := by
  have closes := next.closes
  rw [Convention.openingSize] at closes ⊢
  simp only [attempt, next.opens, closes, List.isEmpty_iff]

theorem attempt_of_no_next (none : ∀ first last, ¬ Next c segments origin first last) :
    attempt segments (Utf8.encode c.opening) (Utf8.encode c.closing) origin = .unterminated := by
  unfold attempt
  split
  · rfl
  · rename_i first opens
    dsimp only
    split
    · rfl
    · rename_i last closes
      exact absurd ⟨opens, closes⟩ (none first last)

/-- Where attempts are enough, a pass puts out what its course does. -/
theorem Course.claimFrom_eq (course : Course c segments copied origin openings out) {fuel : Nat}
    (enough : openings.length ≤ fuel) :
    claimFrom c segments (Utf8.encode c.opening) (Utf8.encode c.closing) fuel copied origin =
      out := by
  induction course generalizing fuel with
  | done none clean =>
    cases fuel with
    | zero => rfl
    | succ fuel => rw [claimFrom, attempt_of_no_next none]
  | literal next cleanInside empty later ih =>
    obtain ⟨fuel, rfl⟩ := Nat.exists_eq_add_of_le' (Nat.lt_of_lt_of_le (Nat.succ_pos _) enough)
    rw [claimFrom, attempt_of_next next, if_pos empty]
    exact ih (Nat.le_of_succ_le_succ enough)
  | span next cleanInside filled clean after later ih =>
    obtain ⟨fuel, rfl⟩ := Nat.exists_eq_add_of_le' (Nat.lt_of_lt_of_le (Nat.succ_pos _) enough)
    rw [claimFrom, attempt_of_next next, if_neg filled]
    dsimp only
    rw [← after, ih (Nat.le_of_succ_le_succ enough)]

/-! ## The next opening -/

/-- The places between which an attempt copies and from which the search goes on. None is inside a
character, and each of them lies further on than the one before it. -/
structure Placed (c : Convention) (segments : List (Segment Bytes))
    (origin first last : Position) : Prop where
  le_opening : origin ≤ first
  opening : Aligned segments first
  inside : Aligned segments (first.advance c.openingSize)
  inside_le_closing : first.advance c.openingSize ≤ last
  closing : Aligned segments last
  resume : Aligned segments (last.advance (Utf8.encode c.closing).length)

section Next

variable (usable : c.Usable letters) (legible : Legible letters segments)

include usable legible

theorem Next.placed (next : Next c segments origin first last) (within : Within segments origin) :
    Placed c segments origin first last := by
  have begins : c.opening ≠ "" ∨ Aligned segments origin := by
    by_cases empty : c.opening = ""
    · exact .inr (within.aligned_of_ascii legible.spelled (usable.ascii empty))
    · exact .inl empty
  obtain ⟨opening, inside⟩ := aligned_of_find? legible.spelled within begins next.opens
  obtain ⟨closing, resume⟩ :=
    aligned_of_find? legible.spelled inside.toWithin (.inr inside) next.closes
  exact ⟨(occurs_of_find?_eq_some within next.opens).1, opening, inside,
    (occurs_of_find?_eq_some inside.toWithin next.closes).1, closing, resume⟩

/-- An opening without characters at the end of a run is not closed at once: what follows the run
is no run, so that something lies between the opening and a closing further on. -/
theorem Next.offset_lt_of_empty_opening (next : Next c segments origin first last)
    (placed : Placed c segments origin first last) (empty : c.opening = "") {run : Bytes}
    (here : segments[first.segment]? = some (.plain run))
    (nothing : copy segments (first.advance c.openingSize) last = []) :
    first.offset < run.length := by
  have zero : c.openingSize = 0 := by
    rw [Convention.openingSize, empty]
    rfl
  obtain ⟨-, ⟨run', closes⟩, -⟩ := occurs_of_find?_eq_some placed.inside.toWithin next.closes
  have ordered := placed.inside_le_closing
  rw [zero, advance_zero] at nothing ordered
  have fits := placed.opening.fits
  have apart := separated_drop legible.normal.separated first.segment
  rw [drop_eq_of_getElem? here] at fits apart
  obtain ⟨-, ends, apart⟩ := apart
  apply Nat.lt_of_le_of_ne fits
  intro atEnd
  have same :=
    remaining_eq_copy_append placed.opening.toWithin placed.closing.toWithin ordered
  rw [nothing, atoms_nil, List.nil_append] at same
  -- nothing goes on with a run after the opening, but the closing does
  have notPlain : startsPlain (remaining segments first) = false := by
    have whole := remaining_plain (drop_eq_of_getElem? here) fits
    rw [atEnd, List.drop_length, List.map_nil, List.nil_append] at whole
    rw [← apart.startsPlain_atoms, ← whole, ← atEnd] at ends
    exact ends
  have isPlain : startsPlain (remaining segments last) = true := by
    have filled : c.closing ≠ "" := usable.delimited.resolve_left (· empty)
    obtain ⟨b, closing', eq⟩ := List.exists_cons_of_ne_nil (Utf8.encode_ne_nil filled)
    obtain ⟨after, starts⟩ := closes.starts
    have short : last.offset ≤ run'.length := Nat.le_trans (Nat.le_add_right _ _) closes.fits
    have whole := remaining_plain (drop_eq_of_getElem? closes.here) short
    rw [← starts, eq] at whole
    exact congrArg startsPlain whole
  rw [same, isPlain] at notPlain
  cases notPlain

/-- Where nothing lies between the delimiters, there is a byte to step over. -/
theorem Next.within_literal (next : Next c segments origin first last)
    (within : Within segments origin)
    (nothing : copy segments (first.advance c.openingSize) last = []) :
    Within segments (first.advance 1) := by
  have placed := next.placed usable legible within
  obtain ⟨-, ⟨run, opens⟩, -⟩ := occurs_of_find?_eq_some within next.opens
  by_cases empty : c.opening = ""
  · have inside :=
      next.offset_lt_of_empty_opening usable legible placed empty opens.here nothing
    exact within_of_getElem? opens.here inside
  · exact opens.within (Utf8.length_encode_pos empty)

end Next

theorem Placed.cleanCopy_inside (placed : Placed c segments origin first last)
    (legible : Legible letters segments) :
    CleanCopy segments (first.advance c.openingSize) last :=
  cleanCopy_of_aligned legible.spelled placed.inside placed.closing placed.inside_le_closing

/-- A span ends further on than it begins. -/
theorem Placed.lt_resume (placed : Placed c segments origin first last)
    (usable : c.Usable letters) : first < last.advance (Utf8.encode c.closing).length := by
  rcases usable.delimited with filled | filled
  · have opening := lt_advance first (Utf8.length_encode_pos filled)
    exact lt_of_lt_of_le (lt_of_lt_of_le opening placed.inside_le_closing) (le_advance last _)
  · have before := le_trans (le_advance first c.openingSize) placed.inside_le_closing
    exact lt_of_le_of_lt before (lt_advance last (Utf8.length_encode_pos filled))

/-! ## Every pass has a course -/

/-- Positions from `origin` on, in order, for which there is room among the places of the runs. -/
structure Ascending (segments : List (Segment Bytes)) (origin : Position)
    (openings : List Position) : Prop where
  above : ∀ p ∈ openings, origin ≤ p
  pairwise : openings.Pairwise (· < ·)
  room : openings.length + place segments origin ≤ plainSize segments + segments.length

theorem Ascending.nil (within : Within segments origin) : Ascending segments origin [] where
  above _ mem := absurd mem List.not_mem_nil
  pairwise := .nil
  room := by simpa using place_le within

theorem Ascending.cons {resume : Position} (later : Ascending segments resume openings)
    (within : Within segments origin) (hfirst : Within segments first) (le : origin ≤ first)
    (lt : first < resume) : Ascending segments origin (first :: openings) := by
  have ahead (p : Position) (mem : p ∈ openings) : first < p :=
    lt_of_lt_of_le lt (later.above p mem)
  constructor
  · intro p mem
    rcases List.mem_cons.1 mem with rfl | mem
    · exact le
    · exact le_trans le (le_of_lt (ahead p mem))
  · exact List.pairwise_cons.2 ⟨ahead, later.pairwise⟩
  · have before := place_le_place within le
    have further := place_lt_place hfirst lt
    have room := later.room
    rw [List.length_cons]
    omega

section Usable

variable (usable : c.Usable letters) (legible : Legible letters segments)

include usable legible

theorem exists_course {copied origin : Position} (hcopied : Aligned segments copied)
    (within : Within segments origin) (le : copied ≤ origin) :
    ∃ openings out, Course c segments copied origin openings out := by
  by_cases ahead : ∃ first last, Next c segments origin first last
  · obtain ⟨first, last, next⟩ := ahead
    have placed := next.placed usable legible within
    have inside := placed.cleanCopy_inside legible
    have before := place_le_place within placed.le_opening
    by_cases nothing : copy segments (first.advance c.openingSize) last = []
    · have resume := next.within_literal usable legible within nothing
      have further := place_lt_place placed.opening.toWithin (lt_advance first Nat.one_pos)
      have bound := place_le resume
      have after := le_trans (le_trans le placed.le_opening) (le_advance first 1)
      obtain ⟨openings, out, later⟩ := exists_course hcopied resume after
      exact ⟨_, _, .literal next inside nothing later⟩
    · have further := place_lt_place placed.opening.toWithin (placed.lt_resume usable)
      have bound := place_le placed.resume.toWithin
      have clean := cleanCopy_of_aligned legible.spelled hcopied placed.opening
        (le_trans le placed.le_opening)
      obtain ⟨openings, out, later⟩ :=
        exists_course placed.resume placed.resume.toWithin (le_refl _)
      exact ⟨_, _, .span next inside nothing clean rfl later⟩
  · have none : ∀ first last, ¬ Next c segments origin first last :=
      fun first last next => ahead ⟨first, last, next⟩
    have clean := cleanCopy_of_aligned legible.spelled hcopied (aligned_endOf legible.spelled)
      (le_endOf hcopied.toWithin)
    exact ⟨_, _, .done none clean⟩
termination_by plainSize segments + segments.length - place segments origin

/-- The openings of a course lie further and further on. -/
theorem Course.ascending (course : Course c segments copied origin openings out)
    (within : Within segments origin) : Ascending segments origin openings := by
  induction course with
  | done none clean => exact .nil within
  | literal next cleanInside empty later ih =>
    have placed := next.placed usable legible within
    have rest := ih (next.within_literal usable legible within empty)
    exact rest.cons within placed.opening.toWithin placed.le_opening (lt_advance _ Nat.one_pos)
  | span next cleanInside filled clean after later ih =>
    subst after
    have placed := next.placed usable legible within
    have rest := ih placed.resume.toWithin
    exact rest.cons within placed.opening.toWithin placed.le_opening (placed.lt_resume usable)

theorem Course.legible_out (course : Course c segments copied origin openings out)
    (hcopied : Within segments copied) (within : Within segments origin) : Legible letters out := by
  induction course with
  | done none clean => exact legible.copy hcopied (within_endOf segments) clean
  | literal next cleanInside empty later ih =>
    exact ih hcopied (next.within_literal usable legible within empty)
  | span next cleanInside filled clean after later ih =>
    subst after
    have placed := next.placed usable legible within
    have before := legible.copy hcopied placed.opening.toWithin clean
    have content := legible.copy placed.inside.toWithin placed.closing.toWithin cleanInside
    have rest := ih placed.resume.toWithin placed.resume.toWithin
    exact ⟨before.normal.append_span rest.normal content.normal c,
      before.spelled.append_span content.spelled rest.spelled c⟩

/-- A pass has a course, with fewer openings than the pass has attempts. -/
theorem exists_course_pass :
    ∃ openings, Course c segments .start .start openings (pass c segments) ∧
      openings.Pairwise (· < ·) ∧ openings.length ≤ plainSize segments + segments.length := by
  have within := within_start segments
  obtain ⟨openings, out, course⟩ :=
    exists_course usable legible (aligned_start legible.spelled) within (le_refl _)
  have ascending := course.ascending usable legible within
  have short := Nat.le_trans (Nat.le_add_right _ _) ascending.room
  have passed : pass c segments = out := course.claimFrom_eq (Nat.le_succ_of_le short)
  rw [passed]
  exact ⟨openings, course, ascending.pairwise, short⟩

theorem legible_pass : Legible letters (pass c segments) := by
  obtain ⟨openings, course, -⟩ := exists_course_pass usable legible
  exact course.legible_out usable legible (within_start segments) (within_start segments)

end Usable

/-! ## Whole parses -/

theorem parseBytes_concat (conventions : List Convention) (c : Convention) (text : Bytes) :
    parseBytes (conventions ++ [c]) text = pass c (parseBytes conventions text) :=
  parseBytes_append conventions [c] text

theorem legible_parseBytes {conventions : List Convention} {text : String}
    (usable : ∀ c ∈ conventions, c.Usable text.toList) :
    Legible text.toList (parseBytes conventions (Utf8.encode text)) := by
  induction conventions using List.reverseRecOn with
  | nil => exact legible_ofBytes text
  | append_singleton conventions c ih =>
    rw [parseBytes_concat]
    have earlier := ih fun d mem => usable d (List.mem_append_left _ mem)
    exact legible_pass (usable c (List.mem_append_right _ List.mem_cons_self)) earlier

/-- The pass of each convention over what the passes before it left. -/
theorem exists_course_parseBytes {conventions earlier later : List Convention} {text : String}
    (usable : ∀ c ∈ conventions, c.Usable text.toList) (eq : conventions = earlier ++ c :: later) :
    let segments := parseBytes earlier (Utf8.encode text)
    ∃ openings, Course c segments .start .start openings
        (parseBytes (earlier ++ [c]) (Utf8.encode text)) ∧
      openings.Pairwise (· < ·) ∧ openings.length ≤ plainSize segments + segments.length := by
  subst eq
  rw [parseBytes_concat]
  have before := legible_parseBytes fun d mem => usable d (List.mem_append_left _ mem)
  exact exists_course_pass (usable c (List.mem_append_right _ List.mem_cons_self)) before

/-- No pass of a parse cuts a run out of range or inside a character, even where the search goes
on inside one, and every run of the result spells a text. -/
theorem course_parse {registry : Registry} (delimited : ∀ c ∈ registry.conventions, c.Delimited)
    (text : String) :
    (∀ earlier c later, registry.conventions = earlier ++ c :: later →
      ∃ openings, Course c (parseBytes earlier (Utf8.encode text)) .start .start openings
        (parseBytes (earlier ++ [c]) (Utf8.encode text))) ∧
    ∀ run, Inside (.plain run) (parseBytes registry.conventions (Utf8.encode text)) →
      ∃ s, run = Utf8.encode s := by
  have usable : ∀ c ∈ registry.conventions, c.Usable text.toList :=
    fun c mem => (delimited c mem).usable text.toList
  constructor
  · intro earlier c later eq
    obtain ⟨openings, course, -⟩ := exists_course_parseBytes usable eq
    exact ⟨openings, course⟩
  · intro run inside
    obtain ⟨s, eq, -⟩ := (legible_parseBytes usable).spelled run inside
    exact ⟨s, eq⟩

/-- The first opening is closed at once, so the search goes on inside its only character. -/
theorem course_parse_multibyte :
    let accents : Convention := { Convention.exclamation with delimiters := ⟨"é", "é"⟩ }
    let text := "x ééaé ü"
    (∀ c ∈ (Registry.ofList [accents]).conventions, c.Delimited) ∧
      (∃ openings, Course accents [.plain (Utf8.encode text)] .start .start openings
        [.plain (Utf8.encode "x é"), .span accents [.plain (Utf8.encode "a")],
          .plain (Utf8.encode " ü")]) ∧
      ∀ run, Inside (.plain run) (parseBytes [accents] (Utf8.encode text)) →
        ∃ s, run = Utf8.encode s := by
  intro accents text
  have delimited : ∀ c ∈ (Registry.ofList [accents]).conventions, c.Delimited := by
    intro c mem
    rw [List.mem_singleton.1 (Registry.mem_arrange_iff.1 mem)]
    exact ⟨by decide, by decide⟩
  have parsed : parseBytes [accents] (Utf8.encode text) =
      [.plain (Utf8.encode "x é"), .span accents [.plain (Utf8.encode "a")],
        .plain (Utf8.encode " ü")] := by
    subst text accents
    rfl
  have unparsed : parseBytes [] (Utf8.encode text) = [.plain (Utf8.encode text)] := by
    subst text
    rfl
  obtain ⟨courses, texts⟩ := course_parse delimited text
  have course := courses [] accents [] rfl
  rw [List.nil_append, parsed, unparsed] at course
  exact ⟨delimited, course, texts⟩

/-- Every pass of a parse comes to an end: each of its attempts but the last finds its opening
further on than the one before it, so that there are no more of them than places in the runs. -/
theorem ascending_parse {registry : Registry} {text : String}
    (delimited : ∀ c ∈ registry.conventions, c.opening ≠ "" ∨ c.closing ≠ "")
    (ascii : (∃ c ∈ registry.conventions, c.opening = "") → ∀ ch ∈ text.toList, ch.val ≤ 127)
    (earlier : List Convention) (c : Convention) (later : List Convention)
    (eq : registry.conventions = earlier ++ c :: later) :
    let segments := parseBytes earlier (Utf8.encode text)
    ∃ openings, Course c segments .start .start openings
        (parseBytes (earlier ++ [c]) (Utf8.encode text)) ∧
      openings.Pairwise (· < ·) ∧
      openings.length + 1 ≤ plainSize segments + segments.length + 1 := by
  have usable : ∀ c ∈ registry.conventions, c.Usable text.toList :=
    fun c mem => ⟨delimited c mem, fun empty => ascii ⟨c, mem, empty⟩⟩
  obtain ⟨openings, course, ascending, short⟩ := exists_course_parseBytes usable eq
  exact ⟨openings, course, ascending, Nat.succ_le_succ short⟩

/-- Before each exclamation mark that something precedes, a span without an opening is closed; the
angle brackets that remain are openings that are closed at once. -/
theorem ascending_parse_degenerate :
    let unopened : Convention := { Convention.exclamation with delimiters := ⟨"", "!"⟩ }
    let unclosed : Convention := { Convention.angleBrackets with delimiters := ⟨"<", ""⟩ }
    let registry := Registry.ofList [unopened, unclosed]
    let text := "!a!<b!!<"
    (∀ c ∈ registry.conventions, c.opening ≠ "" ∨ c.closing ≠ "") ∧
      ((∃ c ∈ registry.conventions, c.opening = "") → ∀ ch ∈ text.toList, ch.val ≤ 127) ∧
      ∃ openings, Course unopened [.plain (Utf8.encode text)] .start .start openings
          (parseBytes [unclosed, unopened] (Utf8.encode text)) ∧
        openings.Pairwise (· < ·) ∧ openings.length + 1 ≤ 10 := by
  intro unopened unclosed registry text
  have delimited : ∀ c ∈ registry.conventions, c.opening ≠ "" ∨ c.closing ≠ "" := by decide
  have all : text.toList.all (·.val ≤ 127) := by decide
  have ascii (_ : ∃ c ∈ registry.conventions, c.opening = "") (ch : Char)
      (mem : ch ∈ text.toList) : ch.val ≤ 127 :=
    of_decide_eq_true (List.all_eq_true.1 all ch mem)
  have arranged : registry.conventions = [unclosed, unopened] := by
    subst registry unopened unclosed
    rfl
  have before : parseBytes [unclosed] (Utf8.encode text) = [.plain (Utf8.encode text)] := by
    subst text unclosed
    rfl
  have size : plainSize [.plain (Utf8.encode text)] = 8 := by
    subst text
    rfl
  have ascending := ascending_parse delimited ascii [unclosed] unopened [] arranged
  simp only [before, size] at ascending
  exact ⟨delimited, ascii, ascending⟩

end Segment

end InlineMarkup

import InlineMarkup.Proofs.Segment.Position
import InlineMarkup.Segment.Parse

/-!
# Passes and the scan

A pass over segments does to their atoms what the scan of its convention does (`atoms_pass`), and
it keeps runs apart at every depth (`normal_pass`). So the conventions of a whole parse may be
followed as scans of atoms, one after the other (`atoms_parseBytes`).
-/

namespace InlineMarkup

/-- Both tokens of the convention have characters. -/
structure Convention.Delimited (c : Convention) : Prop where
  opening : c.opening ≠ ""
  closing : c.closing ≠ ""

theorem Convention.delimited_of_isValid {c : Convention} (valid : c.delimiters.isValid) :
    c.Delimited := by
  simp only [Delimiters.isValid, Bool.and_eq_true, Delimiters.isToken_iff] at valid
  obtain ⟨⟨opening, -⟩, closing, -⟩ := valid
  constructor
  · intro empty
    apply opening
    rw [show c.delimiters.opening = "" from empty, String.toList_empty]
  · intro empty
    apply closing
    rw [show c.delimiters.closing = "" from empty, String.toList_empty]

theorem Registry.delimited_builtin : ∀ c ∈ Registry.builtin.conventions, c.Delimited := by
  intro c mem
  apply Convention.delimited_of_isValid
  apply Convention.isValid_of_mem_builtins
  exact Registry.mem_arrange_iff.1 mem

theorem Utf8.encode_ne_nil {s : String} (h : s ≠ "") : encode s ≠ [] := by
  intro empty
  apply h
  exact encode_injective empty

namespace Position

open Segment

variable {segments : List (Segment Bytes)} {p q r : Position}

theorem remaining_advance (segments : List (Segment Bytes)) (p : Position) (n : Nat) :
    remaining segments (p.advance n) = (remaining segments p).drop n := by
  simp [remaining, advance]

theorem atoms_copy_self (hp : Within segments p) : atoms id (copy segments p p) = [] :=
  List.append_left_eq_self.1 (remaining_eq_copy_append hp hp (le_refl p)).symm

/-- Copies of neighbouring stretches together have the atoms of one copy of both. -/
theorem atoms_copy_append (hp : Within segments p) (hq : Within segments q)
    (hr : Within segments r) (pq : p ≤ q) (qr : q ≤ r) :
    atoms id (copy segments p q) ++ atoms id (copy segments q r) =
      atoms id (copy segments p r) := by
  have whole := remaining_eq_copy_append hp hr (le_trans pq qr)
  rw [remaining_eq_copy_append hp hq pq, remaining_eq_copy_append hq hr qr,
    ← List.append_assoc] at whole
  exact List.append_cancel_right whole

theorem atoms_copy_endOf (hp : Within segments p) :
    atoms id (copy segments p (endOf segments)) = remaining segments p := by
  have whole := remaining_eq_copy_append hp (within_endOf segments) (le_endOf hp)
  rw [remaining_endOf, List.append_nil] at whole
  exact whole.symm

end Position

namespace Segment

open Position Scan

variable {segments : List (Segment Bytes)} {opening closing : Bytes} {origin : Position}

/-- What an attempt says about the scan of the atoms that remain at `origin`. -/
def Attempt.Agrees (segments : List (Segment Bytes)) (c : Convention) (opening closing : Bytes)
    (origin : Position) : Attempt → Prop
  | .matched first last children =>
    origin ≤ first ∧ Within segments first ∧ Within segments last ∧
      (∃ inside close, Within segments inside ∧ Within segments close ∧
        children = copy segments inside close) ∧
      (remaining segments last).length < (remaining segments origin).length ∧
      claim c opening closing (remaining segments origin) =
        atoms id (copy segments origin first) ++
          .span c (atoms id children) :: claim c opening closing (remaining segments last)
  | .literal resume =>
    origin ≤ resume ∧ Within segments resume ∧
      (remaining segments resume).length < (remaining segments origin).length ∧
      claim c opening closing (remaining segments origin) =
        atoms id (copy segments origin resume) ++
          claim c opening closing (remaining segments resume)
  | .unterminated =>
    claim c opening closing (remaining segments origin) = remaining segments origin

/-- An opening with its closing right behind it is passed over by one byte. -/
theorem agrees_literal {c : Convention} {first : Position} {rest : List (Segment UInt8)}
    (ho : opening ≠ []) (within : Within segments origin)
    (found : Found segments origin opening first)
    (hclose : split? closing (remaining segments (first.advance opening.length)) =
      some ([], rest)) :
    (Attempt.literal (first.advance 1)).Agrees segments c opening closing origin := by
  obtain ⟨b, opening', rfl⟩ := List.exists_cons_of_ne_nil ho
  have resumeWithin : Within segments (first.advance 1) := found.within 1 (by simp)
  have le : origin ≤ first.advance 1 := le_trans found.le (.inr ⟨rfl, Nat.le_add_right _ _⟩)
  have head : remaining segments first = .plain b :: remaining segments (first.advance 1) := by
    rw [remaining_advance, found.here]
    rfl
  have before : remaining segments origin =
      atoms id (copy segments origin first) ++ remaining segments first :=
    remaining_eq_copy_append within (found.within 0 (Nat.zero_le _)) found.le
  have after := remaining_eq_copy_append within resumeWithin le
  have copied : atoms id (copy segments origin (first.advance 1)) =
      atoms id (copy segments origin first) ++ [.plain b] := by
    rw [before, head, List.append_cons] at after
    exact (List.append_cancel_right after).symm
  refine ⟨le, resumeWithin, ?_, ?_⟩
  · rw [before, head, List.length_append, List.length_cons]
    omega
  · have opened := found.here
    rw [head] at opened
    rw [claim_of_split?_eq_some (found.split?_remaining within), ← opened,
      claim_cons_of_nothing_inside (after?_eq_some_iff.2 opened) hclose, copied]
    simp

/-- An opening and the first closing after it bound a span if anything lies between them. -/
theorem agrees_matched {c : Convention} {first last : Position} (ho : opening ≠ [])
    (within : Within segments origin) (found : Found segments origin opening first)
    (closed : Found segments (first.advance opening.length) closing last)
    (filled : atoms id (copy segments (first.advance opening.length) last) ≠ []) :
    (Attempt.matched first (last.advance closing.length)
      (copy segments (first.advance opening.length) last)).Agrees segments c opening closing
        origin := by
  have insideWithin := found.within opening.length (Nat.le_refl _)
  have outer := found.split?_remaining within
  have inner := closed.split?_remaining insideWithin
  refine ⟨found.le, found.within 0 (Nat.zero_le _), closed.within closing.length (Nat.le_refl _),
    ⟨_, _, insideWithin, closed.within 0 (Nat.zero_le _), rfl⟩, ?_, ?_⟩
  · have size := List.length_pos_iff.2 ho
    rw [eq_of_split?_eq_some outer, eq_of_split?_eq_some inner]
    simp only [List.length_append, List.length_map]
    omega
  · rw [claim_of_split?_eq_some outer,
      claim_of_content (after?_map_plain_append opening _) inner filled]

theorem agrees_attempt (c : Convention) (ho : opening ≠ []) (hc : closing ≠ [])
    (apart : Separated id segments) (within : Within segments origin) :
    (attempt segments opening closing origin).Agrees segments c opening closing origin := by
  unfold attempt
  cases opened : find? segments origin opening with
  | none => exact claim_of_split?_eq_none (split?_remaining_of_find?_eq_none apart ho within opened)
  | some first =>
    have found := found_of_find?_eq_some apart ho within opened
    have insideWithin := found.within opening.length (Nat.le_refl _)
    have outer := found.split?_remaining within
    dsimp only
    cases hclose : find? segments (first.advance opening.length) closing with
    | none =>
      have missing := split?_remaining_of_find?_eq_none apart hc insideWithin hclose
      have opens := after?_map_plain_append opening
        (remaining segments (first.advance opening.length))
      show claim c opening closing (remaining segments origin) = remaining segments origin
      rw [claim_of_split?_eq_some outer, claim_of_no_closing opens missing]
      exact (eq_of_split?_eq_some outer).symm
    | some last =>
      have closed := found_of_find?_eq_some apart hc insideWithin hclose
      have inner := closed.split?_remaining insideWithin
      have children := separated_copy insideWithin (closed.within 0 (Nat.zero_le _)) apart
      rw [advance_zero] at children
      dsimp only
      split
      · rename_i empty
        rw [List.isEmpty_iff] at empty
        rw [empty, atoms_nil] at inner
        exact agrees_literal ho within found inner
      · rename_i filled
        rw [List.isEmpty_iff, ← children.atoms_eq_nil_iff] at filled
        exact agrees_matched ho within found closed filled

/-- From any position at which the search has arrived, a pass gives what was passed over and the
scan of the rest. -/
theorem atoms_claimFrom (c : Convention) (ho : opening ≠ []) (hc : closing ≠ [])
    (apart : Separated id segments) {fuel : Nat} {copied : Position}
    (hcopied : Within segments copied) (horigin : Within segments origin)
    (le : copied ≤ origin) (enough : (remaining segments origin).length < fuel) :
    atoms id (claimFrom c segments opening closing fuel copied origin) =
      atoms id (copy segments copied origin) ++
        claim c opening closing (remaining segments origin) := by
  induction fuel generalizing copied origin with
  | zero => omega
  | succ fuel ih =>
    have agrees := agrees_attempt c ho hc apart horigin
    rw [claimFrom]
    cases tried : attempt segments opening closing origin with
    | matched first last children =>
      rw [tried] at agrees
      obtain ⟨leFirst, hfirst, hlast, -, shorter, scanned⟩ := agrees
      have rest := ih hlast hlast (le_refl last) (by omega)
      rw [atoms_copy_self hlast, List.nil_append] at rest
      rw [scanned, atoms_append, atoms_span, rest,
        ← atoms_copy_append hcopied horigin hfirst le leFirst, List.append_assoc]
    | literal resume =>
      rw [tried] at agrees
      obtain ⟨leResume, hresume, shorter, scanned⟩ := agrees
      have rest := ih hcopied hresume (le_trans le leResume) (by omega)
      rw [scanned]
      dsimp only
      rw [rest, ← atoms_copy_append hcopied horigin hresume le leResume, List.append_assoc]
    | unterminated =>
      rw [tried] at agrees
      rw [show claim c opening closing (remaining segments origin) = _ from agrees]
      dsimp only
      rw [atoms_copy_endOf hcopied, remaining_eq_copy_append hcopied horigin le]

theorem normal_claimFrom (c : Convention) (ho : opening ≠ []) (hc : closing ≠ [])
    (normal : Normal id segments) (fuel : Nat) {copied : Position}
    (hcopied : Within segments copied) (horigin : Within segments origin) :
    Normal id (claimFrom c segments opening closing fuel copied origin) := by
  induction fuel generalizing copied origin with
  | zero => exact normal_copy hcopied (within_endOf segments) normal
  | succ fuel ih =>
    have agrees := agrees_attempt c ho hc normal.separated horigin
    rw [claimFrom]
    cases tried : attempt segments opening closing origin with
    | matched first last children =>
      rw [tried] at agrees
      obtain ⟨-, hfirst, hlast, ⟨inside, close, hinside, hclose, rfl⟩, -, -⟩ := agrees
      exact (normal_copy hcopied hfirst normal).append_span (ih hlast hlast)
        (normal_copy hinside hclose normal) c
    | literal resume =>
      rw [tried] at agrees
      exact ih hcopied agrees.2.1
    | unterminated => exact normal_copy hcopied (within_endOf segments) normal

theorem length_atoms_le (segments : List (Segment Bytes)) :
    (atoms id segments).length ≤ plainSize segments + segments.length := by
  induction segments with
  | nil => exact Nat.le_refl _
  | cons s rest ih =>
    cases s with
    | plain run =>
      simp only [atoms_plain, id_eq, List.length_append, List.length_map, plainSize,
        List.length_cons]
      omega
    | span c cs =>
      simp only [atoms_span, plainSize, List.length_cons]
      omega

variable {c : Convention}

/-- A pass scans the atoms of its segments. -/
theorem atoms_pass (delimited : c.Delimited) (apart : Separated id segments) :
    atoms id (pass c segments) = Scan.pass Utf8.encode c (atoms id segments) := by
  have room := length_atoms_le segments
  have enough : (remaining segments start).length < plainSize segments + segments.length + 1 := by
    rw [remaining_start]
    omega
  have scanned := atoms_claimFrom c (Utf8.encode_ne_nil delimited.opening)
    (Utf8.encode_ne_nil delimited.closing) apart (within_start segments) (within_start segments)
    (le_refl start) enough
  rw [atoms_copy_self (within_start segments), List.nil_append, remaining_start] at scanned
  exact scanned

/-- A pass keeps runs apart at every depth. -/
theorem normal_pass (delimited : c.Delimited) (normal : Normal id segments) :
    Normal id (pass c segments) :=
  normal_claimFrom c (Utf8.encode_ne_nil delimited.opening)
    (Utf8.encode_ne_nil delimited.closing) normal _ (within_start segments) (within_start segments)

/-! ## Whole parses -/

theorem normal_ofBytes (text : Bytes) : Normal id (ofBytes text) := by
  unfold ofBytes
  split
  · exact .nil
  · rename_i filled
    rw [List.isEmpty_iff] at filled
    exact normal_plain_cons.2 ⟨filled, rfl, .nil⟩

theorem atoms_ofBytes (text : Bytes) : atoms id (ofBytes text) = text.map .plain := by
  unfold ofBytes
  split
  · rename_i empty
    rw [List.isEmpty_iff.1 empty]
    rfl
  · simp

/-- Passes keep runs apart and scan the atoms, one after the other. -/
theorem foldl_pass {conventions : List Convention} (delimited : ∀ c ∈ conventions, c.Delimited)
    (normal : Normal id segments) :
    Normal id (conventions.foldl (fun segments c => pass c segments) segments) ∧
      atoms id (conventions.foldl (fun segments c => pass c segments) segments) =
        conventions.foldl (fun atoms c => Scan.pass Utf8.encode c atoms) (atoms id segments) := by
  induction conventions generalizing segments with
  | nil => exact ⟨normal, rfl⟩
  | cons c rest ih =>
    have now := delimited c List.mem_cons_self
    have others : ∀ d ∈ rest, d.Delimited := by
      intro d mem
      exact delimited d (List.mem_cons_of_mem c mem)
    have later := ih others (normal_pass now normal)
    rw [atoms_pass now normal.separated] at later
    exact later

theorem normal_parseBytes {conventions : List Convention}
    (delimited : ∀ c ∈ conventions, c.Delimited) (text : Bytes) :
    Normal id (parseBytes conventions text) :=
  (foldl_pass delimited (normal_ofBytes text)).1

theorem atoms_parseBytes {conventions : List Convention}
    (delimited : ∀ c ∈ conventions, c.Delimited) (text : Bytes) :
    atoms id (parseBytes conventions text) =
      conventions.foldl (fun atoms c => Scan.pass Utf8.encode c atoms) (text.map .plain) := by
  rw [← atoms_ofBytes text]
  exact (foldl_pass delimited (normal_ofBytes text)).2

end Segment

end InlineMarkup

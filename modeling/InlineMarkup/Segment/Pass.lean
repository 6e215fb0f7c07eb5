import InlineMarkup.Segment.Position

/-!
# One pass of a convention

A pass turns what a convention claims into spans. From the left, the next opening and the first
closing after it bound a span; an opening that its closing follows at once is ordinary text, and
the search goes on one byte further. Where no closing follows, nothing further on can be closed
either, and the pass ends. Spans of earlier passes are never looked into, but may lie inside a
new span.
-/

namespace InlineMarkup

namespace Segment

/-- What became of the next opening. -/
inductive Attempt where
  /-- A span with the given content lies between two positions. -/
  | matched (first last : Position) (children : List (Segment Bytes))
  /-- The opening is ordinary text; the search goes on from `resume`. -/
  | literal (resume : Position)
  /-- No span follows. -/
  | unterminated

/-- Tries to claim the next span at or after `origin`. -/
def attempt (segments : List (Segment Bytes)) (opening closing : Bytes) (origin : Position) :
    Attempt :=
  match Position.find? segments origin opening with
  | none => .unterminated
  | some first =>
    let inside := first.advance opening.length
    match Position.find? segments inside closing with
    | none => .unterminated
    | some last =>
      let children := Position.copy segments inside last
      if children.isEmpty then .literal (first.advance 1)
      else .matched first (last.advance closing.length) children

/-- The segments from `copied` on with the spans claimed at or after `origin`, in at most `fuel`
attempts. -/
def claimFrom (c : Convention) (segments : List (Segment Bytes)) (opening closing : Bytes) :
    (fuel : Nat) → (copied origin : Position) → List (Segment Bytes)
  | 0, copied, _ => Position.copy segments copied (.endOf segments)
  | fuel + 1, copied, origin =>
    match attempt segments opening closing origin with
    | .matched first last children =>
      Position.copy segments copied first
        ++ .span c children :: claimFrom c segments opening closing fuel last last
    | .literal resume => claimFrom c segments opening closing fuel copied resume
    | .unterminated => Position.copy segments copied (.endOf segments)

/-- The number of bytes of the plain runs of a list, those inside spans not counted. -/
def plainSize : List (Segment Bytes) → Nat
  | [] => 0
  | .plain run :: rest => run.length + plainSize rest
  | .span .. :: rest => plainSize rest

/-- The segments with the spans of `c` claimed. Every attempt but the last finds its opening
further on, so that the number of attempts is no limit. -/
def pass (c : Convention) (segments : List (Segment Bytes)) : List (Segment Bytes) :=
  claimFrom c segments (Utf8.encode c.opening) (Utf8.encode c.closing)
    (plainSize segments + segments.length + 1) .start .start

end Segment

end InlineMarkup

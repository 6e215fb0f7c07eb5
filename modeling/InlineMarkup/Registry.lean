import InlineMarkup.Collection

/-!
# Registries

A registry holds the conventions that are active for one rendering, in the order in which they
are matched: longest opening first, so that a longer opening claims its spans before a shorter one
that begins like it can. Conventions with openings of one length keep the order in which they
were given, which is built-in ones first and then custom ones by key.

`Record.activate` decides whether a stored record becomes active.
-/

namespace InlineMarkup

/-- Why a stored record does not become active. -/
inductive Exclusion where
  /-- The record names another key than the one it is stored under. -/
  | misfiled (named : String)
  /-- The record is no convention. -/
  | invalid (fault : Record.Fault)
deriving DecidableEq, Repr

/-- What is said about an excluded record. -/
def Exclusion.message : Exclusion → String
  | misfiled named => "record names key " ++ Text.quoted named
  | invalid fault => fault.message

/-- The custom convention that the record stored under `key` stands for. -/
def Record.activate (key : String) (r : Record) : Except Exclusion Convention :=
  if r.key = key then r.toConvention.mapError .invalid else .error (.misfiled r.key)

namespace Collection

/-- The custom conventions of a collection, in the order of their keys. -/
def customs (c : Collection) : List Convention :=
  c.entries.filterMap fun e => (e.2.activate e.1).toOption

/-- The keys of the records left out of `customs`, with the reasons. -/
def excluded (c : Collection) : List (String × Exclusion) :=
  c.entries.filterMap fun e =>
    match e.2.activate e.1 with
    | .ok _ => none
    | .error reason => some (e.1, reason)

end Collection

/-- Active conventions in matching order. -/
structure Registry where
  conventions : List Convention
  longestFirst : conventions.Pairwise fun a b => b.openingSize ≤ a.openingSize

namespace Registry

/-- Puts `c` before the first convention whose opening is no longer than its own. -/
def place (c : Convention) : List Convention → List Convention
  | [] => [c]
  | d :: rest => if d.openingSize ≤ c.openingSize then c :: d :: rest else d :: place c rest

/-- Conventions in matching order. -/
def arrange (conventions : List Convention) : List Convention :=
  conventions.foldr place []

theorem mem_place_iff {c d : Convention} {l : List Convention} :
    d ∈ place c l ↔ d = c ∨ d ∈ l := by
  induction l with
  | nil => simp [place]
  | cons e rest ih =>
    unfold place
    split
    · simp
    · simp [ih, or_left_comm]

theorem pairwise_place {c : Convention} {l : List Convention}
    (h : l.Pairwise fun a b => b.openingSize ≤ a.openingSize) :
    (place c l).Pairwise fun a b => b.openingSize ≤ a.openingSize := by
  induction l with
  | nil => simp [place]
  | cons d rest ih =>
    obtain ⟨hd, hr⟩ := List.pairwise_cons.1 h
    unfold place
    split
    · rename_i hle
      refine List.pairwise_cons.2 ⟨fun e he => ?_, h⟩
      rcases List.mem_cons.1 he with rfl | he
      · exact hle
      · exact Nat.le_trans (hd e he) hle
    · rename_i hle
      refine List.pairwise_cons.2 ⟨fun e he => ?_, ih hr⟩
      rcases mem_place_iff.1 he with rfl | he
      · exact Nat.le_of_not_le hle
      · exact hd e he

theorem mem_arrange_iff {c : Convention} {l : List Convention} : c ∈ arrange l ↔ c ∈ l := by
  induction l with
  | nil => simp [arrange]
  | cons d rest ih =>
    have h : arrange (d :: rest) = place d (arrange rest) := rfl
    rw [h, mem_place_iff, ih, List.mem_cons]

theorem pairwise_arrange (l : List Convention) :
    (arrange l).Pairwise fun a b => b.openingSize ≤ a.openingSize := by
  induction l with
  | nil => simp [arrange]
  | cons d rest ih => exact pairwise_place ih

/-- The registry of the given conventions, taken as they are. -/
def ofList (conventions : List Convention) : Registry where
  conventions := arrange conventions
  longestFirst := pairwise_arrange conventions

/-- The built-in conventions alone. -/
def builtin : Registry :=
  ofList Convention.builtins

/-- The built-in conventions and the custom ones of a collection. -/
def ofCollection (c : Collection) : Registry :=
  ofList (Convention.builtins ++ c.customs)

/-- The keys in matching order. -/
def keys (r : Registry) : List String :=
  r.conventions.map (·.key)

/-- The convention with a key. -/
def find? (r : Registry) (key : String) : Option Convention :=
  r.conventions.find? (·.key == key)

/-- The conventions that use exactly the delimiters `d`, in matching order. -/
def conflicts (r : Registry) (d : Delimiters) : List Convention :=
  r.conventions.filter (·.delimiters == d)

/-- The conventions other than that of `key` that use exactly the delimiters `d`. -/
def conflictsBeside (r : Registry) (key : String) (d : Delimiters) : List Convention :=
  (r.conflicts d).filter (·.key != key)

end Registry

end InlineMarkup

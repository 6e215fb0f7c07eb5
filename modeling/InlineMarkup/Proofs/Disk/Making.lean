import InlineMarkup.Proofs.Disk.Ordinary

/-!
# Folders made one by one

Making the folders of a path may stop between any two of them. All that has changed by then is
that folders stand at places along the path where nothing was (`MakingAt.adds`).
-/

namespace InlineMarkup.Disk

open Node (Kind)

variable {d d' d'' : Disk} {absolute : Bool} {reversed along along' : List String}

/-- The path that ends with a piece; the pieces before it are given from the last to the first. -/
abbrev pathTo (absolute : Bool) (piece : String) (before : List String) : Path :=
  { absolute, pieces := (piece :: before).reverse }

/-- The disks that `makeFoldersAt` leaves, if it may stop before or after any folder is made. -/
inductive MakingAt (absolute : Bool) : (reversed : List String) → Disk → Disk → Prop where
  /-- Nothing is made yet. -/
  | stopped (reversed : List String) (d : Disk) : MakingAt absolute reversed d d
  /-- The last piece leads nowhere. -/
  | idle {piece : String} {before : List String} {d d' : Disk}
      (idle : Path.isIdle absolute piece before) (making : MakingAt absolute before d d') :
      MakingAt absolute (piece :: before) d d'
  /-- The folder is made in the folder around it. -/
  | made {piece : String} {before : List String} {d d' : Disk}
      (real : Path.isIdle absolute piece before = false)
      (made : d.makeFolder (pathTo absolute piece before) = .ok d') :
      MakingAt absolute (piece :: before) d d'
  /-- The folder around is missing and is being made. -/
  | around {piece : String} {before : List String} {d d' : Disk}
      (real : Path.isIdle absolute piece before = false)
      (missing : d.makeFolder (pathTo absolute piece before) = .error .notFound)
      (making : MakingAt absolute before d d') : MakingAt absolute (piece :: before) d d'
  /-- The folder is made after the one around it. -/
  | inside {piece : String} {before : List String} {d d' d'' : Disk}
      (real : Path.isIdle absolute piece before = false)
      (missing : d.makeFolder (pathTo absolute piece before) = .error .notFound)
      (around : makeFoldersAt absolute before d = (.ok (), d'))
      (made : d'.makeFolder (pathTo absolute piece before) = .ok d'') :
      MakingAt absolute (piece :: before) d d''

/-- The disk that is left in the end is among those that may be left. -/
theorem makingAt_makeFoldersAt (absolute : Bool) (reversed : List String) (d : Disk) :
    MakingAt absolute reversed d (makeFoldersAt absolute reversed d).2 := by
  induction reversed generalizing d with
  | nil =>
    have same : (makeFoldersAt absolute [] d).2 = d := by
      simp only [makeFoldersAt]
      split <;> rfl
    rw [same]
    exact .stopped [] d
  | cons piece before ih =>
    rw [makeFoldersAt]
    cases idle : Path.isIdle absolute piece before with
    | true => exact .idle idle (ih d)
    | false =>
      simp only [Bool.false_eq_true, if_false]
      split
      · rename_i d' made
        exact .made idle made
      · rename_i missing
        have before' := ih d
        split
        · rename_i fault d' failed
          rw [failed] at before'
          exact .around idle missing before'
        · rename_i d' around
          rw [around] at before'
          split
          · rename_i d'' made
            exact .inside idle missing around made
          · split <;> exact .around idle missing before'
      · split <;> exact .stopped (piece :: before) d

/-- All that differs is that there are folders on the way along some names. -/
structure AddsFolders (d : Disk) (along : List String) (d' : Disk) : Prop where
  current : d'.current = d.current
  kind? : ∀ names, d'.kind? names = d.kind? names ∨
    d.kind? names = none ∧ d'.kind? names = some .folder ∧ names <+: along

namespace AddsFolders

theorem refl (d : Disk) (along : List String) : d.AddsFolders along d :=
  ⟨rfl, fun _ => .inl rfl⟩

theorem mono (adds : d.AddsFolders along d') (further : along <+: along') :
    d.AddsFolders along' d' where
  current := adds.current
  kind? names := by
    rcases adds.kind? names with same | ⟨missing, folder, inside⟩
    · exact .inl same
    · exact .inr ⟨missing, folder, inside.trans further⟩

theorem trans (adds : d.AddsFolders along d') (adds' : d'.AddsFolders along d'') :
    d.AddsFolders along d'' where
  current := adds'.current.trans adds.current
  kind? names := by
    rcases adds'.kind? names with same | ⟨missing, folder, inside⟩
    · rw [same]
      exact adds.kind? names
    · rcases adds.kind? names with same' | ⟨-, folder', -⟩
      · exact .inr ⟨same' ▸ missing, folder, inside⟩
      · rw [folder'] at missing
        cases missing

theorem makeFolder {p : Path} (ordinary : p.Ordinary) (made : d.makeFolder p = .ok d') :
    d.AddsFolders (d.placeOf p) d' := by
  obtain ⟨folder, name, denotes, missing, becomes⟩ := makeFolder_eq_ok made
  rw [denotes.place_eq ordinary] at missing becomes
  refine ⟨becomes.current, ?_⟩
  intro names
  rw [becomes.kind?]
  by_cases here : names = d.placeOf p
  · subst here
    exact .inr ⟨missing, Function.update_self .., List.prefix_rfl⟩
  · exact .inl (Function.update_of_ne here ..)

theorem content? (adds : d.AddsFolders along d') (names : List String) :
    d'.content? names = d.content? names := by
  rcases adds.kind? names with same | ⟨missing, folder, -⟩
  · exact content?_congr same
  · ext content
    rw [content?_eq_some_iff, content?_eq_some_iff, missing, folder]
    simp

end AddsFolders

theorem ordinary_pathTo {piece : String} {before : List String}
    (plain : ∀ piece' ∈ piece :: before, Path.isDots piece' = false)
    (real : Path.isIdle absolute piece before = false) :
    (pathTo absolute piece before).Ordinary where
  plain := by
    intro part mem
    rw [Path.parts, List.mem_filter, List.mem_reverse] at mem
    exact plain part mem.1
  notTrailing := by
    rw [Path.isIdle_of_plain (plain piece List.mem_cons_self)] at real
    simpa [Path.trailing] using real

theorem placeOf_before (d : Disk) (absolute : Bool) (piece : String) (before : List String) :
    d.placeOf { absolute, pieces := before.reverse } <+:
      d.placeOf (pathTo absolute piece before) := by
  simp [placeOf, Path.parts, origin]

/-- Until the folders of a path of names are made, there are more folders on the way. -/
theorem MakingAt.adds (making : MakingAt absolute reversed d d')
    (plain : ∀ piece ∈ reversed, Path.isDots piece = false) :
    d.AddsFolders (d.placeOf { absolute, pieces := reversed.reverse }) d' := by
  induction reversed generalizing d d' with
  | nil =>
    cases making
    exact .refl ..
  | cons piece before ih =>
    obtain ⟨-, plain'⟩ := List.forall_mem_cons.1 plain
    have further := d.placeOf_before absolute piece before
    cases making with
    | stopped => exact .refl ..
    | idle idle making => exact (ih making plain').mono further
    | made real made => exact .makeFolder (ordinary_pathTo plain real) made
    | around real missing making => exact (ih making plain').mono further
    | inside real missing around made =>
      have first := makingAt_makeFoldersAt absolute before d
      rw [around] at first
      have adds := (ih first plain').mono further
      have last := AddsFolders.makeFolder (ordinary_pathTo plain real) made
      rw [placeOf_congr adds.current] at last
      exact adds.trans last

end InlineMarkup.Disk

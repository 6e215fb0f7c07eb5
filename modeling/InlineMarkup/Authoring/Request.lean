import InlineMarkup.Authoring.Draft
import InlineMarkup.Warning

/-!
# Edits

An author submits a draft, replaces a custom convention by one, or removes a custom convention.
`Request.plan` says what an edit does to the records of a store: it is refused, or it gives an
answer and the records afterwards. `Request.run` carries it out on a store: nothing is saved
unless the plan succeeds.
-/

namespace InlineMarkup

/-- What to do with a draft whose delimiters are taken. -/
inductive Resolution where
  /-- Refuse it. -/
  | reject
  /-- Put it in the place of the custom convention that has them. -/
  | editExisting
deriving DecidableEq, Repr

/-- An edit. -/
inductive Request where
  | submit (draft : Draft) (resolution : Resolution)
  | update (key : String) (draft : Draft)
  | remove (key : String)
deriving DecidableEq, Repr

/-- What a successful edit did. -/
inductive Answer where
  | created (c : Convention)
  | updated (c : Convention)
  | removed (r : Record)
deriving DecidableEq, Repr

namespace Request

/-- The records with the draft stored under a key, and the convention it became. -/
def store (draft : Draft) (key : String) (records : Collection) : Convention × Collection :=
  let c := draft.toConvention key
  (c, records.insert key (.ofConvention c))

/-- What submitting a draft does; `fresh` is the key of a new convention. -/
def planSubmit (draft : Draft) (resolution : Resolution) (fresh : String) (records : Collection) :
    Except AuthoringFault (Answer × Collection) :=
  match (Registry.ofCollection records).conflicts draft.delimiters with
  | [] =>
    let (c, records) := store draft fresh records
    .ok (.created c, records)
  | existing :: others =>
    match resolution with
    | .reject => .error (.conflict draft.delimiters (existing :: others))
    | .editExisting =>
      if existing.isBuiltin then .error (.builtinImmutable existing.key)
      else
        let (c, records) := store draft existing.key records
        .ok (.updated c, records)

/-- What replacing the convention of a key does. -/
def planUpdate (key : String) (draft : Draft) (records : Collection) :
    Except AuthoringFault (Answer × Collection) :=
  if records.contains key then
    match (Registry.ofCollection records).conflictsBeside key draft.delimiters with
    | [] =>
      let (c, records) := store draft key records
      .ok (.updated c, records)
    | existing => .error (.conflict draft.delimiters existing)
  else .error (.unknownKey key)

/-- What removing the convention of a key does. -/
def planRemove (key : String) (records : Collection) :
    Except AuthoringFault (Answer × Collection) :=
  match records.find? key with
  | some r => .ok (.removed r, records.erase key)
  | none => .error (.unknownKey key)

/-- The key an edit names, if it names one. -/
def key? : Request → Option String
  | submit .. => none
  | update key _ => some key
  | remove key => some key

/-- Whether an edit names a built-in convention; it is refused before the store is loaded. -/
def check (request : Request) : Except AuthoringFault Unit :=
  match request.key? with
  | some key =>
    if Convention.isBuiltinKey key then .error (.builtinImmutable key) else .ok ()
  | none => .ok ()

/-- What an edit does to the records of a store; `fresh` is the key of a new convention. -/
def plan (request : Request) (fresh : String) (records : Collection) :
    Except AuthoringFault (Answer × Collection) :=
  match request with
  | submit draft resolution => planSubmit draft resolution fresh records
  | update key draft => planUpdate key draft records
  | remove key => planRemove key records

/-- What is mentioned while an edit is planned: the records that are left out of the registry in
which conflicts are looked for. -/
def warnings (request : Request) (records : Collection) : List Warning :=
  match request with
  | submit .. => Warning.ofCollection records
  | update key _ => if records.contains key then Warning.ofCollection records else []
  | remove _ => []

variable {σ : Type} [Store σ]

/-- Carries an edit out on a store. -/
def run (request : Request) (fresh : String) (s : σ) : Except AuthoringFault Answer × σ :=
  match request.check with
  | .error fault => (.error fault, s)
  | .ok () =>
    match Store.load s with
    | .error fault => (.error (.store fault), s)
    | .ok records =>
      match request.plan fresh records with
      | .error fault => (.error fault, s)
      | .ok (answer, records) =>
        match Store.save records s with
        | (.error fault, s) => (.error (.store fault), s)
        | (.ok (), s) => (.ok answer, s)

/-- What is mentioned when an edit is carried out on a store. -/
def warningsOn (request : Request) (s : σ) : List Warning :=
  match request.check, Store.load s with
  | .ok (), .ok records => request.warnings records
  | _, _ => []

end Request

/-- A draft, and the conventions that use its delimiters. -/
structure Proposal where
  draft : Draft
  conflicts : List Convention
deriving DecidableEq, Repr

/-- The proposal of a draft against the records of a store. -/
def Draft.propose (draft : Draft) (records : Collection) : Proposal where
  draft := draft
  conflicts := (Registry.ofCollection records).conflicts draft.delimiters

end InlineMarkup

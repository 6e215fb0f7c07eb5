import Mathlib.Data.List.Induction
import InlineMarkup.CommandLine.Arguments

/-!
# Options anywhere

An option and its value stand together, but otherwise options may stand anywhere between the words
of a command (`Options.Interleaved`). Reading the arguments one by one keeps to the words in their
order, to the last value of each option and to the fact that help was asked for
(`Options.read_interleaved`), so nothing else about the order matters.
-/

namespace InlineMarkup

namespace Options

/-- An option, with the value that follows it. -/
inductive Group where
  | store (path : String)
  | keywordColor (color : String)
  | description (text : String)
  | editExisting
deriving DecidableEq, Repr

namespace Group

/-- The arguments that make up an option. Any text is a value. -/
def args : Group → List String
  | store path => ["--store", path]
  | keywordColor color => ["--keyword-color", color]
  | description text => ["--description", text]
  | editExisting => ["--edit-existing"]

/-- What is known of the arguments after an option more. -/
def set (o : Options) : Group → Options
  | store path => { o with store := some path }
  | keywordColor color => { o with keywordColor := some color }
  | description text => { o with description := some text }
  | editExisting => { o with editExisting := true }

/-- The path, if the option names a store. -/
def store? : Group → Option String
  | store path => some path
  | _ => none

/-- The color, if the option names the color of keywords. -/
def keywordColor? : Group → Option String
  | keywordColor color => some color
  | _ => none

/-- The text, if the option is a description. -/
def description? : Group → Option String
  | description text => some text
  | _ => none

end Group

/-- An argument that is neither an option nor asks for help. -/
structure IsWord (arg : String) : Prop where
  noOption : isOption arg = false
  noHelp : arg ≠ "-h"

/-- `argv` holds the options, the words and the requests for help, each of the three in their order,
and each option together with its value. -/
inductive Interleaved : (groups : List Group) → (words requests argv : List String) → Prop where
  | nil : Interleaved [] [] [] []
  | group (g : Group) {groups : List Group} {words requests argv : List String}
      (rest : Interleaved groups words requests argv) :
      Interleaved (g :: groups) words requests (g.args ++ argv)
  | word (word : String) {groups : List Group} {words requests argv : List String}
      (rest : Interleaved groups words requests argv) :
      Interleaved groups (word :: words) requests (word :: argv)
  | request (request : String) {groups : List Group} {words requests argv : List String}
      (rest : Interleaved groups words requests argv) :
      Interleaved groups words (request :: requests) (request :: argv)

/-- What the options say, each by its last value, with the words. -/
def ofGroups (groups : List Group) (words : List String) : Options where
  store := (groups.filterMap Group.store?).getLast?
  keywordColor := (groups.filterMap Group.keywordColor?).getLast?
  description := (groups.filterMap Group.description?).getLast?
  editExisting := groups.contains .editExisting
  words := words

/-! ## One more of each -/

theorem read_group (g : Group) (argv : List String) (o : Options) :
    read (g.args ++ argv) o = read argv (g.set o) := by
  cases g with
  | store path => rfl
  | keywordColor color => rfl
  | description text => rfl
  | editExisting =>
    rw [Group.args, List.singleton_append, read.eq_def]
    rfl

theorem read_word {word : String} (isWord : IsWord word) (argv : List String) (o : Options) :
    read (word :: argv) o = read argv { o with words := o.words ++ [word] } := by
  have other {option : String} (h : isOption option = true) : word ≠ option := by
    rintro rfl
    rw [isWord.noOption] at h
    cases h
  have noHelp : ¬ isHelp word = true := by
    rw [isHelp, Bool.or_eq_true, beq_iff_eq, beq_iff_eq, not_or]
    exact ⟨isWord.noHelp, other (by decide)⟩
  rw [read.eq_def]
  dsimp only
  rw [if_neg (other (by decide)), if_neg (other (by decide)), if_neg (other (by decide)),
    if_neg (other (by decide)), if_neg noHelp, if_neg (by rw [isWord.noOption]; exact nofun)]

theorem read_request {request : String} (help : isHelp request) (argv : List String)
    (o : Options) :
    read (request :: argv) o = read argv { o with words := "help" :: o.words } := by
  rw [isHelp, Bool.or_eq_true, beq_iff_eq, beq_iff_eq] at help
  rw [read.eq_def]
  rcases help with rfl | rfl <;> rfl

/-! ## All of them -/

theorem words_foldl_set (groups : List Group) (o : Options) (words : List String) :
    groups.foldl Group.set { o with words } = { groups.foldl Group.set o with words } := by
  induction groups generalizing o with
  | nil => rfl
  | cons g groups ih =>
    have apart : Group.set { o with words } g = { g.set o with words } := by cases g <;> rfl
    rw [List.foldl_cons, List.foldl_cons, apart, ih]

theorem words_foldl (groups : List Group) (o : Options) :
    (groups.foldl Group.set o).words = o.words := by
  have kept := congrArg Options.words (words_foldl_set groups o o.words)
  exact kept

/-- Options count in their order, words follow those that were there before, and every request for
help puts the command for help before them. -/
theorem read_interleaved {groups : List Group} {words requests argv : List String}
    (order : Interleaved groups words requests argv) (areWords : ∀ word ∈ words, IsWord word)
    (help : ∀ request ∈ requests, isHelp request) (o : Options) :
    read argv o = .ok { groups.foldl Group.set o with
      words := List.replicate requests.length "help" ++ (o.words ++ words) } := by
  induction order generalizing o with
  | nil => simp [read]
  | group g rest ih =>
    have kept : (g.set o).words = o.words := words_foldl [g] o
    rw [read_group, ih areWords help, kept, List.foldl_cons]
  | word word rest ih =>
    obtain ⟨here, later⟩ := List.forall_mem_cons.1 areWords
    rw [read_word here, ih later help, words_foldl_set, List.append_assoc, List.singleton_append]
  | request request rest ih =>
    obtain ⟨here, later⟩ := List.forall_mem_cons.1 help
    rw [read_request here, ih areWords later, words_foldl_set, List.length_cons,
      List.replicate_succ', List.append_assoc, List.singleton_append, List.cons_append]

/-- The last value of an option is the one that counts. -/
theorem foldl_set (groups : List Group) : groups.foldl Group.set {} = ofGroups groups [] := by
  induction groups using List.reverseRecOn with
  | nil => rfl
  | append_singleton groups g ih =>
    rw [List.foldl_append, ih]
    cases g <;>
      simp [Group.set, Group.store?, Group.keywordColor?, Group.description?, ofGroups]

/-- Options and words one after the other are one order of them. -/
theorem interleaved_append (groups : List Group) (words : List String) :
    Interleaved groups words [] (groups.flatMap Group.args ++ words) := by
  induction groups with
  | nil =>
    induction words with
    | nil => exact .nil
    | cons word words ih => exact .word word ih
  | cons g groups ih =>
    rw [List.flatMap_cons, List.append_assoc]
    exact .group g ih

end Options

namespace Arguments

open Options

/-- The arguments with a command, where every option counts by its last value. -/
def ofGroups (groups : List Group) (command : Command) : Arguments where
  store := (Options.ofGroups groups []).store
  keywordColor := (Options.ofGroups groups []).keywordColor
  command := command

variable {groups : List Group} {words requests argv : List String}

theorem parse_of_interleaved (order : Interleaved groups words requests argv)
    (areWords : ∀ word ∈ words, IsWord word) (help : ∀ request ∈ requests, isHelp request) :
    parse argv =
      (readCommand
        (Options.ofGroups groups (List.replicate requests.length "help" ++ words))).map
          (ofGroups groups) := by
  rw [parse, read_interleaved order areWords help, foldl_set]
  rfl

/-- Arguments in any order are read like the options with the words after them, and from each
option only its last value is kept. With a request for help among them, the command is the one for
help, with the same store and color of keywords, whatever the words are. -/
theorem parse_interleaved (order : Interleaved groups words [] argv)
    (areWords : ∀ word ∈ words, IsWord word) :
    parse argv = parse (groups.flatMap Group.args ++ words) ∧
      parse argv = (readCommand (Options.ofGroups groups words)).map (ofGroups groups) ∧
      (∀ groups' argv', Options.ofGroups groups' words = Options.ofGroups groups words →
        Interleaved groups' words [] argv' → parse argv' = parse argv) ∧
      ∀ requests argv', Interleaved groups words requests argv' → requests ≠ [] →
        (∀ request ∈ requests, request = "-h" ∨ request = "--help") →
        parse argv' = .ok (ofGroups groups .help) := by
  have parsed {groups : List Group} {argv : List String}
      (order : Interleaved groups words [] argv) :
      parse argv = (readCommand (Options.ofGroups groups words)).map (ofGroups groups) :=
    parse_of_interleaved order areWords nofun
  refine ⟨?_, parsed order, ?_, ?_⟩
  · rw [parsed order, parsed (interleaved_append groups words)]
  · intro groups' argv' same order'
    have sameArguments : ofGroups groups' = ofGroups groups := by
      funext command
      rw [Options.ofGroups, Options.ofGroups, Options.mk.injEq] at same
      rw [ofGroups, ofGroups, Options.ofGroups, Options.ofGroups, same.1, same.2.1]
    rw [parsed order', parsed order, same, sameArguments]
  · intro requests argv' order' asked help
    have isHelp : ∀ request ∈ requests, isHelp request := by
      intro request mem
      rcases help request mem with rfl | rfl <;> rfl
    obtain ⟨request, others, rfl⟩ := List.exists_cons_of_ne_nil asked
    rw [parse_of_interleaved order' areWords isHelp]
    rfl

/-- Values that look like options and an option that is given twice, once without and once with a
request for help. -/
theorem parse_interleaved_awkward :
    let groups : List Group :=
      [.store "--help", .description "-h", .store "--store", .editExisting]
    let argv := ["add", "--store", "--help", "~", "--description", "-h", "--store", "--store",
      "#abc", "glow", "--edit-existing"]
    parse argv = parse (groups.flatMap Group.args ++ ["add", "~", "#abc", "glow"]) ∧
      parse argv = .ok ⟨some "--store", none,
        .add "~" "#abc" { glow := true } (some "-h") true⟩ ∧
      parse ("-h" :: argv) = .ok ⟨some "--store", none, .help⟩ := by
  intro groups argv
  have order : Interleaved groups ["add", "~", "#abc", "glow"] [] argv :=
    .word "add" (.group (.store "--help") (.word "~" (.group (.description "-h")
      (.group (.store "--store") (.word "#abc" (.word "glow" (.group .editExisting .nil)))))))
  have areWords : ∀ word ∈ ["add", "~", "#abc", "glow"], IsWord word := by
    simp only [List.forall_mem_cons]
    exact ⟨⟨rfl, by decide⟩, ⟨rfl, by decide⟩, ⟨rfl, by decide⟩, ⟨rfl, by decide⟩, nofun⟩
  obtain ⟨sorted, read, -, help⟩ := parse_interleaved order areWords
  refine ⟨sorted, read.trans rfl, ?_⟩
  exact help ["-h"] _ (.request "-h" order) nofun (by simp)

end Arguments

end InlineMarkup

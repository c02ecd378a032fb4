/-
This file says what a run of the command leaves behind. The sources are read, the document is
assembled and its text is made before anything is written, and the wanted file is touched only if
there is a place for it. A run that fails has therefore printed nothing, and it has changed no file
but for one case: the text is encoded only when the wanted file is open, and by then it is empty.
A text with a surrogate in it has no encoding, so it leaves an empty file behind. A run that
succeeds has put the whole text on the standard output or into one file; that file may lie among
the sources, since these were read before.

The words that ask for a document are a path at most, formats and outputs, in any order; of
several formats or outputs the last one counts. What they ask for is said by `Asks`, without
regard to how words are sorted.
-/

import GoApiDoc.Command.Run
import GoApiDoc.Proofs.FileTree
import GoApiDoc.Proofs.Texts

namespace GoApiDoc

open Text

/-! ### The text of a run -/

/-- A run over an entry comes to a text: the sources there make up a document, and the text is
that document in the format. -/
def Renders (format : Format) (root : Path) (entry : Entry) (text : Text) : Prop :=
  let run := documentOf (sourcesAt root entry)
  run.fault = none ∧ run.document.render format = .ok text

theorem generate_eq_ok_iff {format : Format} {root : Path} {found : Except PathFault Entry}
    {text : Text} : (generate format root found).result = .ok text ↔
      ∃ entry, found = .ok entry ∧ Renders format root entry text := by
  constructor
  · intro made
    match found with
    | .error .absent => nomatch made
    | .error .tooLong => nomatch made
    | .ok entry =>
      simp only [generate] at made
      split at made
      · nomatch made
      · next noFault =>
        split at made
        · nomatch made
        · next rendered =>
          have same := Except.ok.inj made
          exact ⟨entry, rfl, noFault, same ▸ rendered⟩
  · rintro ⟨entry, rfl, noFault, rendered⟩
    simp only [generate, noFault, rendered]

namespace Command

/-! ### What a request leaves behind -/

/-- A request comes to a text in a system of files. -/
def Request.Renders (request : Request) (system : FileSystem) (text : Text) : Prop :=
  ∃ entry, request.found system = .ok entry ∧
    GoApiDoc.Renders request.format (request.root system.workingDirectory) entry text

/-- A text can go where a request wants it: to the standard output, or to a place for a file. -/
def Request.HasTarget (request : Request) (system : FileSystem) : Prop :=
  request.output = "-" ∨
    isNotPath request.output = false ∧ ∃ place, request.place system = .ok place

/-- A request wants a text that has no encoding in a file for which there is a place. -/
structure Request.Empties (request : Request) (system : FileSystem) (place : List String) :
    Prop where
  broken : ∃ text, request.Renders system text ∧ text.string? = none
  toFile : request.output ≠ "-"
  isPath : isNotPath request.output = false
  found : request.place system = .ok place

/-- What a request leaves behind: nothing, an empty file, the text on the standard output, or the
text in the wanted file. -/
inductive Request.Leaves (request : Request) (system : FileSystem) : Outcome → FileSystem → Prop
  | failed {outcome : Outcome} (code : outcome.exitCode ≠ 0) (silent : outcome.output = "")
      (reason : (∃ string, request.Renders system (.plain string)) → ¬ request.HasTarget system)
      (untouched : ∀ place, ¬ request.Empties system place) :
      Leaves request system outcome system
  | emptied {outcome : Outcome} {text : Text} {place : List String} (code : outcome.exitCode ≠ 0)
      (silent : outcome.output = "") (renders : request.Renders system text)
      (broken : text.string? = none) (empties : request.Empties system place) :
      Leaves request system outcome (system.save text place)
  | shown {outcome : Outcome} {string : String} (code : outcome.exitCode = 0)
      (renders : request.Renders system (.plain string)) (toOutput : request.output = "-")
      (whole : outcome.output = string) : Leaves request system outcome system
  | saved {outcome : Outcome} {string : String} {place : List String}
      (code : outcome.exitCode = 0) (renders : request.Renders system (.plain string))
      (toFile : request.output ≠ "-") (isPath : isNotPath request.output = false)
      (found : request.place system = .ok place) (silent : outcome.output = "") :
      Leaves request system outcome (system.save (.plain string) place)

theorem Request.renders_iff {request : Request} {system : FileSystem} {text : Text} :
    request.Renders system text ↔
      (generate request.format (request.root system.workingDirectory)
        (request.found system)).result = .ok text :=
  generate_eq_ok_iff.symm

/-- A request comes to one text. -/
theorem Request.Renders.unique {request : Request} {system : FileSystem} {first second : Text}
    (former : request.Renders system first) (latter : request.Renders system second) :
    first = second :=
  Except.ok.inj ((renders_iff.mp former).symm.trans (renders_iff.mp latter))

/-- What is left behind tells whether there was a text to write and a target for it. -/
theorem Request.Leaves.exitCode_eq_zero_iff {request : Request} {system after : FileSystem}
    {outcome : Outcome} (leaves : request.Leaves system outcome after) :
    outcome.exitCode = 0 ↔
      (∃ string, request.Renders system (.plain string)) ∧ request.HasTarget system := by
  cases leaves with
  | failed code silent reason untouched =>
    exact iff_of_false code fun ⟨rendered, target⟩ => reason rendered target
  | emptied code silent renders broken empties =>
    refine iff_of_false code fun ⟨⟨string, rendered⟩, _⟩ => ?_
    rw [renders.unique rendered] at broken
    nomatch broken
  | shown code renders toOutput whole => exact iff_of_true code ⟨⟨_, renders⟩, .inl toOutput⟩
  | saved code renders toFile isPath found silent =>
    exact iff_of_true code ⟨⟨_, renders⟩, .inr ⟨isPath, _, found⟩⟩

theorem filesAfter_none (system : FileSystem) (place : Except WriteFault (List String)) :
    filesAfter system place none = system := by
  cases place with
  | error fault => rfl
  | ok names => rfl

section

variable {request : Request} {system after : FileSystem} {outcome : Outcome}

namespace Request.Leaves

/-- Without a text there is nothing to write. -/
theorem of_unrendered (code : outcome.exitCode ≠ 0) (silent : outcome.output = "")
    (noText : ∀ text, ¬ request.Renders system text) : request.Leaves system outcome system :=
  .failed code silent (fun made => made.elim fun _ made => absurd made (noText _))
    fun _ empties => empties.broken.elim fun _ made => noText _ made.1

/-- A text without an encoding is not printed. -/
theorem of_unencoded {text : Text} (code : outcome.exitCode ≠ 0) (silent : outcome.output = "")
    (rendered : request.Renders system text) (broken : text.string? = none)
    (toOutput : request.output = "-") : request.Leaves system outcome system := by
  refine .failed code silent ?_ fun _ empties => empties.toFile toOutput
  rintro ⟨string, made⟩
  rw [rendered.unique made] at broken
  cases broken

/-- Without a place for the wanted file nothing is opened. -/
theorem of_unplaced (code : outcome.exitCode ≠ 0) (silent : outcome.output = "")
    (toFile : request.output ≠ "-")
    (noPlace : isNotPath request.output = false → ∀ place, request.place system ≠ .ok place) :
    request.Leaves system outcome system := by
  refine .failed code silent ?_ fun place empties => noPlace empties.isPath place empties.found
  rintro - (toOutput | ⟨isPath, place, found⟩)
  · exact toFile toOutput
  · exact noPlace isPath place found

/-- A request that fails has printed nothing, and has emptied the wanted file or changed nothing. -/
theorem of_failure (leaves : request.Leaves system outcome after) (fails : outcome.exitCode ≠ 0) :
    outcome.output = "" ∧
      ((∀ place, ¬ request.Empties system place) ∧ after = system ∨
        ∃ place, request.Empties system place ∧
          after.workingDirectory = system.workingDirectory ∧
          ∀ names, after.top.seen? names =
            if names = place then some (some []) else system.top.seen? names) := by
  cases leaves with
  | failed code silent reason untouched => exact ⟨silent, .inl ⟨untouched, rfl⟩⟩
  | @emptied text place code silent renders broken empties =>
    have seen := FileSystem.seen?_save (FileSystem.hasPlace_of_place empties.found) text
    rw [Text.saved, broken] at seen
    exact ⟨silent, .inr ⟨place, empties, system.workingDirectory_save text place, seen⟩⟩
  | shown code => exact absurd code fails
  | saved code => exact absurd code fails

/-- A request that does not fail has printed its text, or the wanted file holds it. -/
theorem of_success (leaves : request.Leaves system outcome after)
    (code : outcome.exitCode = 0) :
    ∃ string, request.Renders system (.plain string) ∧
      (request.output = "-" ∧ outcome.output = string ∧ after = system ∨
        request.output ≠ "-" ∧ outcome.output = "" ∧
          ∃ place, request.place system = .ok place ∧
            after.workingDirectory = system.workingDirectory ∧
            ∀ names, after.top.seen? names =
              if names = place then some (some (Utf8.encode string))
              else system.top.seen? names) := by
  cases leaves with
  | failed fails => exact absurd code fails
  | emptied fails => exact absurd code fails
  | shown code renders toOutput whole => exact ⟨_, renders, .inl ⟨toOutput, whole, rfl⟩⟩
  | @saved string place code renders toFile isPath found silent =>
    exact ⟨string, renders, .inr ⟨toFile, silent, place, found, rfl,
      FileSystem.seen?_save (FileSystem.hasPlace_of_place found) (.plain string)⟩⟩

end Request.Leaves

end

/-- What is left behind when a request is carried out. -/
theorem Request.leaves_carriedOut (details : Details) (request : Request) (system : FileSystem) :
    request.Leaves system (request.carriedOut details system).1
      (request.carriedOut details system).2 := by
  have renders := @Request.renders_iff request system
  rw [carriedOut, outcome]
  generalize generate request.format (request.root system.workingDirectory)
    (request.found system) = generated at renders ⊢
  cases result : generated.result with
  | error fault =>
    have noText (text : Text) : ¬ request.Renders system text := by
      intro rendered
      cases result.symm.trans (renders.mp rendered)
    cases report : request.report? details fault with
    | none =>
      simp only [report, Outcome.unexplainedFault, filesAfter_none]
      exact .of_unrendered Nat.one_ne_zero rfl noText
    | some message =>
      simp only [report, filesAfter_none]
      exact .of_unrendered Nat.one_ne_zero rfl noText
  | ok text =>
    have rendered := renders.mpr result
    by_cases toOutput : request.output = "-"
    · cases whole : text.string? with
      | none =>
        simp only [if_pos toOutput, whole, Outcome.unexplainedFault, filesAfter_none]
        exact .of_unencoded Nat.one_ne_zero rfl rendered whole toOutput
      | some string =>
        obtain rfl := Text.eq_plain whole
        simp only [if_pos toOutput, whole, filesAfter_none]
        exact .shown rfl rendered toOutput rfl
    · by_cases noPath : isNotPath request.output = true
      · simp only [if_neg toOutput, if_pos noPath, Outcome.unexplainedFault,
          filesAfter_none]
        exact .of_unplaced Nat.one_ne_zero rfl toOutput fun isPath =>
          absurd isPath (ne_false_of_eq_true noPath)
      · have isPath : isNotPath request.output = false := Bool.not_eq_true _ ▸ noPath
        cases found : request.place system with
        | error fault =>
          simp only [if_neg toOutput, if_neg noPath, filesAfter_none]
          refine .of_unplaced Nat.one_ne_zero rfl toOutput fun _ place foundPlace => ?_
          cases found.symm.trans foundPlace
        | ok place =>
          cases whole : text.string? with
          | none =>
            simp only [if_neg toOutput, if_neg noPath, whole]
            exact .emptied Nat.one_ne_zero rfl rendered whole
              ⟨⟨text, rendered, whole⟩, toOutput, isPath, found⟩
          | some string =>
            obtain rfl := Text.eq_plain whole
            simp only [if_neg toOutput, if_neg noPath, whole]
            exact .saved rfl rendered toOutput isPath found rfl

/-! ### The words for a document -/

/-- A word that is an argument wherever it stands: it is no option, nor the mark behind which
there are none. -/
structure Argument where
  word : String
  noMark : word ≠ "--"
  noOption : isOptionWord word.toList = false

/-- A piece of what follows the names of the command. -/
inductive Piece
  | path (argument : Argument)
  | format (word : String)
  | output (word : String)

namespace Piece

/-- The words of a piece. -/
def words : Piece → List String
  | .path argument => [argument.word]
  | .format word => ["-f", word]
  | .output word => ["-o", word]

def path? : Piece → Option String
  | .path argument => some argument.word
  | _ => none

def format? : Piece → Option String
  | .format word => some word
  | _ => none

def output? : Piece → Option String
  | .output word => some word
  | _ => none

/-- The setting that a piece is. -/
def setting? : Piece → Option Setting
  | .path _ => none
  | .format word => some ⟨"format", word⟩
  | .output word => some ⟨"output", word⟩

end Piece

/-- The words that ask for a document. -/
def documentWords (pieces : List Piece) : List String :=
  "generate" :: "spec" :: pieces.flatMap Piece.words

/-- What pieces ask for: a path at most, the word of a format, and an output, of several the
last one. -/
structure Asks (pieces : List Piece) (request : Request) : Prop where
  quiet : request.verbose = false
  path : pieces.filterMap Piece.path? = [] ∧ request.path = "." ∨
    pieces.filterMap Piece.path? = [request.path]
  isPath : isNotPath request.path = false
  format : Format.ofWord? ((pieces.reverse.findSome? Piece.format?).getD "json") =
    some request.format
  output : request.output = (pieces.reverse.findSome? Piece.output?).getD "-"

/-- An option that takes the next word for its value. -/
theorem sortWords_waiting {switches : List Switch} {mixed : Bool} {word name : String}
    (noMark : word ≠ "--") (isOption : isOptionWord word.toList = true)
    (waits : readOptionWord switches word.toList = some ⟨[], some name⟩) (value : String)
    (rest : List String) :
    sortWords switches mixed (word :: value :: rest) =
      (sortWords switches mixed rest).map (Sorted.withSettings [⟨name, value⟩]) := by
  simp only [sortWords, if_neg noMark, if_pos isOption, waits, List.nil_append]

theorem sortWords_pieces (pieces : List Piece) :
    sortWords documentSwitches true (pieces.flatMap Piece.words) =
      some ⟨pieces.filterMap Piece.setting?, pieces.filterMap Piece.path?⟩ := by
  induction pieces with
  | nil => rfl
  | cons piece rest inductionHypothesis =>
    rw [List.flatMap_cons]
    cases piece with
    | path argument =>
      rw [Piece.words, List.singleton_append, sortWords, if_neg argument.noMark,
        if_neg (by simp [argument.noOption]), if_pos rfl, inductionHypothesis]
      rfl
    | format word =>
      have waits : readOptionWord documentSwitches "-f".toList = some ⟨[], some "format"⟩ := rfl
      rw [Piece.words, List.cons_append, List.singleton_append,
        sortWords_waiting (by decide) rfl waits, inductionHypothesis]
      rfl
    | output word =>
      have waits : readOptionWord documentSwitches "-o".toList = some ⟨[], some "output"⟩ := rfl
      rw [Piece.words, List.cons_append, List.singleton_append,
        sortWords_waiting (by decide) rfl waits, inductionHypothesis]
      rfl

/-- The value of an option is that of the last piece that sets it. -/
theorem value?_pieces (name : String) (valueOf : Piece → Option String)
    (sets : ∀ piece, valueOf piece =
      (piece.setting?.filter fun setting => setting.name == name).map Setting.value)
    (pieces : List Piece) (arguments : List String) :
    Sorted.value? name ⟨pieces.filterMap Piece.setting?, arguments⟩ =
      pieces.reverse.findSome? valueOf := by
  rw [Sorted.value?, ← List.filterMap_reverse]
  generalize pieces.reverse = pieces
  induction pieces with
  | nil => rfl
  | cons piece rest inductionHypothesis =>
    rw [List.findSome?_cons, sets, ← inductionHypothesis, List.filterMap_cons]
    cases piece.setting? with
    | none => rfl
    | some setting =>
      simp only [List.find?_cons, Option.filter_some]
      cases setting.name == name with
      | false => rfl
      | true => rfl

theorem has_help (pieces : List Piece) (arguments : List String) :
    Sorted.has "help" ⟨pieces.filterMap Piece.setting?, arguments⟩ = false := by
  rw [Sorted.has, List.any_eq_false]
  intro setting member
  obtain ⟨piece, -, found⟩ := List.mem_filterMap.mp member
  cases piece with
  | path argument => nomatch found
  | format word =>
    obtain rfl := Option.some.inj found
    exact Bool.false_ne_true
  | output word =>
    obtain rfl := Option.some.inj found
    exact Bool.false_ne_true

theorem wishOf_documentWords (pieces : List Piece) :
    wishOf (documentWords pieces) =
      documentRequest false ⟨pieces.filterMap Piece.setting?, pieces.filterMap Piece.path?⟩ := by
  have outer : sortWords outerSwitches false (documentWords pieces) =
      some ⟨[], documentWords pieces⟩ := rfl
  have group : sortWords [helpSwitch] false ("spec" :: pieces.flatMap Piece.words) =
      some ⟨[], "spec" :: pieces.flatMap Piece.words⟩ := rfl
  rw [wishOf, outer]
  simp only [unlessHelp, documentWords, group, sortWords_pieces, has_help]
  rfl

theorem documentRequest_ne_help (sorted : Sorted) : documentRequest false sorted ≠ .help := by
  intro help
  simp only [documentRequest] at help
  split at help
  · nomatch help
  · split at help
    · nomatch help
    · split at help
      · nomatch help
      · split at help
        · nomatch help
        · nomatch help

theorem documentRequest_eq_run_iff {pieces : List Piece} {request : Request} :
    documentRequest false ⟨pieces.filterMap Piece.setting?, pieces.filterMap Piece.path?⟩ =
      .run request ↔ Asks pieces request := by
  have formatWord := value?_pieces "format" Piece.format? (fun piece => by cases piece <;> rfl)
    pieces (pieces.filterMap Piece.path?)
  have outputWord := value?_pieces "output" Piece.output? (fun piece => by cases piece <;> rfl)
    pieces (pieces.filterMap Piece.path?)
  rw [documentRequest, formatWord, outputWord]
  constructor
  · intro asked
    cases format : Format.ofWord? ((pieces.reverse.findSome? Piece.format?).getD "json") with
    | none =>
      rw [format] at asked
      nomatch asked
    | some known =>
      rw [format] at asked
      cases paths : pieces.filterMap Piece.path? with
      | nil =>
        simp only [paths] at asked
        obtain rfl := Wish.run.inj asked
        have here : isNotPath "." = false := by decide
        exact ⟨rfl, .inl ⟨paths, rfl⟩, here, format, rfl⟩
      | cons path others =>
        simp only [paths] at asked
        split at asked
        · nomatch asked
        · next isPath =>
          split at asked
          · next single =>
            obtain rfl := Wish.run.inj asked
            rw [List.isEmpty_iff] at single
            exact ⟨rfl, .inr (single ▸ paths), Bool.not_eq_true _ ▸ isPath, format, rfl⟩
          · nomatch asked
  · rintro ⟨quiet, path, isPath, format, output⟩
    obtain ⟨verbose, root, known, target⟩ := request
    simp only at quiet path isPath format output
    subst quiet output
    rw [format]
    rcases path with ⟨noPath, rfl⟩ | path
    · rw [noPath]
    · rw [path]
      simp only [isPath, List.isEmpty_nil, if_true, Bool.false_eq_true, if_false]

theorem Asks.leaves {pieces : List Piece} {request : Request} (asked : Asks pieces request)
    (details : Details) (system : FileSystem) :
    request.Leaves system (runFrom details system (documentWords pieces)).1
      (runFrom details system (documentWords pieces)).2 := by
  have wish := documentRequest_eq_run_iff.mpr asked
  rw [← wishOf_documentWords] at wish
  rw [runFrom, wish]
  exact request.leaves_carriedOut details system

/-- Words that ask for nothing fail, print nothing and change nothing. -/
theorem runFrom_of_unasked {pieces : List Piece} (unasked : ¬ ∃ request, Asks pieces request)
    (details : Details) (system : FileSystem) :
    let run := runFrom details system (documentWords pieces)
    run.1.exitCode ≠ 0 ∧ run.1.output = "" ∧ run.2 = system := by
  rw [runFrom, wishOf_documentWords]
  cases wish : documentRequest false
      ⟨pieces.filterMap Piece.setting?, pieces.filterMap Piece.path?⟩ with
  | help => exact absurd wish (documentRequest_ne_help _)
  | misuse => exact ⟨Nat.succ_ne_zero 1, rfl, rfl⟩
  | notPath => exact ⟨Nat.one_ne_zero, rfl, rfl⟩
  | run request => exact absurd ⟨request, documentRequest_eq_run_iff.mp wish⟩ unasked

/-- Words ask for one thing at most. -/
theorem Asks.unique {pieces : List Piece} {first second : Request} (former : Asks pieces first)
    (latter : Asks pieces second) : first = second :=
  Wish.run.inj ((documentRequest_eq_run_iff.mpr former).symm.trans
    (documentRequest_eq_run_iff.mpr latter))

/-- A run for a document writes all or nothing, but for a text that has no encoding. If it fails, it
has printed nothing. It has then changed no file, unless the wanted file could be opened for a text
that has no encoding: that file is empty afterwards, and everything else is as it was. If it does
not fail, there is one text, the document of the sources that were there before in the wanted
format: it is the whole output and no file has changed, or there is no output, the wanted file
holds the text and everything else is as it was. And it succeeds whenever there is such a text and a
target for it. -/
theorem run_all_or_nothing (details : Details) (system : FileSystem) (pieces : List Piece) :
    let run := runFrom details system (documentWords pieces)
    (run.1.exitCode ≠ 0 → run.1.output = "" ∧
      ((∀ request place, Asks pieces request → ¬ request.Empties system place) ∧ run.2 = system ∨
        ∃ request place, Asks pieces request ∧ request.Empties system place ∧
          run.2.workingDirectory = system.workingDirectory ∧
          ∀ names, run.2.top.seen? names =
            if names = place then some (some []) else system.top.seen? names)) ∧
    (run.1.exitCode = 0 → ∃ request string, Asks pieces request ∧
      request.Renders system (.plain string) ∧
      (request.output = "-" ∧ run.1.output = string ∧ run.2 = system ∨
        request.output ≠ "-" ∧ run.1.output = "" ∧
          ∃ place, request.place system = .ok place ∧
            run.2.workingDirectory = system.workingDirectory ∧
            ∀ names, run.2.top.seen? names =
              if names = place then some (some (Utf8.encode string))
              else system.top.seen? names)) ∧
    (run.1.exitCode = 0 ↔ ∃ request, Asks pieces request ∧
      (∃ string, request.Renders system (.plain string)) ∧ request.HasTarget system) := by
  intro run
  by_cases asks : ∃ request, Asks pieces request
  · obtain ⟨request, asked⟩ := asks
    have leaves : request.Leaves system run.1 run.2 := asked.leaves details system
    refine ⟨fun fails => ?_, fun code => ?_,
      fun code => ⟨request, asked, leaves.exitCode_eq_zero_iff.mp code⟩, ?_⟩
    · obtain ⟨silent, ⟨untouched, same⟩ | ⟨place, empties, seen⟩⟩ := leaves.of_failure fails
      · refine ⟨silent, .inl ⟨fun other place askedOther => ?_, same⟩⟩
        exact askedOther.unique asked ▸ untouched place
      · exact ⟨silent, .inr ⟨request, place, asked, empties, seen⟩⟩
    · obtain ⟨string, renders, written⟩ := leaves.of_success code
      exact ⟨request, string, asked, renders, written⟩
    · rintro ⟨other, askedOther, able⟩
      exact leaves.exitCode_eq_zero_iff.mpr (askedOther.unique asked ▸ able)
  · obtain ⟨fails, silent, same⟩ := runFrom_of_unasked asks details system
    refine ⟨fun _ => ⟨silent, .inl ⟨fun request _ asked => absurd ⟨request, asked⟩ asks, same⟩⟩,
      fun code => absurd code fails,
      iff_of_false fails fun able => asks (able.imp fun _ able => able.1)⟩

/-- A run for a title that is a surrogate fails, and the file with an earlier document is empty. -/
theorem surrogate_title_empties_file :
    let source := "package p\n\n// gopenapi:info\n// title: \"\\ud800\"\nfunc f() \x7b\x7d\n"
    let earlier := Utf8.encode "old\n"
    let sources : Entry := .directory [("a.go", .file (Utf8.encode source))]
    let system : FileSystem := ⟨[("src", sources), ("out.json", .file earlier)], {}⟩
    let run := runFrom ⟨"", fun _ => ""⟩ system
      (documentWords [.path ⟨"src", by decide, by decide⟩, .format "json", .output "out.json"])
    run.1.exitCode ≠ 0 ∧ system.top.seen? ["out.json"] = some (some earlier) ∧
      run.2.top.seen? ["out.json"] = some (some []) := by
  decide +kernel

end Command

end GoApiDoc

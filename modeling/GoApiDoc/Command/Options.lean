/-
This file sorts the words of a command line into options and arguments. A word of two hyphens
and a name is an option, a word of one hyphen holds the letters of options. An option with a
value takes what is left of its own word, and if nothing is left the next word, whatever that
looks like. After a word of two hyphens alone every word is an argument, and a hyphen alone is
one anywhere.
-/

namespace GoApiDoc.Command

/-! ### Options -/

/-- An option: its name, the letter that may stand for it, and whether it takes a value. -/
structure Switch where
  name : String
  letter : Option Char := none
  takesValue : Bool := false
  deriving DecidableEq, Repr

/-- An option as it was given; the value of one that takes none is empty. -/
structure Setting where
  name : String
  value : String := ""
  deriving DecidableEq, Repr

/-- What one word says: options with their values, and the option whose value is the next
word. -/
structure OptionWord where
  settings : List Setting := []
  waiting : Option String := none
  deriving DecidableEq, Repr

/-- The options that the letters of a word stand for. -/
def readLetters (switches : List Switch) : List Char → Option OptionWord
  | [] => some {}
  | letter :: rest =>
    match switches.find? fun switch => switch.letter == some letter with
    | none => none
    | some switch =>
      if switch.takesValue then
        if rest.isEmpty then some { waiting := some switch.name }
        else some { settings := [⟨switch.name, String.ofList rest⟩] }
      else
        (readLetters switches rest).map fun others =>
          { others with settings := ⟨switch.name, ""⟩ :: others.settings }

/-- The option that a name stands for, with the value behind an equals sign if there is one. -/
def readNamed (switch : Switch) (value : Option String) : Option OptionWord :=
  match switch.takesValue, value with
  | true, some value => some { settings := [⟨switch.name, value⟩] }
  | true, none => some { waiting := some switch.name }
  | false, none => some { settings := [⟨switch.name, ""⟩] }
  | false, some _ => none

/-- A word cut at its first equals sign. -/
def cutAtEquals (word : List Char) : List Char × Option (List Char) :=
  let name := word.takeWhile (· ≠ '=')
  match word.drop name.length with
  | [] => (name, none)
  | _ :: value => (name, some value)

/-- The options that a word stands for. -/
def readOptionWord (switches : List Switch) (word : List Char) : Option OptionWord :=
  let (name, value) := cutAtEquals word
  match switches.find? fun switch => '-' :: '-' :: switch.name.toList == name with
  | some switch => readNamed switch (value.map String.ofList)
  | none =>
    match word with
    | '-' :: '-' :: _ => none
    | _ => readLetters switches (word.drop 1)

/-! ### Command lines -/

/-- A command line, sorted. -/
structure Sorted where
  settings : List Setting := []
  arguments : List String := []
  deriving DecidableEq, Repr

/-- Whether a word stands for options. -/
def isOptionWord : List Char → Bool
  | '-' :: _ :: _ => true
  | _ => false

/-- The command line with options in front. -/
def Sorted.withSettings (settings : List Setting) (sorted : Sorted) : Sorted :=
  { sorted with settings := settings ++ sorted.settings }

/-- Sorts the words of a command line. Where options may not follow arguments, the first
argument ends the options. There is no result for an unknown option and for one without its
value. -/
def sortWords (switches : List Switch) (mixed : Bool) : List String → Option Sorted
  | [] => some {}
  | word :: rest =>
    if word = "--" then some { arguments := rest }
    else if isOptionWord word.toList then
      match readOptionWord switches word.toList with
      | none => none
      | some ⟨settings, none⟩ => (sortWords switches mixed rest).map (Sorted.withSettings settings)
      | some ⟨settings, some name⟩ =>
        match rest with
        | [] => none
        | value :: rest =>
          (sortWords switches mixed rest).map (Sorted.withSettings (settings ++ [⟨name, value⟩]))
    else if mixed then
      (sortWords switches mixed rest).map fun sorted =>
        { sorted with arguments := word :: sorted.arguments }
    else some { arguments := word :: rest }

/-- Whether an option was given. -/
def Sorted.has (name : String) (sorted : Sorted) : Bool :=
  sorted.settings.any fun setting => setting.name == name

/-- The value of an option, the last one given. -/
def Sorted.value? (name : String) (sorted : Sorted) : Option String :=
  (sorted.settings.reverse.find? fun setting => setting.name == name).map Setting.value

end GoApiDoc.Command

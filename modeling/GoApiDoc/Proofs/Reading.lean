/-
This file says what each production of the reader has read when it succeeds. A production that
returns a result has gone through one of its branches, and the tokens it looked at had the form
of that branch: the statements here name the branches with the tokens, the productions called
on the way and the number of tokens used. Whatever is proved of all readings is proved along
these branches, so no other file opens the definition of a production.

Types are the production with the most branches; `TypeForm` lists them by name. The productions
that go round a loop, lists of items, names and whole files, are relations that say what one round
reads in front of what the others read, so what is proved of them is proved by induction on rounds.
-/

import GoApiDoc.Proofs.Lexing

namespace GoApiDoc.Go

/-! ### Steps -/

theorem bind_eq_ok {Fault Value Result : Type} {first : Except Fault Value}
    {next : Value → Except Fault Result} {result : Result} :
    (first >>= next) = .ok result ↔ ∃ value, first = .ok value ∧ next value = .ok result := by
  cases first with
  | error fault => simp [bind, Except.bind]
  | ok value => simp [bind, Except.bind]

theorem map_eq_ok {Fault Value Result : Type} {read : Except Fault Value} {use : Value → Result}
    {result : Result} :
    read.map use = .ok result ↔ ∃ value, read = .ok value ∧ use value = result := by
  cases read with
  | error fault => simp [Except.map]
  | ok value => simp [Except.map]

theorem pure_eq_ok {Fault Value : Type} {value result : Value} :
    (pure value : Except Fault Value) = .ok result ↔ value = result := by
  simp [pure, Except.pure]

theorem bind_eq_error {Fault Value Result : Type} {first : Except Fault Value}
    {next : Value → Except Fault Result} {fault : Fault} :
    (first >>= next) = .error fault ↔
      first = .error fault ∨ ∃ value, first = .ok value ∧ next value = .error fault := by
  cases first with
  | error fault => simp [bind, Except.bind]
  | ok value => simp [bind, Except.bind]

theorem map_eq_error {Fault Value Result : Type} {read : Except Fault Value} {use : Value → Result}
    {fault : Fault} : read.map use = .error fault ↔ read = .error fault := by
  cases read with
  | error fault => simp [Except.map]
  | ok value => simp [Except.map]

theorem pure_ne_error {Fault Value : Type} {value : Value} {fault : Fault} :
    (pure value : Except Fault Value) ≠ .error fault := by
  simp [pure, Except.pure]

/-- Results are compared without their faults, which leaves less to evaluate. -/
theorem eq_ok_of_toOption {Fault Value : Type} {read : Except Fault Value} {value : Value}
    (found : read.toOption = some value) : read = .ok value := by
  cases read with
  | error fault => simp [Except.toOption] at found
  | ok other => exact congrArg Except.ok (Option.some.inj found)

theorem expect_eq_ok {text : String} {tokens : List Token} {result : Unit} :
    expect text tokens = .ok result ↔ nextIs text tokens := by
  unfold expect
  split
  · next found => simp [found]
  · next missing => simp [missing]

/-- Looking for a token that comes next finds it in front. -/
theorem nextIs_eq_true {text : String} {tokens : List Token} :
    nextIs text tokens ↔ ∃ token rest, tokens = token :: rest ∧ token.is text := by
  cases tokens with
  | nil => simp [nextIs]
  | cons token rest => simp [nextIs]

theorem identifier_eq_ok {tokens : List Token} {token : Token} :
    identifier tokens = .ok token ↔ token.kind = .ident ∧ tokens.head? = some token := by
  cases tokens with
  | nil => simp [identifier]
  | cons first rest =>
    simp only [identifier, List.head?_cons, Option.some.injEq]
    split
    · next found =>
      simp only [Except.ok.injEq]
      exact ⟨fun same => ⟨same ▸ found, same⟩, fun both => both.2⟩
    · next missing =>
      simp only [reduceCtorEq, false_iff, not_and]
      exact fun found same => missing (same ▸ found)

/-- An item of a list is followed by its separator unless the list ends there. -/
theorem separated_eq_ok {Value : Type} {last : Bool} {text : String} {tokens : List Token}
    {next : Except ReadFault Value} {result : Value} :
    (if (!last) = true then do expect text tokens; next else next) = .ok result ↔
      (last ∨ nextIs text tokens) ∧ next = .ok result := by
  cases last with
  | true => simp
  | false => simp [bind_eq_ok, expect_eq_ok]

/-! ### Bracketed runs -/

/-- A run that is skipped has an opening bracket, what is inside, and a closing one. -/
theorem skipBalanced_eq_ok {tokens inner : List Token} {used : Nat}
    (read : skipBalanced tokens = .ok (inner, used)) :
    ∃ opener rest, tokens = opener :: rest ∧ opener.isOpener ∧
      insideBrackets 0 rest = some inner ∧ used = inner.length + 2 := by
  cases tokens with
  | nil => simp [skipBalanced] at read
  | cons opener rest =>
    simp only [skipBalanced] at read
    split at read
    · next opens =>
      cases inside : insideBrackets 0 rest with
      | none => simp [inside] at read
      | some found =>
        simp only [inside, Except.ok.injEq, Prod.mk.injEq] at read
        exact ⟨opener, rest, rfl, opens, read.1 ▸ inside, read.1 ▸ read.2.symm⟩
    · simp at read

/-! ### Types -/

/-- The branches through which a type is read: the tokens, the type, and how many tokens it
took. -/
inductive TypeForm : List Token → TypeRef → Nat → Prop
  | pointer {star : Token} {rest : List Token} {element : TypeRef} {used : Nat}
      (kind : star.kind = .op) (text : star.text = "*")
      (inner : typeRef rest = .ok (element, used)) :
      TypeForm (star :: rest) (.pointer element) (used + 1)
  | parenthesised {opener : Token} {rest : List Token} {type : TypeRef} {used : Nat}
      (kind : opener.kind = .op) (text : opener.text = "(")
      (inner : typeRef rest = .ok (type, used)) (closed : nextIs ")" (rest.drop used)) :
      TypeForm (opener :: rest) type (used + 2)
  | sequence {opener : Token} {rest length : List Token} {element : TypeRef} {used : Nat}
      (kind : opener.kind = .op) (text : opener.text = "[")
      (run : length = rest.takeWhile fun token => !token.is "]")
      (closed : length.length ≠ rest.length)
      (inner : typeRef (rest.drop (length.length + 1)) = .ok (element, used)) :
      TypeForm (opener :: rest)
        (.sequence element (if length.isEmpty then none else some (Token.join length)))
        (length.length + used + 2)
  | receiver {arrow : Token} {rest : List Token} {element : TypeRef} {used : Nat}
      (kind : arrow.kind = .op) (text : arrow.text = "<-") (channel : nextIs "chan" rest)
      (inner : typeRef (rest.drop 1) = .ok (element, used)) :
      TypeForm (arrow :: rest) (.other (Token.join ((arrow :: rest).take (used + 2)))) (used + 2)
  | mapping {keyword : Token} {rest : List Token} {key value : TypeRef} {keyUsed valueUsed : Nat}
      (kind : keyword.kind = .keyword) (text : keyword.text = "map") (opened : nextIs "[" rest)
      (first : typeRef (rest.drop 1) = .ok (key, keyUsed))
      (closed : nextIs "]" (rest.drop (keyUsed + 1)))
      (second : typeRef (rest.drop (keyUsed + 2)) = .ok (value, valueUsed)) :
      TypeForm (keyword :: rest) (.mapping key value) (keyUsed + valueUsed + 3)
  | channel {keyword : Token} {rest : List Token} {element : TypeRef} {arrow used : Nat}
      (kind : keyword.kind = .keyword) (text : keyword.text = "chan")
      (direction : arrow = if nextIs "<-" rest then 1 else 0)
      (inner : typeRef (rest.drop arrow) = .ok (element, used)) :
      TypeForm (keyword :: rest) (.other (Token.join ((keyword :: rest).take (used + arrow + 1))))
        (used + arrow + 1)
  | body {keyword : Token} {rest skipped : List Token} {used : Nat}
      (kind : keyword.kind = .keyword)
      (text : keyword.text = "interface" ∨ keyword.text = "struct")
      (skip : skipBalanced rest = .ok (skipped, used)) :
      TypeForm (keyword :: rest) (.other (Token.join ((keyword :: rest).take (used + 1))))
        (used + 1)
  | results {keyword : Token} {rest skipped resultTokens : List Token} {parameters used : Nat}
      (kind : keyword.kind = .keyword) (text : keyword.text = "func")
      (skip : skipBalanced rest = .ok (skipped, parameters))
      (opened : nextIs "(" (rest.drop parameters))
      (skipResults : skipBalanced (rest.drop parameters) = .ok (resultTokens, used)) :
      TypeForm (keyword :: rest)
        (.other (Token.join ((keyword :: rest).take (parameters + used + 1))))
        (parameters + used + 1)
  | result {keyword : Token} {rest skipped : List Token} {type : TypeRef} {parameters used : Nat}
      (kind : keyword.kind = .keyword) (text : keyword.text = "func")
      (skip : skipBalanced rest = .ok (skipped, parameters))
      (unopened : nextIs "(" (rest.drop parameters) = false)
      (starts : startsType (rest.drop parameters))
      (inner : typeRef (rest.drop parameters) = .ok (type, used)) :
      TypeForm (keyword :: rest)
        (.other (Token.join ((keyword :: rest).take (parameters + used + 1))))
        (parameters + used + 1)
  | noResult {keyword : Token} {rest skipped : List Token} {parameters : Nat}
      (kind : keyword.kind = .keyword) (text : keyword.text = "func")
      (skip : skipBalanced rest = .ok (skipped, parameters))
      (unopened : nextIs "(" (rest.drop parameters) = false)
      (unstarted : startsType (rest.drop parameters) = false) :
      TypeForm (keyword :: rest) (.other (Token.join ((keyword :: rest).take (parameters + 1))))
        (parameters + 1)
  | named {name : Token} {rest : List Token} (kind : name.kind = .ident)
      (unopened : nextIs "[" rest = false) : TypeForm (name :: rest) (.named name.text) 1
  | qualified {package dot name : Token} {rest : List Token} (packageKind : package.kind = .ident)
      (isDot : dot.is ".") (kind : name.kind = .ident) (unopened : nextIs "[" rest = false) :
      TypeForm (package :: dot :: name :: rest) (.qualified package.text name.text) 3
  | instantiated {name : Token} {rest skipped : List Token} {used : Nat}
      (kind : name.kind = .ident) (skip : skipBalanced rest = .ok (skipped, used)) :
      TypeForm (name :: rest) (.other (Token.join ((name :: rest).take (1 + used)))) (1 + used)
  | qualifiedInstantiated {package dot name : Token} {rest skipped : List Token} {used : Nat}
      (packageKind : package.kind = .ident) (isDot : dot.is ".") (kind : name.kind = .ident)
      (skip : skipBalanced rest = .ok (skipped, used)) :
      TypeForm (package :: dot :: name :: rest)
        (.other (Token.join ((package :: dot :: name :: rest).take (3 + used)))) (3 + used)

/-- The branches that start with an operator. -/
theorem typeForm_of_op {token : Token} {rest : List Token} {type : TypeRef} {used : Nat}
    (kind : token.kind = .op) (read : typeRef (token :: rest) = .ok (type, used)) :
    TypeForm (token :: rest) type used := by
  rw [typeRef.eq_def] at read
  simp only [kind] at read
  split at read
  · next text =>
    simp only [bind_eq_ok, pure_eq_ok, Prod.exists, Prod.mk.injEq] at read
    obtain ⟨element, inner, readInner, rfl, rfl⟩ := read
    exact .pointer kind text readInner
  · split at read
    · next text =>
      simp only [bind_eq_ok, pure_eq_ok, expect_eq_ok, Prod.exists, Prod.mk.injEq] at read
      obtain ⟨inner, innerUsed, readInner, -, closed, rfl, rfl⟩ := read
      exact .parenthesised kind text readInner closed
    · split at read
      · next text =>
        split at read
        · simp [throw, throwThe, MonadExceptOf.throw, bind, Except.bind] at read
        · next closed =>
          simp only [bind_eq_ok, pure_eq_ok, Prod.exists, Prod.mk.injEq] at read
          obtain ⟨element, inner, readInner, rfl, rfl⟩ := read
          exact .sequence kind text rfl closed readInner
      · split at read
        · next text =>
          simp only [bind_eq_ok, pure_eq_ok, expect_eq_ok, Prod.exists, Prod.mk.injEq] at read
          obtain ⟨-, channel, element, inner, readInner, rfl, rfl⟩ := read
          exact .receiver kind text channel readInner
        · simp at read

/-- The branches that start with a keyword. -/
theorem typeForm_of_keyword {token : Token} {rest : List Token} {type : TypeRef} {used : Nat}
    (kind : token.kind = .keyword) (read : typeRef (token :: rest) = .ok (type, used)) :
    TypeForm (token :: rest) type used := by
  rw [typeRef.eq_def] at read
  simp only [kind] at read
  split at read
  · next text =>
    simp only [bind_eq_ok, pure_eq_ok, expect_eq_ok, Prod.exists, Prod.mk.injEq] at read
    obtain ⟨-, opened, key, keyUsed, first, -, closed, value, valueUsed, second, rfl, rfl⟩ := read
    exact .mapping kind text opened first closed second
  · split at read
    · next text =>
      simp only [bind_eq_ok, pure_eq_ok, Prod.exists, Prod.mk.injEq] at read
      obtain ⟨element, inner, readInner, rfl, rfl⟩ := read
      exact .channel kind text rfl readInner
    · split at read
      · next text =>
        simp only [bind_eq_ok, pure_eq_ok, Prod.exists, Prod.mk.injEq] at read
        obtain ⟨skipped, inner, skip, rfl, rfl⟩ := read
        exact .body kind text skip
      · split at read
        · next text =>
          simp only [bind_eq_ok, Prod.exists] at read
          obtain ⟨skipped, parameters, skip, read⟩ := read
          split at read
          · next opened =>
            simp only [bind_eq_ok, pure_eq_ok, Prod.exists, Prod.mk.injEq] at read
            obtain ⟨resultTokens, inner, skipResults, rfl, rfl⟩ := read
            exact .results kind text skip opened skipResults
          · next unopened =>
            split at read
            · next starts =>
              simp only [bind_eq_ok, pure_eq_ok, Prod.exists, Prod.mk.injEq] at read
              obtain ⟨resultType, inner, readInner, rfl, rfl⟩ := read
              exact .result kind text skip (eq_false_of_ne_true unopened) starts readInner
            · next unstarted =>
              simp only [pure_eq_ok, Prod.mk.injEq] at read
              obtain ⟨rfl, rfl⟩ := read
              exact .noResult kind text skip (eq_false_of_ne_true unopened)
                (eq_false_of_ne_true unstarted)
        · simp at read

/-- What follows a name of any length: nothing, or a bracketed run that is skipped. -/
theorem typeForm_after_name {tokens : List Token} {ref type : TypeRef} {length used : Nat}
    (read : (if nextIs "[" (tokens.drop length) = true then do
        let (_, arguments) ← skipBalanced (tokens.drop length)
        return (TypeRef.other (Token.join (tokens.take (length + arguments))), length + arguments)
      else pure (ref, length) : Except ReadFault (TypeRef × Nat)) = .ok (type, used)) :
    (nextIs "[" (tokens.drop length) = false ∧ type = ref ∧ used = length) ∨
      ∃ skipped arguments, skipBalanced (tokens.drop length) = .ok (skipped, arguments) ∧
        type = .other (Token.join (tokens.take (length + arguments))) ∧
        used = length + arguments := by
  split at read
  · simp only [bind_eq_ok, pure_eq_ok, Prod.exists, Prod.mk.injEq] at read
    obtain ⟨skipped, arguments, skip, rfl, rfl⟩ := read
    exact Or.inr ⟨skipped, arguments, skip, rfl, rfl⟩
  · next unopened =>
    simp only [pure_eq_ok, Prod.mk.injEq] at read
    exact Or.inl ⟨eq_false_of_ne_true unopened, read.1.symm, read.2.symm⟩

/-- The branches that start with a name. -/
theorem typeForm_of_ident {token : Token} {rest : List Token} {type : TypeRef} {used : Nat}
    (kind : token.kind = .ident) (read : typeRef (token :: rest) = .ok (type, used)) :
    TypeForm (token :: rest) type used := by
  rw [typeRef.eq_def] at read
  simp only [kind] at read
  split at read
  · next dot name tail =>
    by_cases both : dot.is "." ∧ name.kind = .ident
    · rw [if_pos both] at read
      obtain ⟨unopened, rfl, rfl⟩ | ⟨skipped, arguments, skip, rfl, rfl⟩ :=
        typeForm_after_name read
      · exact .qualified kind both.1 both.2 unopened
      · exact .qualifiedInstantiated kind both.1 both.2 skip
    · rw [if_neg both] at read
      obtain ⟨unopened, rfl, rfl⟩ | ⟨skipped, arguments, skip, rfl, rfl⟩ :=
        typeForm_after_name read
      · exact .named kind unopened
      · exact .instantiated kind skip
  · obtain ⟨unopened, rfl, rfl⟩ | ⟨skipped, arguments, skip, rfl, rfl⟩ := typeForm_after_name read
    · exact .named kind unopened
    · exact .instantiated kind skip

/-- A type that is read is read through one of the branches. -/
theorem typeForm_of_typeRef {tokens : List Token} {type : TypeRef} {used : Nat}
    (read : typeRef tokens = .ok (type, used)) : TypeForm tokens type used := by
  cases tokens with
  | nil => simp [typeRef] at read
  | cons token rest =>
    cases kind : token.kind with
    | op => exact typeForm_of_op kind read
    | keyword => exact typeForm_of_keyword kind read
    | ident => exact typeForm_of_ident kind read
    | number => simp [typeRef.eq_def, kind] at read
    | string => simp [typeRef.eq_def, kind] at read
    | rune => simp [typeRef.eq_def, kind] at read
    | semicolon => simp [typeRef.eq_def, kind] at read

/-- A type has a token at least. -/
theorem pos_of_typeRef {tokens : List Token} {type : TypeRef} {used : Nat}
    (read : typeRef tokens = .ok (type, used)) : 0 < used := by
  cases typeForm_of_typeRef read <;> omega

/-- A type stays as far from the end as the types and the bracketed runs in it do. The type that
stands last in a branch decides; only the closing bracket and a qualified name come after one. -/
theorem TypeForm.add_le_length {left used : Nat} {token : Token} {rest : List Token}
    {type : TypeRef} (form : TypeForm (token :: rest) type used) (full : left ≤ rest.length)
    (inner : ∀ count type used, typeRef (rest.drop count) = .ok (type, used) →
      count + used + left ≤ rest.length)
    (skipped : ∀ count inner used, skipBalanced (rest.drop count) = .ok (inner, used) →
      count + used + left ≤ rest.length)
    (closer : ∀ count, nextIs ")" (rest.drop count) → count + 1 + left ≤ rest.length)
    (qualifier : ∀ dot name tail, rest = dot :: name :: tail → dot.is "." → name.kind = .ident →
      left ≤ tail.length) :
    used + left ≤ rest.length + 1 := by
  cases form with
  | pointer kind text readInner =>
    have le := inner 0 _ _ readInner
    omega
  | parenthesised kind text readInner closed =>
    have le := closer _ closed
    omega
  | sequence kind text run closed readInner =>
    have le := inner _ _ _ readInner
    omega
  | receiver kind text channel readInner =>
    have le := inner _ _ _ readInner
    omega
  | mapping kind text opened first closed second =>
    have le := inner _ _ _ second
    omega
  | channel kind text direction readInner =>
    have le := inner _ _ _ readInner
    omega
  | body kind text skip =>
    have le := skipped 0 _ _ skip
    omega
  | results kind text skip opened skipResults =>
    have le := skipped _ _ _ skipResults
    omega
  | result kind text skip unopened starts readInner =>
    have le := inner _ _ _ readInner
    omega
  | noResult kind text skip unopened unstarted =>
    have le := skipped 0 _ _ skip
    omega
  | named kind unopened => omega
  | qualified packageKind isDot kind unopened =>
    have le := qualifier _ _ _ rfl isDot kind
    simp only [List.length_cons]
    omega
  | instantiated kind skip =>
    have le := skipped 0 _ _ skip
    omega
  | qualifiedInstantiated packageKind isDot kind skip =>
    have le := skipped 2 _ _ skip
    omega

/-! ### Lists of items -/

theorem single_eq_ok {Value : Type} {read : Except ReadFault (Value × Nat)} {found : List Value}
    {used : Nat} : single read = .ok (found, used) ↔ ∃ item, read = .ok (item, used) ∧
      found = [item] := by
  cases read with
  | error fault => simp [single, Except.map]
  | ok pair =>
    obtain ⟨item, length⟩ := pair
    simp only [single, Except.map, Except.ok.injEq, Prod.mk.injEq]
    constructor
    · rintro ⟨rfl, rfl⟩
      exact ⟨item, ⟨rfl, rfl⟩, rfl⟩
    · rintro ⟨other, ⟨rfl, rfl⟩, rfl⟩
      exact ⟨rfl, rfl⟩

/-- The branches through which a list of items is read: the token that closes it, a semicolon
before the rest, or an item before the rest. -/
inductive ItemsForm {Item : Type} (closer : String)
    (item : List Token → Except ReadFault (List Item × Nat)) : List Token → List Item → Nat → Prop
  | closed {token : Token} {rest : List Token} (closes : token.is closer) :
      ItemsForm closer item (token :: rest) [] 1
  | separator {token : Token} {rest : List Token} {found : List Item} {used : Nat}
      (goesOn : token.is closer = false) (ends : token.is ";")
      (others : ItemsForm closer item rest found used) :
      ItemsForm closer item (token :: rest) found (used + 1)
  | item {token : Token} {rest : List Token} {own others : List Item} {ownUsed othersUsed : Nat}
      (goesOn : token.is closer = false) (starts : token.is ";" = false)
      (readOwn : item (token :: rest) = .ok (own, ownUsed))
      (separated : nextIs closer (rest.drop (ownUsed - 1)) ∨ nextIs ";" (rest.drop (ownUsed - 1)))
      (behind : ItemsForm closer item (rest.drop (ownUsed - 1)) others othersUsed) :
      ItemsForm closer item (token :: rest) (own ++ others) (ownUsed + othersUsed)

theorem ItemsForm.ne_nil {Item : Type} {closer : String}
    {item : List Token → Except ReadFault (List Item × Nat)} {tokens : List Token}
    {found : List Item} {used : Nat} (form : ItemsForm closer item tokens found used) :
    tokens ≠ [] := by
  cases form <;> exact List.cons_ne_nil _ _

/-- A list of items is read exactly in these steps. -/
theorem itemsUntil_eq_ok {Item : Type} {closer : String} {unclosed : ReadFault}
    {item : List Token → Except ReadFault (List Item × Nat)} {tokens : List Token}
    {found : List Item} {used : Nat} :
    itemsUntil closer unclosed item tokens = .ok (found, used) ↔
      ItemsForm closer item tokens found used := by
  constructor
  · intro read
    induction tokens using drop_induction generalizing found used with
    | nil => simp [itemsUntil] at read
    | cons token rest behind =>
      rw [itemsUntil] at read
      split at read
      · next closes =>
        obtain ⟨rfl, rfl⟩ := Prod.mk.inj (Except.ok.inj read)
        exact .closed closes
      · next goesOn =>
        split at read
        · next ends =>
          simp only [bind_eq_ok, pure_eq_ok, Prod.exists, Prod.mk.injEq] at read
          obtain ⟨others, othersUsed, readOthers, rfl, rfl⟩ := read
          exact .separator (eq_false_of_ne_true goesOn) ends (behind 0 readOthers)
        · next starts =>
          simp only [bind_eq_ok, Prod.exists] at read
          obtain ⟨own, ownUsed, readOwn, read⟩ := read
          rw [separated_eq_ok] at read
          simp only [bind_eq_ok, pure_eq_ok, Prod.exists, Prod.mk.injEq] at read
          obtain ⟨separated, others, othersUsed, readOthers, rfl, rfl⟩ := read
          exact .item (eq_false_of_ne_true goesOn) (eq_false_of_ne_true starts) readOwn separated
            (behind _ readOthers)
  · intro form
    induction form with
    | closed closes => rw [itemsUntil, if_pos closes]
    | separator goesOn ends _ readOthers =>
      rw [itemsUntil, if_neg (ne_true_of_eq_false goesOn), if_pos ends, readOthers]
      rfl
    | item goesOn starts readOwn separated _ readOthers =>
      rw [itemsUntil, if_neg (ne_true_of_eq_false goesOn), if_neg (ne_true_of_eq_false starts),
        readOwn]
      exact separated_eq_ok.mpr ⟨separated, bind_eq_ok.mpr ⟨_, readOthers, rfl⟩⟩

/-! ### Struct fields -/

/-- The branches through which names are read: the last one, or a name and a comma before the
others. -/
inductive NamesForm : List Token → List String → Nat → Prop
  | last {name : Token} {rest : List Token} (kind : name.kind = .ident)
      (ends : nextIs "," rest = false) : NamesForm (name :: rest) [name.text] 1
  | comma {name comma : Token} {rest : List Token} {names : List String} {used : Nat}
      (kind : name.kind = .ident) (separates : comma.is ",") (others : NamesForm rest names used) :
      NamesForm (name :: comma :: rest) (name.text :: names) (used + 2)

/-- A list of names is read exactly in these steps. -/
theorem identifierList_eq_ok {tokens : List Token} {names : List String} {used : Nat} :
    identifierList tokens = .ok (names, used) ↔ NamesForm tokens names used := by
  constructor
  · intro read
    induction tokens using drop_induction generalizing names used with
    | nil => simp [identifierList] at read
    | cons token rest behind =>
      cases rest with
      | nil =>
        simp only [identifierList] at read
        split at read
        · next kind =>
          obtain ⟨rfl, rfl⟩ := Prod.mk.inj (Except.ok.inj read)
          exact .last kind rfl
        · simp at read
      | cons comma tail =>
        simp only [identifierList] at read
        split at read
        · next kind =>
          split at read
          · next separates =>
            simp only [bind_eq_ok, pure_eq_ok, Prod.exists, Prod.mk.injEq] at read
            obtain ⟨others, othersUsed, readOthers, rfl, rfl⟩ := read
            exact .comma kind separates (behind 1 readOthers)
          · next ends =>
            obtain ⟨rfl, rfl⟩ := Prod.mk.inj (Except.ok.inj read)
            exact .last kind (eq_false_of_ne_true ends)
        · simp at read
  · intro form
    induction form with
    | @last name rest kind ends =>
      cases rest with
      | nil => rw [identifierList, if_pos kind]
      | cons comma tail =>
        rw [identifierList, if_pos kind]
        exact if_neg (ne_true_of_eq_false ends)
    | comma kind separates _ readOthers =>
      rw [identifierList, if_pos kind, if_pos separates, readOthers]
      rfl

theorem enclosed_concat {α : Type} [Written α] (first last : α) (body : List α) :
    enclosed (first :: (body ++ [last])) =
      if shown last = shown first then some (shown first, body) else none := by
  cases body with
  | nil => simp [enclosed]
  | cons second rest =>
    have ends : (second :: (rest ++ [last])).getLast? = some last := by
      rw [← List.cons_append, List.getLast?_concat]
    have front : (second :: (rest ++ [last])).dropLast = second :: rest := by
      rw [← List.cons_append, List.dropLast_concat]
    simp only [List.cons_append, enclosed, ends, front, Option.map_some, Option.some.injEq]

/-- A tag is one literal that is decoded, or there is none. -/
theorem fieldTag_eq_ok {tokens : List Token} {tag : Option Text} {used : Nat}
    (read : fieldTag tokens = .ok (tag, used)) :
    (tag = none ∧ used = 0) ∨ ∃ token rest text, tokens = token :: rest ∧ token.kind = .string ∧
      unquote token.text = .ok text ∧ tag = some text ∧ used = 1 := by
  cases tokens with
  | nil =>
    simp only [fieldTag, Except.ok.injEq, Prod.mk.injEq] at read
    exact Or.inl ⟨read.1.symm, read.2.symm⟩
  | cons token rest =>
    simp only [fieldTag] at read
    split at read
    · next kind =>
      cases text : unquote token.text with
      | error fault => simp [text] at read
      | ok value =>
        simp only [text, Except.ok.injEq, Prod.mk.injEq] at read
        exact Or.inr ⟨token, rest, value, rfl, kind, text, read.1.symm, read.2.symm⟩
    · simp only [Except.ok.injEq, Prod.mk.injEq] at read
      exact Or.inl ⟨read.1.symm, read.2.symm⟩

/-- A field line gives an embedded field, or one field of the same type and tag for each name. -/
theorem fieldDeclaration_eq_ok {tokens : List Token} {fields : List Field} {used : Nat}
    (read : fieldDeclaration tokens = .ok (fields, used)) :
    (startsEmbedded tokens ∧ ∃ type typeUsed tag tagUsed,
      typeRef tokens = .ok (type, typeUsed) ∧
      fieldTag (tokens.drop typeUsed) = .ok (tag, tagUsed) ∧
      fields = [⟨embeddedName type, type, tag, true⟩] ∧ used = typeUsed + tagUsed) ∨
    (startsEmbedded tokens = false ∧ ∃ names namesUsed type typeUsed tag tagUsed,
      identifierList tokens = .ok (names, namesUsed) ∧
      typeRef (tokens.drop namesUsed) = .ok (type, typeUsed) ∧
      fieldTag (tokens.drop (namesUsed + typeUsed)) = .ok (tag, tagUsed) ∧
      fields = (names.map fun name => ⟨name, type, tag, false⟩) ∧
      used = namesUsed + typeUsed + tagUsed) := by
  unfold fieldDeclaration at read
  split at read
  · next embedded =>
    simp only [bind_eq_ok, pure_eq_ok, Prod.exists, Prod.mk.injEq] at read
    obtain ⟨type, typeUsed, readType, tag, tagUsed, readTag, rfl, rfl⟩ := read
    exact Or.inl ⟨embedded, type, typeUsed, tag, tagUsed, readType, readTag, rfl, rfl⟩
  · next named =>
    simp only [bind_eq_ok, pure_eq_ok, Prod.exists, Prod.mk.injEq] at read
    obtain ⟨names, namesUsed, readNames, type, typeUsed, readType, tag, tagUsed, readTag, rfl,
      rfl⟩ := read
    exact Or.inr ⟨eq_false_of_ne_true named, names, namesUsed, type, typeUsed, tag, tagUsed,
      readNames, readType, readTag, rfl, rfl⟩

theorem structFields_eq_ok {tokens : List Token} {fields : List Field} {used : Nat}
    (read : structFields tokens = .ok (fields, used)) :
    ∃ opener rest lines, tokens = opener :: rest ∧ opener.is "\x7b" ∧
      fieldLines rest = .ok (fields, lines) ∧ used = lines + 1 := by
  simp only [structFields, bind_eq_ok, pure_eq_ok, expect_eq_ok, Prod.exists, Prod.mk.injEq] at read
  obtain ⟨-, opened, found, lines, readLines, rfl, rfl⟩ := read
  obtain ⟨opener, rest, rfl, opens⟩ := nextIs_eq_true.mp opened
  exact ⟨opener, rest, lines, rfl, opens, readLines, rfl⟩

/-! ### Type declarations -/

theorem map_snd_eq_ok {Value : Type} {read : Except ReadFault (Value × Nat)} {used : Nat} :
    read.map Prod.snd = .ok used ↔ ∃ value, read = .ok (value, used) := by
  cases read with
  | error fault => simp [Except.map]
  | ok found =>
    obtain ⟨value, length⟩ := found
    simp [Except.map]

theorem skipTypeParameters_eq_ok {tokens : List Token} {used : Nat}
    (read : skipTypeParameters tokens = .ok used) :
    used = 0 ∨ ∃ skipped, skipBalanced tokens = .ok (skipped, used) := by
  unfold skipTypeParameters at read
  split at read
  · exact Or.inr (map_snd_eq_ok.mp read)
  · exact Or.inl (Except.ok.inj read).symm

/-- A type is declared by the fields of a struct or by another type. -/
theorem typeBody_eq_ok {tokens : List Token} {fields : Option (List Field)}
    {underlying : Option TypeRef} {used : Nat}
    (read : typeBody tokens = .ok ((fields, underlying), used)) :
    (∃ keyword rest found bodyUsed, tokens = keyword :: rest ∧ keyword.is "struct" ∧
      nextIs "\x7b" rest ∧ structFields rest = .ok (found, bodyUsed) ∧ fields = some found ∧
      underlying = none ∧ used = bodyUsed + 1) ∨
    ((nextIs "struct" tokens && nextIs "\x7b" (tokens.drop 1)) = false ∧ ∃ type,
      typeRef tokens = .ok (type, used) ∧ fields = none ∧ underlying = some type) := by
  unfold typeBody at read
  split at read
  · next struct =>
    rw [Bool.and_eq_true] at struct
    obtain ⟨keyword, rest, rfl, isStruct⟩ := nextIs_eq_true.mp struct.1
    simp only [bind_eq_ok, pure_eq_ok, Prod.exists, Prod.mk.injEq] at read
    obtain ⟨found, bodyUsed, readBody, ⟨rfl, rfl⟩, rfl⟩ := read
    exact Or.inl ⟨keyword, rest, found, bodyUsed, rfl, isStruct, struct.2, readBody, rfl, rfl, rfl⟩
  · next other =>
    simp only [bind_eq_ok, pure_eq_ok, Prod.exists, Prod.mk.injEq] at read
    obtain ⟨type, typeUsed, readType, ⟨rfl, rfl⟩, rfl⟩ := read
    exact Or.inr ⟨eq_false_of_ne_true other, type, readType, rfl, rfl⟩

/-- The parts of a type declaration in their order: name, type parameters, mark of an alias, body.
-/
theorem typeSpec_eq_ok {doc groupDoc : String} {tokens : List Token} {found : TypeDeclaration}
    {used : Nat} (read : typeSpec doc groupDoc tokens = .ok (found, used)) :
    ∃ name rest parameters mark fields underlying bodyUsed, tokens = name :: rest ∧
      name.kind = .ident ∧ skipTypeParameters rest = .ok parameters ∧
      mark = (if nextIs "=" (rest.drop parameters) then 1 else 0) ∧
      typeBody (rest.drop (parameters + mark)) = .ok ((fields, underlying), bodyUsed) ∧
      found = { name := name.text, doc, groupDoc, fields, underlying, line := name.line } ∧
      used = parameters + mark + 1 + bodyUsed := by
  simp only [typeSpec, bind_eq_ok, pure_eq_ok, Prod.exists, Prod.mk.injEq, identifier_eq_ok] at read
  obtain ⟨name, ⟨kind, head⟩, parameters, readParameters, fields, underlying, bodyUsed, readBody,
    rfl, rfl⟩ := read
  obtain ⟨rest, rfl⟩ := List.head?_eq_some_iff.mp head
  exact ⟨name, rest, parameters, _, fields, underlying, bodyUsed, rfl, kind, readParameters, rfl,
    readBody, rfl, rfl⟩

theorem typeDeclaration_alone {docs : Docs} {keyword : Token} {rest : List Token}
    {found : TypeDeclaration} {used : Nat} (alone : nextIs "(" rest = false)
    (read : typeSpec (docs.above keyword.line) "" rest = .ok (found, used)) :
    typeDeclaration docs keyword rest = .ok ([found], used) := by
  rw [typeDeclaration, alone, if_neg Bool.false_ne_true]
  exact single_eq_ok.mpr ⟨_, read, rfl⟩

/-- A group of types, of which each may have a comment of its own, or one type. -/
theorem typeDeclaration_eq_ok {docs : Docs} {keyword : Token} {tokens : List Token}
    {found : List TypeDeclaration} {used : Nat}
    (read : typeDeclaration docs keyword tokens = .ok (found, used)) :
    (∃ opener rest group, tokens = opener :: rest ∧ opener.is "(" ∧
      typeGroup docs (docs.above keyword.line) rest = .ok (found, group) ∧ used = group + 1) ∨
    (nextIs "(" tokens = false ∧ ∃ spec, typeSpec (docs.above keyword.line) "" tokens =
      .ok (spec, used) ∧ found = [spec]) := by
  unfold typeDeclaration at read
  split at read
  · next opened =>
    obtain ⟨opener, rest, rfl, opens⟩ := nextIs_eq_true.mp opened
    simp only [bind_eq_ok, pure_eq_ok, Prod.exists, Prod.mk.injEq] at read
    obtain ⟨specs, group, readGroup, rfl, rfl⟩ := read
    exact Or.inl ⟨opener, rest, group, rfl, opens, readGroup, rfl⟩
  · next unopened => exact Or.inr ⟨eq_false_of_ne_true unopened, single_eq_ok.mp read⟩

/-! ### Value declarations -/

/-- There is no type in front of initialisers and at the end of a line; anywhere else there is one.
-/
theorem skipValueType_eq_ok {tokens : List Token} {used : Nat}
    (read : skipValueType tokens = .ok used) :
    ((nextIs "=" tokens || nextIs ";" tokens || nextIs ")" tokens) ∧ used = 0) ∨
      ((nextIs "=" tokens || nextIs ";" tokens || nextIs ")" tokens) = false ∧
        ∃ type, typeRef tokens = .ok (type, used)) := by
  unfold skipValueType at read
  split at read
  · next ends => exact Or.inl ⟨ends, (Except.ok.inj read).symm⟩
  · next typed => exact Or.inr ⟨eq_false_of_ne_true typed, map_snd_eq_ok.mp read⟩

/-- The parts of a value in their order: names, type, and initialisers if a mark comes next. -/
theorem valueSpec_eq_ok {tokens : List Token} {found : ValueSpec} {used : Nat}
    (read : valueSpec tokens = .ok (found, used)) :
    ∃ names namesUsed typeUsed, identifierList tokens = .ok (names, namesUsed) ∧
      skipValueType (tokens.drop namesUsed) = .ok typeUsed ∧
      ((∃ mark rest, tokens.drop (namesUsed + typeUsed) = mark :: rest ∧ mark.is "=" ∧
        found = ⟨names, (initialisers 0 [] rest).1⟩ ∧
        used = namesUsed + typeUsed + 1 + (initialisers 0 [] rest).2) ∨
      (nextIs "=" (tokens.drop (namesUsed + typeUsed)) = false ∧ found = ⟨names, []⟩ ∧
        used = namesUsed + typeUsed)) := by
  simp only [valueSpec, bind_eq_ok, Prod.exists] at read
  obtain ⟨names, namesUsed, readNames, typeUsed, readType, read⟩ := read
  refine ⟨names, namesUsed, typeUsed, readNames, readType, ?_⟩
  split at read
  · next marked =>
    obtain ⟨mark, rest, behind, isMark⟩ := nextIs_eq_true.mp marked
    have start : tokens.drop (namesUsed + typeUsed + 1) = rest := by
      rw [← List.drop_drop, behind, List.drop_one, List.tail_cons]
    rw [start] at read
    simp only [pure_eq_ok, Prod.mk.injEq] at read
    exact Or.inl ⟨mark, rest, behind, isMark, read.1.symm, read.2.symm⟩
  · next unmarked =>
    simp only [pure_eq_ok, Prod.mk.injEq] at read
    exact Or.inr ⟨eq_false_of_ne_true unmarked, read.1.symm, read.2.symm⟩

theorem valueDeclaration_eq_ok {docs : Docs} {keyword : ValueKeyword} {line : Nat}
    {tokens : List Token} {found : ValueDeclaration} {used : Nat}
    (read : valueDeclaration docs keyword line tokens = .ok (found, used)) :
    ∃ specs, found = ⟨keyword, docs.above line, specs, line⟩ ∧
      ((∃ opener rest group, tokens = opener :: rest ∧ opener.is "(" ∧
        valueGroup keyword rest = .ok (specs, group) ∧ used = group + 1) ∨
      (nextIs "(" tokens = false ∧ ∃ spec, valueSpec tokens = .ok (spec, used) ∧
        specs = [spec])) := by
  simp only [valueDeclaration, bind_eq_ok, pure_eq_ok, Prod.exists, Prod.mk.injEq] at read
  obtain ⟨specs, specsUsed, readSpecs, rfl, rfl⟩ := read
  refine ⟨specs, rfl, ?_⟩
  unfold valueSpecs at readSpecs
  split at readSpecs
  · next opened =>
    obtain ⟨opener, rest, rfl, opens⟩ := nextIs_eq_true.mp opened
    simp only [bind_eq_ok, pure_eq_ok, Prod.exists, Prod.mk.injEq] at readSpecs
    obtain ⟨inner, group, readGroup, rfl, rfl⟩ := readSpecs
    exact Or.inl ⟨opener, rest, group, rfl, opens, readGroup, rfl⟩
  · next unopened => exact Or.inr ⟨eq_false_of_ne_true unopened, single_eq_ok.mp readSpecs⟩

/-! ### Functions -/

theorem skipIfNext_eq_ok {bracket : String} {tokens : List Token} {used : Nat}
    (read : skipIfNext bracket tokens = .ok used) :
    used = 0 ∨ ∃ skipped, skipBalanced tokens = .ok (skipped, used) := by
  unfold skipIfNext at read
  split at read
  · exact Or.inr (map_snd_eq_ok.mp read)
  · exact Or.inl (Except.ok.inj read).symm

/-- A receiver is in parentheses; its type is told from what is inside. -/
theorem receiver_eq_ok {tokens : List Token} {found : Option String} {used : Nat}
    (read : receiver tokens = .ok (found, used)) :
    (nextIs "(" tokens = false ∧ found = none ∧ used = 0) ∨
      ∃ skipped, skipBalanced tokens = .ok (skipped, used) ∧
        found = some (receiverType skipped) := by
  unfold receiver at read
  split at read
  · simp only [bind_eq_ok, pure_eq_ok, Prod.exists, Prod.mk.injEq] at read
    obtain ⟨skipped, length, skip, rfl, rfl⟩ := read
    exact Or.inr ⟨skipped, skip, rfl⟩
  · next absent =>
    simp only [Except.ok.injEq, Prod.mk.injEq] at read
    exact Or.inl ⟨eq_false_of_ne_true absent, read.1.symm, read.2.symm⟩

theorem skipParameters_eq_ok {tokens : List Token} {used : Nat}
    (read : skipParameters tokens = .ok used) :
    ∃ skipped, skipBalanced tokens = .ok (skipped, used) := by
  unfold skipParameters at read
  split at read
  · exact map_snd_eq_ok.mp read
  · simp at read

/-- Results are a bracketed run, a type, or nothing. -/
theorem skipResults_eq_ok {tokens : List Token} {used : Nat}
    (read : skipResults tokens = .ok used) :
    (nextIs "(" tokens ∧ ∃ skipped, skipBalanced tokens = .ok (skipped, used)) ∨
    (nextIs "(" tokens = false ∧ startsType tokens ∧ ∃ type, typeRef tokens = .ok (type, used)) ∨
    (nextIs "(" tokens = false ∧ startsType tokens = false ∧ used = 0) := by
  unfold skipResults at read
  split at read
  · next opened => exact Or.inl ⟨opened, map_snd_eq_ok.mp read⟩
  · next unopened =>
    split at read
    · next starts =>
      exact Or.inr (Or.inl ⟨eq_false_of_ne_true unopened, starts, map_snd_eq_ok.mp read⟩)
    · next unstarted =>
      exact Or.inr (Or.inr ⟨eq_false_of_ne_true unopened, eq_false_of_ne_true unstarted,
        (Except.ok.inj read).symm⟩)

/-- The parts of a function in their order; only its name and its receiver are kept. -/
theorem functionDeclaration_eq_ok {docs : Docs} {keyword : Token} {tokens : List Token}
    {found : FunctionDeclaration} {used : Nat}
    (read : functionDeclaration docs keyword tokens = .ok (found, used)) :
    ∃ receiverText receiverUsed name signature typeParameters parameters results body,
      receiver tokens = .ok (receiverText, receiverUsed) ∧
      tokens.drop receiverUsed = name :: signature ∧ name.kind = .ident ∧
      skipIfNext "[" signature = .ok typeParameters ∧
      skipParameters (signature.drop typeParameters) = .ok parameters ∧
      skipResults (signature.drop (typeParameters + parameters)) = .ok results ∧
      skipIfNext "\x7b" (signature.drop (typeParameters + parameters + results)) = .ok body ∧
      found = ⟨name.text, docs.above keyword.line, receiverText, keyword.line⟩ ∧
      used = receiverUsed + 1 + (typeParameters + parameters + results) + body := by
  simp only [functionDeclaration, bind_eq_ok, pure_eq_ok, Prod.exists, Prod.mk.injEq,
    identifier_eq_ok] at read
  obtain ⟨receiverText, receiverUsed, readReceiver, name, ⟨kind, head⟩, typeParameters,
    readTypeParameters, parameters, readParameters, results, readResults, body, readBody, rfl,
    rfl⟩ := read
  obtain ⟨signature, behind⟩ := List.head?_eq_some_iff.mp head
  have start : tokens.drop (receiverUsed + 1) = signature := by
    rw [← List.drop_drop, behind, List.drop_one, List.tail_cons]
  rw [start] at readTypeParameters readParameters readResults readBody
  exact ⟨receiverText, receiverUsed, name, signature, typeParameters, parameters, results, body,
    readReceiver, behind, kind, readTypeParameters, readParameters, readResults, readBody, rfl, rfl⟩

/-! ### Files -/

/-- The branches through which a declaration, package clause or import is read, by the keyword
that comes first: what was found, and how many tokens it took with the keyword. -/
inductive TopForm (docs : Docs) (keyword : Token) (rest : List Token) :
    List Declaration → Nat → Prop
  | package {name : Token} {tail : List Token} (text : keyword.text = "package")
      (named : rest = name :: tail) (kind : name.kind = .ident) : TopForm docs keyword rest [] 2
  | importGroup {skipped : List Token} {used : Nat} (text : keyword.text = "import")
      (opened : nextIs "(" rest) (skip : skipBalanced rest = .ok (skipped, used)) :
      TopForm docs keyword rest [] (used + 1)
  | importLine (text : keyword.text = "import") (unopened : nextIs "(" rest = false) :
      TopForm docs keyword rest [] ((rest.takeWhile fun token => !token.is ";").length + 1)
  | type {found : List TypeDeclaration} {used : Nat} (text : keyword.text = "type")
      (read : typeDeclaration docs keyword rest = .ok (found, used)) :
      TopForm docs keyword rest (found.map .type) (used + 1)
  | value (valueKeyword : ValueKeyword) {found : ValueDeclaration} {used : Nat}
      (text : keyword.text = valueKeyword.text)
      (read : valueDeclaration docs valueKeyword keyword.line rest = .ok (found, used)) :
      TopForm docs keyword rest [.value found] (used + 1)
  | function {found : FunctionDeclaration} {used : Nat} (text : keyword.text = "func")
      (read : functionDeclaration docs keyword rest = .ok (found, used)) :
      TopForm docs keyword rest [.function found] (used + 1)

/-- A declaration is read in the branch of its keyword. -/
theorem topForm_of_topLevel {docs : Docs} {keyword : Token} {rest : List Token}
    {found : List Declaration} {used : Nat}
    (read : topLevel docs keyword rest = .ok (found, used)) :
    keyword.kind = .keyword ∧ TopForm docs keyword rest found used := by
  unfold topLevel at read
  split at read
  · simp at read
  · next kind =>
    refine ⟨Decidable.not_not.mp kind, ?_⟩
    split at read
    · next text =>
      simp only [bind_eq_ok, pure_eq_ok, Prod.mk.injEq, identifier_eq_ok] at read
      obtain ⟨name, ⟨nameKind, head⟩, rfl, rfl⟩ := read
      obtain ⟨tail, named⟩ := List.head?_eq_some_iff.mp head
      exact .package text named nameKind
    · split at read
      · next text =>
        split at read
        · next opened =>
          simp only [bind_eq_ok, pure_eq_ok, Prod.exists, Prod.mk.injEq] at read
          obtain ⟨skipped, length, skip, rfl, rfl⟩ := read
          exact .importGroup text opened skip
        · next unopened =>
          simp only [Except.ok.injEq, Prod.mk.injEq] at read
          obtain ⟨rfl, rfl⟩ := read
          exact .importLine text (eq_false_of_ne_true unopened)
      · split at read
        · next text =>
          simp only [bind_eq_ok, pure_eq_ok, Prod.exists, Prod.mk.injEq] at read
          obtain ⟨types, length, readTypes, rfl, rfl⟩ := read
          exact .type text readTypes
        · split at read
          · next text =>
            simp only [bind_eq_ok, pure_eq_ok, Prod.exists, Prod.mk.injEq] at read
            obtain ⟨value, length, readValue, rfl, rfl⟩ := read
            exact .value .const text readValue
          · split at read
            · next text =>
              simp only [bind_eq_ok, pure_eq_ok, Prod.exists, Prod.mk.injEq] at read
              obtain ⟨value, length, readValue, rfl, rfl⟩ := read
              exact .value .var text readValue
            · split at read
              · next text =>
                simp only [bind_eq_ok, pure_eq_ok, Prod.exists, Prod.mk.injEq] at read
                obtain ⟨function, length, readFunction, rfl, rfl⟩ := read
                exact .function text readFunction
              · simp at read

theorem TopForm.read {docs : Docs} {keyword : Token} {rest : List Token}
    {found : List Declaration} {used : Nat} (kind : keyword.kind = .keyword)
    (form : TopForm docs keyword rest found used) :
    topLevel docs keyword rest = .ok (found, used) := by
  cases form with
  | package text named nameKind =>
    subst named
    simp [topLevel, kind, text, identifier, nameKind, bind, Except.bind, pure, Except.pure]
  | importGroup text opened skip =>
    simp [topLevel, kind, text, opened, skip, bind, Except.bind, pure, Except.pure]
  | importLine text unopened => simp [topLevel, kind, text, unopened]
  | type text read => simp [topLevel, kind, text, read, bind, Except.bind, pure, Except.pure]
  | value valueKeyword text read =>
    cases valueKeyword with
    | const =>
      simp [topLevel, kind, text, ValueKeyword.text, read, bind, Except.bind, pure, Except.pure]
    | var =>
      simp [topLevel, kind, text, ValueKeyword.text, read, bind, Except.bind, pure, Except.pure]
  | function text read => simp [topLevel, kind, text, read, bind, Except.bind, pure, Except.pure]

/-- The branches through which a file is read: its end, a semicolon before the rest, or what a
keyword starts before the rest. -/
inductive FileForm (docs : Docs) : List Token → List Declaration → Prop
  | ended : FileForm docs [] []
  | separator {token : Token} {rest : List Token} {found : List Declaration}
      (semicolon : token.kind = .semicolon) (others : FileForm docs rest found) :
      FileForm docs (token :: rest) found
  | topLevel {token : Token} {rest : List Token} {own others : List Declaration} {used : Nat}
      (starts : token.kind ≠ .semicolon) (readOwn : topLevel docs token rest = .ok (own, used))
      (separated : (rest.drop (used - 1)).isEmpty ∨ nextIs ";" (rest.drop (used - 1)))
      (behind : FileForm docs (rest.drop (used - 1)) others) :
      FileForm docs (token :: rest) (own ++ others)

/-- Declarations are read exactly in these steps. -/
theorem declarations_eq_ok {docs : Docs} {tokens : List Token} {found : List Declaration} :
    declarations docs tokens = .ok found ↔ FileForm docs tokens found := by
  constructor
  · intro read
    induction tokens using drop_induction generalizing found with
    | nil =>
      rw [declarations] at read
      obtain rfl := Except.ok.inj read
      exact .ended
    | cons token rest behind =>
      rw [declarations] at read
      split at read
      · next semicolon => exact .separator semicolon (behind 0 read)
      · next starts =>
        simp only [bind_eq_ok, Prod.exists] at read
        obtain ⟨own, used, readOwn, read⟩ := read
        rw [separated_eq_ok] at read
        simp only [bind_eq_ok, pure_eq_ok] at read
        obtain ⟨separated, others, readOthers, rfl⟩ := read
        exact .topLevel starts readOwn separated (behind _ readOthers)
  · intro form
    induction form with
    | ended => rw [declarations]
    | separator semicolon _ readOthers => rw [declarations, if_pos semicolon, readOthers]
    | topLevel starts readOwn separated _ readOthers =>
      rw [declarations, if_neg starts, readOwn]
      exact separated_eq_ok.mpr ⟨separated, bind_eq_ok.mpr ⟨_, readOthers, rfl⟩⟩

/-- A source is accepted if it is laid out and its tokens are declarations. -/
theorem readSource_eq_ok {source : String} {found : List Declaration} :
    readSource source = .ok found ↔ ∃ layout, layoutOf source = .ok layout ∧
      declarations (docsOf layout.comments) layout.tokens = .ok found := by
  unfold readSource
  rw [bind_eq_ok]
  refine exists_congr fun layout => and_congr_right fun _ => ?_
  unfold Layout.declarations
  split
  · next fault => simp [fault]
  · next others => simp [others]

end GoApiDoc.Go

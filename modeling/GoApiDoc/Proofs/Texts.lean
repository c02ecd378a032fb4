/-
This file proves that a text is its code points: reading the points of a text and taking the
text of points undo each other, and the strings among the texts are the texts of characters.
Most of the theory is about strings, and the rest of it meets texts only through these lemmas.
-/

import GoApiDoc.Text

namespace GoApiDoc

/-! ### Numbers of code points -/

namespace Point

theorem number_lt (point : Point) : point.number < 0x110000 := by
  cases point with
  | char value =>
    have valid : value.toNat.isValidChar := value.valid
    simp only [Nat.isValidChar] at valid
    simp only [number]
    omega
  | half offset =>
    have below := offset.isLt
    simp only [number]
    omega

/-- A number has at most one code point, and a code point has one number. -/
theorem ofNat?_eq_some {number : Nat} {point : Point} :
    ofNat? number = some point ↔ point.number = number := by
  constructor
  · intro found
    unfold ofNat? at found
    split at found
    · next valid =>
      obtain rfl := Option.some.inj found
      rw [Char.ofNat, dif_pos valid]
      rfl
    · next invalid =>
      split at found
      · next below =>
        obtain rfl := Option.some.inj found
        simp only [Nat.isValidChar, not_or, not_and] at invalid
        have apart : (number - 0xD800) % 0x800 = number - 0xD800 := Nat.mod_eq_of_lt (by omega)
        simp only [Point.number, Fin.val_ofNat, apart]
        omega
      · nomatch found
  · rintro rfl
    cases point with
    | char value =>
      have valid : value.toNat.isValidChar := value.valid
      rw [ofNat?, Point.number, if_pos valid, Char.ofNat_toNat]
    | half offset =>
      have below := offset.isLt
      have invalid : ¬ Nat.isValidChar (0xD800 + offset) := by
        simp only [Nat.isValidChar]
        omega
      have same : Fin.ofNat 0x800 (0xD800 + offset - 0xD800) = offset := by
        rw [Nat.add_sub_cancel_left]
        exact Fin.ofNat_val_eq_self offset
      rw [ofNat?, Point.number, if_neg invalid, if_pos (by omega), same]

theorem ofNat?_eq_none {number : Nat} : ofNat? number = none ↔ 0x110000 ≤ number := by
  constructor
  · intro absent
    unfold ofNat? at absent
    split at absent
    · nomatch absent
    · split at absent
      · nomatch absent
      · next beyond => exact Nat.le_of_not_lt beyond
  · intro beyond
    cases found : ofNat? number with
    | none => rfl
    | some point =>
      have below := point.number_lt
      rw [ofNat?_eq_some.mp found] at below
      omega

end Point

/-! ### Runs of code points -/

/-- No surrogate is among characters. -/
theorem any_isHalf_map_char (chars : List Char) :
    (chars.map Point.char).any Point.isHalf = false := by
  simp [Point.isHalf]

theorem filterMap_char?_map_char (chars : List Char) :
    (chars.map Point.char).filterMap Point.char? = chars := by
  induction chars with
  | nil => rfl
  | cons first rest inductionHypothesis =>
    simp only [List.map_cons, List.filterMap_cons, Point.char?, inductionHypothesis]

/-- Points without a surrogate are characters. -/
theorem map_char_filterMap_char? {points : List Point} (whole : points.any Point.isHalf = false) :
    (points.filterMap Point.char?).map Point.char = points := by
  induction points with
  | nil => rfl
  | cons first rest inductionHypothesis =>
    rw [List.any_cons, Bool.or_eq_false_iff] at whole
    cases first with
    | char value =>
      simp only [List.filterMap_cons, Point.char?, List.map_cons,
        inductionHypothesis whole.right]
    | half offset => exact Bool.noConfusion whole.left

namespace Text

/-! ### The points of a text -/

@[simp]
theorem points_plain (value : String) : (Text.plain value).points = value.toList.map .char :=
  rfl

theorem ofPoints_of_whole {points : List Point} (whole : points.any Point.isHalf = false) :
    Text.ofPoints points = .plain (String.ofList (points.filterMap Point.char?)) := by
  rw [Text.ofPoints, dif_neg (by simp [whole])]

/-- Characters are the points of a string. -/
@[simp]
theorem ofPoints_map_char (chars : List Char) :
    Text.ofPoints (chars.map .char) = .plain (String.ofList chars) := by
  rw [ofPoints_of_whole (any_isHalf_map_char chars), filterMap_char?_map_char]

/-- The text of a text's points is the text. -/
@[simp]
theorem ofPoints_points (text : Text) : Text.ofPoints text.points = text := by
  cases text with
  | plain value => rw [points_plain, ofPoints_map_char, String.ofList_toList]
  | broken points half => exact dif_pos half

/-- The points of the text of points are the points. -/
@[simp]
theorem points_ofPoints (points : List Point) : (Text.ofPoints points).points = points := by
  rw [Text.ofPoints]
  split
  · rfl
  · next whole =>
    rw [points_plain, String.toList_ofList,
      map_char_filterMap_char? (Bool.eq_false_iff.mpr whole)]

theorem points_injective {first second : Text} (same : first.points = second.points) :
    first = second := by
  rw [← ofPoints_points first, same, ofPoints_points]

theorem points_inj {first second : Text} : first.points = second.points ↔ first = second :=
  ⟨points_injective, congrArg Text.points⟩

/-! ### Strings among the texts -/

theorem eq_plain {text : Text} {value : String} (whole : text.string? = some value) :
    text = .plain value := by
  cases text with
  | plain other => rw [Option.some.inj whole]
  | broken points half => nomatch whole

@[simp]
theorem lossy_plain (value : String) : (Text.plain value).lossy = value :=
  rfl

@[simp]
theorem isEmpty_plain (value : String) : (Text.plain value).isEmpty = value.isEmpty :=
  rfl

theorem isEmpty_iff {text : Text} : text.isEmpty = true ↔ text = .plain "" := by
  cases text with
  | plain value =>
    rw [isEmpty_plain, String.isEmpty_iff]
    exact ⟨congrArg Text.plain, fun same => Text.plain.inj same⟩
  | broken points half => exact ⟨nofun, nofun⟩

@[simp]
theorem plain_append (first second : String) :
    Text.plain first ++ Text.plain second = Text.plain (first ++ second) :=
  rfl

theorem points_append (first second : Text) :
    (first ++ second).points = first.points ++ second.points := by
  cases first with
  | plain first =>
    cases second with
    | plain second => rw [plain_append, points_plain, String.toList_append, List.map_append]; rfl
    | broken points half => exact points_ofPoints _
  | broken points half => exact points_ofPoints _

end Text

end GoApiDoc

import Mathlib.Data.List.Infix

/-!
# Text

The string operations of the standard library that programs use, on the
characters of a string.  Case folding is the ASCII folding, which leaves every
other character alone; white space is the Unicode property.
-/

namespace Corduit.Text

/-- The Unicode property `White_Space`. -/
def isWhitespace (char : Char) : Bool :=
  let code := char.toNat
  (0x09 ≤ code && code ≤ 0x0D) || code == 0x20 || code == 0x85 || code == 0xA0 ||
    code == 0x1680 || (0x2000 ≤ code && code ≤ 0x200A) || code == 0x2028 || code == 0x2029 ||
    code == 0x202F || code == 0x205F || code == 0x3000

/-- Drop the characters at the start that satisfy a test. -/
def trimStartMatches (test : Char → Bool) (text : String) : String :=
  String.ofList (text.toList.dropWhile test)

/-- Drop the characters at the end that satisfy a test. -/
def trimEndMatches (test : Char → Bool) (text : String) : String :=
  String.ofList (text.toList.reverse.dropWhile test).reverse

/-- `str::trim`. -/
def trim (text : String) : String :=
  trimEndMatches isWhitespace (trimStartMatches isWhitespace text)

/-- `str::to_ascii_lowercase`. -/
def toAsciiLowercase (text : String) : String :=
  String.ofList (text.toList.map Char.toLower)

/-- `str::eq_ignore_ascii_case`. -/
def eqIgnoreAsciiCase (first second : String) : Bool :=
  toAsciiLowercase first = toAsciiLowercase second

/-- The text is empty or white space. -/
def isBlank (text : String) : Bool :=
  (trim text).isEmpty

/-- `str::split_once`, at the first separator. -/
def splitOnce (separator : Char) (text : String) : Option (String × String) :=
  match text.toList.dropWhile (· ≠ separator) with
  | [] => none
  | _ :: tail => some (String.ofList (text.toList.takeWhile (· ≠ separator)), String.ofList tail)

/-- The parts between separators; there is always one more part than there are
separators. -/
def splitChars (separator : Char) : List Char → List (List Char)
  | [] => [[]]
  | char :: chars =>
      if char = separator then
        [] :: splitChars separator chars
      else
        match splitChars separator chars with
        | [] => [[char]]
        | part :: parts => (char :: part) :: parts

/-- `str::split`. -/
def split (separator : Char) (text : String) : List String :=
  (splitChars separator text.toList).map String.ofList

/-- What stands behind the last separator: the first part of `str::rsplit`. -/
def afterLast (isSeparator : Char → Bool) (text : String) : String :=
  String.ofList (text.toList.reverse.takeWhile fun char => !isSeparator char).reverse

/-- `str::strip_suffix`. -/
def stripSuffix (suffix text : String) : Option String :=
  if suffix.toList <:+ text.toList then
    some (String.ofList (text.toList.take (text.length - suffix.length)))
  else
    none

/-- `str::strip_suffix` up to ASCII case. -/
def stripSuffixIgnoreCase (suffix text : String) : Option String :=
  if (toAsciiLowercase suffix).toList <:+ (toAsciiLowercase text).toList then
    some (String.ofList (text.toList.take (text.length - suffix.length)))
  else
    none

/-- `str::contains`. -/
def contains (needle haystack : String) : Bool :=
  needle.toList <:+: haystack.toList

/-- A substring up to ASCII case. -/
def containsIgnoreCase (needle haystack : String) : Bool :=
  contains (toAsciiLowercase needle) (toAsciiLowercase haystack)

/-- `str::parse` at an unsigned type with the given bound: digits, after an
optional plus sign. -/
def parseUnsigned (bound : Nat) (text : String) : Option Nat :=
  let digits := match text.toList with
    | '+' :: rest => rest
    | chars => chars
  if digits.isEmpty || !digits.all Char.isDigit then
    none
  else
    let number := digits.foldl (fun number digit => 10 * number + (digit.toNat - '0'.toNat)) 0
    if number < bound then some number else none

/-!
# Case folding

Folding a text and then taking it apart is taking it apart and folding the
parts, as long as what decides the parts is not a letter.
-/

theorem toLower_cases (char : Char) :
    char.toLower = char ∨
      (65 ≤ char.toNat ∧ char.toNat ≤ 90) ∧ char.toLower.toNat = char.toNat + 32 := by
  by_cases capital : char.val ≥ 'A'.val ∧ char.val ≤ 'Z'.val
  · have bounds : 65 ≤ char.toNat ∧ char.toNat ≤ 90 := by
      simpa [UInt32.le_iff_toNat_le] using capital
    refine Or.inr ⟨bounds, ?_⟩
    have sum : (char.val + ('a'.val - 'A'.val)).toNat = char.toNat + 32 := by
      rw [UInt32.toNat_add]
      change (char.toNat + 32) % 2 ^ 32 = _
      omega
    delta Char.toLower
    rw [dif_pos capital]
    exact sum
  · left
    delta Char.toLower
    rw [dif_neg capital]

theorem toLower_eq_self_of_small {char : Char} (notCapital : char.toNat < 65 ∨ 90 < char.toNat) :
    char.toLower = char := by
  rcases toLower_cases char with same | ⟨bounds, _⟩
  · exact same
  · omega

@[simp]
theorem toLower_toLower (char : Char) : char.toLower.toLower = char.toLower := by
  rcases toLower_cases char with same | ⟨bounds, shifted⟩
  · rw [same, same]
  · exact toLower_eq_self_of_small (by omega)

theorem toLower_eq_iff {char mark : Char} (notCapital : mark.toNat < 65 ∨ 90 < mark.toNat)
    (notSmall : mark.toNat < 97 ∨ 122 < mark.toNat) : char.toLower = mark ↔ char = mark := by
  constructor
  · rintro rfl
    rcases toLower_cases char with same | ⟨bounds, shifted⟩
    · exact same.symm
    · omega
  · rintro rfl
    exact toLower_eq_self_of_small (by omega)

variable {test : Char → Bool}

@[simp]
theorem toList_toAsciiLowercase (text : String) :
    (toAsciiLowercase text).toList = text.toList.map Char.toLower := by
  simp [toAsciiLowercase]

theorem toAsciiLowercase_ofList (chars : List Char) :
    toAsciiLowercase (String.ofList chars) = String.ofList (chars.map Char.toLower) := by
  simp [toAsciiLowercase]

@[simp]
theorem toAsciiLowercase_idem (text : String) :
    toAsciiLowercase (toAsciiLowercase text) = toAsciiLowercase text := by
  rw [toAsciiLowercase, toList_toAsciiLowercase, List.map_map, toAsciiLowercase]
  exact congrArg String.ofList (List.map_congr_left fun char _ => toLower_toLower char)

theorem toAsciiLowercase_eq_iff {first second : String} :
    toAsciiLowercase first = toAsciiLowercase second ↔
      first.toList.map Char.toLower = second.toList.map Char.toLower := by
  rw [toAsciiLowercase, toAsciiLowercase, String.ofList_inj]

theorem toAsciiLowercase_eq_empty {text : String} :
    toAsciiLowercase text = "" ↔ text = "" := by
  rw [← String.toList_inj, ← String.toList_inj, toList_toAsciiLowercase]
  simp

theorem eqIgnoreAsciiCase_iff {first second : String} :
    eqIgnoreAsciiCase first second = true ↔
      toAsciiLowercase first = toAsciiLowercase second := by
  simp [eqIgnoreAsciiCase]

theorem afterLast_toAsciiLowercase (blind : ∀ char, test char.toLower = test char)
    (text : String) :
    afterLast test (toAsciiLowercase text) = toAsciiLowercase (afterLast test text) := by
  have same : ((fun char => !test char) ∘ Char.toLower) = fun char => !test char := by
    funext char
    simp [blind]
  rw [afterLast, afterLast, toList_toAsciiLowercase, toAsciiLowercase_ofList, ← List.map_reverse,
    List.takeWhile_map, same, List.map_reverse]

theorem toAsciiLowercase_stripSuffix {suffix text : String} :
    toAsciiLowercase ((stripSuffix suffix (toAsciiLowercase text)).getD (toAsciiLowercase text)) =
      (stripSuffix suffix (toAsciiLowercase text)).getD (toAsciiLowercase text) := by
  unfold stripSuffix
  split
  · rw [Option.getD_some, toAsciiLowercase_ofList, toList_toAsciiLowercase, List.map_take,
      List.map_map]
    refine congrArg String.ofList (congrArg (List.take _) ?_)
    exact List.map_congr_left fun char _ => toLower_toLower char
  · simp

theorem exists_map_eq_append_dot_iff {query pattern : List Char} :
    (∃ front, query.map Char.toLower = front ++ '.' :: pattern.map Char.toLower) ↔
      (query.length > pattern.length ∧ query[query.length - pattern.length - 1]? = some '.') ∧
        (query.drop (query.length - pattern.length)).map Char.toLower =
          pattern.map Char.toLower := by
  constructor
  · rintro ⟨front, split⟩
    rcases List.map_eq_append_iff.mp split with ⟨before, after, rfl, _, behind⟩
    rcases List.map_eq_cons_iff.mp behind with ⟨dot, rest, rfl, dot_eq, rest_eq⟩
    have length_eq : rest.length = pattern.length := by
      simpa using congrArg List.length rest_eq
    obtain rfl := (@toLower_eq_iff _ '.' (by decide) (by decide)).mp dot_eq
    have place : (before ++ '.' :: rest).length - pattern.length = before.length + 1 := by
      rw [List.length_append, List.length_cons]
      omega
    refine ⟨⟨by rw [List.length_append, List.length_cons]; omega, ?_⟩, ?_⟩
    · rw [place, Nat.add_sub_cancel, List.getElem?_append_right (Nat.le_refl _), Nat.sub_self]
      rfl
    · rw [place, List.drop_append, List.drop_eq_nil_of_le (Nat.le_succ _), Nat.add_sub_cancel_left]
      exact rest_eq
  · rintro ⟨⟨longer, dot⟩, same⟩
    rcases List.getElem?_eq_some_iff.mp dot with ⟨inside, dot_eq⟩
    refine ⟨(query.take (query.length - pattern.length - 1)).map Char.toLower, ?_⟩
    have next : query.length - pattern.length - 1 + 1 = query.length - pattern.length := by omega
    calc query.map Char.toLower
        = (query.take (query.length - pattern.length - 1) ++
            query.drop (query.length - pattern.length - 1)).map Char.toLower := by
          rw [List.take_append_drop]
      _ = (query.take (query.length - pattern.length - 1)).map Char.toLower ++
            '.' :: pattern.map Char.toLower := by
          rw [List.drop_eq_getElem_cons inside, dot_eq, next, List.map_append, List.map_cons, same]
          rfl

end Corduit.Text

/-!
# Parts

A text is its parts with the separator between them, and the parts of parts with
the separator between them are all of theirs.
-/

namespace Corduit.Text

section Parts

variable {separator : Char}

theorem splitChars_ne_nil (chars : List Char) : splitChars separator chars ≠ [] := by
  cases chars with
  | nil => exact List.cons_ne_nil _ _
  | cons char chars =>
      rw [splitChars]
      split
      · exact List.cons_ne_nil _ _
      · split <;> exact List.cons_ne_nil _ _

theorem splitChars_append (front back : List Char) :
    splitChars separator (front ++ separator :: back) =
      splitChars separator front ++ splitChars separator back := by
  induction front with
  | nil =>
      change splitChars separator (separator :: back) = [] :: splitChars separator back
      rw [splitChars, if_pos rfl]
  | cons char front ih =>
      rw [List.cons_append, splitChars, splitChars, ih]
      by_cases same : char = separator
      · rw [if_pos same, if_pos same]
        rfl
      · rw [if_neg same, if_neg same]
        cases parts : splitChars separator front with
        | nil => exact absurd parts (splitChars_ne_nil front)
        | cons part rest => rfl

theorem splitChars_of_not_mem {chars : List Char} (none : separator ∉ chars) :
    splitChars separator chars = [chars] := by
  induction chars with
  | nil => rfl
  | cons char chars ih =>
      rw [List.mem_cons, not_or] at none
      rw [splitChars, if_neg (Ne.symm none.1), ih none.2]

theorem not_mem_of_mem_splitChars {chars part : List Char}
    (member : part ∈ splitChars separator chars) : separator ∉ part := by
  induction chars generalizing part with
  | nil =>
      rw [List.mem_singleton.mp member]
      exact List.not_mem_nil
  | cons char chars ih =>
      rw [splitChars] at member
      by_cases same : char = separator
      · rw [if_pos same, List.mem_cons] at member
        rcases member with rfl | rest
        · exact List.not_mem_nil
        · exact ih rest
      · rw [if_neg same] at member
        cases parts : splitChars separator chars with
        | nil => exact absurd parts (splitChars_ne_nil chars)
        | cons first rest =>
            rw [parts] at member ih
            rcases List.mem_cons.mp member with rfl | later
            · rw [List.mem_cons, not_or]
              exact ⟨Ne.symm same, ih List.mem_cons_self⟩
            · exact ih (List.mem_cons_of_mem _ later)

theorem intercalate_splitChars (chars : List Char) :
    [separator].intercalate (splitChars separator chars) = chars := by
  induction chars with
  | nil => exact List.intercalate_singleton
  | cons char chars ih =>
      rw [splitChars]
      by_cases same : char = separator
      · rw [if_pos same, List.intercalate_cons_of_ne_nil (splitChars_ne_nil chars), ih, same]
        rfl
      · rw [if_neg same]
        cases parts : splitChars separator chars with
        | nil => exact absurd parts (splitChars_ne_nil chars)
        | cons first rest =>
            rw [parts] at ih
            dsimp only
            rw [List.intercalate_cons_cons_left, ih]

theorem splitChars_intercalate {parts : List (List Char)} (some : parts ≠ []) :
    splitChars separator ([separator].intercalate parts) =
      parts.flatMap (splitChars separator) := by
  induction parts with
  | nil => exact absurd rfl some
  | cons part parts ih =>
      by_cases last : parts = []
      · rw [last, List.intercalate_singleton, List.flatMap_singleton]
      · rw [List.intercalate_cons_of_ne_nil last, List.flatMap_cons, ← ih last, List.append_assoc]
        exact splitChars_append _ _

theorem toList_intercalate (texts : List String) :
    ((String.singleton separator).intercalate texts).toList =
      [separator].intercalate (texts.map String.toList) := by
  rw [String.toList_intercalate, String.toList_singleton]

theorem intercalate_split (text : String) :
    (String.singleton separator).intercalate (split separator text) = text := by
  apply String.toList_injective
  rw [toList_intercalate, split, List.map_map]
  simp only [Function.comp_def, String.toList_ofList, List.map_id']
  exact intercalate_splitChars _

theorem split_intercalate {texts : List String} (some : texts ≠ []) :
    split separator ((String.singleton separator).intercalate texts) =
      texts.flatMap (split separator) := by
  have chars : texts.map String.toList ≠ [] := fun none => some (List.map_eq_nil_iff.mp none)
  rw [split, toList_intercalate, splitChars_intercalate chars, List.flatMap_map, List.map_flatMap]
  rfl

theorem split_of_mem_split {text part : String} (member : part ∈ split separator text) :
    split separator part = [part] := by
  rcases List.mem_map.mp member with ⟨chars, inside, rfl⟩
  rw [split, String.toList_ofList, splitChars_of_not_mem (not_mem_of_mem_splitChars inside)]
  rfl

end Parts

end Corduit.Text

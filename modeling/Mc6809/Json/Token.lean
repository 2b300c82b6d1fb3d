/-
  JSON text as a sequence of tokens. Blanks between tokens are dropped. A number is kept
  as a natural number when it is written with digits alone, and as written otherwise. A
  string whose escapes name half of a surrogate pair has no text, but it is a token all
  the same.
-/
import Mc6809.Text.Hex

namespace Mc6809.Json

/-- The tokens of JSON. -/
inductive Token where
  | openBrace | closeBrace | openBracket | closeBracket | colon | comma
  | null
  | bool (value : Bool)
  | natural (value : Nat)
  | number (lexeme : String)
  | string (text : Option String)
deriving DecidableEq, Repr

/-- Space, line feed, carriage return and tab. -/
def isBlank (c : Char) : Bool := c = ' ' || c = '\n' || c = '\r' || c = '\t'

/-! ## Strings -/

/-- A part of a string: a character, or a 16-bit unit given by a numeric escape. -/
inductive Piece where
  | char (c : Char)
  | unit (value : Nat)
deriving DecidableEq, Repr

/-- The character of a two-character escape. -/
def escaped? : Char → Option Char
  | '"' => some '"'
  | '\\' => some '\\'
  | '/' => some '/'
  | 'b' => some '\x08'
  | 'f' => some '\x0c'
  | 'n' => some '\n'
  | 'r' => some '\r'
  | 't' => some '\t'
  | _ => none

/-- The parts of a string up to its closing quote, and what follows the quote. Control
characters have to be escaped. -/
def pieces? : List Char → Option (List Piece × List Char)
  | [] => none
  | '"' :: rest => some ([], rest)
  | '\\' :: 'u' :: a :: b :: c :: d :: rest =>
    match Hex.toNat? [a, b, c, d], pieces? rest with
    | some value, some (pieces, after) => some (.unit value :: pieces, after)
    | _, _ => none
  | '\\' :: e :: rest =>
    match escaped? e, pieces? rest with
    | some c, some (pieces, after) => some (.char c :: pieces, after)
    | _, _ => none
  | c :: rest =>
    if c = '\\' || c.toNat < 32 then none
    else match pieces? rest with
      | some (pieces, after) => some (.char c :: pieces, after)
      | none => none

/-- The characters of the parts. Two units that form a surrogate pair are one character;
any other surrogate is an error. -/
def decode? : List Piece → Option (List Char)
  | [] => some []
  | .char c :: rest => (decode? rest).map (c :: ·)
  | .unit high :: rest =>
    if 0xD800 ≤ high ∧ high < 0xDC00 then
      match rest with
      | .unit low :: rest =>
        if 0xDC00 ≤ low ∧ low < 0xE000 then
          (decode? rest).map
            (Char.ofNat (0x10000 + (high - 0xD800) * 0x400 + (low - 0xDC00)) :: ·)
        else none
      | _ => none
    else if 0xDC00 ≤ high ∧ high < 0xE000 then none
    else (decode? rest).map (Char.ofNat high :: ·)

/-! ## Numbers -/

/-- The digits in front and what follows them. -/
def digits (chars : List Char) : List Char × List Char :=
  (chars.takeWhile Char.isDigit, chars.dropWhile Char.isDigit)

/-- The number written by decimal digits. -/
def ofDigits (digits : List Char) : Nat :=
  digits.foldl (fun value c => 10 * value + (c.toNat - 48)) 0

/-- What follows a fraction, or the whole text if there is none. A point needs a digit. -/
def afterFraction? : List Char → Option (List Char)
  | '.' :: rest => if (digits rest).1.isEmpty then none else some (digits rest).2
  | chars => some chars

/-- What follows an exponent's sign, if there is one. -/
def afterSign : List Char → List Char
  | '+' :: rest | '-' :: rest => rest
  | chars => chars

/-- What follows an exponent, or the whole text if there is none. -/
def afterExponent? : List Char → Option (List Char)
  | 'e' :: rest | 'E' :: rest =>
    let rest := afterSign rest
    if (digits rest).1.isEmpty then none else some (digits rest).2
  | chars => some chars

/-- The digits before the point. A zero stands alone. -/
def wholePart : List Char → List Char × List Char
  | '0' :: rest => (['0'], rest)
  | chars => digits chars

/-- What follows a number without a sign. -/
def afterUnsigned? (chars : List Char) : Option (List Char) :=
  if (wholePart chars).1.isEmpty then none
  else (afterFraction? (wholePart chars).2).bind afterExponent?

/-- A number and what follows it. -/
def number? : List Char → Option (Token × List Char)
  | '-' :: chars =>
    match afterUnsigned? chars with
    | some after => some (written ('-' :: chars) after, after)
    | none => none
  | chars =>
    match afterUnsigned? chars with
    | some after =>
      if after.length = (wholePart chars).2.length then
        some (.natural (ofDigits (wholePart chars).1), after)
      else some (written chars after, after)
    | none => none
where
  /-- The characters before the rest. -/
  written (chars after : List Char) : Token :=
    .number (String.ofList (chars.take (chars.length - after.length)))

/-! ## Scanning -/

/-- The token in front of a text that does not start with a blank, and what follows. -/
def lexeme? : List Char → Option (Token × List Char)
  | '\x7b' :: rest => some (.openBrace, rest)
  | '\x7d' :: rest => some (.closeBrace, rest)
  | '[' :: rest => some (.openBracket, rest)
  | ']' :: rest => some (.closeBracket, rest)
  | ':' :: rest => some (.colon, rest)
  | ',' :: rest => some (.comma, rest)
  | 'n' :: 'u' :: 'l' :: 'l' :: rest => some (.null, rest)
  | 't' :: 'r' :: 'u' :: 'e' :: rest => some (.bool true, rest)
  | 'f' :: 'a' :: 'l' :: 's' :: 'e' :: rest => some (.bool false, rest)
  | '"' :: rest =>
    match pieces? rest with
    | some (pieces, after) => some (.string ((decode? pieces).map String.ofList), after)
    | none => none
  | chars => number? chars

theorem length_lt_of_pieces? {chars after : List Char} {pieces : List Piece}
    (h : pieces? chars = some (pieces, after)) : after.length < chars.length := by
  fun_induction pieces? chars generalizing pieces after with
  | case2 rest =>
    obtain ⟨_, rfl⟩ := by simpa using h
    simp
  | case3 a b c d rest value tail rest' hp _ ih =>
    have := ih hp
    obtain ⟨_, rfl⟩ := by simpa using h
    simp only [List.length_cons]
    omega
  | case5 e rest _ c tail rest' hp _ ih | case8 c rest _ _ _ _ tail rest' hp ih =>
    have := ih hp
    obtain ⟨_, rfl⟩ := by simpa using h
    simp only [List.length_cons]
    omega
  | _ => simp_all

theorem length_digits_le (chars : List Char) : (digits chars).2.length ≤ chars.length := by
  unfold digits
  exact (List.dropWhile_sublist _).length_le

theorem length_digits_lt {chars : List Char} (h : (digits chars).1.isEmpty = false) :
    (digits chars).2.length < chars.length := by
  have whole := congrArg List.length
    (List.takeWhile_append_dropWhile (p := Char.isDigit) (l := chars))
  unfold digits at *
  cases h' : chars.takeWhile Char.isDigit with
  | nil => simp [h'] at h
  | cons c cs => grind

theorem length_le_of_afterFraction? {chars after : List Char}
    (h : afterFraction? chars = some after) : after.length ≤ chars.length := by
  unfold afterFraction? at h
  have := length_digits_le
  split at h <;> grind

theorem length_afterSign_le (chars : List Char) : (afterSign chars).length ≤ chars.length := by
  unfold afterSign
  split <;> simp

theorem length_le_of_afterExponent? {chars after : List Char}
    (h : afterExponent? chars = some after) : after.length ≤ chars.length := by
  unfold afterExponent? at h
  have := length_digits_le
  have := length_afterSign_le
  split at h <;> grind

theorem length_wholePart_lt {chars : List Char} (h : (wholePart chars).1.isEmpty = false) :
    (wholePart chars).2.length < chars.length := by
  unfold wholePart at *
  split at h
  · simp
  · exact length_digits_lt h

theorem length_lt_of_afterUnsigned? {chars after : List Char}
    (h : afterUnsigned? chars = some after) : after.length < chars.length := by
  unfold afterUnsigned? at h
  split at h
  · contradiction
  · obtain ⟨rest, hf, he⟩ := Option.bind_eq_some_iff.mp h
    have := length_wholePart_lt (Bool.eq_false_iff.mpr ‹_›)
    have := length_le_of_afterFraction? hf
    have := length_le_of_afterExponent? he
    omega

theorem length_lt_of_number? {chars after : List Char} {token : Token}
    (h : number? chars = some (token, after)) : after.length < chars.length := by
  unfold number? at h
  split at h <;> split at h
  · have := length_lt_of_afterUnsigned? ‹_›
    grind
  · contradiction
  · have := length_lt_of_afterUnsigned? ‹_›
    grind
  · contradiction

theorem length_lt_of_lexeme? {chars after : List Char} {token : Token}
    (h : lexeme? chars = some (token, after)) : after.length < chars.length := by
  unfold lexeme? at h
  split at h
  all_goals try (simp only [Option.some.injEq, Prod.mk.injEq] at h; grind)
  · split at h
    · have := length_lt_of_pieces? ‹_›
      grind
    · contradiction
  · exact length_lt_of_number? h

/-- The tokens of a text, `none` if some part of it is no token. -/
def scan? (chars : List Char) : Option (List Token) :=
  match chars with
  | [] => some []
  | c :: rest =>
    if isBlank c then scan? rest
    else match _h : lexeme? (c :: rest) with
      | none => none
      | some (token, after) => (scan? after).map (token :: ·)
termination_by chars.length
decreasing_by
  · simp
  · exact length_lt_of_lexeme? ‹_›

end Mc6809.Json

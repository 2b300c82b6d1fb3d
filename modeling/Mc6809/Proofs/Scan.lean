/-
  Scanning inverts writing, token by token. The text of a token is scanned back to the token,
  whatever follows it (`lexeme?_text`); only a number must not be followed by something that could
  continue it. So a sequence of tokens is scanned back from every text that writes them one after
  the other with any blanks between them (`scan?_of_spaced`).

  This holds of every string as it is quoted here, and of the numbers that are integers. Numbers
  with a fraction or an exponent are scanned too, but nothing here says to what.
-/
import Mathlib.Data.List.Chain
import Mc6809.Json

namespace Mc6809.Json

variable {c : Char} {chars rest : List Char}

/-! ## Numbers -/

/-- The text does not begin with something that continues a number. -/
def EndsNumber (chars : List Char) : Prop :=
  ∀ c ∈ chars.head?, c.isDigit = false ∧ c ≠ '.' ∧ c ≠ 'e' ∧ c ≠ 'E'

theorem endsNumber_nil : EndsNumber [] := nofun

theorem digits_append (hchars : ∀ c ∈ chars, c.isDigit) (hrest : EndsNumber rest) :
    digits (chars ++ rest) = (chars, rest) := by
  unfold digits
  rw [List.takeWhile_append_of_pos hchars, List.dropWhile_append_of_pos hchars]
  cases rest with
  | nil => simp
  | cons c rest =>
    have hc : c.isDigit = false := (hrest c rfl).1
    simp [hc]

/-- Only zero begins with the digit zero. -/
theorem head?_toDigits {n : Nat} (hn : 0 < n) : (Nat.toDigits 10 n).head? ≠ some '0' := by
  induction n using Nat.strongRecOn with
  | ind n ih =>
    rw [Nat.toDigits_eq_if (by decide)]
    split
    · have hdigit : ∀ m : Fin 10, 0 < m.val → m.val.digitChar ≠ '0' := by decide
      simpa using hdigit ⟨n, ‹_›⟩ hn
    · rw [List.head?_append_of_ne_nil _ Nat.toDigits_ne_nil]
      exact ih (n / 10) (by omega) (by omega)

theorem wholePart_toDigits (n : Nat) (hrest : EndsNumber rest) :
    wholePart (Nat.toDigits 10 n ++ rest) = (Nat.toDigits 10 n, rest) := by
  cases n with
  | zero => rfl
  | succ n =>
    have hdigits : digits (Nat.toDigits 10 (n + 1) ++ rest) = (Nat.toDigits 10 (n + 1), rest) :=
      digits_append (fun _ => Nat.isDigit_of_mem_toDigits (by decide) (by decide)) hrest
    unfold wholePart
    split
    · next heq =>
      have hhead := congrArg List.head? heq
      rw [List.head?_append_of_ne_nil _ Nat.toDigits_ne_nil] at hhead
      exact absurd hhead (head?_toDigits (Nat.succ_pos n))
    · exact hdigits

theorem afterFraction?_of_endsNumber (h : EndsNumber rest) : afterFraction? rest = some rest := by
  unfold afterFraction?
  split
  · exact absurd rfl (h _ rfl).2.1
  · rfl

theorem afterExponent?_of_endsNumber (h : EndsNumber rest) : afterExponent? rest = some rest := by
  unfold afterExponent?
  split
  · exact absurd rfl (h _ rfl).2.2.1
  · exact absurd rfl (h _ rfl).2.2.2
  · rfl

theorem afterUnsigned?_toDigits (n : Nat) (hrest : EndsNumber rest) :
    afterUnsigned? (Nat.toDigits 10 n ++ rest) = some rest := by
  unfold afterUnsigned?
  rw [wholePart_toDigits n hrest, if_neg (by simp [Nat.toDigits_ne_nil]),
    afterFraction?_of_endsNumber hrest]
  exact afterExponent?_of_endsNumber hrest

theorem ofDigits_toDigits (n : Nat) : ofDigits (Nat.toDigits 10 n) = n :=
  Nat.ofDigitChars_ten_toDigits

theorem written_append (chars rest : List Char) :
    number?.written (chars ++ rest) rest = .number (String.ofList chars) := by
  simp [number?.written]

theorem number?_negative (n : Nat) (hrest : EndsNumber rest) :
    number? ('-' :: (Nat.toDigits 10 n ++ rest)) =
      some (.number ("-" ++ toString n), rest) := by
  have htext : String.ofList ('-' :: Nat.toDigits 10 n) = "-" ++ toString n := by
    rw [Nat.toString_eq_ofList_toDigits, ← List.singleton_append, String.ofList_append]
  rw [number?, afterUnsigned?_toDigits n hrest, ← htext, ← written_append _ rest]
  rfl

theorem number?_natural (n : Nat) (hrest : EndsNumber rest) :
    number? (Nat.toDigits 10 n ++ rest) = some (.natural n, rest) := by
  unfold number?
  split
  · next heq =>
    -- No digit is a minus sign.
    have hhead := congrArg List.head? heq
    rw [List.head?_append_of_ne_nil _ Nat.toDigits_ne_nil] at hhead
    have hdigit : '-'.isDigit := Nat.isDigit_of_mem_toDigits (by decide) (by decide)
      (List.mem_of_mem_head? hhead)
    cases hdigit
  · rw [afterUnsigned?_toDigits n hrest, wholePart_toDigits n hrest]
    simp [ofDigits_toDigits]

/-- A token that begins like a number is one. -/
theorem lexeme?_eq_number? (hc : c.isDigit ∨ c = '-') :
    lexeme? (c :: rest) = number? (c :: rest) := by
  unfold lexeme?
  split
  case h_11 => rfl
  all_goals
    next heq =>
      cases heq
      exact absurd hc (by decide)

/-! ## Strings -/

/-- The part of a string that a quoted character is read as. -/
def Piece.ofChar (c : Char) : Piece := if c.toNat < 32 then .unit c.toNat else .char c

/-- The four digits of the escape of a control character. -/
theorem toList_padded {n : Nat} (hn : n < 32) :
    ∃ a b c d, (Hex.padded 4 n).toList = [a, b, c, d] ∧ Hex.toNat? [a, b, c, d] = some n := by
  have hall : ∀ n : Fin 32, (Hex.padded 4 n.val).toList.length = 4 ∧
      Hex.toNat? (Hex.padded 4 n.val).toList = some n.val := by
    decide +kernel
  obtain ⟨hlength, hvalue⟩ := hall ⟨n, hn⟩
  match hdigits : (Hex.padded 4 n).toList with
  | [a, b, c, d] => exact ⟨a, b, c, d, rfl, hdigits ▸ hvalue⟩
  | [] | [_] | [_, _] | [_, _, _] | _ :: _ :: _ :: _ :: _ :: _ => simp [hdigits] at hlength

theorem pieces?_quoteChar (c : Char) (rest : List Char) :
    pieces? (quoteChar c ++ rest) =
      (pieces? rest).map fun (pieces, after) => (.ofChar c :: pieces, after) := by
  unfold quoteChar
  split
  · next h =>
    subst h
    cases hrest : pieces? rest <;> simp [pieces?, hrest, escaped?, Piece.ofChar]
  · split
    · next h =>
      subst h
      cases hrest : pieces? rest <;> simp [pieces?, hrest, escaped?, Piece.ofChar]
    · split
      · next h =>
        obtain ⟨p, q, r, s, hdigits, hvalue⟩ := toList_padded h
        rw [hdigits]
        cases hrest : pieces? rest <;> simp [pieces?, hrest, hvalue, Piece.ofChar, h]
      · next hquote hescape hcontrol =>
        cases hrest : pieces? rest <;> simp [pieces?, Piece.ofChar, *]

/-- What a quoted text is read as, up to its closing quote. -/
theorem pieces?_quoted (text rest : List Char) :
    pieces? (text.flatMap quoteChar ++ '"' :: rest) = some (text.map .ofChar, rest) := by
  induction text with
  | nil => simp [pieces?]
  | cons c text ih => simp [pieces?_quoteChar, ih]

theorem decode?_ofChar (text : List Char) : decode? (text.map .ofChar) = some text := by
  induction text with
  | nil => rfl
  | cons c text ih =>
    rw [List.map_cons, Piece.ofChar]
    split
    · have hhigh : ¬ 0xD800 ≤ c.toNat := by omega
      have hlow : ¬ 0xDC00 ≤ c.toNat := by omega
      rw [decode?.eq_def]
      simp [ih, hhigh, hlow]
    · simp [decode?, ih]

/-! ## Tokens -/

namespace Token

/-- The token can be written. A number that is not natural has to be a negative integer. -/
def Proper : Token → Prop
  | number lexeme => ∃ n : Nat, lexeme = "-" ++ toString n
  | _ => True

def isNumber : Token → Bool
  | natural _ | number _ => true
  | _ => false

/-- The token may come right after a number. -/
def endsNumber : Token → Bool
  | comma | closeBracket | closeBrace => true
  | _ => false

end Token

/-- The text of a token is scanned back to the token. -/
theorem lexeme?_text {token : Token} (hproper : token.Proper)
    (hrest : token.isNumber → EndsNumber rest) :
    lexeme? (token.text.toList ++ rest) = some (token, rest) := by
  cases token with
  | natural n =>
    have hnumber := number?_natural n (hrest rfl)
    rw [Token.text, Nat.toString_eq_ofList_toDigits, String.toList_ofList]
    cases hdigits : Nat.toDigits 10 n with
    | nil => exact absurd hdigits Nat.toDigits_ne_nil
    | cons c digits =>
      have hc : c.isDigit := Nat.isDigit_of_mem_toDigits (n := n) (b := 10) (by decide) (by decide)
        (hdigits ▸ List.mem_cons_self)
      rw [← hnumber, hdigits]
      exact lexeme?_eq_number? (.inl hc)
  | number lexeme =>
    obtain ⟨n, rfl⟩ := hproper
    have htext : (Token.number ("-" ++ toString n)).text.toList = '-' :: Nat.toDigits 10 n := by
      simp [Token.text]
    rw [htext, List.cons_append, lexeme?_eq_number? (.inr rfl)]
    exact number?_negative n (hrest rfl)
  | string text =>
    cases text with
    | none =>
      have htext : (Token.string none).text.toList ++ rest =
          '"' :: '\\' :: 'u' :: 'D' :: '8' :: '0' :: '0' :: '"' :: rest := rfl
      have hvalue : Hex.toNat? ['D', '8', '0', '0'] = some 0xD800 := by decide
      rw [htext]
      simp [lexeme?, pieces?, hvalue, decode?]
    | some text =>
      have htext : (Token.string (some text)).text.toList ++ rest =
          '"' :: (text.toList.flatMap quoteChar ++ '"' :: rest) := by
        simp [Token.text]
      rw [htext]
      simp [lexeme?, pieces?_quoted, decode?_ofChar]
  | bool value => cases value <;> rfl
  | _ => rfl

/-! ## Texts with blanks -/

/-- The text writes the tokens, with any blanks before, between and after them. -/
inductive Spaced : List Token → List Char → Prop where
  | nil : Spaced [] []
  | blank {tokens chars} {c : Char} :
      isBlank c → Spaced tokens chars → Spaced tokens (c :: chars)
  | token {tokens chars} (token : Token) :
      Spaced tokens chars → Spaced (token :: tokens) (token.text.toList ++ chars)

theorem Spaced.blanks {tokens : List Token} {blanks : List Char}
    (hblanks : ∀ c ∈ blanks, isBlank c) (h : Spaced tokens chars) :
    Spaced tokens (blanks ++ chars) := by
  induction blanks with
  | nil => exact h
  | cons c blanks ih =>
    rw [List.forall_mem_cons] at hblanks
    exact .blank hblanks.1 (ih hblanks.2)

/-- The same blanks after each token. -/
theorem spaced_flatMap (tokens : List Token) {blanks : List Char}
    (hblanks : ∀ c ∈ blanks, isBlank c) :
    Spaced tokens (tokens.flatMap fun token => token.text.toList ++ blanks) := by
  induction tokens with
  | nil => exact .nil
  | cons token tokens ih =>
    rw [List.flatMap_cons, List.append_assoc]
    exact .token token (ih.blanks hblanks)

/-- No blanks. -/
theorem spaced_text (tokens : List Token) :
    Spaced tokens (String.join (tokens.map Token.text)).toList := by
  have hspaced : Spaced tokens (tokens.flatMap fun token => token.text.toList ++ []) :=
    spaced_flatMap tokens nofun
  rw [String.toList_join, List.flatMap_map]
  simpa only [List.append_nil] using hspaced

/-- The second token may follow the first. -/
def Joins (first second : Token) : Prop := first.isNumber → second.endsNumber

theorem Spaced.endsNumber {tokens : List Token} (h : Spaced tokens chars)
    (htokens : ∀ token ∈ tokens.head?, token.endsNumber) : EndsNumber chars := by
  cases h with
  | nil => exact endsNumber_nil
  | blank hblank =>
    rintro _ ⟨⟩
    simp only [isBlank, Bool.or_eq_true, decide_eq_true_eq] at hblank
    rcases hblank with ((rfl | rfl) | rfl) | rfl <;> decide
  | token token =>
    have hends : token.endsNumber := htokens token rfl
    cases token with
    | comma | closeBracket | closeBrace =>
      rintro _ ⟨⟩
      decide
    | _ => cases hends

/-- No token begins with a blank. -/
theorem isBlank_of_lexeme? {token : Token} (h : lexeme? (c :: chars) = some (token, rest)) :
    isBlank c = false := by
  by_contra hblank
  simp only [isBlank, Bool.not_eq_false, Bool.or_eq_true, decide_eq_true_eq] at hblank
  rcases hblank with ((rfl | rfl) | rfl) | rfl <;>
    simp [lexeme?, number?, afterUnsigned?, wholePart, digits] at h

theorem scan?_of_lexeme? {token : Token} (h : lexeme? chars = some (token, rest)) :
    scan? chars = (scan? rest).map (token :: ·) := by
  cases chars with
  | nil => cases h
  | cons c chars =>
    rw [scan?, isBlank_of_lexeme? h, if_neg Bool.false_ne_true]
    split
    · next hnone =>
      rw [h] at hnone
      cases hnone
    · next hsome =>
      rw [h] at hsome
      cases hsome
      rfl

/-- A text that writes tokens is scanned back to them. -/
theorem scan?_of_spaced {tokens : List Token} (h : Spaced tokens chars)
    (hproper : ∀ token ∈ tokens, token.Proper) (hjoins : tokens.IsChain Joins) :
    scan? chars = some tokens := by
  induction h with
  | nil => rw [scan?]
  | blank hblank _ ih =>
    rw [scan?, if_pos hblank]
    exact ih hproper hjoins
  | @token tokens chars token hrest ih =>
    rw [List.isChain_cons] at hjoins
    obtain ⟨hfirst, hjoins⟩ := hjoins
    have hlexeme : lexeme? (token.text.toList ++ chars) = some (token, chars) :=
      lexeme?_text (hproper token List.mem_cons_self) fun hnumber =>
        hrest.endsNumber fun next hnext => hfirst next hnext hnumber
    have hscanned : scan? chars = some tokens :=
      ih (fun other hmem => hproper other (List.mem_cons_of_mem _ hmem)) hjoins
    rw [scan?_of_lexeme? hlexeme, hscanned]
    rfl

end Mc6809.Json

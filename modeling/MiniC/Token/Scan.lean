import MiniC.Source.Position
import MiniC.Text.Blank
import MiniC.Token.Basic

/-!
# Scanning

A scan reads one token off a text. It skips blanks; an operator character then begins a punctuator,
which takes a second character if the two form one, and any other character begins a word, which
goes on up to the next blank or operator character. A scan fails only where a position would leave
its range, and a token it finds makes the text shorter.
-/

namespace MiniC

namespace Punctuator

/-- The punctuator of a single operator character. -/
def ofChar? : Char → Option Punctuator
  | '\x7b' => some .openCurly
  | '\x7d' => some .closeCurly
  | '(' => some .openParen
  | ')' => some .closeParen
  | ';' => some .semicolon
  | '-' => some .minus
  | '~' => some .tilde
  | '+' => some .plus
  | '/' => some .slash
  | '*' => some .star
  | '!' => some .bang
  | '=' => some .equal
  | '<' => some .less
  | '>' => some .greater
  | '&' => some .ampersand
  | '|' => some .pipe
  | _ => none

/-- The punctuator that a second character makes of a single one. -/
def join? : Punctuator → Char → Option Punctuator
  | .bang, '=' => some .bangEqual
  | .equal, '=' => some .equalEqual
  | .less, '=' => some .lessEqual
  | .greater, '=' => some .greaterEqual
  | .ampersand, '&' => some .andAnd
  | .pipe, '|' => some .orOr
  | _, _ => none

end Punctuator

/-- Whether a character belongs to words: it is neither blank nor an operator character. -/
def isWordChar (c : Char) : Bool := !isBlank c && (Punctuator.ofChar? c).isNone

/-- Whether a character is a decimal digit. -/
def isDecimalDigit (c : Char) : Bool := '0' ≤ c && c ≤ '9'

/-- Whether a character is a hexadecimal digit of either case. -/
def isHexDigit (c : Char) : Bool :=
  isDecimalDigit c || ('a' ≤ c && c ≤ 'f') || ('A' ≤ c && c ≤ 'F')

/-- Whether a word is an integer literal: decimal digits only, or `0x` or `0X` and hexadecimal
digits only, of which there may be none. -/
def isLiteral (word : List Char) : Bool :=
  word.all isDecimalDigit ||
    match word with
    | '0' :: x :: digits => (x == 'x' || x == 'X') && digits.all isHexDigit
    | _ => false

namespace Token

/-- The token of a word: a keyword or an integer literal if it is one, else an identifier. -/
def ofWord (word : List Char) : Token :=
  match Keyword.ofText? (String.ofList word) with
  | some k => .keyword k
  | none =>
    if isLiteral word then .literal (String.ofList word) else .identifier (String.ofList word)

/-- The first token of a text that does not begin with a blank, and the text after it. -/
def first? : List Char → Option (Token × List Char)
  | [] => none
  | c :: rest =>
    match Punctuator.ofChar? c with
    | some p =>
      match rest with
      | [] => some (.punctuator p, [])
      | d :: rest' =>
        match p.join? d with
        | some q => some (.punctuator q, rest')
        | none => some (.punctuator p, rest)
    | none => some (ofWord (c :: rest.takeWhile isWordChar), rest.dropWhile isWordChar)

/-- A first token leaves a shorter text. -/
theorem length_lt_of_first?_eq_some {text rest : List Char} {t : Token}
    (h : first? text = some (t, rest)) : rest.length < text.length := by
  cases text with
  | nil => simp [first?] at h
  | cons c cs =>
    have hdrop : (cs.dropWhile isWordChar).length ≤ cs.length :=
      (List.dropWhile_sublist _).length_le
    simp only [first?] at h
    split at h
    · split at h
      · simp_all
      · split at h <;> simp only [Option.some.injEq, Prod.mk.injEq] at h <;>
          simp only [← h.2, List.length_cons] <;> omega
    · simp only [Option.some.injEq, Prod.mk.injEq] at h
      simp only [← h.2, List.length_cons]
      omega

end Token

/-- A text to be scanned, from the place of its first character on. -/
structure Cursor where
  /-- The characters not yet read. -/
  rest : List Char
  /-- The place of the first of them. -/
  position : Position
  deriving DecidableEq, Repr

namespace Cursor

/-- A cursor before the first character of a text. -/
def ofText (text : String) : Cursor := ⟨text.toList, .start⟩

/-- Reads one token, which lies where its first character does, or the blanks before the end. -/
def scan (c : Cursor) : Except Fault (Option (Located Token) × Cursor) := do
  let position ← c.position.past (c.rest.takeWhile isBlank)
  match Token.first? (c.rest.dropWhile isBlank) with
  | none => return (none, ⟨[], position⟩)
  | some (token, rest) =>
    return (some ⟨token, position⟩, ⟨rest, ← position.past token.text.toList⟩)

/-- A scan that finds a token leaves less to read. -/
theorem length_lt_of_scan_eq {c c' : Cursor} {t : Located Token}
    (h : c.scan = .ok (some t, c')) : c'.rest.length < c.rest.length := by
  have hdrop : (c.rest.dropWhile isBlank).length ≤ c.rest.length :=
    (List.dropWhile_sublist _).length_le
  simp only [scan, bind, Except.bind, pure, Except.pure] at h
  split at h
  · simp at h
  · split at h
    · simp at h
    · rename_i hfirst
      have hlt := Token.length_lt_of_first?_eq_some hfirst
      split at h
      · simp at h
      · simp only [Except.ok.injEq, Prod.mk.injEq] at h
        rw [← h.2]
        exact Nat.lt_of_lt_of_le hlt hdrop

/-- All tokens from a cursor on, and the place where the text ends. -/
def tokens (c : Cursor) : Except Fault (List (Located Token) × Position) :=
  match _h : c.scan with
  | .error fault => .error fault
  | .ok (none, c') => .ok ([], c'.position)
  | .ok (some t, c') => do
    let (ts, stop) ← c'.tokens
    return (t :: ts, stop)
termination_by c.rest.length
decreasing_by exact length_lt_of_scan_eq (by assumption)

end Cursor

/-- All tokens of a text, and the place where it ends. -/
def tokenize (text : String) : Except Fault (List (Located Token) × Position) :=
  (Cursor.ofText text).tokens

end MiniC

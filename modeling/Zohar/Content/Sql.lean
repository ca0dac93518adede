/-
The pieces of a content script: words, numbers, operators, strings, quoted identifiers, blob literals, single characters
of whitespace and the two kinds of comment, each as long as it can be. A text with anything else in it is not read:
identifiers in brackets or backticks, parameters, a blob literal whose digits do not come in pairs, an open string.
Whitespace is what `trim` takes off, which beyond ASCII the database reads as parts of words.
-/
import Zohar.Lib.Munch
import Zohar.Game.Tokens
import Mathlib

namespace Zohar.Content

open Zohar.Lib
open Zohar.Game (Text isWhitespace trim trimEnd)

/-- The quotes, of a string and of an identifier. -/
inductive Mark where
  | single
  | double
  deriving DecidableEq, Repr

def Mark.char : Mark → Char
  | single => .ofNat 39
  | double => .ofNat 34

/-- Where the reading of a piece is. -/
inductive SqlState where
  | space
  | semicolon
  | word
  /-- A word that is an `x`, with which a blob literal begins where a quote follows. -/
  | blobLetter
  /-- `odd` after an odd number of digits. -/
  | blob (odd : Bool)
  | blobClosed
  | zero
  | hex
  | number
  /-- After the `e` of a number, where a sign may follow. -/
  | exponent
  | exponentSign
  | operator (text : Text)
  /-- `closed` after a quote that ends the piece, unless another follows. -/
  | quoted (mark : Mark) (closed : Bool)
  | lineComment
  /-- `star` after an asterisk that may belong to the end of the comment. -/
  | blockComment (star : Bool)
  | blockClosed
  deriving DecidableEq, Repr

/-- The operators and punctuation, with every text that one of them begins with. -/
def operators : List Text :=
  [['+'], ['-'], ['*'], ['/'], ['%'], ['&'], ['|'], ['~'], ['<'], ['>'], ['='], ['!'], ['('], [')'], [','], ['.'],
    ['|', '|'], ['<', '='], ['<', '>'], ['<', '<'], ['>', '='], ['>', '>'], ['=', '='], ['!', '='], ['-', '>'],
    ['-', '>', '>']]

def startsWord (c : Char) : Bool := c.isAlpha || c = '_' || (128 ≤ c.toNat && !isWhitespace c)

def isWordChar (c : Char) : Bool := startsWord c || c.isDigit || c = '$'

def isHexDigit (c : Char) : Bool := c.isDigit || ('a' ≤ c && c ≤ 'f') || ('A' ≤ c && c ≤ 'F')

namespace SqlState

def start (c : Char) : Option SqlState :=
  if isWhitespace c then some space
  else if c = ';' then some semicolon
  else if c = Mark.single.char then some (quoted .single false)
  else if c = Mark.double.char then some (quoted .double false)
  else if c.isDigit then some (if c = '0' then zero else number)
  else if startsWord c then some (if c = 'x' ∨ c = 'X' then blobLetter else word)
  else if [c] ∈ operators then some (operator [c])
  else none

/-- What a number goes on with, signs apart. -/
def numberNext (c : Char) : Option SqlState :=
  if c = 'e' ∨ c = 'E' then some exponent else if isWordChar c ∨ c = '.' then some number else none

def next : SqlState → Char → Option SqlState
  | space, _ => none
  | semicolon, _ => none
  | word, c => if isWordChar c then some word else none
  | blobLetter, c => if c = Mark.single.char then some (blob false) else if isWordChar c then some word else none
  | blob odd, c =>
    if isHexDigit c then some (blob !odd) else if c = Mark.single.char ∧ odd = false then some blobClosed else none
  | blobClosed, _ => none
  | zero, c => if c = 'x' ∨ c = 'X' then some hex else numberNext c
  | hex, c => if isWordChar c then some hex else none
  | number, c => numberNext c
  | exponent, c => if c = '+' ∨ c = '-' then some exponentSign else numberNext c
  | exponentSign, c => if c.isDigit then some number else none
  | operator text, c =>
    if text = ['-'] ∧ c = '-' then some lineComment
    else if text = ['/'] ∧ c = '*' then some (blockComment false)
    else if text = ['.'] ∧ c.isDigit then some number
    else if text ++ [c] ∈ operators then some (operator (text ++ [c]))
    else none
  | quoted mark false, c => some (quoted mark (c = mark.char))
  | quoted mark true, c => if c = mark.char then some (quoted mark false) else none
  | lineComment, c => if c = '\n' then none else some lineComment
  | blockComment star, c => some (if star ∧ c = '/' then blockClosed else blockComment (c = '*'))
  | blockClosed, _ => none

def accepts : SqlState → Bool
  | blob _ => false
  | exponentSign => false
  | operator text => text ≠ ['!']
  | quoted _ closed => closed
  | blockComment _ => false
  | _ => true

def isComment : SqlState → Bool
  | lineComment | blockComment _ | blockClosed => true
  | _ => false

/-- Words, numbers, operators, strings, quoted identifiers, blob literals and semicolons. -/
def isToken (s : SqlState) : Bool := s ≠ space && !s.isComment

/-- The text of a piece in such a state is read without quotes, comments and ends of statements. -/
def isPlain : SqlState → Bool
  | semicolon | blob _ | blobClosed | quoted _ _ | lineComment | blockComment _ | blockClosed => false
  | _ => true

end SqlState

/-- How scripts are read. -/
def sqlPieces : Munch SqlState Char := ⟨SqlState.start, SqlState.next, SqlState.accepts⟩

abbrev SqlPiece := Munch.Piece SqlState Char

/-- The tokens of a text, if it can be read. -/
def tokens (text : Text) : Option (List SqlPiece) := sqlPieces.visibles SqlState.isToken text

/-! ## Characters -/

/-- No whitespace, semicolon or quote. -/
structure Ordinary (c : Char) : Prop where
  white : isWhitespace c = false
  semicolon : c ≠ ';'
  mark : ∀ mark : Mark, c ≠ mark.char

theorem isDigit_not_white {c : Char} (h : c.isDigit = true) : isWhitespace c = false := by
  have hrange : 48 ≤ c.toNat ∧ c.toNat ≤ 57 := by
    simp only [Char.isDigit, Bool.and_eq_true, decide_eq_true_eq, ge_iff_le, UInt32.le_iff_toNat_le] at h
    exact h
  unfold isWhitespace
  simp only [Bool.or_eq_false_iff, Bool.and_eq_false_iff, decide_eq_false_iff_not, beq_eq_false_iff_ne]
  omega

theorem isAlpha_not_white {c : Char} (h : c.isAlpha = true) : isWhitespace c = false := by
  have hrange : (65 ≤ c.toNat ∧ c.toNat ≤ 90) ∨ (97 ≤ c.toNat ∧ c.toNat ≤ 122) := by
    simp only [Char.isAlpha, Char.isUpper, Char.isLower, Bool.or_eq_true, Bool.and_eq_true,
      decide_eq_true_eq, ge_iff_le,
      UInt32.le_iff_toNat_le] at h
    exact h
  unfold isWhitespace
  simp only [Bool.or_eq_false_iff, Bool.and_eq_false_iff, decide_eq_false_iff_not, beq_eq_false_iff_ne]
  omega

theorem isWordChar_not_white {c : Char} (h : isWordChar c = true) : isWhitespace c = false := by
  unfold isWordChar startsWord at h
  simp only [Bool.or_eq_true, Bool.and_eq_true, Bool.not_eq_true', decide_eq_true_eq] at h
  rcases h with (((h | h) | ⟨-, h⟩) | h) | h
  · exact isAlpha_not_white h
  · rw [h]; rfl
  · exact h
  · exact isDigit_not_white h
  · rw [h]; rfl

theorem isWordChar_of_isDigit {c : Char} (h : c.isDigit = true) : isWordChar c = true := by
  rw [isWordChar, h, Bool.or_true, Bool.true_or]

/-- A character is not one of which something else holds. -/
theorem ne_of_pred {f : Char → Bool} {c : Char} (h : f c = true) (d : Char) (hd : f d = false) : c ≠ d := by
  rintro rfl
  rw [h] at hd
  cases hd

theorem isHexDigit_not_white {c : Char} (h : isHexDigit c = true) : isWhitespace c = false := by
  unfold isHexDigit at h
  simp only [Bool.or_eq_true, Bool.and_eq_true, decide_eq_true_eq, Char.le_def, UInt32.le_iff_toNat_le] at h
  rcases h with (h | ⟨hlo, hhi⟩) | ⟨hlo, hhi⟩
  · exact isDigit_not_white h
  · exact isAlpha_not_white
      (by simp [Char.isAlpha, Char.isLower, UInt32.le_iff_toNat_le]; exact .inr ⟨hlo, hhi.trans (by decide)⟩)
  · exact isAlpha_not_white
      (by simp [Char.isAlpha, Char.isUpper, UInt32.le_iff_toNat_le]; exact .inl ⟨hlo, hhi.trans (by decide)⟩)

/-- A character that is not whitespace, and is none of the few that begin a piece of another kind. -/
theorem Ordinary.of_ne {c : Char} (hwhite : isWhitespace c = false) (hsemi : c ≠ ';') (hsingle : c ≠ Mark.single.char)
    (hdouble : c ≠ Mark.double.char) : Ordinary c where
  white := hwhite
  semicolon := hsemi
  mark
    | .single => hsingle
    | .double => hdouble

theorem isWordChar_ordinary {c : Char} (h : isWordChar c = true) : Ordinary c ∧ c ≠ '-' ∧ c ≠ '/' := by
  have hne := ne_of_pred h
  exact ⟨.of_ne (isWordChar_not_white h) (hne _ (by decide)) (hne _ (by decide)) (hne _ (by decide)),
    hne _ (by decide), hne _ (by decide)⟩

/-- An operator ends in no whitespace, semicolon or quote, and one that ends in a dash or a slash is that character
alone. -/
theorem operators_last {text : Text} {c : Char} (h : text ++ [c] ∈ operators) :
    Ordinary c ∧ (c = '-' ∨ c = '/' → text = []) := by
  have hall : ∀ op ∈ operators, (op.getLast?.all fun d => isWhitespace d = false ∧ d ≠ ';' ∧ d ≠ Mark.single.char ∧
      d ≠ Mark.double.char ∧ (d = '-' ∨ d = '/' → op.length = 1)) = true := by
    decide
  have hlast := hall _ h
  rw [List.getLast?_concat, Option.all_some, decide_eq_true_eq] at hlast
  obtain ⟨hwhite, hsemi, hsingle, hdouble, hlength⟩ := hlast
  refine ⟨.of_ne hwhite hsemi hsingle hdouble, fun hc => ?_⟩
  have hone := hlength hc
  rw [List.length_append, List.length_singleton] at hone
  exact List.eq_nil_of_length_eq_zero (by omega)

/-! ## Steps -/

namespace SqlState

/-- The character leads to a plain state. After a dash or a slash, that is a state that tells whether a comment
begins. -/
structure Entered (c : Char) (s : SqlState) : Prop where
  plain : s.isPlain = true
  not_space : s ≠ space
  ordinary : Ordinary c
  dash : c = '-' → s = operator ['-'] ∨ s = exponentSign
  slash : c = '/' → s = operator ['/']

/-- What a piece can begin with. -/
inductive Starts : Char → SqlState → Prop where
  | space {c : Char} (h : isWhitespace c = true) : Starts c space
  | semicolon : Starts ';' semicolon
  | quoted (mark : Mark) : Starts mark.char (quoted mark false)
  | plain {c : Char} {s : SqlState} (h : Entered c s) (hop : ∀ op, s = operator op → op = [c]) : Starts c s

/-- What the reading of a piece can go on with. -/
inductive Goes : SqlState → Char → SqlState → Prop where
  | plain {s s' : SqlState} {c : Char} (hs : s.isPlain = true) (h : Entered c s') : Goes s c s'
  | blobQuote : Goes blobLetter Mark.single.char (blob false)
  | blobDigit {odd : Bool} {c : Char} (h : isHexDigit c = true) : Goes (blob odd) c (blob !odd)
  | blobClose : Goes (blob false) Mark.single.char blobClosed
  | dashes : Goes (operator ['-']) '-' lineComment
  | slashStar : Goes (operator ['/']) '*' (blockComment false)
  | inside (mark : Mark) (c : Char) : Goes (quoted mark false) c (quoted mark (c = mark.char))
  | again (mark : Mark) : Goes (quoted mark true) mark.char (quoted mark false)
  | line {c : Char} (h : c ≠ '\n') : Goes lineComment c lineComment
  | close : Goes (blockComment true) '/' blockClosed
  | block {star : Bool} {c : Char} (h : star = true → c ≠ '/') : Goes (blockComment star) c (blockComment (c = '*'))

theorem Entered.of_word {c : Char} {s : SqlState} (h : isWordChar c = true) (hs : s.isPlain = true)
    (hspace : s ≠ space) :
    Entered c s := by
  obtain ⟨hordinary, hdash, hslash⟩ := isWordChar_ordinary h
  exact ⟨hs, hspace, hordinary, fun hc => absurd hc hdash, fun hc => absurd hc hslash⟩

theorem Entered.of_operator (text : Text) {c : Char} (h : text ++ [c] ∈ operators) :
    Entered c (operator (text ++ [c])) := by
  obtain ⟨hordinary, hfirst⟩ := operators_last h
  refine ⟨rfl, by simp, hordinary, ?_, ?_⟩
  · rintro rfl
    rw [hfirst (.inl rfl)]
    exact .inl rfl
  · rintro rfl
    rw [hfirst (.inr rfl)]
    rfl

theorem start_cases {c : Char} {s : SqlState} (h : start c = some s) : Starts c s := by
  unfold start at h
  split at h
  case isTrue hwhite =>
    cases h
    exact .space hwhite
  split at h
  case isTrue hsemi =>
    cases h
    exact hsemi ▸ .semicolon
  split at h
  case isTrue hsingle =>
    cases h
    exact hsingle ▸ .quoted .single
  split at h
  case isTrue hdouble =>
    cases h
    exact hdouble ▸ .quoted .double
  split at h
  case isTrue hdigit =>
    cases h
    split
    · exact .plain (.of_word (isWordChar_of_isDigit hdigit) rfl (by decide)) nofun
    · exact .plain (.of_word (isWordChar_of_isDigit hdigit) rfl (by decide)) nofun
  split at h
  case isTrue hword =>
    cases h
    have hchar : isWordChar c = true := by rw [isWordChar, hword]; rfl
    split
    · exact .plain (.of_word hchar rfl (by decide)) nofun
    · exact .plain (.of_word hchar rfl (by decide)) nofun
  split at h
  case isTrue hop =>
    cases h
    exact .plain (.of_operator [] hop) fun op heq => (operator.inj heq).symm
  case isFalse => cases h

theorem numberNext_entered {c : Char} {s : SqlState} (h : numberNext c = some s) : Entered c s := by
  unfold numberNext at h
  split at h
  case isTrue he =>
    cases h
    refine .of_word ?_ rfl (by decide)
    rcases he with rfl | rfl <;> rfl
  split at h
  case isFalse => cases h
  case isTrue hc =>
    cases h
    rcases hc with hword | rfl
    · exact .of_word hword rfl (by decide)
    · exact ⟨rfl, by decide, .of_ne (by decide) (by decide) (by decide) (by decide), by decide, by decide⟩

theorem next_cases {s s' : SqlState} {c : Char} (h : s.next c = some s') : Goes s c s' := by
  cases s with
  | space => cases h
  | semicolon => cases h
  | word =>
    rw [next] at h
    split at h
    case isTrue hword => cases h; exact .plain rfl (.of_word hword rfl (by decide))
    case isFalse => cases h
  | blobLetter =>
    rw [next] at h
    split at h
    case isTrue hquote => cases h; exact hquote ▸ .blobQuote
    split at h
    case isTrue hword => cases h; exact .plain rfl (.of_word hword rfl (by decide))
    case isFalse => cases h
  | blob odd =>
    rw [next] at h
    split at h
    case isTrue hdigit => cases h; exact .blobDigit hdigit
    split at h
    case isTrue hquote =>
      cases h
      rw [hquote.1, hquote.2]
      exact .blobClose
    case isFalse => cases h
  | blobClosed => cases h
  | zero =>
    rw [next] at h
    split at h
    case isTrue hx =>
      cases h
      refine .plain rfl (.of_word ?_ rfl (by decide))
      rcases hx with rfl | rfl <;> rfl
    case isFalse => exact .plain rfl (numberNext_entered h)
  | hex =>
    rw [next] at h
    split at h
    case isTrue hword => cases h; exact .plain rfl (.of_word hword rfl (by decide))
    case isFalse => cases h
  | number => exact .plain rfl (numberNext_entered h)
  | exponent =>
    rw [next] at h
    split at h
    case isTrue hsign =>
      cases h
      apply Goes.plain rfl
      rcases hsign with rfl | rfl
      · exact ⟨rfl, by decide, .of_ne (by decide) (by decide) (by decide) (by decide), by decide, by decide⟩
      · exact ⟨rfl, by decide, .of_ne (by decide) (by decide) (by decide) (by decide), fun _ => .inr rfl, by decide⟩
    case isFalse => exact .plain rfl (numberNext_entered h)
  | exponentSign =>
    rw [next] at h
    split at h
    case isTrue hdigit => cases h; exact .plain rfl (.of_word (isWordChar_of_isDigit hdigit) rfl (by decide))
    case isFalse => cases h
  | operator text =>
    rw [next] at h
    split at h
    case isTrue hline =>
      cases h
      rw [hline.1, hline.2]
      exact .dashes
    split at h
    case isTrue hblock =>
      cases h
      rw [hblock.1, hblock.2]
      exact .slashStar
    split at h
    case isTrue hnumber => cases h; exact .plain rfl (.of_word (isWordChar_of_isDigit hnumber.2) rfl (by decide))
    split at h
    case isTrue hop => cases h; exact .plain rfl (.of_operator text hop)
    case isFalse => cases h
  | quoted mark closed =>
    cases closed with
    | false => cases h; exact .inside mark c
    | true =>
      rw [next] at h
      split at h
      case isTrue hmark => cases h; exact hmark ▸ .again mark
      case isFalse => cases h
  | lineComment =>
    rw [next] at h
    split at h
    case isTrue => cases h
    case isFalse hc => cases h; exact .line hc
  | blockComment star =>
    rw [next, Option.some.injEq] at h
    split at h
    case isTrue hend =>
      rw [← h, hend.1, hend.2]
      exact .close
    case isFalse hopen =>
      rw [← h]
      exact .block fun hstar hc => hopen ⟨hstar, hc⟩
  | blockClosed => cases h

/-- A step to an operator adds the character to its text. -/
theorem next_operator {s : SqlState} {c : Char} {text : Text} (h : s.next c = some (operator text)) :
    ∃ before, s = operator before ∧ text = before ++ [c] := by
  cases s with
  | operator before =>
    rw [next] at h
    refine ⟨before, rfl, ?_⟩
    repeat' split at h
    all_goals first | (cases h; rfl) | cases h
  | quoted mark closed => cases closed <;> simp [next] at h
  | blockComment star =>
    rw [next, Option.some.injEq] at h
    split at h <;> cases h
  | _ =>
    simp only [next, numberNext] at h
    repeat' split at h
    all_goals cases h

/-- Only a piece's first character leads to the letter of a blob literal. -/
theorem next_ne_blobLetter (s : SqlState) (c : Char) : s.next c ≠ some blobLetter := by
  intro h
  cases s with
  | quoted mark closed => cases closed <;> simp [next] at h
  | _ =>
    simp only [next, numberNext] at h
    repeat' split at h
    all_goals cases h

theorem isPlain_not_comment {s : SqlState} (h : s.isPlain = true) : s.isComment = false := by
  cases s <;> first | rfl | cases h

end SqlState

/-! ## Pieces -/

open SqlState

theorem space_alone : sqlPieces.Alone space := by
  refine ⟨fun _ => rfl, fun s c h => ?_⟩
  cases next_cases h with
  | plain _ h => exact h.not_space rfl

/-- How the pieces are written. -/
inductive Shape : SqlPiece → Prop where
  | space {c : Char} (h : isWhitespace c = true) : Shape ⟨space, [c]⟩
  | semicolon : Shape ⟨semicolon, [';']⟩
  | quoted (mark : Mark) {body : Text} (h : sqlPieces.run (quoted mark false) body = some (quoted mark true)) :
    Shape ⟨quoted mark true, mark.char :: body⟩
  | blob {c : Char} {body : Text} (h : Entered c blobLetter)
    (hrun : sqlPieces.run (blob false) body = some blobClosed) :
    Shape ⟨blobClosed, c :: Mark.single.char :: body⟩
  | line {body : Text} (h : '\n' ∉ body) : Shape ⟨lineComment, '-' :: '-' :: body⟩
  | block {body : Text} (h : sqlPieces.run (blockComment false) body = some blockClosed) :
    Shape ⟨blockClosed, '/' :: '*' :: body⟩
  | plain {c : Char} {text : Text} {s s' : SqlState} (h : Entered c s) (hrun : sqlPieces.run s text = some s')
    (hplain : s'.isPlain = true) (haccepts : s'.accepts = true) : Shape ⟨s', c :: text⟩

/-- The first step of a run, and the rest of it. -/
theorem run_cons {s s' : SqlState} {c : Char} {text : Text} (h : sqlPieces.run s (c :: text) = some s') :
    ∃ s₁, Goes s c s₁ ∧ s.next c = some s₁ ∧ sqlPieces.run s₁ text = some s' := by
  rw [Munch.run, Option.bind_eq_some_iff] at h
  obtain ⟨s₁, hnext, hrun⟩ := h
  exact ⟨s₁, next_cases hnext, hnext, hrun⟩

theorem run_operator {s : SqlState} {text op : Text} (h : sqlPieces.run s text = some (operator op)) :
    ∃ before, s = operator before ∧ op = before ++ text := by
  induction text generalizing s with
  | nil =>
    rw [Munch.run, Option.some.injEq] at h
    exact ⟨op, h, (List.append_nil op).symm⟩
  | cons c text ih =>
    obtain ⟨s₁, -, hnext, hrun⟩ := run_cons h
    obtain ⟨middle, rfl, rfl⟩ := ih hrun
    obtain ⟨before, hbefore, rfl⟩ := next_operator hnext
    exact ⟨before, hbefore, by rw [List.append_assoc, List.singleton_append]⟩

theorem run_quoted {mark : Mark} {closed : Bool} {s' : SqlState} {text : Text}
    (h : sqlPieces.run (quoted mark closed) text = some s') : ∃ closed', s' = quoted mark closed' := by
  induction text generalizing closed with
  | nil =>
    rw [Munch.run, Option.some.injEq] at h
    exact ⟨closed, h.symm⟩
  | cons c text ih =>
    obtain ⟨s₁, hgoes, -, hrun⟩ := run_cons h
    cases hgoes with
    | plain hs => cases hs
    | inside => exact ih hrun
    | again => exact ih hrun

theorem run_blobLetter {s : SqlState} {text : Text} (h : sqlPieces.run s text = some blobLetter) :
    s = blobLetter ∧ text = [] := by
  induction text generalizing s with
  | nil =>
    rw [Munch.run, Option.some.injEq] at h
    exact ⟨h, rfl⟩
  | cons c text ih =>
    obtain ⟨s₁, -, hnext, hrun⟩ := run_cons h
    rw [(ih hrun).1] at hnext
    exact absurd hnext (next_ne_blobLetter s c)

theorem run_blob {odd : Bool} {s' : SqlState} {text : Text} (h : sqlPieces.run (blob odd) text = some s') :
    s' = blobClosed ∨ ∃ odd', s' = blob odd' := by
  induction text generalizing odd with
  | nil =>
    rw [Munch.run, Option.some.injEq] at h
    exact .inr ⟨odd, h.symm⟩
  | cons c text ih =>
    obtain ⟨s₁, hgoes, -, hrun⟩ := run_cons h
    cases hgoes with
    | plain hs => cases hs
    | blobDigit => exact ih hrun
    | blobClose => exact .inl (Munch.run_still (fun _ => rfl) hrun).2

theorem run_line {s' : SqlState} {text : Text} (h : sqlPieces.run lineComment text = some s') :
    s' = lineComment ∧ '\n' ∉ text := by
  induction text with
  | nil =>
    rw [Munch.run, Option.some.injEq] at h
    exact ⟨h.symm, List.not_mem_nil⟩
  | cons c text ih =>
    obtain ⟨s₁, hgoes, -, hrun⟩ := run_cons h
    cases hgoes with
    | plain hs => cases hs
    | line hc =>
      obtain ⟨hstate, hnot⟩ := ih hrun
      exact ⟨hstate, fun hmem => (List.mem_cons.1 hmem).elim (fun hnl => hc hnl.symm) hnot⟩

theorem run_block {star : Bool} {s' : SqlState} {text : Text} (h : sqlPieces.run (blockComment star) text = some s') :
    s' = blockClosed ∨ ∃ star', s' = blockComment star' := by
  induction text generalizing star with
  | nil =>
    rw [Munch.run, Option.some.injEq] at h
    exact .inr ⟨star, h.symm⟩
  | cons c text ih =>
    obtain ⟨s₁, hgoes, -, hrun⟩ := run_cons h
    cases hgoes with
    | plain hs => cases hs
    | close => exact .inl (Munch.run_still (fun _ => rfl) hrun).2
    | block => exact ih hrun

/-- A run comes to a plain state through plain states only. -/
theorem isPlain_back (s : SqlState) (c : Char) (s' : SqlState) (h : s.next c = some s') (hplain : s'.isPlain = true) :
    s.isPlain = true := by
  cases next_cases h with
  | plain hs => exact hs
  | _ => cases hplain

/-- A run out of the plain states goes through the beginning of a comment or of a blob literal. -/
theorem run_leaves {s s' : SqlState} {text : Text} (h : sqlPieces.run s text = some s') (hs : s.isPlain = true)
    (hs' : s'.isPlain = false) :
    (∃ before body, text = before ++ '-' :: body ∧ sqlPieces.run s before = some (operator ['-']) ∧
        sqlPieces.run lineComment body = some s') ∨
      (∃ before body, text = before ++ '*' :: body ∧ sqlPieces.run s before = some (operator ['/']) ∧
        sqlPieces.run (blockComment false) body = some s') ∨
      ∃ before body, text = before ++ Mark.single.char :: body ∧ sqlPieces.run s before = some blobLetter ∧
        sqlPieces.run (blob false) body = some s' := by
  induction text generalizing s with
  | nil =>
    rw [Munch.run, Option.some.injEq] at h
    rw [h, hs'] at hs
    cases hs
  | cons c text ih =>
    obtain ⟨s₁, hgoes, hnext, hrun⟩ := run_cons h
    have hcons {before : Text} {t : SqlState} (hbefore : sqlPieces.run s₁ before = some t) :
        sqlPieces.run s (c :: before) = some t := by
      rw [Munch.run]
      exact (congrArg (Option.bind · fun s₂ => sqlPieces.run s₂ before) hnext).trans hbefore
    cases hgoes with
    | plain _ h =>
      rcases ih hrun h.plain with ⟨before, body, rfl, hbefore, hbody⟩ | ⟨before, body, rfl, hbefore, hbody⟩ |
        ⟨before, body, rfl, hbefore, hbody⟩
      · exact .inl ⟨c :: before, body, rfl, hcons hbefore, hbody⟩
      · exact .inr (.inl ⟨c :: before, body, rfl, hcons hbefore, hbody⟩)
      · exact .inr (.inr ⟨c :: before, body, rfl, hcons hbefore, hbody⟩)
    | dashes => exact .inl ⟨[], text, rfl, rfl, hrun⟩
    | slashStar => exact .inr (.inl ⟨[], text, rfl, rfl, hrun⟩)
    | blobQuote => exact .inr (.inr ⟨[], text, rfl, rfl, hrun⟩)
    | _ => cases hs

/-- The text before a comment's second character is the first one. -/
theorem run_to_operator {c d : Char} {s : SqlState} {before : Text} (hop : ∀ op, s = operator op → op = [c])
    (h : sqlPieces.run s before = some (operator [d])) : c = d ∧ before = [] := by
  obtain ⟨op, hs, htext⟩ := run_operator h
  rw [hop op hs, List.singleton_append, List.cons.injEq] at htext
  exact ⟨htext.1.symm, htext.2.symm⟩

theorem shape_of_valid {p : SqlPiece} (h : sqlPieces.Valid p) : Shape p := by
  obtain ⟨c, text, s, htext, hstart, hrun, haccepts⟩ := h
  obtain ⟨s', written⟩ := p
  subst htext
  cases start_cases hstart with
  | space hwhite =>
    obtain ⟨rfl, rfl⟩ := Munch.run_still (fun _ => rfl) hrun
    exact .space hwhite
  | semicolon =>
    obtain ⟨rfl, rfl⟩ := Munch.run_still (fun _ => rfl) hrun
    exact .semicolon
  | quoted mark =>
    obtain ⟨closed, rfl⟩ := run_quoted hrun
    obtain rfl : closed = true := haccepts
    exact .quoted mark hrun
  | plain h hop =>
    cases hplain : s'.isPlain with
    | true => exact .plain h hrun hplain haccepts
    | false =>
      -- the way out of the plain states is through the second character of a comment or of a blob literal
      rcases run_leaves hrun h.plain hplain
        with ⟨before, body, rfl, hbefore, hbody⟩ | ⟨before, body, rfl, hbefore, hbody⟩ |
        ⟨before, body, rfl, hbefore, hbody⟩
      · obtain ⟨rfl, rfl⟩ := run_to_operator hop hbefore
        obtain ⟨rfl, hnot⟩ := run_line hbody
        exact .line hnot
      · obtain ⟨rfl, rfl⟩ := run_to_operator hop hbefore
        rcases run_block hbody with rfl | ⟨star, rfl⟩
        · exact .block hbody
        · cases haccepts
      · obtain ⟨rfl, rfl⟩ := run_blobLetter hbefore
        rcases run_blob hbody with rfl | ⟨odd, rfl⟩
        · exact .blob h hbody
        · cases haccepts

/-! ## Whitespace around a text -/

/-- Whitespace is a piece of its own, or goes on with a comment or with what may not end there. -/
theorem white_blank {c : Char} (h : isWhitespace c = true) : sqlPieces.Blank isToken c where
  start := ⟨space, by exact if_pos h, rfl, rfl, fun _ => rfl⟩
  next s s' hnext := by
    have hmark (mark : Mark) : c ≠ mark.char := by
      rintro rfl
      cases mark <;> cases h
    cases next_cases hnext with
    | plain _ hentered =>
      rw [hentered.ordinary.white] at h
      cases h
    | blobQuote => cases h
    | blobDigit hdigit =>
      rw [isHexDigit_not_white hdigit] at h
      cases h
    | blobClose => cases h
    | dashes => cases h
    | slashStar => cases h
    | inside mark => simp [sqlPieces, accepts, hmark mark]
    | again mark => exact absurd rfl (hmark mark)
    | line => exact ⟨rfl, fun _ => ⟨rfl, rfl⟩⟩
    | close => cases h
    | block => exact ⟨rfl, fun hfalse => by cases hfalse⟩

/-- `trim` takes whitespace from both ends and nothing else. -/
theorem exists_trim (text : Text) : ∃ before after, text = before ++ trim text ++ after ∧
    (∀ c ∈ before, isWhitespace c = true) ∧ ∀ c ∈ after, isWhitespace c = true := by
  have hend : ∀ text : Text, ∃ after, text = trimEnd text ++ after ∧ ∀ c ∈ after, isWhitespace c = true := by
    intro text
    induction text with
    | nil => exact ⟨[], rfl, by simp⟩
    | cons c text ih =>
      obtain ⟨after, htext, hafter⟩ := ih
      rw [trimEnd]
      split
      case h_1 hnone =>
        rw [hnone, List.nil_append] at htext
        split
        case isTrue hc => exact ⟨c :: after, by rw [htext, List.nil_append], List.forall_mem_cons.2 ⟨hc, hafter⟩⟩
        case isFalse => exact ⟨after, by rw [htext, List.singleton_append], hafter⟩
      case h_2 kept hkept => exact ⟨after, by rw [List.cons_append, ← htext], hafter⟩
  obtain ⟨after, htext, hafter⟩ := hend (text.dropWhile isWhitespace)
  refine ⟨text.takeWhile isWhitespace, after, ?_, fun c hc => List.mem_takeWhile_imp hc, hafter⟩
  rw [trim, List.append_assoc, ← htext, List.takeWhile_append_dropWhile]

/-- Trimming leaves the tokens of a text alone. -/
theorem tokens_trim (text : Text) : tokens (trim text) = tokens text := by
  obtain ⟨before, after, htext, hbefore, hafter⟩ := exists_trim text
  generalize trim text = kept at htext
  subst htext
  have hleft : tokens (before ++ kept) = tokens kept := by
    induction before with
    | nil => rfl
    | cons c before ih =>
      rw [List.forall_mem_cons] at hbefore
      exact ((white_blank hbefore.1).visibles_cons _).trans (ih hbefore.2)
  have hright : tokens (before ++ kept ++ after) = tokens (before ++ kept) := by
    induction after using List.reverseRecOn with
    | nil => rw [List.append_nil]
    | append_singleton after c ih =>
      rw [List.forall_mem_append, List.forall_mem_singleton] at hafter
      rw [← List.append_assoc]
      exact ((white_blank hafter.2).visibles_append _).trans (ih hafter.1)
  rw [hright, hleft]

theorem trim_eq_nil_iff (text : Text) : trim text = [] ↔ ∀ c ∈ text, isWhitespace c = true := by
  constructor
  · intro h
    obtain ⟨before, after, htext, hbefore, hafter⟩ := exists_trim text
    rw [htext, h, List.append_nil, List.forall_mem_append]
    exact ⟨hbefore, hafter⟩
  · intro h
    rw [trim, List.dropWhile_eq_nil_iff.2 h, trimEnd]

/-! ## Texts without comments -/

/-- A hidden piece that is no comment is whitespace. -/
theorem Shape.white {p : SqlPiece} (h : Shape p) (hhidden : p.state.isToken = false)
    (hcomment : p.state.isComment = false) :
    p.state = SqlState.space ∧ ∀ c ∈ p.text, isWhitespace c = true := by
  have hstate : p.state = SqlState.space := by
    rw [isToken, hcomment, Bool.not_false, Bool.and_true, decide_eq_false_iff_not, not_not] at hhidden
    exact hhidden
  refine ⟨hstate, ?_⟩
  cases h with
  | space hc => exact List.forall_mem_singleton.2 hc
  | plain hentered hrun =>
    obtain rfl := space_alone.run_eq (hrun.trans (congrArg some hstate))
    exact absurd rfl hentered.not_space
  | _ => cases hstate

/-- The other pieces begin with what is no whitespace. -/
theorem Shape.not_white {p : SqlPiece} (h : Shape p) (hspace : p.state ≠ SqlState.space) :
    ∃ c ∈ p.text, isWhitespace c = false := by
  cases h with
  | space => exact absurd rfl hspace
  | semicolon => exact ⟨';', List.mem_cons_self, by decide⟩
  | quoted mark => exact ⟨mark.char, List.mem_cons_self, by cases mark <;> decide⟩
  | blob hentered => exact ⟨_, List.mem_cons_self, hentered.ordinary.white⟩
  | line => exact ⟨'-', List.mem_cons_self, by decide⟩
  | block => exact ⟨'/', List.mem_cons_self, by decide⟩
  | plain hentered => exact ⟨_, List.mem_cons_self, hentered.ordinary.white⟩

theorem Shape.comment {p : SqlPiece} (h : Shape p) (hcomment : p.state.isComment = true) :
    p.state = lineComment ∨ p.state = blockClosed := by
  cases h with
  | line => exact .inl rfl
  | block => exact .inr rfl
  | plain _ _ hplain => exact absurd hcomment (by rw [isPlain_not_comment hplain]; decide)
  | _ => cases hcomment

section NoComments

variable {pieces : List SqlPiece} (hvalid : ∀ p ∈ pieces, sqlPieces.Valid p)
  (hcomment : ∀ p ∈ pieces, p.state.isComment = false)

include hvalid hcomment

/-- What the tokens leave of a text without comments is whitespace. -/
theorem white_of_hidden : ∀ c ∈ Munch.flat (pieces.filter fun p => !p.state.isToken), isWhitespace c = true := by
  intro c hc
  obtain ⟨p, hp, hcp⟩ := List.mem_flatMap.1 hc
  rw [List.mem_filter, Bool.not_eq_true'] at hp
  exact ((shape_of_valid (hvalid p hp.1)).white hp.2 (hcomment p hp.1)).2 c hcp

/-- Such a text is read as the tokens that it was put together from exactly if none of its pieces goes on into the
next. -/
theorem tokens_flat_iff : tokens (Munch.flat pieces) = some (pieces.filter fun p => p.state.isToken) ↔
    pieces.IsChain sqlPieces.Stops := by
  constructor
  · intro h
    obtain ⟨others, hlex, hsame⟩ := Option.map_eq_some_iff.1 h
    obtain ⟨htext, hvalid', hchain⟩ := Munch.lex_eq_some_iff.1 hlex
    -- the tokens leave the same characters, so what is hidden in the reading is whitespace too
    have hperm := Munch.flat_hidden_perm htext hsame
    have hspace : ∀ q ∈ others, q.state.isToken = false → q.state = space := by
      intro q hq hhidden
      by_contra hne
      obtain ⟨c, hc, hwhite⟩ := (shape_of_valid (hvalid' q hq)).not_white hne
      have hmem : c ∈ Munch.flat (others.filter fun p => !p.state.isToken) :=
        List.mem_flatMap.2 ⟨q, List.mem_filter.2 ⟨hq, by rw [hhidden]; rfl⟩, hc⟩
      rw [white_of_hidden hvalid hcomment c (hperm.mem_iff.1 hmem)] at hwhite
      cases hwhite
    have hspace' : ∀ p ∈ pieces, p.state.isToken = false → p.state = space := fun p hp hhidden =>
      ((shape_of_valid (hvalid p hp)).white hhidden (hcomment p hp)).1
    have heq : others = pieces := Munch.eq_of_visible_eq hvalid' hvalid
      (fun q hq hhidden => (hspace q hq hhidden).symm ▸ space_alone)
      (fun p hp hhidden => (hspace' p hp hhidden).symm ▸ space_alone) htext hsame
    exact heq ▸ hchain
  · intro h
    exact Option.map_eq_some_iff.2 ⟨pieces, Munch.lex_eq_some_iff.2 ⟨rfl, hvalid, h⟩, rfl⟩

/-- Nothing is left of such a text by trimming exactly if it has no tokens. -/
theorem trim_flat_eq_nil_iff : trim (Munch.flat pieces) = [] ↔ (pieces.filter fun p => p.state.isToken) = [] := by
  rw [trim_eq_nil_iff, List.filter_eq_nil_iff]
  constructor
  · intro h p hp htoken
    obtain ⟨c, hc, hwhite⟩ := (shape_of_valid (hvalid p hp)).not_white fun hspace =>
      by rw [hspace] at htoken; cases htoken
    rw [h c (List.mem_flatMap.2 ⟨p, hp, hc⟩)] at hwhite
    cases hwhite
  · intro h c hc
    obtain ⟨p, hp, hcp⟩ := List.mem_flatMap.1 hc
    exact ((shape_of_valid (hvalid p hp)).white (Bool.eq_false_iff.2 (h p hp)) (hcomment p hp)).2 c hcp

end NoComments

end Zohar.Content

/-
How a content migration is cut into statements. Quotes and comments hide semicolons, and the comments themselves are
left out; a line comment leaves its end of line behind and a block comment nothing, so that what stood around it may be
read together. From zohar-content/src/migrations/private_data.rs.
-/
import Zohar.Content.Sql

namespace Zohar.Content

open Zohar.Lib
open Zohar.Game (Text isWhitespace trim)

/-! ## The loop -/

/-- The flags of the loop. -/
structure Modes where
  inSingleQuote : Bool := false
  inDoubleQuote : Bool := false
  inLineComment : Bool := false
  inBlockComment : Bool := false
  deriving DecidableEq, Repr

/-- What a turn of the loop leaves: the flags and `current`, whether it took the next character as well, and the
statement that it pushed, if any. -/
structure Turn where
  modes : Modes
  current : Text
  took : Bool := false
  pushed : List Text := []

/-- The statement in `current`, if there is one. -/
def statement (current : Text) : List Text :=
  let stmt := trim current
  if stmt.isEmpty then [] else [stmt]

/-- The turn for `ch`, before which `chars.peek()` is `peek`. -/
def turn (modes : Modes) (current : Text) (ch : Char) (peek : Option Char) : Turn :=
  if modes.inLineComment then
    if ch = '\n' then { modes := { modes with inLineComment := false }, current := current ++ [ch] }
    else { modes, current }
  else if modes.inBlockComment then
    if ch = '*' ∧ peek = some '/' then { modes := { modes with inBlockComment := false }, current, took := true }
    else { modes, current }
  else if (!modes.inSingleQuote && !modes.inDoubleQuote) ∧ ch = '-' ∧ peek = some '-' then
    { modes := { modes with inLineComment := true }, current, took := true }
  else if (!modes.inSingleQuote && !modes.inDoubleQuote) ∧ ch = '/' ∧ peek = some '*' then
    { modes := { modes with inBlockComment := true }, current, took := true }
  else if ch = Mark.single.char ∧ !modes.inDoubleQuote then
    if modes.inSingleQuote ∧ peek = some Mark.single.char then
      { modes, current := current ++ [ch] ++ [Mark.single.char], took := true }
    else { modes := { modes with inSingleQuote := !modes.inSingleQuote }, current := current ++ [ch] }
  else if ch = Mark.double.char ∧ !modes.inSingleQuote then
    { modes := { modes with inDoubleQuote := !modes.inDoubleQuote }, current := current ++ [ch] }
  else if ch = ';' ∧ !modes.inSingleQuote ∧ !modes.inDoubleQuote then
    { modes, current := [], pushed := statement current }
  else { modes, current := current ++ [ch] }

/-- The statements of the rest of a script. -/
def splitFrom (modes : Modes) (current : Text) : Text → List Text
  | [] => statement current
  | [ch] =>
    let t := turn modes current ch none
    t.pushed ++ statement t.current
  | ch :: next :: chars =>
    let t := turn modes current ch (some next)
    t.pushed ++ if t.took then splitFrom t.modes t.current chars else splitFrom t.modes t.current (next :: chars)

def splitSqlStatements (sql : Text) : List Text := splitFrom {} [] sql

/-! ## Turns -/

theorem splitFrom_cons (modes : Modes) (current : Text) (ch : Char) (chars : Text) :
    splitFrom modes current (ch :: chars) =
      (turn modes current ch chars.head?).pushed ++
        splitFrom (turn modes current ch chars.head?).modes (turn modes current ch chars.head?).current
          (if (turn modes current ch chars.head?).took then chars.tail else chars) := by
  cases chars with
  | nil =>
    rw [splitFrom, List.head?_nil]
    split <;> rfl
  | cons next chars =>
    rw [splitFrom, List.head?_cons, List.tail_cons]
    split <;> rfl

def Modes.inside : Mark → Modes
  | .single => { inSingleQuote := true }
  | .double => { inDoubleQuote := true }

/-- Outside quotes and comments a character is copied, unless it begins a quote or a comment or ends the statement. -/
theorem splitFrom_copy {c : Char} {chars : Text} (current : Text) (hsemi : c ≠ ';')
    (hmark : ∀ mark : Mark, c ≠ mark.char) (hdash : c = '-' → chars.head? ≠ some '-')
    (hslash : c = '/' → chars.head? ≠ some '*') :
    splitFrom {} current (c :: chars) = splitFrom {} (current ++ [c]) chars := by
  have hturn : turn {} current c chars.head? = { modes := {}, current := current ++ [c] } := by
    unfold turn
    have h₁ : ¬(c = '-' ∧ chars.head? = some '-') := fun h => hdash h.1 h.2
    have h₂ : ¬(c = '/' ∧ chars.head? = some '*') := fun h => hslash h.1 h.2
    simp [h₁, h₂, hsemi, hmark]
  rw [splitFrom_cons, hturn]
  rfl

theorem splitFrom_semicolon (current chars : Text) :
    splitFrom {} current (';' :: chars) = statement current ++ splitFrom {} [] chars := by
  have hturn : turn {} current ';' chars.head? = { modes := {}, current := [], pushed := statement current } := by
    simp [turn, Mark.char]
  rw [splitFrom_cons, hturn]
  rfl

theorem splitFrom_dashes (current chars : Text) :
    splitFrom {} current ('-' :: '-' :: chars) = splitFrom { inLineComment := true } current chars := by
  have hturn : turn {} current '-' (some '-') = { modes := { inLineComment := true }, current, took := true } := by
    simp [turn]
  rw [splitFrom_cons, List.head?_cons, hturn]
  rfl

theorem splitFrom_slashStar (current chars : Text) :
    splitFrom {} current ('/' :: '*' :: chars) = splitFrom { inBlockComment := true } current chars := by
  have hturn : turn {} current '/' (some '*') = { modes := { inBlockComment := true }, current, took := true } := by
    simp [turn]
  rw [splitFrom_cons, List.head?_cons, hturn]
  rfl

/-- A line comment leaves no more than its end of line. -/
theorem splitFrom_line {body : Text} (current rest : Text) (hbody : '\n' ∉ body) (hrest : ∀ c ∈ rest.head?, c = '\n') :
    splitFrom { inLineComment := true } current (body ++ rest) = splitFrom {} current rest := by
  induction body with
  | nil =>
    cases rest with
    | nil => rfl
    | cons c rest =>
      obtain rfl := hrest c rfl
      have hturn : turn { inLineComment := true } current '\n' rest.head? =
          { modes := {}, current := current ++ ['\n'] } := by
        simp [turn]
      rw [List.nil_append, splitFrom_cons, hturn]
      exact (splitFrom_copy current (by decide) (fun mark => by cases mark <;> decide) (by simp) (by simp)).symm
  | cons c body ih =>
    rw [List.mem_cons, not_or] at hbody
    have hturn : turn { inLineComment := true } current c (body ++ rest).head? =
        { modes := { inLineComment := true }, current } := by
      simp [turn, Ne.symm hbody.1]
    rw [List.cons_append, splitFrom_cons, hturn]
    exact ih hbody.2

/-- An asterisk of a block comment that has been read but not yet taken by the loop. -/
def starText (star : Bool) : Text := if star then ['*'] else []

/-- A character of a block comment that does not end it. -/
theorem splitFrom_inBlock {c : Char} {chars : Text} (current : Text) (h : c = '*' → chars.head? ≠ some '/') :
    splitFrom { inBlockComment := true } current (c :: chars) = splitFrom { inBlockComment := true } current chars := by
  have hturn : turn { inBlockComment := true } current c chars.head? =
      { modes := { inBlockComment := true }, current } := by
    have h₁ : ¬(c = '*' ∧ chars.head? = some '/') := fun h₁ => h h₁.1 h₁.2
    simp [turn, h₁]
  rw [splitFrom_cons, hturn]
  rfl

/-- A block comment leaves nothing. The loop takes an asterisk only with what follows it, so it is behind the reading
there. -/
theorem splitFrom_block (star : Bool) {body : Text} (current rest : Text)
    (h : sqlPieces.run (.blockComment star) body = some .blockClosed) :
    splitFrom { inBlockComment := true } current (starText star ++ body ++ rest) = splitFrom {} current rest := by
  induction body generalizing star with
  | nil => cases h
  | cons c body ih =>
    obtain ⟨s₁, hgoes, -, hrun⟩ := run_cons h
    cases hgoes with
    | plain hs => cases hs
    | close =>
      obtain ⟨rfl, -⟩ := Munch.run_still (fun _ => rfl) hrun
      have hturn : turn { inBlockComment := true } current '*' (some '/') = { modes := {}, current, took := true } := by
        simp [turn]
      exact (splitFrom_cons _ current '*' ('/' :: rest)).trans (by rw [List.head?_cons, hturn]; rfl)
    | block hopen =>
      -- the asterisk that the loop was behind by does not end the comment
      have hbehind : splitFrom { inBlockComment := true } current (starText star ++ (c :: body) ++ rest) =
          splitFrom { inBlockComment := true } current (c :: (body ++ rest)) := by
        cases star with
        | false => rfl
        | true => exact splitFrom_inBlock current fun _ => by simp [hopen rfl]
      rw [hbehind, ← ih _ hrun]
      by_cases hc : c = '*'
      · subst hc
        rfl
      · rw [splitFrom_inBlock current fun hstar => absurd hstar hc]
        simp [starText, hc]

theorem splitFrom_open (mark : Mark) (current chars : Text) :
    splitFrom {} current (mark.char :: chars) = splitFrom (.inside mark) (current ++ [mark.char]) chars := by
  have hturn : turn {} current mark.char chars.head? =
      { modes := .inside mark, current := current ++ [mark.char] } := by
    cases mark <;> simp [turn, Mark.char, Modes.inside]
  rw [splitFrom_cons, hturn]
  rfl

theorem splitFrom_inside {mark : Mark} {c : Char} (current chars : Text) (hc : c ≠ mark.char) :
    splitFrom (.inside mark) current (c :: chars) = splitFrom (.inside mark) (current ++ [c]) chars := by
  have hturn : turn (.inside mark) current c chars.head? = { modes := .inside mark, current := current ++ [c] } := by
    cases mark <;> simp [turn, Modes.inside, hc]
  rw [splitFrom_cons, hturn]
  rfl

/-- A quote leads out of a quoted text. Two of them within a string are taken in one turn, which comes to the same as
going out and in again. -/
theorem splitFrom_close (mark : Mark) (current chars : Text) :
    splitFrom (.inside mark) current (mark.char :: chars) = splitFrom {} (current ++ [mark.char]) chars := by
  by_cases hdoubled : mark = .single ∧ chars.head? = some mark.char
  · obtain ⟨rfl, hhead⟩ := hdoubled
    obtain ⟨chars, rfl⟩ : ∃ rest, chars = Mark.single.char :: rest := by
      cases chars with
      | nil => cases hhead
      | cons c rest => exact ⟨rest, by rw [Option.some.inj hhead]⟩
    have hturn : turn (.inside .single) current Mark.single.char (some Mark.single.char) =
        { modes := .inside .single, current := current ++ [Mark.single.char] ++ [Mark.single.char], took := true } := by
      simp [turn, Mark.char, Modes.inside]
    rw [splitFrom_open, splitFrom_cons, List.head?_cons, hturn]
    rfl
  · have hturn : turn (.inside mark) current mark.char chars.head? =
        { modes := {}, current := current ++ [mark.char] } := by
      cases mark with
      | single => simpa [turn, Modes.inside] using fun h => absurd ⟨rfl, h⟩ hdoubled
      | double => simp [turn, Mark.char, Modes.inside]
    rw [splitFrom_cons, hturn]
    rfl

/-- A quoted text is copied as it is. -/
theorem splitFrom_quoted {mark : Mark} (closed : Bool) {body : Text} (current rest : Text)
    (h : sqlPieces.run (.quoted mark closed) body = some (.quoted mark true)) :
    splitFrom (if closed then {} else .inside mark) current (body ++ rest) = splitFrom {} (current ++ body) rest := by
  induction body generalizing closed current with
  | nil =>
    rw [Munch.run, Option.some.injEq, SqlState.quoted.injEq] at h
    rw [h.2, if_pos rfl, List.nil_append, List.append_nil]
  | cons c body ih =>
    have hsplit : current ++ c :: body = current ++ [c] ++ body := by rw [List.append_assoc, List.singleton_append]
    obtain ⟨s₁, hgoes, -, hrun⟩ := run_cons h
    rw [hsplit]
    cases hgoes with
    | plain hs => cases hs
    | again =>
      rw [← ih _ (current ++ [mark.char]) hrun]
      exact splitFrom_open mark current (body ++ rest)
    | inside =>
      rw [← ih _ (current ++ [c]) hrun, if_neg Bool.false_ne_true, List.cons_append]
      by_cases hc : c = mark.char
      · rw [if_pos (decide_eq_true hc), hc]
        exact splitFrom_close mark current (body ++ rest)
      · rw [if_neg (by rw [decide_eq_false hc]; decide)]
        exact splitFrom_inside current (body ++ rest) hc

/-- And so are the digits of a blob literal, up to the quote. -/
theorem splitFrom_blob {odd : Bool} {body : Text} (current rest : Text)
    (h : sqlPieces.run (.blob odd) body = some .blobClosed) :
    splitFrom (.inside .single) current (body ++ rest) = splitFrom {} (current ++ body) rest := by
  induction body generalizing odd current with
  | nil => cases h
  | cons c body ih =>
    obtain ⟨s₁, hgoes, -, hrun⟩ := run_cons h
    cases hgoes with
    | plain hs => cases hs
    | blobDigit hdigit =>
      rw [List.cons_append, splitFrom_inside current _ (ne_of_pred hdigit _ (by decide)), ih (current ++ [c]) hrun,
        List.append_assoc, List.singleton_append]
    | blobClose =>
      obtain ⟨rfl, -⟩ := Munch.run_still (fun _ => rfl) hrun
      exact splitFrom_close .single current rest

/-! ## Pieces -/

/-- A character of a plain text is copied: whether it begins a comment with the next one is told by the state it led
to. -/
theorem splitFrom_entered {c : Char} {s : SqlState} {chars : Text} (current : Text) (hc : SqlState.Entered c s)
    (h : ∀ d ∈ chars.head?, (∃ s', s.next d = some s' ∧ s'.isPlain = true) ∨ s.next d = none ∧ s.accepts = true) :
    splitFrom {} current (c :: chars) = splitFrom {} (current ++ [c]) chars := by
  refine splitFrom_copy current hc.ordinary.semicolon hc.ordinary.mark ?_ ?_
  · -- after the first dash of an operator a second one begins a comment, and after a sign it begins nothing
    intro hdash hhead
    rcases h '-' hhead with ⟨s', hnext, hplain⟩ | ⟨hnext, haccepts⟩
    · rcases hc.dash hdash with rfl | rfl
      · cases hnext
        cases hplain
      · cases hnext
    · rcases hc.dash hdash with rfl | rfl
      · cases hnext
      · cases haccepts
  · intro hslash hhead
    obtain rfl := hc.slash hslash
    rcases h '*' hhead with ⟨s', hnext, hplain⟩ | ⟨hnext, -⟩
    · cases hnext
      cases hplain
    · cases hnext

/-- A plain text is copied, if its reading stops where it ends. -/
theorem splitFrom_plain {c : Char} {s s' : SqlState} {text : Text} (current rest : Text) (hc : SqlState.Entered c s)
    (hrun : sqlPieces.run s text = some s') (hplain : s'.isPlain = true) (haccepts : s'.accepts = true)
    (hstop : ∀ d ∈ rest.head?, s'.next d = none) :
    splitFrom {} current (c :: text ++ rest) = splitFrom {} (current ++ c :: text) rest := by
  induction text generalizing c s current with
  | nil =>
    rw [Munch.run, Option.some.injEq] at hrun
    subst hrun
    exact splitFrom_entered current hc fun d hd => .inr ⟨hstop d hd, haccepts⟩
  | cons d text ih =>
    obtain ⟨s₁, hgoes, hnext, hrun'⟩ := run_cons hrun
    have hplain₁ : s₁.isPlain = true := Munch.run_back (D := fun s => s.isPlain = true) isPlain_back hrun' hplain
    have hentered : SqlState.Entered d s₁ := by
      cases hgoes with
      | plain _ h => exact h
      | _ => cases hplain₁
    have hcopy : splitFrom {} current (c :: (d :: text ++ rest)) =
        splitFrom {} (current ++ [c]) (d :: text ++ rest) := by
      apply splitFrom_entered current hc
      intro e he
      obtain rfl : d = e := Option.some.inj he
      exact .inl ⟨s₁, hnext, hplain₁⟩
    rw [List.cons_append, hcopy, ih (current ++ [c]) hentered hrun', List.append_assoc, List.singleton_append]

/-- What the loop does with a piece: comments are dropped, a semicolon ends the statement, and the rest is copied. -/
theorem splitFrom_piece {p : SqlPiece} (current rest : Text) (hp : sqlPieces.Valid p)
    (hstop : ∀ d ∈ rest.head?, p.state.next d = none) :
    splitFrom {} current (p.text ++ rest) =
      if p.state.isComment then splitFrom {} current rest
      else if p.state = .semicolon then statement current ++ splitFrom {} [] rest
      else splitFrom {} (current ++ p.text) rest := by
  cases shape_of_valid hp with
  | space hwhite =>
    have hne (d : Char) (hd : isWhitespace d = false) : ∀ c, isWhitespace c = true → c ≠ d := by
      rintro c hc rfl
      rw [hc] at hd
      cases hd
    refine splitFrom_copy current (hne _ (by decide) _ hwhite) (fun mark => hne _ (by cases mark <;> decide) _ hwhite)
      (fun h => absurd h (hne _ (by decide) _ hwhite)) (fun h => absurd h (hne _ (by decide) _ hwhite))
  | semicolon => exact splitFrom_semicolon current rest
  | quoted mark hbody =>
    have hrest := splitFrom_quoted false (current ++ [mark.char]) rest hbody
    rw [if_neg Bool.false_ne_true] at hrest
    rw [List.append_assoc, List.singleton_append] at hrest
    exact (splitFrom_open mark current _).trans hrest
  | @blob c body hc hbody =>
    have hcopy : splitFrom {} current (c :: Mark.single.char :: (body ++ rest)) =
        splitFrom {} (current ++ [c]) (Mark.single.char :: (body ++ rest)) :=
      splitFrom_copy current hc.ordinary.semicolon hc.ordinary.mark
        (fun hdash => by cases hc.dash hdash <;> contradiction)
        fun hslash => by cases hc.slash hslash
    have hrest := splitFrom_blob (current ++ [c] ++ [Mark.single.char]) rest hbody
    have happend : current ++ [c] ++ [Mark.single.char] ++ body = current ++ c :: Mark.single.char :: body := by simp
    rw [happend] at hrest
    exact hcopy.trans ((splitFrom_open .single _ _).trans hrest)
  | line hbody =>
    refine (splitFrom_dashes current _).trans (splitFrom_line current rest hbody fun c hc => ?_)
    by_contra hne
    have hnext : (if c = '\n' then none else some SqlState.lineComment) = none := hstop c hc
    rw [if_neg hne] at hnext
    cases hnext
  | block hbody => exact (splitFrom_slashStar current _).trans (splitFrom_block false current rest hbody)
  | @plain c text s s' hc hrun hplain haccepts =>
    have hcomment : ¬s'.isComment = true := by
      rw [SqlState.isPlain_not_comment hplain]
      decide
    have hsemi : s' ≠ .semicolon := by
      rintro rfl
      cases hplain
    rw [if_neg hcomment, if_neg hsemi]
    exact splitFrom_plain current rest hc hrun hplain haccepts hstop

/-! ## Scripts -/

/-- The script between its semicolons, with the comments left out. -/
def segments (pieces : List SqlPiece) : List (List SqlPiece) :=
  (pieces.filter fun p => !p.state.isComment).splitOnP fun p => p.state = .semicolon

/-- The tokens between the semicolons, where there are any. -/
def tokenRuns (pieces : List SqlPiece) : List (List SqlPiece) :=
  ((pieces.filter fun p => p.state.isToken).splitOnP fun p => p.state = .semicolon).filter fun run => !run.isEmpty

theorem segments_comment {p : SqlPiece} (pieces : List SqlPiece) (h : p.state.isComment = true) :
    segments (p :: pieces) = segments pieces := by
  rw [segments, List.filter_cons_of_neg (by rw [h]; decide), segments]

theorem segments_semicolon {p : SqlPiece} (pieces : List SqlPiece) (h : p.state = .semicolon) :
    segments (p :: pieces) = [] :: segments pieces := by
  rw [segments, List.filter_cons_of_pos (by rw [h]; rfl), List.splitOnP_cons_eq_if_modifyHead,
    if_pos (by rw [h]; rfl), segments]

theorem segments_other {p : SqlPiece} (pieces : List SqlPiece) (hcomment : p.state.isComment = false)
    (hsemi : p.state ≠ .semicolon) : segments (p :: pieces) = (segments pieces).modifyHead (p :: ·) := by
  rw [segments, List.filter_cons_of_pos (by rw [hcomment]; rfl), List.splitOnP_cons_eq_if_modifyHead,
    if_neg (by rw [decide_eq_true_eq]; exact hsemi), segments]

/-- The loop on a script: the statements are what is left of the segments by trimming. -/
theorem splitFrom_pieces {pieces : List SqlPiece} (current : Text) (hvalid : ∀ p ∈ pieces, sqlPieces.Valid p)
    (hchain : pieces.IsChain sqlPieces.Stops) :
    splitFrom {} current (Munch.flat pieces) =
      (((segments pieces).map Munch.flat).modifyHead (current ++ ·)).flatMap statement := by
  induction pieces generalizing current with
  | nil => simp [segments, splitFrom, List.splitOnP_nil]
  | cons p pieces ih =>
    rw [List.forall_mem_cons] at hvalid
    rw [List.isChain_cons] at hchain
    have hstop : ∀ d ∈ (Munch.flat pieces).head?, p.state.next d = none := by
      intro d hd
      cases pieces with
      | nil => cases hd
      | cons q pieces =>
        refine hchain.1 q rfl d ?_
        rwa [Munch.flat_cons, List.head?_append_of_ne_nil _ (hvalid.2 q List.mem_cons_self).text_ne_nil] at hd
    -- a comment leaves the segment under way as it is, a semicolon ends it and any other piece is added to it
    rw [Munch.flat_cons, splitFrom_piece current _ hvalid.1 hstop]
    cases hcomment : p.state.isComment with
    | true =>
      rw [if_pos rfl, ih current hvalid.2 hchain.2, segments_comment pieces hcomment]
    | false =>
      rw [if_neg Bool.false_ne_true]
      obtain ⟨first, others, hsegments⟩ : ∃ first others, segments pieces = first :: others :=
        List.exists_cons_of_ne_nil (List.splitOnP_ne_nil _ _)
      by_cases hsemi : p.state = .semicolon
      · rw [if_pos hsemi, ih [] hvalid.2 hchain.2, segments_semicolon pieces hsemi, hsegments]
        simp
      · rw [if_neg hsemi, ih (current ++ p.text) hvalid.2 hchain.2, segments_other pieces hcomment hsemi, hsegments]
        simp

/-- Only strings, quoted identifiers and comments go on with a semicolon, as long as they are open. -/
theorem next_semicolon {s : SqlState} (haccepts : s.accepts = true) (hcomment : s.isComment = false) :
    s.next ';' = none := by
  by_contra hne
  obtain ⟨s', hnext⟩ := Option.ne_none_iff_exists'.1 hne
  generalize hc : ';' = c at hnext
  cases SqlState.next_cases hnext with
  | plain _ hentered => exact hentered.ordinary.semicolon hc.symm
  | inside => cases haccepts
  | again mark => cases mark <;> exact absurd hc (by decide)
  | blobQuote => exact absurd hc (by decide)
  | blobDigit => cases haccepts
  | blobClose => cases haccepts
  | dashes => exact absurd hc (by decide)
  | slashStar => exact absurd hc (by decide)
  | _ => cases hcomment

theorem stops_semicolon {p q : SqlPiece} (hp : sqlPieces.Valid p) (hcomment : p.state.isComment = false)
    (hq : sqlPieces.Valid q) (h : p.state = .semicolon ∨ q.state = .semicolon) : sqlPieces.Stops p q := by
  intro c hc
  rcases h with h | h
  · rw [h]
    rfl
  · have htext : q.text = [';'] := by
      cases shape_of_valid hq with
      | semicolon => rfl
      | plain _ _ hplain =>
        cases h
        cases hplain
      | _ => cases h
    rw [htext, List.head?_cons, Option.mem_def, Option.some.injEq] at hc
    obtain ⟨-, -, -, -, -, -, haccepts⟩ := hp
    exact hc ▸ next_semicolon haccepts hcomment

section Segments

variable {pieces : List SqlPiece}

theorem mem_segments {segment : List SqlPiece} {p : SqlPiece} (hsegment : segment ∈ segments pieces)
    (hp : p ∈ segment) :
    p ∈ pieces ∧ p.state.isComment = false := by
  have hmem := mem_of_mem_splitOnP hsegment hp
  rw [List.mem_filter, Bool.not_eq_true'] at hmem
  exact hmem

theorem segments_tokens : ((segments pieces).map fun segment => segment.filter fun p => p.state.isToken) =
    (pieces.filter fun p => p.state.isToken).splitOnP fun p => p.state = .semicolon := by
  have hsame : ((pieces.filter fun p => !p.state.isComment).filter fun p => p.state.isToken) =
      pieces.filter fun p => p.state.isToken := by
    rw [List.filter_filter]
    apply List.filter_congr
    intro p _
    cases hcomment : p.state.isComment <;> simp [SqlState.isToken, hcomment]
  rw [← hsame]
  refine filter_splitOnP (fun p hp => ?_) _
  rw [of_decide_eq_true hp]
  rfl

/-- One segment: it leaves a statement if it has tokens, and that is read as they are if no piece goes on into the
next. -/
theorem statement_flat (hvalid : ∀ p ∈ pieces, sqlPieces.Valid p) (hcomment : ∀ p ∈ pieces, p.state.isComment = false) :
    (statement (Munch.flat pieces) = [] ∧ (pieces.filter fun p => p.state.isToken) = [] ∧
      pieces.IsChain sqlPieces.Stops) ∨
      ∃ stmt, statement (Munch.flat pieces) = [stmt] ∧ (pieces.filter fun p => p.state.isToken) ≠ [] ∧
        (tokens stmt = some (pieces.filter fun p => p.state.isToken) ↔ pieces.IsChain sqlPieces.Stops) := by
  have htrim := trim_flat_eq_nil_iff hvalid hcomment
  have hiff := tokens_flat_iff hvalid hcomment
  rw [← tokens_trim] at hiff
  by_cases hnone : trim (Munch.flat pieces) = []
  · left
    refine ⟨by simp [statement, hnone], htrim.1 hnone, hiff.1 ?_⟩
    rw [hnone, htrim.1 hnone]
    rfl
  · right
    exact ⟨_, by simp [statement, hnone], fun h => hnone (htrim.2 h), hiff⟩

/-- The statements of segments have the tokens of the segments exactly if no piece of a segment goes on into the
next. -/
theorem statements_of_segments {list : List (List SqlPiece)}
    (hlist : ∀ segment ∈ list, ∀ p ∈ segment, sqlPieces.Valid p ∧ p.state.isComment = false) :
    ((list.map Munch.flat).flatMap statement).map tokens =
        (((list.map fun segment => segment.filter fun p => p.state.isToken).filter fun run => !run.isEmpty).map some) ↔
      ∀ segment ∈ list, segment.IsChain sqlPieces.Stops := by
  induction list with
  | nil => simp
  | cons segment list ih =>
    rw [List.forall_mem_cons] at hlist
    have hrest := ih hlist.2
    rw [List.forall_mem_cons, ← hrest, List.map_cons, List.flatMap_cons, List.map_append, List.map_cons]
    rcases statement_flat (fun p hp => (hlist.1 p hp).1) (fun p hp => (hlist.1 p hp).2) with
      ⟨hstatement, hempty, hchain⟩ | ⟨stmt, hstatement, hnonempty, hiff⟩
    · rw [hstatement, hempty]
      simp [hchain]
    · have hkeep : (segment.filter fun p => p.state.isToken).isEmpty = false := List.isEmpty_eq_false_iff.2 hnonempty
      rw [hstatement, List.filter_cons, hkeep, Bool.not_false, if_pos rfl, List.map_cons, List.map_cons, List.map_nil,
        List.singleton_append, List.cons.injEq, hiff]

end Segments

/-! ## Comments that part what stands around them -/

theorem next_white {s : SqlState} {c : Char} (hc : isWhitespace c = true) (haccepts : s.accepts = true)
    (hcomment : s.isComment = false) : s.next c = none := by
  by_contra hne
  obtain ⟨s', hnext⟩ := Option.ne_none_iff_exists'.1 hne
  have htoken := (((white_blank hc).next s s' hnext).2 haccepts).1
  rw [SqlState.isToken, hcomment, Bool.not_false, Bool.and_true, decide_eq_false_iff_not, not_not] at htoken
  rw [htoken] at hnext
  cases hnext

/-- A valid piece that begins with whitespace is that and no more. -/
theorem state_of_white_head {q : SqlPiece} {c : Char} (hq : sqlPieces.Valid q) (hhead : q.text.head? = some c)
    (hc : isWhitespace c = true) : q.state = .space := by
  obtain ⟨d, text, s, htext, hstart, hrun, -⟩ := hq
  rw [htext, List.head?_cons, Option.some.injEq] at hhead
  subst hhead
  have hs : some SqlState.space = some s := (if_pos hc).symm.trans hstart
  cases hs
  exact (Munch.run_still (fun _ => rfl) hrun).2

/-- A line comment never brings two pieces together: the end of its line stays. -/
theorem isChain_of_no_block {pieces : List SqlPiece} (hvalid : ∀ p ∈ pieces, sqlPieces.Valid p)
    (hchain : pieces.IsChain sqlPieces.Stops) (hblock : ∀ p ∈ pieces, p.state ≠ .blockClosed) :
    (pieces.filter fun p => !p.state.isComment).IsChain sqlPieces.Stops := by
  induction pieces with
  | nil => exact List.isChain_nil
  | cons p pieces ih =>
    rw [List.forall_mem_cons] at hvalid hblock
    rw [List.isChain_cons] at hchain
    have hrest := ih hvalid.2 hchain.2 hblock.2
    cases hcomment : p.state.isComment with
    | true => rwa [List.filter_cons_of_neg (by rw [hcomment]; decide)]
    | false =>
      rw [List.filter_cons_of_pos (by rw [hcomment]; rfl), List.isChain_cons]
      refine ⟨?_, hrest⟩
      intro q hq
      cases pieces with
      | nil => cases hq
      | cons r pieces =>
        cases hline : r.state.isComment with
        | false =>
          rw [List.filter_cons_of_pos (by rw [hline]; rfl), List.head?_cons] at hq
          exact hchain.1 q hq
        | true =>
          -- `r` is a line comment, and what follows it is the end of the line
          have hstate : r.state = .lineComment :=
            ((shape_of_valid (hvalid.2 r List.mem_cons_self)).comment hline).resolve_right
              (hblock.2 r List.mem_cons_self)
          rw [List.filter_cons_of_neg (by rw [hline]; decide)] at hq
          cases pieces with
          | nil => cases hq
          | cons t pieces =>
            obtain ⟨d, text, s, htext, hparts⟩ := hvalid.2 t (List.mem_cons_of_mem r List.mem_cons_self)
            have hhead : t.text.head? = some d := by rw [htext, List.head?_cons]
            have hnext : (if d = '\n' then none else some SqlState.lineComment) = none := by
              have hstop := (List.isChain_cons_cons.1 hchain.2).1 d hhead
              rwa [hstate] at hstop
            have hd : d = '\n' := by
              by_contra hne
              rw [if_neg hne] at hnext
              cases hnext
            have hwhite : isWhitespace d = true := by
              rw [hd]
              decide
            have hspace := state_of_white_head ⟨d, text, s, htext, hparts⟩ hhead hwhite
            rw [List.filter_cons_of_pos (by rw [hspace]; rfl), List.head?_cons, Option.mem_def, Option.some.injEq] at hq
            subst hq
            intro e he
            rw [hhead, Option.mem_def, Option.some.injEq] at he
            obtain ⟨-, -, -, -, -, -, haccepts⟩ := hvalid.1
            exact next_white (he ▸ hwhite) haccepts hcomment

/-- Cutting a script into statements keeps its tokens exactly if, with the comments left out, none of its pieces goes on
into the next: where no more than block comments stand between two tokens, the first has to end by itself. -/
theorem statements_kept_iff {sql : Text} {pieces : List SqlPiece} (h : sqlPieces.lex sql = some pieces) :
    (splitSqlStatements sql).map tokens = (tokenRuns pieces).map some ↔
      (pieces.filter fun p => !p.state.isComment).IsChain sqlPieces.Stops := by
  obtain ⟨rfl, hvalid, hchain⟩ := Munch.lex_eq_some_iff.1 h
  have hmodes : splitSqlStatements (Munch.flat pieces) = ((segments pieces).map Munch.flat).flatMap statement := by
    rw [splitSqlStatements, splitFrom_pieces [] hvalid hchain]
    cases (segments pieces).map Munch.flat <;> rfl
  have hsep : ∀ p ∈ pieces.filter fun p => !p.state.isComment, ∀ q ∈ pieces.filter fun p => !p.state.isComment,
      decide (p.state = .semicolon) = true ∨ decide (q.state = .semicolon) = true → sqlPieces.Stops p q := by
    intro p hp q hq hpq
    rw [List.mem_filter, Bool.not_eq_true'] at hp hq
    rw [decide_eq_true_eq, decide_eq_true_eq] at hpq
    exact stops_semicolon (hvalid p hp.1) hp.2 (hvalid q hq.1) hpq
  rw [isChain_iff_splitOnP hsep, hmodes, tokenRuns, ← segments_tokens]
  apply statements_of_segments
  intro segment hsegment p hp
  obtain ⟨hmem, hcomment⟩ := mem_segments hsegment hp
  exact ⟨hvalid p hmem, hcomment⟩

/-- A string with a semicolon and a doubled quote in it, a comment with a semicolon, and two statements. -/
def commentedScript : Text :=
  ['A', '=', .ofNat 39, ';', .ofNat 39, .ofNat 39, .ofNat 39, '/', '*', ';', '*', '/', '-', '-', '-', '\n', ';',
    'B', ' ', '1']

theorem statements_kept_iff_commented : ∃ pieces, sqlPieces.lex commentedScript = some pieces ∧
    ((splitSqlStatements commentedScript).map tokens = (tokenRuns pieces).map some ↔
      (pieces.filter fun p => !p.state.isComment).IsChain sqlPieces.Stops) :=
  ⟨_, rfl, statements_kept_iff rfl⟩

/-- `SELECT/**/1`: what is sent is the one word `SELECT1`. -/
def joinedScript : Text := ['S', 'E', 'L', 'E', 'C', 'T', '/', '*', '*', '/', '1']

theorem statements_joined : ∃ pieces, sqlPieces.lex joinedScript = some pieces ∧
    (splitSqlStatements joinedScript).map tokens ≠ (tokenRuns pieces).map some :=
  ⟨_, rfl, by decide⟩

/-- `x/**/'41'`: a word and a string become a blob literal. -/
example : (splitSqlStatements ['x', '/', '*', '*', '/', .ofNat 39, '4', '1', .ofNat 39]).map tokens =
    [some [⟨.blobClosed, ['x', .ofNat 39, '4', '1', .ofNat 39]⟩]] := by decide

example : (splitSqlStatements commentedScript).map List.length = [7, 3] := by decide

end Zohar.Content

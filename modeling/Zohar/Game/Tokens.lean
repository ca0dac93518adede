/-
The words of a command line. Quotes keep whitespace and the other quote within a word, and quoting is undone for every
word that is not empty; an empty one leaves no trace, for a word is told from the space around it only by its
characters. From zohar-gamesrv/src/handlers/ingame/chat/command.rs.
-/
import Zohar.Game.Chat

namespace Zohar.Game

/-! ## Command lines -/

/-- A run of whitespace, not empty. -/
structure Blank where
  text : Text
  nonempty : text ≠ []
  white : ∀ c ∈ text, isWhitespace c = true

/-- An argument and a quote that is not in it. -/
structure QuotedArg where
  text : Text
  delim : Char
  quote : isQuote delim = true
  notMem : delim ∉ text

def QuotedArg.written (arg : QuotedArg) : Text := arg.delim :: arg.text ++ [arg.delim]

/-- Quoted arguments with whitespace between them. -/
inductive CommandLine where
  | empty
  | args (first : QuotedArg) (rest : List (Blank × QuotedArg))

namespace CommandLine

def text : CommandLine → Text
  | empty => []
  | args first rest => first.written ++ rest.flatMap fun p => p.1.text ++ p.2.written

def arguments : CommandLine → List Text
  | empty => []
  | args first rest => first.text :: rest.map fun p => p.2.text

end CommandLine

/-! ## Whitespace at the ends -/

theorem isQuote_not_white {c : Char} (h : isQuote c = true) : isWhitespace c = false := by
  unfold isQuote at h
  rw [Bool.or_eq_true, decide_eq_true_eq, decide_eq_true_eq] at h
  unfold isWhitespace
  rcases h with h | h
  · rw [h]; rfl
  · rw [h]; rfl

theorem trimEnd_append {c : Char} (hc : isWhitespace c = false) : ∀ text : Text, trimEnd (text ++ [c]) = text ++ [c]
  | [] => by simp [trimEnd, hc]
  | d :: text => by
    rw [List.cons_append, trimEnd, trimEnd_append hc text]
    cases text with
    | nil => rfl
    | cons e text => rfl

/-- A text that begins and ends with a quote has no whitespace to trim. -/
theorem trim_quotes {c d : Char} (hc : isQuote c = true) (hd : isQuote d = true) (text : Text) :
    trim (c :: (text ++ [d])) = c :: (text ++ [d]) := by
  unfold trim
  rw [List.dropWhile_cons_of_neg (by rw [isQuote_not_white hc]; decide)]
  exact trimEnd_append (isQuote_not_white hd) (c :: text)

theorem mem_of_mem_trimEnd {c : Char} : ∀ {text : Text}, c ∈ trimEnd text → c ∈ text
  | [], h => h
  | d :: text, h => by
    rw [trimEnd] at h
    split at h
    · split at h
      · cases h
      · rw [List.mem_singleton.1 h]
        exact List.mem_cons_self
    · rcases List.mem_cons.1 h with rfl | h
      · exact List.mem_cons_self
      · exact List.mem_cons_of_mem _ (mem_of_mem_trimEnd h)

theorem mem_of_mem_trim {c : Char} {text : Text} (h : c ∈ trim text) : c ∈ text :=
  (List.dropWhile_sublist _).subset (mem_of_mem_trimEnd h)

/-! ## The loop -/

/-- Within quotes every character but the delimiter is kept. -/
theorem tokenizeFrom_quoted {delim : Char} (rest : Text) : ∀ (text current : Text), delim ∉ text →
    tokenizeFrom (some delim) current (text ++ delim :: rest) = tokenizeFrom none (current ++ text) rest
  | [], current, _ => by
    rw [List.nil_append, tokenizeFrom, if_pos rfl, List.append_nil]
  | c :: text, current, h => by
    rw [List.mem_cons, not_or] at h
    obtain ⟨hc, htext⟩ := h
    rw [List.cons_append, tokenizeFrom, if_neg (Ne.symm hc), tokenizeFrom_quoted rest text _ htext, List.append_assoc]
    rfl

/-- A quoted argument is added to the word that is under way. -/
theorem tokenizeFrom_written (arg : QuotedArg) (rest current : Text) :
    tokenizeFrom none current (arg.written ++ rest) = tokenizeFrom none (current ++ arg.text) rest := by
  unfold QuotedArg.written
  rw [List.cons_append, List.cons_append, tokenizeFrom, if_pos arg.quote, List.append_assoc]
  exact tokenizeFrom_quoted rest arg.text current arg.notMem

/-- Whitespace ends the word that is under way, if there is one. -/
theorem tokenizeFrom_white {c : Char} (hc : isWhitespace c = true) (current text : Text) :
    tokenizeFrom none current (c :: text) = (if current.isEmpty then [] else [current]) ++
      tokenizeFrom none [] text := by
  have hquote : isQuote c = false := by
    by_contra hne
    rw [isQuote_not_white (by simpa using hne)] at hc
    cases hc
  rw [tokenizeFrom, if_neg (by rw [hquote]; decide), if_pos hc]
  split
  · rfl
  · rfl

theorem tokenizeFrom_skip (rest : Text) : ∀ text : Text, (∀ c ∈ text, isWhitespace c = true) →
    tokenizeFrom none [] (text ++ rest) = tokenizeFrom none [] rest
  | [], _ => rfl
  | c :: text, h => by
    rw [List.cons_append, tokenizeFrom_white (h c List.mem_cons_self)]
    exact tokenizeFrom_skip rest text fun d hd => h d (List.mem_cons_of_mem _ hd)

theorem tokenizeFrom_blank (blank : Blank) (current rest : Text) :
    tokenizeFrom none current (blank.text ++ rest) =
      (if current.isEmpty then [] else [current]) ++ tokenizeFrom none [] rest := by
  obtain ⟨_ | ⟨c, text⟩, hne, hwhite⟩ := blank
  · exact absurd rfl hne
  · rw [List.cons_append, tokenizeFrom_white (hwhite c List.mem_cons_self),
      tokenizeFrom_skip rest text fun d hd => hwhite d (List.mem_cons_of_mem _ hd)]

/-- The arguments come back, the empty ones left out. -/
theorem tokenizeFrom_arguments : ∀ (rest : List (Blank × QuotedArg)) (current : Text),
    tokenizeFrom none current (rest.flatMap fun p => p.1.text ++ p.2.written) =
      (current :: rest.map fun p => p.2.text).filter fun text => !text.isEmpty
  | [], current => by
    rw [List.flatMap_nil, tokenizeFrom]
    cases current with
    | nil => rfl
    | cons c text => rfl
  | (blank, arg) :: rest, current => by
    rw [List.flatMap_cons, List.append_assoc, tokenizeFrom_blank, tokenizeFrom_written, List.nil_append,
      tokenizeFrom_arguments rest arg.text, List.map_cons]
    cases current with
    | nil => rfl
    | cons c text => rfl

/-- A line with arguments begins and ends with a quote. -/
theorem CommandLine.text_args (first : QuotedArg) (rest : List (Blank × QuotedArg)) :
    ∃ middle last, isQuote last = true ∧ (args first rest).text = first.delim :: (middle ++ [last]) := by
  -- the last quote is that of the last argument, which may be the first
  rcases rest.eq_nil_or_concat with rfl | ⟨rest, ⟨blank, arg⟩, rfl⟩
  · exact ⟨first.text, first.delim, first.quote, by simp [text, QuotedArg.written]⟩
  · refine ⟨first.text ++ [first.delim] ++ (rest.flatMap fun p => p.1.text ++ p.2.written) ++ blank.text ++
      arg.delim :: arg.text, arg.delim, arg.quote, ?_⟩
    simp [text, QuotedArg.written]

theorem tokenize_commandLine (line : CommandLine) :
    tokenize line.text = line.arguments.filter fun text => !text.isEmpty := by
  cases line with
  | empty => rfl
  | args first rest =>
    have htrim : trim (CommandLine.args first rest).text = (CommandLine.args first rest).text := by
      obtain ⟨middle, last, hlast, htext⟩ := CommandLine.text_args first rest
      rw [htext]
      exact trim_quotes first.quote hlast middle
    unfold tokenize
    rw [htrim]
    show tokenizeFrom none [] (first.written ++ _) = _
    rw [tokenizeFrom_written]
    exact tokenizeFrom_arguments rest first.text

/-! ## Words without quotes -/

theorem tokenizeFrom_noWhite : ∀ (input current : Text), (∀ c ∈ input, isQuote c = false) →
    (∀ c ∈ current, isWhitespace c = false) → ∀ token ∈ tokenizeFrom none current input, ∀ c ∈ token,
      isWhitespace c = false
  | [], current, _, hcurrent, token, htoken => by
    rw [tokenizeFrom] at htoken
    split at htoken
    · cases htoken
    · rw [List.mem_singleton.1 htoken]
      exact hcurrent
  | ch :: input, current, hinput, hcurrent, token, htoken => by
    have hrest := fun c hc => hinput c (List.mem_cons_of_mem _ hc)
    rw [tokenizeFrom, if_neg (by rw [hinput ch List.mem_cons_self]; decide)] at htoken
    have hempty : ∀ c ∈ ([] : Text), isWhitespace c = false := by simp
    -- whitespace ends the word under way, and any other character is added to it
    split at htoken
    · split at htoken
      · exact tokenizeFrom_noWhite input [] hrest hempty token htoken
      · rcases List.mem_cons.1 htoken with rfl | htoken
        · exact hcurrent
        · exact tokenizeFrom_noWhite input [] hrest hempty token htoken
    · rename_i hch
      refine tokenizeFrom_noWhite input (current ++ [ch]) hrest ?_ token htoken
      intro c hc
      rcases List.mem_append.1 hc with hc | hc
      · exact hcurrent c hc
      · rw [List.mem_singleton.1 hc]
        exact Bool.eq_false_iff.2 hch

/-- Quoting is undone for the lines none of whose arguments is empty, and only for these; and a word of a line without
quotes has no whitespace in it. -/
theorem tokenize_unquotes_iff (line : CommandLine) (input : Text) :
    (tokenize line.text = line.arguments ↔ ∀ text ∈ line.arguments, text ≠ []) ∧
      ((∀ c ∈ input, isQuote c = false) → ∀ token ∈ tokenize input, ∀ c ∈ token, isWhitespace c = false) := by
  constructor
  · rw [tokenize_commandLine, List.filter_eq_self]
    simp
  · intro hinput token htoken
    exact tokenizeFrom_noWhite (trim input) [] (fun c hc => hinput c (mem_of_mem_trim hc)) (by simp) token htoken

/-- A command with a name of two words in it, and one without quotes. -/
theorem tokenize_unquotes_blockChat :
    tokenize "\x22block_chat\x22  \x27Alice Bob\x27 \x2210m\x22".toList =
      ["block_chat".toList, "Alice Bob".toList, "10m".toList] ∧
      ∀ token ∈ tokenize "warp 512 768".toList, ∀ c ∈ token, isWhitespace c = false := by
  constructor
  · let command : QuotedArg := ⟨"block_chat".toList, Char.ofNat 34, by decide, by decide⟩
    let name : QuotedArg := ⟨"Alice Bob".toList, Char.ofNat 39, by decide, by decide⟩
    let time : QuotedArg := ⟨"10m".toList, Char.ofNat 34, by decide, by decide⟩
    let wide : Blank := ⟨"  ".toList, by decide, List.all_eq_true.1 (by decide)⟩
    let narrow : Blank := ⟨" ".toList, by decide, List.all_eq_true.1 (by decide)⟩
    exact (tokenize_unquotes_iff (.args command [(wide, name), (narrow, time)]) []).1.2 (by decide)
  · have hquotes : ("warp 512 768".toList.all fun c => !isQuote c) = true := by decide
    exact (tokenize_unquotes_iff .empty _).2 fun c hc => by simpa using List.all_eq_true.1 hquotes c hc

/-- An empty argument is dropped, and the one after it takes its place. -/
theorem tokenize_drops_empty : ∃ line : CommandLine, line.arguments = ["stat".toList, [], "5".toList] ∧
    tokenize line.text = ["stat".toList, "5".toList] := by
  let command : QuotedArg := ⟨"stat".toList, Char.ofNat 34, by decide, by decide⟩
  let nothing : QuotedArg := ⟨[], Char.ofNat 34, by decide, by decide⟩
  let amount : QuotedArg := ⟨"5".toList, Char.ofNat 34, by decide, by decide⟩
  let blank : Blank := ⟨[' '], by decide, List.all_eq_true.1 (by decide)⟩
  exact ⟨.args command [(blank, nothing), (blank, amount)], rfl, by decide⟩

end Zohar.Game

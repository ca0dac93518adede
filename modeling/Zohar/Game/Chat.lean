/-
A chat message of a client on its way into the frames that the server sends for it: it is decoded, taken for a slash
command or handed to the map, prefixed with the speaker's name and obfuscated for other empires. From zohar-gamesrv:
handlers/ingame/chat.rs with chat/command.rs and the commands under it, handlers/ingame/relocation.rs; from zohar-sim:
runtime/spatial.rs and runtime/net/replication.rs. The parser of the command line is a third-party crate and a
parameter, and so is the random number generator.
-/
import Zohar.Net.Chat
import Zohar.Game.Coords

namespace Zohar.Game

open Zohar.Net Zohar.Lib

/-! ## Text -/

/-- A `String` by its characters. -/
abbrev Text := List Char

def utf8 (text : Text) : Bytes := text.flatMap String.utf8EncodeChar

def replacementCharacter : Char := .ofNat 0xFFFD

def isContinuation (b : UInt8) : Bool := b &&& 0xC0 = 0x80

/-- A character of three or four bytes, by the first byte and the range that it leaves for the second one. -/
def secondByteOk (b0 b1 : UInt8) : Bool :=
  (b0 = 0xE0 && 0xA0 ≤ b1 && b1 ≤ 0xBF) || (0xE1 ≤ b0 && b0 ≤ 0xEC && 0x80 ≤ b1 && b1 ≤ 0xBF) ||
    (b0 = 0xED && 0x80 ≤ b1 && b1 ≤ 0x9F) || (0xEE ≤ b0 && b0 ≤ 0xEF && 0x80 ≤ b1 && b1 ≤ 0xBF) ||
    (b0 = 0xF0 && 0x90 ≤ b1 && b1 ≤ 0xBF) || (0xF1 ≤ b0 && b0 ≤ 0xF3 && 0x80 ≤ b1 && b1 ≤ 0xBF) ||
    (b0 = 0xF4 && 0x80 ≤ b1 && b1 ≤ 0x8F)

/-- The first character, and how many of the bytes behind the first one belong to it: those of an ill-formed sequence up
to where it goes wrong. -/
def firstChar (b0 : UInt8) (rest : Bytes) : Char × Nat :=
  let six (b : UInt8) := (b &&& 0x3F).toNat
  if b0 < 0x80 then (.ofNat b0.toNat, 0)
  else if 0xC2 ≤ b0 && b0 ≤ 0xDF then
    match rest with
    | b1 :: _ =>
      if isContinuation b1 then (.ofNat ((b0 &&& 0x1F).toNat * 64 + six b1), 1) else (replacementCharacter, 0)
    | [] => (replacementCharacter, 0)
  else
    match rest with
    | b1 :: rest =>
      if !secondByteOk b0 b1 then (replacementCharacter, 0)
      else
        match rest with
        | b2 :: rest =>
          if !isContinuation b2 then (replacementCharacter, 1)
          else if b0 < 0xF0 then (.ofNat (((b0 &&& 0x0F).toNat * 64 + six b1) * 64 + six b2), 2)
          else
            match rest with
            | b3 :: _ =>
              if isContinuation b3 then (.ofNat ((((b0 &&& 0x07).toNat * 64 + six b1) * 64 + six b2) * 64 + six b3), 3)
              else (replacementCharacter, 2)
            | [] => (replacementCharacter, 2)
        | [] => (replacementCharacter, 1)
    | [] => (replacementCharacter, 0)

/-- One character for at least one byte, so that as much fuel as there are bytes is enough. -/
def fromUtf8LossyFrom : Nat → Bytes → Text
  | 0, _ => []
  | _, [] => []
  | fuel + 1, b :: rest => (firstChar b rest).1 :: fromUtf8LossyFrom fuel (rest.drop (firstChar b rest).2)

/-- `String::from_utf8_lossy`. -/
def fromUtf8Lossy (bytes : Bytes) : Text := fromUtf8LossyFrom bytes.length bytes

/-- The bytes before the first zero. -/
def untilNul (bytes : Bytes) : Bytes := bytes.takeWhile (· ≠ 0)

def decodeCstr (bytes : Bytes) : Text := fromUtf8Lossy (untilNul bytes)

def trimEnd : Text → Text
  | [] => []
  | c :: text =>
    match trimEnd text with
    | [] => if isWhitespace c then [] else [c]
    | kept => c :: kept

def trim (text : Text) : Text := trimEnd (text.dropWhile isWhitespace)

def stripPrefix (start text : Text) : Option Text := if start.isPrefixOf text then some
    (text.drop start.length) else none

/-- `split_whitespace`, with the word that is under way. -/
def wordsFrom (current : Text) : Text → List Text
  | [] => if current.isEmpty then [] else [current]
  | c :: text =>
    if isWhitespace c then if current.isEmpty then wordsFrom [] text else current :: wordsFrom [] text
    else wordsFrom (current ++ [c]) text

def collapseToOneLine (message : Text) : Text := (wordsFrom [] message).intersperse [' '] |>.flatten

/-- A double or a single quote. -/
def isQuote (c : Char) : Bool := c.toNat = 34 || c.toNat = 39

/-- `tokenize`: words, of which a quoted part may have whitespace in it. -/
def tokenizeFrom (quote : Option Char) (current : Text) : Text → List Text
  | [] => if current.isEmpty then [] else [current]
  | ch :: text =>
    match quote with
    | some delim => if ch = delim then tokenizeFrom none current text else tokenizeFrom quote (current ++ [ch]) text
    | none =>
      if isQuote ch then tokenizeFrom (some ch) current text
      else if isWhitespace ch then
        -- the whitespace that is skipped here finds no token under way
        if current.isEmpty then tokenizeFrom none [] text else current :: tokenizeFrom none [] text
      else tokenizeFrom none (current ++ [ch]) text

def tokenize (input : Text) : List Text := tokenizeFrom none [] (trim input)

/-! ## Slash commands -/

inductive CoreStatArg where
  | st | ht | dx | iq
  deriving DecidableEq, Repr

/-- The commands whose execution is an intent for the map. -/
inductive IntentCommand where
  | setWalkMode | setRunMode | restartHere | restartTown
  | statIncrease (stat : CoreStatArg)
  | statDecrease (stat : CoreStatArg)
  deriving DecidableEq, Repr

def IntentCommand.commandName : IntentCommand → Text
  | setWalkMode => "set_walk_mode".toList
  | setRunMode => "set_run_mode".toList
  | restartHere => "restart_here".toList
  | restartTown => "restart_town".toList
  | statIncrease _ => "stat".toList
  | statDecrease _ => "stat-".toList

/-- The commands that hand the connection over to another core. -/
inductive TeleportCommand where
  | warp (x y : UInt32)
  | goto (target : Text) (y : Option Text)
  deriving DecidableEq, Repr

def TeleportCommand.commandName : TeleportCommand → Text
  | warp _ _ => "warp".toList
  | goto _ _ => "goto".toList

inductive KnownCommand where
  | phaseSelect | logout | quit
  | intent (command : IntentCommand)
  | teleport (command : TeleportCommand)
  deriving DecidableEq, Repr

/-- The errors of a teleport, those of a relocation among them. -/
inductive TeleportCommandError where
  | invalidGotoUsage | nonFiniteCoords | unknownWorldDestination | localDestinationOutOfBounds | unknownMapCode
  | ambiguousTownSpawn | routingUnavailable | nonIpv4Endpoint | commitFailed
  deriving DecidableEq, Repr

def TeleportCommandError.text : TeleportCommandError → Text
  | invalidGotoUsage => "Expected `/goto <LOCAL_X_M> <LOCAL_Y_M>` or `/goto <MAP_CODE>`.".toList
  | nonFiniteCoords => "Coordinates must be finite numbers.".toList
  | unknownWorldDestination => "Target does not map to a known position in current content.".toList
  | localDestinationOutOfBounds => "Target is outside the current map bounds.".toList
  | unknownMapCode => "Unknown map code.".toList
  | ambiguousTownSpawn => "Target does not have a unique town spawn for routing.".toList
  | routingUnavailable => "Map routing is unavailable for that destination.".toList
  | nonIpv4Endpoint => "Map routing returned a non-IPv4 endpoint.".toList
  | commitFailed => "Relocation failed. Please try again.".toList

/-- What the command line parser makes of an argument list; the text of an error is what it renders. -/
inductive ClapResult where
  | known (command : KnownCommand)
  | invalidSubcommand
  | error (rendered : Text)

/-- What the commands meet outside: the parser with the about text and the usage of a subcommand, whether an intent is
taken, and what becomes of a teleport, `none` where the handoff is under way. -/
structure CommandEnv where
  tryParseFrom : List Text → ClapResult
  findSubcommand : Text → Option (Option Text × Text)
  trySendClientIntent : IntentCommand → Bool
  teleport : TeleportCommand → Option TeleportCommandError

inductive ParsedCommand where
  | unknown (spelled rawFull : Text)
  | feedback (message : Text)
  | known (command : KnownCommand)

def normalizeCommandName (commandName : Text) : Text :=
  if ['/'].isPrefixOf commandName then commandName else '/' :: commandName

def normalizeUsage (usage : Text) : Text :=
  let usage := trim usage
  let usage := trim ((stripPrefix "Usage:".toList usage).getD usage)
  let usage := (stripPrefix "chat-command ".toList usage).getD usage
  '/' :: (stripPrefix ['/'] usage).getD usage

def commandSummary (env : CommandEnv) (name : Text) : Option Text :=
  (env.findSubcommand name).map fun (about, usage) =>
    normalizeCommandName name ++ ": ".toList ++ collapseToOneLine (about.getD "No help available.".toList) ++
      " Usage: ".toList ++ normalizeUsage usage ++ ['.']

/-- What the lines of an error that have been looked at gave. -/
structure ClapFeedback where
  details : List Text
  usage : Option Text
  collectingErrorDetails : Bool

def ClapFeedback.line (f : ClapFeedback) (line : Text) : ClapFeedback :=
  match stripPrefix "error:".toList line with
  | some rest => { f with details := f.details ++ [trim rest], collectingErrorDetails := true }
  | none =>
    match stripPrefix "Usage:".toList line with
    | some rest => { f with usage := some (normalizeUsage (trim rest)), collectingErrorDetails := false }
    | none =>
      if "For more information".toList.isPrefixOf line then f
      else if f.collectingErrorDetails then { f with details := f.details ++ [line] }
      else f

def formatClapFeedback (spelled rendered : Text) : Text :=
  let lines := ((rendered.splitOn '\n').map trim).filter fun line => !line.isEmpty
  let f := lines.foldl ClapFeedback.line ⟨[], none, false⟩
  let message := collapseToOneLine ((f.details.intersperse [' ']).flatten)
  let message := if message.isEmpty then "Invalid command.".toList else message
  let message := match f.usage with
    | some usage => message ++ " Usage: ".toList ++ usage ++ ['.']
    | none => message
  normalizeCommandName spelled ++ ": ".toList ++ message

namespace ParsedCommand

def parse (env : CommandEnv) (input : Text) : Option ParsedCommand :=
  (stripPrefix ['/'] (trim input)).map fun body =>
    let tokens := tokenize body
    let spelled := '/' :: tokens.headD []
    let help := match tokens with
      | [command, flag] => if flag = "--help".toList ∨ flag = "-h".toList then some command else none
      | _ => none
    match help with
    | some command =>
      match commandSummary env command with
      | some message => .feedback message
      | none => .unknown spelled input
    | none =>
      match env.tryParseFrom ("chat-command".toList :: tokens) with
      | .known command => .known command
      | .invalidSubcommand => .unknown spelled input
      | .error rendered => .feedback (formatClapFeedback spelled rendered)

end ParsedCommand

/-- A message for the player alone. -/
def privateMessage (kind : ChatKind) (message : Text) : ChatS2c :=
  .notifyChatMessage kind ⟨none⟩ ⟨none⟩ (utf8 message ++ [0])

def infoFeedback (message : Text) : ChatS2c := privateMessage .info message

/-- The text of `prefixed_info_feedback`. -/
def prefixedInfo (commandName message : Text) : Text :=
  normalizeCommandName commandName ++ ": ".toList ++ collapseToOneLine message

def unknownText (spelled rawFull : Text) : Text :=
  prefixedInfo spelled ("Unimplemented command: `".toList ++ rawFull ++ "`.".toList)

/-- The chat frames that the execution of a command sends. -/
def KnownCommand.execute (env : CommandEnv) : KnownCommand → List ChatS2c
  | phaseSelect => []
  | logout => [privateMessage .info "Back to login window. Please wait.".toList]
  | quit => [privateMessage .command "quit".toList]
  | intent command =>
    if env.trySendClientIntent command then []
    else [infoFeedback (prefixedInfo command.commandName "Server is busy. Please try again.".toList)]
  | teleport command =>
    match env.teleport command with
    | none => []
    | some error => [infoFeedback (prefixedInfo command.commandName error.text)]

def ParsedCommand.execute (env : CommandEnv) : ParsedCommand → List ChatS2c
  | known command => command.execute env
  | feedback message => [infoFeedback message]
  | unknown spelled rawFull => [infoFeedback (unknownText spelled rawFull)]

/-! ## Local chat -/

inductive ChatChannel where
  | speak | info | notice | command | shout
  deriving DecidableEq, Repr

def chatKindToDomain : ChatKind → ChatChannel
  | .speak => .speak
  | .info => .info
  | .notice => .notice
  | .command => .command
  | .shout => .shout

def ChatChannel.toProtocol : ChatChannel → ChatKind
  | speak => .speak
  | info => .info
  | notice => .notice
  | command => .command
  | shout => .shout

def Empire.toProtocol : Empire → Net.Empire
  | red => .red
  | yellow => .yellow
  | blue => .blue

/-- One who speaks on a map; the ids that a map gives out are not zero. -/
structure Speaker where
  name : Text
  empire : Empire
  netId : NetId
  netId_ne : netId.raw ≠ 0

def formatTalkingMessage (fromName : Text) (messageBytes : Bytes) : Bytes :=
  utf8 fromName ++ utf8 " : ".toList ++ untilNul messageBytes ++ [0]

def isAsciiLowercase (b : UInt8) : Bool := 0x61 ≤ b && b ≤ 0x7A

def isAsciiAlphabetic (b : UInt8) : Bool := isAsciiLowercase b || (0x41 ≤ b && b ≤ 0x5A)

def remapAsciiLetterByEmpire (sourceEmpire : Empire) (letter : UInt8) : UInt8 :=
  let shift := match sourceEmpire with
    | .red => 5
    | .yellow => 11
    | .blue => 17
  let base : UInt8 := if isAsciiLowercase letter then 0x61 else 0x41
  (letter - base + shift) % 26 + base

section

variable {ρ : Type} (draw : ρ → Nat × ρ)

/-- `draw` is `random_range(1..=100)`. -/
def shouldConvert (preservePct : Nat) (rng : ρ) : Bool × ρ := ((draw rng).1 > preservePct, (draw rng).2)

def obfuscate (sourceEmpire : Empire) (preservePct : Nat) : ρ → Bytes → Bytes × ρ
  | rng, [] => ([], rng)
  | rng, [byte] =>
    if isAsciiAlphabetic byte then
      let (convert, rng) := shouldConvert draw preservePct rng
      ([if convert then remapAsciiLetterByEmpire sourceEmpire byte else byte], rng)
    else if byte &&& 0x80 ≠ 0 then
      let (convert, rng) := shouldConvert draw preservePct rng
      ([if convert then 0x3F else byte], rng)
    else ([byte], rng)
  | rng, byte :: next :: rest =>
    if isAsciiAlphabetic byte then
      let (convert, rng) := shouldConvert draw preservePct rng
      let (out, rng) := obfuscate sourceEmpire preservePct rng (next :: rest)
      ((if convert then remapAsciiLetterByEmpire sourceEmpire byte else byte) :: out, rng)
    else if byte &&& 0x80 ≠ 0 then
      let (convert, rng) := shouldConvert draw preservePct rng
      if next &&& 0x80 ≠ 0 then
        let (out, rng) := obfuscate sourceEmpire preservePct rng rest
        ((if convert then 0x3F else byte) :: (if convert then 0x3F else next) :: out, rng)
      else
        let (out, rng) := obfuscate sourceEmpire preservePct rng (next :: rest)
        ((if convert then 0x3F else byte) :: out, rng)
    else
      let (out, rng) := obfuscate sourceEmpire preservePct rng (next :: rest)
      (byte :: out, rng)

/-- `obfuscate_cross_empire_talking_body`. -/
def obfuscateCrossEmpireTalkingBody (sourceEmpire : Empire) (preservePct : Nat) (rng : ρ) (bodyBytes : Bytes) :
    Bytes × ρ :=
  obfuscate draw sourceEmpire (min preservePct 100) rng bodyBytes

def resolveCrossEmpirePreservePct : Nat := 10

def localChatMessageFor (rng : ρ) (speaker : Speaker) (recipientEmpire : Empire) (chat : Bytes) : Bytes × ρ :=
  let message := formatTalkingMessage speaker.name chat
  let messageBodyStart := (utf8 speaker.name).length + 3
  let messageBodyEnd := message.length - 1
  if recipientEmpire ≠ speaker.empire ∧ messageBodyStart < messageBodyEnd then
    let (body, rng) := obfuscateCrossEmpireTalkingBody draw speaker.empire resolveCrossEmpirePreservePct rng
      ((message.take messageBodyEnd).drop messageBodyStart)
    (message.take messageBodyStart ++ body ++ message.drop messageBodyEnd, rng)
  else (message, rng)

def encodeChatEvent (channel : ChatChannel) (senderEntityId : Option NetId) (empire : Option Empire) (message : Bytes) :
    ChatS2c :=
  .notifyChatMessage channel.toProtocol ⟨senderEntityId⟩ ⟨empire.map (·.toProtocol)⟩ message

/-! ## What is sent for a message -/

/-- The frames for a message of the client: the feedback to a slash command, or local chat for any recipient. A shout
goes to the other cores instead. -/
inductive Sends (env : CommandEnv) (speaker : Speaker) (kind : ChatKind) (message : Bytes) : ChatS2c → Prop
  | feedback {command : ParsedCommand} {frame : ChatS2c}
    (h : ParsedCommand.parse env (trim (decodeCstr message)) = some command)
      (hframe : frame ∈ command.execute env) : Sends env speaker kind message frame
  | localChat (h : ParsedCommand.parse env (trim (decodeCstr message)) = none) (hkind : kind ≠ .shout)
      (recipientEmpire : Empire) (rng : ρ) :
      Sends env speaker kind message (encodeChatEvent (chatKindToDomain kind) (some speaker.netId) (some speaker.empire)
        (localChatMessageFor draw rng speaker recipientEmpire message).1)

end

/-- What is added to the message leaves room for it: for local chat the name, the text up to its end and four bytes; for
a slash command the feedback and one byte. The feedback of a known command is short. -/
def Fits (env : CommandEnv) (speaker : Speaker) (kind : ChatKind) (message : Bytes) : Prop :=
  match ParsedCommand.parse env (trim (decodeCstr message)) with
  | some (.known _) => True
  | some (.feedback text) => (utf8 text).length + 1 ≤ ChatS2c.maxMessage
  | some (.unknown spelled rawFull) => (utf8 (unknownText spelled rawFull)).length + 1 ≤ ChatS2c.maxMessage
  | none => kind = .shout ∨ (utf8 speaker.name).length + (untilNul message).length + 4 ≤ ChatS2c.maxMessage

/-! ## Lengths -/

section

variable {ρ : Type} (draw : ρ → Nat × ρ)

/-- Obfuscation replaces bytes one by one. -/
theorem obfuscate_length (empire : Empire) (pct : Nat) : ∀ (rng : ρ) (body : Bytes),
    (obfuscate draw empire pct rng body).1.length = body.length := by
  intro rng body
  fun_induction obfuscate draw empire pct rng body with
  | case1 => rfl
  | case2 => rfl
  | case3 => rfl
  | case4 => rfl
  | case5 =>
    rename_i hout ih
    rw [hout] at ih
    simpa using ih
  | case6 =>
    rename_i hout ih
    rw [hout] at ih
    simpa using ih
  | case7 =>
    rename_i hout ih
    rw [hout] at ih
    simpa using ih
  | case8 =>
    rename_i hout ih
    rw [hout] at ih
    simpa using ih

theorem formatTalkingMessage_length (name : Text) (chat : Bytes) :
    (formatTalkingMessage name chat).length = (utf8 name).length + (untilNul chat).length + 4 := by
  have hcolon : (utf8 " : ".toList).length = 3 := by decide
  unfold formatTalkingMessage
  rw [List.length_append, List.length_append, List.length_append, hcolon, List.length_singleton]
  omega

/-- Obfuscated or not, the message for a recipient is as long as the prefixed one. -/
theorem localChatMessageFor_length (rng : ρ) (speaker : Speaker) (recipientEmpire : Empire) (chat : Bytes) :
    (localChatMessageFor draw rng speaker recipientEmpire chat).1.length =
      (utf8 speaker.name).length + (untilNul chat).length + 4 := by
  have hlen := formatTalkingMessage_length speaker.name chat
  unfold localChatMessageFor
  dsimp only
  split
  · rename_i hcross
    have hbody := obfuscate_length draw speaker.empire (min resolveCrossEmpirePreservePct 100) rng
      (((formatTalkingMessage speaker.name chat).take ((formatTalkingMessage speaker.name chat).length - 1)).drop
        ((utf8 speaker.name).length + 3))
    unfold obfuscateCrossEmpireTalkingBody
    rw [List.length_append, List.length_append, hbody, List.length_drop, List.length_drop, List.length_take,
      List.length_take]
    omega
  · exact hlen

end

/-- The frame of a text for the player alone is well formed exactly if the text and its zero fit. -/
theorem privateMessage_wellFormed_iff (kind : ChatKind) (text : Text) :
    (privateMessage kind text).WellFormed ↔ (utf8 text).length + 1 ≤ ChatS2c.maxMessage := by
  unfold privateMessage
  rw [ChatS2c.wellFormed_iff (by simp), List.length_append]
  rfl

/-- A text is no longer for being collapsed. -/
theorem length_wordsFrom_le : ∀ (text current : Text),
    ((wordsFrom current text).intersperse [' ']).flatten.length ≤ current.length + text.length
  | [], current => by
    unfold wordsFrom
    split
    · simp
    · simp
  | c :: text, current => by
    have hfresh := length_wordsFrom_le text []
    have hgrown := length_wordsFrom_le text (current ++ [c])
    rw [List.length_append, List.length_singleton] at hgrown
    rw [List.length_nil] at hfresh
    rw [List.length_cons]
    unfold wordsFrom
    split
    · split
      · omega
      · -- the space between two words stands for the whitespace that ends the first
        cases hwords : wordsFrom [] text with
        | nil => simp
        | cons word words =>
          rw [hwords] at hfresh
          rw [List.intersperse_cons_cons, List.flatten_cons, List.flatten_cons, List.length_append, List.length_append,
            List.length_singleton]
          omega
    · omega

theorem length_utf8_le (text : Text) : (utf8 text).length ≤ 4 * text.length := by
  unfold utf8
  induction text with
  | nil => rfl
  | cons c text ih =>
    have hsize := c.utf8Size_le_four
    rw [List.flatMap_cons, List.length_append, String.length_utf8EncodeChar, List.length_cons]
    omega

/-- The texts of the known commands are short, and a short text fits. -/
theorem prefixedInfo_fits {commandName message : Text} (h : commandName.length + message.length ≤ 16378) :
    (utf8 (prefixedInfo commandName message)).length + 1 ≤ ChatS2c.maxMessage := by
  have hbytes := length_utf8_le (prefixedInfo commandName message)
  have hmessage : (collapseToOneLine message).length ≤ message.length := by
    exact (length_wordsFrom_le message []).trans_eq (Nat.zero_add _)
  have hname : (normalizeCommandName commandName).length ≤ commandName.length + 1 := by
    unfold normalizeCommandName
    split
    · omega
    · exact le_rfl
  have hlength : (prefixedInfo commandName message).length =
      (normalizeCommandName commandName).length + 2 + (collapseToOneLine message).length := by
    unfold prefixedInfo
    rw [List.length_append, List.length_append]
    rfl
  unfold ChatS2c.maxMessage
  omega

theorem busy_fits (command : IntentCommand) :
    (utf8 (prefixedInfo command.commandName "Server is busy. Please try again.".toList)).length + 1 ≤
      ChatS2c.maxMessage := by
  have hname : command.commandName.length ≤ 20 := by
    cases command with
    | setWalkMode | setRunMode | restartHere | restartTown => decide
    | statIncrease stat | statDecrease stat => exact of_decide_eq_true rfl
  have hmessage : "Server is busy. Please try again.".toList.length = 33 := by decide
  apply prefixedInfo_fits
  omega

theorem teleport_error_fits (command : TeleportCommand) (error : TeleportCommandError) :
    (utf8 (prefixedInfo command.commandName error.text)).length + 1 ≤ ChatS2c.maxMessage := by
  have hname : command.commandName.length = 4 := by
    cases command with
    | warp x y => rfl
    | goto target y => rfl
  have herror : error.text.length ≤ 100 := by cases error <;> decide +kernel
  apply prefixedInfo_fits
  omega

theorem KnownCommand.execute_wellFormed (env : CommandEnv) (command : KnownCommand) {frame : ChatS2c}
    (h : frame ∈ command.execute env) : frame.WellFormed := by
  cases command with
  | phaseSelect => cases h
  | logout =>
    cases List.mem_singleton.1 h
    exact (privateMessage_wellFormed_iff _ _).2 (by decide)
  | quit =>
    cases List.mem_singleton.1 h
    exact (privateMessage_wellFormed_iff _ _).2 (by decide)
  | intent command =>
    simp only [KnownCommand.execute] at h
    split at h
    · cases h
    · cases List.mem_singleton.1 h
      exact (privateMessage_wellFormed_iff _ _).2 (busy_fits command)
  | teleport command =>
    simp only [KnownCommand.execute] at h
    split at h
    · cases h
    · rename_i error _
      cases List.mem_singleton.1 h
      exact (privateMessage_wellFormed_iff _ _).2 (teleport_error_fits command error)

/-! ## Frames -/

variable {ρ : Type} (draw : ρ → Nat × ρ) (env : CommandEnv) (speaker : Speaker) (kind : ChatKind) (message : Bytes)

theorem localChat_wellFormed_iff (rng : ρ) (recipientEmpire : Empire) :
    (encodeChatEvent (chatKindToDomain kind) (some speaker.netId) (some speaker.empire)
        (localChatMessageFor draw rng speaker recipientEmpire message).1).WellFormed ↔
      (utf8 speaker.name).length + (untilNul message).length + 4 ≤ ChatS2c.maxMessage := by
  unfold encodeChatEvent
  rw [ChatS2c.wellFormed_iff, localChatMessageFor_length]
  intro h
  exact speaker.netId_ne (congrArg NetId.raw (Option.some.inj h))

theorem chatKind_round_trip : (chatKindToDomain kind).toProtocol = kind := by cases kind <;> rfl

/-- For every message of a client, speaker, recipient and state of the random numbers: the frames that are sent for the
message are well formed exactly if it leaves room for what is added to it. -/
theorem chat_frames_wellFormed_iff (rng : ρ) :
    (∀ frame, Sends draw env speaker kind message frame → frame.WellFormed) ↔ Fits env speaker kind message := by
  unfold Fits
  constructor
  · intro hall
    split
    · trivial
    · rename_i text hparse
      exact (privateMessage_wellFormed_iff _ _).1 (hall _ (.feedback hparse List.mem_cons_self))
    · rename_i spelled rawFull hparse
      exact (privateMessage_wellFormed_iff _ _).1 (hall _ (.feedback hparse List.mem_cons_self))
    · rename_i hparse
      by_cases hkind : kind = .shout
      · exact .inl hkind
      · exact .inr ((localChat_wellFormed_iff draw speaker kind message rng .red).1
          (hall _ (.localChat hparse hkind .red rng)))
  · rintro hfits frame (⟨hparse, hframe⟩ | ⟨hparse, hkind, recipientEmpire, rng'⟩)
    · rw [hparse] at hfits
      rename_i command
      cases command with
      | unknown spelled rawFull =>
        cases List.mem_singleton.1 hframe
        exact (privateMessage_wellFormed_iff _ _).2 hfits
      | feedback text =>
        cases List.mem_singleton.1 hframe
        exact (privateMessage_wellFormed_iff _ _).2 hfits
      | known command => exact command.execute_wellFormed env hframe
    · rw [hparse] at hfits
      exact (localChat_wellFormed_iff draw speaker kind message rng' recipientEmpire).2 (hfits.resolve_left hkind)

/-! ## A message that is too long -/

theorem fromUtf8Lossy_cons {b : UInt8} (h : b < 0x80) (rest : Bytes) :
    fromUtf8Lossy (b :: rest) = .ofNat b.toNat :: fromUtf8Lossy rest := by
  have hfirst : firstChar b rest = (.ofNat b.toNat, 0) := if_pos h
  unfold fromUtf8Lossy
  rw [List.length_cons, fromUtf8LossyFrom, hfirst]
  rfl

theorem trim_cons {c : Char} (h : isWhitespace c = false) (text : Text) : ∃ rest, trim (c :: text) = c :: rest := by
  unfold trim
  rw [List.dropWhile_cons_of_neg (by simp [h])]
  unfold trimEnd
  split
  · exact ⟨[], by rw [h]; rfl⟩
  · exact ⟨_, rfl⟩

/-- A text that starts with a letter is no command. -/
theorem parse_of_letter (rest : Bytes) : ParsedCommand.parse env (trim (decodeCstr (0x61 :: rest))) = none := by
  have huntil : untilNul (0x61 :: rest) = 0x61 :: untilNul rest := List.takeWhile_cons_of_pos (by decide)
  unfold decodeCstr
  rw [huntil, fromUtf8Lossy_cons (by decide)]
  obtain ⟨text, htext⟩ := trim_cons (c := .ofNat (0x61 : UInt8).toNat) (by decide) (fromUtf8Lossy (untilNul rest))
  rw [htext]
  obtain ⟨text', htext'⟩ := trim_cons (c := .ofNat (0x61 : UInt8).toNat) (by decide) text
  unfold ParsedCommand.parse
  rw [htext']
  rfl

/-- Alice, on the map of the red empire. -/
def alice : Speaker := ⟨"Alice".toList, .red, ⟨7⟩, by decide⟩

/-- Every intent is taken, no teleport fails and no subcommand is known. -/
def plainEnv : CommandEnv := ⟨fun _ => .invalidSubcommand, fun _ => none, fun _ => true, fun _ => none⟩

/-- The longest message that the decoder takes: all of it is `a`. -/
def longestMessage : Bytes := List.replicate ChatC2s.maxMessage 0x61

/-- The server reads the longest message, and the frame that it sends to everybody around is not well formed. -/
theorem long_chat_malformed :
    (∃ bs, write (ChatC2s.submitChatMessage .speak longestMessage) = .ok bs ∧
      ReadsBack (read : Read ChatC2s) bs (.submitChatMessage .speak longestMessage)) ∧
    ∃ frame, Sends (fun rng : Nat => (50, rng)) plainEnv alice .speak longestMessage frame ∧ ¬ frame.WellFormed := by
  have hlen : longestMessage.length = ChatC2s.maxMessage := List.length_replicate
  have hsome : longestMessage = 0x61 :: List.replicate 65530 0x61 := rfl
  have hparse : ParsedCommand.parse plainEnv (trim (decodeCstr longestMessage)) = none := by
    rw [hsome]
    exact parse_of_letter plainEnv _
  have huntil : untilNul longestMessage = longestMessage := by
    unfold untilNul longestMessage
    rw [List.takeWhile_replicate]
    rfl
  constructor
  · cases hw : write (ChatC2s.submitChatMessage .speak longestMessage) with
    | error e => cases hw
    | ok bs => exact ⟨bs, rfl, ChatC2s.readsBack hlen.le hw⟩
  · refine ⟨_, .localChat hparse (by decide) .red 0, fun h => ?_⟩
    have hfit := (localChat_wellFormed_iff _ alice .speak longestMessage 0 .red).1 h
    rw [huntil, hlen] at hfit
    exact absurd hfit (by decide)

end Zohar.Game

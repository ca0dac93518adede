/-
The codec of a connection and the connection's passage through its phases. Bytes arrive in chunks of
any size, a packet is taken off the buffer whenever one is there, and a move to another phase keeps
the buffer and the sequencer. What comes out does not depend on how the bytes arrived: it is what
decoding the whole stream at once gives, phase by phase.
-/
import Zohar.Net.Phase

namespace Zohar.Net

open Zohar.Lib

/-! ## The packet sequencer -/

structure SequenceMismatchError where
  expected : UInt8
  got : UInt8
  deriving DecidableEq, Repr

/-- A place in the table of sequence bytes, which client and server go through together. -/
structure PacketSequencer where
  seqBytes : List UInt8
  pos : Nat
  pos_lt : pos < seqBytes.length
  lastMismatch : Option SequenceMismatchError
  deriving DecidableEq, Repr

namespace PacketSequencer

/-- The next expected byte, without consuming it. -/
def expected (s : PacketSequencer) : UInt8 := s.seqBytes.get ⟨s.pos, s.pos_lt⟩

/-- Consumes the next byte; after the last one the table starts again. -/
def nextByte (s : PacketSequencer) : UInt8 × PacketSequencer :=
  (s.expected,
    if h : s.pos + 1 = s.seqBytes.length then { s with pos := 0, pos_lt := by have := s.pos_lt; omega }
    else { s with pos := s.pos + 1, pos_lt := by have := s.pos_lt; omega })

/-- Consumes the next byte, whether or not it is the one that came. -/
def check (s : PacketSequencer) (got : UInt8) : Bool × PacketSequencer :=
  let (expected, s) := s.nextByte
  (got == expected, { s with lastMismatch := if got == expected then none else some ⟨expected, got⟩ })

end PacketSequencer

/-! ## Decoding -/

/-- What `decode` fails with; the text of an unknown opcode holds the buffer as it stood. -/
inductive DecodeError where
  | unknownOpcode (opcode : UInt8) (payload : Bytes)
  | invalid (err : BinError)
  | sequenceMismatch (err : SequenceMismatchError)

def decodeErrorToIo (src : Bytes) (err : BinError) : DecodeError :=
  if isUnknownOpcode err then .unknownOpcode (src.head?.getD 0) src else .invalid err

/-- `SimpleBinRwCodec::decode`: the result and what is left of the buffer. -/
def decodeSimple (α : Type) [BinRead α] (src : Bytes) : Except DecodeError (Option α) × Bytes :=
  if src.isEmpty then (.ok none, src)
  else match (read : Read α) ⟨0, src⟩ with
    | .ok (packet, cursor) => (.ok (some packet), src.drop cursor.pos)
    | .error err => if isIncomplete err then (.ok none, src) else (.error (decodeErrorToIo src err), src)

/-- The part of `SequencedBinRwCodec::decode` behind a packet of `packetLen` bytes: the trailing sequence byte. -/
def takeSequenceByte {α : Type} (sequencer : PacketSequencer) (packet : α) (packetLen : Nat) (src : Bytes) :
    Except DecodeError (Option α) × PacketSequencer × Bytes :=
  match src[packetLen]? with
  | none => (.ok none, sequencer, src)
  | some seqByte =>
    let (matched, sequencer') := sequencer.check seqByte
    if matched then (.ok (some packet), sequencer', src.drop (packetLen + 1))
    -- the sequencer has moved on by now, so the byte reported as expected is the one after
    else (.error (.sequenceMismatch ⟨sequencer'.expected, seqByte⟩), sequencer', src)

/-- `SequencedBinRwCodec::decode`: a packet, and behind it the sequence byte unless its opcode goes without. -/
def decodeSequenced (α : Type) [BinRead α] (sequencer : PacketSequencer) (src : Bytes) :
    Except DecodeError (Option α) × PacketSequencer × Bytes :=
  match src with
  | [] => (.ok none, sequencer, src)
  | opcode :: _ =>
    match (read : Read α) ⟨0, src⟩ with
    | .error err =>
      if isIncomplete err then (.ok none, sequencer, src) else (.error (decodeErrorToIo src err), sequencer, src)
    | .ok (packet, cursor) =>
      if isUnsequencedC2sOpcode opcode then (.ok (some packet), sequencer, src.drop cursor.pos)
      else takeSequenceByte sequencer packet cursor.pos src

/-! ## Connections -/

/-- The state of a codec: none in the handshakes, the sequencer elsewhere. -/
inductive CodecState where
  | stateless
  | sequenced (sequencer : PacketSequencer)
  deriving DecidableEq, Repr

/-- A connection: its state, its codec, and the bytes that have arrived and were not yet decoded. -/
structure Connection where
  state : ConnectionState
  codec : CodecState
  readBuf : Bytes
  deriving DecidableEq, Repr

/-- A packet, with the state in which it was received. -/
abbrev Packet := Σ state : ConnectionState, state.C2sPacket

/-- The decoder of a state with its codec. -/
def decodeWith (state : ConnectionState) : CodecState → Bytes → Except DecodeError (Option Packet) × CodecState × Bytes
  | .stateless, src =>
    let (result, rest) := decodeSimple state.C2sPacket src
    (result.map (Option.map fun p => ⟨state, p⟩), .stateless, rest)
  | .sequenced sequencer, src =>
    let (result, sequencer', rest) := decodeSequenced state.C2sPacket sequencer src
    (result.map (Option.map fun p => ⟨state, p⟩), .sequenced sequencer', rest)

/-- One call of the decoder on the buffer of a connection. -/
def Connection.decode (conn : Connection) : Except DecodeError (Option Packet) × Connection :=
  let (result, codec, readBuf) := decodeWith conn.state conn.codec conn.readBuf
  (result, { conn with codec, readBuf })

/-- `NextState`: the state after this one, with the codec it takes over. A handshake hands over to a codec that
starts with a fresh sequencer; every later move keeps the sequencer. -/
def Connection.intoNext (fresh : PacketSequencer) (conn : Connection) : Option Connection :=
  match conn.state with
  | .handshakeGame => some { conn with state := .login, codec := .sequenced fresh }
  | .login => some { conn with state := .select }
  | .select => some { conn with state := .loading }
  | .loading => some { conn with state := .inGame }
  | .inGame => some { conn with state := .select }
  | .handshakeAuth => some { conn with state := .auth, codec := .sequenced fresh }
  | .auth => none

/-- The connection when more bytes have arrived. -/
def Connection.more (conn : Connection) (later : Bytes) : Connection := { conn with readBuf := conn.readBuf ++ later }

/-- Two failures that differ at most in the buffer that an unknown opcode is reported with. -/
inductive SameFailure : DecodeError → DecodeError → Prop
  | unknownOpcode (opcode : UInt8) (payload payload' : Bytes) :
      SameFailure (.unknownOpcode opcode payload) (.unknownOpcode opcode payload')
  | rfl (err : DecodeError) : SameFailure err err

theorem decodeErrorToIo_append {src : Bytes} (hne : src ≠ []) (err : BinError) (later : Bytes) :
    SameFailure (decodeErrorToIo src err) (decodeErrorToIo (src ++ later) err) := by
  obtain ⟨b, bs, rfl⟩ := List.exists_cons_of_ne_nil hne
  unfold decodeErrorToIo
  split
  · exact .unknownOpcode b _ _
  · exact .rfl _

/-- The answers of a decoder. Without a packet it leaves everything as it was; a packet or a failure does not change
when more bytes have arrived. -/
structure DecodeSpec {α σ : Type} (decode : Bytes → Except DecodeError (Option α) × σ × Bytes) (st : σ) : Prop where
  onNone : ∀ {src st' rest}, decode src = (.ok none, st', rest) → st' = st ∧ rest = src
  onSome : ∀ {src p st' rest}, decode src = (.ok (some p), st', rest) →
    rest.length < src.length ∧ ∀ later, decode (src ++ later) = (.ok (some p), st', rest ++ later)
  onError : ∀ {src e st' rest}, decode src = (.error e, st', rest) →
    ∀ later, ∃ e', decode (src ++ later) = (.error e', st', rest ++ later) ∧ SameFailure e e'

section Answers

variable {α : Type} [BinRead α]

theorem read_ok [Consuming α] {src : Bytes} {p : α} {c : Cursor UInt8} (h : (read : Read α) ⟨0, src⟩ = .ok (p, c)) :
    0 < c.pos ∧ c.pos ≤ src.length ∧
      ∀ later, (read : Read α) ⟨0, src ++ later⟩ = .ok (p, c.more later) := by
  have hpos := Consuming.consumes _ _ _ h
  obtain ⟨n, hn, rfl⟩ := BinRead.stable.within h
  exact ⟨hpos, by simpa [Cursor.advance] using hn, BinRead.stable.ok h⟩

/-- An error of the packet's reader is the same failure on a longer buffer. -/
theorem read_error {src : Bytes} {err : BinError} (h : (read : Read α) ⟨0, src⟩ = .error err)
    (hinc : ¬isIncomplete err = true) (later : Bytes) : (read : Read α) ⟨0, src ++ later⟩ = .error err :=
  BinRead.stable.error h (by simpa using hinc) later

theorem decodeSimple_spec [Consuming α] :
    DecodeSpec (fun src => ((decodeSimple α src).1, (), (decodeSimple α src).2)) () := by
  have hnil : decodeSimple α [] = (.ok none, []) := rfl
  have hcons (b : UInt8) (bs : Bytes) : decodeSimple α (b :: bs) = match (read : Read α) ⟨0, b :: bs⟩ with
    | .ok (packet, cursor) => (.ok (some packet), (b :: bs).drop cursor.pos)
    | .error err =>
      if isIncomplete err then (.ok none, b :: bs) else (.error (decodeErrorToIo (b :: bs) err), b :: bs) := rfl
  refine { onNone := ?_, onSome := ?_, onError := ?_ }
  · rintro (_ | ⟨b, bs⟩) _ rest h
    · rw [hnil] at h; cases h; exact ⟨rfl, rfl⟩
    · rw [hcons] at h
      split at h
      · cases h
      · split at h <;> cases h
        exact ⟨rfl, rfl⟩
  · rintro (_ | ⟨b, bs⟩) p _ rest h
    · rw [hnil] at h; cases h
    · rw [hcons] at h
      split at h
      · rename_i packet c hread
        obtain ⟨hpos, hle, hmore⟩ := read_ok hread
        cases h
        refine ⟨by simp only [List.length_drop, List.length_cons]; omega, fun later => ?_⟩
        have hlater := hmore later
        simp only [List.cons_append] at hlater ⊢
        rw [hcons, hlater]
        simp only [Cursor.more_pos]
        rw [← List.cons_append, List.drop_append_of_le_length hle]
      · split at h <;> cases h
  · rintro (_ | ⟨b, bs⟩) e _ rest h later
    · rw [hnil] at h; cases h
    · rw [hcons] at h
      split at h
      · cases h
      · rename_i err hread
        split at h
        · cases h
        · rename_i hinc
          cases h
          have hlater := read_error hread hinc later
          refine ⟨_, ?_, decodeErrorToIo_append (List.cons_ne_nil _ _) err later⟩
          simp only [List.cons_append] at hlater ⊢
          rw [hcons, hlater]
          simp only [hinc, Bool.false_eq_true, if_false]

omit [BinRead α] in
/-- The sequence byte is looked at only once it is there. -/
theorem takeSequenceByte_spec (sequencer : PacketSequencer) (packet : α) (packetLen : Nat) :
    DecodeSpec (takeSequenceByte sequencer packet packetLen) sequencer := by
  have hlater {src : Bytes} {b : UInt8} (h : src[packetLen]? = some b) (later : Bytes) :
      packetLen < src.length ∧ (src ++ later)[packetLen]? = some b := by
    obtain ⟨hlt, -⟩ := List.getElem?_eq_some_iff.1 h
    exact ⟨hlt, by rw [List.getElem?_append_left hlt]; exact h⟩
  refine { onNone := ?_, onSome := ?_, onError := ?_ }
  · intro src st' rest h
    simp only [takeSequenceByte] at h
    split at h
    · cases h; exact ⟨rfl, rfl⟩
    · split at h <;> cases h
  · intro src p st' rest h
    simp only [takeSequenceByte] at h
    split at h
    · cases h
    · rename_i seqByte hbyte
      split at h <;> cases h
      rename_i hmatch
      refine ⟨by have := (hlater hbyte []).1; simp only [List.length_drop]; omega, fun later => ?_⟩
      obtain ⟨hlt, hbyte'⟩ := hlater hbyte later
      simp only [takeSequenceByte, hbyte', hmatch, if_true]
      rw [List.drop_append_of_le_length hlt]
  · intro src e st' rest h later
    simp only [takeSequenceByte] at h
    split at h
    · cases h
    · rename_i seqByte hbyte
      split at h <;> cases h
      rename_i hmatch
      exact ⟨_, by simp only [takeSequenceByte, (hlater hbyte later).2, hmatch, Bool.false_eq_true, if_false], .rfl _⟩

theorem decodeSequenced_spec [Consuming α] (sequencer : PacketSequencer) :
    DecodeSpec (decodeSequenced α sequencer) sequencer := by
  have hcons (b : UInt8) (bs : Bytes) : decodeSequenced α sequencer (b :: bs) =
    match (read : Read α) ⟨0, b :: bs⟩ with
    | .error err => if isIncomplete err then (.ok none, sequencer, b :: bs)
      else (.error (decodeErrorToIo (b :: bs) err), sequencer, b :: bs)
    | .ok (packet, cursor) =>
      if isUnsequencedC2sOpcode b then (.ok (some packet), sequencer, (b :: bs).drop cursor.pos)
      else takeSequenceByte sequencer packet cursor.pos (b :: bs) := rfl
  refine { onNone := ?_, onSome := ?_, onError := ?_ }
  · rintro (_ | ⟨b, bs⟩) st' rest h
    · cases h; exact ⟨rfl, rfl⟩
    · rw [hcons] at h
      split at h
      · split at h <;> cases h
        exact ⟨rfl, rfl⟩
      · split at h
        · cases h
        · exact (takeSequenceByte_spec sequencer _ _).onNone h
  · rintro (_ | ⟨b, bs⟩) p st' rest h
    · cases h
    · rw [hcons] at h
      split at h
      · split at h <;> cases h
      · rename_i packet c hread
        obtain ⟨hpos, hle, hmore⟩ := read_ok hread
        simp only [List.cons_append] at hmore
        split at h
        · rename_i hseq
          cases h
          refine ⟨by simp only [List.length_drop, List.length_cons]; omega, fun later => ?_⟩
          rw [List.cons_append, hcons, hmore later]
          simp only [Cursor.more_pos, hseq, if_true]
          rw [← List.cons_append, List.drop_append_of_le_length hle]
        · rename_i hseq
          obtain ⟨hlt, htake⟩ := (takeSequenceByte_spec sequencer packet c.pos).onSome h
          refine ⟨hlt, fun later => ?_⟩
          rw [List.cons_append, hcons, hmore later]
          simp only [Cursor.more_pos, hseq, Bool.false_eq_true, if_false]
          exact htake later
  · rintro (_ | ⟨b, bs⟩) e st' rest h later
    · cases h
    · rw [hcons] at h
      split at h
      · rename_i err hread
        split at h
        · cases h
        · rename_i hinc
          cases h
          have hlater := read_error hread hinc later
          refine ⟨_, ?_, decodeErrorToIo_append (List.cons_ne_nil _ _) err later⟩
          simp only [List.cons_append] at hlater ⊢
          rw [hcons, hlater]
          simp only [hinc, Bool.false_eq_true, if_false]
      · rename_i packet c hread
        obtain ⟨-, -, hmore⟩ := read_ok hread
        simp only [List.cons_append] at hmore
        split at h
        · cases h
        · rename_i hseq
          obtain ⟨e', htake, hsame⟩ := (takeSequenceByte_spec sequencer packet c.pos).onError h later
          refine ⟨e', ?_, hsame⟩
          rw [List.cons_append, hcons, hmore later]
          simp only [Cursor.more_pos, hseq, Bool.false_eq_true, if_false]
          exact htake

end Answers

theorem DecodeSpec.map {α β σ ρ : Type} {d : Bytes → Except DecodeError (Option α) × σ × Bytes} {st : σ}
    (hd : DecodeSpec d st) (f : α → β) (g : σ → ρ) :
    DecodeSpec (fun src => ((d src).1.map (Option.map f), g (d src).2.1, (d src).2.2)) (g st) := by
  refine { onNone := ?_, onSome := ?_, onError := ?_ }
  · intro src st' rest h
    rcases hx : d src with ⟨result, s, r⟩
    rw [hx] at h
    rcases result with e | (_ | p) <;> cases h
    obtain ⟨rfl, rfl⟩ := hd.onNone hx
    exact ⟨rfl, rfl⟩
  · intro src q st' rest h
    rcases hx : d src with ⟨result, s, r⟩
    rw [hx] at h
    rcases result with e | (_ | p) <;> cases h
    obtain ⟨hlt, hmore⟩ := hd.onSome hx
    exact ⟨hlt, fun later => by rw [hmore later]; rfl⟩
  · intro src e st' rest h later
    rcases hx : d src with ⟨result, s, r⟩
    rw [hx] at h
    rcases result with e | (_ | p) <;> cases h
    obtain ⟨e', hmore, hsame⟩ := hd.onError hx later
    exact ⟨e', by rw [hmore]; rfl, hsame⟩

theorem decodeWith_spec (state : ConnectionState) (codec : CodecState) : DecodeSpec (decodeWith state codec) codec := by
  cases codec with
  | stateless => exact decodeSimple_spec.map (fun p => (⟨state, p⟩ : Packet)) fun _ => CodecState.stateless
  | sequenced sequencer =>
    exact (decodeSequenced_spec sequencer).map (fun p => (⟨state, p⟩ : Packet)) CodecState.sequenced

namespace Connection

variable {conn conn' : Connection}

/-- Without a packet the decoder consumes no byte and leaves the sequencer where it was. -/
theorem decode_none (h : conn.decode = (.ok none, conn')) : conn' = conn := by
  rcases hd : decodeWith conn.state conn.codec conn.readBuf with ⟨result, codec, rest⟩
  simp only [decode, hd] at h
  cases h
  obtain ⟨rfl, rfl⟩ := (decodeWith_spec _ _).onNone hd
  rfl

theorem decode_some {p : Packet} (h : conn.decode = (.ok (some p), conn')) :
    conn'.readBuf.length < conn.readBuf.length ∧
      ∀ later, (conn.more later).decode = (.ok (some p), conn'.more later) := by
  rcases hd : decodeWith conn.state conn.codec conn.readBuf with ⟨result, codec, rest⟩
  simp only [decode, hd] at h
  cases h
  obtain ⟨hlt, hmore⟩ := (decodeWith_spec _ _).onSome hd
  refine ⟨hlt, fun later => ?_⟩
  simp only [decode, more, hmore later]

theorem decode_error {e : DecodeError} (h : conn.decode = (.error e, conn')) (later : Bytes) :
    ∃ e', (conn.more later).decode = (.error e', conn'.more later) ∧ SameFailure e e' := by
  rcases hd : decodeWith conn.state conn.codec conn.readBuf with ⟨result, codec, rest⟩
  simp only [decode, hd] at h
  cases h
  obtain ⟨e', hmore, hsame⟩ := (decodeWith_spec _ _).onError hd later
  exact ⟨e', by simp only [decode, more, hmore], hsame⟩

theorem intoNext_more (fresh : PacketSequencer) (conn : Connection) (later : Bytes) :
    (conn.more later).intoNext fresh = (conn.intoNext fresh).map (·.more later) := by
  obtain ⟨state, codec, readBuf⟩ := conn
  cases state <;> rfl

end Connection

/-! ## Sessions -/

/-- What happens on a connection: bytes arrive, the server asks for the next packet, or it moves the connection on. -/
inductive Input where
  | read (chunk : Bytes)
  | recv
  | intoNext
  deriving DecidableEq, Repr

/-- A connection with the packets it has given so far; a failure ends it. -/
structure Session where
  conn : Connection
  yielded : List Packet
  failed : Option DecodeError

namespace Session

def start (conn : Connection) : Session := ⟨conn, [], none⟩

/-- Bytes arrive. -/
def more (s : Session) (later : Bytes) : Session := { s with conn := s.conn.more later }

/-- The next packet, if it is there. -/
def recv (s : Session) : Session :=
  match s.failed with
  | some _ => s
  | none => match s.conn.decode with
    | (.ok (some p), conn) => { s with conn, yielded := s.yielded ++ [p] }
    | (.ok none, conn) => { s with conn }
    | (.error e, conn) => { s with conn, failed := some e }

/-- The move to the next state, where there is one. -/
def intoNext (fresh : PacketSequencer) (s : Session) : Option Session :=
  match s.failed with
  | some _ => none
  | none => (s.conn.intoNext fresh).map fun conn => { s with conn }

def step (fresh : PacketSequencer) (s : Session) : Input → Session
  | .read chunk => s.more chunk
  | .recv => s.recv
  | .intoNext => (s.intoNext fresh).getD s

def run (fresh : PacketSequencer) (s : Session) (inputs : List Input) : Session := inputs.foldl (step fresh) s

/-- Takes packets off the buffer as long as there are any: each takes a byte at least. -/
def drain (s : Session) : Session := recv^[s.conn.readBuf.length + 1] s

/-- The bytes that arrive. -/
def received : List Input → Bytes
  | [] => []
  | .read chunk :: inputs => chunk ++ received inputs
  | _ :: inputs => received inputs

/-- How many packets the connection gave in each state before it moved on. -/
def plan (fresh : PacketSequencer) : Session → List Input → List Nat
  | _, [] => []
  | s, .read chunk :: inputs => plan fresh (s.more chunk) inputs
  | s, .recv :: inputs =>
    let ns := plan fresh s.recv inputs
    if s.recv.yielded.length = s.yielded.length then ns
    else match ns with
      | [] => []
      | n :: ns => (n + 1) :: ns
  | s, .intoNext :: inputs => match s.intoNext fresh with
    | some s' => 0 :: plan fresh s' inputs
    | none => plan fresh s inputs

/-- Decoding phase by phase what is in the buffer: so many packets in each state, and in the last one all there are. -/
def decodePhases (fresh : PacketSequencer) : Session → List Nat → Session
  | s, [] => s.drain
  | s, n :: ns => match (recv^[n] s).intoNext fresh with
    | some s' => decodePhases fresh s' ns
    | none => recv^[n] s

variable {fresh : PacketSequencer} {s : Session}

/-- What asking for a packet does: nothing, if there is none or the session has failed; else a packet more, or the
failure. Later bytes do not change the last two. -/
theorem recv_cases (s : Session) :
    s.recv = s ∨
      (∃ p conn, s.failed = none ∧ s.recv = { s with conn, yielded := s.yielded ++ [p] } ∧
        conn.readBuf.length < s.conn.readBuf.length ∧ ∀ later, (s.more later).recv = s.recv.more later) ∨
      ∃ e conn, s.failed = none ∧ s.recv = { s with conn, failed := some e } ∧
        ∀ later, ∃ e', (s.more later).recv = { s with conn := conn.more later, failed := some e' } ∧
          SameFailure e e' := by
  cases hf : s.failed with
  | some e => exact .inl (by simp only [recv, hf])
  | none =>
    rcases hd : s.conn.decode with ⟨e | (_ | p), conn⟩
    · refine .inr (.inr ⟨e, conn, rfl, by simp only [recv, hf, hd], fun later => ?_⟩)
      obtain ⟨e', hmore, hsame⟩ := Connection.decode_error hd later
      exact ⟨e', by simp only [recv, more, hf, hmore], hsame⟩
    · refine .inl ?_
      obtain rfl := Connection.decode_none hd
      simp only [recv, hf, hd]
      rw [← hf]
    · obtain ⟨hlt, hmore⟩ := Connection.decode_some hd
      refine .inr (.inl ⟨p, conn, rfl, by simp only [recv, hf, hd], hlt, fun later => ?_⟩)
      simp only [recv, more, hf, hd, hmore later]

/-- A session that has failed stays as it is. -/
theorem recv_of_failed (h : s.failed.isSome) : s.recv = s := by
  obtain ⟨e, he⟩ := Option.isSome_iff_exists.1 h
  simp only [recv, he]

theorem iterate_recv_of_eq (h : s.recv = s) (n : Nat) : recv^[n] s = s := Function.iterate_fixed h n

/-- As many calls as there are bytes, and one, settle the session: more of them change nothing. -/
theorem iterate_recv {n : Nat} (h : s.conn.readBuf.length < n) : recv^[n] s = s.drain := by
  suffices hall : ∀ k (s : Session), s.conn.readBuf.length ≤ k → ∀ n m, k < n → k < m → recv^[n] s = recv^[m] s from
    hall _ s le_rfl n _ h (Nat.lt_succ_self _)
  -- on the number of bytes in the buffer: a call that gives a packet takes one away
  intro k
  induction k with
  | zero =>
    intro s hk n m hn hm
    obtain ⟨n, rfl⟩ := Nat.exists_eq_succ_of_ne_zero (by omega : n ≠ 0)
    obtain ⟨m, rfl⟩ := Nat.exists_eq_succ_of_ne_zero (by omega : m ≠ 0)
    rw [Function.iterate_succ_apply, Function.iterate_succ_apply]
    rcases recv_cases s with hs | ⟨p, conn, -, -, hlt, -⟩ | ⟨e, conn, -, hs, -⟩
    · rw [hs, iterate_recv_of_eq hs, iterate_recv_of_eq hs]
    · omega
    · have hfix : s.recv.recv = s.recv := recv_of_failed (by rw [hs]; rfl)
      rw [iterate_recv_of_eq hfix, iterate_recv_of_eq hfix]
  | succ k ih =>
    intro s hk n m hn hm
    obtain ⟨n, rfl⟩ := Nat.exists_eq_succ_of_ne_zero (by omega : n ≠ 0)
    obtain ⟨m, rfl⟩ := Nat.exists_eq_succ_of_ne_zero (by omega : m ≠ 0)
    rw [Function.iterate_succ_apply, Function.iterate_succ_apply]
    rcases recv_cases s with hs | ⟨p, conn, -, hs, hlt, -⟩ | ⟨e, conn, -, hs, -⟩
    · rw [hs, iterate_recv_of_eq hs, iterate_recv_of_eq hs]
    · exact ih s.recv (by rw [hs]; simp only; omega) n m (by omega) (by omega)
    · have hfix : s.recv.recv = s.recv := recv_of_failed (by rw [hs]; rfl)
      rw [iterate_recv_of_eq hfix, iterate_recv_of_eq hfix]

/-- Draining takes all packets there are. -/
theorem recv_drain (s : Session) : s.drain.recv = s.drain := by
  have h : recv^[s.conn.readBuf.length + 2] s = s.drain := iterate_recv (by omega)
  rw [Function.iterate_succ_apply'] at h
  exact h

theorem drain_of_eq (h : s.recv = s) : s.drain = s := iterate_recv_of_eq h _

theorem drain_recv (s : Session) : s.recv.drain = s.drain := by
  rcases recv_cases s with hs | ⟨p, conn, -, hs, hlt, -⟩ | ⟨e, conn, -, hs, -⟩
  · rw [hs]
  · have hlen : s.recv.conn.readBuf.length < s.conn.readBuf.length := by rw [hs]; exact hlt
    rw [← iterate_recv hlen, ← Function.iterate_succ_apply]
    rfl
  · have hfix : s.recv.recv = s.recv := recv_of_failed (by rw [hs]; rfl)
    rw [drain_of_eq hfix, drain, Function.iterate_succ_apply, iterate_recv_of_eq hfix]

/-! ## Decoding in chunks and at once -/

/-- Two sessions that gave the same packets and failed at the same packet or not at all; without a failure they stand
at the same place of the stream. -/
structure Agree (split whole : Session) : Prop where
  yielded : whole.yielded = split.yielded
  failed : Option.Rel SameFailure split.failed whole.failed
  conn : split.failed = none → whole.conn = split.conn

theorem Agree.refl (s : Session) : Agree s s := by
  refine ⟨rfl, ?_, fun _ => rfl⟩
  cases s.failed with
  | none => exact .none
  | some e => exact .some (.rfl e)

theorem more_more (s : Session) (xs ys : Bytes) : (s.more xs).more ys = s.more (xs ++ ys) := by
  simp only [more, Connection.more, List.append_assoc]

theorem more_nil (s : Session) : s.more [] = s := by
  simp only [more, Connection.more, List.append_nil]

theorem intoNext_more (fresh : PacketSequencer) (s : Session) (later : Bytes) :
    (s.more later).intoNext fresh = (s.intoNext fresh).map (·.more later) := by
  cases hf : s.failed with
  | some e => simp only [intoNext, more, hf]; rfl
  | none =>
    simp only [intoNext, more, hf, Connection.intoNext_more]
    cases s.conn.intoNext fresh <;> rfl

/-- After a failure nothing but bytes comes in, and the plan has no more moves. -/
theorem run_of_failed (fresh : PacketSequencer) (inputs : List Input) : ∀ {s : Session}, s.failed.isSome →
    (run fresh s inputs).yielded = s.yielded ∧ (run fresh s inputs).failed = s.failed ∧ plan fresh s inputs = [] := by
  induction inputs with
  | nil => exact fun _ => ⟨rfl, rfl, rfl⟩
  | cons input inputs ih =>
    intro s hs
    obtain ⟨e, he⟩ := Option.isSome_iff_exists.1 hs
    cases input with
    | read chunk => exact ih (s := s.more chunk) hs
    | recv =>
      have hrecv := recv_of_failed hs
      simp only [run, List.foldl_cons, step, plan, hrecv, if_true]
      exact ih hs
    | intoNext =>
      have hnone : s.intoNext fresh = none := by simp only [intoNext, he]
      simp only [run, List.foldl_cons, step, plan, hnone, Option.getD_none]
      exact ih hs

/-- Taking one packet first is one packet more in the first state of a plan. -/
theorem decodePhases_recv (s : Session) : ∀ ns, decodePhases fresh s.recv ns =
    decodePhases fresh s (match ns with
      | [] => []
      | n :: ns => (n + 1) :: ns)
  | [] => drain_recv s
  | n :: ns => by simp only [decodePhases, ← Function.iterate_succ_apply recv n s]

/-- By induction on what happens: what is still to come can be there from the start. -/
theorem run_agree (fresh : PacketSequencer) (inputs : List Input) : ∀ s : Session,
    Agree (run fresh s inputs).drain (decodePhases fresh (s.more (received inputs)) (plan fresh s inputs)) := by
  induction inputs with
  | nil => intro s; rw [received, more_nil]; exact .refl s.drain
  | cons input inputs ih =>
    intro s
    cases input with
    | read chunk =>
      have h := ih (s.more chunk)
      rw [more_more] at h
      exact h
    | recv =>
      simp only [run, List.foldl_cons, step, plan, received]
      rcases recv_cases s with hs | ⟨p, conn, -, hs, -, hmore⟩ | ⟨e, conn, -, hs, hmore⟩
      · rw [hs, if_pos rfl]
        exact ih s
      · have hlen : s.recv.yielded.length ≠ s.yielded.length := by rw [hs]; simp
        rw [if_neg hlen, ← decodePhases_recv, hmore]
        exact ih s.recv
      · have hlen : s.recv.yielded.length = s.yielded.length := by rw [hs]
        have hfail : s.recv.failed.isSome := by rw [hs]; rfl
        obtain ⟨hy, hf, hplan⟩ := run_of_failed fresh inputs hfail
        obtain ⟨e', hmore, hsame⟩ := hmore (received inputs)
        have hdrain : (s.more (received inputs)).drain = (s.more (received inputs)).recv := by
          rw [← drain_recv]
          exact drain_of_eq (recv_of_failed (by rw [hmore]; rfl))
        have hsplit : (run fresh s.recv inputs).drain = run fresh s.recv inputs :=
          drain_of_eq (recv_of_failed (by rw [hf]; exact hfail))
        change Agree (run fresh s.recv inputs).drain _
        rw [if_pos hlen, hplan, decodePhases, hdrain, hsplit, hmore]
        refine ⟨by rw [hy, hs], ?_, fun hnone => by rw [hf, hs] at hnone; cases hnone⟩
        rw [hf, hs]
        exact .some hsame
    | intoNext =>
      simp only [run, List.foldl_cons, step, plan, received]
      cases hn : s.intoNext fresh with
      | none => exact ih s
      | some s' =>
        simp only [Option.getD_some, decodePhases, Function.iterate_zero, id_eq, intoNext_more, hn, Option.map_some]
        exact ih s'

/-- The packets of a connection do not depend on how its bytes arrive. Whatever chunks they come in, whenever the server
asks for a packet and whenever it moves the connection on: the packets and the failure, if any, are those of the
whole stream decoded at once, phase by phase. A call that gives no packet takes no byte and does not move the
sequencer. -/
theorem decoding_independent_of_chunking (fresh : PacketSequencer) (conn : Connection) (inputs : List Input) :
    Agree ((start conn).run fresh inputs).drain
        (decodePhases fresh ((start conn).more (received inputs)) (plan fresh (start conn) inputs)) ∧
      ∀ conn' : Connection, conn'.decode.1 = .ok none → conn'.decode.2 = conn' :=
  ⟨run_agree fresh inputs (start conn), fun _ h => Connection.decode_none (Prod.ext h rfl)⟩

-- a packet cut before its sequence byte, and a control packet without one behind it
example :
    let seq : PacketSequencer := ⟨[0xAA, 0xBB], 0, by decide, none⟩
    ((start ⟨.loading, .sequenced seq, []⟩).run seq [.read [0x0A], .recv, .read [0xAA, 0xFE], .recv, .recv]).yielded =
      [⟨.loading, .specific .signalLoadingComplete⟩, ⟨.loading, .control .heartbeatResponse⟩] := by rfl

end Session

/-! ## Packets on the wire -/

/-- A packet that a client can send in a phase comes out of the bytes it was written to, and of nothing else of them:
what follows is left alone, and every strict prefix is reported as incomplete, by the reader and by the codec. -/
theorem c2s_round_trip {state : ConnectionState} {p : state.C2sPacket} {bs : Bytes} (hw : write p = .ok bs)
    (hfit : state.SizeFits p) :
    (∀ r, (read : Read state.C2sPacket) ⟨0, bs ++ r⟩ = .ok (p, ⟨bs.length, r⟩)) ∧
      ∀ part, part <+: bs → part ≠ bs →
        (∃ e, (read : Read state.C2sPacket) ⟨0, part⟩ = .error e ∧ isIncomplete e = true) ∧
          ∀ codec, decodeWith state codec part = (.ok none, codec, part) := by
  have hback := ConnectionState.readsBack hfit hw
  refine ⟨fun r => by simpa using hback 0 r, fun part hpart hne => ?_⟩
  obtain ⟨e, he, hinc⟩ := hback.incomplete_of_prefix BinRead.stable hpart hne 0
  refine ⟨⟨e, he, hinc⟩, fun codec => ?_⟩
  cases part with
  | nil => cases codec <;> rfl
  | cons b part => cases codec <;> simp [decodeWith, decodeSimple, decodeSequenced, he, hinc, Except.map]

/-- A chat message of two bytes. -/
theorem c2s_round_trip_hi :
    let hi : ConnectionState.inGame.C2sPacket := .chat (.submitChatMessage .speak [0x68, 0x69])
    write hi = .ok [0x03, 0x06, 0x00, 0x00, 0x68, 0x69] ∧
      (read : Read ConnectionState.inGame.C2sPacket) ⟨0, [0x03, 0x06, 0x00, 0x00, 0x68, 0x69, 0xFE]⟩ =
        .ok (hi, ⟨6, [0xFE]⟩) ∧
      decodeWith .inGame .stateless [0x03, 0x06, 0x00] = (.ok none, .stateless, [0x03, 0x06, 0x00]) := by
  intro hi
  have hw : write hi = .ok [0x03, 0x06, 0x00, 0x00, 0x68, 0x69] := by rfl
  have hfit : ConnectionState.inGame.SizeFits hi := by
    change 2 ≤ ChatC2s.maxMessage
    decide
  obtain ⟨hread, hpre⟩ := c2s_round_trip hw hfit
  exact ⟨hw, hread [0xFE], (hpre [0x03, 0x06, 0x00] (by decide) (by decide)).2 .stateless⟩

end Zohar.Net

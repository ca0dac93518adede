/-
What a connection reports about a wrong sequence byte. The check of a byte moves the sequencer on whether or not the
byte is right, and the report asks for the expected byte after the check: it names the byte that comes after the
expected one.
-/
import Zohar.Net.Codec

namespace Zohar.Net

open Zohar.Lib

/-! ## The sequencer goes round its table -/

namespace PacketSequencer

/-- The sequencer of a new connection, over a table of sequence bytes. -/
def fresh (table : List UInt8) (hne : table ≠ []) : PacketSequencer := ⟨table, 0, List.length_pos_iff.2 hne, none⟩

variable {q : PacketSequencer} {got : UInt8}

theorem check_seqBytes : (q.check got).2.seqBytes = q.seqBytes := by
  unfold check nextByte
  dsimp only
  split <;> rfl

theorem check_pos : (q.check got).2.pos = (q.pos + 1) % q.seqBytes.length := by
  have hlt := q.pos_lt
  unfold check nextByte
  dsimp only
  split
  · rename_i h
    rw [h, Nat.mod_self]
  · rw [Nat.mod_eq_of_lt (by omega)]

theorem check_matches : (q.check got).1 = (got == q.expected) := rfl

theorem expected_eq : some q.expected = q.seqBytes[q.pos]? := (List.getElem?_eq_getElem q.pos_lt).symm

end PacketSequencer

/-! ## Sequence bytes in the stream -/

namespace Connection

/-- The byte that the next call checks: the one behind a complete packet whose opcode is followed by a sequence byte. -/
def trailingByte (conn : Connection) : Option UInt8 :=
  match conn.codec, conn.readBuf with
  | .sequenced _, opcode :: _ =>
    match (read : Read conn.state.C2sPacket) ⟨0, conn.readBuf⟩ with
    | .ok (_, cursor) => if isUnsequencedC2sOpcode opcode then none else conn.readBuf[cursor.pos]?
    | .error _ => none
  | _, _ => none

variable {conn : Connection} {q : PacketSequencer} {b : UInt8}

/-- A call on a complete packet with its sequence byte: the packet, if the byte is the expected one, and else the
report. -/
theorem decode_of_trailingByte (hq : conn.codec = .sequenced q) (hb : conn.trailingByte = some b) :
    (conn.decode).2.state = conn.state ∧ (conn.decode).2.codec = .sequenced (q.check b).2 ∧
      ((b = q.expected ∧ ∃ p, conn.decode.1 = .ok (some p)) ∨
        (b ≠ q.expected ∧ conn.decode.1 = .error (.sequenceMismatch ⟨(q.check b).2.expected, b⟩))) := by
  obtain ⟨state, codec, readBuf⟩ := conn
  obtain rfl : codec = .sequenced q := hq
  cases readBuf with
  | nil => cases hb
  | cons opcode rest =>
    simp only [trailingByte] at hb
    split at hb
    · rename_i packet cursor hread
      split at hb
      · cases hb
      · rename_i hseq
        have hdecode : decodeSequenced state.C2sPacket q (opcode :: rest) =
            takeSequenceByte q packet cursor.pos (opcode :: rest) := by simp [decodeSequenced, hread, hseq]
        simp only [decode, decodeWith, hdecode, takeSequenceByte, hb, PacketSequencer.check_matches, beq_iff_eq,
          true_and]
        by_cases h : b = q.expected
        · rw [if_pos h]
          exact ⟨rfl, .inl ⟨h, _, rfl⟩⟩
        · rw [if_neg h]
          exact ⟨rfl, .inr ⟨h, rfl⟩⟩
    · cases hb

/-- Any other call leaves the codec alone. -/
theorem decode_of_no_trailingByte (hb : conn.trailingByte = none) :
    (conn.decode).2.state = conn.state ∧ (conn.decode).2.codec = conn.codec := by
  obtain ⟨state, codec, readBuf⟩ := conn
  cases codec with
  | stateless => exact ⟨rfl, rfl⟩
  | sequenced q =>
    refine ⟨rfl, ?_⟩
    suffices h : (decodeSequenced state.C2sPacket q readBuf).2.1 = q by
      simp only [decode, decodeWith]
      rw [h]
    cases readBuf with
    | nil => rfl
    | cons opcode rest =>
      simp only [trailingByte] at hb
      unfold decodeSequenced
      dsimp only
      split at hb
      · rename_i packet cursor hread
        rw [hread]
        dsimp only
        split at hb
        · rename_i hseq
          rw [if_pos hseq]
        · rename_i hseq
          rw [if_neg hseq, takeSequenceByte, hb]
      · rename_i err hread
        rw [hread]
        dsimp only
        split <;> rfl

end Connection

/-! ## Runs -/

/-- A session and the number of packets with a sequence byte that it has accepted. -/
structure Counted where
  session : Session
  accepted : Nat

namespace Counted

/-- A connection as it is made, before its handshake. -/
def start (state : ConnectionState) : Counted := ⟨.start ⟨state, .stateless, []⟩, 0⟩

def step (fresh : PacketSequencer) (t : Counted) : Input → Counted
  | .recv =>
    let session := t.session.recv
    ⟨session, if t.session.conn.trailingByte.isSome ∧ t.session.yielded.length <
      session.yielded.length then t.accepted + 1
      else t.accepted⟩
  | input => ⟨t.session.step fresh input, t.accepted⟩

def run (fresh : PacketSequencer) (t : Counted) (inputs : List Input) : Counted := inputs.foldl (step fresh) t

/-- The counting is an observer: the sessions are those of `Session.run`. -/
theorem run_session (fresh : PacketSequencer) : ∀ (inputs : List Input) (t : Counted),
    (t.run fresh inputs).session = t.session.run fresh inputs
  | [], _ => rfl
  | input :: inputs, t => by
    have hstep : (t.step fresh input).session = t.session.step fresh input := by cases input <;> rfl
    refine (run_session fresh inputs (t.step fresh input)).trans ?_
    rw [hstep]
    rfl

/-- A connection in a handshake has no sequencer and has accepted nothing; one past it stands in the table where the
accepted packets have brought it. -/
def Placed (table : List UInt8) (t : Counted) : Prop :=
  (t.session.conn.codec = .stateless ∧ t.accepted = 0) ∨
    ∃ q, t.session.conn.codec = .sequenced q ∧ q.seqBytes = table ∧ q.pos = t.accepted % table.length ∧
      t.session.conn.state ≠ .handshakeGame ∧ t.session.conn.state ≠ .handshakeAuth

variable {table : List UInt8} {hne : table ≠ []} {t : Counted}

theorem recv_of_decode_error {s : Session} {e : DecodeError} (hf : s.failed = none) (h : s.conn.decode.1 = .error e) :
    s.recv = { s with conn := s.conn.decode.2, failed := some e } := by
  unfold Session.recv
  rw [hf]
  rcases hd : s.conn.decode with ⟨r, conn⟩
  rw [hd] at h
  subst h
  rfl

theorem recv_of_decode_ok {s : Session} {p : Option Packet} (hf : s.failed = none) (h : s.conn.decode.1 = .ok p) :
    s.recv = { s with conn := s.conn.decode.2, yielded := s.yielded ++ p.toList } := by
  unfold Session.recv
  rw [hf]
  rcases hd : s.conn.decode with ⟨r, conn⟩
  rw [hd] at h
  subst h
  cases p with
  | none => simp
  | some p => rfl

theorem trailingByte_codec {conn : Connection} {b : UInt8} (h : conn.trailingByte = some b) :
    ∃ q, conn.codec = .sequenced q := by
  cases hc : conn.codec with
  | stateless => simp [Connection.trailingByte, hc] at h
  | sequenced q => exact ⟨q, rfl⟩

/-- A move to the next state hands the sequencer on; the one that ends a handshake brings it in. -/
theorem Placed.intoNext (h : t.Placed table) {conn : Connection}
    (hnext : t.session.conn.intoNext (.fresh table hne) = some conn) :
    Placed table ⟨{ t.session with conn }, t.accepted⟩ := by
  unfold Connection.intoNext at hnext
  rcases h with ⟨hcodec, hzero⟩ | ⟨q, hcodec, htable, hpos, hgame, hauth⟩
  · cases hs : t.session.conn.state <;> rw [hs] at hnext <;> cases hnext <;> first
      | exact .inl ⟨hcodec, hzero⟩
      | exact .inr ⟨.fresh table hne, rfl, rfl, by rw [hzero]; rfl, nofun, nofun⟩
  · cases hs : t.session.conn.state <;> rw [hs] at hnext <;> cases hnext <;> first
      | exact absurd hs hgame
      | exact absurd hs hauth
      | exact .inr ⟨q, hcodec, htable, hpos, nofun, nofun⟩

/-- A packet with a sequence byte moves the sequencer by one and is counted; any other leaves both. -/
theorem Placed.recv (h : t.Placed table) (hf : t.session.failed = none) (hf' : t.session.recv.failed = none) :
    (t.step (.fresh table hne) .recv).Placed table := by
  have hkept {r : Except DecodeError (Option Packet)} (hd : t.session.conn.decode.1 = r) :
      ∃ p, r = .ok p := by
    cases r with
    | ok p => exact ⟨p, rfl⟩
    | error e =>
      rw [recv_of_decode_error hf hd] at hf'
      cases hf'
  obtain ⟨p, hp⟩ := hkept rfl
  have hrecv := recv_of_decode_ok hf hp
  cases hb : t.session.conn.trailingByte with
  | none =>
    obtain ⟨hstate, hcodec⟩ := Connection.decode_of_no_trailingByte hb
    unfold Counted.step Placed
    dsimp only
    rw [if_neg (by simp [hb]), hrecv]
    dsimp only
    rw [hstate, hcodec]
    exact h
  | some b =>
    obtain ⟨q, hq⟩ := trailingByte_codec hb
    obtain ⟨hstate, hcodec, hcases⟩ := Connection.decode_of_trailingByte hq hb
    rcases hcases with ⟨hexpected, p', hp'⟩ | ⟨-, herror⟩
    · obtain rfl : some p' = p := Except.ok.inj (hp'.symm.trans hp)
      rcases h with ⟨hstateless, -⟩ | ⟨q', hq', htable, hpos, hgame, hauth⟩
      · rw [hq] at hstateless
        cases hstateless
      · obtain rfl : q' = q := by
          rw [hq] at hq'
          cases hq'
          rfl
        unfold Counted.step Placed
        dsimp only
        rw [if_pos (by simp [hb, hrecv]), hrecv]
        refine .inr ⟨_, hcodec, PacketSequencer.check_seqBytes.trans htable, ?_, hstate ▸ hgame, hstate ▸ hauth⟩
        rw [PacketSequencer.check_pos, htable, hpos, Nat.mod_add_mod]
    · rw [herror] at hp
      cases hp

/-- A step that does not fail keeps the place in the table. -/
theorem Placed.step (h : t.Placed table) (hf : t.session.failed = none) {input : Input}
    (hf' : (t.step (.fresh table hne) input).session.failed = none) :
    (t.step (.fresh table hne) input).Placed table := by
  cases input with
  | read chunk => exact h
  | recv => exact h.recv hf hf'
  | intoNext =>
    unfold Counted.step Session.step Session.intoNext
    dsimp only
    rw [hf]
    cases hnext : t.session.conn.intoNext (.fresh table hne) with
    | none => exact h
    | some conn => exact h.intoNext hnext

/-- A failure lasts. -/
theorem step_failed {fresh : PacketSequencer} {input : Input} (hf : (t.step fresh input).session.failed = none) :
    t.session.failed = none := by
  cases hfailed : t.session.failed with
  | none => rfl
  | some e =>
    cases input with
    | read chunk => exact hfailed.symm.trans hf
    | recv =>
      have hsame : t.session.recv = t.session := Session.recv_of_failed (by rw [hfailed]; rfl)
      exact (hfailed.symm.trans (congrArg Session.failed hsame).symm).trans hf
    | intoNext => simp [Counted.step, Session.step, Session.intoNext, hfailed] at hf

theorem run_failed {fresh : PacketSequencer} : ∀ (inputs : List Input) {t : Counted},
    (t.run fresh inputs).session.failed = none → t.session.failed = none
  | [], _, h => h
  | _ :: inputs, _, h => step_failed (run_failed inputs h)

theorem Placed.run : ∀ (inputs : List Input) {t : Counted}, t.Placed table →
    (t.run (.fresh table hne) inputs).session.failed = none → (t.run (.fresh table hne) inputs).Placed table
  | [], _, h, _ => h
  | input :: inputs, t, h, hf => by
    have hf' := run_failed inputs hf
    exact Placed.run inputs (h.step (step_failed hf') hf') hf

end Counted

/-! ## The report -/

/-- Where a connection that has accepted `k` packets with a sequence byte finds a wrong one behind the next, it reports
the byte it read and, as the expected one, the byte at `k` in the table exactly if the byte after it is the same. -/
theorem sequence_mismatch_iff {table : List UInt8} (hne : table ≠ []) {state : ConnectionState} {inputs : List Input}
    {t : Counted} (hrun : (Counted.start state).run (.fresh table hne) inputs = t) (hf : t.session.failed = none)
    {b : UInt8} (hb : t.session.conn.trailingByte = some b) (hwrong : some b ≠ table[t.accepted % table.length]?) :
    (∃ expected, t.session.recv.failed = some (.sequenceMismatch ⟨expected, b⟩) ∧
        some expected = table[t.accepted % table.length]?) ↔
      table[(t.accepted + 1) % table.length]? = table[t.accepted % table.length]? := by
  have hplaced : t.Placed table := by
    subst hrun
    exact Counted.Placed.run inputs (.inl ⟨rfl, rfl⟩) hf
  obtain ⟨q, hq⟩ := Counted.trailingByte_codec hb
  rcases hplaced with ⟨hstateless, -⟩ | ⟨q', hq', htable, hpos, -⟩
  · rw [hq] at hstateless
    cases hstateless
  · obtain rfl : q' = q := by
      rw [hq] at hq'
      cases hq'
      rfl
    have hexpected : some q'.expected = table[t.accepted % table.length]? := by
      rw [PacketSequencer.expected_eq, htable, hpos]
    have hnext : some (q'.check b).2.expected = table[(t.accepted + 1) % table.length]? := by
      rw [PacketSequencer.expected_eq, PacketSequencer.check_seqBytes, PacketSequencer.check_pos, htable, hpos,
        Nat.mod_add_mod]
    obtain ⟨-, -, hcases⟩ := Connection.decode_of_trailingByte hq hb
    rcases hcases with ⟨heq, -⟩ | ⟨-, herror⟩
    · exact absurd (heq ▸ hexpected) hwrong
    · rw [Counted.recv_of_decode_error hf herror]
      constructor
      · rintro ⟨expected, hreport, hsame⟩
        cases hreport
        rw [← hnext, hsame]
      · intro hsame
        exact ⟨_, rfl, hnext.trans hsame⟩

/-- A packet that is accepted, and behind the next one a byte that is neither the expected one nor the one after it,
which are the same. -/
theorem sequence_mismatch_iff_repeatedByte :
    let t := (Counted.start .handshakeGame).run (.fresh [0xAF, 0xCA, 0xCA] (by decide))
      [.intoNext, .intoNext, .intoNext, .read [0x0A, 0xAF, 0x0A, 0x01], .recv]
    ∃ expected, t.session.recv.failed = some (.sequenceMismatch ⟨expected, 0x01⟩) ∧
      some expected = [0xAF, 0xCA, 0xCA][t.accepted % 3]? := by
  intro t
  have hf : t.session.failed = none := rfl
  have hb : t.session.conn.trailingByte = some 0x01 := rfl
  exact (sequence_mismatch_iff (by decide) rfl hf hb (by decide)).2 (by decide)

/-- The first bytes of the table of the server: the first packet comes with a wrong byte, and the report names the
second byte of the table as the expected one. -/
theorem sequence_mismatch_misreported :
    let t := (Counted.start .handshakeGame).run (.fresh [0xAF, 0xCA, 0x8A, 0xCF] (by decide))
      [.intoNext, .intoNext, .intoNext, .read [0x0A, 0x00]]
    t.session.failed = none ∧ t.accepted = 0 ∧ t.session.conn.trailingByte = some 0x00 ∧
      t.session.recv.failed = some (.sequenceMismatch ⟨0xCA, 0x00⟩) ∧
      ¬∃ expected, t.session.recv.failed = some (.sequenceMismatch ⟨expected, 0x00⟩) ∧
        some expected = [0xAF, 0xCA, 0x8A, 0xCF][t.accepted % 4]? := by
  intro t
  have hreport : t.session.recv.failed = some (.sequenceMismatch ⟨0xCA, 0x00⟩) := rfl
  refine ⟨rfl, rfl, rfl, hreport, ?_⟩
  rintro ⟨expected, hfailed, hexpected⟩
  rw [hreport] at hfailed
  cases hfailed
  exact absurd hexpected (by decide)

end Zohar.Net

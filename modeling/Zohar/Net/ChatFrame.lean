/-
The chat frame that a client sends. Its size counts the header of four bytes and bounds the message from there; a size
that is smaller than the header leaves an empty message, so a frame that declares less than four bytes is read as four.
From zohar-protocol/src/game_pkt/ingame/chat.rs.
-/
import Zohar.Net.Chat

namespace Zohar.Net

open Zohar.Lib

namespace ChatC2s

/-- The header of a frame. -/
def headerBytes (size : UInt16) (kind : ChatKind) : Bytes := 0x03 :: ((leBlock 2 size.toNat).toList ++ [toRepr kind])

theorem headerBytes_length (size : UInt16) (kind : ChatKind) : (headerBytes size kind).length = 4 := by
  unfold headerBytes
  rw [List.length_cons, List.length_append, List.Vector.toList_length]
  rfl

theorem sizeField_headerBytes (size : UInt16) (kind : ChatKind) (rest : Bytes) :
    sizeField (headerBytes size kind ++ rest) = size.toNat := by
  have hblock : (leBlock 2 size.toNat).toList.length = 2 := List.Vector.toList_length _
  have hlt := size.toNat_lt
  unfold sizeField headerBytes
  rw [List.cons_append, List.drop_succ_cons, List.drop_zero, List.append_assoc, List.take_append_of_le_length hblock.ge,
    List.take_of_length_le hblock.le, ofLeBytes_leBlock (by norm_num; omega)]

theorem write_eq (kind : ChatKind) (message : Bytes) :
    write (submitChatMessage kind message) = .ok
      (headerBytes (UInt16.ofNat (message.length + 4)) kind ++ message) := rfl

/-- What is read is a header and the message that its size leaves room for. -/
theorem of_read {bs : Bytes} {pos : Nat} {p : ChatC2s} {c : Cursor UInt8}
    (h : (read : Read ChatC2s) ⟨pos, bs⟩ = .ok (p, c)) :
    ∃ size kind message, p = submitChatMessage kind message ∧ message.length = size.toNat - 4 ∧
      bs = headerBytes size kind ++ message ++ c.rest ∧ c.pos = pos + 4 + message.length := by
  have henum : (do readMagic 0x03; readBody) ⟨pos, bs⟩ = .ok (p, c) := by
    cases hread : (do readMagic 0x03; readBody : Read ChatC2s) ⟨pos, bs⟩ with
    | ok x =>
      rw [← h]
      exact (firstOf_cons_ok hread).symm
    | error e =>
      have hfail : (read : Read ChatC2s) ⟨pos, bs⟩ = .error (.enumErrors pos [("SubmitChatMessage", e)]) :=
        firstOf_cons_error hread
      rw [hfail] at h
      cases h
  obtain ⟨_, c0, hmagic, hbody⟩ := Reader.bind_eq_ok.1 henum
  obtain ⟨⟨size, kind⟩, c1, hfields, hbody⟩ := Reader.bind_eq_ok.1 hbody
  obtain ⟨⟨message, hlength⟩, c2, hmessage, hp⟩ := Reader.bind_eq_ok.1 hbody
  cases hp
  cases bs with
  | nil => cases hmagic
  | cons opcode bs =>
    rw [readMagic_cons] at hmagic
    split at hmagic
    · rename_i hopcode
      cases hmagic
      obtain ⟨hrest1, hpos1⟩ := prod_writesBack uint16_writesBack reprU8_writesBack _ _ _ hfields
      obtain ⟨hrest2, hpos2⟩ := items_writesBack _ _ _ _ _ hmessage
      dsimp only at hrest1 hpos1 hrest2 hpos2
      refine ⟨size, kind, message, rfl, hlength, ?_, ?_⟩
      · rw [hrest1, hrest2, hopcode]
        simp [headerBytes]
      · rw [hpos2, hpos1]
        simp [List.Vector.toList]
    · cases hmagic

/-- A header is read, and behind it the message that its size leaves room for. -/
theorem read_headerBytes (size : UInt16) (kind : ChatKind) (message : Bytes) (h : message.length = size.toNat - 4) :
    ReadsBack (read : Read ChatC2s) (headerBytes size kind ++ message) (submitChatMessage kind message) := by
  have hsize : ReadsBack (read : Read UInt16) (leBlock 2 size.toNat).toList size := RoundTrip.readsBack rfl
  have hkind : ReadsBack (read : Read ChatKind) [toRepr kind] kind := RoundTrip.readsBack rfl
  have hmessage : ReadsBack (items BinError.io (size.toNat - 4)) message ⟨message, h⟩ :=
    items_readsBack BinError.io ⟨message, h⟩
  have htail := hmessage.bind (f := fun m => (pure (submitChatMessage kind m.toList) : Read ChatC2s)) (.pure _)
  rw [List.append_nil] at htail
  have hbody : ReadsBack readBody _ (submitChatMessage kind message) := (ChatS2c.readsBack_prod hsize hkind).bind htail
  exact readEnum_readsBack MagicEnum.magics_nodup (v := ⟨"SubmitChatMessage", 0x03, readBody, readBody_stable⟩)
    List.mem_cons_self hbody

end ChatC2s

/-- A frame takes the bytes that it declares, they are those that its packet is written to, and one that declares less
than its header is not read. -/
structure ConsumesDeclared (bs : Bytes) : Prop where
  accepted : ∀ p c, (read : Read ChatC2s) ⟨0, bs⟩ = .ok (p, c) → c.pos = sizeField bs ∧ write p = .ok (bs.take c.pos)
  short : sizeField bs < 4 → ∀ x, (read : Read ChatC2s) ⟨0, bs⟩ ≠ .ok x

/-- A chat frame takes what it declares, except one that begins with a header of a known kind and declares less than the
header. -/
theorem chat_frame_iff (bs : Bytes) :
    ConsumesDeclared bs ↔ ¬ ∃ size kind, size.toNat < 4 ∧ ChatC2s.headerBytes size kind <+: bs := by
  constructor
  · rintro ⟨-, hshort⟩ ⟨size, kind, hsize, rest, rfl⟩
    -- the header is read with an empty message, whatever comes after it
    have hread := ChatC2s.read_headerBytes size kind [] (by simp; omega) 0 rest
    rw [List.append_nil] at hread
    refine hshort ?_ _ hread
    rw [ChatC2s.sizeField_headerBytes]
    exact hsize
  · intro hnone
    have hsize : ∀ p c, (read : Read ChatC2s) ⟨0, bs⟩ = .ok (p, c) →
        4 ≤ sizeField bs ∧ c.pos = sizeField bs ∧ write p = .ok (bs.take c.pos) := by
      intro p c h
      obtain ⟨size, kind, message, rfl, hlength, rfl, hpos⟩ := ChatC2s.of_read h
      -- a header of less than four bytes is the one that is excluded
      have hfour : 4 ≤ size.toNat := by
        by_contra hlt
        refine hnone ⟨size, kind, not_le.1 hlt, message ++ c.rest, ?_⟩
        rw [List.append_assoc]
      have hfield : sizeField (ChatC2s.headerBytes size kind ++ message ++ c.rest) = size.toNat := by
        rw [List.append_assoc, ChatC2s.sizeField_headerBytes]
      have hback : UInt16.ofNat (message.length + 4) = size := by
        rw [hlength, Nat.sub_add_cancel hfour, UInt16.ofNat_toNat]
      have hend : c.pos = (ChatC2s.headerBytes size kind ++ message).length := by
        rw [hpos, List.length_append, ChatC2s.headerBytes_length]
      refine ⟨by omega, by omega, ?_⟩
      rw [ChatC2s.write_eq, hback, hend, List.take_left' rfl]
    constructor
    · exact fun p c h => (hsize p c h).2
    · rintro hlt ⟨p, c⟩ h
      have := (hsize p c h).1
      omega

/-- A frame that declares no byte at all is read as a message of no text, which is written with a size of four. -/
theorem chat_frame_empty : ¬ ConsumesDeclared [0x03, 0x00, 0x00, 0x00] := by
  rintro ⟨haccepted, -⟩
  have hread : (read : Read ChatC2s) ⟨0, [0x03, 0x00, 0x00, 0x00]⟩ = .ok (.submitChatMessage .speak [], ⟨4, []⟩) := rfl
  have hpos := (haccepted _ _ hread).1
  exact absurd hpos (by decide)

end Zohar.Net

/-
The chat frame that the server sends. Its size field is cut to sixteen bits and nothing before it bounds the message.
From zohar-protocol: game_pkt/ingame/chat.rs and game_pkt.rs.
-/
import Zohar.Net.Packets

namespace Zohar.Net

open Zohar.Lib

instance : ZeroFallback Empire where
  typeName := "zohar_protocol::game_pkt::Empire"
  toRepr_ne_zero a := by cases a <;> decide

/-- An optional id in four bytes: zero stands for none. -/
instance : BinRead (ZeroOpt NetId) := .map fun raw : UInt32 => ⟨if raw = 0 then none else some ⟨raw⟩⟩
instance : BinWrite (ZeroOpt NetId) := .contramap fun o => (o.val.map NetId.raw).getD 0

inductive ChatS2c where
  | notifyChatMessage (kind : ChatKind) (netId : ZeroOpt NetId) (empire : ZeroOpt Empire) (message : Bytes)
  deriving DecidableEq, Repr

namespace ChatS2c

/-- The size counts the header of nine bytes, and the message takes the rest. -/
def readBody : Read ChatS2c := do
  let (size, kind, netId, empire) ← (read : Read (UInt16 × ChatKind × ZeroOpt NetId × ZeroOpt Empire))
  let message ← items .io (size.toNat - 9)
  pure (.notifyChatMessage kind netId empire message.toList)

theorem readBody_stable : Stable isIncomplete readBody :=
  BinRead.stable.bind fun _ => (items_stable (by simp [isIncomplete]) _).bind fun _ => .pure _

instance : MagicEnum ChatS2c where
  variants := [⟨"NotifyChatMessage", 0x04, readBody, readBody_stable⟩]
  magics_nodup := by decide

instance : BinWrite ChatS2c where
  write
    | .notifyChatMessage kind netId empire message => do
      let head ← writeVariant 0x04 (UInt16.ofNat (message.length + 9), kind, netId, empire)
      pure (head ++ message)

end ChatS2c

/-- The two bytes behind the opcode. -/
def sizeField (bs : Bytes) : Nat := ofLeBytes ((bs.drop 1).take 2)

/-- The frame is as long as it says, and reading it gives back what was written and stops at its end. -/
def ChatS2c.WellFormed (p : ChatS2c) : Prop :=
  ∃ bs, write p = .ok bs ∧ sizeField bs = bs.length ∧ ReadsBack (read : Read ChatS2c) bs p

namespace ChatS2c

/-- The longest message whose size fits its field. -/
def maxMessage : Nat := 65526

variable {kind : ChatKind} {netId : ZeroOpt NetId} {empire : ZeroOpt Empire} {message : Bytes}

/-- The bytes of the fields between the size and the message. -/
def fieldBytes (kind : ChatKind) (netId : ZeroOpt NetId) (empire : ZeroOpt Empire) : Bytes :=
  [toRepr kind] ++ ((leBlock 4 ((netId.val.map NetId.raw).getD 0).toNat).toList ++ [(empire.val.map toRepr).getD 0])

theorem fieldBytes_length : (fieldBytes kind netId empire).length = 6 := by
  unfold fieldBytes
  rw [List.length_append, List.length_append, List.Vector.toList_length]
  rfl

/-- The whole frame. -/
def frameBytes (kind : ChatKind) (netId : ZeroOpt NetId) (empire : ZeroOpt Empire) (message : Bytes) : Bytes :=
  0x04 :: ((leBlock 2 (UInt16.ofNat (message.length + 9)).toNat).toList ++ fieldBytes kind netId empire ++ message)

theorem write_eq : write (notifyChatMessage kind netId empire message) = .ok
    (frameBytes kind netId empire message) := rfl

/-- The size field is right exactly if the message fits. -/
theorem sizeField_eq_iff :
    sizeField (frameBytes kind netId empire message) = (frameBytes kind netId empire message).length ↔
    message.length ≤ maxMessage := by
  have hblock : (leBlock 2 (UInt16.ofNat (message.length + 9)).toNat).toList.length = 2 := List.Vector.toList_length _
  have hsize : sizeField (frameBytes kind netId empire message) = (message.length + 9) % 65536 := by
    unfold sizeField frameBytes
    rw [List.drop_succ_cons, List.drop_zero, List.append_assoc, List.take_append_of_le_length hblock.ge,
      List.take_of_length_le hblock.le,
      ofLeBytes_leBlock (by have := (UInt16.ofNat (message.length + 9)).toNat_lt; norm_num; omega)]
    simp
  rw [hsize]
  unfold frameBytes
  rw [List.length_cons, List.length_append, List.length_append, hblock, fieldBytes_length]
  unfold maxMessage
  omega

theorem readsBack_prod {α β : Type} [BinRead α] [BinRead β] {xs ys : Bytes} {a : α} {b : β}
    (ha : ReadsBack (read : Read α) xs a) (hb : ReadsBack (read : Read β) ys b) :
    ReadsBack (read : Read (α × β)) (xs ++ ys) (a, b) := by
  have h := ha.bind (f := fun a => do let b ← (read : Read β); pure (a, b)) (hb.bind (.pure (a, b)))
  rwa [List.append_nil] at h

/-- An id that is not zero is read back. -/
theorem readsBack_netId {netId : ZeroOpt NetId} (h : netId.val ≠ some ⟨0⟩) :
    ReadsBack (read : Read (ZeroOpt NetId)) (leBlock 4 ((netId.val.map NetId.raw).getD 0).toNat).toList netId := by
  have hraw : ReadsBack (read : Read UInt32) (leBlock 4 ((netId.val.map NetId.raw).getD 0).toNat).toList
      ((netId.val.map NetId.raw).getD 0) := RoundTrip.readsBack rfl
  have hmap := hraw.map fun raw : UInt32 => (⟨if raw = 0 then none else some ⟨raw⟩⟩ : ZeroOpt NetId)
  have hback : (⟨if (netId.val.map NetId.raw).getD 0 = 0 then none else some ⟨(netId.val.map NetId.raw).getD 0⟩⟩ :
      ZeroOpt NetId) = netId := by
    obtain ⟨_ | ⟨⟨raw⟩⟩⟩ := netId
    · rfl
    · have hne : raw ≠ 0 := fun h0 => h (by rw [h0])
      show (⟨if raw = 0 then none else some ⟨raw⟩⟩ : ZeroOpt NetId) = _
      rw [if_neg hne]
  rwa [hback] at hmap

theorem readsBack_fields (hid : netId.val ≠ some ⟨0⟩) :
    ReadsBack (read : Read (ChatKind × ZeroOpt NetId × ZeroOpt Empire)) (fieldBytes kind netId empire)
      (kind, netId, empire) := by
  have hkind : ReadsBack (read : Read ChatKind) [toRepr kind] kind := RoundTrip.readsBack rfl
  have hempire : ReadsBack (read : Read (ZeroOpt Empire)) [(empire.val.map toRepr).getD 0] empire :=
    RoundTrip.readsBack rfl
  exact readsBack_prod hkind (readsBack_prod (readsBack_netId hid) hempire)

/-- A message that fits is read back, if the id is not the one that stands for none. -/
theorem readsBack (hfit : message.length ≤ maxMessage) (hid : netId.val ≠ some ⟨0⟩) :
    ReadsBack (read : Read ChatS2c) (frameBytes kind netId empire message)
      (.notifyChatMessage kind netId empire message) := by
  unfold maxMessage at hfit
  have hlen : (UInt16.ofNat (message.length + 9)).toNat - 9 = message.length := by
    rw [UInt16.toNat_ofNat_of_lt' (by simp [UInt16.size]; omega)]
    omega
  have hsize : ReadsBack (read : Read UInt16) (leBlock 2 (UInt16.ofNat (message.length + 9)).toNat).toList
      (UInt16.ofNat (message.length + 9)) := RoundTrip.readsBack rfl
  have hmsg : ReadsBack (items BinError.io ((UInt16.ofNat (message.length + 9)).toNat - 9)) message
      ⟨message, hlen.symm⟩ :=
    items_readsBack BinError.io ⟨message, hlen.symm⟩
  have htail :=
    hmsg.bind (f := fun m => (pure (.notifyChatMessage kind netId empire m.toList) : Read ChatS2c)) (.pure _)
  rw [List.append_nil] at htail
  have hbody : ReadsBack readBody _ (.notifyChatMessage kind netId empire message) :=
    (readsBack_prod hsize (readsBack_fields hid)).bind htail
  exact readEnum_readsBack MagicEnum.magics_nodup (v := ⟨"NotifyChatMessage", 0x04, readBody, readBody_stable⟩)
    List.mem_cons_self hbody

/-- A frame is well formed exactly if its message fits. -/
theorem wellFormed_iff (hid : netId.val ≠ some ⟨0⟩) :
    (notifyChatMessage kind netId empire message).WellFormed ↔ message.length ≤ maxMessage := by
  constructor
  · rintro ⟨bs, hw, hsize, -⟩
    rw [write_eq] at hw
    cases hw
    exact sizeField_eq_iff.1 hsize
  · exact fun hfit => ⟨_, write_eq, sizeField_eq_iff.2 hfit, readsBack hfit hid⟩

end ChatS2c

end Zohar.Net

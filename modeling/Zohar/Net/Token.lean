/-
The tokens that the auth server issues at a login and the game server verifies: a truncated HMAC over the user name, the
key of the connection and the slot of the wall clock. From zohar-protocol/src/token.rs. HMAC-SHA256 is a library of its
own and a parameter here, and the clocks of the two servers are two readings.
-/
import Zohar.Lib.Clock
import Zohar.Lib.MachineInt
import Zohar.Net.Wire

namespace Zohar.Net

open Zohar.Lib

/-! ## The signer -/

/-- HMAC-SHA256 of a message under a key. -/
abbrev Hmac := Bytes → Bytes → List.Vector UInt8 32

/-- A reading of the wall clock in whole seconds from the epoch, which `SystemTime` holds in an `i64`. -/
abbrev SystemTime := {secs : Int // i64Min ≤ secs ∧ secs ≤ i64Max}

/-- `duration_since(UNIX_EPOCH).unwrap_or_default().as_secs()` -/
def SystemTime.unixSecs (now : SystemTime) : Nat := now.val.toNat

structure TokenSigner where
  secret : Bytes
  window : Duration

def currentSlot (window : Duration) (now : SystemTime) : UInt64 :=
  let windowSecs := max (window / Duration.fromSecs 1) 1
  .ofNat (now.unixSecs / windowSecs)

/-- The bytes that are authenticated. -/
def tokenMessage (username : String) (encKey : List.Vector UInt8 16) (slot : UInt64) : Bytes :=
  username.toByteArray.data.toList ++ encKey.toList ++ leBytes 8 slot.toNat

section
variable (hmac : Hmac)

/-- The first four bytes of the digest as a little-endian number. -/
def truncatedTag (secret message : Bytes) : UInt32 := .ofNat (ofLeBytes ((hmac secret message).toList.take 4))

def tokenForSlot (secret : Bytes) (username : String) (encKey : List.Vector UInt8 16) (slot : UInt64) : UInt32 :=
  truncatedTag hmac secret (tokenMessage username encKey slot)

namespace TokenSigner

def new (secret : Bytes) (window : Duration) : TokenSigner := ⟨secret, if window = 0 then .fromSecs 1 else window⟩

def issue (signer : TokenSigner) (now : SystemTime) (username : String) (encKey : List.Vector UInt8 16) : UInt32 :=
  tokenForSlot hmac signer.secret username encKey (currentSlot signer.window now)

def verify (signer : TokenSigner) (now : SystemTime) (username : String) (encKey : List.Vector UInt8 16)
    (token : UInt32) : Bool :=
  let slot := currentSlot signer.window now
  if token == tokenForSlot hmac signer.secret username encKey slot then true
  else if slot > 0 && token == tokenForSlot hmac signer.secret username encKey (slot - 1) then true
  else token == tokenForSlot hmac signer.secret username encKey (slot + 1)

end TokenSigner

end

/-! ## Messages -/

/-- The key and the slot have a fixed length, so that nothing separates the fields of a message and it still names all
three. -/
theorem tokenMessage_inj {username username' : String} {encKey encKey' : List.Vector UInt8 16} {slot slot' : UInt64}
    (h : tokenMessage username encKey slot = tokenMessage username' encKey' slot') :
    username = username' ∧ encKey = encKey' ∧ slot = slot' := by
  have hslots : (leBytes 8 slot.toNat).length = (leBytes 8 slot'.toNat).length := by simp
  have hkeys : encKey.toList.length = encKey'.toList.length := by simp
  obtain ⟨hfront, hslot⟩ := List.append_inj' h hslots
  obtain ⟨hname, hkey⟩ := List.append_inj' hfront hkeys
  refine ⟨String.toByteArray_inj.1 (ByteArray.ext (Array.toList_inj.1 hname)), List.Vector.eq _ _ hkey, ?_⟩
  have hnat := congrArg ofLeBytes hslot
  rw [ofLeBytes_leBytes (by have := slot.toNat_lt; norm_num; omega),
    ofLeBytes_leBytes (by have := slot'.toNat_lt; norm_num; omega)] at hnat
  exact UInt64.toNat_inj.1 hnat

/-! ## Slots -/

theorem SystemTime.unixSecs_lt (now : SystemTime) : now.unixSecs < 2 ^ 63 := by
  have hmax := now.property.2
  unfold i64Max at hmax
  unfold unixSecs
  omega

theorem new_window {w : Nat} (hw : 1 ≤ w) (secret : Bytes) :
    (TokenSigner.new secret (.fromSecs w)).window = .fromSecs w := by
  have hpos : Duration.fromSecs w ≠ 0 := Nat.mul_ne_zero (by omega) (by decide)
  unfold TokenSigner.new
  exact if_neg hpos

theorem toNat_currentSlot {w : Nat} (hw : 1 ≤ w) (now : SystemTime) :
    (currentSlot (.fromSecs w) now).toNat = now.unixSecs / w := by
  have hlt := now.unixSecs_lt
  have hdiv : now.unixSecs / w ≤ now.unixSecs := Nat.div_le_self _ _
  have hsecs : Duration.fromSecs w / Duration.fromSecs 1 = w := by
    unfold Duration.fromSecs
    exact Nat.mul_div_cancel w (by decide)
  unfold currentSlot
  rw [hsecs, max_eq_left hw, UInt64.toNat_ofNat_of_lt' (by rw [UInt64.size]; omega)]

/-- Two slots of which one is the other or the next to it. -/
def SlotsMeet (a b : Nat) : Prop := a ≤ b + 1 ∧ b ≤ a + 1

instance (a b : Nat) : Decidable (SlotsMeet a b) := inferInstanceAs (Decidable (_ ∧ _))

/-- Clocks at most a window apart read slots that meet. -/
theorem slotsMeet_of_le {w i v : Nat} (hw : 1 ≤ w) (h : |(v : Int) - i| ≤ w) : SlotsMeet (i / w) (v / w) := by
  obtain ⟨hlow, hhigh⟩ := abs_le.1 h
  constructor
  · calc i / w ≤ (v + w) / w := Nat.div_le_div_right (by omega)
      _ = v / w + 1 := Nat.add_div_right v hw
  · calc v / w ≤ (i + w) / w := Nat.div_le_div_right (by omega)
      _ = i / w + 1 := Nat.add_div_right i hw

/-- Clocks two windows apart or more read slots that do not. -/
theorem not_slotsMeet_of_le {w i v : Nat} (hw : 1 ≤ w) (h : 2 * (w : Int) ≤ |(v : Int) - i|) :
    ¬ SlotsMeet (i / w) (v / w) := by
  have hfar {a b : Nat} (hab : a + w * 2 ≤ b) : a / w + 2 ≤ b / w := by
    calc a / w + 2 = (a + w * 2) / w := (Nat.add_mul_div_left a 2 hw).symm
      _ ≤ b / w := Nat.div_le_div_right hab
  rintro ⟨hiv, hvi⟩
  rcases le_abs.1 h with hahead | hbehind
  · have := hfar (a := i) (b := v) (by omega)
    omega
  · have := hfar (a := v) (b := i) (by omega)
    omega

/-- The slots whose tokens a verification tries. -/
def triedSlots (slot : UInt64) : List UInt64 := slot :: (if slot > 0 then [slot - 1] else []) ++ [slot + 1]

/-- A clock reads a slot so far below the end of a `u64` that the next one never wraps. -/
theorem mem_triedSlots {slot tried : UInt64} (h : slot.toNat < 2 ^ 63) :
    tried ∈ triedSlots slot ↔ SlotsMeet tried.toNat slot.toNat := by
  have hnext : (slot + 1).toNat = slot.toNat + 1 := by
    rw [UInt64.toNat_add]
    exact Nat.mod_eq_of_lt (by simp; omega)
  unfold triedSlots SlotsMeet
  split_ifs with hpos
  · have hpos' : 0 < slot.toNat := by simpa [UInt64.lt_iff_toNat_lt] using hpos
    have hprev : (slot - 1).toNat = slot.toNat - 1 := UInt64.toNat_sub_of_le _ _ (UInt64.le_iff_toNat_le.2 hpos')
    simp only [List.cons_append, List.nil_append, List.mem_cons, List.not_mem_nil, or_false, ← UInt64.toNat_inj,
      hnext, hprev]
    omega
  · have hzero : slot.toNat = 0 := by simpa [UInt64.lt_iff_toNat_lt] using hpos
    simp only [List.cons_append, List.nil_append, List.mem_cons, List.not_mem_nil, or_false, ← UInt64.toNat_inj,
      hnext]
    omega

section
variable {hmac : Hmac} {signer : TokenSigner} {now : SystemTime} {username : String} {encKey : List.Vector UInt8 16}

theorem verify_iff_tried {token : UInt32} : signer.verify hmac now username encKey token = true ↔
    ∃ slot ∈ triedSlots (currentSlot signer.window now),
      token = tokenForSlot hmac signer.secret username encKey slot := by
  unfold TokenSigner.verify triedSlots
  by_cases hpos : currentSlot signer.window now > 0
  · by_cases hcur : token = tokenForSlot hmac signer.secret username encKey (currentSlot signer.window now)
    · simp [hcur]
    · simp [hpos, hcur]
  · simp [hpos]

end

/-! ## The window -/

/-- The messages behind a verification: the one whose tag is the token, and those whose tags it is compared with. -/
def comparedMessages (issued : Bytes) (slot : UInt64) (username : String) (encKey : List.Vector UInt8 16) :
    List Bytes :=
  issued :: (triedSlots slot).map (tokenMessage username encKey)

/-- Different messages of the list have different tags. -/
def CollisionFree (hmac : Hmac) (secret : Bytes) (messages : List Bytes) : Prop :=
  Set.InjOn (truncatedTag hmac secret) {m | m ∈ messages}

instance (hmac : Hmac) (secret : Bytes) (messages : List Bytes) : Decidable (CollisionFree hmac secret messages) :=
  inferInstanceAs (Decidable (∀ a ∈ messages, ∀ b ∈ messages,
    truncatedTag hmac secret a = truncatedTag hmac secret b → a = b))

/-- What a clock of each server makes of one token. -/
theorem token_window {w : Nat} (hw : 1 ≤ w) (hmac : Hmac) (secret : Bytes) (issuer verifier : SystemTime)
    (username username' : String) (encKey encKey' : List.Vector UInt8 16)
    (hfree : CollisionFree hmac secret (comparedMessages
      (tokenMessage username encKey (currentSlot (.fromSecs w) issuer)) (currentSlot (.fromSecs w) verifier)
      username' encKey')) :
    let signer := TokenSigner.new secret (.fromSecs w)
    let accepted := signer.verify hmac verifier username' encKey' (signer.issue hmac issuer username encKey)
    let apart := |(verifier.unixSecs : Int) - issuer.unixSecs|
    (accepted = true ↔
      (username', encKey') = (username, encKey) ∧ SlotsMeet (issuer.unixSecs / w) (verifier.unixSecs / w)) ∧
    ((username', encKey') = (username, encKey) → apart ≤ w → accepted = true) ∧
    (2 * (w : Int) ≤ apart → accepted = false) ∧
    (∀ slot slot', (username, encKey, slot) ≠ (username', encKey', slot') →
      tokenMessage username encKey slot ≠ tokenMessage username' encKey' slot') ∧
    ∀ slot ∈ triedSlots (currentSlot signer.window verifier),
      signer.issue hmac issuer username encKey = tokenForSlot hmac secret username' encKey' slot →
        (username, encKey, currentSlot signer.window issuer) = (username', encKey', slot) := by
  intro signer accepted apart
  have hsecret : signer.secret = secret := rfl
  have hwindow : signer.window = .fromSecs w := new_window hw secret
  have hissue : signer.issue hmac issuer username encKey =
      tokenForSlot hmac secret username encKey (currentSlot (.fromSecs w) issuer) := by
    unfold TokenSigner.issue
    rw [hsecret, hwindow]
  have hlt : (currentSlot (.fromSecs w) verifier).toNat < 2 ^ 63 := by
    rw [toNat_currentSlot hw]
    exact lt_of_le_of_lt (Nat.div_le_self _ _) verifier.unixSecs_lt
  have htag : ∀ slot ∈ triedSlots (currentSlot signer.window verifier),
      signer.issue hmac issuer username encKey = tokenForSlot hmac secret username' encKey' slot →
        (username, encKey, currentSlot signer.window issuer) = (username', encKey', slot) := by
    intro slot hslot heq
    rw [hissue] at heq
    rw [hwindow] at hslot ⊢
    have hsame := hfree (List.mem_cons_self ..) (List.mem_cons_of_mem _ (List.mem_map_of_mem hslot)) heq
    obtain ⟨rfl, rfl, hslots⟩ := tokenMessage_inj hsame
    rw [hslots]
  have haccepted : accepted = true ↔
      (username', encKey') = (username, encKey) ∧ SlotsMeet (issuer.unixSecs / w) (verifier.unixSecs / w) := by
    rw [← toNat_currentSlot hw, ← toNat_currentSlot hw, ← mem_triedSlots hlt, ← hwindow]
    constructor
    · intro h
      obtain ⟨slot, hslot, heq⟩ := verify_iff_tried.1 h
      obtain ⟨rfl, rfl, rfl⟩ := Prod.mk.injEq .. ▸ htag slot hslot heq
      exact ⟨rfl, hslot⟩
    · rintro ⟨hpair, hslot⟩
      obtain ⟨rfl, rfl⟩ := Prod.mk.injEq .. ▸ hpair
      exact verify_iff_tried.2 ⟨_, hslot, rfl⟩
  refine ⟨haccepted, ?_, ?_, ?_, htag⟩
  · intro hpair hnear
    exact haccepted.2 ⟨hpair, slotsMeet_of_le hw hnear⟩
  · intro hfar
    exact Bool.eq_false_iff.2 fun h => not_slotsMeet_of_le hw hfar (haccepted.1 h).2
  · intro slot slot' hne heq
    obtain ⟨rfl, rfl, rfl⟩ := tokenMessage_inj heq
    exact hne rfl

/-- The secret of the server's own tests. -/
def sampleSecret : Bytes := "test-auth-token-secret".toByteArray.data.toList

def sampleKey : List.Vector UInt8 16 := ⟨[0, 1, 2, 3, 4, 5, 6, 7, 8, 9, 10, 11, 12, 13, 14, 15], rfl⟩

/-- HMAC-SHA256 under that secret for two users in the second, third and fourth half minute. -/
def sampleHmac : Hmac := fun secret message =>
  let digests : List (Bytes × List.Vector UInt8 32) := [
    (tokenMessage "alice" sampleKey 1, ⟨[2, 252, 119, 115, 130, 224, 241, 80, 54, 134, 175, 35, 123, 54, 28, 11,
      70, 95, 4, 67, 247, 82, 51, 69, 210, 74, 161, 135, 177, 169, 116, 86], rfl⟩),
    (tokenMessage "alice" sampleKey 2, ⟨[210, 92, 158, 246, 192, 239, 177, 4, 213, 75, 0, 13, 53, 82, 119, 112,
      231, 162, 110, 196, 61, 88, 11, 228, 72, 171, 218, 141, 101, 92, 183, 142], rfl⟩),
    (tokenMessage "alice" sampleKey 3, ⟨[171, 87, 79, 64, 134, 144, 29, 186, 78, 26, 246, 45, 39, 103, 132, 169,
      110, 182, 226, 15, 159, 182, 84, 185, 199, 154, 169, 166, 86, 72, 18, 28], rfl⟩),
    (tokenMessage "bob" sampleKey 1, ⟨[201, 29, 39, 240, 99, 82, 225, 194, 112, 198, 215, 203, 201, 169, 184, 17,
      248, 46, 176, 209, 43, 212, 92, 111, 66, 187, 45, 220, 83, 156, 128, 101], rfl⟩),
    (tokenMessage "bob" sampleKey 2, ⟨[180, 184, 11, 99, 103, 59, 150, 226, 247, 28, 165, 246, 253, 56, 136, 239,
      231, 232, 218, 134, 36, 159, 226, 154, 196, 134, 139, 99, 111, 4, 33, 108], rfl⟩),
    (tokenMessage "bob" sampleKey 3, ⟨[206, 53, 28, 79, 220, 3, 119, 35, 86, 102, 25, 18, 84, 59, 165, 75,
      102, 172, 97, 165, 15, 46, 160, 245, 209, 161, 138, 55, 46, 14, 133, 123], rfl⟩)]
  if secret = sampleSecret then (digests.lookup message).getD (.replicate 32 0) else .replicate 32 0

theorem token_window_overSlot :
    let signer := TokenSigner.new sampleSecret (.fromSecs 30)
    let token := signer.issue sampleHmac ⟨59, by decide⟩ "alice" sampleKey
    signer.verify sampleHmac ⟨60, by decide⟩ "alice" sampleKey token = true ∧
      signer.verify sampleHmac ⟨60, by decide⟩ "bob" sampleKey token = false := by
  intro signer token
  constructor
  · have h := token_window (by decide : 1 ≤ 30) sampleHmac sampleSecret ⟨59, by decide⟩ ⟨60, by decide⟩
      "alice" "alice" sampleKey sampleKey (by decide +kernel)
    exact h.1.2 ⟨rfl, by decide⟩
  · have h := token_window (by decide : 1 ≤ 30) sampleHmac sampleSecret ⟨59, by decide⟩ ⟨60, by decide⟩
      "alice" "bob" sampleKey sampleKey (by decide +kernel)
    exact Bool.eq_false_iff.2 fun hyes => absurd (congrArg Prod.fst (h.1.1 hyes).1) (by decide)

end Zohar.Net

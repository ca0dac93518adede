/-
The wire types of the packets, and the reads and writes that `binrw` derives for them. A type that
can be read carries the proof that its reader is stable, so that short input is told from bad input
wherever the packet is cut; the types whose reader undoes their writer say so by an instance.
-/
import Zohar.Lib.Reader

namespace Zohar.Net

open Zohar.Lib

abbrev Bytes := List UInt8

/-! ## Errors -/

/-- The errors of `binrw` that the packets can meet. A `Backtrace` around one of them changes nothing for the
functions that look into an error and is left out. -/
inductive BinError where
  /-- `Io` with the kind `UnexpectedEof`: the bytes ran out. -/
  | io
  | badMagic (pos : Nat) (found : UInt8)
  | assertFail (pos : Nat) (message : String)
  | noVariantMatch (pos : Nat)
  | enumErrors (pos : Nat) (variantErrors : List (String × BinError))

mutual

/-- `is_incomplete`: an end of input, in an enum the one of any variant. -/
def isIncomplete : BinError → Bool
  | .io => true
  | .enumErrors _ variantErrors => anyIncomplete variantErrors
  | _ => false

def anyIncomplete : List (String × BinError) → Bool
  | [] => false
  | (_, e) :: es => isIncomplete e || anyIncomplete es

end

theorem anyIncomplete_eq : ∀ es, anyIncomplete es = es.any fun x => isIncomplete x.2
  | [] => by simp [anyIncomplete]
  | (_, e) :: es => by simp [anyIncomplete, anyIncomplete_eq es]

theorem isIncomplete_enumErrors (pos : Nat) (es : List (String × BinError)) :
    isIncomplete (.enumErrors pos es) = es.any fun x => isIncomplete x.2 := by
  rw [isIncomplete, anyIncomplete_eq]

/-- `is_start_magic`: a magic that does not match at the first byte. -/
def isStartMagic : BinError → Bool
  | .badMagic pos _ => pos == 0
  | _ => false

/-- `is_unknown_opcode`: no variant took the first byte. -/
def isUnknownOpcode : BinError → Bool
  | .enumErrors _ variantErrors => !variantErrors.isEmpty && variantErrors.all fun x => isStartMagic x.2
  | e => isStartMagic e

/-! ## Reading and writing -/

abbrev Read (α : Type) := Reader UInt8 BinError α

/-- `BinRead`, with what every reader of the packets keeps to. -/
class BinRead (α : Type) where
  read : Read α
  stable : Stable isIncomplete read

/-- `BinWrite`; a write fails only with the text of an assertion. -/
class BinWrite (α : Type) where
  write : α → Except String Bytes

/-- The reader gives back what the writer wrote. -/
class RoundTrip (α : Type) [BinRead α] [BinWrite α] : Prop where
  readsBack : ∀ {a : α} {bs : Bytes}, BinWrite.write a = .ok bs → ReadsBack (BinRead.read : Read α) bs a

export BinRead (read)
export BinWrite (write)

variable {α β : Type}

/-- The read of a type that wraps its fields. -/
@[reducible] def BinRead.map [BinRead α] (f : α → β) : BinRead β := ⟨f <$> read, BinRead.stable.map f⟩

@[reducible] def BinWrite.contramap [BinWrite β] (g : α → β) : BinWrite α := ⟨fun a => write (g a)⟩

theorem RoundTrip.of_fields [BinRead α] [BinWrite α] [RoundTrip α] (f : α → β) (g : β → α) (h : ∀ b, f (g b) = b) :
    @RoundTrip β (.map f) (.contramap g) := by
  refine @RoundTrip.mk β (.map f) (.contramap g) fun {b bs} hw => ?_
  have hb := (RoundTrip.readsBack (α := α) hw).map f
  rwa [h b] at hb

/-! ## Numbers and byte blocks -/

instance : BinRead UInt8 := ⟨item .io, item_stable (by simp [isIncomplete])⟩
instance : BinWrite UInt8 := ⟨fun x => .ok [x]⟩
instance : RoundTrip UInt8 := ⟨fun h => by cases h; exact item_readsBack _ _⟩

/-- A byte array of a fixed size. -/
instance (n : Nat) : BinRead (List.Vector UInt8 n) := ⟨items .io n, items_stable (by simp [isIncomplete]) n⟩
instance (n : Nat) : BinWrite (List.Vector UInt8 n) := ⟨fun xs => .ok xs.toList⟩
instance (n : Nat) : RoundTrip (List.Vector UInt8 n) := ⟨fun h => by cases h; exact items_readsBack _ _⟩

/-- The little-endian bytes of a number, as a block. -/
def leBlock (n x : Nat) : List.Vector UInt8 n := ⟨leBytes n x, leBytes_length n x⟩

theorem ofLeBytes_leBlock {n x : Nat} (h : x < 256 ^ n) : ofLeBytes (leBlock n x).toList = x := ofLeBytes_leBytes h

instance : BinRead UInt16 := .map fun bs : List.Vector UInt8 2 => .ofNat (ofLeBytes bs.toList)
instance : BinWrite UInt16 := .contramap fun x => leBlock 2 x.toNat
instance : RoundTrip UInt16 :=
  .of_fields _ _ fun x => by rw [ofLeBytes_leBlock (by have := x.toNat_lt; norm_num; omega), UInt16.ofNat_toNat]

instance : BinRead UInt32 := .map fun bs : List.Vector UInt8 4 => .ofNat (ofLeBytes bs.toList)
instance : BinWrite UInt32 := .contramap fun x => leBlock 4 x.toNat
instance : RoundTrip UInt32 :=
  .of_fields _ _ fun x => by rw [ofLeBytes_leBlock (by have := x.toNat_lt; norm_num; omega), UInt32.ofNat_toNat]

instance : BinRead Int32 := .map UInt32.toInt32
instance : BinWrite Int32 := .contramap Int32.toUInt32
instance : RoundTrip Int32 := .of_fields _ _ Int32.toInt32_toUInt32

/-! ## Fields in order -/

/-- No field. -/
instance : BinRead Unit := ⟨pure (), .pure ()⟩
instance : BinWrite Unit := ⟨fun _ => .ok []⟩
instance : RoundTrip Unit := ⟨fun h => by cases h; exact .pure ()⟩

/-- Two fields, one after the other; a struct or the body of a variant is the product of its fields. -/
instance [BinRead α] [BinRead β] : BinRead (α × β) where
  read := do
    let a ← read
    let b ← read
    pure (a, b)
  stable := BinRead.stable.bind fun _ => BinRead.stable.bind fun _ => .pure _

instance [BinWrite α] [BinWrite β] : BinWrite (α × β) where
  write p := do
    let xs ← write p.1
    let ys ← write p.2
    pure (xs ++ ys)

theorem write_prod [BinWrite α] [BinWrite β] {p : α × β} {bs : Bytes} :
    write p = .ok bs ↔ ∃ xs ys, write p.1 = .ok xs ∧ write p.2 = .ok ys ∧ bs = xs ++ ys := by
  simp only [BinWrite.write, bind, Except.bind]
  cases h1 : BinWrite.write p.1 with
  | error e => simp
  | ok xs =>
    cases h2 : BinWrite.write p.2 with
    | error e => simp
    | ok ys => simp [pure, Except.pure, eq_comm]

instance [BinRead α] [BinWrite α] [RoundTrip α] [BinRead β] [BinWrite β] [RoundTrip β] : RoundTrip (α × β) where
  readsBack {p bs} h := by
    obtain ⟨xs, ys, h1, h2, rfl⟩ := write_prod.1 h
    have hp := (RoundTrip.readsBack h1).bind (f := fun a => do let b ← read; pure (a, b))
      ((RoundTrip.readsBack h2).bind (.pure (p.1, p.2)))
    rwa [List.append_nil] at hp

/-! ## Enums with a `repr` -/

/-- A field-less enum with `repr = u8`: its values and their bytes. -/
class ReprU8 (α : Type) where
  toRepr : α → UInt8
  all : List α
  find_toRepr : ∀ a, all.find? (fun x => toRepr x == toRepr a) = some a

export ReprU8 (toRepr)

/-- `try_from` the byte: the variant that has it. -/
def ofRepr [ReprU8 α] (b : UInt8) : Option α := ReprU8.all.find? fun x => toRepr x == b

@[simp] theorem ofRepr_toRepr [ReprU8 α] (a : α) : ofRepr (toRepr a) = some a := ReprU8.find_toRepr a

/-- Reads the byte and fails where no variant has it. -/
instance (priority := low) [ReprU8 α] : BinRead α where
  read := tryMap (fun pos b => match ofRepr b with
    | some a => .ok a
    | none => .error (.noVariantMatch pos)) (read : Read UInt8)
  stable := BinRead.stable.tryMap _

instance (priority := low) [ReprU8 α] : BinWrite α := .contramap toRepr

instance (priority := low) [ReprU8 α] : RoundTrip α where
  readsBack h := (RoundTrip.readsBack (α := UInt8) h).tryMap fun pos => by simp

/-- An enum with `repr = u8` that leaves the byte zero for "none". -/
class ZeroFallback (α : Type) extends ReprU8 α where
  typeName : String
  toRepr_ne_zero : ∀ a : α, toRepr a ≠ 0

/-- An optional value in one byte. -/
structure ZeroOpt (α : Type) where
  val : Option α
  deriving DecidableEq, Repr

instance [ZeroFallback α] : BinRead (ZeroOpt α) where
  read := tryMap (fun pos raw =>
    if raw = 0 then .ok ⟨none⟩
    else match ofRepr raw with
      | some a => .ok ⟨some a⟩
      | none => .error (.assertFail pos
          s!"ZeroOpt failed to decode {ZeroFallback.typeName α}: invalid primitive value")) (read : Read UInt8)
  stable := BinRead.stable.tryMap _

instance [ZeroFallback α] : BinWrite (ZeroOpt α) := .contramap fun o => (o.val.map toRepr).getD 0

instance [ZeroFallback α] : RoundTrip (ZeroOpt α) where
  readsBack {o bs} h := (RoundTrip.readsBack (α := UInt8) h).tryMap fun pos => by
    obtain ⟨_ | a⟩ := o
    · simp
    · simp [ZeroFallback.toRepr_ne_zero a]

/-! ## The bytes of what was read -/

theorem uint8_writesBack : WritesBack (read : Read UInt8) fun x => [x] := item_writesBack _

theorem uint16_writesBack : WritesBack (read : Read UInt16) fun x => (leBlock 2 x.toNat).toList := by
  apply (items_writesBack BinError.io 2).map
  rintro ⟨bs, hlength⟩
  have hlt := ofLeBytes_lt bs
  rw [hlength] at hlt
  have hnat : (UInt16.ofNat (ofLeBytes bs)).toNat = ofLeBytes bs :=
    UInt16.toNat_ofNat_of_lt' (by rw [UInt16.size]; omega)
  show leBytes 2 (UInt16.ofNat (ofLeBytes bs)).toNat = bs
  rw [hnat, ← hlength, leBytes_ofLeBytes]

theorem toRepr_of_ofRepr [ReprU8 α] {b : UInt8} {a : α} (h : ofRepr b = some a) : toRepr a = b := by
  have hfound := List.find?_some h
  exact beq_iff_eq.1 hfound

theorem reprU8_writesBack [ReprU8 α] : WritesBack (read : Read α) fun a => [toRepr a] := by
  apply uint8_writesBack.tryMap
  intro pos b a h
  cases hrepr : (ofRepr b : Option α) with
  | none => rw [hrepr] at h; cases h
  | some a' =>
    rw [hrepr] at h
    cases h
    rw [toRepr_of_ofRepr hrepr]

theorem prod_writesBack [BinRead α] [BinRead β] {writtenA : α → Bytes} {writtenB : β → Bytes}
    (ha : WritesBack (read : Read α) writtenA) (hb : WritesBack (read : Read β) writtenB) :
    WritesBack (read : Read (α × β)) fun p => writtenA p.1 ++ writtenB p.2 := by
  intro c p c' h
  obtain ⟨a, c1, h1, h⟩ := Reader.bind_eq_ok.1 h
  obtain ⟨b, c2, h2, h⟩ := Reader.bind_eq_ok.1 h
  cases h
  obtain ⟨hrest1, hpos1⟩ := ha c a c1 h1
  obtain ⟨hrest2, hpos2⟩ := hb c1 b c' h2
  constructor
  · rw [hrest1, hrest2, List.append_assoc]
  · rw [hpos2, hpos1, List.length_append, Nat.add_assoc]

/-! ## Enums with a magic -/

/-- Reads the opcode of a variant. -/
def readMagic (magic : UInt8) : Read Unit :=
  tryMap (fun pos found => if found = magic then .ok () else .error (.badMagic pos found)) (read : Read UInt8)

theorem readMagic_stable (magic : UInt8) : Stable isIncomplete (readMagic magic) := BinRead.stable.tryMap _

/-- A variant of an enum: its opcode, and the read of what follows it. -/
structure Variant (α : Type) where
  name : String
  magic : UInt8
  body : Read α
  stable : Stable isIncomplete body

/-- A variant that is its fields, wrapped. -/
def Variant.fields [BinRead β] (name : String) (magic : UInt8) (wrap : β → α) : Variant α :=
  ⟨name, magic, wrap <$> read, BinRead.stable.map wrap⟩

/-- An enum whose variants are told apart by their opcodes. -/
class MagicEnum (α : Type) where
  variants : List (Variant α)
  magics_nodup : (variants.map (·.magic)).Nodup

/-- The read of an enum: every variant from the same start, its opcode first; the errors of all if none reads. -/
def readEnum (variants : List (Variant α)) : Read α :=
  firstOf .enumErrors (variants.map fun v => (v.name, do readMagic v.magic; v.body)) []

/-- The write of a variant: its opcode and its fields. -/
def writeVariant [BinWrite β] (magic : UInt8) (body : β) : Except String Bytes := do
  let bs ← write body
  pure (magic :: bs)

theorem readMagic_nil (magic : UInt8) (pos : Nat) : readMagic magic ⟨pos, []⟩ = .error .io := rfl

theorem readMagic_cons (magic b : UInt8) (pos : Nat) (bs : Bytes) :
    readMagic magic ⟨pos, b :: bs⟩ = if b = magic then .ok ((), ⟨pos + 1, bs⟩) else .error (.badMagic pos b) := by
  by_cases hb : b = magic <;> simp [readMagic, tryMap, BinRead.read, item, hb]

/-- Variants with different opcodes: where one only lacks bytes, the other does not read. -/
theorem excludes_of_magic_ne {m m' : UInt8} (hne : m ≠ m') (r r' : Read α) :
    Excludes isIncomplete (do readMagic m; r) (do readMagic m'; r') := by
  rintro ⟨pos, bs⟩ e h he
  cases bs with
  | nil => exact ⟨.io, by rw [Reader.bind_apply, readMagic_nil]⟩
  | cons b bs =>
    rw [Reader.bind_apply, readMagic_cons] at h
    by_cases hb : b = m
    · exact ⟨.badMagic pos b, by rw [Reader.bind_apply, readMagic_cons, if_neg (by rw [hb]; exact hne)]⟩
    · rw [if_neg hb] at h
      cases h
      simp [isIncomplete] at he

theorem readEnum_stable {variants : List (Variant α)} (hm : (variants.map (·.magic)).Nodup) :
    Stable isIncomplete (readEnum variants) := by
  refine Stable.firstOf isIncomplete_enumErrors ?_ ?_ []
  · intro a ha
    obtain ⟨v, hv, rfl⟩ := List.mem_map.1 ha
    exact (readMagic_stable v.magic).bind fun _ => v.stable
  · rw [List.pairwise_map]
    exact (List.pairwise_map.1 hm).imp fun hne => excludes_of_magic_ne hne _ _

instance (priority := low) [MagicEnum α] : BinRead α :=
  ⟨readEnum MagicEnum.variants, readEnum_stable MagicEnum.magics_nodup⟩

/-- An enum reads a variant back behind its opcode. -/
theorem readEnum_readsBack {variants : List (Variant α)} (hm : (variants.map (·.magic)).Nodup) {v : Variant α}
    (hv : v ∈ variants) {bs : Bytes} {a : α} (hb : ReadsBack v.body bs a) :
    ReadsBack (readEnum variants) (v.magic :: bs) a := by
  intro pos later
  have hread : (do readMagic v.magic; v.body) ⟨pos, v.magic :: bs ++ later⟩ =
      .ok (a, ⟨pos + (v.magic :: bs).length, later⟩) := by
    rw [Reader.bind_apply, List.cons_append, readMagic_cons, if_pos rfl]
    simp only [hb (pos + 1) later, List.length_cons]
    congr 3
    omega
  suffices h : ∀ errs, firstOf .enumErrors (variants.map fun w => (w.name, do readMagic w.magic; w.body)) errs
      ⟨pos, v.magic :: bs ++ later⟩ = .ok (a, ⟨pos + (v.magic :: bs).length, later⟩) from h []
  induction variants with
  | nil => cases hv
  | cons w variants ih =>
    intro errs
    simp only [List.map_cons, List.nodup_cons] at hm
    rcases List.mem_cons.1 hv with rfl | hv
    · exact firstOf_cons_ok hread
    · -- an earlier variant has another opcode and fails at once
      have hne : v.magic ≠ w.magic := fun h => hm.1 (List.mem_map.2 ⟨_, hv, h⟩)
      have hbad : (do readMagic w.magic; w.body) ⟨pos, v.magic :: bs ++ later⟩ = .error (.badMagic pos v.magic) := by
        rw [Reader.bind_apply, List.cons_append, readMagic_cons, if_neg hne]
      rw [List.map_cons, firstOf_cons_error hbad]
      exact ih hm.2 hv _

theorem writeVariant_eq_ok [BinWrite β] {magic : UInt8} {body : β} {bs : Bytes} :
    writeVariant magic body = .ok bs ↔ ∃ xs, write body = .ok xs ∧ bs = magic :: xs := by
  simp only [writeVariant, bind, Except.bind]
  cases BinWrite.write body with
  | error e => simp
  | ok xs => simp [pure, Except.pure, eq_comm]

/-- A variant made of fields is read back from what `writeVariant` wrote. -/
theorem MagicEnum.readsBack [MagicEnum α] [BinRead β] [BinWrite β] [RoundTrip β] {name : String} {magic : UInt8}
    {wrap : β → α} {body : β} {bs : Bytes} {a : α} (hw : writeVariant magic body = .ok bs)
    (hv : Variant.fields name magic wrap ∈ (MagicEnum.variants : List (Variant α))) (ha : wrap body = a) :
    ReadsBack (read : Read α) bs a := by
  obtain ⟨xs, hx, rfl⟩ := writeVariant_eq_ok.1 hw
  rw [← ha]
  exact readEnum_readsBack MagicEnum.magics_nodup hv ((RoundTrip.readsBack hx).map wrap)

/-- Reading a value takes at least one byte. -/
class Consuming (α : Type) [BinRead α] : Prop where
  consumes : Consumes (read : Read α)

/-- Every packet of an enum has at least its opcode. -/
instance (priority := low) [MagicEnum α] : Consuming α where
  consumes := by
    refine Consumes.firstOf fun a ha => ?_
    obtain ⟨v, hv, rfl⟩ := List.mem_map.1 ha
    refine Consumes.bind_left (fun c u c' h => ?_) fun _ => v.stable
    obtain ⟨b, hb, -⟩ := tryMap_eq_ok.1 h
    exact item_consumes _ _ _ hb

/-! ## Routing by opcode -/

/-- The digits of a byte as `{:X}` prints them. -/
def hexUpper (b : UInt8) : String := String.ofList ((Nat.toDigits 16 b.toNat).map Char.toUpper)

/-- An arm of `route_packets!`: the opcodes of an enum, and the enum's read. -/
structure Route (α : Type) where
  opcodes : List UInt8
  read : Read α
  stable : Stable isIncomplete read
  consumes : Consumes read

def Route.to [BinRead β] [Consuming β] (opcodes : List UInt8) (wrap : β → α) : Route α where
  opcodes := opcodes
  read := wrap <$> Net.read
  stable := BinRead.stable.map wrap
  consumes := by
    rw [← bind_pure_comp]
    have hpure : ∀ b, Stable isIncomplete (pure (wrap b) : Read α) := fun b => .pure (wrap b)
    exact Consumes.bind_left Consuming.consumes hpure

/-- `route_packets!`: looks at the opcode and reads the enum that has it from the same place. -/
def readRoute (enumName : String) : List (Route α) → Read α
  | [] => fun c => match c.rest with
    | [] => .error .io
    | opcode :: _ => .error (.assertFail c.pos s!"Unknown opcode: 0x{hexUpper opcode} for {enumName}")
  | route :: routes => fun c => match c.rest with
    | [] => .error .io
    | opcode :: _ => if opcode ∈ route.opcodes then route.read c else readRoute enumName routes c

theorem readRoute_cons (enumName : String) (route : Route α) (routes : List (Route α)) (pos : Nat) (opcode : UInt8)
    (bs : Bytes) : readRoute enumName (route :: routes) ⟨pos, opcode :: bs⟩ =
      if opcode ∈ route.opcodes then
        route.read ⟨pos, opcode :: bs⟩
      else readRoute enumName routes ⟨pos, opcode :: bs⟩ :=
  rfl

theorem readRoute_stable (enumName : String) (routes : List (Route α)) :
    Stable isIncomplete (readRoute enumName routes) := by
  induction routes with
  | nil =>
    refine { within := ?_, ok := ?_, error := ?_ }
    · rintro ⟨pos, _ | ⟨opcode, bs⟩⟩ a c' h <;> cases h
    · rintro ⟨pos, _ | ⟨opcode, bs⟩⟩ a c' h <;> cases h
    · rintro ⟨pos, _ | ⟨opcode, bs⟩⟩ e h he later
      · cases h; simp [isIncomplete] at he
      · cases h; rfl
  | cons route routes ih =>
    refine { within := ?_, ok := ?_, error := ?_ }
    · rintro ⟨pos, _ | ⟨opcode, bs⟩⟩ a c' h
      · cases h
      · rw [readRoute_cons] at h
        split at h
        · exact route.stable.within h
        · exact ih.within h
    · rintro ⟨pos, _ | ⟨opcode, bs⟩⟩ a c' h later
      · cases h
      · rw [Cursor.more, List.cons_append, readRoute_cons]
        rw [readRoute_cons] at h
        split at h
        · rw [if_pos ‹_›]; exact route.stable.ok h later
        · rw [if_neg ‹_›]; exact ih.ok h later
    · rintro ⟨pos, _ | ⟨opcode, bs⟩⟩ e h he later
      · cases h; simp [isIncomplete] at he
      · rw [Cursor.more, List.cons_append, readRoute_cons]
        rw [readRoute_cons] at h
        split at h
        · rw [if_pos ‹_›]; exact route.stable.error h he later
        · rw [if_neg ‹_›]; exact ih.error h he later

theorem readRoute_consumes (enumName : String) (routes : List (Route α)) : Consumes (readRoute enumName routes) := by
  induction routes with
  | nil => rintro ⟨pos, _ | ⟨opcode, bs⟩⟩ a c' h <;> cases h
  | cons route routes ih =>
    rintro ⟨pos, _ | ⟨opcode, bs⟩⟩ a c' h
    · cases h
    · rw [readRoute_cons] at h
      split at h
      · exact route.consumes _ _ _ h
      · exact ih _ _ _ h

@[reducible] def BinRead.route (enumName : String) (routes : List (Route α)) : BinRead α :=
  ⟨readRoute enumName routes, readRoute_stable enumName routes⟩

/-- The bytes begin with one of these opcodes. -/
def StartsIn (opcodes : List UInt8) (bs : Bytes) : Prop := ∃ opcode ∈ opcodes, ∃ body, bs = opcode :: body

theorem writeVariant_startsIn [BinWrite β] {opcodes : List UInt8} {magic : UInt8} {body : β} {bs : Bytes}
    (hm : magic ∈ opcodes) (hw : writeVariant magic body = .ok bs) : StartsIn opcodes bs := by
  obtain ⟨xs, -, rfl⟩ := writeVariant_eq_ok.1 hw
  exact ⟨magic, hm, xs, rfl⟩

theorem readRoute_head [BinRead β] [Consuming β] {enumName : String} {opcodes : List UInt8} {wrap : β → α} {b : β}
    {routes : List (Route α)} {bs : Bytes} (ho : StartsIn opcodes bs) (hr : ReadsBack (read : Read β) bs b) :
    ReadsBack (readRoute enumName (.to opcodes wrap :: routes)) bs (wrap b) := by
  obtain ⟨opcode, hmem, body, rfl⟩ := ho
  intro pos later
  have hmap := hr.map wrap pos later
  rw [List.cons_append] at hmap ⊢
  rw [readRoute_cons, if_pos (show opcode ∈ (Route.to opcodes wrap).opcodes from hmem)]
  exact hmap

theorem readRoute_tail {enumName : String} {own : List UInt8} {route : Route α} {routes : List (Route α)} {bs : Bytes}
    {a : α} (ho : StartsIn own bs) (hne : own.all fun opcode => opcode ∉ route.opcodes)
    (hr : ReadsBack (readRoute enumName routes) bs a) : ReadsBack (readRoute enumName (route :: routes)) bs a := by
  obtain ⟨opcode, hmem, body, rfl⟩ := ho
  intro pos later
  have hnot := of_decide_eq_true (List.all_eq_true.1 hne opcode hmem)
  rw [List.cons_append, readRoute_cons, if_neg hnot]
  exact hr pos later

end Zohar.Net

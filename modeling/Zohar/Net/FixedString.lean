/-
The strings of a fixed size in the packets: a buffer with a NUL somewhere in it, and the length of what comes before. A
string that is made by `new` always has room for the NUL but may have another one before it, and a buffer that is read
is taken as it comes, without a NUL if there is none. From zohar-protocol/src/game_pkt.rs.
-/
import Zohar.Net.Wire

namespace Zohar.Net

open Zohar.Lib

structure FixedString (N : Nat) where
  buf : List.Vector UInt8 N
  /-- The length of the content, without the terminator. -/
  len : Nat
  deriving DecidableEq

/-- The bytes of a string. -/
def asBytes (s : String) : Bytes := s.toByteArray.data.toList

namespace FixedString

variable {N : Nat}

/-- The bytes that there is room for before the last byte. -/
def content (N : Nat) (s : String) : Bytes := (asBytes s).take (N - 1)

theorem content_length_le (N : Nat) (s : String) : (content N s).length ≤ N := by
  unfold content
  rw [List.length_take]
  omega

def new (N : Nat) (s : String) : FixedString N where
  buf := ⟨content N s ++ List.replicate (N - (content N s).length) 0, by
    have := content_length_le N s
    rw [List.length_append, List.length_replicate]
    omega⟩
  len := (content N s).length

/-- The value of a buffer that was read: the length is the place of the first NUL, or all of it. -/
def ofBuf (buf : List.Vector UInt8 N) : FixedString N := ⟨buf, (buf.toList.findIdx? (· == 0)).getD N⟩

instance : BinRead (FixedString N) := .map ofBuf
instance : BinWrite (FixedString N) := .contramap buf

/-- The documentation of the type: a NUL is kept within the buffer, and the length is that of what comes before it. -/
def Terminated (s : FixedString N) : Prop := s.buf.toList.findIdx? (· == 0) = some s.len

instance (s : FixedString N) : Decidable s.Terminated := inferInstanceAs (Decidable (_ = _))

/-- Writing the value gives `N` bytes with a NUL, and these are read as the value. -/
def ReadBack (s : FixedString N) : Prop :=
  ∀ bs, write s = .ok bs → bs.length = N ∧ 0 ∈ bs ∧ ReadsBack (read : Read (FixedString N)) bs s

theorem ofBuf_readsBack (buf : List.Vector UInt8 N) : ReadsBack (read : Read (FixedString N)) buf.toList (ofBuf buf) :=
  (RoundTrip.readsBack (α := List.Vector UInt8 N) rfl).map ofBuf

theorem terminated_ofBuf_iff (buf : List.Vector UInt8 N) : (ofBuf buf).Terminated ↔ 0 ∈ buf.toList := by
  have hnone : buf.toList.findIdx? (· == 0) = none ↔ 0 ∉ buf.toList := by
    rw [List.findIdx?_eq_none_iff]
    simp only [beq_eq_false_iff_ne]
    exact ⟨fun h hmem => h 0 hmem rfl, fun h x hx hx0 => h (hx0 ▸ hx)⟩
  unfold Terminated ofBuf
  cases hfind : buf.toList.findIdx? (· == 0) with
  | some i =>
    refine iff_of_true rfl ?_
    by_contra hnot
    rw [hnone.2 hnot] at hfind
    cases hfind
  | none => exact iff_of_false (by simp) (hnone.1 hfind)

/-- A terminated value is the one that its buffer is read as. -/
theorem Terminated.eq_ofBuf {s : FixedString N} (h : s.Terminated) : s = ofBuf s.buf := by
  obtain ⟨buf, len⟩ := s
  unfold Terminated at h
  unfold ofBuf
  dsimp only at h ⊢
  rw [h, Option.getD_some]

theorem Terminated.readBack {s : FixedString N} (h : s.Terminated) : s.ReadBack := by
  intro bs hw
  cases hw
  have hofBuf := h.eq_ofBuf
  have hmem : 0 ∈ s.buf.toList := by
    rw [hofBuf] at h
    exact (terminated_ofBuf_iff s.buf).1 h
  refine ⟨List.Vector.toList_length _, hmem, ?_⟩
  have hread := ofBuf_readsBack s.buf
  rwa [← hofBuf] at hread

/-- The padding begins with a NUL, so the first one is the terminator exactly if the content has none. -/
theorem terminated_new_iff (hN : 1 ≤ N) (s : String) : (new N s).Terminated ↔ 0 ∉ content N s := by
  have hroom : (content N s).length < N := by
    unfold content
    rw [List.length_take]
    omega
  obtain ⟨k, hk⟩ : ∃ k, N - (content N s).length = k + 1 := ⟨N - (content N s).length - 1, by omega⟩
  have hbuf : (new N s).buf.toList = content N s ++ 0 :: List.replicate k 0 := by
    show content N s ++ List.replicate (N - (content N s).length) 0 = _
    rw [hk, List.replicate_succ]
  unfold Terminated
  rw [hbuf, List.findIdx?_append, List.findIdx?_cons]
  show _ = some (content N s).length ↔ _
  cases hfind : (content N s).findIdx? (· == 0) with
  | none =>
    refine iff_of_true (by simp) fun hmem => ?_
    rw [List.findIdx?_eq_none_iff] at hfind
    exact absurd (hfind 0 hmem) (by decide)
  | some i =>
    -- a NUL of the content comes before the terminator
    obtain ⟨hi, hzero⟩ := List.findIdx?_eq_some_iff_findIdx_eq.1 hfind
    refine iff_of_false ?_ (not_not.2 ?_)
    · simp
      omega
    · obtain ⟨x, hx, hx0⟩ := List.findIdx_lt_length.1 (hzero ▸ hi)
      rwa [beq_iff_eq.1 hx0] at hx

end FixedString

/-- A value keeps its terminator and comes back as it was written exactly if it was made of a string without a NUL among
the bytes that it keeps, or read from a buffer with a NUL. -/
theorem fixed_string_iff {N : Nat} (hN : 1 ≤ N) :
    (∀ s, (FixedString.new N s).Terminated ∧ (FixedString.new N s).ReadBack ↔ 0 ∉ (asBytes s).take (N - 1)) ∧
    ∀ buf : List.Vector UInt8 N, ∃ x, ReadsBack (read : Read (FixedString N)) buf.toList x ∧
      (x.Terminated ∧ x.ReadBack ↔ 0 ∈ buf.toList) := by
  have hboth {x : FixedString N} {P : Prop} (h : x.Terminated ↔ P) : x.Terminated ∧ x.ReadBack ↔ P :=
    (and_iff_left_of_imp FixedString.Terminated.readBack).trans h
  constructor
  · exact fun s => hboth (FixedString.terminated_new_iff hN s)
  · exact fun buf => ⟨_, FixedString.ofBuf_readsBack buf, hboth (FixedString.terminated_ofBuf_iff buf)⟩

/-- A name that fits, and a buffer with one. -/
theorem fixed_string_iff_name : (FixedString.new 25 "Alice").ReadBack ∧ (FixedString.new 5 "Alice").ReadBack ∧
    ∃ x, ReadsBack (read : Read (FixedString 3)) [65, 0, 66] x ∧ x.Terminated := by
  refine ⟨((fixed_string_iff (by decide)).1 _).2 (by decide) |>.2,
    ((fixed_string_iff (by decide)).1 _).2 (by decide) |>.2, ?_⟩
  obtain ⟨x, hread, hiff⟩ := (fixed_string_iff (by decide)).2 (⟨[65, 0, 66], rfl⟩ : List.Vector UInt8 3)
  exact ⟨x, hread, (hiff.2 (by decide)).1⟩

/-- A field that is filled to its last byte is read without a NUL, and a string with a NUL in it is longer than what is
read back of it. -/
theorem fixed_string_unterminated :
    (∃ x, ReadsBack (read : Read (FixedString 3)) [65, 66, 67] x ∧ ¬ x.Terminated ∧ ¬ x.ReadBack) ∧
      ¬ (FixedString.new 25 "a\x00b").Terminated ∧ ¬ (FixedString.new 25 "a\x00b").ReadBack := by
  refine ⟨⟨_, FixedString.ofBuf_readsBack (⟨[65, 66, 67], rfl⟩ : List.Vector UInt8 3), by decide, ?_⟩, by decide, ?_⟩
  · intro h
    exact absurd (h _ rfl).2.1 (by decide)
  · intro h
    have hread := (h _ rfl).2.2 0 []
    rw [FixedString.ofBuf_readsBack (FixedString.new 25 "a\x00b").buf 0 []] at hread
    have hlen := congrArg FixedString.len (Prod.mk.inj (Except.ok.inj hread)).1
    exact absurd hlen (by decide)

end Zohar.Net

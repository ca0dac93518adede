/-
The phases of a connection: which packets a client may send in each of them, and that each of these
packets survives the wire. A phase routes the opcodes of its enums; what it reads and writes is put
together from them.
-/
import Zohar.Net.Packets

namespace Zohar.Net

open Zohar.Lib

/-! ## The packets of each phase -/

/-- Client-to-server packets of the handshake with the game server. -/
inductive HandshakeGameC2s where
  | control (packet : ControlC2s)
  | specific (packet : HandshakeGameC2sSpecific)
  deriving DecidableEq

def HandshakeGameC2s.routes : List (Route HandshakeGameC2s) :=
  [.to [0xFE, 0xFF, 0xFC] .control,
   .to [0xCE] .specific]

instance : BinRead HandshakeGameC2s := .route "HandshakeGameC2s" HandshakeGameC2s.routes

instance : BinWrite HandshakeGameC2s where
  write
    | .control packet => write packet
    | .specific packet => write packet

/-- Client-to-server packets of the handshake with the login server. -/
inductive HandshakeAuthC2s where
  | control (packet : ControlC2s)
  deriving DecidableEq

def HandshakeAuthC2s.routes : List (Route HandshakeAuthC2s) :=
  [.to [0xFE, 0xFF, 0xFC] .control]

instance : BinRead HandshakeAuthC2s := .route "HandshakeAuthC2s" HandshakeAuthC2s.routes

instance : BinWrite HandshakeAuthC2s where
  write
    | .control packet => write packet

/-- Client-to-server packets of the login server. -/
inductive AuthC2s where
  | control (packet : ControlC2s)
  | specific (packet : AuthC2sSpecific)
  deriving DecidableEq

def AuthC2s.routes : List (Route AuthC2s) :=
  [.to [0xFE, 0xFF, 0xFC] .control,
   .to [0x6F] .specific]

instance : BinRead AuthC2s := .route "AuthC2s" AuthC2s.routes

instance : BinWrite AuthC2s where
  write
    | .control packet => write packet
    | .specific packet => write packet

/-- Client-to-server packets of the login to the game server. -/
inductive LoginC2s where
  | control (packet : ControlC2s)
  | specific (packet : LoginC2sSpecific)
  deriving DecidableEq

def LoginC2s.routes : List (Route LoginC2s) :=
  [.to [0xFE, 0xFF, 0xFC] .control,
   .to [0x6D] .specific]

instance : BinRead LoginC2s := .route "LoginC2s" LoginC2s.routes

instance : BinWrite LoginC2s where
  write
    | .control packet => write packet
    | .specific packet => write packet

/-- Client-to-server packets of character selection. -/
inductive SelectC2s where
  | control (packet : ControlC2s)
  | specific (packet : SelectC2sSpecific)
  deriving DecidableEq

def SelectC2s.routes : List (Route SelectC2s) :=
  [.to [0xFE, 0xFF, 0xFC] .control,
   .to [0x5A, 0x04, 0x05, 0x06] .specific]

instance : BinRead SelectC2s := .route "SelectC2s" SelectC2s.routes

instance : BinWrite SelectC2s where
  write
    | .control packet => write packet
    | .specific packet => write packet

/-- Client-to-server packets of loading. -/
inductive LoadingC2s where
  | control (packet : ControlC2s)
  | specific (packet : LoadingC2sSpecific)
  deriving DecidableEq

def LoadingC2s.routes : List (Route LoadingC2s) :=
  [.to [0xFE, 0xFF, 0xFC] .control,
   .to [0xF1, 0x0A] .specific]

instance : BinRead LoadingC2s := .route "LoadingC2s" LoadingC2s.routes

instance : BinWrite LoadingC2s where
  write
    | .control packet => write packet
    | .specific packet => write packet

/-- Client-to-server packets of the game. -/
inductive InGameC2s where
  | control (packet : ControlC2s)
  | move (packet : MovementC2s)
  | chat (packet : ChatC2s)
  | combat (packet : CombatC2s)
  deriving DecidableEq

def InGameC2s.routes : List (Route InGameC2s) :=
  [.to [0xFE, 0xFF, 0xFC] .control,
   .to [0x06, 0x07] .move,
   .to [0x03] .chat,
   .to [0x02, 0x3D] .combat]

instance : BinRead InGameC2s := .route "InGameC2s" InGameC2s.routes

instance : BinWrite InGameC2s where
  write
    | .control packet => write packet
    | .move packet => write packet
    | .chat packet => write packet
    | .combat packet => write packet

/-! ## Reading them back -/

instance : RoundTrip HandshakeGameC2s where
  readsBack {p bs} h := by
    cases p with
    | control packet => exact readRoute_head (ControlC2s.startsIn h) (RoundTrip.readsBack h)
    | specific packet =>
      have hs : StartsIn _ bs := HandshakeGameC2sSpecific.startsIn (p := packet) h
      exact readRoute_tail hs (by decide) (readRoute_head hs (RoundTrip.readsBack h))

instance : RoundTrip HandshakeAuthC2s where
  readsBack {p bs} h := by
    cases p with
    | control packet => exact readRoute_head (ControlC2s.startsIn h) (RoundTrip.readsBack h)

instance : RoundTrip AuthC2s where
  readsBack {p bs} h := by
    cases p with
    | control packet => exact readRoute_head (ControlC2s.startsIn h) (RoundTrip.readsBack h)
    | specific packet =>
      have hs : StartsIn _ bs := AuthC2sSpecific.startsIn h
      exact readRoute_tail hs (by decide) (readRoute_head hs (RoundTrip.readsBack h))

instance : RoundTrip LoginC2s where
  readsBack {p bs} h := by
    cases p with
    | control packet => exact readRoute_head (ControlC2s.startsIn h) (RoundTrip.readsBack h)
    | specific packet =>
      have hs : StartsIn _ bs := LoginC2sSpecific.startsIn h
      exact readRoute_tail hs (by decide) (readRoute_head hs (RoundTrip.readsBack h))

instance : RoundTrip SelectC2s where
  readsBack {p bs} h := by
    cases p with
    | control packet => exact readRoute_head (ControlC2s.startsIn h) (RoundTrip.readsBack h)
    | specific packet =>
      have hs : StartsIn _ bs := SelectC2sSpecific.startsIn h
      exact readRoute_tail hs (by decide) (readRoute_head hs (RoundTrip.readsBack h))

instance : RoundTrip LoadingC2s where
  readsBack {p bs} h := by
    cases p with
    | control packet => exact readRoute_head (ControlC2s.startsIn h) (RoundTrip.readsBack h)
    | specific packet =>
      have hs : StartsIn _ bs := LoadingC2sSpecific.startsIn h
      exact readRoute_tail hs (by decide) (readRoute_head hs (RoundTrip.readsBack h))

/-- A chat message that is sent in full: its size fits the size field. -/
def InGameC2s.SizeFits : InGameC2s → Prop
  | .chat (.submitChatMessage _ message) => message.length ≤ ChatC2s.maxMessage
  | _ => True

theorem InGameC2s.readsBack {p : InGameC2s} {bs : Bytes} (hfit : p.SizeFits) (h : write p = .ok bs) :
    ReadsBack (read : Read InGameC2s) bs p := by
  cases p with
  | control packet => exact readRoute_head (ControlC2s.startsIn h) (RoundTrip.readsBack h)
  | move packet =>
    have hs : StartsIn _ bs := MovementC2s.startsIn h
    exact readRoute_tail hs (by decide) (readRoute_head hs (RoundTrip.readsBack h))
  | chat packet =>
    have hs : StartsIn _ bs := ChatC2s.startsIn h
    obtain ⟨kind, message⟩ := packet
    exact readRoute_tail hs (by decide) (readRoute_tail hs (by decide) (readRoute_head hs (ChatC2s.readsBack hfit h)))
  | combat packet =>
    have hs : StartsIn _ bs := CombatC2s.startsIn h
    exact readRoute_tail hs (by decide) (readRoute_tail hs (by decide)
      (readRoute_tail hs (by decide) (readRoute_head hs (RoundTrip.readsBack h))))

/-! ## The states of a connection -/

/-- The connection states of both servers. -/
inductive ConnectionState where
  | handshakeGame | login | select | loading | inGame | handshakeAuth | auth
  deriving DecidableEq, Repr

/-- The packets that a client may send in a state. -/
def ConnectionState.C2sPacket : ConnectionState → Type
  | .handshakeGame => HandshakeGameC2s
  | .login => LoginC2s
  | .select => SelectC2s
  | .loading => LoadingC2s
  | .inGame => InGameC2s
  | .handshakeAuth => HandshakeAuthC2s
  | .auth => AuthC2s

instance : ∀ state : ConnectionState, BinRead state.C2sPacket
  | .handshakeGame => inferInstanceAs (BinRead HandshakeGameC2s)
  | .login => inferInstanceAs (BinRead LoginC2s)
  | .select => inferInstanceAs (BinRead SelectC2s)
  | .loading => inferInstanceAs (BinRead LoadingC2s)
  | .inGame => inferInstanceAs (BinRead InGameC2s)
  | .handshakeAuth => inferInstanceAs (BinRead HandshakeAuthC2s)
  | .auth => inferInstanceAs (BinRead AuthC2s)

instance : ∀ state : ConnectionState, BinWrite state.C2sPacket
  | .handshakeGame => inferInstanceAs (BinWrite HandshakeGameC2s)
  | .login => inferInstanceAs (BinWrite LoginC2s)
  | .select => inferInstanceAs (BinWrite SelectC2s)
  | .loading => inferInstanceAs (BinWrite LoadingC2s)
  | .inGame => inferInstanceAs (BinWrite InGameC2s)
  | .handshakeAuth => inferInstanceAs (BinWrite HandshakeAuthC2s)
  | .auth => inferInstanceAs (BinWrite AuthC2s)

instance : ∀ state : ConnectionState, DecidableEq state.C2sPacket
  | .handshakeGame => inferInstanceAs (DecidableEq HandshakeGameC2s)
  | .login => inferInstanceAs (DecidableEq LoginC2s)
  | .select => inferInstanceAs (DecidableEq SelectC2s)
  | .loading => inferInstanceAs (DecidableEq LoadingC2s)
  | .inGame => inferInstanceAs (DecidableEq InGameC2s)
  | .handshakeAuth => inferInstanceAs (DecidableEq HandshakeAuthC2s)
  | .auth => inferInstanceAs (DecidableEq AuthC2s)

instance (state : ConnectionState) : Consuming state.C2sPacket where
  consumes := by cases state <;> exact readRoute_consumes _ _

/-- Every packet is sent in full, a chat message if its size fits the size field. -/
def ConnectionState.SizeFits : ∀ state : ConnectionState, state.C2sPacket → Prop
  | .inGame, p => InGameC2s.SizeFits p
  | _, _ => True

theorem ConnectionState.readsBack {state : ConnectionState} {p : state.C2sPacket} {bs : Bytes}
    (hfit : state.SizeFits p) (h : write p = .ok bs) : ReadsBack (read : Read state.C2sPacket) bs p := by
  cases state with
  | handshakeGame => exact RoundTrip.readsBack (α := HandshakeGameC2s) h
  | login => exact RoundTrip.readsBack (α := LoginC2s) h
  | select => exact RoundTrip.readsBack (α := SelectC2s) h
  | loading => exact RoundTrip.readsBack (α := LoadingC2s) h
  | inGame => exact InGameC2s.readsBack hfit h
  | handshakeAuth => exact RoundTrip.readsBack (α := HandshakeAuthC2s) h
  | auth => exact RoundTrip.readsBack (α := AuthC2s) h

end Zohar.Net

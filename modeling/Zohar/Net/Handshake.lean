/-
The time handshake of `zohar-protocol/src/handshake.rs`: the server sends its uptime, the client
echoes it with its own delta, and the reply is in time when it is at most 50 ms behind the uptime
at which it is handled. While the connection is handshaking the server answers a reply out of
tolerance with a new sync, at most 32 times; afterwards the same messages keep the clocks in step.

The uptime goes over the wire modulo 2^32 ms and is compared with the uptime itself: a run that
starts within the first 2^32 ms completes, a later one cannot.
-/
import Zohar.Net.Packets
import Zohar.Lib.Clock
import Zohar.Lib.MachineInt

namespace Zohar.Net

open Zohar.Lib

/-! ## Wire times -/

def WireMillis32.asDuration (time : WireMillis32) : Duration := .fromMillis time.raw.toNat

/-- `From<Duration>`: `as u32` keeps the low 32 bits. -/
def WireMillis32.fromDuration (value : Duration) : WireMillis32 := ⟨.ofNat value.asMillis⟩

/-- `as u64` of a negative delta is its sign extension, a span of more than half a billion years. -/
def WireDeltaMillis.asDuration (delta : WireDeltaMillis) : Duration := .fromMillis delta.value.toInt64.toUInt64.toNat

/-- `From<Duration>`, capped at `i32::MAX`. -/
def WireDeltaMillis.fromDuration (value : Duration) : WireDeltaMillis :=
  if value.asMillis > Int32.maxValue.toInt.toNat then ⟨Int32.maxValue⟩ else ⟨.ofNat value.asMillis⟩

def millisI64 (duration : Duration) : Int :=
  if (duration.asMillis : Int) > i64Max then i64Max else duration.asMillis

/-! ## The state -/

def handshakeRetryLimit : UInt8 := 32
def handshakeBiasToleranceMs : Int := 50

structure HandshakeState where
  id : HandshakeId
  serverStart : Instant
  lastSent : Instant
  retries : UInt8
  handshaking : Bool
  deriving DecidableEq, Repr

inductive HandshakeOutcome where
  | completedInitial
  | sendHandshakeSync (data : HandshakeSyncData)
  | sendTimeSyncAck
  deriving DecidableEq, Repr

inductive HandshakeError where
  | handshakeMismatch
  | retryLimitExceeded
  deriving DecidableEq, Repr

def HandshakeError.text : HandshakeError → String
  | .handshakeMismatch => "handshake id mismatch"
  | .retryLimitExceeded => "handshake retry limit exceeded"

/-- `u8::saturating_add`. -/
def saturatingAddU8 (a b : UInt8) : UInt8 := .ofNat (min (a.toNat + b.toNat) 255)

namespace HandshakeState

/-- `with_seed`; `new` takes the seed from the system clock. -/
def withSeed (serverStart now : Instant) (seed : UInt32) : HandshakeState :=
  { id := ⟨seed⟩, serverStart, lastSent := now, retries := 0, handshaking := true }

def uptimeAt (s : HandshakeState) (now : Instant) : Duration := now.durationSince s.serverStart

def buildSyncData (s : HandshakeState) (now : Instant) (delta : Duration) : HandshakeSyncData :=
  { handshake := s.id, time := .fromDuration (s.uptimeAt now), delta := .fromDuration delta }

def syncData (s : HandshakeState) (now : Instant) (delta : Duration) : HandshakeSyncData × HandshakeState :=
  (s.buildSyncData now delta, { s with lastSent := now })

def initialSyncData (s : HandshakeState) (now : Instant) : HandshakeSyncData × HandshakeState := s.syncData now 0

/-- How far the reply is behind the uptime at which it is handled. -/
def biasMs (s : HandshakeState) (data : HandshakeSyncData) (now : Instant) : Int :=
  millisI64 (s.uptimeAt now) - millisI64 (data.time.asDuration + data.delta.asDuration)

/-- The reply is in time: the test `(0..=HANDSHAKE_BIAS_TOLERANCE_MS).contains(&bias_ms)`. -/
def InTolerance (s : HandshakeState) (data : HandshakeSyncData) (now : Instant) : Prop :=
  0 ≤ s.biasMs data now ∧ s.biasMs data now ≤ handshakeBiasToleranceMs

instance (s : HandshakeState) (data : HandshakeSyncData) (now : Instant) : Decidable (s.InTolerance data now) :=
  inferInstanceAs (Decidable (_ ∧ _))

/-- The delta of a resync: half the way back to the client's time or, where that lies ahead, to the last sync. -/
def resyncDeltaMs (s : HandshakeState) (data : HandshakeSyncData) (now : Instant) : Int :=
  let uptime := millisI64 (s.uptimeAt now)
  let delta := (uptime - millisI64 data.time.asDuration).tdiv 2
  let delta := if delta < 0 then (uptime - millisI64 (s.uptimeAt s.lastSent)).tdiv 2 else delta
  if delta < 0 then 0 else delta

def handle (s : HandshakeState) (data : HandshakeSyncData) (now : Instant) :
    Except HandshakeError HandshakeOutcome × HandshakeState :=
  if data.handshake ≠ s.id then (.error .handshakeMismatch, s)
  else if s.InTolerance data now then
    if s.handshaking then (.ok .completedInitial, { s with handshaking := false, retries := 0 })
    else (.ok .sendTimeSyncAck, s)
  else
    let resync := s.buildSyncData now (.fromMillis (s.resyncDeltaMs data now).toNat)
    if s.handshaking then
      let nextRetry := saturatingAddU8 s.retries 1
      if nextRetry > handshakeRetryLimit then (.error .retryLimitExceeded, s)
      else (.ok (.sendHandshakeSync resync), { s with retries := nextRetry, lastSent := now })
    else (.ok (.sendHandshakeSync resync), { s with lastSent := now })

end HandshakeState

/-! ## Encoding -/

theorem WireDeltaMillis.fromDuration_nonneg (value : Duration) : 0 ≤ (fromDuration value).value := by
  unfold fromDuration
  split
  · decide
  · rename_i h
    have hlt : value.asMillis < 2147483648 := by
      have hmax : Int32.maxValue.toInt.toNat = 2147483647 := by decide
      rw [hmax] at h
      have h' : ¬ Duration.asMillis value > 2147483647 := h
      omega
    show 0 ≤ Int32.ofNat value.asMillis
    rw [Int32.le_iff_toInt_le, Int32.toInt_ofNat_of_lt hlt]
    exact Int.natCast_nonneg _

/-- The encoder accepts a sync whose delta is not negative. -/
theorem HandshakeSyncData.write_ok {data : HandshakeSyncData} (h : 0 ≤ data.delta.value) :
    ∃ bs, write data = .ok bs := by
  show ∃ bs, write (data.handshake, data.time, data.delta) = .ok bs
  simp [BinWrite.write, h, bind, Except.bind, pure, Except.pure]

theorem HandshakeState.buildSyncData_write_ok (s : HandshakeState) (now : Instant) (delta : Duration) :
    ∃ bs, write (s.buildSyncData now delta) = .ok bs :=
  HandshakeSyncData.write_ok (WireDeltaMillis.fromDuration_nonneg delta)

/-! ## What one reply can do -/

theorem toNat_saturatingAddU8_one (retries : UInt8) :
    (saturatingAddU8 retries 1).toNat = min (retries.toNat + 1) 255 := by
  unfold saturatingAddU8
  rw [UInt8.toNat_ofNat', show (1 : UInt8).toNat = 1 from rfl]
  omega

/-- The ways a reply can be handled, each with its guard. -/
inductive HandshakeState.Handles (s : HandshakeState) (data : HandshakeSyncData) (now : Instant) :
    Except HandshakeError HandshakeOutcome → HandshakeState → Prop
  | mismatch (hid : data.handshake ≠ s.id) : Handles s data now (.error .handshakeMismatch) s
  | completed (hid : data.handshake = s.id) (hin : s.InTolerance data now) (hs : s.handshaking = true) :
    Handles s data now (.ok .completedInitial) { s with handshaking := false, retries := 0 }
  | ack (hid : data.handshake = s.id) (hin : s.InTolerance data now) (hs : s.handshaking = false) :
    Handles s data now (.ok .sendTimeSyncAck) s
  | exhausted (hid : data.handshake = s.id) (hout : ¬ s.InTolerance data now) (hs : s.handshaking = true)
      (hr : 32 ≤ s.retries.toNat) : Handles s data now (.error .retryLimitExceeded) s
  | retry (delta : Duration) (retries : UInt8) (hid : data.handshake = s.id) (hout : ¬ s.InTolerance data now)
      (hs : s.handshaking = true) (hr : s.retries.toNat < 32) (hnext : retries.toNat = s.retries.toNat + 1) :
    Handles s data now (.ok (.sendHandshakeSync (s.buildSyncData now delta))) { s with retries, lastSent := now }
  | periodic (delta : Duration) (hid : data.handshake = s.id) (hout : ¬ s.InTolerance data now)
      (hs : s.handshaking = false) :
    Handles s data now (.ok (.sendHandshakeSync (s.buildSyncData now delta))) { s with lastSent := now }

theorem HandshakeState.handle_handles (s : HandshakeState) (data : HandshakeSyncData) (now : Instant) :
    s.Handles data now (s.handle data now).1 (s.handle data now).2 := by
  unfold handle
  by_cases hid : data.handshake = s.id
  · rw [if_neg (not_not.2 hid)]
    by_cases hin : s.InTolerance data now
    · rw [if_pos hin]
      by_cases hs : s.handshaking = true
      · rw [if_pos hs]; exact .completed hid hin hs
      · rw [if_neg hs]; exact .ack hid hin (Bool.eq_false_iff.2 hs)
    · rw [if_neg hin]
      by_cases hs : s.handshaking = true
      · rw [if_pos hs]
        have hnext := toNat_saturatingAddU8_one s.retries
        have hlimit : saturatingAddU8 s.retries 1 > handshakeRetryLimit ↔ 32 < (saturatingAddU8 s.retries 1).toNat :=
          UInt8.lt_iff_toNat_lt
        by_cases hmax : saturatingAddU8 s.retries 1 > handshakeRetryLimit
        · simp only [if_pos hmax]
          have := hlimit.1 hmax
          exact .exhausted hid hin hs (by omega)
        · simp only [if_neg hmax]
          have : ¬ 32 < (saturatingAddU8 s.retries 1).toNat := fun h => hmax (hlimit.2 h)
          exact .retry _ _ hid hin hs (by omega) (by omega)
      · rw [if_neg hs]; exact .periodic _ hid hin (Bool.eq_false_iff.2 hs)
  · rw [if_pos hid]; exact .mismatch hid

/-! ## Runs -/

/-- The calls the server makes: the first sync, a periodic one, and the handling of a reply. -/
inductive HandshakeCall where
  | initialSyncData (now : Instant)
  | syncData (now : Instant) (delta : Duration)
  | handle (data : HandshakeSyncData) (now : Instant)
  deriving DecidableEq, Repr

inductive HandshakeAnswer where
  | sync (data : HandshakeSyncData)
  | handled (result : Except HandshakeError HandshakeOutcome)
  deriving DecidableEq

/-- The sync a call produces, to be sent to the client. -/
def HandshakeAnswer.produced : HandshakeAnswer → Option HandshakeSyncData
  | .sync data => some data
  | .handled (.ok (.sendHandshakeSync data)) => some data
  | .handled _ => none

def HandshakeState.call (s : HandshakeState) : HandshakeCall → HandshakeAnswer × HandshakeState
  | .initialSyncData now => (.sync (s.initialSyncData now).1, (s.initialSyncData now).2)
  | .syncData now delta => (.sync (s.syncData now delta).1, (s.syncData now delta).2)
  | .handle data now => (.handled (s.handle data now).1, (s.handle data now).2)

/-- A call as it happened, with the states around it. -/
structure Exchange where
  before : HandshakeState
  call : HandshakeCall
  answer : HandshakeAnswer
  after : HandshakeState

/-- The call that ends the handshake. -/
def Exchange.completes (e : Exchange) : Bool := e.before.handshaking && !e.after.handshaking

/-- A resync sent while the connection is handshaking. -/
def Exchange.retries (e : Exchange) : Bool :=
  e.before.handshaking &&
    match e.answer with
    | .handled (.ok (.sendHandshakeSync _)) => true
    | _ => false

/-- What every call keeps to. -/
structure Exchange.Kept (e : Exchange) : Prop where
  flag : e.before.handshaking = false → e.after.handshaking = false
  -- while the connection keeps handshaking, the counter counts the resyncs
  counts : e.after.handshaking = true → e.after.retries.toNat = e.before.retries.toNat + e.retries.toNat
  below : e.retries = true → e.before.retries.toNat < 32 ∧ e.after.handshaking = true
  exhausted : ∀ data now, e.call = .handle data now → data.handshake = e.before.id → ¬ e.before.InTolerance data now →
    e.before.handshaking = true → 32 ≤ e.before.retries.toNat → e.answer = .handled (.error .retryLimitExceeded)
  error : ∀ err, e.answer = .handled (.error err) → e.after = e.before
  encodes : ∀ data, e.answer.produced = some data → ∃ bs, write data = .ok bs

theorem Exchange.Kept.of_sync (s : HandshakeState) (c : HandshakeCall) (now : Instant) (delta : Duration)
    (hc : ∀ data now, c ≠ .handle data now) :
    Exchange.Kept ⟨s, c, .sync (s.syncData now delta).1, (s.syncData now delta).2⟩ where
  flag := fun h => h
  counts := by simp [Exchange.retries, HandshakeState.syncData]
  below := by simp [Exchange.retries]
  exhausted := fun data now h => absurd h (hc data now)
  error := by simp
  encodes := by
    rintro data h
    cases h
    exact s.buildSyncData_write_ok now delta

theorem HandshakeState.Handles.kept {s t : HandshakeState} {data : HandshakeSyncData} {now : Instant}
    {r : Except HandshakeError HandshakeOutcome} (h : s.Handles data now r t) :
    Exchange.Kept ⟨s, .handle data now, .handled r, t⟩ := by
  cases h with
  | mismatch hid =>
    refine ⟨fun h => h, by simp [Exchange.retries], by simp [Exchange.retries], ?_, by simp,
      by simp [HandshakeAnswer.produced]⟩
    rintro _ _ h hid'
    cases h
    exact absurd hid' hid
  | completed hid hin hs =>
    refine ⟨by simp, by simp, by simp [Exchange.retries], ?_, by simp, by simp [HandshakeAnswer.produced]⟩
    rintro _ _ h _ hout
    cases h
    exact absurd hin hout
  | ack hid hin hs =>
    refine ⟨fun h => h, by simp [hs], by simp [Exchange.retries], ?_, by simp, by simp [HandshakeAnswer.produced]⟩
    rintro _ _ h _ hout
    cases h
    exact absurd hin hout
  | exhausted hid hout hs hr =>
    exact ⟨fun h => h, by simp [Exchange.retries], by simp [Exchange.retries], fun _ _ _ _ _ _ _ => rfl, by simp,
      by simp [HandshakeAnswer.produced]⟩
  | retry delta retries hid hout hs hr hnext =>
    refine ⟨fun h => h, by simp [Exchange.retries, hs, hnext], by simp [Exchange.retries, hs, hr], ?_, by simp, ?_⟩
    · rintro _ _ _ _ _ _ hmax
      have hr' : 32 ≤ s.retries.toNat := hmax
      omega
    · rintro data' h
      cases h
      exact s.buildSyncData_write_ok now delta
  | periodic delta hid hout hs =>
    refine ⟨fun h => h, by simp [hs], by simp [Exchange.retries, hs], ?_, by simp, ?_⟩
    · rintro _ _ _ _ _ hs'
      exact absurd (hs.symm.trans hs') (by simp)
    · rintro data' h
      cases h
      exact s.buildSyncData_write_ok now delta

/-- The call made on the state, as it happens. -/
def HandshakeState.exchange (s : HandshakeState) (c : HandshakeCall) : Exchange := ⟨s, c, (s.call c).1, (s.call c).2⟩

theorem HandshakeState.exchange_kept (s : HandshakeState) (c : HandshakeCall) : (s.exchange c).Kept := by
  cases c with
  | initialSyncData now => exact .of_sync s _ now 0 (by simp)
  | syncData now delta => exact .of_sync s _ now delta (by simp)
  | handle data now => exact (s.handle_handles data now).kept

/-- Every call of a run from the state, in order. -/
def HandshakeState.exchanges (s : HandshakeState) : List HandshakeCall → List Exchange
  | [] => []
  | c :: cs => s.exchange c :: exchanges (s.exchange c).after cs

theorem HandshakeState.exchanges_kept : ∀ (s : HandshakeState) (cs : List HandshakeCall), ∀ e ∈ s.exchanges cs, e.Kept
  | _, [], _, he => by cases he
  | s, c :: cs, e, he => by
    rcases List.mem_cons.1 he with rfl | he
    · exact s.exchange_kept c
    · exact exchanges_kept _ cs e he

/-- The flag never comes back. -/
theorem HandshakeState.exchanges_done : ∀ (s : HandshakeState) (cs : List HandshakeCall), s.handshaking = false →
    ∀ e ∈ s.exchanges cs, e.before.handshaking = false
  | _, [], _, _, he => by cases he
  | s, c :: cs, h, e, he => by
    rcases List.mem_cons.1 he with rfl | he
    · exact h
    · exact exchanges_done _ cs ((s.exchange_kept c).flag h) e he

/-- Nothing that a handshaking connection does happens once the handshake is over. -/
theorem HandshakeState.countP_done {s : HandshakeState} {p : Exchange → Bool}
    (hp : ∀ e, p e = true → e.before.handshaking = true) (cs : List HandshakeCall) (h : s.handshaking = false) :
    (s.exchanges cs).countP p = 0 := by
  rw [List.countP_eq_zero]
  intro e he hpe
  have hdone := s.exchanges_done cs h e he
  exact absurd (hdone.symm.trans (hp e hpe)) (by simp)

theorem Exchange.handshaking_of_retries {e : Exchange} (h : e.retries = true) : e.before.handshaking = true := by
  unfold Exchange.retries at h
  exact (Bool.and_eq_true_iff.1 h).1

theorem Exchange.handshaking_of_completes {e : Exchange} (h : e.completes = true) : e.before.handshaking = true := by
  unfold Exchange.completes at h
  exact (Bool.and_eq_true_iff.1 h).1

/-- The handshake completes at most once. -/
theorem HandshakeState.countP_completes : ∀ (s : HandshakeState) (cs : List HandshakeCall),
    (s.exchanges cs).countP Exchange.completes ≤ 1
  | _, [] => by simp [exchanges]
  | s, c :: cs => by
    rw [exchanges, List.countP_cons]
    by_cases hc : (s.exchange c).completes = true
    · have hafter : (s.exchange c).after.handshaking = false := by
        have := (Bool.and_eq_true_iff.1 hc).2
        simpa using this
      rw [countP_done (fun _ => Exchange.handshaking_of_completes) cs hafter, if_pos hc]
    · rw [if_neg hc, Nat.add_zero]
      exact countP_completes _ cs

/-- A state that has resent `retries` times resends at most `32 - retries` times more. -/
theorem HandshakeState.countP_retries : ∀ (s : HandshakeState) (cs : List HandshakeCall),
    (s.exchanges cs).countP Exchange.retries ≤ 32 - s.retries.toNat
  | _, [] => by simp [exchanges]
  | s, c :: cs => by
    rw [exchanges, List.countP_cons]
    have hk := s.exchange_kept c
    have ih := countP_retries (s.exchange c).after cs
    by_cases hs : (s.exchange c).after.handshaking = true
    · -- the counter carries the bound on to the rest of the run
      have hcount := hk.counts hs
      have hbefore : (s.exchange c).before.retries.toNat = s.retries.toNat := rfl
      by_cases hr : (s.exchange c).retries = true
      · have hbelow := (hk.below hr).1
        rw [hr, Bool.toNat_true] at hcount
        rw [if_pos hr]
        omega
      · rw [Bool.not_eq_true] at hr
        rw [hr, Bool.toNat_false] at hcount
        rw [hr, if_neg Bool.false_ne_true]
        omega
    · have hr : ¬ (s.exchange c).retries = true := fun hr => hs (hk.below hr).2
      rw [countP_done (fun _ => Exchange.handshaking_of_retries) cs (Bool.eq_false_iff.2 hs), if_neg hr]
      omega

/-- Where a run has used up its resyncs, a connection still handshaking has a full counter. -/
theorem HandshakeState.retries_of_split : ∀ (cs : List HandshakeCall) (s : HandshakeState) (pre post : List Exchange)
    (e : Exchange), s.exchanges cs = pre ++ e :: post → e.before.handshaking = true →
    e.before.retries.toNat = s.retries.toNat + pre.countP Exchange.retries
  | [], _, pre, post, e, h, _ => by
    have := congrArg List.length h
    simp [exchanges] at this
  | c :: cs, s, [], post, e, h, _ => by
    rw [exchanges, List.nil_append, List.cons.injEq] at h
    rw [← h.1]; rfl
  | c :: cs, s, x :: pre, post, e, h, hs => by
    rw [exchanges, List.cons_append, List.cons.injEq] at h
    obtain ⟨rfl, h⟩ := h
    have hafter : (s.exchange c).after.handshaking = true := by
      by_contra hno
      have hdone := exchanges_done _ cs (Bool.eq_false_iff.2 hno) e (by rw [h]; simp)
      exact absurd (hdone.symm.trans hs) (by simp)
    have hcount := (s.exchange_kept c).counts hafter
    have hbefore : (s.exchange c).before.retries.toNat = s.retries.toNat := rfl
    rw [retries_of_split cs _ pre post e h hs, List.countP_cons, hcount, hbefore]
    cases (s.exchange c).retries with
    | false => simp
    | true => simp; omega

/-- The handshake over every run from every state, whatever the replies and the clock readings: the flag falls at most
once and never rises; a connection that is handshaking resends at most `32 - retries` times, and once it has, a reply
out of tolerance gets `RetryLimitExceeded`; an error leaves the state as it was; every sync produced can be encoded. -/
theorem handshake_run (s : HandshakeState) (cs : List HandshakeCall) :
    (s.exchanges cs).countP Exchange.completes ≤ 1 ∧
    (∀ e ∈ s.exchanges cs, e.before.handshaking = false → e.after.handshaking = false) ∧
    (s.exchanges cs).countP Exchange.retries ≤ 32 - s.retries.toNat ∧
    (∀ pre e post data now, s.exchanges cs = pre ++ e :: post → 32 - s.retries.toNat ≤ pre.countP Exchange.retries →
      e.call = .handle data now → data.handshake = e.before.id → ¬ e.before.InTolerance data now →
      e.before.handshaking = true → e.answer = .handled (.error .retryLimitExceeded)) ∧
    (∀ e ∈ s.exchanges cs, ∀ err, e.answer = .handled (.error err) → e.after = e.before) ∧
    (∀ e ∈ s.exchanges cs, ∀ data, e.answer.produced = some data → ∃ bs, write data = .ok bs) := by
  have hk := s.exchanges_kept cs
  refine ⟨s.countP_completes cs, fun e he => (hk e he).flag, s.countP_retries cs, ?_, fun e he => (hk e he).error,
    fun e he => (hk e he).encodes⟩
  rintro pre e post data now h hfull hcall hid hout hs
  have hcount := HandshakeState.retries_of_split cs s pre post e h hs
  exact (hk e (by rw [h]; simp)).exhausted data now hcall hid hout hs (by omega)

/-! ## The echo at any uptime -/

theorem millisI64_eq (duration : Duration) : millisI64 duration = min (duration.asMillis : Int) i64Max := by
  unfold millisI64; split <;> omega

theorem WireMillis32.asMillis_fromDuration (value : Duration) :
    (fromDuration value).asDuration.asMillis = value.asMillis % 4294967296 := by
  unfold fromDuration asDuration
  rw [asMillis_fromMillis, UInt32.toNat_ofNat']

/-- How far behind an echo of the first sync is: the delay, and what the wire cut off the uptime. -/
theorem HandshakeState.biasMs_echo (s : HandshakeState) (t r : Instant) :
    (s.initialSyncData t).2.biasMs (s.initialSyncData t).1 (t + r) =
      min ((s.uptimeAt (t + r)).asMillis : Int) i64Max - ((s.uptimeAt t).asMillis % 4294967296 : Nat) := by
  have hdelta : (s.initialSyncData t).1.delta.asDuration = 0 := by
    show (WireDeltaMillis.fromDuration 0).asDuration = 0
    decide
  have htime : (s.initialSyncData t).1.time = .fromDuration (s.uptimeAt t) := rfl
  show millisI64 (s.uptimeAt (t + r)) - millisI64 ((s.initialSyncData t).1.time.asDuration + _) = _
  rw [hdelta, Nat.add_zero, millisI64_eq, millisI64_eq, htime, WireMillis32.asMillis_fromDuration]
  unfold i64Max
  omega

/-- An echo within 50 ms of the first sync completes the handshake exactly when the sync was sent within the first
`2^32` ms of uptime. -/
theorem echo_completes_iff (s : HandshakeState) (t : Instant) (r : Duration) (hs : s.handshaking = true)
    (hr : r ≤ .fromMillis 50) :
    ((s.initialSyncData t).2.handle (s.initialSyncData t).1 (t + r)).1 = .ok .completedInitial ↔
      (s.uptimeAt t).asMillis < 4294967296 := by
  have hbias := s.biasMs_echo t r
  -- the uptime grows by the delay at most, whatever the clock read before the server started
  have hgrow : s.uptimeAt (t + r) ≤ s.uptimeAt t + r := durationSince_add_le t r s.serverStart
  have hmono : s.uptimeAt t ≤ s.uptimeAt (t + r) := durationSince_mono (Nat.le_add_right t r) _
  have hlo := asMillis_mono hmono
  have hhi := (asMillis_mono hgrow).trans (asMillis_add_le hr)
  have hin : (s.initialSyncData t).2.InTolerance (s.initialSyncData t).1 (t + r) ↔
      (s.uptimeAt t).asMillis < 4294967296 := by
    unfold HandshakeState.InTolerance
    rw [hbias]
    unfold handshakeBiasToleranceMs i64Max
    generalize (s.uptimeAt t).asMillis = u at *
    generalize (s.uptimeAt (t + r)).asMillis = v at *
    omega
  rw [← hin]
  constructor
  · intro h
    have hh := (s.initialSyncData t).2.handle_handles (s.initialSyncData t).1 (t + r)
    rw [h] at hh
    generalize ((s.initialSyncData t).2.handle (s.initialSyncData t).1 (t + r)).2 = after at hh
    cases hh with
    | completed _ hin _ => exact hin
  · intro h
    unfold HandshakeState.handle
    have hid : ¬ (s.initialSyncData t).1.handshake ≠ (s.initialSyncData t).2.id := not_not.2 rfl
    have hs' : (s.initialSyncData t).2.handshaking = true := hs
    rw [if_neg hid, if_pos h, if_pos hs']

theorem echo_completes_iff_first_day :
    let s := HandshakeState.withSeed 0 0 7
    let t := Duration.fromMillis 86400000
    (s.initialSyncData t).1.time.raw = 86400000 ∧
      ((s.initialSyncData t).2.handle (s.initialSyncData t).1 (t + Duration.fromMillis 50)).1 = .ok .completedInitial :=
  ⟨by decide,
    (echo_completes_iff (.withSeed 0 0 7) (Duration.fromMillis 86400000) (.fromMillis 50) rfl le_rfl).2 (by decide)⟩

/-- At an uptime of `2^32` ms the wire says 0, and an immediate echo is answered with a resync. -/
theorem echo_after_wrap_resyncs :
    let s := HandshakeState.withSeed 0 0 7
    let t := Duration.fromMillis 4294967296
    (s.initialSyncData t).1 = ⟨⟨7⟩, ⟨0⟩, ⟨0⟩⟩ ∧
      ((s.initialSyncData t).2.handle (s.initialSyncData t).1 t).1 =
        .ok (.sendHandshakeSync ⟨⟨7⟩, ⟨0⟩, ⟨2147483647⟩⟩) := by
  decide

end Zohar.Net

import Mathlib.Data.List.Induction
import PowerMonitor.Security.AuthPolicy
import PowerMonitor.Security.Crypto
import PowerMonitor.Security.Replay

/-! # Signed requests

`verify` checks the headers, the device, the timestamp, the nonce, the body hash and the signature of
a request, in this order, and then remembers the nonce. A timestamp is good for the window on both
sides of the device's clock, while the nonce is kept for the window after its acceptance only: a
request stamped ahead of the device's clock outlives its nonce (`replay_refused_iff`). -/

namespace PowerMonitor.Security.RequestAuthenticator

open PowerMonitor.Lib.Binary
open PowerMonitor.Security.Crypto PowerMonitor.Security.AuthPolicy PowerMonitor.Security.Replay

structure AuthHeaders where
  protocol : Bytes
  deviceId : Bytes
  timestamp : Bytes
  nonce : Bytes
  contentSha256 : Bytes
  signature : Bytes
  deriving DecidableEq

inductive AuthResult
  | ok | missingHeader | protocolMismatch | deviceMismatch | timestampInvalid
  | timestampOutsideWindow | nonceInvalid | nonceReplayed | nonceCapacityExceeded
  | bodyHashMismatch | signatureMismatch
  deriving DecidableEq, Repr

/-- What a client presents. -/
structure Request where
  method : Bytes
  path : Bytes
  query : List (Bytes × Bytes)
  body : Bytes
  headers : AuthHeaders
  deriving DecidableEq

/-- A call of `verify`: the request, and what the device knows at that moment. -/
structure Call where
  request : Request
  expectedDeviceId : Bytes
  key : Key32
  nowSeconds : Int64
  timeSynchronized : Bool

/-- The accepted nonces. -/
abbrev NonceCache := AuthReplayWindow Key32 256

def signatureWindowSeconds : ℕ := 300

def protocolVersion : Bytes := ascii "pm-protocol/1.0.0"

def checkAndRemember (c : Primitives) (nonce : Bytes) (now : Int64) (windowSeconds : ℕ)
    (cache : NonceCache) : NonceCache × ReplayRememberResult :=
  remember (c.sha256 nonce) now windowSeconds cache

/-- A nonce has at least 32 lower-case hexadecimal digits. -/
def nonceWellFormed (nonce : Bytes) : Bool :=
  decide (32 ≤ nonce.length) &&
    nonce.all fun b => (48 ≤ b && b ≤ 57) || (97 ≤ b && b ≤ 102)

/-- The checks made before the nonce is remembered: the first one that fails, if any. -/
def screen (c : Primitives) (call : Call) : Option AuthResult :=
  let headers := call.request.headers
  if headers.protocol = [] ∨ headers.deviceId = [] ∨ headers.timestamp = [] ∨ headers.nonce = [] ∨
      headers.contentSha256 = [] ∨ headers.signature = [] then some .missingHeader
  else if headers.protocol ≠ protocolVersion then some .protocolMismatch
  else if !constantTimeEqual headers.deviceId call.expectedDeviceId then some .deviceMismatch
  else
    match parseTimestamp headers.timestamp with
    | none => some .timestampInvalid
    | some timestamp =>
      if !call.timeSynchronized ||
          !timestampWithinWindow timestamp call.nowSeconds signatureWindowSeconds then
        some .timestampOutsideWindow
      else if !nonceWellFormed headers.nonce then some .nonceInvalid
      else if !constantTimeEqual (sha256Hex c call.request.body) headers.contentSha256 then
        some .bodyHashMismatch
      else if !constantTimeEqual
          (hmacSha256Hex c call.key.toList
            (canonicalRequest call.request.method
              (canonicalPathQuery call.request.path call.request.query) headers.timestamp
              headers.nonce headers.contentSha256)) headers.signature then
        some .signatureMismatch
      else none

/-- `RequestAuthenticator::verify`: the nonce cache afterwards and the result. -/
def verify (c : Primitives) (cache : NonceCache) (call : Call) : NonceCache × AuthResult :=
  match screen c call with
  | some failure => (cache, failure)
  | none =>
    let outcome := checkAndRemember c call.request.headers.nonce call.nowSeconds
      signatureWindowSeconds cache
    (outcome.1,
      match outcome.2 with
      | .replayed => .nonceReplayed
      | .capacityExceeded => .nonceCapacityExceeded
      | .accepted => .ok)

/-- The nonce cache after a sequence of calls on a new authenticator. -/
def after (c : Primitives) (calls : List Call) : NonceCache :=
  calls.foldl (fun cache call => (verify c cache call).1) (AuthReplayWindow.empty 256)

/-- The device's clock does not step back along the calls. -/
def Chronological (calls : List Call) : Prop :=
  calls.Pairwise fun a b => a.nowSeconds.toInt ≤ b.nowSeconds.toInt

/-! ### One call -/

theorem screen_ne_ok (c : Primitives) (call : Call) : screen c call ≠ some .ok := by
  cases hT : parseTimestamp call.request.headers.timestamp with
  | none => simp only [screen, hT]; split_ifs <;> simp
  | some T => simp only [screen, hT]; split_ifs <;> simp

theorem verify_ok_iff (c : Primitives) (cache : NonceCache) (call : Call) :
    (verify c cache call).2 = .ok ↔ screen c call = none ∧
      (checkAndRemember c call.request.headers.nonce call.nowSeconds signatureWindowSeconds
        cache).2 = .accepted := by
  unfold verify
  split
  · next failure h =>
    have hne := screen_ne_ok c call
    rw [h] at hne
    simp only [h, reduceCtorEq, false_and, iff_false]
    exact fun he => hne (by rw [he])
  · next h =>
    rw [h]
    simp only [true_and]
    split <;> simp_all

/-- A request that passed the checks carries a timestamp in the window. -/
theorem screen_none {c : Primitives} {call : Call} (h : screen c call = none) :
    call.timeSynchronized = true ∧
    ∃ T, parseTimestamp call.request.headers.timestamp = some T ∧
      timestampWithinWindow T call.nowSeconds signatureWindowSeconds = true := by
  unfold screen at h
  cases hT : parseTimestamp call.request.headers.timestamp with
  | none =>
    simp only [hT] at h
    split_ifs at h
  | some T =>
    simp only [hT] at h
    split_ifs at h with _ _ _ hw
    simp only [Bool.or_eq_true, Bool.not_eq_true', not_or, Bool.not_eq_false] at hw
    exact ⟨hw.1, T, rfl, hw.2⟩

/-- The checks depend on the clock through the timestamp window alone. -/
theorem screen_later {c : Primitives} {call : Call} {T now : Int64} (h : screen c call = none)
    (hT : parseTimestamp call.request.headers.timestamp = some T)
    (hw : timestampWithinWindow T now signatureWindowSeconds = true) :
    screen c { call with nowSeconds := now } = none := by
  have hs := (screen_none h).1
  unfold screen at h ⊢
  simp only [hT] at h ⊢
  split_ifs at h ⊢ <;> simp_all

/-- A call keeps the entries still inside the window, and adds at most its own. -/
theorem verify_keeps {c : Primitives} {cache : NonceCache} {call : Call} {e : Entry Key32}
    (he : e ∈ cache.entries) (hu : e.used = true)
    (hw : call.nowSeconds.toInt - e.acceptedAt.toInt ≤ signatureWindowSeconds) :
    e ∈ (verify c cache call).1.entries := by
  unfold verify
  split
  · exact he
  · exact remember_keeps he hu hw

theorem verify_entries {c : Primitives} {cache : NonceCache} {call : Call} {e : Entry Key32}
    (he : e ∈ (verify c cache call).1.entries) (hu : e.used = true) :
    e.acceptedAt = call.nowSeconds ∨ e ∈ cache.entries := by
  unfold verify at he
  split at he
  · exact Or.inr he
  · exact (remember_entries he hu).imp (fun h => by rw [h]) id

/-! ### Runs -/

theorem after_append (c : Primitives) (calls more : List Call) :
    after c (calls ++ more) = more.foldl (fun cache call => (verify c cache call).1) (after c calls) :=
  List.foldl_append

theorem after_concat (c : Primitives) (calls : List Call) (call : Call) :
    after c (calls ++ [call]) = (verify c (after c calls) call).1 := by
  rw [after_append]; rfl

/-- **No entry is younger than the last call.** -/
theorem after_acceptedAt_le {c : Primitives} {now : ℤ} {calls : List Call}
    (h : ∀ call ∈ calls, call.nowSeconds.toInt ≤ now) :
    ∀ e ∈ (after c calls).entries, e.used = true → e.acceptedAt.toInt ≤ now := by
  induction calls using List.reverseRecOn with
  | nil =>
    intro e he hu
    obtain rfl : e = Entry.empty := List.eq_of_mem_replicate he
    simp [Entry.empty] at hu
  | append_singleton calls call ih =>
    intro e he hu
    rw [after_concat] at he
    rcases verify_entries he hu with ha | he
    · rw [ha]; exact h call (by simp)
    · exact ih (fun x hx => h x (by simp [hx])) e he hu

/-- **An entry outlives every run that stays inside its window.** -/
theorem foldl_keeps {c : Primitives} {e : Entry Key32} (hu : e.used = true) {calls : List Call}
    (h : ∀ call ∈ calls, call.nowSeconds.toInt - e.acceptedAt.toInt ≤ signatureWindowSeconds)
    {cache : NonceCache} (he : e ∈ cache.entries) :
    e ∈ (calls.foldl (fun cache call => (verify c cache call).1) cache).entries := by
  induction calls generalizing cache with
  | nil => exact he
  | cons call calls ih =>
    exact ih (fun x hx => h x (by simp [hx])) (verify_keeps he hu (h call (by simp)))

theorem chronological_last {calls : List Call} {last : Call}
    (h : Chronological (calls ++ [last])) :
    ∀ call ∈ calls, call.nowSeconds.toInt ≤ last.nowSeconds.toInt := by
  intro call hc
  exact (List.pairwise_append.mp h).2.2 call hc last (by simp)

/-- A later call is refused while the nonce of the accepted one is inside its window. -/
theorem refused_of_le {c : Primitives} {before between : List Call} {first again : Call}
    (hok : (verify c (after c before) first).2 = .ok)
    (hchron : Chronological (before ++ first :: between ++ [again]))
    (hnonce : again.request.headers.nonce = first.request.headers.nonce)
    (hle : again.nowSeconds.toInt ≤ first.nowSeconds.toInt + signatureWindowSeconds) :
    (verify c (after c (before ++ first :: between)) again).2 ≠ .ok := by
  intro hagain
  have hlast := chronological_last hchron
  have hacc := remember_accepted ((verify_ok_iff ..).mp hok).2
  have hscreen := ((verify_ok_iff ..).mp hok).1
  have hmem : (⟨true, c.sha256 first.request.headers.nonce, first.nowSeconds⟩ : Entry Key32) ∈
      (after c (before ++ first :: between)).entries := by
    rw [after_append, List.foldl_cons]
    refine foldl_keeps rfl (fun call hcall => ?_) ?_
    · have := hlast call (by simp [hcall])
      simp only
      omega
    · simp only [verify, hscreen]
      exact hacc
  have hwithin : again.nowSeconds.toInt - first.nowSeconds.toInt ≤ signatureWindowSeconds := by omega
  have hlive := remember_live hmem rfl hwithin (congrArg c.sha256 hnonce.symm)
  have := ((verify_ok_iff ..).mp hagain).2
  unfold checkAndRemember at this
  rw [hlive] at this
  cases this

/-- The same request once more. -/
def Replays (first again : Call) : Prop := again.request = first.request

/-- **When a signed request can be replayed.** After any run in which the clock does not step back,
an accepted request is refused at every later presentation exactly when its timestamp is not ahead
of the clock that accepted it, or the clock cannot advance past the window. -/
theorem replay_refused_iff (c : Primitives) (before : List Call) (first : Call) (T : Int64)
    (hchron : Chronological (before ++ [first]))
    (hT : parseTimestamp first.request.headers.timestamp = some T)
    (hok : (verify c (after c before) first).2 = .ok) :
    (∀ between again, Chronological (before ++ first :: between ++ [again]) → Replays first again →
        (verify c (after c (before ++ first :: between)) again).2 ≠ .ok) ↔
      T.toInt ≤ first.nowSeconds.toInt ∨
        int64Max ≤ first.nowSeconds.toInt + signatureWindowSeconds := by
  obtain ⟨hscreen, -⟩ := (verify_ok_iff ..).mp hok
  constructor
  · intro hall
    by_contra hcon
    obtain ⟨hahead, hroom⟩ := not_or.mp hcon
    obtain ⟨-, T', hT', hw⟩ := screen_none hscreen
    obtain rfl : T' = T := by rw [hT] at hT'; exact (Option.some.inj hT').symm
    rw [timestampWithinWindow_iff] at hw
    -- the moment just after the nonce expires
    set now : Int64 := Int64.ofInt (first.nowSeconds.toInt + signatureWindowSeconds + 1) with hnow
    have hrange := toInt_range first.nowSeconds
    have hnowInt : now.toInt = first.nowSeconds.toInt + signatureWindowSeconds + 1 := by
      unfold int64Min int64Max at *
      exact Int64.toInt_ofInt_of_le (by omega) (by omega)
    have hfirst := chronological_last hchron
    refine hall [] { first with nowSeconds := now } ?_ rfl ?_
    · unfold Chronological at hchron ⊢
      rw [List.pairwise_append]
      refine ⟨by simpa using hchron, by simp, fun a ha b hb => ?_⟩
      obtain rfl := List.mem_singleton.mp hb
      simp only [hnowInt]
      rcases List.mem_append.mp ha with ha | ha
      · have := hfirst a ha; omega
      · obtain rfl := List.mem_singleton.mp ha; omega
    · rw [verify_ok_iff]
      refine ⟨screen_later hscreen hT ?_, remember_fresh (by omega) fun e he hu => ?_⟩
      · rw [timestampWithinWindow_iff, hnowInt]; omega
      · have hcalls : ∀ call ∈ before ++ [first], call.nowSeconds.toInt ≤ first.nowSeconds.toInt := by
          intro call hcall
          rcases List.mem_append.mp hcall with h | h
          · exact hfirst call h
          · obtain rfl := List.mem_singleton.mp h; exact le_rfl
        have := after_acceptedAt_le hcalls e he hu
        simp only [hnowInt]
        omega
  · intro hcond between again hchron' hrep hagain
    obtain ⟨-, T', hT', hw⟩ := screen_none ((verify_ok_iff ..).mp hagain).1
    rw [hrep, hT] at hT'
    obtain rfl := Option.some.inj hT'
    rw [timestampWithinWindow_iff] at hw
    have hrange := toInt_range again.nowSeconds
    exact refused_of_le hok hchron' (by rw [hrep]) (by omega) hagain

/-! ### A request stamped ahead of the device's clock -/

/-- SHA-256 and HMAC-SHA-256 at the inputs of the requests below. -/
def samplePrimitives : Primitives where
  sha256 data :=
    if data = [] then emptyDigest
    else if data = ascii "00112233445566778899aabbccddeeff" then
      #v[0x59, 0x47, 0xd7, 0xc3, 0x3d, 0x78, 0x3f, 0x94, 0xb3, 0xb4, 0xc1, 0xa9, 0x6e, 0xbc, 0x89, 0x91,
    0xed, 0x28, 0xf1, 0xb0, 0x69, 0xb7, 0x1e, 0x03, 0x37, 0x6c, 0xba, 0x8c, 0xaa, 0x98, 0xa7, 0x20]
    else default
  hmacSha256 key data :=
    if key = (List.range 32).map UInt8.ofNat ∧ data = canonicalRequest (ascii "GET")
        (ascii "/api/v1/readings") (ascii "1300") (ascii "00112233445566778899aabbccddeeff")
        (ascii "e3b0c44298fc1c149afbf4c8996fb92427ae41e4649b934ca495991b7852b855") then
      #v[0x6f, 0xef, 0x41, 0x2a, 0xd9, 0xa4, 0xd7, 0x59, 0x5c, 0xd3, 0x8a, 0x8d, 0x68, 0xef, 0x24, 0x33,
    0x1e, 0xe1, 0xeb, 0x4e, 0xc8, 0x22, 0x13, 0xb8, 0x17, 0xb2, 0xac, 0xf5, 0x70, 0x07, 0xab, 0x0e]
    else if key = (List.range 32).map UInt8.ofNat ∧ data = canonicalRequest (ascii "GET")
        (ascii "/api/v1/readings") (ascii "900") (ascii "00112233445566778899aabbccddeeff")
        (ascii "e3b0c44298fc1c149afbf4c8996fb92427ae41e4649b934ca495991b7852b855") then
      #v[0x06, 0x22, 0x82, 0x2b, 0x6c, 0x7b, 0x0f, 0x3e, 0xb1, 0x4c, 0xc2, 0xe4, 0x96, 0xc5, 0x76, 0xa4,
    0x37, 0x2a, 0x4d, 0x67, 0xdb, 0x78, 0x30, 0x36, 0xc2, 0x84, 0xa2, 0xbc, 0x55, 0x97, 0x20, 0xad]
    else default

/-- A reading request stamped `timestamp`, presented when the device's clock shows `now`. -/
def sampleCall (timestamp signature : String) (now : Int64) : Call where
  request :=
    { method := ascii "GET", path := ascii "/api/v1/readings", query := [], body := [],
      headers :=
        { protocol := protocolVersion
          deviceId := ascii "00000000-0000-4000-8000-000000000000"
          timestamp := ascii timestamp
          nonce := ascii "00112233445566778899aabbccddeeff"
          contentSha256 := ascii "e3b0c44298fc1c149afbf4c8996fb92427ae41e4649b934ca495991b7852b855"
          signature := ascii signature } }
  expectedDeviceId := ascii "00000000-0000-4000-8000-000000000000"
  key := Vector.ofFn fun i => UInt8.ofNat i
  nowSeconds := now
  timeSynchronized := true

/-- Stamped 300 seconds ahead of a clock that shows 1000. -/
def aheadCall (now : Int64) : Call :=
  sampleCall "1300" "6fef412ad9a4d7595cd38a8d68ef24331ee1eb4ec82213b817b2acf57007ab0e" now

/-- Stamped behind a clock that shows 1000. -/
def behindCall (now : Int64) : Call :=
  sampleCall "900" "0622822b6c7b0f3eb14cc2e496c576a4372a4d67db783036c284a2bc559720ad" now

theorem sample_verified :
    ((verify samplePrimitives (after samplePrimitives []) (aheadCall 1000)).2 = .ok ∧
      (verify samplePrimitives (after samplePrimitives [aheadCall 1000]) (aheadCall 1301)).2 = .ok) ∧
    (verify samplePrimitives (after samplePrimitives []) (behindCall 1000)).2 = .ok := by decide +kernel

/-- Accepted at 1000, one second after its nonce expired the same request is accepted again. -/
theorem ahead_accepted_twice :
    Chronological [aheadCall 1000, aheadCall 1301] ∧ Replays (aheadCall 1000) (aheadCall 1301) ∧
      (verify samplePrimitives (after samplePrimitives []) (aheadCall 1000)).2 = .ok ∧
      (verify samplePrimitives (after samplePrimitives [aheadCall 1000]) (aheadCall 1301)).2 = .ok :=
  ⟨by unfold Chronological; decide, by unfold Replays; decide +kernel, sample_verified.1⟩

/-- A request stamped behind the clock is never accepted again. -/
theorem behind_accepted_once :
    (verify samplePrimitives (after samplePrimitives []) (behindCall 1000)).2 = .ok ∧
      ∀ between again, Chronological ([] ++ behindCall 1000 :: between ++ [again]) →
        Replays (behindCall 1000) again →
        (verify samplePrimitives (after samplePrimitives ([] ++ behindCall 1000 :: between)) again).2 ≠
          .ok :=
  ⟨sample_verified.2, (replay_refused_iff samplePrimitives [] (behindCall 1000) 900 (List.pairwise_singleton _ _)
    (by decide) sample_verified.2).mpr (Or.inl (by decide))⟩

end PowerMonitor.Security.RequestAuthenticator

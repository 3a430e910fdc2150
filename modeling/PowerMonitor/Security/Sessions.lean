import Mathlib.Data.Fintype.Basic
import Mathlib.Logic.Function.Basic
import PowerMonitor.Security.Crypto

/-! # Browser sessions

`SessionManager` keeps a session in one of six places, found by the digest of its token. A place is cleared when a call
finds its session expired or withdrawn, and then used again. The random texts of tokens and of their companions against
forgery come from the hardware; `entropy n` is what the `n`-th request for random bytes is given. -/

namespace PowerMonitor.Security.Sessions

open PowerMonitor.Lib.Binary PowerMonitor.Security.Crypto

def kCapacity : ℕ := 6

structure Entry where
  used : Bool := false
  tokenDigest : Key32 := Vector.replicate 32 0
  csrfDigest : Key32 := Vector.replicate 32 0
  createdMs : UInt64 := 0
  lastSeenMs : UInt64 := 0
  expiresMs : UInt64 := 0
  elevatedUntilMs : UInt64 := 0
  generation : UInt32 := 0
  deriving DecidableEq

structure Metrics where
  capacity : UInt32 := 6
  active : UInt32 := 0
  peakActive : UInt32 := 0
  created : UInt64 := 0
  reused : UInt64 := 0
  refreshed : UInt64 := 0
  expired : UInt64 := 0
  invalid : UInt64 := 0
  revoked : UInt64 := 0
  capacityRejections : UInt64 := 0
  deriving DecidableEq

/-- What a client is given. -/
structure Session where
  token : Bytes := []
  csrf : Bytes := []
  expiresMs : UInt64 := 0
  elevated : Bool := false
  reused : Bool := false
  refreshed : Bool := false
  capacityReached : Bool := false
  deriving DecidableEq

inductive LocalSessionResult
  | ok | missing | invalid | expired | elevationRequired | csrfRejected
  deriving DecidableEq, Repr

/-- The manager, and the number of times random bytes were asked for. -/
structure Manager where
  entries : Fin kCapacity → Entry := fun _ => {}
  metrics : Metrics := {}
  nextGeneration : UInt32 := 1
  draws : ℕ := 0

/-- The places in their order. -/
def places : List (Fin kCapacity) := List.finRange kCapacity

/-- Comparison without early exit. -/
def digestEqual (left right : Key32) : Bool :=
  (List.zipWith (· ^^^ ·) left.toList right.toList).foldl (· ||| ·) 0 == 0

/-- The end of a time that starts now. -/
def deadline (nowMs : UInt64) (ttlSeconds : UInt32) : UInt64 := nowMs + ttlSeconds.toUInt64 * 1000

namespace Manager

def find (m : Manager) (tokenDigest : Key32) : Option (Fin kCapacity) :=
  places.find? fun i => (m.entries i).used && digestEqual (m.entries i).tokenDigest tokenDigest

def put (m : Manager) (i : Fin kCapacity) (e : Entry) : Manager := { m with entries := Function.update m.entries i e }

def setMetrics (m : Manager) (metrics : Metrics) : Manager := { m with metrics }

def purgeExpired (m : Manager) (nowMs : UInt64) : Manager :=
  let expired := fun i => (m.entries i).used && decide (nowMs ≥ (m.entries i).expiresMs)
  { m with
    entries := fun i => if expired i then {} else m.entries i
    metrics := { m.metrics with expired := m.metrics.expired + UInt64.ofNat (places.countP expired) } }

def updatePeak (m : Manager) : Manager :=
  let active := UInt32.ofNat (places.countP fun i => (m.entries i).used)
  m.setMetrics { m.metrics with active, peakActive := max m.metrics.peakActive active }

end Manager

section Calls
variable (c : Primitives) (entropy : ℕ → (bytes : ℕ) → Vector UInt8 bytes)

/-- The text of the `n`-th request for random bytes. -/
def randomHex (n bytes : ℕ) : Bytes := hexEncode (entropy n bytes).toList

/-- The place of a token that is presented and has not expired. -/
def present (m : Manager) (token : Bytes) (nowMs : UInt64) : Option (Fin kCapacity) :=
  if token = [] then none
  else (m.find (c.sha256 token)).filter fun i => decide (nowMs < (m.entries i).expiresMs)

/-- `SessionManager::open`: a session that is presented is continued with a new companion, else one is opened in the
first free place. -/
def openSession (m : Manager) (presentedToken : Bytes) (nowMs : UInt64) (ttlSeconds : UInt32) : Manager × Session :=
  let expiresMs := deadline nowMs ttlSeconds
  match present c m presentedToken nowMs with
  | some i =>
    let existing := m.entries i
    let csrf := randomHex entropy m.draws 24
    let session : Session :=
      { token := presentedToken, csrf, expiresMs, elevated := nowMs < existing.elevatedUntilMs, reused := true,
        refreshed := true }
    let m := m.put i { existing with csrfDigest := c.sha256 csrf, lastSeenMs := nowMs, expiresMs }
    let metrics := { m.metrics with reused := m.metrics.reused + 1, refreshed := m.metrics.refreshed + 1 }
    ({ m.setMetrics metrics with draws := m.draws + 1 }.updatePeak, session)
  | none =>
    let m := m.purgeExpired nowMs
    match places.find? fun i => !(m.entries i).used with
    | none =>
      let metrics := { m.metrics with capacityRejections := m.metrics.capacityRejections + 1 }
      ((m.setMetrics metrics).updatePeak, { capacityReached := true })
    | some i =>
      let token := randomHex entropy m.draws 32
      let csrf := randomHex entropy (m.draws + 1) 24
      let e : Entry :=
        { used := true, tokenDigest := c.sha256 token, csrfDigest := c.sha256 csrf, createdMs := nowMs,
          lastSeenMs := nowMs, expiresMs, generation := m.nextGeneration }
      let m := m.put i e
      let m := m.setMetrics { m.metrics with created := m.metrics.created + 1 }
      ({ m with draws := m.draws + 2, nextGeneration := m.nextGeneration + 1 }.updatePeak, { token, csrf, expiresMs })

/-- `SessionManager::elevate`: the session that is presented is continued with more rights, for no longer than itself. -/
def elevate (m : Manager) (presentedToken : Bytes) (nowMs : UInt64) (ttlSeconds elevationTtlSeconds : UInt32) :
    Manager × Session :=
  if presentedToken = [] then (m, {})
  else
    match present c m presentedToken nowMs with
    | none => (m.setMetrics { m.metrics with invalid := m.metrics.invalid + 1 }, {})
    | some i =>
      let csrf := randomHex entropy m.draws 24
      let expiresMs := deadline nowMs ttlSeconds
      let session : Session := { token := presentedToken, csrf, expiresMs, elevated := true, reused := true, refreshed := true }
      let elevatedUntilMs := min expiresMs (deadline nowMs elevationTtlSeconds)
      let m := m.put i
        { m.entries i with csrfDigest := c.sha256 csrf, lastSeenMs := nowMs, expiresMs, elevatedUntilMs }
      let metrics := { m.metrics with reused := m.metrics.reused + 1, refreshed := m.metrics.refreshed + 1 }
      ({ m.setMetrics metrics with draws := m.draws + 1 }.updatePeak, session)

/-- The checks of a request: `csrf` is given where the request changes something. -/
def check (csrf : Option Bytes) (m : Manager) (token : Bytes) (nowMs : UInt64) (requireElevated : Bool) :
    Manager × LocalSessionResult :=
  if token = [] then (m, .missing)
  else
    match m.find (c.sha256 token) with
    | none => (m.setMetrics { m.metrics with invalid := m.metrics.invalid + 1 }, .invalid)
    | some i =>
      let e := m.entries i
      if nowMs ≥ e.expiresMs then
        ((m.setMetrics { m.metrics with expired := m.metrics.expired + 1 }).put i {}, .expired)
      else if requireElevated ∧ nowMs ≥ e.elevatedUntilMs then (m, .elevationRequired)
      else if csrf.any fun csrf => csrf = [] || !digestEqual e.csrfDigest (c.sha256 csrf) then (m, .csrfRejected)
      else (m.put i { e with lastSeenMs := nowMs }, .ok)

def validate (m : Manager) (token : Bytes) (nowMs : UInt64) (requireElevated : Bool) : Manager × LocalSessionResult :=
  check c none m token nowMs requireElevated

def validateMutation (m : Manager) (token csrf : Bytes) (nowMs : UInt64) (requireElevated : Bool) :
    Manager × LocalSessionResult :=
  check c (some csrf) m token nowMs requireElevated

def invalidate (m : Manager) (token : Bytes) (nowMs : UInt64) : Manager × Bool :=
  match present c m token nowMs with
  | none => (m, false)
  | some i =>
    let m := m.put i {}
    ((m.setMetrics { m.metrics with revoked := m.metrics.revoked + 1 }).updatePeak, true)

def invalidateAll (m : Manager) : Manager := { m with entries := fun _ => {} }.updatePeak

def metrics (m : Manager) (nowMs : UInt64) : Manager × Metrics :=
  let m := (m.purgeExpired nowMs).updatePeak
  (m, m.metrics)

end Calls

/-! ### Finding a place -/

theorem foldl_or_eq_zero (l : List UInt8) (d : UInt8) : l.foldl (· ||| ·) d = 0 ↔ d = 0 ∧ ∀ b ∈ l, b = 0 := by
  induction l generalizing d with
  | nil => simp
  | cons b l ih =>
    rw [List.foldl_cons, ih, List.forall_mem_cons, ← and_assoc]
    have hor : d ||| b = 0 ↔ d = 0 ∧ b = 0 := by
      rw [← UInt8.toNat_inj, ← UInt8.toNat_inj, ← UInt8.toNat_inj, UInt8.toNat_or]
      exact Nat.or_eq_zero_iff
    rw [hor]

/-- **The comparison is equality.** -/
theorem digestEqual_iff (left right : Key32) : digestEqual left right = true ↔ left = right := by
  unfold digestEqual
  rw [beq_iff_eq, foldl_or_eq_zero]
  constructor
  · rintro ⟨-, h⟩
    refine Vector.toList_inj.mp (List.ext_getElem (by simp) fun i h1 h2 => ?_)
    have hi := h (left.toList[i] ^^^ right.toList[i]) (List.mem_iff_getElem.mpr ⟨i, by simpa using h1, by simp⟩)
    exact UInt8.xor_eq_zero_iff.mp hi
  · rintro rfl
    refine ⟨rfl, fun b hb => ?_⟩
    rw [List.zipWith_self, List.mem_map] at hb
    obtain ⟨a, -, rfl⟩ := hb
    exact UInt8.xor_self

theorem mem_places (i : Fin kCapacity) : i ∈ places := List.mem_finRange i

theorem Manager.find_eq_some {m : Manager} {d : Key32} {i : Fin kCapacity} (h : m.find d = some i) :
    (m.entries i).used = true ∧ (m.entries i).tokenDigest = d := by
  have hi := List.find?_some h
  rwa [Bool.and_eq_true, digestEqual_iff] at hi

theorem Manager.find_eq_none {m : Manager} {d : Key32} (h : m.find d = none) (i : Fin kCapacity)
    (hused : (m.entries i).used = true) : (m.entries i).tokenDigest ≠ d := fun hd => by
  have hi := List.find?_eq_none.mp h i (mem_places i)
  simp [hused, digestEqual_iff, hd] at hi

@[simp] theorem Manager.updatePeak_entries (m : Manager) : m.updatePeak.entries = m.entries := rfl

@[simp] theorem Manager.updatePeak_draws (m : Manager) : m.updatePeak.draws = m.draws := rfl

@[simp] theorem Manager.setMetrics_entries (m : Manager) (metrics : Metrics) : (m.setMetrics metrics).entries = m.entries := rfl

@[simp] theorem Manager.setMetrics_draws (m : Manager) (metrics : Metrics) : (m.setMetrics metrics).draws = m.draws := rfl

@[simp] theorem Manager.put_entries (m : Manager) (i : Fin kCapacity) (e : Entry) :
    (m.put i e).entries = Function.update m.entries i e := rfl

@[simp] theorem Manager.put_draws (m : Manager) (i : Fin kCapacity) (e : Entry) : (m.put i e).draws = m.draws := rfl

@[simp] theorem Manager.purgeExpired_draws (m : Manager) (nowMs : UInt64) : (m.purgeExpired nowMs).draws = m.draws := rfl

/-- A place stays as it is, or is cleared because it was expired. -/
theorem Manager.purgeExpired_entries (m : Manager) (nowMs : UInt64) (i : Fin kCapacity) :
    (m.purgeExpired nowMs).entries i = m.entries i ∨
      (m.purgeExpired nowMs).entries i = {} ∧ (m.entries i).used = true ∧ (m.entries i).expiresMs ≤ nowMs := by
  unfold purgeExpired
  dsimp only
  split
  · next h =>
    rw [Bool.and_eq_true, decide_eq_true_eq] at h
    exact Or.inr ⟨rfl, h⟩
  · exact Or.inl rfl

theorem randomHex_ne_nil (entropy : ℕ → (bytes : ℕ) → Vector UInt8 bytes) (n : ℕ) {bytes : ℕ} (h : bytes ≠ 0) :
    randomHex entropy n bytes ≠ [] := by
  unfold randomHex hexEncode
  cases hlist : (entropy n bytes).toList with
  | nil =>
    have hlength := congrArg List.length hlist
    rw [Vector.length_toList, List.length_nil] at hlength
    exact absurd hlength h
  | cons b l => simp

/-! ### What a call can do -/

section Cases
variable (c : Primitives) (entropy : ℕ → (bytes : ℕ) → Vector UInt8 bytes) (m : Manager) (token : Bytes) (nowMs : UInt64)

/-- A session is continued, refused, or opened in a free place. -/
theorem openSession_cases (ttlSeconds : UInt32) :
    (∃ i, present c m token nowMs = some i ∧
      (openSession c entropy m token nowMs ttlSeconds).1.entries = Function.update m.entries i
        { m.entries i with
          csrfDigest := c.sha256 (randomHex entropy m.draws 24), lastSeenMs := nowMs,
          expiresMs := deadline nowMs ttlSeconds } ∧
      (openSession c entropy m token nowMs ttlSeconds).1.draws = m.draws + 1 ∧
      (openSession c entropy m token nowMs ttlSeconds).2 =
        { token, csrf := randomHex entropy m.draws 24, expiresMs := deadline nowMs ttlSeconds,
          elevated := nowMs < (m.entries i).elevatedUntilMs, reused := true, refreshed := true }) ∨
    present c m token nowMs = none ∧
      ((openSession c entropy m token nowMs ttlSeconds).1.entries = (m.purgeExpired nowMs).entries ∧
        (openSession c entropy m token nowMs ttlSeconds).1.draws = m.draws ∧
        (openSession c entropy m token nowMs ttlSeconds).2 = { capacityReached := true } ∨
      ∃ i, ((m.purgeExpired nowMs).entries i).used = false ∧
        (openSession c entropy m token nowMs ttlSeconds).1.entries = Function.update (m.purgeExpired nowMs).entries i
          { used := true, tokenDigest := c.sha256 (randomHex entropy m.draws 32),
            csrfDigest := c.sha256 (randomHex entropy (m.draws + 1) 24), createdMs := nowMs, lastSeenMs := nowMs,
            expiresMs := deadline nowMs ttlSeconds, generation := m.nextGeneration } ∧
        (openSession c entropy m token nowMs ttlSeconds).1.draws = m.draws + 2 ∧
        (openSession c entropy m token nowMs ttlSeconds).2 =
          { token := randomHex entropy m.draws 32, csrf := randomHex entropy (m.draws + 1) 24,
            expiresMs := deadline nowMs ttlSeconds }) := by
  unfold openSession
  split
  · next i hpresent => exact Or.inl ⟨i, hpresent, rfl, rfl, rfl⟩
  · next hpresent =>
    dsimp only
    split
    · exact Or.inr ⟨hpresent, Or.inl ⟨rfl, rfl, rfl⟩⟩
    · next i hfree => exact Or.inr ⟨hpresent, Or.inr ⟨i, by simpa using List.find?_some hfree, rfl, rfl, rfl⟩⟩

/-- A session is continued with more rights, or there is none. -/
theorem elevate_cases (ttlSeconds elevationTtlSeconds : UInt32) :
    (∃ i, present c m token nowMs = some i ∧
      (elevate c entropy m token nowMs ttlSeconds elevationTtlSeconds).1.entries = Function.update m.entries i
        { m.entries i with
          csrfDigest := c.sha256 (randomHex entropy m.draws 24), lastSeenMs := nowMs,
          expiresMs := deadline nowMs ttlSeconds
          elevatedUntilMs := min (deadline nowMs ttlSeconds) (deadline nowMs elevationTtlSeconds) } ∧
      (elevate c entropy m token nowMs ttlSeconds elevationTtlSeconds).1.draws = m.draws + 1 ∧
      (elevate c entropy m token nowMs ttlSeconds elevationTtlSeconds).2 =
        { token, csrf := randomHex entropy m.draws 24, expiresMs := deadline nowMs ttlSeconds, elevated := true,
          reused := true, refreshed := true }) ∨
    (elevate c entropy m token nowMs ttlSeconds elevationTtlSeconds).1.entries = m.entries ∧
      (elevate c entropy m token nowMs ttlSeconds elevationTtlSeconds).1.draws = m.draws ∧
      (elevate c entropy m token nowMs ttlSeconds elevationTtlSeconds).2 = {} := by
  unfold elevate
  split
  · exact Or.inr ⟨rfl, rfl, rfl⟩
  · split
    · exact Or.inr ⟨rfl, rfl, rfl⟩
    · next i hpresent => exact Or.inl ⟨i, hpresent, rfl, rfl, rfl⟩

/-- A session is withdrawn, or there is none. -/
theorem invalidate_cases :
    (∃ i, present c m token nowMs = some i ∧
      (invalidate c m token nowMs).1.entries = Function.update m.entries i {} ∧
      (invalidate c m token nowMs).1.draws = m.draws ∧ (invalidate c m token nowMs).2 = true) ∨
    (invalidate c m token nowMs).1.entries = m.entries ∧ (invalidate c m token nowMs).1.draws = m.draws ∧
      (invalidate c m token nowMs).2 = false := by
  unfold invalidate
  split
  · exact Or.inr ⟨rfl, rfl, rfl⟩
  · next i hpresent => exact Or.inl ⟨i, hpresent, rfl, rfl, rfl⟩

/-- A check touches the place of the session, or clears it because it was expired, or changes none. -/
theorem check_entries (csrf : Option Bytes) (requireElevated : Bool) :
    (check c csrf m token nowMs requireElevated).1.entries = m.entries ∨
      (∃ i, (m.entries i).expiresMs ≤ nowMs ∧
        (check c csrf m token nowMs requireElevated).1.entries = Function.update m.entries i {}) ∨
      ∃ i, (check c csrf m token nowMs requireElevated).1.entries =
        Function.update m.entries i { m.entries i with lastSeenMs := nowMs } := by
  unfold check
  split
  · exact Or.inl rfl
  · split
    · exact Or.inl rfl
    · next i _ =>
      dsimp only
      split
      · next hexpired => exact Or.inr (Or.inl ⟨i, hexpired, rfl⟩)
      · split
        · exact Or.inl rfl
        · split
          · exact Or.inl rfl
          · exact Or.inr (Or.inr ⟨i, rfl⟩)

theorem check_draws (csrf : Option Bytes) (requireElevated : Bool) :
    (check c csrf m token nowMs requireElevated).1.draws = m.draws := by
  unfold check
  split
  · rfl
  · split
    · rfl
    · dsimp only
      split_ifs <;> rfl

/-- **The checks that a changing request passes.** -/
theorem validateMutation_ok_iff (csrf : Bytes) (requireElevated : Bool) :
    (validateMutation c m token csrf nowMs requireElevated).2 = .ok ↔
      token ≠ [] ∧ ∃ i, m.find (c.sha256 token) = some i ∧ nowMs < (m.entries i).expiresMs ∧
        (requireElevated = true → nowMs < (m.entries i).elevatedUntilMs) ∧ csrf ≠ [] ∧
        (m.entries i).csrfDigest = c.sha256 csrf := by
  unfold validateMutation check
  split
  · next htoken => simp [htoken]
  · next htoken =>
    split
    · next hfind => simp [hfind]
    · next i hfind =>
      dsimp only
      split
      · next hexpired => simp [hfind, UInt64.not_lt.mpr hexpired]
      · next hlive =>
        split
        · next helevated => simp [hfind, helevated.1, UInt64.not_lt.mpr helevated.2]
        · next helevated =>
          have hrights : requireElevated = true → nowMs < (m.entries i).elevatedUntilMs := fun hrequire =>
            UInt64.not_le.mp fun hle => helevated ⟨hrequire, hle⟩
          split
          · next hcsrf =>
            simp only [Option.any_some, Bool.or_eq_true, decide_eq_true_eq, Bool.not_eq_true', ← Bool.not_eq_true,
              digestEqual_iff] at hcsrf
            simp only [hfind, reduceCtorEq, false_iff, not_and, not_exists]
            rintro - j hj - - hne hd
            obtain rfl := Option.some.inj hj
            exact hcsrf.elim hne fun hdigest => hdigest hd
          · next hcsrf =>
            simp only [Option.any_some, Bool.or_eq_true, decide_eq_true_eq, Bool.not_eq_true', ← Bool.not_eq_true,
              digestEqual_iff, not_or, not_not] at hcsrf
            simp only [true_iff]
            exact ⟨htoken, i, hfind, UInt64.not_le.mp hlive, hrights, hcsrf.1, hcsrf.2⟩

end Cases

end PowerMonitor.Security.Sessions

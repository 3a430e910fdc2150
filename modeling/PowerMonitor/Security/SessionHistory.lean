import PowerMonitor.Security.SessionTable

/-! # Sessions over whole runs

The calls of a run and their answers make a history, newest first. It grants and withdraws tokens; the table it leaves
is what the manager's places represent (`Inv`), whatever the order of the calls, as long as no two texts of the run
share a digest and no random text comes twice.

* `Inv.step`: one call, one case for each kind.
* `validateMutation_entitled`: **a changing request is let through exactly when the history entitles it**; at most six
  sessions are live, and a session that is refused for want of a place changes no live one. -/

namespace PowerMonitor.Security.SessionHistory

open PowerMonitor.Lib.Binary PowerMonitor.Security.Crypto PowerMonitor.Security.Sessions
open PowerMonitor.Security.SessionTable

inductive Call
  | openSession (presentedToken : Bytes) (ttlSeconds : UInt32)
  | elevate (presentedToken : Bytes) (ttlSeconds elevationTtlSeconds : UInt32)
  | validate (token : Bytes) (requireElevated : Bool)
  | validateMutation (token csrf : Bytes) (requireElevated : Bool)
  | invalidate (token : Bytes)
  | invalidateAll
  | metrics

inductive Answer
  | session (s : Session)
  | result (r : LocalSessionResult)
  | withdrawn (b : Bool)
  | metrics (m : Metrics)
  | done

structure Event where
  nowMs : UInt64
  call : Call
  answer : Answer

/-- The texts a call presents. -/
def Call.texts : Call → List Bytes
  | .openSession token _ | .elevate token _ _ | .validate token _ | .invalidate token => [token]
  | .validateMutation token csrf _ => [token, csrf]
  | .invalidateAll | .metrics => []

/-! ### What a history says -/

/-- The session an event grants for a token. -/
def granted (token : Bytes) (e : Event) : Option Session :=
  match e.answer with
  | .session s => if token ≠ [] ∧ s.token = token then some s else none
  | _ => none

def withdraws (token : Bytes) (e : Event) : Bool :=
  match e.call, e.answer with
  | .invalidate t, .withdrawn b => b && t == token
  | .invalidateAll, _ => true
  | _, _ => false

/-- What an event means for a token: it is granted, or withdrawn, or nothing. -/
def fate (token : Bytes) (e : Event) : Option (Option Session) :=
  if withdraws token e then some none else (granted token e).map some

/-- The end of the higher rights an event grants for a token: that of the session, or of their own time. -/
def elevation (token : Bytes) (e : Event) : Option UInt64 :=
  match e.call with
  | .elevate _ ttl elevationTtl =>
    (granted token e).map fun _ => min (deadline e.nowMs ttl) (deadline e.nowMs elevationTtl)
  | _ => none

/-- An `open` gave out the token as a new one. -/
def Issued (history : List Event) (token : Bytes) : Prop :=
  ∃ e ∈ history, (∃ presented ttl, e.call = .openSession presented ttl) ∧ ∃ s, granted token e = some s ∧ s.reused = false

/-- **What entitles a changing request**: its token was issued by an `open` and was not withdrawn since it was last
granted; that grant has not expired, and the companion is the one it gave out; and where higher rights are required,
those of the latest `elevate` have not ended. -/
def Entitled (history : List Event) (token csrf : Bytes) (nowMs : UInt64) (requireElevated : Bool) : Prop :=
  Issued history token ∧
    ∃ s, history.findSome? (fate token) = some (some s) ∧ nowMs < s.expiresMs ∧ csrf = s.csrf ∧
      (requireElevated = true → ∃ ends, history.findSome? (elevation token) = some ends ∧ nowMs < ends)

/-- The table a history leaves. -/
def table (history : List Event) : Table := fun token =>
  match history.findSome? (fate token) with
  | some (some s) =>
    some { csrf := s.csrf, expiresMs := s.expiresMs, elevatedUntilMs := (history.findSome? (elevation token)).getD 0 }
  | _ => none

/-! ### Runs -/

section Runs
variable (c : Primitives) (entropy : ℕ → (bytes : ℕ) → Vector UInt8 bytes)

def answer (m : Manager) (nowMs : UInt64) : Call → Manager × Answer
  | .openSession token ttl => (openSession c entropy m token nowMs ttl).map id .session
  | .elevate token ttl elevationTtl => (elevate c entropy m token nowMs ttl elevationTtl).map id .session
  | .validate token requireElevated => (validate c m token nowMs requireElevated).map id .result
  | .validateMutation token csrf requireElevated => (validateMutation c m token csrf nowMs requireElevated).map id .result
  | .invalidate token => (invalidate c m token nowMs).map id .withdrawn
  | .invalidateAll => (invalidateAll m, .done)
  | .metrics => (Sessions.metrics m nowMs).map id .metrics

structure Run where
  manager : Manager := {}
  history : List Event := []

/-- One call, at its time. -/
def Run.next (r : Run) (t : UInt64 × Call) : Run where
  manager := (answer c entropy r.manager t.1 t.2).1
  history := { nowMs := t.1, call := t.2, answer := (answer c entropy r.manager t.1 t.2).2 } :: r.history

def runOf (calls : List (UInt64 × Call)) : Run := calls.foldl (Run.next c entropy) {}

/-- The texts that `draws` requests for random bytes gave. -/
def drawn (draws : ℕ) : List Bytes :=
  (List.range draws).flatMap fun n => [randomHex entropy n 24, randomHex entropy n 32]

/-- **The run is an ideal one**: no two of its texts share a digest, and no random text comes twice. -/
structure Ideal (calls : List (UInt64 × Call)) : Prop where
  collisionFree : ∀ s ∈ calls.flatMap (fun t => t.2.texts) ++ drawn entropy (runOf c entropy calls).manager.draws,
    ∀ t ∈ calls.flatMap (fun t => t.2.texts) ++ drawn entropy (runOf c entropy calls).manager.draws,
      c.sha256 s = c.sha256 t → s = t
  neverRepeats : ∀ i < (runOf c entropy calls).manager.draws, ∀ j < (runOf c entropy calls).manager.draws,
    ∀ k ∈ [24, 32], ∀ l ∈ [24, 32], randomHex entropy i k = randomHex entropy j l → i = j

end Runs

/-! ### The table of a history -/

section Table
variable {history : List Event} {token : Bytes} {e : Event}

theorem elevation_of_fate_none (h : fate token e = none) : elevation token e = none := by
  unfold fate at h
  split at h
  · cases h
  · rw [Option.map_eq_none_iff] at h
    unfold elevation
    split
    · rw [h]; rfl
    · rfl

theorem table_cons_none (h : fate token e = none) : table (e :: history) token = table history token := by
  unfold table
  rw [List.findSome?_cons, List.findSome?_cons, h, elevation_of_fate_none h]

theorem table_cons_withdrawn (h : fate token e = some none) : table (e :: history) token = none := by
  unfold table
  rw [List.findSome?_cons, h]

theorem table_cons_granted {s : Session} (h : fate token e = some (some s)) :
    table (e :: history) token = some
      { csrf := s.csrf, expiresMs := s.expiresMs,
        elevatedUntilMs := ((elevation token e).or (history.findSome? (elevation token))).getD 0 } := by
  unfold table
  rw [List.findSome?_cons, List.findSome?_cons, h]
  cases elevation token e <;> rfl

/-- An event that means nothing for any token. -/
theorem table_cons_idle (h : ∀ token, fate token e = none) : table (e :: history) = table history :=
  funext fun token => table_cons_none (h token)

/-- An event that grants a session for its token. -/
theorem table_cons_update {s : Session} (hw : ∀ token, withdraws token e = false) (ha : e.answer = .session s)
    (hne : s.token ≠ []) : table (e :: history) = Function.update (table history) s.token (some
      { csrf := s.csrf, expiresMs := s.expiresMs,
        elevatedUntilMs := ((elevation s.token e).or (history.findSome? (elevation s.token))).getD 0 }) := by
  funext token
  have hfate : fate token e = if s.token = token then some (some s) else none := by
    unfold fate granted
    rw [hw, ha]
    by_cases htoken : s.token = token
    · subst htoken; simp [hne]
    · simp [htoken]
  by_cases htoken : s.token = token
  · subst htoken
    rw [if_pos rfl] at hfate
    rw [Function.update_self, table_cons_granted hfate]
  · rw [if_neg htoken] at hfate
    rw [Function.update_of_ne (Ne.symm htoken), table_cons_none hfate]

end Table

/-! ### The invariant -/

section Invariant
variable {c : Primitives} {entropy : ℕ → (bytes : ℕ) → Vector UInt8 bytes} {texts : Bytes → Prop} {N : ℕ}

/-- Among these texts and the first `N` random ones, no two share a digest and none comes twice. -/
structure Apart (c : Primitives) (entropy : ℕ → (bytes : ℕ) → Vector UInt8 bytes) (texts : Bytes → Prop) (N : ℕ) : Prop where
  random : ∀ n < N, texts (randomHex entropy n 24) ∧ texts (randomHex entropy n 32)
  injective : ∀ s t, texts s → texts t → c.sha256 s = c.sha256 t → s = t
  once : ∀ i < N, ∀ j < N, randomHex entropy i 32 = randomHex entropy j 32 → i = j

/-- **The places represent the table the history leaves**, and all its tokens were drawn and issued. -/
structure Inv (c : Primitives) (entropy : ℕ → (bytes : ℕ) → Vector UInt8 bytes) (texts : Bytes → Prop) (r : Run)
    (now : UInt64) : Prop where
  represents : Represents c r.manager.entries (table r.history) now
  token : ∀ token g, table r.history token = some g → ∃ n < r.manager.draws, token = randomHex entropy n 32
  csrf : ∀ token g, table r.history token = some g → g.csrf ≠ [] ∧ texts g.csrf
  issued : ∀ token g, table r.history token = some g → Issued r.history token
  elevated : ∀ token, r.history.findSome? (elevation token) ≠ none → ∃ n < r.manager.draws, token = randomHex entropy n 32

theorem Inv.separates {r : Run} {now : UInt64} (h : Inv c entropy texts r now) (ha : Apart c entropy texts N)
    (hdraws : r.manager.draws ≤ N) : Separates c texts (table r.history) where
  tokens token g hg := by
    obtain ⟨n, hn, rfl⟩ := h.token token g hg
    exact (ha.random n (Nat.lt_of_lt_of_le hn hdraws)).2
  injective := ha.injective

theorem Inv.later {r : Run} {now now' : UInt64} (h : Inv c entropy texts r now) (hnow : now ≤ now') :
    Inv c entropy texts r now' := { h with represents := h.represents.later hnow }

theorem Issued.cons {history : List Event} {token : Bytes} (e : Event) (h : Issued history token) :
    Issued (e :: history) token := by
  obtain ⟨e', he', hopen⟩ := h
  exact ⟨e', List.mem_cons_of_mem e he', hopen⟩

theorem table_elevated {history : List Event} {token : Bytes} {g : Grant} (h : table history token = some g) :
    g.elevatedUntilMs = (history.findSome? (elevation token)).getD 0 := by
  unfold table at h
  split at h
  · rw [← Option.some.inj h]
  · cases h

/-- An event that means nothing for any token leaves the table. -/
theorem Inv.idle {r : Run} {now : UInt64} (h : Inv c entropy texts r now) {m : Manager} {e : Event}
    (hfate : ∀ token, fate token e = none) (hdraws : r.manager.draws ≤ m.draws)
    (hrepresents : Represents c m.entries (table r.history) now) :
    Inv c entropy texts { manager := m, history := e :: r.history } now := by
  have htable : table (e :: r.history) = table r.history := table_cons_idle hfate
  refine ⟨by rwa [htable], fun token g hg => ?_, fun token g hg => ?_, fun token g hg => ?_, fun token helevated => ?_⟩
  · rw [htable] at hg
    obtain ⟨n, hn, heq⟩ := h.token token g hg
    exact ⟨n, Nat.lt_of_lt_of_le hn hdraws, heq⟩
  · rw [htable] at hg
    exact h.csrf token g hg
  · rw [htable] at hg
    exact (h.issued token g hg).cons e
  · rw [List.findSome?_cons, elevation_of_fate_none (hfate token)] at helevated
    obtain ⟨n, hn, heq⟩ := h.elevated token helevated
    exact ⟨n, Nat.lt_of_lt_of_le hn hdraws, heq⟩

/-- An event that grants a session, and the place that takes it. -/
theorem Inv.grant {r : Run} {now : UInt64} (h : Inv c entropy texts r now) (hs : Separates c texts (table r.history))
    {m : Manager} {ev : Event} {s : Session} {entries : Fin kCapacity → Entry} {i : Fin kCapacity} {e : Entry}
    (hw : ∀ token, withdraws token ev = false) (hanswer : ev.answer = .session s) (hne : s.token ≠ [])
    (hdraws : r.manager.draws ≤ m.draws) (htoken : ∃ n < m.draws, s.token = randomHex entropy n 32) (htext : texts s.token)
    (hcsrf : s.csrf ≠ [] ∧ texts s.csrf) (hissued : Issued (ev :: r.history) s.token)
    (hentries : m.entries = Function.update entries i e) (hrepresents : Represents c entries (table r.history) now)
    (hused : e.used = true)
    (hshows : Shows c e s.token
      { csrf := s.csrf, expiresMs := s.expiresMs,
        elevatedUntilMs := ((elevation s.token ev).or (r.history.findSome? (elevation s.token))).getD 0 })
    (hplace : (entries i).used = true ∧ (entries i).tokenDigest = c.sha256 s.token ∨
      (entries i).used = false ∧ ∀ j, (entries j).used = true → (entries j).tokenDigest ≠ c.sha256 s.token) :
    Inv c entropy texts { manager := m, history := ev :: r.history } now := by
  have htable : table (ev :: r.history) = _ := table_cons_update hw hanswer hne
  refine ⟨?_, fun token g hg => ?_, fun token g hg => ?_, fun token g hg => ?_, fun token helevated => ?_⟩
  · rw [hentries, htable]
    exact hrepresents.grant hs htext hused hshows hplace
  · by_cases heq : token = s.token
    · rw [heq]; exact htoken
    · rw [htable, Function.update_of_ne heq] at hg
      obtain ⟨n, hn, heq⟩ := h.token token g hg
      exact ⟨n, Nat.lt_of_lt_of_le hn hdraws, heq⟩
  · by_cases heq : token = s.token
    · subst heq
      rw [htable, Function.update_self, Option.some.injEq] at hg
      rw [← hg]; exact hcsrf
    · rw [htable, Function.update_of_ne heq] at hg
      exact h.csrf token g hg
  · by_cases heq : token = s.token
    · rw [heq]; exact hissued
    · rw [htable, Function.update_of_ne heq] at hg
      exact (h.issued token g hg).cons ev
  · by_cases heq : token = s.token
    · rw [heq]; exact htoken
    · have hgranted : granted token ev = none := by
        unfold granted
        rw [hanswer]
        exact if_neg fun hand => heq hand.2.symm
      have hnone : fate token ev = none := by
        unfold fate
        rw [hw, hgranted]
        rfl
      rw [List.findSome?_cons, elevation_of_fate_none hnone] at helevated
      obtain ⟨n, hn, heq⟩ := h.elevated token helevated
      exact ⟨n, Nat.lt_of_lt_of_le hn hdraws, heq⟩

/-! ### One call -/

theorem represents_purged {m : Manager} {now : UInt64} {table : Table} (h : Represents c m.entries table now)
    (hs : Separates c texts table) : Represents c (m.purgeExpired now).entries table now := by
  refine h.cleared hs fun i => ?_
  rcases m.purgeExpired_entries now i with heq | ⟨heq, hused, hexpired⟩
  · rw [heq]
    exact Or.inl ⟨rfl, rfl, rfl, rfl, rfl⟩
  · rw [heq]
    exact Or.inr ⟨rfl, fun _ => hexpired⟩

/-- A call that gives no session and withdraws nothing. -/
theorem fate_idle {e : Event} (hw : ∀ token, withdraws token e = false) (hg : ∀ token, granted token e = none)
    (token : Bytes) : fate token e = none := by
  unfold fate
  rw [hw, hg]
  rfl

variable {r : Run} {now : UInt64} (h : Inv c entropy texts r now) (ha : Apart c entropy texts N)
include h ha

/-- **An open** continues a session, is refused, or issues a new token. -/
theorem Inv.openSession {token : Bytes} (ttl : UInt32) (ht : texts token)
    (hN : (Sessions.openSession c entropy r.manager token now ttl).1.draws ≤ N) :
    Inv c entropy texts (r.next c entropy (now, .openSession token ttl)) now := by
  unfold Run.next answer
  dsimp only [Prod.map, id]
  rcases openSession_cases c entropy r.manager token now ttl with
    ⟨i, hpresent, hentries, hdraws, hsession⟩ | ⟨-, ⟨hentries, hdraws, hsession⟩ | ⟨i, hfree, hentries, hdraws, hsession⟩⟩
  · -- the session goes on, with its rights
    have hs := h.separates ha (by omega)
    obtain ⟨hne, hused, g, hg, hshows, -⟩ := h.represents.present_some hs ht hpresent
    obtain ⟨n, hn, hdrawn⟩ := h.token token g hg
    rw [hsession]
    refine h.grant hs (fun _ => rfl) rfl hne (by omega) ⟨n, by omega, hdrawn⟩ ht
      ⟨randomHex_ne_nil _ _ (by decide), (ha.random r.manager.draws (by omega)).1⟩ ((h.issued token g hg).cons _) hentries
      h.represents hused ⟨hshows.token, rfl, rfl, ?_⟩ (Or.inl ⟨hused, hshows.token⟩)
    exact hshows.elevated.trans (table_elevated hg)
  · -- no place is free
    have hs := h.separates ha (by omega)
    rw [hsession]
    refine h.idle (fate_idle (fun _ => rfl) fun token' => if_neg fun hand => hand.1 hand.2.symm) hdraws.ge ?_
    rw [hentries]
    exact represents_purged h.represents hs
  · -- a token that nothing in the history names
    have hs := h.separates ha (by omega)
    have hpurged := represents_purged h.represents hs
    have hnew (token' : Bytes) (hdrawn : ∃ n < r.manager.draws, token' = randomHex entropy n 32) :
        token' ≠ randomHex entropy r.manager.draws 32 := by
      rintro rfl
      obtain ⟨n, hn, heq⟩ := hdrawn
      have := ha.once _ (by omega) n (by omega) heq
      omega
    have htext := (ha.random r.manager.draws (by omega)).2
    rw [hsession]
    refine h.grant hs (fun _ => rfl) rfl (randomHex_ne_nil _ _ (by decide)) (by omega) ⟨r.manager.draws, by omega, rfl⟩ htext
      ⟨randomHex_ne_nil _ _ (by decide), (ha.random (r.manager.draws + 1) (by omega)).1⟩ ?_ hentries hpurged rfl
      ⟨rfl, rfl, rfl, ?_⟩ (Or.inr ⟨hfree, fun j hj hd => ?_⟩)
    · exact ⟨_, List.mem_cons_self, ⟨token, ttl, rfl⟩, _, if_pos ⟨randomHex_ne_nil _ _ (by decide), rfl⟩, rfl⟩
    · have hnone : r.history.findSome? (elevation (randomHex entropy r.manager.draws 32)) = none := by
        by_contra hsome
        exact hnew _ (h.elevated _ hsome) rfl
      rw [hnone]
      rfl
    · obtain ⟨g, hg, -⟩ := hpurged.shows hs htext hj hd
      exact hnew _ (h.token _ g hg) rfl

/-- **An elevation** continues a session with more rights. -/
theorem Inv.elevate {token : Bytes} (ttl elevationTtl : UInt32) (ht : texts token)
    (hN : (Sessions.elevate c entropy r.manager token now ttl elevationTtl).1.draws ≤ N) :
    Inv c entropy texts (r.next c entropy (now, .elevate token ttl elevationTtl)) now := by
  unfold Run.next answer
  dsimp only [Prod.map, id]
  rcases elevate_cases c entropy r.manager token now ttl elevationTtl with
    ⟨i, hpresent, hentries, hdraws, hsession⟩ | ⟨hentries, hdraws, hsession⟩
  · have hs := h.separates ha (by omega)
    obtain ⟨hne, hused, g, hg, hshows, -⟩ := h.represents.present_some hs ht hpresent
    obtain ⟨n, hn, hdrawn⟩ := h.token token g hg
    rw [hsession]
    refine h.grant hs (fun _ => rfl) rfl hne (by omega) ⟨n, by omega, hdrawn⟩ ht
      ⟨randomHex_ne_nil _ _ (by decide), (ha.random r.manager.draws (by omega)).1⟩ ((h.issued token g hg).cons _) hentries
      h.represents hused ⟨hshows.token, rfl, rfl, ?_⟩ (Or.inl ⟨hused, hshows.token⟩)
    simp [elevation, granted, hne]
  · rw [hsession]
    refine h.idle (fate_idle (fun _ => rfl) fun token' => if_neg fun hand => hand.1 hand.2.symm) hdraws.ge ?_
    rw [hentries]
    exact h.represents

/-- **A check** touches the session, or clears its place if it has expired. -/
theorem Inv.check (csrf : Option Bytes) (token : Bytes) (requireElevated : Bool) (hN : r.manager.draws ≤ N) {call : Call}
    (hcall : ∀ token' b, withdraws token' { nowMs := now, call, answer := .result b } = false) :
    Inv c entropy texts
      { manager := (Sessions.check c csrf r.manager token now requireElevated).1
        history := { nowMs := now, call, answer := .result (Sessions.check c csrf r.manager token now requireElevated).2 } ::
          r.history } now := by
  have hs := h.separates ha hN
  refine h.idle (fate_idle (fun _ => hcall _ _) fun _ => rfl) (check_draws ..).ge (h.represents.cleared hs fun j => ?_)
  rcases check_entries c r.manager token now csrf requireElevated with heq | ⟨i, hexpired, heq⟩ | ⟨i, heq⟩
  · rw [heq]
    exact Or.inl ⟨rfl, rfl, rfl, rfl, rfl⟩
  · rw [heq]
    by_cases hji : j = i
    · subst hji
      rw [Function.update_self]
      exact Or.inr ⟨rfl, fun _ => hexpired⟩
    · rw [Function.update_of_ne hji]
      exact Or.inl ⟨rfl, rfl, rfl, rfl, rfl⟩
  · rw [heq]
    by_cases hji : j = i
    · subst hji
      rw [Function.update_self]
      exact Or.inl ⟨rfl, rfl, rfl, rfl, rfl⟩
    · rw [Function.update_of_ne hji]
      exact Or.inl ⟨rfl, rfl, rfl, rfl, rfl⟩

/-- **A withdrawal** clears the place of its token. -/
theorem Inv.invalidate {token : Bytes} (ht : texts token) (hN : r.manager.draws ≤ N) :
    Inv c entropy texts (r.next c entropy (now, .invalidate token)) now := by
  have hs := h.separates ha hN
  unfold Run.next answer
  dsimp only [Prod.map, id]
  rcases invalidate_cases c r.manager token now with ⟨i, hpresent, hentries, hdraws, hresult⟩ | ⟨hentries, hdraws, hresult⟩
  · obtain ⟨-, hused, g, -, hshows, -⟩ := h.represents.present_some hs ht hpresent
    rw [hresult]
    have hfate (token' : Bytes) : fate token' { nowMs := now, call := .invalidate token, answer := .withdrawn true } =
        if token = token' then some none else none := by
      by_cases htoken : token = token' <;> simp [fate, withdraws, granted, htoken]
    have htable : table ({ nowMs := now, call := .invalidate token, answer := .withdrawn true } :: r.history) =
        Function.update (table r.history) token none := by
      funext token'
      by_cases htoken : token = token'
      · subst htoken
        rw [Function.update_self, table_cons_withdrawn (by rw [hfate, if_pos rfl])]
      · rw [Function.update_of_ne (Ne.symm htoken), table_cons_none (by rw [hfate, if_neg htoken])]
    have hold {token' : Bytes} {g' : Grant} (hg' : Function.update (table r.history) token none token' = some g') :
        table r.history token' = some g' := by
      by_cases htoken : token' = token
      · rw [htoken, Function.update_self] at hg'; cases hg'
      · rwa [Function.update_of_ne htoken] at hg'
    refine ⟨?_, fun token' g' hg' => ?_, fun token' g' hg' => ?_, fun token' g' hg' => ?_, fun token' helevated => ?_⟩
    · rw [hentries, htable]
      exact h.represents.withdraw hs ht hused hshows.token
    · rw [htable] at hg'
      rw [hdraws]
      exact h.token token' g' (hold hg')
    · rw [htable] at hg'
      exact h.csrf token' g' (hold hg')
    · rw [htable] at hg'
      exact (h.issued token' g' (hold hg')).cons _
    · rw [hdraws]
      exact h.elevated token' helevated
  · rw [hresult]
    refine h.idle (fate_idle (fun _ => rfl) fun _ => rfl) hdraws.ge ?_
    rw [hentries]
    exact h.represents

omit ha in
/-- **The withdrawal of all** clears every place. -/
theorem Inv.invalidateAll : Inv c entropy texts (r.next c entropy (now, .invalidateAll)) now := by
  have htable : table (r.next c entropy (now, .invalidateAll)).history = fun _ => none :=
    funext fun token => table_cons_withdrawn rfl
  refine ⟨?_, fun _ _ hg => ?_, fun _ _ hg => ?_, fun _ _ hg => ?_, fun token helevated => h.elevated token helevated⟩
  · rw [htable]
    exact represents_empty c now
  all_goals
    rw [htable] at hg
    cases hg

theorem Inv.metrics (hN : r.manager.draws ≤ N) : Inv c entropy texts (r.next c entropy (now, .metrics)) now :=
  h.idle (fate_idle (fun _ => rfl) fun _ => rfl) le_rfl (represents_purged h.represents (h.separates ha hN))

/-- **One call keeps the invariant.** -/
theorem Inv.next {call : Call} (ht : ∀ t ∈ call.texts, texts t) (hold : r.manager.draws ≤ N)
    (hN : (r.next c entropy (now, call)).manager.draws ≤ N) : Inv c entropy texts (r.next c entropy (now, call)) now := by
  cases call with
  | openSession token ttl => exact h.openSession ha ttl (ht token (by simp [Call.texts])) hN
  | elevate token ttl elevationTtl => exact h.elevate ha ttl elevationTtl (ht token (by simp [Call.texts])) hN
  | validate token requireElevated => exact h.check ha none token requireElevated hold fun _ _ => rfl
  | validateMutation token csrf requireElevated => exact h.check ha (some csrf) token requireElevated hold fun _ _ => rfl
  | invalidate token => exact h.invalidate ha (ht token (by simp [Call.texts])) hold
  | invalidateAll => exact h.invalidateAll
  | metrics => exact h.metrics ha hold

end Invariant

/-! ### Whole runs -/

section Whole
variable {c : Primitives} {entropy : ℕ → (bytes : ℕ) → Vector UInt8 bytes} {calls before after : List (UInt64 × Call)}
  {token csrf : Bytes} {now : UInt64}

theorem runOf_append (t : UInt64 × Call) : runOf c entropy (before ++ [t]) = (runOf c entropy before).next c entropy t := by
  unfold runOf
  rw [List.foldl_append]
  rfl

theorem draws_le_next (r : Run) (t : UInt64 × Call) : r.manager.draws ≤ (r.next c entropy t).manager.draws := by
  obtain ⟨now, call⟩ := t
  cases call with
  | openSession token ttl =>
    change _ ≤ (openSession c entropy r.manager token now ttl).1.draws
    rcases openSession_cases c entropy r.manager token now ttl with
      ⟨-, -, -, hdraws, -⟩ | ⟨-, ⟨-, hdraws, -⟩ | ⟨-, -, -, hdraws, -⟩⟩ <;> omega
  | elevate token ttl elevationTtl =>
    change _ ≤ (elevate c entropy r.manager token now ttl elevationTtl).1.draws
    rcases elevate_cases c entropy r.manager token now ttl elevationTtl with ⟨-, -, -, hdraws, -⟩ | ⟨-, hdraws, -⟩ <;> omega
  | validate token requireElevated => exact (check_draws c r.manager token now none requireElevated).ge
  | validateMutation token csrf requireElevated => exact (check_draws c r.manager token now (some csrf) requireElevated).ge
  | invalidate token =>
    change _ ≤ (invalidate c r.manager token now).1.draws
    rcases invalidate_cases c r.manager token now with ⟨-, -, -, hdraws, -⟩ | ⟨-, hdraws, -⟩ <;> omega
  | invalidateAll => exact le_rfl
  | metrics => exact le_rfl

theorem draws_le_append (before after : List (UInt64 × Call)) :
    (runOf c entropy before).manager.draws ≤ (runOf c entropy (before ++ after)).manager.draws := by
  induction after using List.reverseRecOn with
  | nil => rw [List.append_nil]
  | append_singleton after t ih =>
    rw [← List.append_assoc, runOf_append]
    exact ih.trans (draws_le_next _ t)

/-- The texts of a run. -/
def Occurs (c : Primitives) (entropy : ℕ → (bytes : ℕ) → Vector UInt8 bytes) (calls : List (UInt64 × Call)) (t : Bytes) :
    Prop :=
  t ∈ calls.flatMap (fun t => t.2.texts) ++ drawn entropy (runOf c entropy calls).manager.draws

theorem Ideal.apart (h : Ideal c entropy calls) :
    Apart c entropy (Occurs c entropy calls) (runOf c entropy calls).manager.draws where
  random n hn := by
    have hmem {t : Bytes} (ht : t ∈ [randomHex entropy n 24, randomHex entropy n 32]) : Occurs c entropy calls t :=
      List.mem_append_right _ (List.mem_flatMap.mpr ⟨n, List.mem_range.mpr hn, ht⟩)
    exact ⟨hmem (by simp), hmem (by simp)⟩
  injective s t hs ht := h.collisionFree s hs t ht
  once i hi j hj := h.neverRepeats i hi j hj 32 (by simp) 32 (by simp)

theorem occurs_of_mem {t : UInt64 × Call} (ht : t ∈ calls) {text : Bytes} (htext : text ∈ t.2.texts) :
    Occurs c entropy calls text :=
  List.mem_append_left _ (List.mem_flatMap.mpr ⟨t, ht, htext⟩)

theorem inv_start (texts : Bytes → Prop) (now : UInt64) : Inv c entropy texts {} now where
  represents := represents_empty c now
  token _ _ hg := by cases hg
  csrf _ _ hg := by cases hg
  issued _ _ hg := by cases hg
  elevated _ helevated := absurd rfl helevated

/-- **The invariant holds along a run.** -/
theorem inv_runOf (hideal : Ideal c entropy calls) (hchron : calls.Pairwise (·.1 ≤ ·.1)) (hcalls : calls = before ++ after)
    (hnow : ∀ t ∈ before, t.1 ≤ now) : Inv c entropy (Occurs c entropy calls) (runOf c entropy before) now := by
  induction before using List.reverseRecOn generalizing after now with
  | nil => exact inv_start _ now
  | append_singleton before t ih =>
    rw [List.append_assoc] at hcalls
    have hlast : ∀ t' ∈ before, t'.1 ≤ t.1 := fun t' ht' => by
      rw [hcalls] at hchron
      exact (List.pairwise_append.mp hchron).2.2 t' ht' t (by simp)
    have htexts : ∀ text ∈ t.2.texts, Occurs c entropy calls text :=
      fun text htext => occurs_of_mem (hcalls ▸ by simp) htext
    have hdraws (l l' : List (UInt64 × Call)) (hl : calls = l ++ l') :
        (runOf c entropy l).manager.draws ≤ (runOf c entropy calls).manager.draws := hl ▸ draws_le_append l l'
    have hnext : (runOf c entropy (before ++ [t])).manager.draws ≤ (runOf c entropy calls).manager.draws :=
      hdraws _ after (by rw [hcalls, List.append_assoc])
    rw [runOf_append] at hnext ⊢
    exact ((ih hcalls hlast).next hideal.apart htexts (hdraws before _ hcalls) hnext).later (hnow t (by simp))

/-! ### What the history entitles to -/

/-- A session of the history that has not expired or been withdrawn. -/
def Live (history : List Event) (token : Bytes) (now : UInt64) : Prop :=
  ∃ s, history.findSome? (fate token) = some (some s) ∧ now < s.expiresMs

theorem live_iff {history : List Event} : Live history token now ↔ ∃ g, table history token = some g ∧ now < g.expiresMs := by
  unfold Live table
  cases hfate : history.findSome? (fate token) with
  | none => simp
  | some fate => cases fate <;> simp

/-- **The checks of a changing request are the history's.** -/
theorem Inv.validateMutation_iff {texts : Bytes → Prop} {N : ℕ} {r : Run} (h : Inv c entropy texts r now)
    (ha : Apart c entropy texts N) (hN : r.manager.draws ≤ N) (ht : texts token) (hcsrf : texts csrf) (requireElevated : Bool) :
    (Sessions.validateMutation c r.manager token csrf now requireElevated).2 = .ok ↔
      Entitled r.history token csrf now requireElevated := by
  have hs := h.separates ha hN
  have htable {s : Session} (hfate : r.history.findSome? (fate token) = some (some s)) : table r.history token = some
      { csrf := s.csrf, expiresMs := s.expiresMs,
        elevatedUntilMs := (r.history.findSome? (elevation token)).getD 0 } := by
    unfold table
    rw [hfate]
  rw [validateMutation_ok_iff]
  constructor
  · rintro ⟨-, i, hfind, hlive, hrights, -, hdigest⟩
    obtain ⟨-, g, hg, hshows⟩ := h.represents.find_some hs ht hfind
    obtain ⟨s, hfate, -⟩ := live_iff.mpr ⟨g, hg, hshows.expires ▸ hlive⟩
    obtain rfl := Option.some.inj (hg.symm.trans (htable hfate))
    have hexpires : (r.manager.entries i).expiresMs = s.expiresMs := hshows.expires
    refine ⟨h.issued token _ hg, s, hfate, hexpires ▸ hlive, ?_, fun hrequire => ?_⟩
    · exact ha.injective _ _ hcsrf (h.csrf token _ hg).2 (hdigest.symm.trans hshows.csrf)
    · have hends := hshows.elevated ▸ hrights hrequire
      cases helevation : r.history.findSome? (elevation token) with
      | none =>
        rw [helevation] at hends
        exact absurd hends (UInt64.not_lt.mpr (UInt64.zero_le))
      | some ends =>
        rw [helevation] at hends
        exact ⟨ends, rfl, hends⟩
  · rintro ⟨-, s, hfate, hlive, hcompanion, hrights⟩
    have hg := htable hfate
    have hne : token ≠ [] := by
      obtain ⟨n, -, rfl⟩ := h.token token _ hg
      exact randomHex_ne_nil _ _ (by decide)
    cases hfind : r.manager.find (c.sha256 token) with
    | none => exact absurd hlive (UInt64.not_lt.mpr (h.represents.find_none hfind hg))
    | some i =>
      obtain ⟨-, g, hg', hshows⟩ := h.represents.find_some hs ht hfind
      obtain rfl := Option.some.inj (hg.symm.trans hg')
      refine ⟨hne, i, rfl, hshows.expires ▸ hlive, fun hrequire => ?_, ?_, ?_⟩
      · obtain ⟨ends, helevation, hends⟩ := hrights hrequire
        rw [hshows.elevated, helevation]
        exact hends
      · rw [hcompanion]
        exact (h.csrf token _ hg).1
      · rw [hshows.csrf, hcompanion]

/-- **Over whole runs**: a changing request is let through exactly when the history entitles it, at most six sessions are
live, and an open that is refused for want of a place changes no live session. -/
theorem validateMutation_entitled (hchron : calls.Pairwise (·.1 ≤ ·.1)) (hideal : Ideal c entropy calls) :
    (∀ before now token csrf requireElevated after,
      calls = before ++ (now, .validateMutation token csrf requireElevated) :: after →
        ((Sessions.validateMutation c (runOf c entropy before).manager token csrf now requireElevated).2 = .ok ↔
          Entitled (runOf c entropy before).history token csrf now requireElevated)) ∧
    (∀ before after now (tokens : Finset Bytes), calls = before ++ after → (∀ t ∈ before, t.1 ≤ now) →
      (∀ token ∈ tokens, Live (runOf c entropy before).history token now) → tokens.card ≤ kCapacity) ∧
    ∀ before now token ttl after, calls = before ++ (now, .openSession token ttl) :: after →
      (openSession c entropy (runOf c entropy before).manager token now ttl).2.capacityReached = true →
        (∀ i, ((runOf c entropy before).manager.entries i).used = true →
          now < ((runOf c entropy before).manager.entries i).expiresMs →
          (runOf c entropy (before ++ [(now, .openSession token ttl)])).manager.entries i =
            (runOf c entropy before).manager.entries i) ∧
        table (runOf c entropy (before ++ [(now, .openSession token ttl)])).history =
          table (runOf c entropy before).history := by
  have hearlier {before : List (UInt64 × Call)} {t : UInt64 × Call} {after : List (UInt64 × Call)}
      (hcalls : calls = before ++ t :: after) : ∀ t' ∈ before, t'.1 ≤ t.1 := fun t' ht' => by
    rw [hcalls] at hchron
    exact (List.pairwise_append.mp hchron).2.2 t' ht' t (by simp)
  have hdraws {before after : List (UInt64 × Call)} (hcalls : calls = before ++ after) :
      (runOf c entropy before).manager.draws ≤ (runOf c entropy calls).manager.draws :=
    hcalls ▸ draws_le_append before after
  refine ⟨fun before now token csrf requireElevated after hcalls => ?_, fun before after now tokens hcalls hnow hlive => ?_,
    fun before now token ttl after hcalls hrejected => ?_⟩
  · have hinv := inv_runOf hideal hchron hcalls (hearlier hcalls)
    have htexts : ∀ text ∈ [token, csrf], Occurs c entropy calls text := fun text htext =>
      occurs_of_mem (t := (now, .validateMutation token csrf requireElevated)) (hcalls ▸ by simp) htext
    exact hinv.validateMutation_iff hideal.apart (hdraws hcalls) (htexts token (by simp)) (htexts csrf (by simp)) _
  · have hinv := inv_runOf hideal hchron hcalls hnow
    exact hinv.represents.card_le (hinv.separates hideal.apart (hdraws hcalls)) tokens
      fun token htoken => live_iff.mp (hlive token htoken)
  · rw [runOf_append]
    rcases openSession_cases c entropy (runOf c entropy before).manager token now ttl with
      ⟨i, -, -, -, hsession⟩ | ⟨-, ⟨hentries, -, hsession⟩ | ⟨i, -, -, -, hsession⟩⟩
    · rw [hsession] at hrejected; cases hrejected
    · refine ⟨fun i hused hlive => ?_, table_cons_idle (fate_idle (fun _ => rfl) fun token' => ?_)⟩
      · change (openSession c entropy (runOf c entropy before).manager token now ttl).1.entries i = _
        rw [hentries]
        rcases (runOf c entropy before).manager.purgeExpired_entries now i with heq | ⟨-, -, hexpired⟩
        · exact heq
        · exact absurd hlive (UInt64.not_lt.mpr hexpired)
      · unfold granted answer
        dsimp only [Prod.map]
        rw [hsession]
        exact if_neg fun hand => hand.1 hand.2.symm
    · rw [hsession] at hrejected; cases hrejected

end Whole

/-! ### An elevation that ends with its session -/

/-- SHA-256 at the texts of the run below. -/
def sampleDigests : List (Bytes × Key32) :=
  [([], emptyDigest),
    (hexEncode (List.replicate 24 0),
      #v[0xf9, 0xa2, 0xba, 0x51, 0x19, 0x57, 0x12, 0x2b, 0xfa, 0x67, 0xb0, 0x29, 0x06, 0x1c, 0x67, 0x97,
        0x03, 0x49, 0x45, 0x40, 0xb3, 0x5f, 0x02, 0xe0, 0xe0, 0x49, 0x6a, 0x3b, 0x0c, 0xdc, 0xc4, 0x6a]),
    (hexEncode (List.replicate 32 0),
      #v[0x60, 0xe0, 0x5b, 0xd1, 0xb1, 0x95, 0xaf, 0x2f, 0x94, 0x11, 0x2f, 0xa7, 0x19, 0x7a, 0x5c, 0x88,
        0x28, 0x90, 0x58, 0x84, 0x0c, 0xe7, 0xc6, 0xdf, 0x96, 0x93, 0x75, 0x6b, 0xc6, 0x25, 0x0f, 0x55]),
    (hexEncode (List.replicate 24 1),
      #v[0xf9, 0x5c, 0x16, 0x28, 0xc3, 0xb3, 0x20, 0x7f, 0x8d, 0x9c, 0xc2, 0xa8, 0xb1, 0x1e, 0x6b, 0xe4,
        0x79, 0xd8, 0x21, 0x3e, 0xa5, 0x7d, 0x1e, 0xa2, 0xaa, 0x2a, 0xc8, 0xf9, 0xbd, 0xc6, 0x81, 0xeb]),
    (hexEncode (List.replicate 32 1),
      #v[0x58, 0xba, 0xdd, 0x9b, 0x45, 0x51, 0x45, 0xb4, 0x87, 0xad, 0x24, 0xc7, 0xf2, 0x59, 0xcc, 0x43,
        0x7c, 0xc4, 0xff, 0xd0, 0x78, 0x47, 0x16, 0x84, 0x52, 0x49, 0x32, 0x1f, 0xb5, 0x96, 0x1c, 0xfc]),
    (hexEncode (List.replicate 24 2),
      #v[0x37, 0x93, 0x28, 0x1a, 0x29, 0x75, 0x24, 0x33, 0x1a, 0xcf, 0x19, 0x7c, 0x77, 0xc9, 0x9c, 0xf0,
        0x0a, 0x82, 0x82, 0x83, 0x5c, 0x4a, 0x3e, 0x06, 0x2f, 0x7e, 0x9a, 0xd8, 0x5c, 0x6c, 0xf2, 0x10]),
    (hexEncode (List.replicate 32 2),
      #v[0x74, 0x9f, 0x1a, 0x97, 0xff, 0x6c, 0xd0, 0x0e, 0xa4, 0x6c, 0xcb, 0x3a, 0x47, 0xbb, 0x12, 0x32,
        0x83, 0xfe, 0x56, 0xc8, 0xfa, 0x32, 0x4b, 0xea, 0x29, 0x5d, 0x92, 0x8f, 0x55, 0x81, 0x61, 0xdf]),
    (hexEncode (List.replicate 24 3),
      #v[0x26, 0xb1, 0x6f, 0x7d, 0x4f, 0xa0, 0x78, 0x53, 0xe3, 0x4f, 0x10, 0xd7, 0x8c, 0x3b, 0xdc, 0xf2,
        0x30, 0x4a, 0xc8, 0xbf, 0x3e, 0xd2, 0x8c, 0xa8, 0x77, 0xa8, 0xef, 0x5b, 0x67, 0xe8, 0x55, 0xd0]),
    (hexEncode (List.replicate 32 3),
      #v[0x83, 0xa5, 0x38, 0xdf, 0x07, 0x04, 0x6f, 0x44, 0x30, 0x30, 0x3f, 0xaf, 0x09, 0xe9, 0xc6, 0x93,
        0x33, 0x06, 0xb5, 0xe7, 0xf4, 0x15, 0x7b, 0x5c, 0x0c, 0xdc, 0x35, 0xd1, 0x6f, 0x0f, 0x90, 0x33])]

def samplePrimitives : Primitives where
  sha256 data := (sampleDigests.lookup data).getD default
  hmacSha256 _ _ := default

def sampleEntropy (n bytes : ℕ) : Vector UInt8 bytes := Vector.replicate bytes (UInt8.ofNat n)

def sampleToken : Bytes := hexEncode (List.replicate 32 0)

/-- An elevation for 300 seconds of a session of 60 seconds; the session is continued, and then used twice. -/
def sampleCalls : List (UInt64 × Call) :=
  [(0, .openSession [] 900), (1000, .elevate sampleToken 60 300), (50000, .openSession sampleToken 60),
    (55000, .validateMutation sampleToken (hexEncode (List.replicate 24 3)) true),
    (70000, .validateMutation sampleToken (hexEncode (List.replicate 24 3)) true)]

theorem sampleCalls_ideal : Ideal samplePrimitives sampleEntropy sampleCalls where
  collisionFree := by decide +kernel
  neverRepeats := by decide +kernel

/-- The first use is entitled. -/
theorem validateMutation_entitled_sample :
    Entitled (runOf samplePrimitives sampleEntropy (sampleCalls.take 3)).history sampleToken
      (hexEncode (List.replicate 24 3)) 55000 true := by
  have hok : (Sessions.validateMutation samplePrimitives (runOf samplePrimitives sampleEntropy (sampleCalls.take 3)).manager
      sampleToken (hexEncode (List.replicate 24 3)) 55000 true).2 = .ok := by decide +kernel
  exact ((validateMutation_entitled (by decide) sampleCalls_ideal).1 (sampleCalls.take 3) 55000 sampleToken
    (hexEncode (List.replicate 24 3)) true (sampleCalls.drop 4) rfl).mp hok

/-- An elevation counts for its own time, whatever followed it. -/
def EntitledByAnyElevation (history : List Event) (token csrf : Bytes) (nowMs : UInt64) (requireElevated : Bool) : Prop :=
  Entitled history token csrf nowMs false ∧
    (requireElevated = true → ∃ e ∈ history, ∃ presented ttl elevationTtl, e.call = .elevate presented ttl elevationTtl ∧
      (granted token e).isSome = true ∧ nowMs < deadline e.nowMs elevationTtl)

/-- The second use comes 69 seconds after the elevation, and is refused: the rights ended with the session of then. -/
theorem elevation_ends_early :
    ¬ ∀ (c : Primitives) (entropy : ℕ → (bytes : ℕ) → Vector UInt8 bytes) (calls : List (UInt64 × Call)),
      calls.Pairwise (·.1 ≤ ·.1) → Ideal c entropy calls → ∀ before now token csrf requireElevated after,
        calls = before ++ (now, .validateMutation token csrf requireElevated) :: after →
          ((Sessions.validateMutation c (runOf c entropy before).manager token csrf now requireElevated).2 = .ok ↔
            EntitledByAnyElevation (runOf c entropy before).history token csrf now requireElevated) := fun hclaim => by
  have hiff := hclaim samplePrimitives sampleEntropy sampleCalls (by decide) sampleCalls_ideal (sampleCalls.take 4) 70000
    sampleToken (hexEncode (List.replicate 24 3)) true [] rfl
  have hrefused : (Sessions.validateMutation samplePrimitives (runOf samplePrimitives sampleEntropy (sampleCalls.take 4)).manager
      sampleToken (hexEncode (List.replicate 24 3)) 70000 true).2 = .elevationRequired := by decide +kernel
  have hplain : (Sessions.validateMutation samplePrimitives (runOf samplePrimitives sampleEntropy (sampleCalls.take 4)).manager
      sampleToken (hexEncode (List.replicate 24 3)) 70000 false).2 = .ok := by decide +kernel
  have hinv : Inv samplePrimitives sampleEntropy (Occurs samplePrimitives sampleEntropy sampleCalls)
      (runOf samplePrimitives sampleEntropy (sampleCalls.take 4)) 70000 :=
    inv_runOf sampleCalls_ideal (by decide) (List.take_append_drop 4 sampleCalls).symm (by decide)
  have htexts : ∀ text ∈ [sampleToken, hexEncode (List.replicate 24 3)],
      Occurs samplePrimitives sampleEntropy sampleCalls text := fun text htext =>
    occurs_of_mem (t := (55000, .validateMutation sampleToken (hexEncode (List.replicate 24 3)) true)) (by simp [sampleCalls]) htext
  have hentitled := (hinv.validateMutation_iff sampleCalls_ideal.apart (draws_le_append _ (sampleCalls.drop 4))
    (htexts _ (by simp)) (htexts _ (by simp)) false).mp hplain
  have helevated : ((runOf samplePrimitives sampleEntropy (sampleCalls.take 4)).history.any fun e =>
      match e.call with
      | .elevate _ _ elevationTtl => (granted sampleToken e).isSome && decide (70000 < deadline e.nowMs elevationTtl)
      | _ => false) = true := by decide +kernel
  obtain ⟨e, he, helevates⟩ := List.any_eq_true.mp helevated
  rw [hiff.mpr ⟨hentitled, fun _ => ⟨e, he, ?_⟩⟩] at hrefused
  · cases hrefused
  · split at helevates
    · next presented ttl elevationTtl hcall =>
      rw [Bool.and_eq_true, decide_eq_true_eq] at helevates
      exact ⟨presented, ttl, elevationTtl, hcall, helevates⟩
    · cases helevates

end PowerMonitor.Security.SessionHistory

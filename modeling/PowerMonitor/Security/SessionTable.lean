import Mathlib.Data.Fintype.Card
import PowerMonitor.Security.Sessions

/-! # The table of sessions

The sessions as a client knows them: for each token the companion, the end and the end of the higher rights that were
granted last. Places of the manager *represent* such a table if every used place shows a session of the table, and every
session of the table that has not expired has a place (`Represents`). Expired sessions may be gone or still there.

* `Represents.cleared`, `Represents.grant`, `Represents.withdraw`: what the calls do to the places, and to the table.
* `Represents.find_some`, `Represents.find_none`: what is found for a token, unless two texts share a digest. -/

namespace PowerMonitor.Security.SessionTable

open PowerMonitor.Lib.Binary PowerMonitor.Security.Crypto PowerMonitor.Security.Sessions

/-- What was granted for a token. -/
structure Grant where
  csrf : Bytes
  expiresMs : UInt64
  elevatedUntilMs : UInt64

abbrev Table := Bytes → Option Grant

/-- A place shows the session of a token. -/
structure Shows (c : Primitives) (e : Entry) (token : Bytes) (g : Grant) : Prop where
  token : e.tokenDigest = c.sha256 token
  csrf : e.csrfDigest = c.sha256 g.csrf
  expires : e.expiresMs = g.expiresMs
  elevated : e.elevatedUntilMs = g.elevatedUntilMs

/-- **The places represent the table** at a time. -/
structure Represents (c : Primitives) (entries : Fin kCapacity → Entry) (table : Table) (now : UInt64) : Prop where
  entry : ∀ i, (entries i).used = true → ∃ token g, table token = some g ∧ Shows c (entries i) token g
  kept : ∀ token g, table token = some g → now < g.expiresMs →
    ∃ i, (entries i).used = true ∧ (entries i).tokenDigest = c.sha256 token
  distinct : ∀ i j, (entries i).used = true → (entries j).used = true →
    (entries i).tokenDigest = (entries j).tokenDigest → i = j

/-- Nothing is granted for the empty text, and the tokens of the table have digests of their own among these texts. -/
structure Separates (c : Primitives) (texts : Bytes → Prop) (table : Table) : Prop where
  tokens : ∀ token g, table token = some g → texts token
  injective : ∀ s t, texts s → texts t → c.sha256 s = c.sha256 t → s = t

section
variable {c : Primitives} {texts : Bytes → Prop} {entries entries' : Fin kCapacity → Entry} {table : Table}
  {now now' : UInt64} {token : Bytes} {g : Grant} {i : Fin kCapacity}

theorem Represents.later (h : Represents c entries table now) (hnow : now ≤ now') : Represents c entries table now' where
  entry := h.entry
  kept token g hg hlive := h.kept token g hg (UInt64.lt_of_le_of_lt hnow hlive)
  distinct := h.distinct

/-- The session that a place shows, if its token is known. -/
theorem Represents.shows (h : Represents c entries table now) (hs : Separates c texts table) (ht : texts token)
    (hused : (entries i).used = true) (hd : (entries i).tokenDigest = c.sha256 token) :
    ∃ g, table token = some g ∧ Shows c (entries i) token g := by
  obtain ⟨token', g, hg, hshows⟩ := h.entry i hused
  obtain rfl : token' = token := hs.injective _ _ (hs.tokens token' g hg) ht (hshows.token.symm.trans hd)
  exact ⟨g, hg, hshows⟩

/-- **Places may be cleared that are expired**, and touched where no check looks. -/
theorem Represents.cleared (h : Represents c entries table now) (hs : Separates c texts table)
    (hentries : ∀ i, (entries' i).used = (entries i).used ∧
        (entries' i).tokenDigest = (entries i).tokenDigest ∧ (entries' i).csrfDigest = (entries i).csrfDigest ∧
        (entries' i).expiresMs = (entries i).expiresMs ∧ (entries' i).elevatedUntilMs = (entries i).elevatedUntilMs ∨
      (entries' i).used = false ∧ ((entries i).used = true → (entries i).expiresMs ≤ now)) :
    Represents c entries' table now where
  entry i hused := by
    rcases hentries i with ⟨hsame, htoken, hcsrf, hexpires, helevated⟩ | ⟨hfree, -⟩
    · obtain ⟨token, g, hg, hshows⟩ := h.entry i (hsame ▸ hused)
      exact ⟨token, g, hg, htoken.trans hshows.token, hcsrf.trans hshows.csrf, hexpires.trans hshows.expires,
        helevated.trans hshows.elevated⟩
    · rw [hfree] at hused; cases hused
  kept token g hg hlive := by
    obtain ⟨i, hused, hd⟩ := h.kept token g hg hlive
    rcases hentries i with ⟨hsame, htoken, -⟩ | ⟨-, hexpired⟩
    · exact ⟨i, hsame.trans hused, htoken.trans hd⟩
    · obtain ⟨g', hg', hshows⟩ := h.shows hs (hs.tokens token g hg) hused hd
      obtain rfl : g = g' := Option.some.inj (hg.symm.trans hg')
      exact absurd hlive (UInt64.not_lt.mpr (hshows.expires ▸ hexpired hused))
  distinct i j hi hj hij := by
    rcases hentries i with ⟨hsamei, htokeni, -⟩ | ⟨hfree, -⟩
    · rcases hentries j with ⟨hsamej, htokenj, -⟩ | ⟨hfree, -⟩
      · exact h.distinct i j (hsamei ▸ hi) (hsamej ▸ hj) (htokeni.symm.trans (hij.trans htokenj))
      · rw [hfree] at hj; cases hj
    · rw [hfree] at hi; cases hi

/-- **A grant for a token** goes to the token's place, or to a free one if the token has none. -/
theorem Represents.grant (h : Represents c entries table now) (hs : Separates c texts table) (ht : texts token) {e : Entry}
    (hused : e.used = true) (hshows : Shows c e token g)
    (hplace : (entries i).used = true ∧ (entries i).tokenDigest = c.sha256 token ∨
      (entries i).used = false ∧ ∀ j, (entries j).used = true → (entries j).tokenDigest ≠ c.sha256 token) :
    Represents c (Function.update entries i e) (Function.update table token (some g)) now := by
  -- the other places do not have the token
  have hother (j : Fin kCapacity) (hji : j ≠ i) (hj : (entries j).used = true) : (entries j).tokenDigest ≠ c.sha256 token := by
    rcases hplace with ⟨hi, hd⟩ | ⟨-, hnone⟩
    · exact fun hdj => hji (h.distinct j i hj hi (hdj.trans hd.symm))
    · exact hnone j hj
  refine ⟨fun j hj => ?_, fun token' g' hg' hlive => ?_, fun j k hj hk hjk => ?_⟩
  · by_cases hji : j = i
    · subst hji
      rw [Function.update_self] at hj ⊢
      exact ⟨token, g, Function.update_self .., hshows⟩
    · rw [Function.update_of_ne hji] at hj ⊢
      obtain ⟨token', g', hg', hshows'⟩ := h.entry j hj
      have hne : token' ≠ token := fun heq => hother j hji hj (heq ▸ hshows'.token)
      exact ⟨token', g', by rwa [Function.update_of_ne hne], hshows'⟩
  · by_cases hne : token' = token
    · subst hne
      exact ⟨i, by rwa [Function.update_self], by rw [Function.update_self]; exact hshows.token⟩
    · rw [Function.update_of_ne hne] at hg'
      obtain ⟨j, hj, hd⟩ := h.kept token' g' hg' hlive
      have hji : j ≠ i := by
        rintro rfl
        rcases hplace with ⟨-, hdi⟩ | ⟨hfree, -⟩
        · exact hne (hs.injective _ _ (hs.tokens _ _ hg') ht (hd.symm.trans hdi))
        · rw [hfree] at hj; cases hj
      exact ⟨j, by rwa [Function.update_of_ne hji], by rwa [Function.update_of_ne hji]⟩
  · by_cases hji : j = i <;> by_cases hki : k = i
    · exact hji.trans hki.symm
    · subst hji
      rw [Function.update_of_ne hki] at hk hjk
      rw [Function.update_self, hshows.token] at hjk
      exact absurd hjk.symm (hother k hki hk)
    · subst hki
      rw [Function.update_of_ne hji] at hj hjk
      rw [Function.update_self, hshows.token] at hjk
      exact absurd hjk (hother j hji hj)
    · rw [Function.update_of_ne hji] at hj hjk
      rw [Function.update_of_ne hki] at hk hjk
      exact h.distinct j k hj hk hjk

/-- **A token that is withdrawn** leaves its place. -/
theorem Represents.withdraw (h : Represents c entries table now) (hs : Separates c texts table) (ht : texts token)
    (hi : (entries i).used = true) (hd : (entries i).tokenDigest = c.sha256 token) :
    Represents c (Function.update entries i {}) (Function.update table token none) now := by
  refine ⟨fun j hj => ?_, fun token' g' hg' hlive => ?_, fun j k hj hk hjk => ?_⟩
  · by_cases hji : j = i
    · subst hji
      rw [Function.update_self] at hj; cases hj
    · rw [Function.update_of_ne hji] at hj ⊢
      obtain ⟨token', g', hg', hshows'⟩ := h.entry j hj
      have hne : token' ≠ token := fun heq => hji (h.distinct j i hj hi ((heq ▸ hshows'.token).trans hd.symm))
      exact ⟨token', g', by rwa [Function.update_of_ne hne], hshows'⟩
  · by_cases hne : token' = token
    · subst hne
      rw [Function.update_self] at hg'; cases hg'
    · rw [Function.update_of_ne hne] at hg'
      obtain ⟨j, hj, hdj⟩ := h.kept token' g' hg' hlive
      have hji : j ≠ i := by
        rintro rfl
        exact hne (hs.injective _ _ (hs.tokens _ _ hg') ht (hdj.symm.trans hd))
      exact ⟨j, by rwa [Function.update_of_ne hji], by rwa [Function.update_of_ne hji]⟩
  · have hji : j ≠ i := by rintro rfl; rw [Function.update_self] at hj; cases hj
    have hki : k ≠ i := by rintro rfl; rw [Function.update_self] at hk; cases hk
    rw [Function.update_of_ne hji] at hj hjk
    rw [Function.update_of_ne hki] at hk hjk
    exact h.distinct j k hj hk hjk

/-- No place is used and nothing is granted. -/
theorem represents_empty (c : Primitives) (now : UInt64) : Represents c (fun _ => {}) (fun _ => none) now where
  entry _ hused := by cases hused
  kept _ _ hg := by cases hg
  distinct _ _ hused := by cases hused

/-- What is found for a token is its session, -/
theorem Represents.find_some {m : Manager} (h : Represents c m.entries table now) (hs : Separates c texts table)
    (ht : texts token) (hfind : m.find (c.sha256 token) = some i) :
    (m.entries i).used = true ∧ ∃ g, table token = some g ∧ Shows c (m.entries i) token g := by
  obtain ⟨hused, hd⟩ := Manager.find_eq_some hfind
  exact ⟨hused, h.shows hs ht hused hd⟩

/-- and if nothing is found, it has none, or one that has expired. -/
theorem Represents.find_none {m : Manager} (h : Represents c m.entries table now)
    (hfind : m.find (c.sha256 token) = none) (hg : table token = some g) : g.expiresMs ≤ now := by
  by_contra hlive
  obtain ⟨i, hused, hd⟩ := h.kept token g hg (UInt64.not_le.mp hlive)
  exact Manager.find_eq_none hfind i hused hd

theorem Represents.present_some {m : Manager} (h : Represents c m.entries table now) (hs : Separates c texts table)
    (ht : texts token) (hpresent : present c m token now = some i) :
    token ≠ [] ∧ (m.entries i).used = true ∧ ∃ g, table token = some g ∧ Shows c (m.entries i) token g ∧ now < g.expiresMs := by
  unfold present at hpresent
  split at hpresent
  · cases hpresent
  · next hne =>
    obtain ⟨hfind, hlive⟩ := Option.filter_eq_some_iff.mp hpresent
    obtain ⟨hused, g, hg, hshows⟩ := h.find_some hs ht hfind
    exact ⟨hne, hused, g, hg, hshows, hshows.expires ▸ of_decide_eq_true hlive⟩

/-- **At most as many sessions are live as there are places.** -/
theorem Represents.card_le (h : Represents c entries table now) (hs : Separates c texts table) (tokens : Finset Bytes)
    (hlive : ∀ token ∈ tokens, ∃ g, table token = some g ∧ now < g.expiresMs) : tokens.card ≤ kCapacity := by
  have hplace : ∀ token ∈ tokens, ∃ i, (entries i).tokenDigest = c.sha256 token := fun token htoken => by
    obtain ⟨g, hg, hnow⟩ := hlive token htoken
    obtain ⟨i, -, hd⟩ := h.kept token g hg hnow
    exact ⟨i, hd⟩
  have : Nonempty (Fin kCapacity) := ⟨⟨0, by decide⟩⟩
  choose! place hd using hplace
  have hinj : Set.InjOn place tokens := fun s hs' t ht heq => by
    obtain ⟨gs, hgs, -⟩ := hlive s hs'
    obtain ⟨gt, hgt, -⟩ := hlive t ht
    exact hs.injective s t (hs.tokens s gs hgs) (hs.tokens t gt hgt) ((hd s hs').symm.trans (heq ▸ hd t ht))
  have hcard := Finset.card_le_card_of_injOn (t := Finset.univ) place (fun _ _ => Finset.mem_univ _) hinj
  rwa [Finset.card_univ, Fintype.card_fin] at hcard

end

end PowerMonitor.Security.SessionTable

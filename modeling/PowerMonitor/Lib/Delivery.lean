import Mathlib.Data.List.Basic
import Mathlib.Order.Nat
import Mathlib.Tactic.Common

/-! # Delivery with a cumulative acknowledgement

A sender numbers its entries from one on and sends them in batches; a receiver keeps what it gets and confirms how far
it has everything; the sender moves its cursor to what was confirmed. Batches and answers may be lost, kept back,
repeated and overtaken.

* `Step.inv`: what one step keeps.
* `Inv.delivered`: up to the cursor the receiver has every entry as the sender numbered it.
* `Inv.held_up`: a number that the sender does not use holds the receiver up. -/

namespace PowerMonitor.Lib.Delivery

variable {V : Type*}

/-- What the sender has numbered, what is on its way, what the receiver has and has confirmed, and the sender's
cursor. -/
structure State (V : Type*) where
  log : ℕ → Option V
  batches : List (List (ℕ × V))
  kept : ℕ → Option V
  confirmed : ℕ
  answers : List ℕ
  cursor : ℕ

/-- What every run keeps. -/
structure Inv (s : State V) : Prop where
  batches : ∀ batch ∈ s.batches, ∀ e ∈ batch, s.log e.1 = some e.2
  kept : ∀ n v, s.kept n = some v → s.log n = some v
  full : ∀ n, 0 < n → n ≤ s.confirmed → ∃ v, s.kept n = some v
  answers : ∀ a ∈ s.answers, a ≤ s.confirmed
  cursor : s.cursor ≤ s.confirmed

/-- One step of the sender, the receiver or what is between them. -/
structure Step (s s' : State V) : Prop where
  log : ∀ n v, s.log n = some v → s'.log n = some v
  batches : ∀ batch ∈ s'.batches, batch ∈ s.batches ∨ ∀ e ∈ batch, s'.log e.1 = some e.2
  keep : ∀ n v, s.kept n = some v → s'.kept n = some v
  kept : ∀ n v, s'.kept n = some v → s.kept n = some v ∨ ∃ batch ∈ s.batches, (n, v) ∈ batch
  confirmed : s.confirmed ≤ s'.confirmed
  full : ∀ n, s.confirmed < n → n ≤ s'.confirmed → ∃ v, s'.kept n = some v
  answers : ∀ a ∈ s'.answers, a ∈ s.answers ∨ a ≤ s'.confirmed
  cursor : s'.cursor = s.cursor ∨ s'.cursor ∈ s.answers

variable {s s' : State V}

/-- **What one step keeps.** -/
theorem Step.inv (hstep : Step s s') (h : Inv s) : Inv s' := by
  refine ⟨fun batch hb e he => ?_, fun n v hv => ?_, fun n hpos hn => ?_, fun a ha => ?_, ?_⟩
  · rcases hstep.batches batch hb with hold | hnew
    · exact hstep.log _ _ (h.batches batch hold e he)
    · exact hnew e he
  · rcases hstep.kept n v hv with hold | ⟨batch, hb, he⟩
    · exact hstep.log n v (h.kept n v hold)
    · exact hstep.log n v (h.batches batch hb (n, v) he)
  · by_cases hold : n ≤ s.confirmed
    · obtain ⟨v, hv⟩ := h.full n hpos hold
      exact ⟨v, hstep.keep n v hv⟩
    · exact hstep.full n (not_le.mp hold) hn
  · rcases hstep.answers a ha with hold | hnew
    · exact (h.answers a hold).trans hstep.confirmed
    · exact hnew
  · rcases hstep.cursor with hsame | hanswer
    · rw [hsame]
      exact h.cursor.trans hstep.confirmed
    · exact (h.answers _ hanswer).trans hstep.confirmed

/-- **Up to the cursor everything is delivered**, as it was numbered. -/
theorem Inv.delivered (h : Inv s) {n : ℕ} (hpos : 0 < n) (hn : n ≤ s.cursor) :
    ∃ v, s.kept n = some v ∧ s.log n = some v := by
  obtain ⟨v, hv⟩ := h.full n hpos (hn.trans h.cursor)
  exact ⟨v, hv, h.kept n v hv⟩

/-- A number that is not in use holds the receiver up. -/
theorem Inv.held_up (h : Inv s) {n : ℕ} (hpos : 0 < n) (hn : s.log n = none) : s.confirmed < n := by
  by_contra hle
  obtain ⟨v, hv⟩ := h.full n hpos (not_lt.mp hle)
  rw [h.kept n v hv] at hn
  cases hn

end PowerMonitor.Lib.Delivery

import Mathlib.Data.List.OfFn
import PowerMonitor.Lib.Canonical

/-! # Repeated values

So many values read one after another (`undoes_readMany`), and the array of a fixed size whose first places they fill
(`slots`). -/

namespace PowerMonitor.Lib.Repeated

open PowerMonitor.Lib.Binary PowerMonitor.Lib.Reader PowerMonitor.Lib.Canonical

variable {α : Type} {p : ByteReader α} {put : α → Bytes} {fits : α → Prop}

/-! ### Readers -/

/-- So many values, one after another. -/
def readMany (p : ByteReader α) : ℕ → ByteReader (List α)
  | 0 => pure []
  | k + 1 => do
    let value ← p
    let values ← readMany p k
    return value :: values

/-- A reader that reads back what is written, and accepts only that. -/
theorem undoes_of_reads (hreads : ∀ a, fits a → Reads p (put a) a)
    (hconsumes : Consumes p fun a bytes => fits a ∧ put a = bytes) : Undoes p put fits where
  reads a rest ha := hreads a ha rest
  written {input a rest} h := by
    obtain ⟨bytes, rfl, ha, rfl⟩ := hconsumes input a rest h
    exact ⟨ha, rfl⟩

/-- **Repeated values** are read back, and nothing but so many is accepted. -/
theorem undoes_readMany (hp : Undoes p put fits) (k : ℕ) :
    Undoes (readMany p k) (fun values => values.flatMap put) fun values =>
      values.length = k ∧ ∀ value ∈ values, fits value := by
  induction k with
  | zero =>
    refine undoes_of_reads (fun values h => ?_) (Consumes.pure ⟨⟨rfl, by simp⟩, rfl⟩)
    rw [List.length_eq_zero_iff.mp h.1]
    exact Reads.pure []
  | succ k ih =>
    refine undoes_of_reads (fun values h => ?_) (Consumes.bind hp fun value hvalue => Consumes.bind ih fun values hvalues =>
      Consumes.pure ⟨⟨by simp [hvalues.1], fun a ha => ?_⟩, by simp⟩)
    · cases values with
      | nil => simp at h
      | cons value values =>
        have hvalue : fits value := h.2 value (by simp)
        have hvalues : values.length = k ∧ ∀ value ∈ values, fits value :=
          ⟨by simpa using h.1, fun a ha => h.2 a (by simp [ha])⟩
        rw [List.flatMap_cons]
        refine Reads.bind hp hvalue ?_
        have hread : Reads (readMany p k >>= fun values => pure (value :: values)) (values.flatMap put ++ []) (value :: values) :=
          Reads.bind ih hvalues (Reads.pure _)
        rwa [List.append_nil] at hread
    · rcases List.mem_cons.mp ha with rfl | ha
      · exact hvalue
      · exact hvalues.2 a ha

theorem length_flatMap_le {limit : ℕ} {values : List α} (h : ∀ value ∈ values, (put value).length ≤ limit) :
    (values.flatMap put).length ≤ limit * values.length := by
  induction values with
  | nil => simp
  | cons value values ih =>
    have hhead := h value (by simp)
    have htail := ih fun a ha => h a (by simp [ha])
    rw [List.flatMap_cons, List.length_append, List.length_cons, Nat.mul_succ]
    omega

/-! ### Arrays -/

variable {k : ℕ}

/-- The array whose first places hold the values. -/
def slots (k : ℕ) (empty : α) (values : List α) : Vector α k := Vector.ofFn fun i => (values[i.val]?).getD empty

theorem toList_slots_take {empty : α} {values : List α} (h : values.length ≤ k) :
    (slots k empty values).toList.take values.length = values := by
  refine List.ext_getElem (by simp [h]) fun i hi hi' => ?_
  simp [slots, List.getElem_take, hi']

/-- An array that is empty from some place on is given by its first values. -/
theorem slots_take {empty : α} {n : ℕ} (v : Vector α k) (h : ∀ i : Fin k, n ≤ i.val → v.get i = empty) :
    slots k empty (v.toList.take n) = v := by
  refine Vector.ext fun i hi => ?_
  rw [slots, Vector.getElem_ofFn, List.getElem?_take]
  split
  · simp [hi]
  · next hlt =>
    have hempty : v[i] = empty := h ⟨i, hi⟩ (Nat.not_lt.mp hlt)
    exact hempty.symm

end PowerMonitor.Lib.Repeated

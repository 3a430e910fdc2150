import PowerMonitor.Lib.Json

/-! # How long a JSON text is

A library writes the compact form, without white space: an integer has at most 20 digits, and an escape at
most six characters (`JsonLibrary.Compact`). So a document of known fields fits a buffer of known size. -/

namespace PowerMonitor.Lib.Json

open PowerMonitor.Lib.Binary PowerMonitor.Lib.Scan

def Scalar.size : Scalar → ℕ
  | .boolean _ => 5
  | .unsigned _ => 20
  | .text s => 6 * s.length + 2
  | .real _ => 32

/-- The size of some fields: their names, their values and what separates them. -/
def fieldsSize {α : Type} (size : α → ℕ) (fields : List (Bytes × α)) : ℕ :=
  (fields.map fun field => 6 * field.1.length + 4 + size field.2).sum

def Value.size : Value → ℕ
  | .scalar s => s.size
  | .object fields => 2 + fieldsSize Scalar.size fields

/-- **The text of a document is compact.** -/
def JsonLibrary.Compact (j : JsonLibrary) : Prop := ∀ d : Document, (j.serialize d).length ≤ 2 + fieldsSize Value.size d

/-! ### The text form is compact -/

theorem length_escapeByte (b : UInt8) : (escapeByte b).length ≤ 6 := by
  unfold escapeByte
  split_ifs <;> simp

theorem length_putString (s : Bytes) : (putString s).length ≤ 6 * s.length + 2 := by
  have hescaped : (s.flatMap escapeByte).length ≤ 6 * s.length := by
    induction s with
    | nil => simp
    | cons b s ih =>
      have hb := length_escapeByte b
      simp only [List.flatMap_cons, List.length_append, List.length_cons]
      omega
  simp only [putString, List.length_cons, List.length_append, List.length_nil]
  omega

theorem length_putScalar (s : Scalar) : (putScalar s).length ≤ s.size := by
  cases s with
  | boolean b => cases b <;> decide
  | unsigned n => exact length_decimal n.toNat_lt
  | text s => exact length_putString s
  | real bits =>
    have hdigits := length_decimal bits.toNat_lt
    simp only [putScalar, Scalar.size]
    omega

theorem putFields_length_le {α : Type} {put : α → Bytes} {size : α → ℕ} (h : ∀ a, (put a).length ≤ size a) :
    ∀ fields : List (Bytes × α), (putFields put fields).length ≤ 1 + fieldsSize size fields
  | [] => by simp [putFields]
  | [(name, value)] => by
    have hname := length_putString name
    have hvalue := h value
    simp only [putFields, fieldsSize, List.map_cons, List.map_nil, List.sum_cons, List.sum_nil, List.length_append,
      List.length_cons, List.length_nil]
    omega
  | (name, value) :: field :: fields => by
    have hname := length_putString name
    have hvalue := h value
    have hrest := putFields_length_le h (field :: fields)
    rw [fieldsSize, List.map_cons, List.sum_cons, ← fieldsSize]
    simp only [putFields, List.length_append, List.length_cons] at hrest ⊢
    omega

theorem length_putValue (v : Value) : (putValue v).length ≤ v.size := by
  cases v with
  | scalar s => exact length_putScalar s
  | object fields =>
    have hfields := putFields_length_le length_putScalar fields
    simp only [putValue, Value.size, List.length_cons]
    omega

theorem textJson_compact : textJson.Compact := by
  intro d
  have hfields := putFields_length_le length_putValue d
  simp only [textJson, List.length_cons]
  omega

/-! ### A text is at least as long as its strings -/

theorem le_length_putFields {α : Type} {put : α → Bytes} {name : Bytes} {value : α} (fields : List (Bytes × α))
    (h : (name, value) ∈ fields) : (put value).length ≤ (putFields put fields).length := by
  induction fields using putFields.induct with
  | case1 => cases h
  | case2 name' value' =>
    obtain ⟨rfl, rfl⟩ := Prod.mk.inj (List.mem_singleton.mp h)
    simp only [putFields, List.length_append, List.length_cons]
    omega
  | case3 name' value' fields hne ih =>
    rw [putFields]
    · simp only [List.length_append, List.length_cons]
      rcases List.mem_cons.mp h with heq | h
      · obtain ⟨rfl, rfl⟩ := Prod.mk.inj heq
        omega
      · have := ih h
        omega
    · exact hne

theorem le_length_putString (s : Bytes) : s.length ≤ (putString s).length := by
  have hescaped : s.length ≤ (s.flatMap escapeByte).length := by
    induction s with
    | nil => exact le_rfl
    | cons b s ih =>
      have hb : 1 ≤ (escapeByte b).length := by
        unfold escapeByte
        split_ifs <;> simp
      simp only [List.flatMap_cons, List.length_append, List.length_cons]
      omega
  simp only [putString, List.length_cons, List.length_append]
  omega

end PowerMonitor.Lib.Json

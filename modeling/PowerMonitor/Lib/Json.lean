import PowerMonitor.Lib.Scan

/-! # JSON documents

A document is a list of named values, some of them objects of named scalars. A JSON library writes it
as text and reads text back as what a program sees under each name (`View`). What a program relies on
is `JsonLibrary.Lawful`: a written document has no newline, and reads back with its integers, truth values
and texts. `textJson` is a library that writes the usual compact form, and it is lawful
(`textJson_lawful`). -/

namespace PowerMonitor.Lib.Json

open PowerMonitor.Lib.Binary PowerMonitor.Lib.Scan

/-! ### Documents and libraries -/

/-- A value that is not an object; a real number is given by its bits. -/
inductive Scalar
  | boolean (b : Bool)
  | unsigned (n : UInt64)
  | text (s : Bytes)
  | real (bits : UInt64)
  deriving DecidableEq

inductive Value
  | scalar (s : Scalar)
  | object (fields : List (Bytes × Scalar))
  deriving DecidableEq

abbrev Document := List (Bytes × Value)

/-- What a program sees under a name: the value converted to an unsigned integer, whether it is one,
and the truth value or the text it is. -/
structure View where
  asUnsigned : UInt64 := 0
  isUnsigned : Bool := false
  boolean : Option Bool := none
  text : Option Bytes := none

/-- The unsigned integer, if it is one. -/
def View.unsignedOr (v : View) (otherwise : UInt64) : UInt64 :=
  if v.isUnsigned then v.asUnsigned else otherwise

def View.booleanOr (v : View) (otherwise : Bool) : Bool := v.boolean.getD otherwise

/-- A JSON library. -/
structure JsonLibrary where
  serialize : Document → Bytes
  deserialize : Bytes → Option (Bytes → View)

/-- A view shows a value that is not a real number or an object as it is. -/
def Shows (v : View) : Value → Prop
  | .scalar (.boolean b) => v.boolean = some b
  | .scalar (.unsigned n) => v.asUnsigned = n ∧ v.isUnsigned = true
  | .scalar (.text s) => v.text = some s
  | _ => True

/-- **What a program relies on.** -/
structure JsonLibrary.Lawful (j : JsonLibrary) : Prop where
  newline : ∀ d, (10 : UInt8) ∉ j.serialize d
  readsBack : ∀ d, (d.map Prod.fst).Nodup → ∃ view, j.deserialize (j.serialize d) = some view ∧
    ∀ name value, (name, value) ∈ d → Shows (view name) value

/-- A written document has no tab, and ends with a brace. -/
structure JsonLibrary.Plain (j : JsonLibrary) : Prop where
  tab : ∀ d, (9 : UInt8) ∉ j.serialize d
  ends : ∀ d, ∃ init, j.serialize d = init ++ [125]

/-- A library that also tells whether a text has nothing, or null, under a name. -/
structure NullableLibrary extends JsonLibrary where
  isNull : Bytes → Bytes → Bool

structure NullableLibrary.Lawful (j : NullableLibrary) : Prop where
  toLawful : j.toJsonLibrary.Lawful
  present : ∀ d, (d.map Prod.fst).Nodup → ∀ name s, (name, .scalar s) ∈ d → j.isNull (j.serialize d) name = false

/-! ### Writing -/

def escapeByte (b : UInt8) : Bytes :=
  if b = 34 then [92, 34]
  else if b = 92 then [92, 92]
  else if b = 8 then [92, 98]
  else if b = 12 then [92, 102]
  else if b = 10 then [92, 110]
  else if b = 13 then [92, 114]
  else if b = 9 then [92, 116]
  else if b = 0 then [92, 117, 48, 48, 48, 48]
  else [b]

def putString (s : Bytes) : Bytes := 34 :: (s.flatMap escapeByte ++ [34])

def putScalar : Scalar → Bytes
  | .boolean true => ascii "true"
  | .boolean false => ascii "false"
  | .unsigned n => decimal n.toNat
  | .text s => putString s
  | .real bits => decimal bits.toNat

/-- The fields after the opening brace, and the closing one. -/
def putFields {α : Type} (put : α → Bytes) : List (Bytes × α) → Bytes
  | [] => [125]
  | [(name, value)] => putString name ++ (58 :: (put value ++ [125]))
  | (name, value) :: fields => putString name ++ (58 :: (put value ++ 44 :: putFields put fields))

def putValue : Value → Bytes
  | .scalar s => putScalar s
  | .object fields => 123 :: putFields putScalar fields

/-! ### Reading -/

def unescape (c : UInt8) : Option UInt8 :=
  if c = 34 then some 34
  else if c = 92 then some 92
  else if c = 47 then some 47
  else if c = 98 then some 8
  else if c = 102 then some 12
  else if c = 110 then some 10
  else if c = 114 then some 13
  else if c = 116 then some 9
  else none

/-- The rest of a string after its opening quote. -/
def readString : Bytes → Option (Bytes × Bytes)
  | [] => none
  | 34 :: rest => some ([], rest)
  | 92 :: 117 :: 48 :: 48 :: 48 :: 48 :: rest => (readString rest).map fun (s, r) => (0 :: s, r)
  | 92 :: c :: rest => do
    let b ← unescape c
    let (s, r) ← readString rest
    return (b :: s, r)
  | b :: rest => (readString rest).map fun (s, r) => (b :: s, r)

def readScalar : Bytes → Option (Scalar × Bytes)
  | 34 :: rest => (readString rest).map fun (s, r) => (.text s, r)
  | 116 :: 114 :: 117 :: 101 :: rest => some (.boolean true, rest)
  | 102 :: 97 :: 108 :: 115 :: 101 :: rest => some (.boolean false, rest)
  | input =>
    let digits := input.takeWhile isDigit
    if digits = [] then none
    else some (.unsigned (UInt64.ofNat (decimalValue digits)), input.dropWhile isDigit)

/-- The fields after the opening brace. -/
def readFields {α : Type} (read : Bytes → Option (α × Bytes)) :
    ℕ → Bytes → Option (List (Bytes × α) × Bytes)
  | 0, _ => none
  | _ + 1, 125 :: rest => some ([], rest)
  | fuel + 1, 34 :: rest =>
    match readString rest with
    | some (name, 58 :: rest) =>
      match read rest with
      | some (value, 125 :: rest) => some ([(name, value)], rest)
      | some (value, 44 :: rest) =>
        (readFields read fuel rest).map fun (fields, r) => ((name, value) :: fields, r)
      | _ => none
    | _ => none
  | _ + 1, _ => none

def readValue : Bytes → Option (Value × Bytes)
  | 123 :: rest =>
    (readFields readScalar rest.length rest).map fun (fields, r) => (.object fields, r)
  | input => (readScalar input).map fun (s, r) => (.scalar s, r)

def viewOf : Value → View
  | .scalar (.boolean b) => { asUnsigned := if b then 1 else 0, boolean := some b }
  | .scalar (.unsigned n) => { asUnsigned := n, isUnsigned := true }
  | .scalar (.text s) => { text := some s }
  | _ => {}

/-- The compact text form. -/
def textJson : JsonLibrary where
  serialize d := 123 :: putFields putValue d
  deserialize
    | 123 :: rest => (readFields readValue rest.length rest).map fun (fields, _) name =>
        ((fields.lookup name).map viewOf).getD {}
    | _ => none

/-! ### The text form is lawful -/

theorem readString_escapeByte (b : UInt8) (rest : Bytes) :
    readString (escapeByte b ++ rest) = (readString rest).map fun (s, r) => (b :: s, r) := by
  unfold escapeByte
  split_ifs with h1 h2 h3 h4 h5 h6 h7 h8
  · subst h1; cases h : readString rest <;> simp [readString, unescape, h]
  · subst h2; cases h : readString rest <;> simp [readString, unescape, h]
  · subst h3; cases h : readString rest <;> simp [readString, unescape, h]
  · subst h4; cases h : readString rest <;> simp [readString, unescape, h]
  · subst h5; cases h : readString rest <;> simp [readString, unescape, h]
  · subst h6; cases h : readString rest <;> simp [readString, unescape, h]
  · subst h7; cases h : readString rest <;> simp [readString, unescape, h]
  · subst h8; simp [readString]
  · simp [readString, h2]

theorem readString_escape (s rest : Bytes) :
    readString (s.flatMap escapeByte ++ 34 :: rest) = some (s, rest) := by
  induction s with
  | nil => simp [readString]
  | cons b s ih =>
    rw [List.flatMap_cons, List.append_assoc, readString_escapeByte, ih]
    rfl

theorem readString_putString (s rest : Bytes) : ∃ body, putString s ++ rest = 34 :: body ∧
    readString body = some (s, rest) :=
  ⟨s.flatMap escapeByte ++ 34 :: rest, by simp [putString], readString_escape s rest⟩

/-- What a scalar reads back as. -/
def readBack : Scalar → Scalar
  | .real bits => .unsigned bits
  | s => s

/-- What a value reads back as. -/
def readBackValue : Value → Value
  | .scalar s => .scalar (readBack s)
  | .object fields => .object (fields.map fun f => (f.1, readBack f.2))

/-- A value ends before a comma or a brace. -/
def Delimited (rest : Bytes) : Prop := ∃ tail, rest = 44 :: tail ∨ rest = 125 :: tail

theorem Delimited.not_digit {rest : Bytes} (h : Delimited rest) : ∀ b ∈ rest.head?, isDigit b = false := by
  obtain ⟨tail, rfl | rfl⟩ := h
  · intro b hb; cases hb; decide
  · intro b hb; cases hb; decide

theorem readScalar_decimal (n : UInt64) {rest : Bytes} (h : Delimited rest) :
    readScalar (decimal n.toNat ++ rest) = some (.unsigned n, rest) := by
  obtain ⟨htake, hdrop⟩ := span_decimal (n := n.toNat) h.not_digit
  obtain ⟨d, ds, hds⟩ := List.exists_cons_of_ne_nil (decimal_ne_nil n.toNat)
  have hd : isDigit d = true := isDigit_of_mem_decimal (n := n.toNat) (by rw [hds]; simp)
  -- a digit starts no other scalar
  have hne : ∀ b, isDigit b = false → ∀ l, decimal n.toNat ++ rest ≠ b :: l := by
    intro b hb l he
    rw [hds, List.cons_append] at he
    rw [(List.cons.inj he).1, hb] at hd
    cases hd
  unfold readScalar
  split
  · next he => exact absurd he (hne _ (by decide) _)
  · next he => exact absurd he (hne _ (by decide) _)
  · next he => exact absurd he (hne _ (by decide) _)
  · rw [htake, hdrop, if_neg (decimal_ne_nil _), decimalValue_decimal]
    simp

theorem readScalar_putScalar (s : Scalar) {rest : Bytes} (h : Delimited rest) :
    readScalar (putScalar s ++ rest) = some (readBack s, rest) := by
  cases s with
  | boolean b => cases b <;> rfl
  | unsigned n => exact readScalar_decimal n h
  | text t =>
    obtain ⟨body, hbody, hread⟩ := readString_putString t rest
    simp only [putScalar, hbody, readScalar, hread, Option.map_some]
    rfl
  | real bits => exact readScalar_decimal bits h

section Fields
variable {α : Type} {put : α → Bytes} {read : Bytes → Option (α × Bytes)} {back : α → α}

theorem length_putFields (put : α → Bytes) (fields : List (Bytes × α)) :
    max 1 fields.length ≤ (putFields put fields).length := by
  induction fields with
  | nil => simp [putFields]
  | cons f fields ih =>
    cases fields with
    | nil => simp [putFields, putString]
    | cons g fields =>
      simp only [putFields, List.length_append, List.length_cons, putString] at ih ⊢
      omega

/-- Fields read back, if their values do. -/
theorem readFields_putFields
    (hread : ∀ a rest, Delimited rest → read (put a ++ rest) = some (back a, rest))
    (fields : List (Bytes × α)) (rest : Bytes) : ∀ fuel, max 1 fields.length ≤ fuel →
    readFields read fuel (putFields put fields ++ rest) =
      some (fields.map fun f => (f.1, back f.2), rest) := by
  induction fields with
  | nil =>
    intro fuel hfuel
    obtain ⟨fuel, rfl⟩ : ∃ n, fuel = n + 1 := ⟨fuel - 1, by simp at hfuel; omega⟩
    rfl
  | cons f fields ih =>
    intro fuel hfuel
    obtain ⟨fuel, rfl⟩ : ∃ n, fuel = n + 1 := ⟨fuel - 1, by simp at hfuel; omega⟩
    obtain ⟨name, value⟩ := f
    cases fields with
    | nil =>
      obtain ⟨body, hbody, hname⟩ := readString_putString name (58 :: (put value ++ 125 :: rest))
      have he : putFields put [(name, value)] ++ rest = 34 :: body := by
        rw [← hbody]; simp [putFields]
      rw [he]
      simp only [readFields, hname, hread value (125 :: rest) ⟨rest, Or.inr rfl⟩]
      rfl
    | cons g fields =>
      obtain ⟨body, hbody, hname⟩ :=
        readString_putString name (58 :: (put value ++ 44 :: (putFields put (g :: fields) ++ rest)))
      have he : putFields put ((name, value) :: g :: fields) ++ rest = 34 :: body := by
        rw [← hbody]; simp [putFields]
      have hrest := ih fuel (by simp only [List.length_cons] at hfuel ⊢; omega)
      rw [he]
      simp only [readFields, hname, hread value (44 :: (putFields put (g :: fields) ++ rest)) ⟨_, Or.inl rfl⟩,
        hrest, Option.map_some, List.map_cons]

end Fields

theorem readValue_putValue (v : Value) {rest : Bytes} (h : Delimited rest) :
    readValue (putValue v ++ rest) = some (readBackValue v, rest) := by
  cases v with
  | scalar s =>
    have hs := readScalar_putScalar s h
    unfold readValue
    split
    · next he =>
      -- no scalar starts with a brace
      exfalso
      simp only [putValue] at he
      rw [he] at hs
      simp [readScalar, isDigit] at hs
    · simp only [putValue]
      rw [hs]
      rfl
  | object fields =>
    have hlen := length_putFields putScalar fields
    simp only [putValue, List.cons_append, readValue]
    rw [readFields_putFields (fun a rest h => readScalar_putScalar a h) fields rest _
      (by rw [List.length_append]; omega)]
    rfl

/-- The tab and the newline, which are written as escapes. -/
def IsSpacing (b : UInt8) : Prop := b = 9 ∨ b = 10

theorem notMem_putString {b : UInt8} (hb : IsSpacing b) (s : Bytes) : b ∉ putString s := by
  have hquote : b ≠ 34 := by rcases hb with rfl | rfl <;> decide
  simp only [putString, List.mem_cons, List.mem_append, List.mem_flatMap, List.not_mem_nil, or_false,
    not_or, not_exists, not_and]
  refine ⟨hquote, fun c _ => ?_, hquote⟩
  unfold escapeByte
  split_ifs with h1 h2 h3 h4 h5 h6 h7
  all_goals first | (rcases hb with rfl | rfl <;> decide) | skip
  intro hc
  rw [List.mem_singleton] at hc
  rcases hb with rfl | rfl
  · exact h7 hc.symm
  · exact h5 hc.symm

theorem notMem_decimal {b : UInt8} (hb : IsSpacing b) (n : ℕ) : b ∉ decimal n := fun h => by
  have hdigit := isDigit_of_mem_decimal h
  rcases hb with rfl | rfl <;> exact absurd hdigit (by decide)

theorem notMem_putScalar {b : UInt8} (hb : IsSpacing b) (s : Scalar) : b ∉ putScalar s := by
  cases s with
  | boolean v => rcases hb with rfl | rfl <;> cases v <;> decide
  | unsigned n => exact notMem_decimal hb _
  | text t => exact notMem_putString hb t
  | real bits => exact notMem_decimal hb _

theorem notMem_putFields {b : UInt8} (hb : IsSpacing b) {α : Type} {put : α → Bytes} (h : ∀ a, b ∉ put a)
    (fields : List (Bytes × α)) : b ∉ putFields put fields := by
  have hmark : b ≠ 125 ∧ b ≠ 58 ∧ b ≠ 44 := by rcases hb with rfl | rfl <;> decide
  induction fields with
  | nil => simp [putFields, hmark.1]
  | cons f fields ih =>
    have hname := notMem_putString hb f.1
    have hvalue := h f.2
    cases fields with
    | nil => simp [putFields, hname, hvalue, hmark]
    | cons g fields => simp [putFields, hname, hvalue, hmark] at ih ⊢; exact ih

theorem notMem_textJson {b : UInt8} (hb : IsSpacing b) (d : Document) : b ∉ textJson.serialize d := by
  have hbrace : b ≠ 123 := by rcases hb with rfl | rfl <;> decide
  have hvalue : ∀ v : Value, b ∉ putValue v := by
    intro v
    cases v with
    | scalar s => exact notMem_putScalar hb s
    | object fields => simpa [putValue, hbrace] using notMem_putFields hb (notMem_putScalar hb) fields
  simpa [textJson, hbrace] using notMem_putFields hb hvalue d

theorem putFields_ends {α : Type} (put : α → Bytes) (fields : List (Bytes × α)) :
    ∃ init, putFields put fields = init ++ [125] := by
  induction fields with
  | nil => exact ⟨[], rfl⟩
  | cons f fields ih =>
    obtain ⟨name, value⟩ := f
    cases fields with
    | nil => exact ⟨putString name ++ (58 :: put value), by simp [putFields]⟩
    | cons g fields =>
      obtain ⟨init, hinit⟩ := ih
      exact ⟨putString name ++ (58 :: (put value ++ 44 :: init)), by simp [putFields, hinit]⟩

theorem textJson_plain : textJson.Plain where
  tab := notMem_textJson (Or.inl rfl)
  ends d := by
    obtain ⟨init, hinit⟩ := putFields_ends putValue d
    exact ⟨123 :: init, by simp [textJson, hinit]⟩

theorem lookup_readBack {d : Document} (hd : (d.map Prod.fst).Nodup) {name : Bytes} {value : Value}
    (h : (name, value) ∈ d) :
    (d.map fun f => (f.1, readBackValue f.2)).lookup name = some (readBackValue value) := by
  induction d with
  | nil => cases h
  | cons f d ih =>
    simp only [List.map_cons, List.nodup_cons] at hd
    rcases List.mem_cons.mp h with rfl | h
    · simp
    · have hne : name ≠ f.1 := fun he => hd.1 (he ▸ List.mem_map_of_mem (f := Prod.fst) h)
      simp only [List.map_cons, List.lookup_cons]
      have hbeq : (name == f.1) = false := by simpa using hne
      rw [hbeq]
      exact ih hd.2 h

/-- What the fields show under a name. -/
def viewAt (fields : Document) (name : Bytes) : View := ((fields.lookup name).map viewOf).getD {}

theorem textJson_readsBack (d : Document) : textJson.deserialize (textJson.serialize d) =
    some (viewAt (d.map fun f => (f.1, readBackValue f.2))) := by
  have hlen := length_putFields putValue d
  have hread := readFields_putFields (fun a rest h => readValue_putValue a h) d [] _ hlen
  rw [List.append_nil] at hread
  simp only [textJson, hread, Option.map_some]
  rfl

/-- **The text form is lawful.** -/
theorem textJson_lawful : textJson.Lawful where
  newline := notMem_textJson (Or.inr rfl)
  readsBack d hd := by
    refine ⟨_, textJson_readsBack d, fun name value h => ?_⟩
    simp only [viewAt, lookup_readBack hd h]
    cases value with
    | object fields => trivial
    | scalar s => cases s <;> simp [Shows, readBackValue, readBack, viewOf]

/-- What is neither an integer nor a truth value nor a text counts as null. -/
def textNullable : NullableLibrary where
  toJsonLibrary := textJson
  isNull s name := ((textJson.deserialize s).map fun view =>
    !(view name).isUnsigned && (view name).boolean.isNone && (view name).text.isNone).getD true

theorem textNullable_lawful : textNullable.Lawful where
  toLawful := textJson_lawful
  present d hd name s h := by
    have hread := textJson_readsBack d
    simp only [textNullable, hread, Option.map_some, viewAt, lookup_readBack hd h]
    cases s <;> simp [readBackValue, readBack, viewOf]

/-! ### Changing a text -/

/-- A library that also sets a text in a document it can read, and writes the document again. -/
structure EditableLibrary extends JsonLibrary where
  setText : Bytes → Bytes → Bytes → Bytes

/-- The other view shows the same integer, truth value and text. -/
structure Shown (v v' : View) : Prop where
  unsigned : v.isUnsigned = true → v'.isUnsigned = true ∧ v'.asUnsigned = v.asUnsigned
  boolean : v'.boolean = v.boolean
  text : v'.text = v.text

structure EditableLibrary.Lawful (j : EditableLibrary) : Prop where
  toLawful : j.toJsonLibrary.Lawful
  setText : ∀ s view name t, j.deserialize s = some view → j.setText s name t ≠ [] ∧
    ∃ view', j.deserialize (j.setText s name t) = some view' ∧ (view' name).text = some t ∧
      ∀ other, other ≠ name → Shown (view other) (view' other)

def putText (name t : Bytes) : Document → Document
  | [] => [(name, .scalar (.text t))]
  | f :: d => if f.1 = name then (name, .scalar (.text t)) :: d else f :: putText name t d

/-- The fields of a text. -/
def parseFields : Bytes → Option Document
  | 123 :: rest => (readFields readValue rest.length rest).map Prod.fst
  | _ => none

def textEditable : EditableLibrary where
  toJsonLibrary := textJson
  setText s name t := ((parseFields s).map fun fields => textJson.serialize (putText name t fields)).getD s

theorem deserialize_parseFields (s : Bytes) : textJson.deserialize s = (parseFields s).map viewAt := by
  simp only [textJson]
  split
  · next rest => simp only [parseFields, Option.map_map]; rfl
  · next h =>
    have hnone : parseFields s = none := by
      unfold parseFields
      split
      · next rest => exact absurd rfl (h rest)
      · rfl
    rw [hnone]
    rfl

theorem lookup_map_value (g : Value → Value) (d : Document) (name : Bytes) :
    (d.map fun f => (f.1, g f.2)).lookup name = (d.lookup name).map g := by
  induction d with
  | nil => rfl
  | cons f d ih =>
    obtain ⟨key, value⟩ := f
    simp only [List.map_cons, List.lookup_cons, ih]
    cases name == key <;> rfl

theorem lookup_putText (d : Document) (name t : Bytes) :
    (putText name t d).lookup name = some (.scalar (.text t)) := by
  induction d with
  | nil => simp [putText]
  | cons f d ih =>
    obtain ⟨key, value⟩ := f
    simp only [putText]
    split_ifs with h
    · simp
    · have hbeq : (name == key) = false := by simpa using fun heq => h heq.symm
      simp only [List.lookup_cons, hbeq, ih]

theorem lookup_putText_ne (d : Document) {name other : Bytes} (t : Bytes) (hne : other ≠ name) :
    (putText name t d).lookup other = d.lookup other := by
  have hbeq : (other == name) = false := by simpa using hne
  induction d with
  | nil => simp [putText, List.lookup_cons, hbeq]
  | cons f d ih =>
    obtain ⟨key, value⟩ := f
    simp only [putText]
    split_ifs with h
    · subst h
      simp only [List.lookup_cons, hbeq]
    · simp only [List.lookup_cons, ih]

theorem shown_readBack (v : Value) : Shown (viewOf v) (viewOf (readBackValue v)) := by
  cases v with
  | object fields => exact ⟨fun h => (by cases h), rfl, rfl⟩
  | scalar s => cases s <;> exact ⟨fun h => (by first | exact ⟨h, rfl⟩ | cases h), rfl, rfl⟩

theorem textEditable_lawful : textEditable.Lawful where
  toLawful := textJson_lawful
  setText s view name t h := by
    have hparse : (parseFields s).map viewAt = some view := (deserialize_parseFields s).symm.trans h
    obtain ⟨fields, hfields, rfl⟩ := Option.map_eq_some_iff.mp hparse
    have hset : textEditable.setText s name t = textJson.serialize (putText name t fields) := by
      simp only [textEditable, hfields, Option.map_some, Option.getD_some]
    rw [hset]
    refine ⟨List.cons_ne_nil _ _, _, textJson_readsBack _, ?_, fun other hne => ?_⟩
    · simp only [viewAt, lookup_map_value, lookup_putText]
      rfl
    · simp only [viewAt, lookup_map_value, lookup_putText_ne fields t hne]
      cases fields.lookup other with
      | none => exact ⟨fun h => (by cases h), rfl, rfl⟩
      | some v => exact shown_readBack v

end PowerMonitor.Lib.Json

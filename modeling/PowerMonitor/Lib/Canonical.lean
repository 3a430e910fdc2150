import PowerMonitor.Lib.Reader

/-! # Canonical readers

A reader is canonical if it reads back what a writer wrote, and accepts nothing else (`Undoes`). A reader
that reads one value after another accepts what is written by one writer after another
(`Consumes.bind`, `Undoes.run_bind`). -/

namespace PowerMonitor.Lib.Canonical

open PowerMonitor.Lib.Binary PowerMonitor.Lib.Reader

variable {α β : Type}

/-- **The reader undoes the writer** on the values that fit, and reads nothing that it did not write. -/
structure Undoes (p : ByteReader α) (put : α → Bytes) (fits : α → Prop) : Prop where
  reads : ∀ a rest, fits a → p.run (put a ++ rest) = some (a, rest)
  written : ∀ {input a rest}, p.run input = some (a, rest) → fits a ∧ input = put a ++ rest

/-- What a reader accepts begins with bytes that fit its value. -/
def Consumes (p : ByteReader α) (P : α → Bytes → Prop) : Prop :=
  ∀ input a rest, p.run input = some (a, rest) → ∃ bytes, input = bytes ++ rest ∧ P a bytes

/-! ### Composition -/

theorem run_bind_eq_some {p : ByteReader α} {f : α → ByteReader β} {input rest : Bytes} {b : β} :
    (p >>= f).run input = some (b, rest) ↔ ∃ a middle, p.run input = some (a, middle) ∧
      (f a).run middle = some (b, rest) := by
  rw [StateT.run_bind, Option.bind_eq_bind, Option.bind_eq_some_iff]
  constructor
  · rintro ⟨⟨a, middle⟩, h⟩
    exact ⟨a, middle, h⟩
  · rintro ⟨a, middle, h⟩
    exact ⟨(a, middle), h⟩

variable {p : ByteReader α} {put : α → Bytes} {fits : α → Prop} {f : α → ByteReader β}

/-- A value that was written, and what follows it. -/
theorem Undoes.run_bind (hp : Undoes p put fits) (a : α) (ha : fits a) (rest : Bytes) :
    (p >>= f).run (put a ++ rest) = (f a).run rest := by
  rw [StateT.run_bind, hp.reads a rest ha]
  rfl

/-- The reader reads the value from the bytes, whatever follows them. -/
def Reads (p : ByteReader α) (bytes : Bytes) (a : α) : Prop := ∀ rest, p.run (bytes ++ rest) = some (a, rest)

theorem Reads.bind {bytes : Bytes} {b : β} {a : α} (hp : Undoes p put fits) (ha : fits a)
    (hf : Reads (f a) bytes b) : Reads (p >>= f) (put a ++ bytes) b := by
  intro rest
  rw [List.append_assoc, hp.run_bind a ha]
  exact hf rest

theorem Reads.pure (a : α) : Reads (pure a) [] a := fun _ => rfl

theorem Reads.lift {o : Option α} {a : α} {bytes : Bytes} {b : β} (ho : o = some a) (hf : Reads (f a) bytes b) :
    Reads (StateT.lift o >>= f) bytes b := by
  intro rest
  subst ho
  exact hf rest

/-- **Composition**: the rest is read after what was written of the first value. -/
theorem Consumes.bind {P : β → Bytes → Prop} (hp : Undoes p put fits)
    (hf : ∀ a, fits a → Consumes (f a) fun b bytes => P b (put a ++ bytes)) : Consumes (p >>= f) P := by
  intro input b rest h
  obtain ⟨a, middle, hread, hrest⟩ := run_bind_eq_some.mp h
  obtain ⟨ha, rfl⟩ := hp.written hread
  obtain ⟨bytes, rfl, hbytes⟩ := hf a ha middle b rest hrest
  exact ⟨put a ++ bytes, by rw [List.append_assoc], hbytes⟩

theorem Consumes.pure {P : α → Bytes → Prop} {a : α} (h : P a []) : Consumes (pure a) P := by
  intro input b rest hread
  cases hread
  exact ⟨[], rfl, h⟩

theorem Consumes.failure {P : α → Bytes → Prop} : Consumes (failure : ByteReader α) P := by
  intro input a rest h
  cases h

theorem Consumes.ite {c : Prop} [Decidable c] {q : ByteReader α} {P : α → Bytes → Prop} (hp : c → Consumes p P)
    (hq : ¬ c → Consumes q P) : Consumes (if c then p else q) P := by
  split_ifs with hc
  · exact hp hc
  · exact hq hc

/-- A value that is found without reading. -/
theorem Consumes.lift {o : Option α} {P : β → Bytes → Prop} (hf : ∀ a, o = some a → Consumes (f a) P) :
    Consumes (StateT.lift o >>= f) P := by
  intro input b rest h
  obtain ⟨a, middle, hread, hrest⟩ := run_bind_eq_some.mp h
  have hlift : (StateT.lift o : ByteReader α).run input = o >>= fun a => some (a, input) := rfl
  rw [hlift, Option.bind_eq_bind, Option.bind_eq_some_iff] at hread
  obtain ⟨a', ho, heq⟩ := hread
  cases heq
  exact hf a ho input b rest hrest

/-! ### Numbers and texts -/

theorem leBytes_leNat (l : Bytes) : leBytes l.length (leNat l) = l := by
  induction l with
  | nil => rfl
  | cons b l ih =>
    have hb := b.toNat_lt
    have hhead : UInt8.ofNat (b.toNat + 256 * leNat l) = b := by
      apply UInt8.toNat_inj.mp
      rw [UInt8.toNat_ofNat']
      omega
    have htail : (b.toNat + 256 * leNat l) / 256 = leNat l := by omega
    rw [List.length_cons, leNat, leBytes, hhead, htail, ih]

theorem undoes_readBytes (k : ℕ) : Undoes (readBytes k) id fun bytes => bytes.length = k where
  reads bytes rest hlength := by
    have hrun : (readBytes k).run (id bytes ++ rest) = if (id bytes ++ rest).length < k then none else
      some ((id bytes ++ rest).take k, (id bytes ++ rest).drop k) := rfl
    rw [hrun, id, if_neg (by rw [List.length_append]; omega), List.take_left' hlength, List.drop_left' hlength]
  written {input bytes rest} h := by
    have hrun : (readBytes k).run input = if input.length < k then none else some (input.take k, input.drop k) := rfl
    rw [hrun] at h
    split_ifs at h with hshort
    cases h
    exact ⟨by rw [List.length_take]; omega, (List.take_append_drop k input).symm⟩

/-- A number of `k` bytes, as a value of a type with so many values. -/
theorem undoes_number {k : ℕ} {ofNat : ℕ → α} {toNat : α → ℕ} (hlt : ∀ a, toNat a < 256 ^ k)
    (hof : ∀ a, ofNat (toNat a) = a) (hto : ∀ n < 256 ^ k, toNat (ofNat n) = n) :
    Undoes (do let bytes ← readBytes k; return ofNat (leNat bytes)) (fun a => leBytes k (toNat a))
      fun _ => True where
  reads a rest _ := by
    have hrun := (undoes_readBytes k).run_bind (f := fun bytes => pure (ofNat (leNat bytes))) (leBytes k (toNat a))
      (length_leBytes k _) rest
    rw [leNat_leBytes_of_lt (hlt a), hof] at hrun
    exact hrun
  written {input a rest} h := by
    obtain ⟨bytes, middle, hread, hrest⟩ := run_bind_eq_some.mp h
    obtain ⟨hlength, rfl⟩ := (undoes_readBytes k).written hread
    cases hrest
    have hbound : leNat bytes < 256 ^ k := hlength ▸ leNat_lt bytes
    refine ⟨trivial, ?_⟩
    rw [hto _ hbound, ← hlength, leBytes_leNat]
    rfl

theorem undoes_readUInt8 : Undoes readUInt8 (fun a => [a]) fun _ => True := by
  have hnumber := @undoes_number UInt8 1 UInt8.ofNat UInt8.toNat (fun a => a.toNat_lt)
    (fun a => UInt8.ofNat_toNat) (fun n hn => UInt8.toNat_ofNat_of_lt' hn)
  refine ⟨fun a rest ha => ?_, fun {input a rest} h => ?_⟩
  · have hread := hnumber.reads a rest ha
    rwa [leBytes, leBytes, UInt8.ofNat_toNat] at hread
  · have hwritten := hnumber.written h
    rwa [leBytes, leBytes, UInt8.ofNat_toNat] at hwritten

theorem undoes_readUInt16 : Undoes readUInt16 putUInt16 fun _ => True :=
  undoes_number (fun a => a.toNat_lt) (fun _ => UInt16.ofNat_toNat) (fun _ hn => UInt16.toNat_ofNat_of_lt' hn)

theorem undoes_readUInt32 : Undoes readUInt32 putUInt32 fun _ => True :=
  undoes_number (fun a => a.toNat_lt) (fun _ => UInt32.ofNat_toNat) (fun _ hn => UInt32.toNat_ofNat_of_lt' hn)

theorem undoes_readUInt64 : Undoes readUInt64 putUInt64 fun _ => True :=
  undoes_number (fun a => a.toNat_lt) (fun _ => UInt64.ofNat_toNat) (fun _ hn => UInt64.toNat_ofNat_of_lt' hn)

theorem undoes_readText {maximum : ℕ} (h : maximum < 2 ^ 16) :
    Undoes (readText maximum) putText fun text => text.length ≤ maximum where
  reads text rest htext := by
    have hlength : (UInt16.ofNat text.length).toNat = text.length := UInt16.toNat_ofNat_of_lt' (Nat.lt_of_le_of_lt htext h)
    rw [readText, putText, List.append_assoc, undoes_readUInt16.run_bind _ trivial, hlength,
      if_neg (by omega)]
    exact (undoes_readBytes text.length).reads text rest rfl
  written {input text rest} hread := by
    obtain ⟨length, middle, hlength, hrest⟩ := run_bind_eq_some.mp hread
    obtain ⟨-, rfl⟩ := undoes_readUInt16.written hlength
    split_ifs at hrest with hlong
    · cases hrest
    · obtain ⟨htext, rfl⟩ := (undoes_readBytes length.toNat).written hrest
      refine ⟨by omega, ?_⟩
      rw [putText, htext, UInt16.ofNat_toNat, List.append_assoc]
      rfl

end PowerMonitor.Lib.Canonical

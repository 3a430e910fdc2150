import PowerMonitor.Lib.Binary

/-! # Cyclic redundancy checks and bursts of errors

A register of `w` bits absorbs a text bit by bit, the low bit of each byte first: it moves down by one place, and if the
bit that leaves is set, a polynomial is added. Moving is linear (`shift_xor`) and, if the polynomial has the highest bit,
one-to-one (`shift_injective`). A text that fits into the register is therefore absorbed as one number
(`register_eq`), and two texts that differ only within such a part leave different registers (`register_burst`). -/

namespace PowerMonitor.Lib.Burst

open PowerMonitor.Lib.Binary

variable {w : ℕ} (poly : BitVec w)

/-- One bit. -/
def shift (x : BitVec w) : BitVec w := (x >>> 1) ^^^ (if x.getLsbD 0 then poly else 0#w)

/-- One byte. -/
def absorb (x : BitVec w) (b : UInt8) : BitVec w := ((shift poly)^[8]) (x ^^^ b.toBitVec.setWidth w)

/-- The register after a text. -/
def register (x : BitVec w) (data : Bytes) : BitVec w := data.foldl (absorb poly) x

/-- The number of a text, in the register. -/
def word (w : ℕ) (data : Bytes) : BitVec w := BitVec.ofNat w (leNat data)

/-! ### One bit -/

/-- The low bit of a register, as a number. -/
theorem and_one (x : BitVec w) : x &&& 1#w = if x.getLsbD 0 then 1#w else 0#w := by
  rw [BitVec.and_one_eq_setWidth_ofBool_getLsbD]
  cases x.getLsbD 0
  · simp
  · exact BitVec.eq_of_toNat_eq (by simp)

theorem xor_cancel (a b p : BitVec w) : (a ^^^ p) ^^^ (b ^^^ p) = a ^^^ b := by
  rw [BitVec.xor_assoc, ← BitVec.xor_assoc p b p, BitVec.xor_comm p b, BitVec.xor_assoc b p p, BitVec.xor_self,
    BitVec.xor_zero]

/-- **The step is linear.** -/
theorem shift_xor (x y : BitVec w) : shift poly (x ^^^ y) = shift poly x ^^^ shift poly y := by
  unfold shift
  rw [BitVec.getLsbD_xor, BitVec.ushiftRight_xor_distrib]
  cases x.getLsbD 0 <;> cases y.getLsbD 0
  · simp
  · simp [BitVec.xor_assoc]
  · simp only [Bool.xor_false, if_true, Bool.false_eq_true, if_false, BitVec.xor_zero]
    rw [BitVec.xor_assoc, BitVec.xor_assoc, BitVec.xor_comm poly]
  · simp [xor_cancel]

theorem iterate_xor (n : ℕ) (x y : BitVec w) :
    ((shift poly)^[n]) (x ^^^ y) = ((shift poly)^[n]) x ^^^ ((shift poly)^[n]) y := by
  induction n generalizing x y with
  | zero => rfl
  | succ n ih => rw [Function.iterate_succ_apply, shift_xor, ih, ← Function.iterate_succ_apply, ← Function.iterate_succ_apply]

theorem shift_zero : shift poly 0#w = 0#w := by simp [shift]

variable {poly}

theorem eq_zero_of_shift (hpoly : poly.getLsbD (w - 1) = true) {x : BitVec w} (h : shift poly x = 0#w) : x = 0#w := by
  have hbit (i : ℕ) : ((x >>> 1).getLsbD i ^^ (if x.getLsbD 0 then poly else 0#w).getLsbD i) = false := by
    rw [← BitVec.getLsbD_xor]
    exact (congrArg (BitVec.getLsbD · i) h).trans BitVec.getLsbD_zero
  have hlow : x.getLsbD 0 = false := by
    by_contra hset
    have htop := hbit (w - 1)
    rw [if_pos (Bool.of_not_eq_false hset), hpoly, BitVec.getLsbD_ushiftRight, BitVec.getLsbD_of_ge x _ (by omega)] at htop
    cases htop
  refine BitVec.eq_of_getLsbD_eq fun i _ => ?_
  rw [BitVec.getLsbD_zero]
  cases i with
  | zero => exact hlow
  | succ i =>
    have hi := hbit i
    rwa [hlow, if_neg (by decide), BitVec.getLsbD_zero, Bool.xor_false, BitVec.getLsbD_ushiftRight, Nat.add_comm] at hi

/-- **The step is one-to-one.** -/
theorem shift_injective (hpoly : poly.getLsbD (w - 1) = true) : Function.Injective (shift poly) := by
  intro x y h
  have hzero : x ^^^ y = 0#w := eq_zero_of_shift hpoly (by rw [shift_xor, h]; exact BitVec.xor_self)
  rwa [BitVec.xor_eq_zero_iff] at hzero

/-! ### A text -/

theorem register_append (x : BitVec w) (s t : Bytes) : register poly x (s ++ t) = register poly (register poly x s) t :=
  List.foldl_append

theorem absorb_injective (hpoly : poly.getLsbD (w - 1) = true) (b : UInt8) : Function.Injective (absorb poly · b) :=
  ((shift_injective hpoly).iterate 8).comp fun _ _ h => (BitVec.xor_left_inj _).mp h

/-- Different registers stay different. -/
theorem register_injective (hpoly : poly.getLsbD (w - 1) = true) (data : Bytes) :
    Function.Injective (register poly · data) := by
  induction data with
  | nil => exact fun _ _ h => h
  | cons b data ih => exact ih.comp (absorb_injective hpoly b)

/-- Steps undo a move upwards that loses nothing. -/
theorem iterate_shiftLeft (k : ℕ) {y : BitVec w} (h : y.toNat * 2 ^ k < 2 ^ w) : ((shift poly)^[k]) (y <<< k) = y := by
  induction k with
  | zero => simp
  | succ k ih =>
    have hk : y.toNat * 2 ^ k * 2 < 2 ^ w := by
      rwa [Nat.mul_assoc, ← Nat.pow_succ]
    have hup : (y <<< k).toNat = y.toNat * 2 ^ k := by
      rw [BitVec.toNat_shiftLeft, Nat.shiftLeft_eq, Nat.mod_eq_of_lt (by omega)]
    have hstep : shift poly (y <<< k <<< 1) = y <<< k := by
      have hlow : (y <<< k <<< 1).getLsbD 0 = false := by simp
      unfold shift
      rw [hlow, if_neg (by decide)]
      refine (BitVec.xor_zero).trans (BitVec.eq_of_toNat_eq ?_)
      rw [BitVec.toNat_ushiftRight, BitVec.toNat_shiftLeft, Nat.shiftLeft_eq, hup, Nat.mod_eq_of_lt (by omega),
        Nat.shiftRight_eq_div_pow]
      omega
    rw [Function.iterate_succ_apply, BitVec.shiftLeft_add, hstep]
    exact ih (by omega)

theorem word_cons (b : UInt8) (data : Bytes) :
    word w (b :: data) = b.toBitVec.setWidth w ^^^ (word w data <<< 8) := by
  refine BitVec.eq_of_getLsbD_eq fun i hi => ?_
  have hsum : leNat (b :: data) = 2 ^ 8 * leNat data + b.toNat := by
    rw [leNat]
    omega
  have hb : b.toNat < 2 ^ 8 := b.toNat_lt
  rw [word, BitVec.getLsbD_ofNat, hsum, Nat.testBit_two_pow_mul_add _ hb, BitVec.getLsbD_xor, BitVec.getLsbD_setWidth,
    BitVec.getLsbD_shiftLeft, word, BitVec.getLsbD_ofNat]
  split_ifs with hlt
  · simp [hi, hlt, BitVec.getLsbD]
  · have hout : b.toBitVec.getLsbD i = false := BitVec.getLsbD_of_ge _ _ (by omega)
    simp [hi, hlt, hout, show i - 8 < w by omega]

/-- What the lowest byte and the others share is nothing. -/
theorem or_byte (b : UInt8) (y : BitVec w) :
    b.toBitVec.setWidth w ||| (y <<< 8) = b.toBitVec.setWidth w ^^^ (y <<< 8) := by
  refine BitVec.eq_of_getLsbD_eq fun i hi => ?_
  rw [BitVec.getLsbD_or, BitVec.getLsbD_xor, BitVec.getLsbD_setWidth, BitVec.getLsbD_shiftLeft]
  by_cases hlt : i < 8
  · simp [hlt]
  · have hout : b.toBitVec.getLsbD i = false := BitVec.getLsbD_of_ge _ _ (by omega)
    simp [hout]

/-- **A text that fits is absorbed as one number.** -/
theorem register_eq (x : BitVec w) (data : Bytes) (h : 8 * data.length ≤ w) :
    register poly x data = ((shift poly)^[8 * data.length]) (x ^^^ word w data) := by
  induction data generalizing x with
  | nil => simp [register, word, leNat]
  | cons b data ih =>
    rw [List.length_cons] at h
    have hroom : (word w data).toNat * 2 ^ 8 < 2 ^ w := by
      have hlt := leNat_lt data
      have hpow : 256 ^ data.length * 2 ^ 8 ≤ 2 ^ w := by
        rw [show (256 : ℕ) = 2 ^ 8 by rfl, ← Nat.pow_mul, ← Nat.pow_add]
        exact Nat.pow_le_pow_right (by decide) (by omega)
      have hmod : (word w data).toNat ≤ leNat data := by
        rw [word, BitVec.toNat_ofNat]
        exact Nat.mod_le _ _
      calc (word w data).toNat * 2 ^ 8 ≤ leNat data * 2 ^ 8 := Nat.mul_le_mul_right _ hmod
        _ < 256 ^ data.length * 2 ^ 8 := by omega
        _ ≤ 2 ^ w := hpow
    have hfirst : register poly x (b :: data) = register poly (absorb poly x b) data := rfl
    rw [hfirst, ih _ (by omega), word_cons, ← BitVec.xor_assoc, List.length_cons, Nat.mul_succ,
      Function.iterate_add_apply, iterate_xor poly 8, iterate_shiftLeft 8 hroom]
    rfl

theorem leNat_inj {s t : Bytes} (hlength : s.length = t.length) (h : leNat s = leNat t) : s = t := by
  induction s generalizing t with
  | nil => exact (List.length_eq_zero_iff.mp hlength.symm).symm
  | cons b s ih =>
    cases t with
    | nil => cases hlength
    | cons c t =>
      rw [leNat, leNat] at h
      have hb := b.toNat_lt
      have hc := c.toNat_lt
      rw [UInt8.toNat_inj.mp (by omega : b.toNat = c.toNat), ih (Nat.succ.inj hlength) (by omega)]

theorem word_inj {s t : Bytes} (hlength : s.length = t.length) (hfits : 8 * s.length ≤ w) (h : word w s = word w t) :
    s = t := by
  have hpow : 256 ^ s.length ≤ 2 ^ w := by
    rw [show (256 : ℕ) = 2 ^ 8 by rfl, ← Nat.pow_mul]
    exact Nat.pow_le_pow_right (by decide) hfits
  have hs := leNat_lt s
  have ht := leNat_lt t
  rw [← hlength] at ht
  have hnat := congrArg BitVec.toNat h
  rw [word, word, BitVec.toNat_ofNat, BitVec.toNat_ofNat, Nat.mod_eq_of_lt (by omega), Nat.mod_eq_of_lt (by omega)] at hnat
  exact leNat_inj hlength hnat

/-- **A check that follows its text clears the register**, and no other does. -/
theorem register_eq_zero_iff (hpoly : poly.getLsbD (w - 1) = true) (x : BitVec w) {check : Bytes}
    (h : 8 * check.length ≤ w) : register poly x check = 0#w ↔ x = word w check := by
  have hzero : ((shift poly)^[8 * check.length]) 0#w = 0#w := Function.iterate_fixed (shift_zero poly) _
  have hsum : x = word w check ↔ x ^^^ word w check = 0#w := BitVec.xor_eq_zero_iff.symm
  rw [register_eq x check h, hsum]
  exact ⟨fun hclear => (shift_injective hpoly).iterate _ (hclear.trans hzero.symm), fun hsame => by rw [hsame, hzero]⟩

/-! ### Bursts -/

/-- Two texts of one length that differ only within `n` bytes in a row. -/
def DifferWithin (n : ℕ) (s t : Bytes) : Prop :=
  s.length = t.length ∧ ∃ k, ∀ i, s[i]? ≠ t[i]? → k ≤ i ∧ i < k + n

theorem DifferWithin.parts {n : ℕ} {s t : Bytes} (h : DifferWithin n s t) : ∃ before bs cs behind,
    s = before ++ (bs ++ behind) ∧ t = before ++ (cs ++ behind) ∧ bs.length = cs.length ∧ bs.length ≤ n := by
  obtain ⟨hlength, k, hk⟩ := h
  have hsame (i : ℕ) (hi : i < k ∨ k + n ≤ i) : s[i]? = t[i]? := by
    by_contra hne
    have := hk i hne
    omega
  have hbefore : s.take k = t.take k := List.ext_getElem? fun i => by
    rw [List.getElem?_take, List.getElem?_take]
    split_ifs with hi
    · exact hsame i (Or.inl hi)
    · rfl
  have hbehind : s.drop (k + n) = t.drop (k + n) := List.ext_getElem? fun i => by
    rw [List.getElem?_drop, List.getElem?_drop]
    exact hsame _ (Or.inr (by omega))
  have hparts (u : Bytes) : u = u.take k ++ ((u.drop k).take n ++ u.drop (k + n)) := by
    rw [← List.drop_drop, List.take_append_drop, List.take_append_drop]
  refine ⟨s.take k, (s.drop k).take n, (t.drop k).take n, s.drop (k + n), hparts s, ?_, ?_, ?_⟩
  · rw [hbefore, hbehind]
    exact hparts t
  · simp [hlength]
  · rw [List.length_take]
    exact Nat.min_le_left _ _

theorem differWithin_parts {n : ℕ} (before behind : Bytes) {bs cs : Bytes} (hlength : bs.length = cs.length)
    (hle : bs.length ≤ n) : DifferWithin n (before ++ (bs ++ behind)) (before ++ (cs ++ behind)) := by
  refine ⟨by simp [hlength], before.length, fun i hne => ?_⟩
  have hbefore : before.length ≤ i := by
    by_contra hlt
    exact hne (by rw [List.getElem?_append_left (by omega), List.getElem?_append_left (by omega)])
  refine ⟨hbefore, ?_⟩
  by_contra hge
  refine hne ?_
  rw [List.getElem?_append_right hbefore, List.getElem?_append_right hbefore, List.getElem?_append_right (by omega),
    List.getElem?_append_right (by omega), hlength]

/-- What stands around two texts does not matter. -/
theorem DifferWithin.append {n : ℕ} {s t : Bytes} (h : DifferWithin n s t) (before behind : Bytes) :
    DifferWithin n (before ++ (s ++ behind)) (before ++ (t ++ behind)) := by
  obtain ⟨first, bs, cs, last, rfl, rfl, hlength, hle⟩ := h.parts
  have hparts := differWithin_parts (before ++ first) (last ++ behind) hlength hle
  simpa only [List.append_assoc] using hparts

/-- **A burst changes the register.** -/
theorem register_burst (hpoly : poly.getLsbD (w - 1) = true) {n : ℕ} (hn : 8 * n ≤ w) (x : BitVec w) {s t : Bytes}
    (h : DifferWithin n s t) (hne : s ≠ t) : register poly x s ≠ register poly x t := by
  obtain ⟨before, bs, cs, behind, rfl, rfl, hlength, hle⟩ := h.parts
  intro heq
  rw [register_append, register_append, register_append, register_append] at heq
  have hburst := register_injective hpoly behind heq
  rw [register_eq _ bs (by omega), register_eq _ cs (by omega), hlength] at hburst
  have hword := (BitVec.xor_right_inj _).mp ((shift_injective hpoly).iterate _ hburst)
  exact hne (by rw [word_inj hlength (by omega) hword])

end PowerMonitor.Lib.Burst

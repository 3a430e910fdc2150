import PowerMonitor.Lib.Delimited
import PowerMonitor.Ota.ManifestV2

/-! # What the manifest's digest covers

The canonical text joins the manifest's fields: the names and the commas stand bare, and a quote or a backslash inside
a string has a backslash before it. A string ends at its first bare quote (`jsonString_inj`), a number at the comma
after it (`decimal_inj`), so the fields can be read back in their order, whatever the strings hold.

* `canonicalManifest_identifies`: **two manifests with the same canonical text agree in every field but the digest.** -/

namespace PowerMonitor.Ota.CanonicalManifest

open PowerMonitor.Lib.Binary PowerMonitor.Lib.Delimited PowerMonitor.Lib.Scan PowerMonitor.Ota.ManifestV2

/-! ### Strings -/

/-- A byte inside the quotes. -/
def escapeByte (b : UInt8) : Bytes := if b = 34 ∨ b = 92 then [92, b] else [b]

theorem jsonString_eq (s rest : Bytes) : jsonString s ++ rest = 34 :: (s.flatMap escapeByte ++ 34 :: rest) := by
  unfold jsonString
  rw [List.append_assoc, List.append_assoc]
  rfl

/-- An escaped byte does not start with a quote. -/
theorem escapeByte_ne_quote (b : UInt8) (l rest : Bytes) : escapeByte b ++ l ≠ 34 :: rest := by
  unfold escapeByte
  split
  · simp
  · next h => simp [(not_or.mp h).1]

theorem escapeByte_inj {a b : UInt8} {l l' : Bytes} (h : escapeByte a ++ l = escapeByte b ++ l') : a = b ∧ l = l' := by
  unfold escapeByte at h
  split at h <;> split at h
  · simpa using h
  · next hb => exact absurd (List.cons.inj h).1.symm (not_or.mp hb).2
  · next ha _ => exact absurd (List.cons.inj h).1 (not_or.mp ha).2
  · simpa using h

/-- **The first bare quote ends the string.** -/
theorem escaped_inj {s t rest rest' : Bytes}
    (h : s.flatMap escapeByte ++ 34 :: rest = t.flatMap escapeByte ++ 34 :: rest') : s = t ∧ rest = rest' := by
  induction s generalizing t with
  | nil =>
    cases t with
    | nil => simpa using h
    | cons b t =>
      rw [List.flatMap_cons, List.append_assoc] at h
      exact absurd h.symm (escapeByte_ne_quote b _ _)
  | cons a s ih =>
    rw [List.flatMap_cons, List.append_assoc] at h
    cases t with
    | nil => exact absurd h (escapeByte_ne_quote a _ _)
    | cons b t =>
      rw [List.flatMap_cons, List.append_assoc] at h
      obtain ⟨rfl, htail⟩ := escapeByte_inj h
      obtain ⟨rfl, hrest⟩ := ih htail
      exact ⟨rfl, hrest⟩

theorem jsonString_inj {s t rest rest' : Bytes} (h : jsonString s ++ rest = jsonString t ++ rest') :
    s = t ∧ rest = rest' := by
  rw [jsonString_eq, jsonString_eq, List.cons.injEq] at h
  exact escaped_inj h.2

/-! ### Fields -/

theorem stringField_inj {name : String} {s t rest rest' : Bytes}
    (h : stringField name s ++ rest = stringField name t ++ rest') : s = t ∧ rest = rest' := by
  unfold stringField at h
  rw [List.append_assoc, List.append_assoc _ (jsonString t), List.append_cancel_left_eq] at h
  exact jsonString_inj h

/-- Fields with the same names, one after the other. -/
theorem stringFields_inj {fields fields' : List (String × Bytes)} {rest rest' : Bytes}
    (hnames : fields.map Prod.fst = fields'.map Prod.fst)
    (h : fields.flatMap (fun (name, value) => stringField name value) ++ rest =
      fields'.flatMap (fun (name, value) => stringField name value) ++ rest') : fields = fields' ∧ rest = rest' := by
  induction fields generalizing fields' with
  | nil =>
    obtain rfl : fields' = [] := by simpa using hnames.symm
    exact ⟨rfl, h⟩
  | cons field fields ih =>
    obtain ⟨name, value⟩ := field
    cases fields' with
    | nil => simp at hnames
    | cons field' fields' =>
      obtain ⟨name', value'⟩ := field'
      rw [List.map_cons, List.map_cons, List.cons.injEq] at hnames
      obtain ⟨hname, hnames⟩ := hnames
      obtain rfl : name = name' := hname
      rw [List.flatMap_cons, List.flatMap_cons, List.append_assoc, List.append_assoc] at h
      obtain ⟨rfl, htail⟩ := stringField_inj h
      obtain ⟨rfl, hrest⟩ := ih hnames htail
      exact ⟨rfl, hrest⟩

/-- A number ends at the comma after it. -/
theorem decimal_inj {n n' : ℕ} {rest rest' : Bytes} (h : decimal n ++ 44 :: rest = decimal n' ++ 44 :: rest') :
    n = n' ∧ rest = rest' := by
  have hcomma (n : ℕ) : 44 ∉ decimal n := fun hmem => by simpa [isDigit] using isDigit_of_mem_decimal hmem
  obtain ⟨hdigits, hrest⟩ := append_cons_inj (hcomma n) (hcomma n') h
  refine ⟨?_, hrest⟩
  calc
    n = decimalValue (decimal n) := (decimalValue_decimal n).symm
    _ = decimalValue (decimal n') := by rw [hdigits]
    _ = n' := decimalValue_decimal n'

theorem flag_inj {flag flag' : Bool} {rest rest' : Bytes}
    (h : ascii (if flag then "true" else "false") ++ 44 :: rest =
      ascii (if flag' then "true" else "false") ++ 44 :: rest') : flag = flag' ∧ rest = rest' := by
  have hcomma (flag : Bool) : 44 ∉ ascii (if flag then "true" else "false") := by cases flag <;> decide
  obtain ⟨htext, hrest⟩ := append_cons_inj (hcomma flag) (hcomma flag') h
  refine ⟨?_, hrest⟩
  revert htext
  cases flag <;> cases flag' <;> decide

/-! ### The manifest -/

/-- The canonical text, each number up to the comma after it. -/
theorem canonicalManifest_eq {m : Manifest} (h : canonicalManifest m ≠ []) :
    canonicalManifest m = ascii "\x7b\"allow_downgrade\":" ++
      (ascii (if m.allowDowngrade then "true" else "false") ++ 44 :: (ascii "\"attempt\":" ++
        (decimal m.attempt.toNat ++ 44 :: ((stringField "build_hash" m.buildHash).tail ++
          ((canonicalStrings m).tail.flatMap (fun (name, value) => stringField name value) ++
            (ascii ",\"size_bytes\":" ++ (decimal m.sizeBytes.toNat ++ 44 ::
              ((stringField "version" m.version).tail ++ ascii "\x7d")))))))) := by
  unfold canonicalManifest at h ⊢
  have hfields : (canonicalStrings m).flatMap (fun (name, value) => stringField name value) =
      stringField "build_hash" m.buildHash ++
        (canonicalStrings m).tail.flatMap (fun (name, value) => stringField name value) := rfl
  split
  · rw [hfields]
    simp only [List.append_assoc]
    rfl
  · next hp => exact absurd (if_neg hp) h

theorem stringField_tail_inj {name : String} {s t rest rest' : Bytes}
    (h : (stringField name s).tail ++ rest = (stringField name t).tail ++ rest') : s = t ∧ rest = rest' := by
  have hcons (s : Bytes) : stringField name s = 44 :: (stringField name s).tail := rfl
  refine @stringField_inj name s t rest rest' ?_
  rw [hcons s, hcons t, List.cons_append, List.cons_append, h]

/-- **Two manifests with the same canonical text agree in every field but the digest.** -/
theorem canonicalManifest_identifies (m m' : Manifest) (h : canonicalManifest m ≠ [])
    (he : canonicalManifest m = canonicalManifest m') : m' = { m with manifestHmac := m'.manifestHmac } := by
  have h' : canonicalManifest m' ≠ [] := he ▸ h
  rw [canonicalManifest_eq h, canonicalManifest_eq h', List.append_cancel_left_eq] at he
  obtain ⟨hdowngrade, he⟩ := flag_inj he
  rw [List.append_cancel_left_eq] at he
  obtain ⟨hattempt, he⟩ := decimal_inj he
  obtain ⟨hbuild, he⟩ := stringField_tail_inj he
  obtain ⟨hfields, he⟩ := stringFields_inj (by rfl) he
  rw [List.append_cancel_left_eq] at he
  obtain ⟨hsize, he⟩ := decimal_inj he
  obtain ⟨hversion, -⟩ := stringField_tail_inj he
  have hattempt : m.attempt = m'.attempt := UInt32.toNat_inj.mp hattempt
  have hsize : m.sizeBytes = m'.sizeBytes := UInt32.toNat_inj.mp hsize
  simp only [canonicalStrings, List.tail_cons, List.cons.injEq, Prod.mk.injEq, true_and] at hfields
  cases m
  cases m'
  simp_all

/-- A manifest whose strings hold quotes, backslashes and text that looks like a field. -/
def quotedManifest (manifestHmac : String) : Manifest where
  schemaVersion := ascii "pm-ota-manifest/2"
  protocolVersion := ascii "p\\\""
  deploymentId := ascii "d\",\"device_id\":\"x"
  releaseId := []
  deviceId := ascii "\\"
  version := ascii "1.0.0"
  projectName := []
  hardwareTarget := []
  protocolMin := []
  protocolMax := []
  sizeBytes := 7
  sha256 := []
  buildHash := []
  notBefore := []
  expiresAt := []
  allowDowngrade := false
  attempt := 1
  hmacAlgorithm := []
  hmacKeyContext := []
  manifestHmac := ascii manifestHmac
  downloadPath := []

theorem canonicalManifest_identifies_quoted :
    canonicalManifest (quotedManifest "a") ≠ [] ∧
      quotedManifest "b" = { quotedManifest "a" with manifestHmac := ascii "b" } := by
  have hprintable : canonicalManifest (quotedManifest "a") ≠ [] := by decide +kernel
  have hunsigned (m : Manifest) (hmac : Bytes) :
      canonicalManifest m = canonicalManifest { m with manifestHmac := hmac } := rfl
  exact ⟨hprintable, canonicalManifest_identifies (quotedManifest "a") (quotedManifest "b") hprintable
    (hunsigned (quotedManifest "a") (ascii "b"))⟩

end PowerMonitor.Ota.CanonicalManifest

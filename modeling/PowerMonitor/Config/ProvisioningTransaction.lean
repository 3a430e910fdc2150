import PowerMonitor.Lib.Binary

/-! # The journal of a provisioning

Before a provisioning changes anything it writes a journal: the generation of the configuration in force and the three
credentials it will replace, framed with a magic number, a version and a CRC-32. An encoded journal is decoded to
itself (`decode_encode`). The recovery decides by the two generations alone whether it rolls the configuration
back. -/

namespace PowerMonitor.Config.ProvisioningTransaction

open PowerMonitor.Lib.Binary

structure Journal where
  previousConfigGeneration : UInt64 := 0
  enrollmentToken : Bytes := []
  adminSalt : Bytes := []
  adminHash : Bytes := []
  deriving DecidableEq

inductive RecoveryAction
  | conflict | restoreCredentials | rollbackConfigAndRestoreCredentials
  deriving DecidableEq, Repr

def kMagic : ℕ := 0x54504D50
def kVersion : ℕ := 1
def kHeaderSize : ℕ := 20
def kMaximumTokenLength : ℕ := 256
def kMaximumCredentialPartLength : ℕ := 64

def appendField (value : Bytes) : Bytes := leBytes 2 value.length ++ value

/-- The journal without its checksum. -/
def encodedBody (journal : Journal) : Bytes :=
  leBytes 4 kMagic ++ (leBytes 2 kVersion ++ (leBytes 2 0 ++ (leBytes 8 journal.previousConfigGeneration.toNat ++
    (appendField journal.enrollmentToken ++ (appendField journal.adminSalt ++ appendField journal.adminHash)))))

/-- A journal that fits the format. -/
def Fits (journal : Journal) : Prop :=
  journal.previousConfigGeneration ≠ 0 ∧ journal.enrollmentToken.length ≤ kMaximumTokenLength ∧
    journal.adminSalt.length ≤ kMaximumCredentialPartLength ∧ journal.adminHash.length ≤ kMaximumCredentialPartLength

instance (journal : Journal) : Decidable (Fits journal) := by
  unfold Fits
  infer_instance

/-- Nothing for a journal that does not fit. -/
def encode (journal : Journal) : Bytes :=
  if Fits journal then encodedBody journal ++ leBytes 4 (crc32 (encodedBody journal)).toNat else []

/-- The field at the cursor, and the cursor after it; the checksum at the end is no part of a field. -/
def takeField (input : Bytes) (cursor maximum : ℕ) : Option (Bytes × ℕ) := do
  let length ← readLe 2 input cursor
  if length > maximum ∨ cursor + 2 + length > input.length - 4 then none
  else return ((input.drop (cursor + 2)).take length, cursor + 2 + length)

def decode (encoded : Bytes) : Option Journal :=
  if encoded.length < kHeaderSize then none
  else do
    let magic ← readLe 4 encoded 0
    let version ← readLe 2 encoded 4
    let previousGeneration ← readLe 8 encoded 8
    let expectedCrc ← readLe 4 encoded (encoded.length - 4)
    if magic ≠ kMagic ∨ version ≠ kVersion ∨ previousGeneration = 0 ∨
        (crc32 (encoded.take (encoded.length - 4))).toNat ≠ expectedCrc then none
    else
      let (enrollmentToken, cursor) ← takeField encoded 16 kMaximumTokenLength
      let (adminSalt, cursor) ← takeField encoded cursor kMaximumCredentialPartLength
      let (adminHash, cursor) ← takeField encoded cursor kMaximumCredentialPartLength
      if cursor ≠ encoded.length - 4 then none
      else return {
        previousConfigGeneration := UInt64.ofNat previousGeneration
        enrollmentToken := enrollmentToken
        adminSalt := adminSalt
        adminHash := adminHash }

def recoveryAction (previousConfigGeneration : UInt64) (activeConfigGeneration : ℕ) : RecoveryAction :=
  if previousConfigGeneration = 0 ∨ activeConfigGeneration < previousConfigGeneration.toNat then .conflict
  else if activeConfigGeneration = previousConfigGeneration.toNat then .restoreCredentials
  else .rollbackConfigAndRestoreCredentials

/-! ### Round trip -/

theorem length_appendField (value : Bytes) : (appendField value).length = 2 + value.length := by
  rw [appendField, List.length_append, length_leBytes]

theorem length_encodedBody (journal : Journal) : (encodedBody journal).length =
    22 + journal.enrollmentToken.length + journal.adminSalt.length + journal.adminHash.length := by
  simp only [encodedBody, List.length_append, length_leBytes, length_appendField]
  omega

/-- A field is read where it was written. -/
theorem takeField_append {before value after : Bytes} {maximum : ℕ} (hlength : value.length ≤ maximum)
    (hmaximum : maximum < 256 ^ 2) (hafter : 4 ≤ after.length) :
    takeField (before ++ (appendField value ++ after)) before.length maximum =
      some (value, before.length + (2 + value.length)) := by
  have hread : readLe 2 (before ++ (appendField value ++ after)) before.length = some value.length := by
    rw [appendField, List.append_assoc]
    exact readLe_append before _ rfl (by omega)
  have hroom : ¬ (value.length > maximum ∨
      before.length + 2 + value.length > (before ++ (appendField value ++ after)).length - 4) := by
    rw [List.length_append, List.length_append, length_appendField]
    omega
  have hvalue : ((before ++ (appendField value ++ after)).drop (before.length + 2)).take value.length = value := by
    have hassoc : before ++ (appendField value ++ after) = (before ++ leBytes 2 value.length) ++ (value ++ after) := by
      simp only [appendField, List.append_assoc]
    rw [hassoc, List.drop_left' (by rw [List.length_append, length_leBytes]), List.take_left']
    rfl
  unfold takeField
  rw [hread]
  simp only [Option.bind_eq_bind, Option.bind_some]
  rw [if_neg hroom, hvalue, Nat.add_assoc]
  rfl

/-- **What is encoded is decoded to itself.** -/
theorem decode_encode {journal : Journal} (h : Fits journal) : decode (encode journal) = some journal := by
  obtain ⟨hgeneration, htoken, hsalt, hhash⟩ := h
  have hcrc : (crc32 (encodedBody journal)).toNat < 256 ^ 4 := (crc32 (encodedBody journal)).toNat_lt
  have hbody := length_encodedBody journal
  have hpositive : journal.previousConfigGeneration.toNat ≠ 0 := by
    intro hzero
    exact hgeneration (UInt64.toNat_inj.mp hzero)
  rw [encode, if_pos ⟨hgeneration, htoken, hsalt, hhash⟩]
  generalize hchecksum : leBytes 4 (crc32 (encodedBody journal)).toNat = checksum
  have hlength : checksum.length = 4 := by rw [← hchecksum, length_leBytes]
  have hend : (encodedBody journal ++ checksum).length - 4 = (encodedBody journal).length := by
    rw [List.length_append, hlength, Nat.add_sub_cancel]
  have hmagic : readLe 4 (encodedBody journal ++ checksum) 0 = some kMagic := by
    rw [encodedBody, List.append_assoc]
    exact readLe_append [] _ rfl (by decide)
  have hversion : readLe 2 (encodedBody journal ++ checksum) 4 = some kVersion := by
    simp only [encodedBody, List.append_assoc]
    exact readLe_append (leBytes 4 kMagic) _ (length_leBytes 4 _).symm (by decide)
  have hprevious : readLe 8 (encodedBody journal ++ checksum) 8 =
      some journal.previousConfigGeneration.toNat := by
    have hread := readLe_append (leBytes 4 kMagic ++ (leBytes 2 kVersion ++ leBytes 2 0))
      (appendField journal.enrollmentToken ++ (appendField journal.adminSalt ++
        (appendField journal.adminHash ++ checksum))) (show 8 = _ by simp)
      (show journal.previousConfigGeneration.toNat < 256 ^ 8 from journal.previousConfigGeneration.toNat_lt)
    simpa only [encodedBody, List.append_assoc] using hread
  have hexpected : readLe 4 (encodedBody journal ++ checksum) ((encodedBody journal ++ checksum).length - 4) =
      some (crc32 (encodedBody journal)).toNat := by
    rw [hend, ← List.append_nil checksum, ← hchecksum]
    exact readLe_append (encodedBody journal) [] rfl hcrc
  have htake : (encodedBody journal ++ checksum).take ((encodedBody journal ++ checksum).length - 4) =
      encodedBody journal := by
    rw [hend]
    exact List.take_left
  have hheader : (leBytes 4 kMagic ++ (leBytes 2 kVersion ++
      (leBytes 2 0 ++ leBytes 8 journal.previousConfigGeneration.toNat))).length = 16 := by
    simp only [List.length_append, length_leBytes]
  generalize hheaderEq : leBytes 4 kMagic ++ (leBytes 2 kVersion ++
    (leBytes 2 0 ++ leBytes 8 journal.previousConfigGeneration.toNat)) = header at hheader
  have hlayout : encodedBody journal ++ checksum = header ++ (appendField journal.enrollmentToken ++
      (appendField journal.adminSalt ++ (appendField journal.adminHash ++ checksum))) := by
    rw [← hheaderEq]
    simp only [encodedBody, List.append_assoc]
  have hfirst : takeField (encodedBody journal ++ checksum) 16 kMaximumTokenLength =
      some (journal.enrollmentToken, 18 + journal.enrollmentToken.length) := by
    have hfield := @takeField_append header journal.enrollmentToken (appendField journal.adminSalt ++
      (appendField journal.adminHash ++ checksum)) _ htoken (by decide)
      (by rw [List.length_append, List.length_append]; omega)
    rw [hlayout, ← hheader, hfield, hheader]
    congr 2
    omega
  have hsecond : takeField (encodedBody journal ++ checksum) (18 + journal.enrollmentToken.length)
      kMaximumCredentialPartLength =
        some (journal.adminSalt, 20 + journal.enrollmentToken.length + journal.adminSalt.length) := by
    have hfield := @takeField_append (header ++ appendField journal.enrollmentToken) journal.adminSalt
      (appendField journal.adminHash ++ checksum) _ hsalt (by decide) (by rw [List.length_append]; omega)
    have hbefore : (header ++ appendField journal.enrollmentToken).length = 18 + journal.enrollmentToken.length := by
      rw [List.length_append, length_appendField, hheader]
      omega
    rw [hlayout, ← List.append_assoc header, ← hbefore, hfield, hbefore]
    congr 2
    omega
  have hthird : takeField (encodedBody journal ++ checksum)
      (20 + journal.enrollmentToken.length + journal.adminSalt.length) kMaximumCredentialPartLength =
        some (journal.adminHash, (encodedBody journal).length) := by
    have hfield := @takeField_append (header ++ appendField journal.enrollmentToken ++ appendField journal.adminSalt)
      journal.adminHash checksum _ hhash (by decide) (by omega)
    have hbefore : (header ++ appendField journal.enrollmentToken ++ appendField journal.adminSalt).length =
        20 + journal.enrollmentToken.length + journal.adminSalt.length := by
      rw [List.length_append, List.length_append, length_appendField, length_appendField, hheader]
      omega
    rw [hlayout, ← List.append_assoc header, ← List.append_assoc (header ++ _), ← hbefore, hfield, hbefore, hbody]
    congr 2
    omega
  unfold decode
  rw [if_neg (by rw [List.length_append, hlength, hbody, kHeaderSize]; omega), hmagic, hversion, hprevious, hexpected]
  simp only [Option.bind_eq_bind, Option.bind_some]
  rw [htake, if_neg (by simp [hpositive]), hfirst]
  simp only [Option.bind_some]
  rw [hsecond]
  simp only [Option.bind_some]
  rw [hthird]
  simp only [Option.bind_some]
  rw [hend, if_neg (not_not.mpr rfl), UInt64.ofNat_toNat]
  rfl

end PowerMonitor.Config.ProvisioningTransaction

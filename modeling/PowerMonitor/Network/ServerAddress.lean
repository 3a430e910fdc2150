import PowerMonitor.Lib.Decimal
import PowerMonitor.Lib.Delimited

/-! # The server's address

The address is checked when it is configured (`validHttpsBaseUrl`), and taken apart again at each connection, by the
server's client (`ServerSync`) and by the updater (`OtaService`), each with its own parser. What the first accepts the
other two read alike.

* `validPort_iff`, `validDnsHost_spec`: the loops of the checks.
* `httpsTarget_agrees`: **the configured address is the one that is connected to**. -/

namespace PowerMonitor.Network.ServerAddress

open PowerMonitor.Lib.Binary PowerMonitor.Lib.Scan PowerMonitor.Lib.Decimal PowerMonitor.Lib.Delimited

/-! ### Checks of the configuration -/

/-- The value of a port, as long as it is no more than 65535. -/
def portValue (numeric : ℕ) : Bytes → Option ℕ
  | [] => some numeric
  | digit :: port =>
    if numeric * 10 + (digit.toNat - 48) > 65535 then none else portValue (numeric * 10 + (digit.toNat - 48)) port

def validPort (port : Bytes) : Bool :=
  port ≠ [] && port.all isDigit && (portValue 0 port).any fun numeric => decide (numeric ≥ 1)

/-- The labels the loops visit: nothing follows a final dot, or an empty host. -/
def labels (host : Bytes) : List Bytes :=
  let parts := host.splitOn 46
  if parts.getLast? = some [] then parts.dropLast else parts

def validIpv4Host (host : Bytes) : Bool :=
  (labels host).all (fun part => part ≠ [] && decide (part.length ≤ 3) && part.all isDigit && decide (decimalValue part ≤ 255)) &&
    (labels host).length == 4

def isAlnum (b : UInt8) : Bool := isDigit b || (65 ≤ b && b ≤ 90) || (97 ≤ b && b ≤ 122)

def validDnsHost (host : Bytes) : Bool :=
  if host = [] ∨ host.length > 253 ∨ host.head? = some 46 ∨ host.getLast? = some 46 then false
  else
    let valid := (labels host).all fun label =>
      label ≠ [] && decide (label.length ≤ 63) && label.head? != some 45 && label.getLast? != some 45 &&
        label.all fun b => isAlnum b || b == 45
    let allNumericOrDot := (labels host).all fun label => label.all isDigit
    valid && (!allNumericOrDot || validIpv4Host host)

def isControl (b : UInt8) : Bool := b < 32 || b == 127

/-- The text after `https://`, if there is any. -/
def afterScheme (url : Bytes) : Option Bytes :=
  if (ascii "https://").isPrefixOf url ∧ url.length > 8 then some (url.drop 8) else none

def validHttpsBaseUrl (url : Bytes) : Bool :=
  match afterScheme url with
  | none => false
  | some authority =>
    if authority.any (fun b => b ∈ ascii "/?#\\@") ∨ authority.any (fun b => isSpace b || isControl b) then false
    else if authority.head? = some 91 then false
    else
      match cutLast 58 authority with
      | (host, some port) => 58 ∉ host && validDnsHost host && validPort port
      | (host, none) => validDnsHost host

/-! ### The parsers -/

/-- `strtoul` of a text of digits: the number, or the largest of 32 bits. -/
def strtoul (digits : Bytes) : ℕ := min (decimalValue digits) (2 ^ 32 - 1)

/-- The authority, and the path, query or fragment after it. -/
def splitAuthority (rest : Bytes) : Bytes × Bytes :=
  (rest.takeWhile (· ∉ ascii "/?#"), rest.dropWhile (· ∉ ascii "/?#"))

/-- The server's client: nothing but a slash may follow the authority. -/
def ServerSync.parseHttpsTarget (url : Bytes) : Option (Bytes × ℕ) := do
  let rest ← afterScheme url
  let (authority, path) := splitAuthority rest
  if authority = [] ∨ 64 ∈ authority ∨ authority.head? = some 91 ∨ 93 ∈ authority then none
  if path ≠ [] ∧ path ≠ ascii "/" then none
  let (host, port) := cutLast 58 authority
  if host = [] ∨ 58 ∈ host ∨ host.any isSpace then none
  match port with
  | none => return (host, 443)
  | some port =>
    if port = [] ∨ ¬ port.all isDigit ∨ strtoul port = 0 ∨ strtoul port > 65535 then none
    return (host, strtoul port)

/-- The host and the text of the port, for the updater: an address in brackets, or a name with at most one colon. -/
def OtaService.splitHost (authority : Bytes) : Option (Bytes × Bytes) :=
  if authority.head? = some 91 then
    match cutAt 93 authority with
    | (_, none) => none
    | (bracketed, some rest) =>
      if bracketed.length = 1 then none
      else
        match rest with
        | [] => some (bracketed.drop 1, [])
        | mark :: port => if mark ≠ 58 then none else some (bracketed.drop 1, port)
  else
    match cutLast 58 authority with
    | (host, some port) => if 58 ∈ host then none else some (host, port)
    | (host, none) => some (host, [])

/-- The updater: any path and query may follow. -/
def OtaService.parseHttpsTarget (url : Bytes) : Option (Bytes × ℕ) := do
  if ¬ (ascii "https://").isPrefixOf url then none
  let (authority, path) := splitAuthority (url.drop 8)
  if path.head? = some 35 ∨ authority = [] ∨ 64 ∈ authority ∨ 92 ∈ authority then none
  let (host, port) ← OtaService.splitHost authority
  if port ≠ [] then
    if ¬ port.all isDigit ∨ strtoul port = 0 ∨ strtoul port > 65535 then none
    if host = [] then none
    return (host, strtoul port)
  else if authority.getLast? = some 58 then none
  else if host = [] then none
  else return (host, 443)

/-! ### The port -/

theorem portValue_eq (port : Bytes) {numeric : ℕ} (h : numeric ≤ 65535) :
    portValue numeric port =
      if numeric * 10 ^ port.length + decimalValue port ≤ 65535 then
        some (numeric * 10 ^ port.length + decimalValue port)
      else none := by
  induction port generalizing numeric with
  | nil => simp [portValue, decimalValue, h]
  | cons b port ih =>
    have hvalue : numeric * 10 ^ (b :: port).length + decimalValue (b :: port) =
        (numeric * 10 + (b.toNat - 48)) * 10 ^ port.length + decimalValue port := by
      rw [decimalValue_cons, List.length_cons, pow_succ]
      ring
    rw [portValue, hvalue]
    split
    · -- the value so far is a lower bound of the whole value
      have hle := Nat.le_mul_of_pos_right (numeric * 10 + (b.toNat - 48)) (Nat.pow_pos (n := port.length) (by omega : 0 < 10))
      rw [if_neg (by omega)]
    · exact ih (by omega)

theorem validPort_iff (port : Bytes) :
    validPort port = true ↔ port ≠ [] ∧ Digits port ∧ 1 ≤ decimalValue port ∧ decimalValue port ≤ 65535 := by
  have hvalue : portValue 0 port = if decimalValue port ≤ 65535 then some (decimalValue port) else none := by
    simpa using portValue_eq port (Nat.zero_le _)
  have hport : ((portValue 0 port).any fun numeric => decide (numeric ≥ 1)) = true ↔
      1 ≤ decimalValue port ∧ decimalValue port ≤ 65535 := by
    rw [hvalue]
    split
    · simp [*]
    · simp [*]
  simp only [validPort, Bool.and_eq_true, decide_eq_true_eq, hport, List.all_eq_true, Digits, and_assoc]

theorem strtoul_eq {port : Bytes} (h : strtoul port ≤ 65535) : strtoul port = decimalValue port := by
  unfold strtoul at *
  omega

theorem strtoul_of_le {port : Bytes} (h : decimalValue port ≤ 65535) : strtoul port = decimalValue port := by
  unfold strtoul
  omega

/-! ### The host -/

/-- A label of a name: 1 to 63 letters, digits and hyphens, with no hyphen at either end. -/
structure DnsLabel (label : Bytes) : Prop where
  ne_nil : label ≠ []
  length : label.length ≤ 63
  first : label.head? ≠ some 45
  last : label.getLast? ≠ some 45
  bytes : ∀ b ∈ label, isAlnum b = true ∨ b = 45

/-- A DNS name: labels with dots between them, not all of them numbers. -/
structure DnsName (labels : List Bytes) : Prop where
  ne_nil : labels ≠ []
  label : ∀ label ∈ labels, DnsLabel label
  named : ∃ label ∈ labels, ¬ Digits label

/-- An IPv4 address: four numbers of at most three digits and at most 255. -/
structure Ipv4Parts (parts : List Bytes) : Prop where
  four : parts.length = 4
  part : ∀ part ∈ parts, part ≠ [] ∧ part.length ≤ 3 ∧ Digits part ∧ decimalValue part ≤ 255

/-- A host of a server: an address or a name, within the length of a name. -/
structure ServerHost (host : Bytes) : Prop where
  ne_nil : host ≠ []
  length : host.length ≤ 253
  shape : ∃ parts, host = [46].intercalate parts ∧ (Ipv4Parts parts ∨ DnsName parts)
  bytes : ∀ b ∈ host, isAlnum b = true ∨ b = 45 ∨ b = 46

theorem labels_eq {host : Bytes} (hne : host ≠ []) (hlast : host.getLast? ≠ some 46) : labels host = host.splitOn 46 := by
  unfold labels
  exact if_neg (getLast?_splitOn_ne hne hlast)

theorem validIpv4Host_parts {host : Bytes} (h : validIpv4Host host = true) : Ipv4Parts (labels host) := by
  simp only [validIpv4Host, Bool.and_eq_true, List.all_eq_true, decide_eq_true_eq, beq_iff_eq, and_assoc] at h
  exact ⟨h.2, h.1⟩

theorem validDnsHost_spec {host : Bytes} (h : validDnsHost host = true) : ServerHost host := by
  unfold validDnsHost at h
  split at h
  · cases h
  · next hends =>
    obtain ⟨hne, hlength, -, hlast⟩ : host ≠ [] ∧ host.length ≤ 253 ∧ host.head? ≠ some 46 ∧ host.getLast? ≠ some 46 := by
      simpa only [not_or, not_lt] using hends
    simp only [Bool.and_eq_true, List.all_eq_true, decide_eq_true_eq, bne_iff_ne, Bool.or_eq_true, beq_iff_eq,
      Bool.not_eq_true'] at h
    have hlabel : ∀ label ∈ labels host, DnsLabel label := fun label hl => by
      obtain ⟨⟨⟨⟨hne, hlength⟩, hfirst⟩, hlast⟩, hbytes⟩ := h.1 label hl
      exact ⟨hne, hlength, hfirst, hlast, hbytes⟩
    have hjoin : host = [46].intercalate (labels host) := by
      rw [labels_eq hne hlast, List.intercalate_splitOn]
    refine ⟨hne, hlength, ⟨labels host, hjoin, ?_⟩, fun b hb => ?_⟩
    · rcases h.2 with hnumeric | haddress
      · have hlabels : labels host ≠ [] := fun hnil => hne (by rw [hjoin, hnil]; rfl)
        refine Or.inr ⟨hlabels, hlabel, ?_⟩
        rw [List.all_eq_false] at hnumeric
        obtain ⟨label, hl, hdigits⟩ := hnumeric
        exact ⟨label, hl, fun hall => hdigits (List.all_eq_true.mpr hall)⟩
      · exact Or.inl (validIpv4Host_parts haddress)
    · rw [hjoin] at hb
      rcases mem_of_mem_intercalate hb with rfl | ⟨label, hl, hb⟩
      · exact Or.inr (Or.inr rfl)
      · rcases (hlabel label hl).bytes b hb with hb | hb
        · exact Or.inl hb
        · exact Or.inr (Or.inl hb)

/-! ### The shape of an address -/

/-- A host, and a port behind a colon if there is one. -/
def authorityText (host : Bytes) (port : Option Bytes) : Bytes := host ++ port.elim [] (58 :: ·)

/-- The text of an address. -/
def addressText (host : Bytes) (port : Option Bytes) : Bytes := ascii "https://" ++ authorityText host port

/-- The bytes of a host and of a port, by their numbers. -/
theorem isAlnum_bounds {b : UInt8} (h : isAlnum b = true) :
    48 ≤ b.toNat ∧ b.toNat ≤ 57 ∨ 65 ≤ b.toNat ∧ b.toNat ≤ 90 ∨ 97 ≤ b.toNat ∧ b.toNat ≤ 122 := by
  simpa [isAlnum, isDigit, UInt8.le_iff_toNat_le, or_assoc] using h

theorem bounds_of_mem {host : Bytes} (h : ServerHost host) {b : UInt8} (hb : b ∈ host) :
    45 ≤ b.toNat ∧ b.toNat ≠ 47 ∧ b.toNat ≤ 57 ∨ 65 ≤ b.toNat ∧ b.toNat ≤ 90 ∨ 97 ≤ b.toNat ∧ b.toNat ≤ 122 := by
  rcases h.bytes b hb with hb | rfl | rfl
  · have := isAlnum_bounds hb
    omega
  · simp
  · simp

/-- A byte of an authority: of a name, of a number, or a colon. -/
def Plain (b : UInt8) : Prop :=
  45 ≤ b.toNat ∧ b.toNat ≠ 47 ∧ b.toNat ≤ 58 ∨ 65 ≤ b.toNat ∧ b.toNat ≤ 90 ∨ 97 ≤ b.toNat ∧ b.toNat ≤ 122

theorem Plain.notMem {bytes : Bytes} (h : ∀ b ∈ bytes, Plain b) {c : UInt8} (hc : ¬ Plain c) : c ∉ bytes :=
  fun hmem => hc (h c hmem)

theorem Plain.visible {b : UInt8} (h : Plain b) : isSpace b = false ∧ isControl b = false := by
  unfold Plain at h
  constructor
  · rw [← Bool.not_eq_true]
    simp only [isSpace, Bool.or_eq_true, Bool.and_eq_true, decide_eq_true_eq, beq_iff_eq, UInt8.le_iff_toNat_le,
      ← UInt8.toNat_inj, UInt8.reduceToNat]
    omega
  · rw [← Bool.not_eq_true]
    simp only [isControl, Bool.or_eq_true, decide_eq_true_eq, beq_iff_eq, UInt8.lt_iff_toNat_lt,
      ← UInt8.toNat_inj, UInt8.reduceToNat]
    omega

theorem plain_of_host {host : Bytes} (h : ServerHost host) : ∀ b ∈ host, Plain b := fun b hb => by
  have := bounds_of_mem h hb
  unfold Plain
  omega

theorem colon_notMem {host : Bytes} (h : ServerHost host) : 58 ∉ host := fun hmem => by
  have := bounds_of_mem h hmem
  simp at this

theorem colon_notMem_digits {port : Bytes} (h : Digits port) : 58 ∉ port := fun hmem => by
  have := digit_le (h 58 hmem)
  simp at this

theorem plain_authority {host : Bytes} {port : Option Bytes} (hhost : ServerHost host) (hport : ∀ text ∈ port, Digits text) :
    ∀ b ∈ authorityText host port, Plain b := fun b hb => by
  rcases List.mem_append.mp hb with hb | hb
  · exact plain_of_host hhost b hb
  · cases port with
    | none => cases hb
    | some text =>
      rcases List.mem_cons.mp hb with rfl | hb
      · simp [Plain]
      · have := digit_le (hport text rfl b hb)
        unfold Plain
        omega

/-- The last colon parts host and port. -/
theorem cutLast_authority {host : Bytes} {port : Option Bytes} (hhost : 58 ∉ host) (hport : ∀ text ∈ port, 58 ∉ text) :
    cutLast 58 (authorityText host port) = (host, port) := by
  cases port with
  | none =>
    simp only [authorityText, Option.elim_none, List.append_nil]
    exact cutLast_of_notMem hhost
  | some text => exact cutLast_append (hport text rfl) host

theorem afterScheme_eq_some (url rest : Bytes) : afterScheme url = some rest ↔ url = ascii "https://" ++ rest ∧ rest ≠ [] := by
  unfold afterScheme
  constructor
  · intro h
    split at h
    · next hurl =>
      obtain ⟨tail, htail⟩ := List.isPrefixOf_iff_prefix.mp hurl.1
      obtain rfl : url.drop 8 = rest := by simpa using h
      rw [← htail] at hurl ⊢
      refine ⟨rfl, fun hnil => ?_⟩
      have hlength : (ascii "https://").length = 8 := rfl
      have : tail = [] := hnil
      simp [this, hlength] at hurl
    · cases h
  · rintro ⟨rfl, hne⟩
    have hpos := List.length_pos_iff.mpr hne
    have hlength : (ascii "https://" ++ rest).length > 8 := by
      rw [List.length_append, show (ascii "https://").length = 8 from rfl]
      omega
    exact if_pos ⟨List.isPrefixOf_iff_prefix.mpr (List.prefix_append _ _), hlength⟩

theorem afterScheme_addressText {host : Bytes} (hne : host ≠ []) (port : Option Bytes) :
    afterScheme (addressText host port) = some (authorityText host port) := by
  rw [afterScheme_eq_some]
  exact ⟨rfl, fun hnil => hne (List.append_eq_nil_iff.mp hnil).1⟩

theorem authorityText_cutLast (authority : Bytes) :
    authority = authorityText (cutLast 58 authority).1 (cutLast 58 authority).2 := by
  rcases cutLast_cases 58 authority with ⟨-, hcut⟩ | ⟨host, port, -, hjoin, hcut⟩
  · rw [hcut]
    simp [authorityText]
  · rw [hcut]
    simpa [authorityText] using hjoin

/-- **What the configuration accepts**: the scheme, a host and possibly a port. -/
theorem validHttpsBaseUrl_iff (url : Bytes) :
    validHttpsBaseUrl url = true ↔
      ∃ host port, url = addressText host port ∧ validDnsHost host = true ∧ ∀ text ∈ port, validPort text = true := by
  constructor
  · intro h
    unfold validHttpsBaseUrl at h
    split at h
    · cases h
    · next authority hafter =>
      rw [afterScheme_eq_some] at hafter
      split at h
      · cases h
      · split at h
        · cases h
        · have hjoin := authorityText_cutLast authority
          have hurl : url = addressText (cutLast 58 authority).1 (cutLast 58 authority).2 := by
            rw [addressText, ← hjoin]
            exact hafter.1
          refine ⟨(cutLast 58 authority).1, (cutLast 58 authority).2, hurl, ?_⟩
          split at h
          · next host port hcut =>
            simp only [Bool.and_eq_true] at h
            rw [hcut]
            exact ⟨h.1.2, fun text ht => by cases ht; exact h.2⟩
          · next host hcut =>
            rw [hcut]
            exact ⟨h, fun text ht => by cases ht⟩
  · rintro ⟨host, port, rfl, hvalid, hport⟩
    have hhost := validDnsHost_spec hvalid
    have hdigits : ∀ text ∈ port, Digits text := fun text ht => ((validPort_iff text).mp (hport text ht)).2.1
    have hplain := plain_authority hhost hdigits
    unfold validHttpsBaseUrl
    rw [afterScheme_addressText hhost.ne_nil]
    dsimp only
    rw [if_neg, if_neg, cutLast_authority (colon_notMem hhost) fun text ht => colon_notMem_digits (hdigits text ht)]
    · cases port with
      | none => exact hvalid
      | some text => simp [hvalid, hport text rfl, colon_notMem hhost]
    · intro hbracket
      have := hplain 91 (List.mem_of_mem_head? hbracket)
      simp [Plain] at this
    · rintro (hany | hany)
      · obtain ⟨b, hb, hmem⟩ := List.any_eq_true.mp hany
        have hb := hplain b hb
        have hnot : ∀ c ∈ ascii "/?#\\@", ¬ Plain c := by
          simp [ascii, Plain]
        exact hnot b (of_decide_eq_true hmem) hb
      · obtain ⟨b, hb, hmem⟩ := List.any_eq_true.mp hany
        have hvisible := (hplain b hb).visible
        simp [hvisible] at hmem

/-! ### The parsers on an address -/

theorem splitAuthority_append {authority path : Bytes} (hauthority : ∀ b ∈ authority, b ∉ ascii "/?#")
    (hpath : ∀ b ∈ path.head?, b ∈ ascii "/?#") : splitAuthority (authority ++ path) = (authority, path) := by
  have hkeep : ∀ b ∈ authority, (decide (b ∉ ascii "/?#")) = true := fun b hb => decide_eq_true (hauthority b hb)
  unfold splitAuthority
  rw [List.takeWhile_append_of_pos hkeep, List.dropWhile_append_of_pos hkeep]
  cases path with
  | nil => simp
  | cons b path =>
    have hb : ¬ (decide (b ∉ ascii "/?#")) = true := by simpa using hpath b rfl
    rw [List.takeWhile_cons, List.dropWhile_cons, if_neg hb, if_neg hb, List.append_nil]

theorem splitAuthority_join (rest : Bytes) : (splitAuthority rest).1 ++ (splitAuthority rest).2 = rest :=
  List.takeWhile_append_dropWhile

/-- The port of an address: the default one if none is given. -/
def targetPort (port : Option Bytes) : ℕ := port.elim 443 decimalValue

section Address

variable {host : Bytes} {port : Option Bytes} (hhost : ServerHost host) (hport : ∀ text ∈ port, validPort text = true)

include hhost hport

theorem plain_address : ∀ b ∈ authorityText host port, Plain b :=
  plain_authority hhost fun text ht => ((validPort_iff text).mp (hport text ht)).2.1

theorem cutLast_address : cutLast 58 (authorityText host port) = (host, port) :=
  cutLast_authority (colon_notMem hhost) fun text ht => colon_notMem_digits ((validPort_iff text).mp (hport text ht)).2.1

theorem splitAuthority_address {path : Bytes} (hpath : ∀ b ∈ path.head?, b ∈ ascii "/?#") :
    splitAuthority (authorityText host port ++ path) = (authorityText host port, path) := by
  refine splitAuthority_append (fun b hb hmem => ?_) hpath
  have hnot : ∀ c ∈ ascii "/?#", ¬ Plain c := by simp [ascii, Plain]
  exact hnot b hmem (plain_address hhost hport b hb)

/-- **The client reads the host and the port of an address.** -/
theorem ServerSync.parseHttpsTarget_address :
    ServerSync.parseHttpsTarget (addressText host port) = some (host, targetPort port) := by
  have hplain := plain_address hhost hport
  have hne : authorityText host port ≠ [] := fun hnil => hhost.ne_nil (List.append_eq_nil_iff.mp hnil).1
  have hsplit := @splitAuthority_address host port hhost hport [] (by simp)
  rw [List.append_nil] at hsplit
  have hat : 64 ∉ authorityText host port := Plain.notMem hplain (by simp [Plain])
  have hopen : (authorityText host port).head? ≠ some 91 := fun h =>
    Plain.notMem hplain (by simp [Plain]) (List.mem_of_mem_head? h)
  have hclose : 93 ∉ authorityText host port := Plain.notMem hplain (by simp [Plain])
  have hspace : host.any isSpace = false := by
    rw [List.any_eq_false]
    exact fun b hb => by simp [(plain_of_host hhost b hb).visible]
  unfold ServerSync.parseHttpsTarget
  rw [afterScheme_addressText hhost.ne_nil]
  simp only [Option.bind_eq_bind, Option.bind_some, hsplit, cutLast_address hhost hport]
  simp only [hne, hat, hopen, hclose, or_self, if_false, ne_eq, not_true_eq_false, false_and, hhost.ne_nil,
    colon_notMem hhost, hspace, Bool.false_eq_true]
  cases port with
  | none => rfl
  | some text =>
    obtain ⟨htext, hdigits, hlow, hhigh⟩ := (validPort_iff text).mp (hport text rfl)
    have hall : text.all isDigit = true := List.all_eq_true.mpr hdigits
    have hvalue := strtoul_of_le hhigh
    simp only [htext, hall, hvalue, not_true_eq_false, false_or]
    rw [if_neg (by omega)]
    rfl

/-- **The updater reads the same host and port, whatever path follows.** -/
theorem OtaService.parseHttpsTarget_address {path : Bytes} (hpath : path.head? = some 47) :
    OtaService.parseHttpsTarget (addressText host port ++ path) = some (host, targetPort port) := by
  have hplain := plain_address hhost hport
  have hne : authorityText host port ≠ [] := fun hnil => hhost.ne_nil (List.append_eq_nil_iff.mp hnil).1
  have hsplit := @splitAuthority_address host port hhost hport path (by simp [hpath, ascii])
  have hat : 64 ∉ authorityText host port := Plain.notMem hplain (by simp [Plain])
  have hback : 92 ∉ authorityText host port := Plain.notMem hplain (by simp [Plain])
  have hopen : (authorityText host port).head? ≠ some 91 := fun h =>
    Plain.notMem hplain (by simp [Plain]) (List.mem_of_mem_head? h)
  have hscheme : (ascii "https://").isPrefixOf (addressText host port ++ path) = true := by
    rw [List.isPrefixOf_iff_prefix, addressText, List.append_assoc]
    exact List.prefix_append _ _
  have hrest : (addressText host port ++ path).drop 8 = authorityText host port ++ path := rfl
  have hhostport : OtaService.splitHost (authorityText host port) = some (host, port.getD []) := by
    unfold OtaService.splitHost
    rw [if_neg hopen, cutLast_address hhost hport]
    cases port with
    | none => rfl
    | some text => exact if_neg (colon_notMem hhost)
  unfold OtaService.parseHttpsTarget
  simp only [hscheme, hrest, hsplit, not_true_eq_false, if_false, hpath, Option.some.injEq, hne, hat, hback, or_self,
    show (47 : UInt8) ≠ 35 by decide, hhostport, Option.bind_eq_bind, Option.bind_some]
  cases port with
  | none =>
    have hlast : (authorityText host none).getLast? ≠ some 58 := fun h =>
      colon_notMem hhost (by simpa [authorityText] using List.mem_of_getLast? h)
    simp [hlast, hhost.ne_nil, targetPort]
  | some text =>
    obtain ⟨htext, hdigits, hlow, hhigh⟩ := (validPort_iff text).mp (hport text rfl)
    have hall : text.all isDigit = true := List.all_eq_true.mpr hdigits
    have hvalue := strtoul_of_le hhigh
    simp only [Option.getD_some, ne_eq, htext, not_false_eq_true, if_true, hall, hvalue, not_true_eq_false, false_or,
      hhost.ne_nil, if_false]
    have hbounds : ¬ (decimalValue text = 0 ∨ decimalValue text > 65535) := by omega
    rw [if_neg hbounds]
    rfl

end Address

/-! ### The two agree -/

/-- The client takes an address apart at its last colon, and takes no other port than the configuration. -/
theorem ServerSync.parseHttpsTarget_cases {url host : Bytes} {port : ℕ} (h : ServerSync.parseHttpsTarget url = some (host, port)) :
    url.getLast? = some 47 ∨ ∃ text, url = addressText host text ∧ ∀ digits ∈ text, validPort digits = true := by
  unfold ServerSync.parseHttpsTarget at h
  simp only [Option.bind_eq_bind, Option.bind_eq_some_iff] at h
  obtain ⟨rest, hrest, h⟩ := h
  rw [afterScheme_eq_some] at hrest
  have hjoin := splitAuthority_join rest
  split at h
  · simp at h
  · split at h
    · simp at h
    · next hpath =>
      split at h
      · simp at h
      · by_cases hslash : (splitAuthority rest).2 = ascii "/"
        · -- a slash ends the text
          rw [hslash] at hjoin
          rw [hrest.1, ← hjoin, ← List.append_assoc]
          exact Or.inl List.getLast?_concat
        · have hnil : (splitAuthority rest).2 = [] := by
            by_contra hne
            exact hpath ⟨hne, hslash⟩
          rw [hnil, List.append_nil] at hjoin
          rw [hjoin] at h
          have hurl : url = addressText (cutLast 58 rest).1 (cutLast 58 rest).2 := by
            rw [addressText, ← authorityText_cutLast]
            exact hrest.1
          refine Or.inr ⟨(cutLast 58 rest).2, ?_⟩
          split at h
          · next hnone =>
            obtain ⟨rfl, -⟩ : (cutLast 58 rest).1 = host ∧ 443 = port := by simpa using h
            exact ⟨hurl, fun digits hd => by rw [hnone] at hd; cases hd⟩
          · next text htext =>
            split at h
            · simp at h
            · next hport =>
              obtain ⟨rfl, -⟩ : (cutLast 58 rest).1 = host ∧ strtoul text = port := by simpa using h
              refine ⟨hurl, fun digits hd => ?_⟩
              rw [htext] at hd
              cases hd
              simp only [not_or, not_not, not_lt] at hport
              obtain ⟨hne, hall, hzero, hhigh⟩ := hport
              rw [strtoul_eq hhigh] at hzero hhigh
              exact (validPort_iff text).mpr ⟨hne, List.all_eq_true.mp hall, by omega, hhigh⟩

/-- **The configured address is the one that is connected to.** -/
theorem httpsTarget_agrees :
    (∀ url, validHttpsBaseUrl url = true →
      ∃ host port, url = addressText host port ∧ ServerHost host ∧ (∀ b ∈ host, b ∉ ascii ":/@" ∧ isSpace b = false) ∧
        (∀ text ∈ port, text ≠ [] ∧ Digits text ∧ 1 ≤ decimalValue text ∧ decimalValue text ≤ 65535) ∧
        ServerSync.parseHttpsTarget url = some (host, targetPort port) ∧
        ∀ path, path.head? = some 47 → OtaService.parseHttpsTarget (url ++ path) = some (host, targetPort port)) ∧
      ∀ url host port, ServerSync.parseHttpsTarget url = some (host, port) → validHttpsBaseUrl url = false →
        url.getLast? = some 47 ∨ validDnsHost host = false := by
  refine ⟨fun url h => ?_, fun url host port h hrefused => ?_⟩
  · obtain ⟨host, port, rfl, hvalid, hport⟩ := (validHttpsBaseUrl_iff url).mp h
    have hhost := validDnsHost_spec hvalid
    refine ⟨host, port, rfl, hhost, fun b hb => ⟨fun hmem => ?_, (plain_of_host hhost b hb).visible.1⟩,
      fun text ht => (validPort_iff text).mp (hport text ht), ServerSync.parseHttpsTarget_address hhost hport,
      fun path hpath => OtaService.parseHttpsTarget_address hhost hport hpath⟩
    have hbounds := bounds_of_mem hhost hb
    have hmarks : b = 58 ∨ b = 47 ∨ b = 64 := by simpa [ascii] using hmem
    rcases hmarks with rfl | rfl | rfl <;> simp at hbounds
  · rcases ServerSync.parseHttpsTarget_cases h with hslash | ⟨text, hurl, htext⟩
    · exact Or.inl hslash
    · refine Or.inr (Bool.eq_false_iff.mpr fun hvalid => ?_)
      rw [(validHttpsBaseUrl_iff url).mpr ⟨host, text, hurl, hvalid, htext⟩] at hrefused
      cases hrefused

/-- A name with a port that has a leading zero. -/
theorem httpsTarget_agrees_leading :
    validHttpsBaseUrl (ascii "https://server.example:08443") = true ∧
      ServerSync.parseHttpsTarget (ascii "https://server.example:08443") = some (ascii "server.example", 8443) ∧
      OtaService.parseHttpsTarget (ascii "https://server.example:08443" ++ ascii "/image") = some (ascii "server.example", 8443) := by
  have hvalid : validHttpsBaseUrl (ascii "https://server.example:08443") = true := by decide +kernel
  obtain ⟨host, port, hurl, hhost, hbytes, hport, hclient, hupdater⟩ := httpsTarget_agrees.1 _ hvalid
  have hread : ServerSync.parseHttpsTarget (ascii "https://server.example:08443") = some (ascii "server.example", 8443) := by
    decide +kernel
  have htarget : some (host, targetPort port) = some (ascii "server.example", 8443) := hclient.symm.trans hread
  exact ⟨hvalid, hread, (hupdater _ (by decide)).trans htarget⟩

end PowerMonitor.Network.ServerAddress

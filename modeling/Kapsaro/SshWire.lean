import Kapsaro.LengthPrefix
import Kapsaro.TextScan
import Kapsaro.Base64Variants

/-!
# SSH wire data — length-prefixed fields, and the signature blob of an agent

`io/ssh/protocol/wire.rs`, `sshsig.rs` and `parse.rs`.  A reply of an agent is not trusted, so the
reads are written out: **`indexAt`** and **`slice`** fail with `Fault.outOfBounds` where the
program would stop, and it is a result (**`parseSshsigBlob_inBounds`**) that they never do.

* **`encodeSshString`**, **`decodeSshString`** — one field, and the bytes after it;
  **`decodeSshString_ok`**: what is decoded is a framed field and its rest.
* **`parseSshsigBlob`** — the fields of a blob, each checked as it is read;
  **`parseSshsigBlob_iff`**: the accepted blobs are the ones `sshsigBlob` writes.
* **`buildSshsigSignedData`** — the bytes an agent signs; **`buildSshsigSignedData_inj`**.
* **`sshWireLaws`** — all of it together.
-/

namespace SshWire

open Limits TextLines TextScan DocumentTokens Base64Variants Envelope LengthPrefix

/-! ## Errors and reads -/

/-- An SSH operation that failed. -/
inductive SshError where
  | operationFailed (message : String)
deriving DecidableEq, Repr

/-- How a function that reads bytes ends when it has no result: with an error of its own, or
    stopped at a read past the end. -/
inductive Fault where
  | failed (error : SshError)
  | outOfBounds
deriving DecidableEq, Repr

def operationFailed {α : Type} (message : String) : Except Fault α :=
  .error (.failed (.operationFailed message))

/-- The result of a function that reads nothing. -/
def liftSsh {α : Type} (result : Except SshError α) : Except Fault α :=
  result.mapError .failed

/-- The byte at an index. -/
def indexAt (data : Bytes) (index : Nat) : Except Fault UInt8 :=
  match data[index]? with
  | some byte => .ok byte
  | none => .error .outOfBounds

/-- The bytes from one index up to another. -/
def slice (data : Bytes) (start stop : Nat) : Except Fault Bytes :=
  if start ≤ stop ∧ stop ≤ data.length then .ok ((data.take stop).drop start)
  else .error .outOfBounds

/-- Four bytes as a number, most significant first. -/
def readUint32 (data : Bytes) (start : Nat) : Except Fault Nat := do
  let a ← indexAt data start
  let b ← indexAt data (start + 1)
  let c ← indexAt data (start + 2)
  let d ← indexAt data (start + 3)
  pure (fromBeBytes a b c d)

/-- The width of the machine: the greatest index, which a 32-bit number never exceeds. -/
structure Platform where
  usizeMax : Nat
  wide : 2 ^ 32 ≤ usizeMax + 1

def Platform.bits32 : Platform := ⟨2 ^ 32 - 1, by decide⟩

def Platform.bits64 : Platform := ⟨2 ^ 64 - 1, by decide⟩

/-- Addition that notices when the sum is no index. -/
def Platform.checkedAdd (P : Platform) (a b : Nat) : Option Nat :=
  if a + b ≤ P.usizeMax then some (a + b) else none

/-- What holds of every slice of a program: it is no longer than the address space, or the address
    space exceeds every length a field can state. -/
def Platform.Reaches (P : Platform) (data : Bytes) : Prop :=
  2 ^ 32 + 3 ≤ P.usizeMax ∨ data.length ≤ P.usizeMax

/-! ## One field -/

/-- Bytes the length field occupies ahead of the payload. -/
def lengthPrefixSize : Nat := 4

def encodeSshString (data : Bytes) : Except SshError Bytes :=
  if data.length < 2 ^ 32 then .ok (toBeBytes data.length ++ data)
  else .error (.operationFailed
    (s!"SSH_STRING payload of {data.length} bytes exceeds the {2 ^ 32 - 1} bytes the length field "
      ++ "can state"))

def beyondAddress (len : Nat) : String :=
  s!"SSH_STRING declares {len} bytes, more than this platform can address"

def beyondData (stop got : Nat) : String :=
  s!"Expected {stop} bytes for SSH_STRING, got {got}"

/-- Decode one field: its payload and the remaining bytes. -/
def decodeSshString (P : Platform) (data : Bytes) : Except Fault (Bytes × Bytes) :=
  if data.length < lengthPrefixSize then
    operationFailed "Insufficient data for SSH_STRING length field"
  else do
    let len ← readUint32 data 0
    -- the sum may not fit an address on a 32-bit platform
    match P.checkedAdd len lengthPrefixSize with
    | none =>
      operationFailed (beyondAddress len)
    | some stop =>
      if data.length < stop then
        operationFailed (beyondData stop data.length)
      else do
        let payload ← slice data lengthPrefixSize stop
        let rest ← slice data stop data.length
        pure (payload, rest)

/-! ## Lossy text -/

/-- The bytes that may follow a first byte of a sequence. -/
def isSecondByte (first second : UInt8) : Bool :=
  if first = 0xE0 then 0xA0 ≤ second && second ≤ 0xBF
  else if first = 0xED then 0x80 ≤ second && second ≤ 0x9F
  else if first = 0xF0 then 0x90 ≤ second && second ≤ 0xBF
  else if first = 0xF4 then 0x80 ≤ second && second ≤ 0x8F
  else 0x80 ≤ second && second ≤ 0xBF

def isContinuation (byte : UInt8) : Bool :=
  0x80 ≤ byte && byte ≤ 0xBF

/-- The number of bytes a sequence has by its first byte; none starts with the others. -/
def sequenceWidth (first : UInt8) : Nat :=
  if first < 0x80 then 1
  else if 0xC2 ≤ first && first ≤ 0xDF then 2
  else if 0xE0 ≤ first && first ≤ 0xEF then 3
  else if 0xF0 ≤ first && first ≤ 0xF4 then 4
  else 0

/-- How many bytes after the first belong to its sequence. -/
def sequenceTail (first : UInt8) (rest : Bytes) : Nat :=
  match rest with
  | [] => 0
  | second :: rest =>
    if isSecondByte first second && 1 < sequenceWidth first then
      1 + ((rest.take (sequenceWidth first - 2)).takeWhile isContinuation).length
    else 0

/-- Text of bytes that need not be UTF-8: what is no character becomes `U+FFFD`. -/
def fromUtf8LossyLoop : Nat → Bytes → List Char
  | 0, _ => []
  | _, [] => []
  | fuel + 1, first :: rest =>
    let tail := sequenceTail first rest
    let sequence := first :: rest.take tail
    let text := if sequence.length = sequenceWidth first then
      ((utf8Decode sequence).getD "\uFFFD").toList else ['\uFFFD']
    text ++ fromUtf8LossyLoop fuel (rest.drop tail)

def fromUtf8Lossy (data : Bytes) : String :=
  String.ofList (fromUtf8LossyLoop data.length data)

example : fromUtf8Lossy [0x61, 0xC3, 0xA4, 0xE2, 0x82, 0x62, 0xFF] = "aä\uFFFDb\uFFFD" := by decide

/-! ## Public key lines -/

def keyTypeEd25519 : String := "ssh-ed25519"
def attestationNamespace : String := "kapsaro-attestation"
def keyProtectionNamespace : String := "kapsaro-key-protection"

/-- The parts of a text between its runs of white space. -/
def splitWhitespace (text : List Char) : List (List Char) :=
  (text.splitOnP isWhitespace).filter fun part => !part.isEmpty

/-- Decode the base64 key blob from an OpenSSH public key line. -/
def decodeSshPublicKeyBlob (sshPubkey : String) : Except SshError Bytes :=
  let line := trim sshPubkey.toList
  if line.isEmpty then .error (.operationFailed "Public key line is empty")
  else match splitWhitespace line with
    | keyType :: blob :: _ =>
      if String.ofList keyType ≠ keyTypeEd25519 then
        .error (.operationFailed
          s!"Unsupported key type '{String.ofList keyType}': v1 only supports {keyTypeEd25519}")
      else
        (decodeBase64Standard (String.ofList blob) "base64").mapError fun e =>
          .operationFailed s!"Failed to decode base64: {e.display}"
    | _ => .error (.operationFailed s!"Invalid public key format: {String.ofList line}")

example : (decodeSshPublicKeyBlob " ssh-ed25519\tAQID me@host\n").toOption = some [1, 2, 3] := by
  decide +kernel

/-! ## Signature blobs -/

def sshsigMagic : Bytes := utf8 "SSHSIG"
def sshsigHashalg : String := "sha256"

section Blobs

variable (C : Crypto) (P : Platform)

/-- The bytes an SSH key signs for a message in a namespace. -/
def buildSshsigSignedData (message : Bytes) (namespaceText : String) : Except SshError Bytes := do
  let hash := C.sha256 message
  let namespaceField ← encodeSshString (utf8 namespaceText)
  let reserved ← encodeSshString []
  let hashalg ← encodeSshString (utf8 sshsigHashalg)
  let hashField ← encodeSshString hash.bytes
  pure (sshsigMagic ++ namespaceField ++ reserved ++ hashalg ++ hashField)

/-- Check magic and version; the bytes after them. -/
def validateSshsigHeader (blob : Bytes) : Except Fault Bytes :=
  if blob.length < 6 then
    operationFailed "SSHSIG blob too short (minimum 6 bytes required for the magic)"
  else do
    let magic ← slice blob 0 6
    if magic ≠ sshsigMagic then
      let got ← slice blob 0 (min 6 blob.length)
      operationFailed (s!"Invalid SSHSIG magic bytes (expected {sshsigMagic.map UInt8.toNat}, "
        ++ s!"got {got.map UInt8.toNat})")
    else if blob.length < 10 then
      operationFailed "SSHSIG blob too short (missing version field)"
    else
      let version ← readUint32 blob 6
      if version ≠ 1 then
        operationFailed s!"Unsupported SSHSIG version: {version} (only version 1 is supported)"
      else
        slice blob 10 blob.length

def validateNamespace (actual : Bytes) (expectedNamespace : String) : Except Fault Unit :=
  if actual ≠ utf8 expectedNamespace then
    operationFailed (s!"SSHSIG namespace mismatch: expected '{expectedNamespace}', "
      ++ s!"got '{fromUtf8Lossy actual}'")
  else pure ()

def validateReserved (reserved : Bytes) : Except Fault Unit :=
  if !reserved.isEmpty then
    operationFailed s!"SSHSIG reserved field must be empty, got {reserved.length} bytes"
  else pure ()

def validateHashalg (hashalg : Bytes) : Except Fault Unit :=
  if hashalg ≠ utf8 "sha256" then
    operationFailed (s!"Unsupported SSHSIG hash algorithm: '{fromUtf8Lossy hashalg}' "
      ++ "(only 'sha256' is supported)")
  else pure ()

def formatPublickeyFingerprint (publickey : Bytes) : String :=
  s!"SHA256:{encodeBase64StandardNopad (C.sha256 publickey).bytes}"

def validatePublickey (publickey : Bytes) (expectedSshPubkey : String) : Except Fault Unit := do
  let expectedPublickey ← liftSsh (decodeSshPublicKeyBlob expectedSshPubkey)
  if publickey = expectedPublickey then pure ()
  else
    operationFailed (s!"SSHSIG publickey mismatch: expected "
      ++ s!"{formatPublickeyFingerprint C expectedPublickey}, "
      ++ s!"got {formatPublickeyFingerprint C publickey}")

/-- Parse a signature blob: its signature field. -/
def parseSshsigBlob (blob : Bytes) (expectedNamespace expectedSshPubkey : String) :
    Except Fault Bytes := do
  let cursor ← validateSshsigHeader blob
  let (publickey, cursor) ← decodeSshString P cursor
  validatePublickey C publickey expectedSshPubkey
  let (namespaceField, cursor) ← decodeSshString P cursor
  validateNamespace namespaceField expectedNamespace
  let (reserved, cursor) ← decodeSshString P cursor
  validateReserved reserved
  let (hashalg, cursor) ← decodeSshString P cursor
  validateHashalg hashalg
  let (signatureBlob, rest) ← decodeSshString P cursor
  if !rest.isEmpty then
    operationFailed "SSHSIG blob contains unexpected trailing data"
  else pure signatureBlob

end Blobs

/-! ## Reads stay inside -/

@[simp] theorem liftSsh_ok {α : Type} {result : Except SshError α} {a : α} :
    liftSsh result = .ok a ↔ result = .ok a := by
  cases result with
  | error e => exact iff_of_false (fun h => by cases h) fun h => by cases h
  | ok b => exact ⟨fun h => congrArg Except.ok (Except.ok.inj h),
      fun h => congrArg Except.ok (Except.ok.inj h)⟩

/-- A computation never stops at a read past the end. -/
def InBounds {α : Type} (result : Except Fault α) : Prop :=
  result ≠ .error .outOfBounds

theorem inBounds_ok {α : Type} (a : α) : InBounds (.ok a) :=
  fun h => by cases h

theorem inBounds_operationFailed {α : Type} (message : String) :
    InBounds (operationFailed message : Except Fault α) :=
  fun h => by cases h

theorem inBounds_liftSsh {α : Type} (result : Except SshError α) : InBounds (liftSsh result) := by
  intro h
  cases result with
  | error e => cases h
  | ok a => cases h

/-- A sequence stays inside when both parts do. -/
theorem InBounds.bind {α β : Type} {x : Except Fault α} {f : α → Except Fault β}
    (hx : InBounds x) (hf : ∀ a, x = .ok a → InBounds (f a)) : InBounds (x >>= f) := by
  cases x with
  | error e =>
    intro h
    have herror : e = .outOfBounds := Except.error.inj h
    exact hx (congrArg Except.error herror)
  | ok a => exact hf a rfl

theorem InBounds.ite {α : Type} {c : Prop} [Decidable c] {x y : Except Fault α}
    (hx : c → InBounds x) (hy : ¬c → InBounds y) : InBounds (if c then x else y) := by
  by_cases hc : c
  · rw [if_pos hc]
    exact hx hc
  · rw [if_neg hc]
    exact hy hc

theorem slice_of_le {data : Bytes} {start stop : Nat} (hstart : start ≤ stop)
    (hstop : stop ≤ data.length) : slice data start stop = .ok ((data.take stop).drop start) :=
  if_pos ⟨hstart, hstop⟩

/-- The bytes from an index to the end. -/
theorem slice_rest {data : Bytes} {start : Nat} (h : start ≤ data.length) :
    slice data start data.length = .ok (data.drop start) := by
  rw [slice_of_le h (Nat.le_refl _), List.take_length]

theorem indexAt_of_lt (data : Bytes) (index : Nat) (h : index < data.length) :
    ∃ byte, indexAt data index = .ok byte := by
  refine ⟨data[index], ?_⟩
  rw [indexAt, List.getElem?_eq_getElem h]

theorem readUint32_of_lt (data : Bytes) (start : Nat) (h : start + 3 < data.length) :
    ∃ n, readUint32 data start = .ok n := by
  obtain ⟨a, ha⟩ := indexAt_of_lt data start (by omega)
  obtain ⟨b, hb⟩ := indexAt_of_lt data (start + 1) (by omega)
  obtain ⟨c, hc⟩ := indexAt_of_lt data (start + 2) (by omega)
  obtain ⟨d, hd⟩ := indexAt_of_lt data (start + 3) h
  refine ⟨fromBeBytes a b c d, ?_⟩
  rw [readUint32, ha, hb, hc, hd]
  rfl

/-! ## Decoding is the inverse of encoding -/

/-- The length the first four bytes declare. -/
def declaredLength : Bytes → Nat
  | a :: b :: c :: d :: _ => fromBeBytes a b c d
  | _ => 0

/-- At least four bytes are a length and a tail. -/
theorem exists_prefix {data : Bytes} (h : ¬ data.length < lengthPrefixSize) :
    ∃ a b c d tail, data = a :: b :: c :: d :: tail := by
  rw [lengthPrefixSize] at h
  match data, h with
  | a :: b :: c :: d :: tail, _ => exact ⟨a, b, c, d, tail, rfl⟩
  | [], h => exact absurd (by decide) h
  | [_], h => exact absurd (by decide : 1 < 4) h
  | [_, _], h => exact absurd (by decide : 2 < 4) h
  | [_, _, _], h => exact absurd (by decide : 3 < 4) h

section Decoding

variable {P : Platform}

/-- The decoder on a length and a tail, without its reads. -/
theorem decodeSshString_cons (a b c d : UInt8) (tail : Bytes) :
    decodeSshString P (a :: b :: c :: d :: tail)
      = if P.usizeMax < fromBeBytes a b c d + 4 then
          operationFailed (beyondAddress (fromBeBytes a b c d))
        else if tail.length < fromBeBytes a b c d then
          operationFailed (beyondData (fromBeBytes a b c d + 4) (tail.length + 4))
        else .ok (tail.take (fromBeBytes a b c d), tail.drop (fromBeBytes a b c d)) := by
  have hlong : ¬ (a :: b :: c :: d :: tail).length < lengthPrefixSize := by
    rw [lengthPrefixSize]
    simp only [List.length_cons]
    omega
  have hread : readUint32 (a :: b :: c :: d :: tail) 0 = .ok (fromBeBytes a b c d) := rfl
  rw [decodeSshString, if_neg hlong, hread]
  generalize fromBeBytes a b c d = len
  show (match P.checkedAdd len lengthPrefixSize with
    | none => _
    | some stop => _) = _
  rw [Platform.checkedAdd, lengthPrefixSize]
  by_cases hover : P.usizeMax < len + 4
  · rw [if_pos hover, if_neg (Nat.not_le.mpr hover)]
  · rw [if_neg hover, if_pos (Nat.not_lt.mp hover)]
    dsimp only
    by_cases hshort : tail.length < len
    · have hcut : (a :: b :: c :: d :: tail).length < len + 4 := by
        simp only [List.length_cons]
        omega
      rw [if_pos hshort, if_pos hcut]
      rfl
    · have hcut : ¬ (a :: b :: c :: d :: tail).length < len + 4 := by
        simp only [List.length_cons]
        omega
      rw [if_neg hshort, if_neg hcut, slice_of_le (by omega) (Nat.not_lt.mp hcut),
        slice_rest (Nat.not_lt.mp hcut)]
      rfl

/-- **A FIELD IS DECODED FROM ITS FRAME**, and from nothing else. -/
theorem decodeSshString_ok {data payload rest : Bytes} :
    decodeSshString P data = .ok (payload, rest)
      ↔ data = frame payload ++ rest ∧ payload.length < 2 ^ 32
        ∧ payload.length + 4 ≤ P.usizeMax := by
  constructor
  · intro h
    by_cases hshort : data.length < lengthPrefixSize
    · rw [decodeSshString, if_pos hshort] at h
      cases h
    obtain ⟨a, b, c, d, tail, rfl⟩ := exists_prefix hshort
    rw [decodeSshString_cons] at h
    by_cases hover : P.usizeMax < fromBeBytes a b c d + 4
    · rw [if_pos hover] at h
      cases h
    by_cases hcut : tail.length < fromBeBytes a b c d
    · rw [if_neg hover, if_pos hcut] at h
      cases h
    rw [if_neg hover, if_neg hcut] at h
    obtain ⟨rfl, rfl⟩ := Prod.mk.inj (Except.ok.inj h)
    have hlength : (tail.take (fromBeBytes a b c d)).length = fromBeBytes a b c d := by
      rw [List.length_take, Nat.min_eq_left (Nat.not_lt.mp hcut)]
    refine ⟨eq_frame_append (Nat.not_lt.mp hcut), ?_, ?_⟩
    · rw [hlength]
      exact fromBeBytes_lt a b c d
    · rw [hlength]
      exact Nat.not_lt.mp hover
  · rintro ⟨rfl, hlen, hfits⟩
    have hread := fromBeBytes_toBeBytes hlen
    show decodeSshString P (_ :: _ :: _ :: _ :: (payload ++ rest)) = _
    rw [decodeSshString_cons, hread, if_neg (Nat.not_lt.mpr hfits),
      if_neg (by rw [List.length_append]; omega), List.take_left, List.drop_left]

/-- **THE DECODER NEVER READS PAST THE END**. -/
theorem decodeSshString_inBounds (data : Bytes) : InBounds (decodeSshString P data) := by
  by_cases hshort : data.length < lengthPrefixSize
  · rw [decodeSshString, if_pos hshort]
    exact inBounds_operationFailed _
  · obtain ⟨a, b, c, d, tail, rfl⟩ := exists_prefix hshort
    rw [decodeSshString_cons]
    exact InBounds.ite (fun _ => inBounds_operationFailed _) fun _ =>
      InBounds.ite (fun _ => inBounds_operationFailed _) fun _ => inBounds_ok _

/-- A length field that is cut off, or declares more than follows, is an error. -/
theorem decodeSshString_overlong {data : Bytes}
    (h : data.length < 4 ∨ data.length < declaredLength data + 4) :
    ∃ message, decodeSshString P data = operationFailed message := by
  by_cases hshort : data.length < lengthPrefixSize
  · exact ⟨_, if_pos hshort⟩
  obtain ⟨a, b, c, d, tail, rfl⟩ := exists_prefix hshort
  have hcut : tail.length < fromBeBytes a b c d := by
    rw [declaredLength] at h
    simp only [List.length_cons] at h
    omega
  rw [decodeSshString_cons, if_pos hcut]
  by_cases hover : P.usizeMax < fromBeBytes a b c d + 4
  · exact ⟨_, if_pos hover⟩
  · exact ⟨_, if_neg hover⟩

end Decoding

theorem encodeSshString_ok {data encoded : Bytes} :
    encodeSshString data = .ok encoded ↔ data.length < 2 ^ 32 ∧ encoded = frame data := by
  rw [encodeSshString]
  by_cases hlen : data.length < 2 ^ 32
  · rw [if_pos hlen]
    exact ⟨fun h => ⟨hlen, (Except.ok.inj h).symm⟩, fun h => congrArg Except.ok h.2.symm⟩
  · rw [if_neg hlen]
    exact iff_of_false (fun h => by cases h) fun h => hlen h.1

/-- A field that a slice of the platform holds is one the platform can address. -/
theorem Platform.Reaches.field {P : Platform} {data payload : Bytes} (hreach : P.Reaches data)
    (hlen : payload.length < 2 ^ 32) (hheld : payload.length + 4 ≤ data.length) :
    payload.length + 4 ≤ P.usizeMax := by
  rcases hreach with hwide | hfits
  · omega
  · exact Nat.le_trans hheld hfits

/-! ## Signature blobs, exactly -/

/-- What a blob is: the magic, version 1 and five fields. -/
def sshsigBlob (publickey : Bytes) (namespaceText : String) (signature : Bytes) :
    Except SshError Bytes := do
  let publickeyField ← encodeSshString publickey
  let namespaceField ← encodeSshString (utf8 namespaceText)
  let reserved ← encodeSshString []
  let hashalg ← encodeSshString (utf8 sshsigHashalg)
  let signatureField ← encodeSshString signature
  pure (sshsigMagic ++ (toBeBytes 1 ++ (publickeyField ++ (namespaceField ++ (reserved
    ++ (hashalg ++ signatureField))))))

theorem sshsigBlob_ok {publickey signature blob : Bytes} {namespaceText : String} :
    sshsigBlob publickey namespaceText signature = .ok blob
      ↔ (publickey.length < 2 ^ 32 ∧ (utf8 namespaceText).length < 2 ^ 32
          ∧ signature.length < 2 ^ 32)
        ∧ blob = sshsigMagic ++ (toBeBytes 1 ++ (frame publickey ++ (frame (utf8 namespaceText)
          ++ (frame [] ++ (frame (utf8 sshsigHashalg) ++ frame signature))))) := by
  constructor
  · intro h
    obtain ⟨_, hkey, h⟩ := bind_eq_ok.mp h
    obtain ⟨_, hname, h⟩ := bind_eq_ok.mp h
    obtain ⟨_, hreserved, h⟩ := bind_eq_ok.mp h
    obtain ⟨_, halg, h⟩ := bind_eq_ok.mp h
    obtain ⟨_, hsig, hresult⟩ := bind_eq_ok.mp h
    obtain ⟨hkeyLen, rfl⟩ := encodeSshString_ok.mp hkey
    obtain ⟨hnameLen, rfl⟩ := encodeSshString_ok.mp hname
    obtain ⟨_, rfl⟩ := encodeSshString_ok.mp hreserved
    obtain ⟨_, rfl⟩ := encodeSshString_ok.mp halg
    obtain ⟨hsigLen, rfl⟩ := encodeSshString_ok.mp hsig
    exact ⟨⟨hkeyLen, hnameLen, hsigLen⟩, (Except.ok.inj hresult).symm⟩
  · rintro ⟨⟨hkeyLen, hnameLen, hsigLen⟩, rfl⟩
    exact bind_eq_ok.mpr ⟨_, encodeSshString_ok.mpr ⟨hkeyLen, rfl⟩,
      bind_eq_ok.mpr ⟨_, encodeSshString_ok.mpr ⟨hnameLen, rfl⟩,
      bind_eq_ok.mpr ⟨_, encodeSshString_ok.mpr ⟨by decide, rfl⟩,
      bind_eq_ok.mpr ⟨_, encodeSshString_ok.mpr ⟨by decide, rfl⟩,
      bind_eq_ok.mpr ⟨_, encodeSshString_ok.mpr ⟨hsigLen, rfl⟩, rfl⟩⟩⟩⟩⟩

theorem length_sshsigMagic : sshsigMagic.length = 6 := by
  decide

/-- **THE HEADER IS THE MAGIC AND VERSION 1**, and the fields are what follows. -/
theorem validateSshsigHeader_ok {blob fields : Bytes} :
    validateSshsigHeader blob = .ok fields
      ↔ blob = sshsigMagic ++ (toBeBytes 1 ++ fields) := by
  rw [validateSshsigHeader]
  by_cases hshort : blob.length < 6
  · rw [if_pos hshort]
    refine iff_of_false (fun h => by cases h) ?_
    rintro rfl
    rw [List.length_append, length_sshsigMagic] at hshort
    omega
  rw [if_neg hshort, slice_of_le (Nat.zero_le 6) (Nat.not_lt.mp hshort), List.drop_zero]
  show (if _ then _ else _) = _ ↔ _
  by_cases hmagic : blob.take 6 = sshsigMagic
  · have hsplit : blob = sshsigMagic ++ blob.drop 6 := by
      rw [← hmagic, List.take_append_drop]
    generalize blob.drop 6 = tail at hsplit
    subst hsplit
    rw [if_neg (not_not_intro hmagic)]
    rcases tail with _ | ⟨a, _ | ⟨b, _ | ⟨c, _ | ⟨d, tail⟩⟩⟩⟩
    rotate_left 4
    · have hlong : ¬ (sshsigMagic ++ (a :: b :: c :: d :: tail)).length < 10 := by
        rw [List.length_append, length_sshsigMagic]
        simp only [List.length_cons]
        omega
      have hread : readUint32 (sshsigMagic ++ (a :: b :: c :: d :: tail)) 6
          = .ok (fromBeBytes a b c d) := rfl
      rw [if_neg hlong, hread, slice_rest (Nat.not_lt.mp hlong)]
      show (if _ then _ else _) = _ ↔ _
      have hdrop : (sshsigMagic ++ (a :: b :: c :: d :: tail)).drop 10 = tail := rfl
      rw [hdrop, List.append_cancel_left_eq]
      by_cases hversion : fromBeBytes a b c d = 1
      · have hbytes := toBeBytes_fromBeBytes a b c d
        rw [hversion] at hbytes
        rw [if_neg (not_not_intro hversion), hbytes]
        exact ⟨fun h => congrArg ([a, b, c, d] ++ ·) (Except.ok.inj h),
          fun h => congrArg Except.ok (@List.append_cancel_left _ [a, b, c, d] _ _ h)⟩
      · rw [if_pos hversion]
        refine iff_of_false (fun h => by cases h) fun h => hversion ?_
        obtain ⟨rfl, rfl, rfl, rfl, _⟩ : a = 0 ∧ b = 0 ∧ c = 0 ∧ d = 1 ∧ tail = fields := by
          simpa [toBeBytes] using h
        rfl
    all_goals
      refine iff_of_false (fun h => by cases h) fun h => ?_
      have hlen := congrArg List.length (List.append_cancel_left h)
      rw [List.length_append, length_toBeBytes] at hlen
      simp only [List.length_cons, List.length_nil] at hlen
      omega
  · rw [if_pos hmagic]
    refine iff_of_false ?_ fun h => hmagic ?_
    · rw [slice_of_le (Nat.zero_le _) (Nat.min_le_right _ _)]
      exact fun h => by cases h
    · rw [h]
      rfl

/-! ## The fields, one by one -/

section Parsing

variable {C : Crypto} {P : Platform}

theorem validatePublickey_ok {publickey : Bytes} {expectedSshPubkey : String} :
    validatePublickey C publickey expectedSshPubkey = .ok ()
      ↔ decodeSshPublicKeyBlob expectedSshPubkey = .ok publickey := by
  constructor
  · intro h
    obtain ⟨expected, hkey, h⟩ := bind_eq_ok.mp h
    by_cases heq : publickey = expected
    · rw [heq]
      exact liftSsh_ok.mp hkey
    · rw [if_neg heq] at h
      cases h
  · intro h
    exact bind_eq_ok.mpr ⟨publickey, liftSsh_ok.mpr h, if_pos rfl⟩

/-- A check that refuses everything but one value. -/
theorem refuse_ok {c : Prop} [Decidable c] {message : String} :
    (if c then operationFailed message else pure ()) = (.ok () : Except Fault Unit) ↔ ¬c := by
  by_cases hc : c
  · rw [if_pos hc]
    exact iff_of_false (fun h => by cases h) fun h => h hc
  · rw [if_neg hc]
    exact iff_of_true rfl hc

theorem validateNamespace_ok {actual : Bytes} {expectedNamespace : String} :
    validateNamespace actual expectedNamespace = .ok () ↔ actual = utf8 expectedNamespace :=
  refuse_ok.trans not_not

theorem validateReserved_ok {reserved : Bytes} :
    validateReserved reserved = .ok () ↔ reserved = [] := by
  rw [validateReserved, refuse_ok, Bool.not_eq_true', Bool.not_eq_false, List.isEmpty_iff]

theorem validateHashalg_ok {hashalg : Bytes} :
    validateHashalg hashalg = .ok () ↔ hashalg = utf8 sshsigHashalg :=
  refuse_ok.trans not_not

/-- A parsed blob carries the expected key and namespace, and the signature found in it. -/
theorem blob_of_parseSshsigBlob {blob signature : Bytes}
    {expectedNamespace expectedSshPubkey : String}
    (h : parseSshsigBlob C P blob expectedNamespace expectedSshPubkey = .ok signature) :
    ∃ publickey, decodeSshPublicKeyBlob expectedSshPubkey = .ok publickey
      ∧ sshsigBlob publickey expectedNamespace signature = .ok blob := by
  obtain ⟨_, hheader, h⟩ := bind_eq_ok.mp h
  obtain ⟨⟨publickey, _⟩, hkey, h⟩ := bind_eq_ok.mp h
  obtain ⟨⟨⟩, hkeyValid, h⟩ := bind_eq_ok.mp h
  obtain ⟨⟨name, _⟩, hname, h⟩ := bind_eq_ok.mp h
  obtain ⟨⟨⟩, hnameValid, h⟩ := bind_eq_ok.mp h
  obtain ⟨⟨reserved, _⟩, hreserved, h⟩ := bind_eq_ok.mp h
  obtain ⟨⟨⟩, hreservedValid, h⟩ := bind_eq_ok.mp h
  obtain ⟨⟨hashalg, _⟩, halg, h⟩ := bind_eq_ok.mp h
  obtain ⟨⟨⟩, halgValid, h⟩ := bind_eq_ok.mp h
  obtain ⟨⟨field, rest⟩, hsig, h⟩ := bind_eq_ok.mp h
  dsimp only at hkeyValid hname hnameValid hreserved hreservedValid halg halgValid hsig h
  have hrest : rest = [] := by
    by_cases hempty : rest = []
    · exact hempty
    · rw [if_pos (by simpa using hempty)] at h
      cases h
  subst hrest
  obtain rfl : field = signature := Except.ok.inj h
  -- each field is framed, and so is what is left of the blob after it
  obtain ⟨rfl, hsigLen, _⟩ := decodeSshString_ok.mp hsig
  obtain ⟨rfl, _⟩ := decodeSshString_ok.mp halg
  obtain ⟨rfl, _⟩ := decodeSshString_ok.mp hreserved
  obtain ⟨rfl, hnameLen, _⟩ := decodeSshString_ok.mp hname
  obtain ⟨rfl, hkeyLen, _⟩ := decodeSshString_ok.mp hkey
  obtain rfl := validateNamespace_ok.mp hnameValid
  obtain rfl := validateReserved_ok.mp hreservedValid
  obtain rfl := validateHashalg_ok.mp halgValid
  refine ⟨publickey, validatePublickey_ok.mp hkeyValid,
    sshsigBlob_ok.mpr ⟨⟨hkeyLen, hnameLen, hsigLen⟩, ?_⟩⟩
  rw [validateSshsigHeader_ok.mp hheader, List.append_nil]

/-- **THE ACCEPTED BLOBS** are the ones that carry the expected key and namespace, and the result
    is the signature field. -/
theorem parseSshsigBlob_iff {blob signature : Bytes} {expectedNamespace expectedSshPubkey : String}
    (hreach : P.Reaches blob) :
    parseSshsigBlob C P blob expectedNamespace expectedSshPubkey = .ok signature
      ↔ ∃ publickey, decodeSshPublicKeyBlob expectedSshPubkey = .ok publickey
        ∧ sshsigBlob publickey expectedNamespace signature = .ok blob := by
  constructor
  · exact blob_of_parseSshsigBlob
  · rintro ⟨publickey, hexpected, hblob⟩
    obtain ⟨⟨hkeyLen, hnameLen, hsigLen⟩, rfl⟩ := sshsigBlob_ok.mp hblob
    -- every field is part of the blob, so the platform can address it
    have hheld : ∀ {payload : Bytes}, payload.length < 2 ^ 32 →
        payload.length + 4 ≤ (sshsigMagic ++ (toBeBytes 1 ++ (frame publickey
          ++ (frame (utf8 expectedNamespace) ++ (frame [] ++ (frame (utf8 sshsigHashalg)
            ++ frame signature)))))).length → payload.length + 4 ≤ P.usizeMax :=
      fun hlen hle => hreach.field hlen hle
    simp only [List.length_append, length_frame] at hheld
    refine bind_eq_ok.mpr ⟨_, validateSshsigHeader_ok.mpr rfl, ?_⟩
    refine bind_eq_ok.mpr ⟨_, decodeSshString_ok.mpr ⟨rfl, hkeyLen, hheld hkeyLen (by omega)⟩, ?_⟩
    refine bind_eq_ok.mpr ⟨(), validatePublickey_ok.mpr hexpected, ?_⟩
    refine bind_eq_ok.mpr ⟨_, decodeSshString_ok.mpr
      ⟨rfl, hnameLen, hheld hnameLen (by omega)⟩, ?_⟩
    refine bind_eq_ok.mpr ⟨(), validateNamespace_ok.mpr rfl, ?_⟩
    refine bind_eq_ok.mpr ⟨_, decodeSshString_ok.mpr
      ⟨rfl, by decide, hheld (by decide) (by omega)⟩, ?_⟩
    refine bind_eq_ok.mpr ⟨(), validateReserved_ok.mpr rfl, ?_⟩
    refine bind_eq_ok.mpr ⟨_, decodeSshString_ok.mpr
      ⟨rfl, by decide, hheld (by decide) (by omega)⟩, ?_⟩
    refine bind_eq_ok.mpr ⟨(), validateHashalg_ok.mpr rfl, ?_⟩
    refine bind_eq_ok.mpr ⟨(signature, []), decodeSshString_ok.mpr
      ⟨(List.append_nil _).symm, hsigLen, hheld hsigLen (by omega)⟩, rfl⟩

/-! ## Parsing stays inside -/

/-- **THE HEADER CHECK NEVER READS PAST THE END**. -/
theorem validateSshsigHeader_inBounds (blob : Bytes) : InBounds (validateSshsigHeader blob) := by
  refine InBounds.ite (fun _ => inBounds_operationFailed _) fun hlong => ?_
  have hmagic := slice_of_le (Nat.zero_le 6) (Nat.not_lt.mp hlong)
  rw [hmagic]
  refine InBounds.bind (inBounds_ok _) fun magic _ => InBounds.ite (fun _ => ?_) fun _ => ?_
  · rw [slice_of_le (Nat.zero_le _) (Nat.min_le_right _ _)]
    exact InBounds.bind (inBounds_ok _) fun _ _ => inBounds_operationFailed _
  · refine InBounds.ite (fun _ => inBounds_operationFailed _) fun hversion => ?_
    obtain ⟨version, hread⟩ := readUint32_of_lt blob 6 (by omega)
    rw [hread, slice_rest (Nat.not_lt.mp hversion)]
    exact InBounds.bind (inBounds_ok _) fun _ _ =>
      InBounds.ite (fun _ => inBounds_operationFailed _) fun _ => inBounds_ok _

theorem inBounds_refuse {c : Prop} [Decidable c] {message : String} :
    InBounds (if c then operationFailed message else pure () : Except Fault Unit) :=
  InBounds.ite (fun _ => inBounds_operationFailed _) fun _ => inBounds_ok _

theorem validatePublickey_inBounds (publickey : Bytes) (expectedSshPubkey : String) :
    InBounds (validatePublickey C publickey expectedSshPubkey) :=
  InBounds.bind (inBounds_liftSsh _) fun _ _ =>
    InBounds.ite (fun _ => inBounds_ok _) fun _ => inBounds_operationFailed _

/-- **NO BLOB MAKES THE PARSER READ PAST ITS END**. -/
theorem parseSshsigBlob_inBounds (blob : Bytes) (expectedNamespace expectedSshPubkey : String) :
    InBounds (parseSshsigBlob C P blob expectedNamespace expectedSshPubkey) := by
  refine (validateSshsigHeader_inBounds blob).bind fun _ _ => ?_
  refine (decodeSshString_inBounds _).bind fun _ _ => ?_
  refine (validatePublickey_inBounds _ _).bind fun _ _ => ?_
  refine (decodeSshString_inBounds _).bind fun _ _ => ?_
  refine InBounds.bind inBounds_refuse fun _ _ => ?_
  refine (decodeSshString_inBounds _).bind fun _ _ => ?_
  refine InBounds.bind inBounds_refuse fun _ _ => ?_
  refine (decodeSshString_inBounds _).bind fun _ _ => ?_
  refine InBounds.bind inBounds_refuse fun _ _ => ?_
  refine (decodeSshString_inBounds _).bind fun _ _ => ?_
  exact InBounds.ite (fun _ => inBounds_operationFailed _) fun _ => inBounds_ok _

/-! ## Signed data -/

theorem fixedBytes_inj {n : Nat} {a b : FixedBytes n} (h : a.bytes = b.bytes) : a = b := by
  cases a
  cases b
  exact (FixedBytes.mk.injEq _ _ _ _).mpr h

theorem buildSshsigSignedData_ok {message data : Bytes} {namespaceText : String} :
    buildSshsigSignedData C message namespaceText = .ok data
      ↔ (utf8 namespaceText).length < 2 ^ 32
        ∧ data = sshsigMagic ++ (frame (utf8 namespaceText) ++ (frame []
          ++ (frame (utf8 sshsigHashalg) ++ frame (C.sha256 message).bytes))) := by
  have hhash : (C.sha256 message).bytes.length < 2 ^ 32 := by
    rw [(C.sha256 message).size]
    decide
  constructor
  · intro h
    obtain ⟨_, hname, h⟩ := bind_eq_ok.mp h
    obtain ⟨_, hreserved, h⟩ := bind_eq_ok.mp h
    obtain ⟨_, halg, h⟩ := bind_eq_ok.mp h
    obtain ⟨_, hfield, hresult⟩ := bind_eq_ok.mp h
    obtain ⟨hnameLen, rfl⟩ := encodeSshString_ok.mp hname
    obtain ⟨_, rfl⟩ := encodeSshString_ok.mp hreserved
    obtain ⟨_, rfl⟩ := encodeSshString_ok.mp halg
    obtain ⟨_, rfl⟩ := encodeSshString_ok.mp hfield
    refine ⟨hnameLen, ?_⟩
    rw [← Except.ok.inj hresult]
    simp only [List.append_assoc]
  · rintro ⟨hnameLen, rfl⟩
    refine bind_eq_ok.mpr ⟨_, encodeSshString_ok.mpr ⟨hnameLen, rfl⟩,
      bind_eq_ok.mpr ⟨_, encodeSshString_ok.mpr ⟨by decide, rfl⟩,
      bind_eq_ok.mpr ⟨_, encodeSshString_ok.mpr ⟨by decide, rfl⟩,
      bind_eq_ok.mpr ⟨_, encodeSshString_ok.mpr ⟨hhash, rfl⟩, congrArg Except.ok ?_⟩⟩⟩⟩
    simp only [List.append_assoc]

/-- **SIGNED DATA SAYS WHAT IS SIGNED**: the namespace and the hash of the message can be read off
    it. -/
theorem buildSshsigSignedData_inj {message message' data : Bytes}
    {namespaceText namespaceText' : String}
    (h : buildSshsigSignedData C message namespaceText = .ok data)
    (h' : buildSshsigSignedData C message' namespaceText' = .ok data) :
    namespaceText = namespaceText' ∧ C.sha256 message = C.sha256 message' := by
  obtain ⟨hlen, rfl⟩ := buildSshsigSignedData_ok.mp h
  obtain ⟨hlen', heq⟩ := buildSshsigSignedData_ok.mp h'
  obtain ⟨hname, hrest⟩ := frame_append_inj hlen hlen' (List.append_cancel_left heq)
  have htail := List.append_cancel_left (List.append_cancel_left hrest)
  have hhash : ∀ m, (C.sha256 m).bytes.length < 2 ^ 32 := fun m => by
    rw [(C.sha256 m).size]
    decide
  obtain ⟨hbytes, _⟩ := frame_append_inj (hhash message) (hhash message')
    (congrArg (· ++ []) htail)
  exact ⟨utf8_injective hname, fixedBytes_inj hbytes⟩

/-! ## Truncated fields -/

/-- What a frame declares is what it holds. -/
theorem declaredLength_frame {payload more : Bytes} (hlen : payload.length < 2 ^ 32) :
    declaredLength (frame payload ++ more) = payload.length :=
  fromBeBytes_toBeBytes hlen

/-- **WHEREVER A BLOB IS CUT** after some of its five fields, or its next length overstated, the
    parser reports an error. -/
theorem parseSshsigBlob_overlong {fields : List Bytes} {tail : Bytes}
    (hfew : fields.length < 5) (hlens : ∀ field ∈ fields, field.length < 2 ^ 32)
    (hcut : tail.length < 4 ∨ tail.length < declaredLength tail + 4)
    (expectedNamespace expectedSshPubkey : String) :
    ∃ e, parseSshsigBlob C P (sshsigMagic ++ (toBeBytes 1 ++ (frames fields ++ tail)))
      expectedNamespace expectedSshPubkey = .error (.failed e) := by
  have hinside := parseSshsigBlob_inBounds (C := C) (P := P)
    (sshsigMagic ++ (toBeBytes 1 ++ (frames fields ++ tail))) expectedNamespace expectedSshPubkey
  cases hparse : parseSshsigBlob C P (sshsigMagic ++ (toBeBytes 1 ++ (frames fields ++ tail)))
      expectedNamespace expectedSshPubkey with
  | error fault =>
    cases fault with
    | failed e => exact ⟨e, rfl⟩
    | outOfBounds => exact absurd hparse hinside
  | ok signature =>
    obtain ⟨publickey, _, hblob⟩ := blob_of_parseSshsigBlob hparse
    obtain ⟨⟨hkeyLen, hnameLen, hsigLen⟩, heq⟩ := sshsigBlob_ok.mp hblob
    have hfields := List.append_cancel_left (List.append_cancel_left heq)
    have hall : ∀ field ∈ [publickey, utf8 expectedNamespace, [], utf8 sshsigHashalg, signature],
        field.length < 2 ^ 32 := by
      intro field hfield
      simp only [List.mem_cons, List.not_mem_nil, or_false] at hfield
      rcases hfield with rfl | rfl | rfl | rfl | rfl
      · exact hkeyLen
      · exact hnameLen
      · decide
      · decide
      · exact hsigLen
    obtain ⟨next, more, hnext, rfl⟩ := frames_prefix hlens hall hfew (by
      rw [hfields]
      simp only [frames_cons, frames_nil, List.append_nil])
    rw [declaredLength_frame hnext, List.length_append, length_frame] at hcut
    omega

end Parsing

/-! ## The laws -/

/-- What the SSH wire functions promise. -/
structure SshWireLaws (C : Crypto) : Prop where
  /-- A field is read back from its encoding, whatever follows it. -/
  roundTrip : ∀ (P : Platform) (data rest : Bytes), data.length < 2 ^ 32 →
    ∃ encoded, encodeSshString data = .ok encoded
      ∧ (P.Reaches (encoded ++ rest) → decodeSshString P (encoded ++ rest) = .ok (data, rest))
  /-- Where an index has 64 bits, no slice is too long for that. -/
  reaches : ∀ data : Bytes, Platform.bits64.Reaches data
  /-- The accepted blobs are the ones of the expected key and namespace. -/
  accepts : ∀ (P : Platform) (blob signature : Bytes)
    (expectedNamespace expectedSshPubkey : String), P.Reaches blob →
    (parseSshsigBlob C P blob expectedNamespace expectedSshPubkey = .ok signature
      ↔ ∃ publickey, decodeSshPublicKeyBlob expectedSshPubkey = .ok publickey
        ∧ sshsigBlob publickey expectedNamespace signature = .ok blob)
  /-- A length field that is cut off, or declares more than follows, is an error. -/
  overlong : ∀ (P : Platform) (data : Bytes),
    data.length < 4 ∨ data.length < declaredLength data + 4 →
    ∃ e, decodeSshString P data = .error (.failed e)
  /-- So it is in a blob, at whichever of its fields. -/
  overlongField : ∀ (P : Platform) (fields : List Bytes) (tail : Bytes)
    (expectedNamespace expectedSshPubkey : String),
    fields.length < 5 → (∀ field ∈ fields, field.length < 2 ^ 32) →
    tail.length < 4 ∨ tail.length < declaredLength tail + 4 →
    ∃ e, parseSshsigBlob C P (sshsigMagic ++ (toBeBytes 1 ++ (frames fields ++ tail)))
      expectedNamespace expectedSshPubkey = .error (.failed e)
  /-- No input makes a decoder read past its end. -/
  inBounds : ∀ (P : Platform) (data : Bytes) (expectedNamespace expectedSshPubkey : String),
    decodeSshString P data ≠ .error .outOfBounds
      ∧ parseSshsigBlob C P data expectedNamespace expectedSshPubkey ≠ .error .outOfBounds
  /-- Signed data determines the namespace and the hash of the message. -/
  injective : ∀ (message message' : Bytes) (namespaceText namespaceText' : String) (data : Bytes),
    buildSshsigSignedData C message namespaceText = .ok data →
    buildSshsigSignedData C message' namespaceText' = .ok data →
    namespaceText = namespaceText' ∧ C.sha256 message = C.sha256 message'

/-- **WHAT AN AGENT SENDS IS CONSUMED EXACTLY**, for every key, namespace and reply. -/
theorem sshWireLaws (C : Crypto) : SshWireLaws C where
  roundTrip P data rest hlen := by
    refine ⟨frame data, encodeSshString_ok.mpr ⟨hlen, rfl⟩, fun hreach => ?_⟩
    refine decodeSshString_ok.mpr ⟨rfl, hlen, hreach.field hlen ?_⟩
    rw [List.length_append, length_frame]
    exact Nat.le_add_right _ _
  reaches _ := Or.inl (by decide)
  accepts _ _ _ _ _ hreach := parseSshsigBlob_iff hreach
  overlong P data hcut := by
    obtain ⟨message, hfails⟩ := decodeSshString_overlong (P := P) hcut
    exact ⟨.operationFailed message, hfails⟩
  overlongField _ _ _ _ _ hfew hlens hcut := parseSshsigBlob_overlong hfew hlens hcut _ _
  inBounds _ _ _ _ := ⟨decodeSshString_inBounds _, parseSshsigBlob_inBounds _ _ _⟩
  injective _ _ _ _ _ h h' := buildSshsigSignedData_inj h h'

end SshWire

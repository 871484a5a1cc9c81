import Mathlib.Data.String.Basic

/-!
# Limits — errors and the size limits every layer shares

* **`Error`** — one constructor for each error category, carrying the rule and the message the
  source builds. Texts that third-party libraries append to a message are left out.
* **`maxWrapItems` … `maxJsonElements`** — the limits of `support/limits.rs`.
* **`validateWrapCount`** — the one limit that is a function.
-/

namespace Limits

/-- A failure, by category. -/
inductive Error where
  | schema (message : String)
  | crypto (message : String)
  | verify (rule message : String)
  | io (message : String)
  | parse (message : String)
  | config (rule : Option String) (message : String)
  | notFound (message : String)
  | invalidArgument (message : String)
  | invalidOperation (message : String)
deriving DecidableEq, Repr

/-- An error as it is printed. -/
def Error.display : Error → String
  | .schema message => message
  | .crypto message => "Cryptographic error: " ++ message
  | .verify rule message => s!"Verification failed [{rule}]: {message}"
  | .io message => "I/O error: " ++ message
  | .parse message => "Parse error: " ++ message
  | .config _ message => "Configuration error: " ++ message
  | .notFound message => "Not found: " ++ message
  | .invalidArgument message => "Invalid argument: " ++ message
  | .invalidOperation message => "Invalid operation: " ++ message

/-- The error of the format layer, as it reaches the caller. -/
def formatParseError (message : String) : Error :=
  .parse ("Parse error: " ++ message)

/-- Maximum number of wrap items of a document. -/
def maxWrapItems : Nat := 1000

/-- Maximum kv-enc file size in bytes. -/
def maxKvEncFileSize : Nat := 16 * 1024 * 1024

/-- Maximum size in bytes of a JSON document that is read. -/
def maxJsonDocumentReadSize : Nat := 24 * 1024 * 1024

/-- Maximum number of KEY lines in a kv-enc file. -/
def maxKvKeyLines : Nat := 10000

/-- Maximum length of a base64url token. -/
def maxBase64TokenLength : Nat := 1024 * 1024

/-- Maximum length of a base64url ciphertext. -/
def maxBase64CiphertextLength : Nat := 16 * 1024 * 1024

/-- Maximum JSON nesting depth. -/
def maxJsonDepth : Nat := 32

/-- JSON elements one wrap item contributes. -/
def jsonElementsPerWrapItem : Nat := 11

/-- Element budget outside the wrap array. -/
def jsonElementsDocumentOverhead : Nat := 2000

/-- Maximum number of JSON elements. -/
def maxJsonElements : Nat :=
  maxWrapItems * jsonElementsPerWrapItem + jsonElementsDocumentOverhead

/-- Maximum member handle length in bytes. -/
def maxMemberHandleLength : Nat := 128

/-- The largest integer a document may carry. -/
def maxSafeInteger : Nat := 9007199254740991

/-- Refuse a wrap list longer than the limit. -/
def validateWrapCount (count : Nat) (context : String) : Except Error Unit :=
  if count ≤ maxWrapItems then .ok ()
  else .error (.parse
    s!"{context} exceeds maximum wrap count ({count} > {maxWrapItems})")

theorem validateWrapCount_ok (count : Nat) (context : String) :
    validateWrapCount count context = .ok () ↔ count ≤ maxWrapItems := by
  rw [validateWrapCount]
  split
  · exact ⟨fun _ => ‹_›, fun _ => rfl⟩
  · exact ⟨nofun, fun h => absurd h ‹_›⟩

end Limits

import Kapsaro.DisplayText
import Kapsaro.TrustStore

/-!
# Key expiry — how long a key may sign, and what is said about it

`feature/context/expiry.rs`: a key pair states an expiry in each of its two documents; the stricter
of the two decides whether the pair may sign, and what its owner is told.  Points in time count
nanoseconds.

* **`checkKeyExpiry`** — valid, expiring within 30 days, or expired.
* **`selectStricterKeyExpiryStatus`**, **`selectStatus`** — the stricter of two, for a pair.
* **`enforceNotExpiredForSigning`**, **`enforceExpiredUsage`** — what an expired key may still do.
* **`enforceRecipientKeyNotExpired`** — the same for the keys of recipients.
* **`expiryLaws`** — a pair signs exactly until the first of its expiries, the half that is named is
  the one that runs out first, and time makes a pair only stricter.
-/

namespace KeyExpiry

open Limits DocumentTokens WireModel Envelope TrustStore DisplayText

/-! ## The status of one text -/

def expiryWarningDays : Int := 30

def nanosPerDay : Int := 86400 * 1000000000

inductive KeyExpiryStatus where
  | valid
  | expiringSoon (expiresAt : String) (daysRemaining : Int)
  | expired (expiresAt : String)
deriving DecidableEq, Repr

/-- A field as it is shown. -/
def shownField (value : String) : String := (sanitizeDisplayField value).getD ""

section Checks

variable (P : TextParsers) (timeError : String → String)

/-- The point in time a text names; `timeError` words the refusal. -/
def parseExpiresAt (expiresAt : String) : Except Error Int :=
  match P.rfc3339 expiresAt with
  | some time => .ok time
  | none => .error (.parse s!"Invalid expires_at format: {shownField (timeError expiresAt)}")

def checkKeyExpiry (expiresAt : String) (now : Int) : Except Error KeyExpiryStatus := do
  let expiry ← parseExpiresAt P timeError expiresAt
  if expiry ≤ now then pure (.expired expiresAt)
  else
    let daysRemaining := (expiry - now) / nanosPerDay
    if daysRemaining ≤ expiryWarningDays then pure (.expiringSoon expiresAt daysRemaining)
    else pure .valid

/-! ## A pair -/

/-- The stricter of two; of two expired texts the right one is named, of two that expire on the same
    day the left one. -/
def selectStricterKeyExpiryStatus : KeyExpiryStatus → KeyExpiryStatus → KeyExpiryStatus
  | _, .expired expiresAt => .expired expiresAt
  | .expired expiresAt, _ => .expired expiresAt
  | .expiringSoon left days, .expiringSoon right rightDays =>
    if rightDays < days then .expiringSoon right rightDays else .expiringSoon left days
  | .expiringSoon left days, .valid => .expiringSoon left days
  | .valid, status => status

/-- What the two documents of a local pair state. -/
structure LocalKeyPairExpiry where
  privateExpiresAt : String
  publicExpiresAt : Option String
deriving DecidableEq

namespace LocalKeyPairExpiry

def selectStatus (pair : LocalKeyPairExpiry) (now : Int) : Except Error KeyExpiryStatus := do
  let status ← checkKeyExpiry P timeError pair.privateExpiresAt now
  match pair.publicExpiresAt with
  | none => pure status
  | some publicExpiresAt => do
    let other ← checkKeyExpiry P timeError publicExpiresAt now
    pure (selectStricterKeyExpiryStatus status other)

/-- An expired pair signs nothing. -/
def enforceNotExpiredForSigning (pair : LocalKeyPairExpiry) (now : Int) : Except Error Unit := do
  match ← pair.selectStatus P timeError now with
  | .expired expiresAt =>
    .error (.verify "key-expiry" (s!"Local key has expired.\nExpires at: {expiresAt}\n" ++
      "Action: Rotate the key before encryption or signing."))
  | _ => pure ()

end LocalKeyPairExpiry

def formatExpiringKeyWarning (keyLabel : String) (daysRemaining : Int) (expiresAt : String) :
    String :=
  s!"{keyLabel} expires in {daysRemaining} days. Expires at: {expiresAt}"

def formatExpiredKeyWarning (keyLabel expiresAt : String) : String :=
  s!"{keyLabel} has expired. Expires at: {expiresAt}"

/-- Use a key other than for signing: an expired one only if that was allowed. -/
def enforceSelectedStatusUsage (status : KeyExpiryStatus) (allowExpiredKey : Bool)
    (keyLabel : String) : Except Error (Option String) :=
  match status with
  | .valid => .ok none
  | .expiringSoon expiresAt daysRemaining =>
    .ok (some (formatExpiringKeyWarning keyLabel daysRemaining (shownField expiresAt)))
  | .expired expiresAt =>
    if allowExpiredKey then
      .ok (some (formatExpiredKeyWarning keyLabel (shownField expiresAt) ++
        " Reason: expired key use was explicitly allowed."))
    else
      .error (.verify "E_KEY_EXPIRED" (s!"{keyLabel} has expired.\n" ++
        s!"Expires at: {shownField expiresAt}\n" ++
        "Action: Use --allow-expired-key only for explicit recovery."))

namespace LocalKeyPairExpiry

def enforceExpiredUsage (pair : LocalKeyPairExpiry) (now : Int) (allowExpiredKey : Bool) :
    Except Error (Option String) := do
  let status ← pair.selectStatus P timeError now
  enforceSelectedStatusUsage status allowExpiredKey "Local key"

def buildSigningWarning (pair : LocalKeyPairExpiry) (now : Int) : Except Error (Option String) := do
  match ← pair.selectStatus P timeError now with
  | .expiringSoon expiresAt daysRemaining =>
    pure (some (formatExpiringKeyWarning "Local key" daysRemaining expiresAt))
  | _ => pure none

end LocalKeyPairExpiry

/-! ## Recipients -/

/-- An expired key of a recipient is not wrapped for. -/
def enforceRecipientKeyNotExpired (document : PublicKey) (now : Int) : Except Error Unit :=
  if document.protect.expiresAt.isEmpty then .ok ()
  else do
    match ← checkKeyExpiry P timeError document.protect.expiresAt now with
    | .expired expiresAt =>
      .error (.verify "key-expiry" ("Recipient public key has expired.\n" ++
        s!"Member: {shownField document.protect.subjectHandle}\n" ++
        s!"Expires at: {shownField expiresAt}\n" ++
        "Action: Rotate the recipient key before encryption."))
    | _ => pure ()

end Checks

/-! ## Strictness -/

/-- The days a status leaves, up to one more than is told: none when it is expired. -/
def KeyExpiryStatus.daysLeft : KeyExpiryStatus → Int
  | .valid => expiryWarningDays + 1
  | .expiringSoon _ daysRemaining => daysRemaining
  | .expired _ => -1

/-- The days that are left until a point in time, up to one more than is told. -/
def daysUntil (expiry now : Int) : Int :=
  if expiry ≤ now then -1 else min ((expiry - now) / nanosPerDay) (expiryWarningDays + 1)

variable {P : TextParsers} {timeError : String → String}

theorem nanosPerDay_pos : 0 < nanosPerDay := by decide

theorem daysUntil_bounds (expiry now : Int) :
    -1 ≤ daysUntil expiry now ∧ daysUntil expiry now ≤ expiryWarningDays + 1
      ∧ (daysUntil expiry now = -1 ↔ expiry ≤ now) := by
  rw [daysUntil]
  by_cases h : expiry ≤ now
  · rw [if_pos h]
    exact ⟨le_refl _, by decide, iff_of_true rfl h⟩
  · rw [if_neg h]
    have hdays : 0 ≤ (expiry - now) / nanosPerDay :=
      Int.ediv_nonneg (by omega) nanosPerDay_pos.le
    have hlimit : expiryWarningDays + 1 = 31 := rfl
    rw [hlimit]
    exact ⟨by omega, by omega, iff_of_false (by omega) h⟩

/-- **TIME TAKES DAYS AWAY.** -/
theorem daysUntil_antitone (expiry : Int) {now later : Int} (h : now ≤ later) :
    daysUntil expiry later ≤ daysUntil expiry now := by
  obtain ⟨hlow, _, _⟩ := daysUntil_bounds expiry now
  by_cases hexpired : expiry ≤ later
  · rw [(daysUntil_bounds expiry later).2.2.mpr hexpired]
    exact hlow
  · have hnow : ¬ expiry ≤ now := by omega
    rw [daysUntil, if_neg hexpired, daysUntil, if_neg hnow]
    have hdiv : (expiry - later) / nanosPerDay ≤ (expiry - now) / nanosPerDay :=
      Int.ediv_le_ediv nanosPerDay_pos (by omega)
    omega

/-- The status of a text that names a point in time. -/
def statusAt (expiresAt : String) (expiry now : Int) : KeyExpiryStatus :=
  if expiry ≤ now then .expired expiresAt
  else if (expiry - now) / nanosPerDay ≤ expiryWarningDays then
    .expiringSoon expiresAt ((expiry - now) / nanosPerDay)
  else .valid

/-- A status tells the days that are left. -/
theorem daysLeft_statusAt (expiresAt : String) (expiry now : Int) :
    (statusAt expiresAt expiry now).daysLeft = daysUntil expiry now := by
  rw [statusAt, daysUntil]
  by_cases hexpired : expiry ≤ now
  · rw [if_pos hexpired, if_pos hexpired]
    rfl
  · rw [if_neg hexpired, if_neg hexpired]
    by_cases hsoon : (expiry - now) / nanosPerDay ≤ expiryWarningDays
    · rw [if_pos hsoon, min_eq_left (by omega)]
      rfl
    · rw [if_neg hsoon, min_eq_right (by omega)]
      rfl

theorem statusAt_expired {expiresAt : String} {expiry now : Int} :
    (∃ named, statusAt expiresAt expiry now = .expired named) ↔ expiry ≤ now := by
  rw [statusAt]
  by_cases hexpired : expiry ≤ now
  · rw [if_pos hexpired]
    exact iff_of_true ⟨expiresAt, rfl⟩ hexpired
  · rw [if_neg hexpired]
    refine iff_of_false ?_ hexpired
    rintro ⟨named, h⟩
    split at h <;> cases h

/-- A text that names no point in time has no status. -/
theorem checkKeyExpiry_ok {expiresAt : String} {now : Int} {status : KeyExpiryStatus} :
    checkKeyExpiry P timeError expiresAt now = .ok status
      ↔ ∃ expiry, P.rfc3339 expiresAt = some expiry ∧ status = statusAt expiresAt expiry now := by
  rw [checkKeyExpiry, bind_eq_ok]
  constructor
  · rintro ⟨expiry, hparse, h⟩
    rw [parseExpiresAt] at hparse
    split at hparse
    · rename_i time htime
      obtain rfl := Except.ok.inj hparse
      refine ⟨time, htime, ?_⟩
      rw [statusAt]
      split at h
      · rename_i hexpired
        rw [if_pos hexpired, ← Except.ok.inj h]
      · rename_i hexpired
        rw [if_neg hexpired]
        dsimp only at h
        split at h
        · rename_i hsoon
          rw [if_pos hsoon, ← Except.ok.inj h]
        · rename_i hsoon
          rw [if_neg hsoon, ← Except.ok.inj h]
    · cases hparse
  · rintro ⟨expiry, htime, rfl⟩
    refine ⟨expiry, by rw [parseExpiresAt, htime], ?_⟩
    rw [statusAt]
    by_cases hexpired : expiry ≤ now
    · rw [if_pos hexpired, if_pos hexpired]
      rfl
    · rw [if_neg hexpired, if_neg hexpired]
      dsimp only
      by_cases hsoon : (expiry - now) / nanosPerDay ≤ expiryWarningDays
      · rw [if_pos hsoon, if_pos hsoon]
        rfl
      · rw [if_neg hsoon, if_neg hsoon]
        rfl

/-- **A RECIPIENT IS WRAPPED FOR** as long as its key has not expired; an empty expiry is none. -/
theorem enforceRecipientKeyNotExpired_ok {document : PublicKey} {now : Int} :
    enforceRecipientKeyNotExpired P timeError document now = .ok ()
      ↔ document.protect.expiresAt.isEmpty = true
        ∨ ∃ expiry, P.rfc3339 document.protect.expiresAt = some expiry ∧ now < expiry := by
  rw [enforceRecipientKeyNotExpired]
  by_cases hempty : document.protect.expiresAt.isEmpty = true
  · rw [if_pos hempty]
    exact iff_of_true rfl (.inl hempty)
  · rw [if_neg hempty, bind_eq_ok]
    constructor
    · rintro ⟨status, hstatus, h⟩
      obtain ⟨expiry, htime, rfl⟩ := checkKeyExpiry_ok.mp hstatus
      refine .inr ⟨expiry, htime, ?_⟩
      by_contra hle
      obtain ⟨named, hexpired⟩ := (@statusAt_expired document.protect.expiresAt expiry now).mpr
        (not_lt.mp hle)
      rw [hexpired] at h
      cases h
    · rintro (h | ⟨expiry, htime, hlt⟩)
      · exact absurd h hempty
      · refine ⟨_, checkKeyExpiry_ok.mpr ⟨expiry, htime, rfl⟩, ?_⟩
        rw [statusAt, if_neg (by omega)]
        by_cases hsoon : (expiry - now) / nanosPerDay ≤ expiryWarningDays
        · rw [if_pos hsoon]
          rfl
        · rw [if_neg hsoon]
          rfl

/-! ## The laws -/

/-- The days a status tells are at most a month, and none are negative. -/
def Told : KeyExpiryStatus → Prop
  | .expiringSoon _ daysRemaining => 0 ≤ daysRemaining ∧ daysRemaining ≤ expiryWarningDays
  | _ => True

theorem told_statusAt (expiresAt : String) (expiry now : Int) :
    Told (statusAt expiresAt expiry now) := by
  rw [statusAt]
  by_cases hexpired : expiry ≤ now
  · rw [if_pos hexpired]
    trivial
  · rw [if_neg hexpired]
    by_cases hsoon : (expiry - now) / nanosPerDay ≤ expiryWarningDays
    · rw [if_pos hsoon]
      exact ⟨Int.ediv_nonneg (by omega) nanosPerDay_pos.le, hsoon⟩
    · rw [if_neg hsoon]
      trivial

/-- **THE STRICTER STATUS** is one of the two, and leaves the fewer days. -/
theorem selectStricter_spec {left right : KeyExpiryStatus} (hleft : Told left)
    (hright : Told right) :
    (selectStricterKeyExpiryStatus left right = left
        ∨ selectStricterKeyExpiryStatus left right = right)
      ∧ (selectStricterKeyExpiryStatus left right).daysLeft
        = min left.daysLeft right.daysLeft := by
  have hlimit : expiryWarningDays = 30 := rfl
  cases left with
  | valid =>
    cases right with
    | valid => exact ⟨.inl rfl, (min_self _).symm⟩
    | expiringSoon text days =>
      obtain ⟨hlow, hhigh⟩ := hright
      refine ⟨.inr rfl, ?_⟩
      show days = min (expiryWarningDays + 1) days
      omega
    | expired text => exact ⟨.inr rfl, (show (-1 : Int) = min (30 + 1) (-1) by decide)⟩
  | expiringSoon text days =>
    obtain ⟨hlow, hhigh⟩ := hleft
    cases right with
    | valid =>
      refine ⟨.inl rfl, ?_⟩
      show days = min days (expiryWarningDays + 1)
      omega
    | expiringSoon text' days' =>
      obtain ⟨hlow', hhigh'⟩ := hright
      by_cases hless : days' < days
      · have hselect : selectStricterKeyExpiryStatus (.expiringSoon text days)
            (.expiringSoon text' days') = .expiringSoon text' days' := if_pos hless
        rw [hselect]
        refine ⟨.inr rfl, ?_⟩
        show days' = min days days'
        omega
      · have hselect : selectStricterKeyExpiryStatus (.expiringSoon text days)
            (.expiringSoon text' days') = .expiringSoon text days := if_neg hless
        rw [hselect]
        refine ⟨.inl rfl, ?_⟩
        show days = min days days'
        omega
    | expired text' =>
      refine ⟨.inr rfl, ?_⟩
      show (-1 : Int) = min days (-1)
      omega
  | expired text =>
    cases right with
    | valid => exact ⟨.inl rfl, (show (-1 : Int) = min (-1) (30 + 1) by decide)⟩
    | expiringSoon text' days' =>
      obtain ⟨hlow', hhigh'⟩ := hright
      refine ⟨.inl rfl, ?_⟩
      show (-1 : Int) = min (-1) days'
      omega
    | expired text' => exact ⟨.inr rfl, (show (-1 : Int) = min (-1) (-1) by decide)⟩

/-- The texts of a pair. -/
def LocalKeyPairExpiry.texts (pair : LocalKeyPairExpiry) : List String :=
  pair.privateExpiresAt :: pair.publicExpiresAt.toList

/-- A status is that of the text of a pair that runs out first. -/
def FirstToExpire (P : TextParsers) (pair : LocalKeyPairExpiry) (now : Int)
    (status : KeyExpiryStatus) : Prop :=
  (∃ text ∈ pair.texts, ∃ expiry, P.rfc3339 text = some expiry ∧ status = statusAt text expiry now)
    ∧ ∀ text ∈ pair.texts, ∃ expiry, P.rfc3339 text = some expiry
      ∧ status.daysLeft ≤ daysUntil expiry now

theorem selectStricter_expired (left : KeyExpiryStatus) (named : String) :
    selectStricterKeyExpiryStatus left (.expired named) = .expired named := by
  cases left <;> rfl

/-- Of two that leave equally many days the left one is taken. -/
theorem selectStricter_sameDay {left right : String} {expiry expiry' now : Int}
    (hlive : now < expiry)
    (hlive' : now < expiry') (hdays : daysUntil expiry now = daysUntil expiry' now) :
    selectStricterKeyExpiryStatus (statusAt left expiry now) (statusAt right expiry' now)
      = statusAt left expiry now := by
  rw [daysUntil, if_neg hlive.not_ge, daysUntil, if_neg hlive'.not_ge] at hdays
  rw [statusAt, if_neg hlive.not_ge, statusAt, if_neg hlive'.not_ge]
  by_cases hsoon : (expiry - now) / nanosPerDay ≤ expiryWarningDays
  · rw [if_pos hsoon]
    by_cases hsoon' : (expiry' - now) / nanosPerDay ≤ expiryWarningDays
    · rw [if_pos hsoon']
      exact if_neg (by omega)
    · rw [if_neg hsoon']
      rfl
  · rw [if_neg hsoon, if_neg (by omega)]
    rfl

/-- **A PAIR IS AS GOOD AS THE HALF THAT RUNS OUT FIRST.** -/
theorem firstToExpire_of_selectStatus {pair : LocalKeyPairExpiry} {now : Int}
    {status : KeyExpiryStatus} (h : pair.selectStatus P timeError now = .ok status) :
    FirstToExpire P pair now status := by
  obtain ⟨pairPrivate, pairPublic⟩ := pair
  obtain ⟨first, hfirst, h⟩ := bind_eq_ok.mp h
  obtain ⟨expiry, htime, rfl⟩ := checkKeyExpiry_ok.mp hfirst
  cases pairPublic with
  | none =>
    obtain rfl := Except.ok.inj h
    refine ⟨⟨_, List.mem_cons_self, expiry, htime, rfl⟩, ?_⟩
    intro text htext
    obtain rfl := List.mem_singleton.mp htext
    exact ⟨expiry, htime, (daysLeft_statusAt _ expiry now).le⟩
  | some publicText =>
    dsimp only at h
    obtain ⟨second, hsecond, h⟩ := bind_eq_ok.mp h
    obtain ⟨expiry', htime', rfl⟩ := checkKeyExpiry_ok.mp hsecond
    obtain rfl := Except.ok.inj h
    obtain ⟨hone, hmin⟩ := selectStricter_spec (told_statusAt pairPrivate expiry now)
      (told_statusAt publicText expiry' now)
    rw [daysLeft_statusAt, daysLeft_statusAt] at hmin
    refine ⟨?_, ?_⟩
    · rcases hone with hleft | hright
      · exact ⟨pairPrivate, List.mem_cons_self, expiry, htime, hleft⟩
      · exact ⟨publicText, List.mem_cons_of_mem _ (List.mem_singleton_self _), expiry', htime',
          hright⟩
    · intro text htext
      rcases List.mem_cons.mp htext with rfl | htext
      · exact ⟨expiry, htime, hmin.le.trans (min_le_left _ _)⟩
      · obtain rfl := List.mem_singleton.mp htext
        exact ⟨expiry', htime', hmin.le.trans (min_le_right _ _)⟩

theorem selectStatus_of_times {pair : LocalKeyPairExpiry} (now : Int)
    (h : ∀ text ∈ pair.texts, ∃ expiry, P.rfc3339 text = some expiry) :
    ∃ status, pair.selectStatus P timeError now = .ok status := by
  obtain ⟨pairPrivate, pairPublic⟩ := pair
  obtain ⟨expiry, htime⟩ := h pairPrivate List.mem_cons_self
  have hfirst : checkKeyExpiry P timeError pairPrivate now
      = .ok (statusAt pairPrivate expiry now) := checkKeyExpiry_ok.mpr ⟨expiry, htime, rfl⟩
  cases pairPublic with
  | none => exact ⟨_, bind_eq_ok.mpr ⟨_, hfirst, rfl⟩⟩
  | some publicText =>
    obtain ⟨expiry', htime'⟩ := h publicText (List.mem_cons_of_mem _ (List.mem_singleton_self _))
    have hsecond : checkKeyExpiry P timeError publicText now
        = .ok (statusAt publicText expiry' now) := checkKeyExpiry_ok.mpr ⟨expiry', htime', rfl⟩
    exact ⟨_, bind_eq_ok.mpr ⟨_, hfirst, bind_eq_ok.mpr ⟨_, hsecond, rfl⟩⟩⟩

/-- The first to expire is expired exactly if one of them is. -/
theorem FirstToExpire.expired_iff {pair : LocalKeyPairExpiry} {now : Int}
    {status : KeyExpiryStatus} (h : FirstToExpire P pair now status) :
    (∃ named, status = .expired named)
      ↔ ∃ text ∈ pair.texts, ∃ expiry, P.rfc3339 text = some expiry ∧ expiry ≤ now := by
  obtain ⟨⟨text, htext, expiry, htime, rfl⟩, hleast⟩ := h
  rw [statusAt_expired]
  constructor
  · intro hexpired
    exact ⟨text, htext, expiry, htime, hexpired⟩
  · rintro ⟨other, hother, expiry', htime', hexpired⟩
    obtain ⟨expiry'', htime'', hdays⟩ := hleast other hother
    obtain rfl := Option.some.inj (htime'.symm.trans htime'')
    rw [daysLeft_statusAt, (daysUntil_bounds expiry' now).2.2.mpr hexpired] at hdays
    have hlow := (daysUntil_bounds expiry now).1
    exact (daysUntil_bounds expiry now).2.2.mp (by omega)

/-- What holds of the expiry of a pair. -/
structure ExpiryLaws (P : TextParsers) (timeError : String → String) (pair : LocalKeyPairExpiry) :
    Prop where
  /-- the status is that of the text that runs out first -/
  first : ∀ now status, pair.selectStatus P timeError now = .ok status →
    FirstToExpire P pair now status
  /-- where both have run out the public one is named, where both leave equally many days the
      private one -/
  tied : ∀ now publicText expiry expiry', pair.publicExpiresAt = some publicText →
    P.rfc3339 pair.privateExpiresAt = some expiry → P.rfc3339 publicText = some expiry' →
    (expiry' ≤ now → pair.selectStatus P timeError now = .ok (.expired publicText))
      ∧ (now < expiry → now < expiry' → daysUntil expiry now = daysUntil expiry' now →
        pair.selectStatus P timeError now = .ok (statusAt pair.privateExpiresAt expiry now))
  /-- a pair signs exactly before both of its expiries -/
  signs : ∀ now, pair.enforceNotExpiredForSigning P timeError now = .ok ()
    ↔ ∀ text ∈ pair.texts, ∃ expiry, P.rfc3339 text = some expiry ∧ now < expiry
  /-- once it signs no more, it never does again -/
  ends : ∀ {now later}, now ≤ later →
    pair.enforceNotExpiredForSigning P timeError later = .ok () →
    pair.enforceNotExpiredForSigning P timeError now = .ok ()
  /-- time only takes days away -/
  ages : ∀ {now later status status'}, now ≤ later →
    pair.selectStatus P timeError now = .ok status →
    pair.selectStatus P timeError later = .ok status' → status'.daysLeft ≤ status.daysLeft
  /-- an expired key is used only where that was allowed, and never without a word -/
  used : ∀ now allowExpiredKey said,
    pair.enforceExpiredUsage P timeError now allowExpiredKey = .ok said →
    (pair.enforceNotExpiredForSigning P timeError now = .ok ()
      ∨ allowExpiredKey = true ∧ said.isSome = true)
  /-- whoever may sign hears of an expiry within a month, and of no other -/
  warned : ∀ now, pair.enforceNotExpiredForSigning P timeError now = .ok () →
    ∃ said, pair.buildSigningWarning P timeError now = .ok said
      ∧ (said.isSome = true ↔ ∃ text ∈ pair.texts, ∃ expiry, P.rfc3339 text = some expiry
        ∧ (expiry - now) / nanosPerDay ≤ expiryWarningDays)

theorem enforceNotExpiredForSigning_ok {pair : LocalKeyPairExpiry} {now : Int} :
    pair.enforceNotExpiredForSigning P timeError now = .ok ()
      ↔ ∃ status, pair.selectStatus P timeError now = .ok status
        ∧ ¬ ∃ named, status = .expired named := by
  rw [LocalKeyPairExpiry.enforceNotExpiredForSigning, bind_eq_ok]
  refine exists_congr fun status => and_congr_right fun _ => ?_
  cases status with
  | valid => exact iff_of_true rfl fun ⟨_, h⟩ => by cases h
  | expiringSoon text days => exact iff_of_true rfl fun ⟨_, h⟩ => by cases h
  | expired text => exact iff_of_false (fun h => by cases h) fun h => h ⟨text, rfl⟩

/-- **A PAIR SIGNS** exactly before both of its expiries. -/
theorem enforceNotExpiredForSigning_iff (pair : LocalKeyPairExpiry) (now : Int) :
    pair.enforceNotExpiredForSigning P timeError now = .ok ()
      ↔ ∀ text ∈ pair.texts, ∃ expiry, P.rfc3339 text = some expiry ∧ now < expiry := by
  rw [enforceNotExpiredForSigning_ok]
  constructor
  · rintro ⟨status, hstatus, hlive⟩ text htext
    have hfirst := firstToExpire_of_selectStatus hstatus
    obtain ⟨expiry, htime, _⟩ := hfirst.2 text htext
    refine ⟨expiry, htime, ?_⟩
    by_contra hle
    exact hlive (hfirst.expired_iff.mpr ⟨text, htext, expiry, htime, not_lt.mp hle⟩)
  · intro hall
    obtain ⟨status, hstatus⟩ := @selectStatus_of_times P timeError pair now fun text htext =>
      (hall text htext).imp fun _ h => h.1
    refine ⟨status, hstatus, ?_⟩
    intro hexpired
    obtain ⟨text, htext, expiry, htime, hle⟩ :=
      (firstToExpire_of_selectStatus hstatus).expired_iff.mp hexpired
    obtain ⟨expiry', htime', hlt⟩ := hall text htext
    obtain rfl := Option.some.inj (htime.symm.trans htime')
    omega

/-- **A PAIR SIGNS UNTIL THE FIRST OF ITS EXPIRIES**, is then used only where that was allowed, and
    its owner is told in the last month. -/
theorem expiryLaws (P : TextParsers) (timeError : String → String) (pair : LocalKeyPairExpiry) :
    ExpiryLaws P timeError pair := by
  have hsigns := @enforceNotExpiredForSigning_iff P timeError pair
  refine ⟨fun now status => firstToExpire_of_selectStatus, ?_, hsigns, ?_, ?_, ?_, ?_⟩
  -- The status of a pair is the stricter one of the two.
  · intro now publicText expiry expiry' hpublic htime htime'
    have hstatus : pair.selectStatus P timeError now = .ok (selectStricterKeyExpiryStatus
        (statusAt pair.privateExpiresAt expiry now) (statusAt publicText expiry' now)) := by
      refine bind_eq_ok.mpr ⟨_, checkKeyExpiry_ok.mpr ⟨expiry, htime, rfl⟩, ?_⟩
      rw [hpublic]
      exact bind_eq_ok.mpr ⟨_, checkKeyExpiry_ok.mpr ⟨expiry', htime', rfl⟩, rfl⟩
    refine ⟨fun hexpired => ?_, fun hlive hlive' hdays => ?_⟩
    · rw [hstatus, show statusAt publicText expiry' now = .expired publicText from if_pos hexpired,
        selectStricter_expired]
    · rw [hstatus, selectStricter_sameDay hlive hlive' hdays]
  -- A pair that may sign later may sign now.
  · intro now later hle hlater
    rw [hsigns] at hlater ⊢
    intro text htext
    obtain ⟨expiry, htime, hlt⟩ := hlater text htext
    exact ⟨expiry, htime, by omega⟩
  -- The half that runs out first stays the first, so time only takes days away.
  · intro now later status status' hle hstatus hstatus'
    obtain ⟨⟨text, htext, expiry, htime, rfl⟩, _⟩ := firstToExpire_of_selectStatus hstatus
    obtain ⟨expiry', htime', hdays⟩ := (firstToExpire_of_selectStatus hstatus').2 text htext
    obtain rfl := Option.some.inj (htime.symm.trans htime')
    rw [daysLeft_statusAt]
    exact hdays.trans (daysUntil_antitone expiry hle)
  -- A pair that is used is live, or expired with leave.
  · intro now allowExpiredKey said h
    obtain ⟨status, hstatus, h⟩ := bind_eq_ok.mp h
    rw [enforceNotExpiredForSigning_ok]
    cases status with
    | valid => exact .inl ⟨_, hstatus, fun ⟨_, h⟩ => by cases h⟩
    | expiringSoon text days => exact .inl ⟨_, hstatus, fun ⟨_, h⟩ => by cases h⟩
    | expired text =>
      cases allowExpiredKey with
      | true =>
        obtain rfl := Except.ok.inj h
        exact .inr ⟨rfl, rfl⟩
      | false => cases h
  -- A live pair is warned of exactly when one of its halves is close to its end.
  · intro now hsign
    obtain ⟨status, hstatus, hlive⟩ := enforceNotExpiredForSigning_ok.mp hsign
    have hfirst := firstToExpire_of_selectStatus hstatus
    have hlater := (hsigns now).mp hsign
    have hsoon : (∃ text days, status = .expiringSoon text days)
        ↔ ∃ text ∈ pair.texts, ∃ expiry, P.rfc3339 text = some expiry
          ∧ (expiry - now) / nanosPerDay ≤ expiryWarningDays := by
      obtain ⟨⟨text, htext, expiry, htime, rfl⟩, hleast⟩ := hfirst
      have hpast : ¬ expiry ≤ now := by rwa [statusAt_expired] at hlive
      rw [statusAt, if_neg hpast]
      by_cases hwithin : (expiry - now) / nanosPerDay ≤ expiryWarningDays
      · rw [if_pos hwithin]
        exact iff_of_true ⟨_, _, rfl⟩ ⟨text, htext, expiry, htime, hwithin⟩
      · rw [if_neg hwithin]
        refine iff_of_false ?_ ?_
        · rintro ⟨_, _, h⟩
          cases h
        · rintro ⟨other, hother, expiry', htime', hwithin'⟩
          obtain ⟨expiry'', htime'', hdays⟩ := hleast other hother
          obtain rfl := Option.some.inj (htime'.symm.trans htime'')
          obtain ⟨expiry'', htime'', hlt⟩ := hlater other hother
          obtain rfl := Option.some.inj (htime'.symm.trans htime'')
          rw [daysLeft_statusAt, daysUntil, if_neg hpast, daysUntil, if_neg (by omega)] at hdays
          omega
    cases status with
    | valid =>
      refine ⟨none, bind_eq_ok.mpr ⟨_, hstatus, rfl⟩, ?_⟩
      rw [← hsoon]
      exact iff_of_false (fun h => by cases h) fun ⟨_, _, h⟩ => by cases h
    | expiringSoon text days =>
      refine ⟨_, bind_eq_ok.mpr ⟨_, hstatus, rfl⟩, ?_⟩
      rw [← hsoon]
      exact iff_of_true rfl ⟨text, days, rfl⟩
    | expired text => exact absurd ⟨text, rfl⟩ hlive

end KeyExpiry

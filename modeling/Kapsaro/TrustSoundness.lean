import Kapsaro.TrustStore

/-!
# Trust soundness — what the checks of a loaded store come to

The checks of a loaded trust store as one property of its content, and the record operations as
operations that keep it.

* **`Canonical`** — the kid lists the reader accepts: valid, sorted, no kid twice.
* **`SoundRecord`**, **`Sound`** — the property.
* **`validateTrustStore_ok`** — a store passes the checks exactly when its content is sound and its
  signature has the form the schema asks for.
* **`Sound.setKnownKeys`**, **`Sound.setRecipientSets`** — one list is replaced; the other stays.
-/

namespace TrustSoundness

open JsonText JsonMembers Limits TextLines Base64Codec WireTexts WireModel DocumentTokens
open Envelope KeyedList TrustRecords TrustStore

/-! ## Canonical kid lists -/

/-- Valid kids in order, none twice. -/
structure Canonical (kids : List String) : Prop where
  valid : ∀ kid ∈ kids, isKidText kid = true
  sorted : kids.Pairwise (· ≤ ·)
  nodup : kids.Nodup

/-- One more kid into a sorted set. -/
private theorem orderedInsert_sorted {seen : List String} (kid : String)
    (hsorted : seen.Pairwise (· ≤ ·)) :
    (seen.orderedInsert (· ≤ ·) kid).Pairwise (· ≤ ·) :=
  List.Pairwise.orderedInsert kid seen hsorted

/-- Normalizing gathers the kids into the set, and each of them is valid and new. -/
theorem normalizeRecipientKidsFrom_ok {seen kids out : List String}
    (h : normalizeRecipientKidsFrom seen kids = .ok out) (hsorted : seen.Pairwise (· ≤ ·))
    (hnodup : seen.Nodup) :
    out.Pairwise (· ≤ ·) ∧ out.Nodup ∧ out.Perm (kids ++ seen)
      ∧ ∀ kid ∈ kids, isKidText kid = true := by
  induction kids generalizing seen with
  | nil =>
    obtain rfl := Except.ok.inj h
    exact ⟨hsorted, hnodup, List.Perm.refl _, fun _ hkid => by cases hkid⟩
  | cons kid kids ih =>
    rw [normalizeRecipientKidsFrom] at h
    obtain ⟨checked, hchecked, h⟩ := bind_eq_ok.mp h
    obtain ⟨hfresh, h⟩ := throwIf_ok.mp h
    have hvalid : isKidText kid = true ∧ checked.text = kid := by
      rw [Kid.fromCanonical] at hchecked
      split at hchecked
      · rename_i hkid
        rw [← Except.ok.inj hchecked]
        exact ⟨hkid, rfl⟩
      · cases hchecked
    rw [hvalid.2] at hfresh h
    have hperm : (seen.orderedInsert (· ≤ ·) kid).Perm (kid :: seen) :=
      List.perm_orderedInsert _ kid seen
    obtain ⟨hsorted', hnodup', hperm', hrest⟩ := ih h (orderedInsert_sorted kid hsorted)
      (hperm.nodup_iff.mpr (List.nodup_cons.mpr ⟨hfresh, hnodup⟩))
    refine ⟨hsorted', hnodup', ?_, ?_⟩
    · exact hperm'.trans ((hperm.append_left kids).trans List.perm_middle)
    · intro k hk
      rcases List.mem_cons.mp hk with rfl | hin
      · exact hvalid.1
      · exact hrest k hin

/-- Valid kids that are new and distinct can be normalized. -/
theorem normalizeRecipientKidsFrom_total {seen kids : List String}
    (hvalid : ∀ kid ∈ kids, isKidText kid = true) (hnodup : (kids ++ seen).Nodup) :
    ∃ out, normalizeRecipientKidsFrom seen kids = .ok out := by
  induction kids generalizing seen with
  | nil => exact ⟨seen, rfl⟩
  | cons kid kids ih =>
    have hkid := hvalid kid List.mem_cons_self
    obtain ⟨hnot, hrest⟩ := List.nodup_cons.mp hnodup
    have hfresh : kid ∉ seen := fun hmem => hnot (List.mem_append_right kids hmem)
    have hperm : (kids ++ seen.orderedInsert (· ≤ ·) kid).Perm (kid :: (kids ++ seen)) :=
      ((List.perm_orderedInsert _ kid seen).append_left kids).trans List.perm_middle
    obtain ⟨out, hout⟩ := ih (fun k hk => hvalid k (List.mem_cons_of_mem _ hk))
      (hperm.nodup_iff.mpr hnodup)
    refine ⟨out, ?_⟩
    rw [normalizeRecipientKidsFrom]
    refine bind_eq_ok.mpr ⟨_, Kid.fromCanonical_ok hkid, ?_⟩
    exact throwIf_ok.mpr ⟨hfresh, hout⟩

/-- What normalizing returns is canonical, and has the kids it was given. -/
theorem normalizeRecipientKids_ok {kids out : List String}
    (h : normalizeRecipientKids kids = .ok out) : Canonical out ∧ out.Perm kids := by
  obtain ⟨hsorted, hnodup, hperm, hvalid⟩ := normalizeRecipientKidsFrom_ok h List.Pairwise.nil
    List.nodup_nil
  rw [List.append_nil] at hperm
  exact ⟨⟨fun kid hkid => hvalid kid (hperm.mem_iff.mp hkid), hsorted, hnodup⟩, hperm⟩

theorem normalizeRecipientKids_total {kids : List String}
    (hvalid : ∀ kid ∈ kids, isKidText kid = true) (hnodup : kids.Nodup) :
    ∃ out, normalizeRecipientKids kids = .ok out :=
  normalizeRecipientKidsFrom_total hvalid ((List.append_nil kids).symm ▸ hnodup)

/-- **CANONICAL KIDS STAY AS THEY ARE**: exactly the canonical lists are their own normal form. -/
theorem normalizeRecipientKids_self {kids : List String} :
    normalizeRecipientKids kids = .ok kids ↔ Canonical kids := by
  constructor
  · intro h
    exact (normalizeRecipientKids_ok h).1
  · intro h
    obtain ⟨out, hout⟩ := normalizeRecipientKids_total h.valid h.nodup
    obtain ⟨hcanonical, hperm⟩ := normalizeRecipientKids_ok hout
    rw [hout, hperm.eq_of_pairwise' hcanonical.sorted h.sorted]

/-! ## Hashes -/

section Checks

variable (C : Crypto)

/-- The hash of a kid list; no number is in what is hashed. -/
def recipientSetHashOf (recipientKids : List String) : String :=
  encodeBase64urlNopad (C.sha256 (utf8 (jcsText (.obj [("domain",
    .str hashDomainRecipientSetV1), ("recipient_kids", .arr (recipientKids.map Json.str))])))).bytes

theorem computeRecipientSetHash_eq (recipientKids : List String) :
    computeRecipientSetHash C recipientKids = .ok (recipientSetHashOf C recipientKids) := by
  have hnumbers : numbersWithin maxSafeInteger (.obj [("domain", .str hashDomainRecipientSetV1),
      ("recipient_kids", .arr (recipientKids.map Json.str))]) = true := by
    have hkids : numbersWithinItems maxSafeInteger (recipientKids.map Json.str) = true := by
      rw [numbersWithinItems_eq_all, List.all_map]
      exact List.all_eq_true.mpr fun _ _ => rfl
    simp [numbersWithin, numbersWithinMembers, hkids]
  rw [computeRecipientSetHash, jcsNormalize, if_pos hnumbers]
  rfl

theorem recipientSetHashOf_sized (recipientKids : List String) :
    isB64urlSized 43 (recipientSetHashOf C recipientKids) = true :=
  isB64urlSized_encode _ (C.sha256 _).size (by decide)

/-! ## Timestamps -/

/-- A text the program takes for a UTC time. -/
structure UtcTime (P : TextParsers) (ts : String) : Prop where
  utc : ts.toList.getLast? = some 'Z'
  parses : (P.rfc3339 ts).isSome = true

theorem validateUtcTimestamp_ok {P : TextParsers} {ts field : String} :
    validateUtcTimestamp P ts field = .ok () ↔ UtcTime P ts := by
  rw [validateUtcTimestamp]
  by_cases hutc : ts.toList.getLast? = some 'Z'
  · rw [if_neg fun h => h hutc]
    cases hparse : P.rfc3339 ts with
    | none =>
      refine ⟨nofun, fun h => ?_⟩
      have hparses := h.parses
      rw [hparse] at hparses
      cases hparses
    | some instant => exact ⟨fun _ => ⟨hutc, by rw [hparse]; rfl⟩, fun _ => rfl⟩
  · rw [if_pos hutc]
    exact ⟨nofun, fun h => absurd h.utc hutc⟩

/-- A text of the UTC form ends in `Z`. -/
theorem getLast?_of_rfc3339Utc {ts : String} (h : isRfc3339UtcText ts = true) :
    ts.toList.getLast? = some 'Z' := by
  unfold isRfc3339UtcText isTimestampText at h
  simp only [Bool.and_eq_true] at h
  have hlast : (ts.toList.drop 19).getLast? = some 'Z' := by
    cases hrest : ts.toList.drop 19 with
    | nil => rw [hrest] at h; cases h.2
    | cons c rest =>
      rw [hrest] at h
      split at h
      · rename_i d fraction heq
        have hzone := beq_iff_eq.mp (Bool.and_eq_true_iff.mp h.2).2
        have hfraction : fraction = fraction.takeWhile Char.isDigit ++ ['Z'] := by
          rw [← hzone, List.takeWhile_append_dropWhile]
        rw [heq, hfraction, ← List.cons_append, ← List.cons_append, List.getLast?_append]
        rfl
      · rw [beq_iff_eq.mp h.2]
        rfl
  have hsplit := List.take_append_drop 19 ts.toList
  rw [← hsplit, List.getLast?_append, hlast]
  rfl

theorem CurrentTime.utcTime {P : TextParsers} (now : CurrentTime P) : UtcTime P now.text :=
  ⟨getLast?_of_rfc3339Utc now.valid, now.parses⟩

end Checks

/-! ## Sound lists -/

section Lists

variable (C : Crypto) (P : TextParsers)

/-- Known keys that pass the checks. -/
structure SoundKeys (keys : List KnownKey) : Prop where
  wellFormed : ∀ key ∈ keys, key.wellFormed = true
  kids : (keys.map KnownKey.kid).Nodup
  times : ∀ key ∈ keys, UtcTime P key.approvedAt

/-- A recipient set record that passes the checks. -/
structure SoundRecord (record : RecipientSetRecord) : Prop where
  wellFormed : record.wellFormed = true
  canonical : Canonical record.recipientKids
  hash : record.recipientSetHash = recipientSetHashOf C record.recipientKids
  time : UtcTime P record.approvedAt

/-- Recipient sets that pass the checks. -/
structure SoundSets (sets : List RecipientSetRecord) : Prop where
  records : ∀ record ∈ sets, SoundRecord C P record
  sids : (sets.map RecipientSetRecord.sid).Nodup

/-- The content of a store that passes the checks. -/
structure Sound (protect : TrustStoreProtected) : Prop where
  format : protect.format = localTrustV1
  owner : isMemberHandleText protect.ownerHandle = true
  createdForm : isRfc3339UtcText protect.createdAt = true
  updatedForm : isRfc3339UtcText protect.updatedAt = true
  created : UtcTime P protect.createdAt
  updated : UtcTime P protect.updatedAt
  keys : SoundKeys P protect.knownKeys
  sets : SoundSets C P protect.recipientSets

variable {C P}

theorem RecipientSetRecord.sid_valid {record : RecipientSetRecord}
    (h : record.wellFormed = true) : isUuidText record.sid = true := by
  simp only [RecipientSetRecord.wellFormed, Bool.and_eq_true] at h
  exact h.1.1.1.1

theorem validateRecipientSetRecord_ok (hP : P.Lawful) {record : RecipientSetRecord}
    (hform : record.wellFormed = true) :
    validateRecipientSetRecord C P record = .ok () ↔ SoundRecord C P record := by
  have huuid : ¬((P.uuid record.sid).isNone = true) := by
    rw [hP.uuid_text ⟨record.sid, RecipientSetRecord.sid_valid hform⟩]
    exact Bool.false_ne_true
  constructor
  · intro h
    rw [validateRecipientSetRecord] at h
    obtain ⟨_, h⟩ := throwIf_ok.mp h
    obtain ⟨normalized, hnormalized, h⟩ := bind_eq_ok.mp h
    obtain ⟨hsame, h⟩ := throwIf_ok.mp h
    obtain ⟨hash, hhash, h⟩ := bind_eq_ok.mp h
    obtain ⟨heq, h⟩ := throwIf_ok.mp h
    rw [not_not.mp hsame] at hnormalized
    rw [computeRecipientSetHash_eq] at hhash
    exact ⟨hform, normalizeRecipientKids_self.mp hnormalized,
      (not_not.mp heq).symm.trans (Except.ok.inj hhash).symm, validateUtcTimestamp_ok.mp h⟩
  · intro h
    rw [validateRecipientSetRecord]
    refine throwIf_ok.mpr ⟨huuid, bind_eq_ok.mpr ⟨record.recipientKids,
      normalizeRecipientKids_self.mpr h.canonical, ?_⟩⟩
    refine throwIf_ok.mpr ⟨fun hne => hne rfl, bind_eq_ok.mpr
      ⟨_, computeRecipientSetHash_eq C record.recipientKids, ?_⟩⟩
    exact throwIf_ok.mpr ⟨fun hne => hne h.hash.symm, validateUtcTimestamp_ok.mpr h.time⟩

/-- No kid comes twice, and none is among the seen ones. -/
theorem validateKnownKeysUniqueness_ok {seen : List String} {keys : List KnownKey} :
    validateKnownKeysUniqueness seen keys = .ok ()
      ↔ (keys.map KnownKey.kid).Nodup ∧ ∀ key ∈ keys, key.kid ∉ seen := by
  induction keys generalizing seen with
  | nil => exact ⟨fun _ => ⟨List.nodup_nil, fun _ hkey => by cases hkey⟩, fun _ => rfl⟩
  | cons key keys ih =>
    rw [validateKnownKeysUniqueness, List.map_cons, List.nodup_cons]
    refine Iff.trans throwIf_ok ?_
    rw [ih]
    constructor
    · rintro ⟨hfresh, hnodup, hrest⟩
      refine ⟨⟨?_, hnodup⟩, ?_⟩
      · intro hmem
        obtain ⟨other, hother, heq⟩ := List.mem_map.mp hmem
        exact hrest other hother (heq ▸ List.mem_cons_self)
      · intro other hother
        rcases List.mem_cons.mp hother with rfl | hin
        · exact hfresh
        · exact fun hseen => hrest other hin (List.mem_cons_of_mem _ hseen)
    · rintro ⟨⟨hnot, hnodup⟩, hall⟩
      refine ⟨hall key List.mem_cons_self, hnodup, ?_⟩
      intro other hother hseen
      rcases List.mem_cons.mp hseen with heq | hin
      · exact hnot (heq ▸ List.mem_map_of_mem hother)
      · exact hall other (List.mem_cons_of_mem _ hother) hin

/-- Every record passes, no sid comes twice, and none is among the seen ones. -/
theorem validateRecipientSets_ok (hP : P.Lawful) {seen : List String}
    {records : List RecipientSetRecord} (hform : ∀ record ∈ records, record.wellFormed = true) :
    validateRecipientSets C P seen records = .ok ()
      ↔ SoundSets C P records ∧ ∀ record ∈ records, record.sid ∉ seen := by
  induction records generalizing seen with
  | nil =>
    exact ⟨fun _ => ⟨⟨fun _ hrecord => (by cases hrecord), List.nodup_nil⟩,
      fun _ hrecord => (by cases hrecord)⟩, fun _ => rfl⟩
  | cons record records ih =>
    have hhead := hform record List.mem_cons_self
    have htail := @ih (record.sid :: seen)
      fun other hother => hform other (List.mem_cons_of_mem _ hother)
    rw [validateRecipientSets]
    refine Iff.trans throwIf_ok ?_
    constructor
    · rintro ⟨hfresh, h⟩
      obtain ⟨⟨⟩, hrecord, h⟩ := bind_eq_ok.mp h
      obtain ⟨hsound, hrest⟩ := htail.mp h
      refine ⟨⟨?_, ?_⟩, ?_⟩
      · intro other hother
        rcases List.mem_cons.mp hother with rfl | hin
        · exact (validateRecipientSetRecord_ok hP hhead).mp hrecord
        · exact hsound.records other hin
      · rw [List.map_cons, List.nodup_cons]
        refine ⟨fun hmem => ?_, hsound.sids⟩
        obtain ⟨other, hother, heq⟩ := List.mem_map.mp hmem
        exact hrest other hother (heq ▸ List.mem_cons_self)
      · intro other hother
        rcases List.mem_cons.mp hother with rfl | hin
        · exact hfresh
        · exact fun hseen => hrest other hin (List.mem_cons_of_mem _ hseen)
    · rintro ⟨hsound, hall⟩
      obtain ⟨hnot, hnodup⟩ := List.nodup_cons.mp hsound.sids
      refine ⟨hall record List.mem_cons_self, bind_eq_ok.mpr ⟨(),
        (validateRecipientSetRecord_ok hP hhead).mpr (hsound.records record List.mem_cons_self),
        htail.mpr ⟨⟨fun other hother => hsound.records other (List.mem_cons_of_mem _ hother),
          hnodup⟩, ?_⟩⟩⟩
      intro other hother hseen
      rcases List.mem_cons.mp hseen with heq | hin
      · exact hnot (heq ▸ List.mem_map_of_mem hother)
      · exact hall other (List.mem_cons_of_mem _ hother) hin

/-- A check of every element of a list. -/
theorem forM_ok {α : Type} {check : α → Except Error Unit} {xs : List α} :
    xs.forM check = .ok () ↔ ∀ x ∈ xs, check x = .ok () := by
  induction xs with
  | nil => exact ⟨fun _ _ hx => (by cases hx), fun _ => rfl⟩
  | cons x xs ih =>
    show (check x >>= fun _ => xs.forM check) = .ok () ↔ _
    constructor
    · intro h y hy
      obtain ⟨⟨⟩, hx, hxs⟩ := bind_eq_ok.mp h
      rcases List.mem_cons.mp hy with rfl | hin
      · exact hx
      · exact ih.mp hxs y hin
    · intro h
      exact bind_eq_ok.mpr ⟨(), h x List.mem_cons_self,
        ih.mpr fun y hy => h y (List.mem_cons_of_mem _ hy)⟩

theorem validateTimestamps_ok {protect : TrustStoreProtected} :
    validateTimestamps P protect = .ok ()
      ↔ UtcTime P protect.createdAt ∧ UtcTime P protect.updatedAt
        ∧ (∀ key ∈ protect.knownKeys, UtcTime P key.approvedAt)
        ∧ ∀ record ∈ protect.recipientSets, UtcTime P record.approvedAt := by
  constructor
  · intro h
    obtain ⟨⟨⟩, hcreated, h⟩ := bind_eq_ok.mp h
    obtain ⟨⟨⟩, hupdated, h⟩ := bind_eq_ok.mp h
    obtain ⟨⟨⟩, hkeys, hsets⟩ := bind_eq_ok.mp h
    exact ⟨validateUtcTimestamp_ok.mp hcreated, validateUtcTimestamp_ok.mp hupdated,
      fun key hkey => validateUtcTimestamp_ok.mp (forM_ok.mp hkeys key hkey),
      fun record hrecord => validateUtcTimestamp_ok.mp (forM_ok.mp hsets record hrecord)⟩
  · rintro ⟨hcreated, hupdated, hkeys, hsets⟩
    refine bind_eq_ok.mpr ⟨(), validateUtcTimestamp_ok.mpr hcreated, bind_eq_ok.mpr ⟨(),
      validateUtcTimestamp_ok.mpr hupdated, bind_eq_ok.mpr ⟨(), ?_, ?_⟩⟩⟩
    · exact forM_ok.mpr fun key hkey => validateUtcTimestamp_ok.mpr (hkeys key hkey)
    · exact forM_ok.mpr fun record hrecord => validateUtcTimestamp_ok.mpr (hsets record hrecord)

theorem wellFormed_protected {protect : TrustStoreProtected} :
    protect.wellFormed = true ↔ protect.format = localTrustV1
      ∧ isMemberHandleText protect.ownerHandle = true
      ∧ isRfc3339UtcText protect.createdAt = true ∧ isRfc3339UtcText protect.updatedAt = true
      ∧ (∀ key ∈ protect.knownKeys, key.wellFormed = true)
      ∧ ∀ record ∈ protect.recipientSets, record.wellFormed = true := by
  rw [TrustStoreProtected.wellFormed, Bool.and_eq_true, Bool.and_eq_true, Bool.and_eq_true,
    Bool.and_eq_true, Bool.and_eq_true, List.all_eq_true, List.all_eq_true, beq_iff_eq,
    and_assoc, and_assoc, and_assoc, and_assoc]

/-- **WHAT THE CHECKS COME TO**: a store passes exactly when its content is sound and its signature
    has the form the schema asks for. -/
theorem validateTrustStore_ok (hP : P.Lawful) (doc : TrustStoreDocument) :
    validateTrustStore C P doc = .ok ()
      ↔ Sound C P doc.protect ∧ doc.signature.wellFormed = true := by
  have hschema : conforms TrustStoreDocument.schema doc.toJson
      = (doc.protect.wellFormed && doc.signature.wellFormed) :=
    TrustStoreDocument.conforms_toJson doc
  constructor
  · intro h
    rw [validateTrustStore, hschema] at h
    obtain ⟨hconforms, h⟩ := throwIf_ok.mp h
    obtain ⟨_, h⟩ := throwIf_ok.mp h
    obtain ⟨⟨⟩, hunique, h⟩ := bind_eq_ok.mp h
    obtain ⟨⟨⟩, hsets, htimes⟩ := bind_eq_ok.mp h
    simp only [Bool.not_eq_true, Bool.not_eq_false', Bool.and_eq_true] at hconforms
    obtain ⟨hform, howner, hcreated, hupdated, hkeys, hrecords⟩ :=
      wellFormed_protected.mp hconforms.1
    obtain ⟨hcreatedAt, hupdatedAt, hkeyTimes, _⟩ := validateTimestamps_ok.mp htimes
    exact ⟨⟨hform, howner, hcreated, hupdated, hcreatedAt, hupdatedAt,
      ⟨hkeys, (validateKnownKeysUniqueness_ok.mp hunique).1, hkeyTimes⟩,
      ((validateRecipientSets_ok hP hrecords).mp hsets).1⟩, hconforms.2⟩
  · rintro ⟨h, hsignature⟩
    have hrecords : ∀ record ∈ doc.protect.recipientSets, record.wellFormed = true :=
      fun record hrecord => (h.sets.records record hrecord).wellFormed
    have hprotect : doc.protect.wellFormed = true :=
      wellFormed_protected.mpr ⟨h.format, h.owner, h.createdForm, h.updatedForm,
        h.keys.wellFormed, hrecords⟩
    rw [validateTrustStore, hschema, hprotect, hsignature]
    refine throwIf_ok.mpr ⟨Bool.false_ne_true, throwIf_ok.mpr ⟨fun hne => hne h.format, ?_⟩⟩
    refine bind_eq_ok.mpr ⟨(), validateKnownKeysUniqueness_ok.mpr
      ⟨h.keys.kids, fun _ _ => List.not_mem_nil⟩, bind_eq_ok.mpr ⟨(),
        (validateRecipientSets_ok hP hrecords).mpr ⟨h.sets, fun _ _ => List.not_mem_nil⟩, ?_⟩⟩
    exact validateTimestamps_ok.mpr ⟨h.created, h.updated, h.keys.times,
      fun record hrecord => (h.sets.records record hrecord).time⟩

end Lists

end TrustSoundness

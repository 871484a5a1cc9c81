import Kapsaro.FileAgreement
import Kapsaro.KvAuthority
import Kapsaro.KvDisclosure

/-!
# Rewrap outcome — the recipients and the sid of what a rewrap writes

`feature/rewrap.rs` over both backends: whatever steps a plan takes, the text a rewrap returns
spells one document, and that document is for the target members.  Its sid is another matter:
file-enc documents are edited in place, kv-enc documents are encrypted anew under a drawn sid, while
`service/trust/core.rs` has judged the recipients under the sid of the input.

* **`SpellsFile`** — the document a file-enc text is read as.
* **`spells_kvRun`**, **`spells_fileRun`** — the document a rewrap wrote.
* **`rewrap_recipients`** — it is wrapped for the target members, each once, and for nobody else.
* **`PublishesJudged`** — sid and kids are those that were judged; **`rewrap_sid`** — when they are.
-/

namespace RewrapOutcome

open JsonText Limits TextLines WireTexts WireModel DocumentTokens TokenRecords KvLines Envelope
open KvDocument SignedArtifacts KeyedList KvDraft Recipients KvSession FileDocument RewrapPlan
open FileRewrap KvRewrap KvDisclosure JsonSize ToyCrypto ToyDocuments ToyRewraps TrustRecords
open TrustStore TrustSoundness TrustPolicy TrustEvaluation KvAuthority FileAgreement

variable {C : Crypto} {draws : RewrapDraws} {content text : String} {ctx : RewrapContext}

/-! ## The written document -/

/-- A file-enc text spells a document: it is the text that is written for it. -/
inductive SpellsFile : String → FileEncDocument → Prop
  | intro {doc : FileEncDocument} : doc.signature.signerPub.wellFormed = true →
      KeyPossessionProof.parse doc.signature.mac.wire = some doc.signature.mac →
      SpellsFile (writeFileEnc doc) doc

/-- **WHAT READS A FILE-ENC TEXT READS THE DOCUMENT IT SPELLS.** -/
theorem SpellsFile.read {sourceName : String} {a b : FileEncDocument} (h : SpellsFile text a)
    (hparse : parseFileEncStr text sourceName = .ok b) : b = a := by
  cases h with
  | intro hpub hmac => exact written_parse hpub hmac hparse

/-- **A FILE-ENC TEXT SPELLS ONE DOCUMENT.** -/
theorem SpellsFile.unique {a b : FileEncDocument} (ha : SpellsFile text a)
    (hb : SpellsFile text b) : a = b := by
  have hvalue : ∀ {d : FileEncDocument}, SpellsFile text d →
      parseJsonValue (utf8 text) "" "FileEncDocument" = .ok d.toJson
        ∧ FileEncDocument.fromJson d.toJson = some d := by
    intro d hd
    cases hd with
    | intro hpub hmac =>
      exact ⟨parseJsonValue_textAt true d.toJson "" "FileEncDocument" (bounded_fileEnc hpub).names
        (bounded_fileEnc hpub).numbers, (reads_fileEnc d hmac).1⟩
  obtain ⟨hparseA, hreadA⟩ := hvalue ha
  obtain ⟨hparseB, hreadB⟩ := hvalue hb
  rw [hparseA] at hparseB
  rw [Except.ok.inj hparseB, hreadB] at hreadA
  exact (Option.some.inj hreadA).symm

/-- **THE DOCUMENT A KV-ENC REWRAP WROTE.** -/
theorem spells_kvRun (run : KvRun C draws content ctx text) :
    Spells text (run.draft.document run.entries run.signature) := by
  obtain ⟨_, _, _, haccepted⟩ := run.written.tracks.accepted
  have hvalid : ∀ entry ∈ run.draft.entries, isValidKeyName entry.key = true := by
    intro e he
    obtain ⟨entry, hentry, hheld⟩ := exists_right_of_mem run.written.stands.entries he
    obtain ⟨old, hold, hpayload⟩ := exists_left_of_mem run.written.payload hentry
    rw [← hheld.key, hpayload.1]
    exact haccepted.keys old hold
  have hspells : Spells (run.draft.signedWith run.signature)
      (run.draft.document run.entries run.signature) :=
    .intro run.written.stands run.signed.checked hvalid
  exact (congrArg (fun written => Spells written _) run.signed.text_eq).mpr hspells

/-- **THE DOCUMENT A FILE-ENC REWRAP WROTE.** -/
theorem spells_fileRun (run : FileRun C draws content ctx text) :
    SpellsFile text run.output := by
  obtain ⟨hwell, hparse⟩ := wellFormed_buildArtifactSignature run.signing run.proof
  rw [← run.signature_eq] at hwell
  have hpub : run.output.signature.signerPub.wellFormed = true := by
    simp only [ArtifactSignature.wellFormed, Bool.and_eq_true] at hwell
    exact hwell.1.1.2
  have hmac : run.output.signature.mac = run.mac := by rw [run.signature_eq]; rfl
  rw [← hmac] at hparse
  have hspells : SpellsFile (writeFileEnc run.output) run.output := .intro hpub hparse
  exact (congrArg (fun written => SpellsFile written _) run.text_eq).mpr hspells

/-! ## Recipients -/

/-- Wraps are for the target members: each of them has one, under its kid, and nobody else has. -/
structure WrappedFor (targetMembers : List VerifiedRecipientKey) (items : List WrapItem) :
    Prop where
  recipients : (recipientTable items).Perm (targetTable targetMembers)
  distinct : (recipientTable items).Nodup

/-- With one member for each handle, wraps for the targets are distinct. -/
theorem wrappedFor_of_perm {targetMembers : List VerifiedRecipientKey} {items : List WrapItem}
    (htarget : (targetMembers.map VerifiedRecipientKey.subjectHandle).Nodup)
    (h : (recipientTable items).Perm (targetTable targetMembers)) :
    WrappedFor targetMembers items := by
  refine ⟨h, h.nodup_iff.mpr ?_⟩
  rw [← keys_targetTable] at htarget
  exact htarget.of_map

/-- The wraps of a verified file have distinct handles. -/
theorem handles_of_verifyFile {input : FileEncDocument}
    (h : verifyFileContent C content = .ok input) :
    (input.protect.wrap.map WrapItem.recipientHandle).Nodup := by
  obtain ⟨parsed, _, h⟩ := bind_eq_ok.mp h
  obtain ⟨⟨⟩, hitems, h⟩ := bind_eq_ok.mp h
  obtain ⟨_, _, h⟩ := bind_eq_ok.mp h
  obtain ⟨_, _, h⟩ := bind_eq_ok.mp h
  obtain rfl := Except.ok.inj h
  exact (validateWrapItems_ok.mp hitems).2.1

/-- **A KV-ENC REWRAP ENDS ON THE TARGET.** -/
theorem wrappedFor_kvRun (hC : Lawful C)
    (htarget : (ctx.targetMembers.map VerifiedRecipientKey.subjectHandle).Nodup)
    (run : KvRun C draws content ctx text) :
    WrappedFor ctx.targetMembers run.draft.wrap.data.wrap := by
  obtain ⟨_, _, haccepted⟩ := accepted_of_verify run.verified
  obtain ⟨hrecipients, htracks⟩ := tracks_initial run.verified run.built
  refine wrappedFor_of_perm htarget ?_
  rw [run.wraps]
  exact recipients_of_plan (kvLaws hC ctx) ⟨_, _, htracks⟩ hrecipients
    (wrapChecked_of_parse haccepted.wrap).handles htarget run.steps

/-- **A FILE-ENC REWRAP ENDS ON THE TARGET.** -/
theorem wrappedFor_fileRun
    (htarget : (ctx.targetMembers.map VerifiedRecipientKey.subjectHandle).Nodup)
    (run : FileRun C draws content ctx text) :
    WrappedFor ctx.targetMembers run.output.protect.wrap := by
  refine wrappedFor_of_perm htarget ?_
  rw [run.wraps]
  exact recipients_of_plan (fileLaws ctx run.input) ⟨_, tracks_initial run.input ctx⟩ rfl
    (handles_of_verifyFile run.verified) htarget run.steps

/-- Whom the document is for that a successful rewrap wrote. -/
structure RecipientsOutcome (C : Crypto) (draws : RewrapDraws) (ctx : RewrapContext) : Prop where
  /-- of a kv-enc document: exactly the target members -/
  kv : ∀ {content text}, rewrapKvDocument C draws content ctx = .ok text →
    ∃ output, Spells text output ∧ WrappedFor ctx.targetMembers output.wrap.wrap
  /-- and so of a file-enc document -/
  file : ∀ {content text}, rewrapFileDocument C draws content ctx = .ok text →
    ∃ output, SpellsFile text output ∧ WrappedFor ctx.targetMembers output.protect.wrap

/-- **A REWRAP ENDS ON THE TARGET**, in either backend and whatever it had to remove, replace, add
    or rotate. -/
theorem rewrap_recipients (hC : Lawful C)
    (htarget : (ctx.targetMembers.map VerifiedRecipientKey.subjectHandle).Nodup) :
    RecipientsOutcome C draws ctx where
  kv := by
    intro content text hrewrap
    obtain ⟨run⟩ := kv_run hC hrewrap
    exact ⟨_, spells_kvRun run, wrappedFor_kvRun hC htarget run⟩
  file := by
    intro content text hrewrap
    obtain ⟨run⟩ := file_run hrewrap
    exact ⟨_, spells_fileRun run, wrappedFor_fileRun htarget run⟩

theorem nodup_teamAfter :
    (aliceChanges.targetMembers.map VerifiedRecipientKey.subjectHandle).Nodup := by
  rw [show aliceChanges.targetMembers = teamAfter.map ToyPerson.member from rfl, handles_members]
  decide

/-- A document and a file change hands: carol leaves, bob has a new key, dave joins. -/
theorem rewrap_recipients_toy :
    (∃ content text output, rewrapKvDocument toyCrypto sameDraws content aliceChanges = .ok text
        ∧ Spells text output ∧ WrappedFor aliceChanges.targetMembers output.wrap.wrap)
      ∧ ∃ content text output,
        rewrapFileDocument toyCrypto sameDraws content aliceChanges = .ok text
        ∧ SpellsFile text output ∧ WrappedFor aliceChanges.targetMembers output.protect.wrap := by
  have houtcome := @rewrap_recipients toyCrypto sameDraws aliceChanges lawful_toyCrypto
    nodup_teamAfter
  obtain ⟨content, hcontent⟩ := toyText_people toySid course_change.before shortHistory_none
    (pad 32 [1]) toyMarks_toyMarks (List.mem_cons_self (a := aliceOnly))
  obtain ⟨text, hrewrap, _⟩ := changed_toyKv toyMarks_toyMarks hcontent
  obtain ⟨output, hspells, hwrapped⟩ := houtcome.kv hrewrap
  obtain ⟨doc, hdoc⟩ := verify_toyFile toySid toySid
    (smallWraps_team course_change.before (pad 32 [1]))
    shortHistory_none (pad 32 [1]) [] alice []
  obtain ⟨changed, hfile, _⟩ := changed_toyFile (by decide) hdoc
  obtain ⟨fileOutput, hfileSpells, hfileWrapped⟩ := houtcome.file hfile
  exact ⟨⟨content, text, output, hrewrap, hspells, hwrapped⟩,
    _, _, fileOutput, hfile, hfileSpells, hfileWrapped⟩

/-! ## The sid -/

/-- A published document is what was judged: whoever evaluates it finds the sid and the kids that
    the evaluation of the rewrap was about. -/
def PublishesJudged (C : Crypto) (judged : RecipientSetSubject) (sid : Uuid)
    (items : List WrapItem) : Prop :=
  ∀ signerPublicKey, ∃ published,
    RecipientSetSubject.fromVerified C ⟨signerPublicKey, sid, items⟩ = .ok published
      ∧ published.inner.sid = judged.inner.sid
      ∧ published.inner.recipientKids = judged.inner.recipientKids

/-- A set of kids that can be normalized gets its hash. -/
theorem new_of_normalize (sid : Uuid) {kids normalized : List String}
    (h : normalizeRecipientKids kids = .ok normalized) :
    ArtifactRecipientSet.new C sid kids
      = .ok ⟨sid, normalized, recipientSetHashOf C normalized, []⟩ :=
  bind_eq_ok.mpr ⟨normalized, h, bind_eq_ok.mpr ⟨_, computeRecipientSetHash_eq C normalized, rfl⟩⟩

/-- The kids and handles of wraps for target members are read. -/
theorem hints_total {targetMembers : List VerifiedRecipientKey} {items : List WrapItem}
    (h : WrappedFor targetMembers items) :
    ∃ hints, buildRecipientHandleHints items = .ok hints := by
  have htexts : ∀ item ∈ items, isMemberHandleText item.recipientHandle = true
      ∧ isKidText item.kid = true := by
    intro item hitem
    have hmem := h.recipients.mem_iff.mp (List.mem_map_of_mem (f := recipientOf) hitem)
    obtain ⟨member, _, hidentity⟩ := List.mem_map.mp hmem
    obtain ⟨hhandle, hkid⟩ := Prod.mk.inj hidentity
    rw [← hhandle, ← hkid]
    exact member.texts
  have hlisted : ∃ hints, (items.mapM fun item => do
      let kid ← Kid.fromCanonical item.kid
      let handle ← MemberHandle.tryFrom item.recipientHandle
      pure (⟨kid.text, handle.text⟩ : RecipientHandleHint)) = .ok hints := by
    refine exists_mapM_ok.mpr fun item hitem => ?_
    obtain ⟨hhandle, hkid⟩ := htexts item hitem
    exact ⟨_, bind_eq_ok.mpr ⟨_, Kid.fromCanonical_ok hkid, bind_eq_ok.mpr
      ⟨_, MemberHandle.tryFrom_ok hhandle, rfl⟩⟩⟩
  obtain ⟨hints, hhints⟩ := hlisted
  exact ⟨_, bind_eq_ok.mpr ⟨hints, hhints, rfl⟩⟩

/-- **WHOEVER EVALUATES A DOCUMENT FOR THE TARGET MEMBERS** finds the kids that were judged, under
    the sid of the document. -/
theorem fromVerified_wrappedFor {targetMembers : List VerifiedRecipientKey}
    {items : List WrapItem} (hwrapped : WrappedFor targetMembers items)
    {recipients : RecipientKeys} (hkeys : recipients.keys = targetMembers) {judgedSid sid : Uuid}
    {judged : RecipientSetSubject}
    (hjudged : RecipientSetSubject.fromOutputRecipients C judgedSid recipients = .ok judged)
    (signerPublicKey : Option LoadedPublicKey) :
    ∃ published, RecipientSetSubject.fromVerified C ⟨signerPublicKey, sid, items⟩ = .ok published
      ∧ published.inner.sid = sid
      ∧ published.inner.recipientKids = judged.inner.recipientKids := by
  obtain ⟨inner, hinner, hparsed⟩ := bind_eq_ok.mp hjudged
  obtain ⟨kids, hparse, hjudged⟩ := bind_eq_ok.mp hparsed
  obtain ⟨base, hbase, hset⟩ := bind_eq_ok.mp hinner
  obtain ⟨normalized, hnormalized, hbase⟩ := bind_eq_ok.mp hbase
  obtain ⟨hash, _, hbase⟩ := bind_eq_ok.mp hbase
  obtain rfl := Except.ok.inj hbase
  obtain rfl := Except.ok.inj hset
  obtain rfl := Except.ok.inj hjudged
  obtain ⟨hcanonical, hperm⟩ := normalizeRecipientKids_ok hnormalized
  have hitems : (items.map WrapItem.kid).Perm normalized := by
    have htable := hwrapped.recipients.map Prod.snd
    rw [recipientTable, targetTable, List.map_map, List.map_map] at htable
    rw [hkeys, List.map_map] at hperm
    exact htable.trans hperm.symm
  obtain ⟨out, hout⟩ := normalizeRecipientKids_total
    (fun kid hkid => hcanonical.valid kid (hitems.mem_iff.mp hkid))
    (hitems.nodup_iff.mpr hcanonical.nodup)
  obtain ⟨houtCanonical, houtPerm⟩ := normalizeRecipientKids_ok hout
  obtain rfl : out = normalized :=
    (houtPerm.trans hitems).eq_of_pairwise' houtCanonical.sorted hcanonical.sorted
  obtain ⟨hints, hhints⟩ := hints_total hwrapped
  exact ⟨⟨⟨sid, out, recipientSetHashOf C out, hints⟩, kids⟩,
    bind_eq_ok.mpr ⟨_, bind_eq_ok.mpr ⟨_, new_of_normalize sid hout,
      bind_eq_ok.mpr ⟨hints, hhints, rfl⟩⟩, bind_eq_ok.mpr ⟨kids, hparse, rfl⟩⟩, rfl, rfl⟩

/-- **THE SID DECIDES** whether a document for the target members is what was judged. -/
theorem publishesJudged_iff {targetMembers : List VerifiedRecipientKey} {items : List WrapItem}
    (hwrapped : WrappedFor targetMembers items) {recipients : RecipientKeys}
    (hkeys : recipients.keys = targetMembers) {judgedSid sid : Uuid}
    {judged : RecipientSetSubject}
    (hjudged : RecipientSetSubject.fromOutputRecipients C judgedSid recipients = .ok judged) :
    PublishesJudged C judged sid items ↔ sid = judgedSid := by
  have hsid := (fromOutputRecipients_ok hjudged).1
  constructor
  · intro h
    obtain ⟨published, hpublished, hsame, _⟩ := h none
    obtain ⟨published', hpublished', hsid', _⟩ :=
      fromVerified_wrappedFor hwrapped hkeys hjudged none
    rw [hpublished] at hpublished'
    rw [← hsid', ← Except.ok.inj hpublished', hsame, hsid]
  · rintro rfl signerPublicKey
    obtain ⟨published, hpublished, hsid', hkids⟩ :=
      fromVerified_wrappedFor hwrapped hkeys hjudged signerPublicKey
    exact ⟨published, hpublished, hsid'.trans hsid.symm, hkids⟩

/-- A plan keeps the sid of a kv-enc document: it neither removes a recipient nor rotates the key,
    or the sid that is drawn for it is the old one. -/
def KeepsSid (draws : RewrapDraws) (plan : RewrapOperationPlan) (sid : Uuid) : Prop :=
  ∀ entropy, renewalDraws draws plan = some entropy → entropy.sid = sid

/-- **THE SID OF A KV-ENC REWRAP**: that of the input, or the one that was drawn. -/
theorem sid_kvRun (run : KvRun C draws content ctx text) :
    run.draft.head.sid = match renewalDraws draws (planOf run.input ctx) with
      | some entropy => entropy.sid
      | none => run.input.head.sid := by
  have hplan := @planFor_start C ctx _ _ (tracks_initial run.verified run.built).1
  have horigin := run.written.tracks.origin
  rw [hplan] at horigin
  rw [run.written.sid]
  cases hrenewal : renewalDraws draws (planOf run.input ctx) with
  | none =>
    rw [hrenewal] at horigin
    cases horigin with
    | original _ hverified => rw [hverified]
  | some entropy =>
    rw [hrenewal] at horigin
    cases horigin with
    | rotated _ hfrom => exact hfrom.fresh.sid

/-- What a rewrap publishes, against what was judged for it. -/
structure SidOutcome (C : Crypto) (draws : RewrapDraws) (ctx : RewrapContext)
    (recipients : RecipientKeys) : Prop where
  /-- a kv-enc document is what was judged exactly when its plan keeps the sid -/
  kv : ∀ {content text input judged}, verifyKvContent C content = .ok input →
    RecipientSetSubject.fromOutputRecipients C input.head.sid recipients = .ok judged →
    rewrapKvDocument C draws content ctx = .ok text →
    ((∃ output, Spells text output ∧ output.head.sid = input.head.sid
        ∧ PublishesJudged C judged output.head.sid output.wrap.wrap)
      ↔ KeepsSid draws (planOf input ctx) input.head.sid)
  /-- a file-enc document always is -/
  file : ∀ {content text input judged}, verifyFileContent C content = .ok input →
    RecipientSetSubject.fromOutputRecipients C input.protect.sid recipients = .ok judged →
    rewrapFileDocument C draws content ctx = .ok text →
    ∃ output, SpellsFile text output ∧ output.protect.sid = input.protect.sid
      ∧ PublishesJudged C judged output.protect.sid output.protect.wrap
  /-- and what is as judged is judged again as it was, whatever was approved since -/
  next : ∀ {judged sid items}, PublishesJudged C judged sid items →
    ∀ signerPublicKey published,
      RecipientSetSubject.fromVerified C ⟨signerPublicKey, sid, items⟩ = .ok published →
      ∀ records, judgeRecipientSet records published.inner = judgeRecipientSet records judged.inner

/-- **A REWRAP PUBLISHES WHAT WAS JUDGED** in a file-enc document always, in a kv-enc document
    exactly when it is not encrypted anew under another sid. -/
theorem rewrap_sid (hC : Lawful C)
    (htarget : (ctx.targetMembers.map VerifiedRecipientKey.subjectHandle).Nodup)
    {recipients : RecipientKeys} (hkeys : recipients.keys = ctx.targetMembers) :
    SidOutcome C draws ctx recipients where
  kv := by
    intro content text input judged hverify hjudged hrewrap
    obtain ⟨run⟩ := kv_run hC hrewrap
    have hinput : run.input = input := Except.ok.inj (run.verified.symm.trans hverify)
    have hspells := spells_kvRun run
    have hsid := sid_kvRun run
    have hwrapped := wrappedFor_kvRun hC htarget run
    rw [hinput] at hsid
    -- The document is published under the drawn sid of a renewal, if there was one.
    have hkeeps : KeepsSid draws (planOf input ctx) input.head.sid
        ↔ run.draft.head.sid = input.head.sid := by
      rw [hsid, KeepsSid]
      cases renewalDraws draws (planOf input ctx) with
      | none => exact ⟨fun _ => rfl, fun _ _ h => by cases h⟩
      | some entropy =>
        refine ⟨fun h => h entropy rfl, fun h other hother => ?_⟩
        rw [← Option.some.inj hother]
        exact h
    rw [hkeeps]
    constructor
    · rintro ⟨output, houtput, hsame, _⟩
      rw [houtput.unique hspells] at hsame
      exact hsame
    · intro hsame
      exact ⟨_, hspells, hsame, (publishesJudged_iff hwrapped hkeys hjudged).mpr hsame⟩
  file := by
    intro content text input judged hverify hjudged hrewrap
    obtain ⟨run⟩ := file_run hrewrap
    have hinput : run.input = input := Except.ok.inj (run.verified.symm.trans hverify)
    have hsame : run.output.protect.sid = input.protect.sid := by
      rw [run.protect_eq, ← hinput]
      exact run.tracks.sid
    exact ⟨run.output, spells_fileRun run, hsame,
      (publishesJudged_iff (wrappedFor_fileRun htarget run) hkeys hjudged).mpr hsame⟩
  next := by
    intro judged sid items h signerPublicKey published hpublished records
    obtain ⟨found, hfound, hsid, hkids⟩ := h signerPublicKey
    rw [hpublished] at hfound
    obtain rfl := Except.ok.inj hfound
    rw [judgeRecipientSet, judgeRecipientSet, hsid, hkids]

/-! ## Alice's rotation -/

/-- Recipients with distinct kids are judged. -/
theorem fromOutputRecipients_total (sid : Uuid) {recipients : RecipientKeys}
    (h : (recipients.keys.map VerifiedRecipientKey.kid).Nodup) :
    ∃ judged, RecipientSetSubject.fromOutputRecipients C sid recipients = .ok judged := by
  have hkids : (recipients.keys.map fun key => key.document).map (fun key => key.protect.kid)
      = recipients.keys.map VerifiedRecipientKey.kid := by
    rw [List.map_map]
    rfl
  have hvalid : ∀ kid ∈ recipients.keys.map VerifiedRecipientKey.kid, isKidText kid = true := by
    intro kid hkid
    obtain ⟨key, _, rfl⟩ := List.mem_map.mp hkid
    exact key.texts.2
  obtain ⟨normalized, hnormalized⟩ := normalizeRecipientKids_total hvalid h
  rw [← hkids] at hnormalized
  have hcanonical := (normalizeRecipientKids_ok hnormalized).1
  obtain ⟨kids, hparse⟩ : ∃ kids, normalized.mapM Kid.fromCanonical = .ok kids :=
    exists_mapM_ok.mpr fun kid hkid => ⟨_, Kid.fromCanonical_ok (hcanonical.valid kid hkid)⟩
  exact ⟨_, bind_eq_ok.mpr ⟨_, bind_eq_ok.mpr ⟨_, new_of_normalize sid hnormalized, rfl⟩,
    bind_eq_ok.mpr ⟨kids, hparse, rfl⟩⟩⟩

/-- The recipients of a rotation by alice. -/
def aliceKeys : RecipientKeys := ⟨aliceRotates.targetMembers⟩

/-- Alice rotates a document of hers, and goes on with the sid that is drawn. -/
theorem rotated_aliceDocument :
    ∃ content text input output, verifyKvContent toyCrypto content = .ok input
      ∧ rewrapKvDocument toyCrypto sameDraws content aliceRotates = .ok text
      ∧ Spells text output ∧ input.head.sid = toySid ∧ output.head.sid = freshSid := by
  obtain ⟨content, hcontent⟩ := toyText_people toySid course_rotation.before shortHistory_none
    (pad 32 [1]) toyMarks_toyMarks List.mem_cons_self
  obtain ⟨text, hrewrap, hrotated⟩ := rotated_toyKv toyMarks_toyMarks shortHistory_none hcontent
  obtain ⟨before, _, hbefore, _, hverify⟩ := hcontent
  obtain ⟨after, _, hafter, _, hread⟩ := hrotated
  obtain ⟨run⟩ := kv_run lawful_toyCrypto hrewrap
  have hspells := spells_kvRun run
  have hdoc := hspells.read (parse_of_verify hread)
  refine ⟨content, text, _, _, hverify, hrewrap, hspells, ?_, ?_⟩
  · exact congrArg KvHeader.sid hbefore.head
  · rw [← hdoc]
    exact congrArg KvHeader.sid hafter.head

/-- Alice's rotation of a file keeps the sid that was judged. -/
theorem rewrap_sid_toy :
    ∃ content text judged output,
      RecipientSetSubject.fromOutputRecipients toyCrypto toySid aliceKeys = .ok judged
        ∧ rewrapFileDocument toyCrypto sameDraws content aliceRotates = .ok text
        ∧ SpellsFile text output
        ∧ PublishesJudged toyCrypto judged output.protect.sid output.protect.wrap := by
  obtain ⟨judged, hjudged⟩ := @fromOutputRecipients_total toyCrypto toySid aliceKeys
    (List.nodup_singleton _)
  obtain ⟨doc, text, hverify, hsid, _, hrewrap⟩ := rotated_aliceFile toySid
  have houtcome := @rewrap_sid toyCrypto sameDraws aliceRotates lawful_toyCrypto
    (List.nodup_singleton _) aliceKeys rfl
  obtain ⟨output, hspells, _, hpublishes⟩ := houtcome.file hverify (hsid.symm ▸ hjudged) hrewrap
  exact ⟨_, text, judged, output, hjudged, hrewrap, hspells, hpublishes⟩

/-- **A ROTATION PUBLISHES WHAT WAS NOT JUDGED**: the approval that the evaluation asked for is of
    no use for alice's document once she has rotated its key. -/
theorem rotation_unjudged :
    ∃ content text input judged, verifyKvContent toyCrypto content = .ok input
      ∧ RecipientSetSubject.fromOutputRecipients toyCrypto input.head.sid aliceKeys = .ok judged
      ∧ rewrapKvDocument toyCrypto sameDraws content aliceRotates = .ok text
      ∧ (¬∃ output, Spells text output ∧ output.head.sid = input.head.sid
          ∧ PublishesJudged toyCrypto judged output.head.sid output.wrap.wrap)
      ∧ ∃ output published, Spells text output
        ∧ RecipientSetSubject.fromVerified toyCrypto ⟨none, output.head.sid, output.wrap.wrap⟩
          = .ok published
        ∧ judgeRecipientSet [judged.inner.intoRecord toyTime.text] judged.inner = .accepted
        ∧ judgeRecipientSet [judged.inner.intoRecord toyTime.text] published.inner = .missing := by
  obtain ⟨content, text, input, output, hverify, hrewrap, hspells, hold, hnew⟩ :=
    rotated_aliceDocument
  obtain ⟨judged, hjudged⟩ := @fromOutputRecipients_total toyCrypto input.head.sid aliceKeys
    (List.nodup_singleton _)
  have hjudgedSid := (fromOutputRecipients_ok hjudged).1
  have hne : output.head.sid ≠ input.head.sid := by
    rw [hold, hnew]
    decide
  obtain ⟨run⟩ := kv_run lawful_toyCrypto hrewrap
  have houtput := hspells.unique (spells_kvRun run)
  have htarget : (aliceRotates.targetMembers.map VerifiedRecipientKey.subjectHandle).Nodup :=
    List.nodup_singleton _
  have hwrapped : WrappedFor aliceRotates.targetMembers output.wrap.wrap := by
    rw [houtput]
    exact wrappedFor_kvRun lawful_toyCrypto htarget run
  obtain ⟨published, hpublished, hsid, _⟩ :=
    @fromVerified_wrappedFor toyCrypto _ _ hwrapped aliceKeys rfl _ output.head.sid
      judged hjudged none
  refine ⟨content, text, input, judged, hverify, hjudged, hrewrap, ?_, output, published, hspells,
    hpublished, ?_, ?_⟩
  · rintro ⟨other, hother, hsame, _⟩
    rw [hother.unique hspells] at hsame
    exact hne hsame
  · have hfind : [judged.inner.intoRecord toyTime.text].find?
        (fun record => record.sid = judged.inner.sid.text)
          = some (judged.inner.intoRecord toyTime.text) :=
      List.find?_cons_of_pos (decide_eq_true rfl)
    rw [judgeRecipientSet, hfind]
    exact if_pos rfl
  · have hfind : [judged.inner.intoRecord toyTime.text].find?
        (fun record => record.sid = published.inner.sid.text) = none := by
      refine List.find?_eq_none.mpr fun record hrecord => ?_
      rw [List.mem_singleton.mp hrecord, hsid, hnew]
      show ¬decide (judged.inner.sid.text = freshSid.text) = true
      rw [hjudgedSid, hold]
      decide
    rw [judgeRecipientSet, hfind]

end RewrapOutcome

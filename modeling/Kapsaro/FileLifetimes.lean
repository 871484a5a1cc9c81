import Kapsaro.FileEncryption
import Kapsaro.HistoryRuns
import Kapsaro.KvStore
import Kapsaro.ToyRewraps

/-!
# File lifetimes — a file-enc document from its encryption on

Bytes are encrypted for members once; after that the document is only rewrapped, each time for
target members of its own.  It stands for a sealed store with one value, and a rewrap is a regrant
of it.

* **`FileStores`** — a document stands for a store; **`stores_encrypted`**, **`stores_fileRewrap`**
  — the encryption and a rewrap.
* **`encryption_laws`** — a new document verifies, is for each handle once, and is read back by its
  recipients exactly within the input limit.
* **`FileReadsAs`**, **`fileLifetimes_read`** — so is every later document, by its own members,
  whatever the rewraps in between did.
* **`fileLifetimes_revoke`** — whoever a rewrap left out was never given the key of the document it
  is missing from, as long as no key is drawn twice.
-/

namespace FileLifetimes

open JsonText JsonMembers JsonLimits Limits TextLines Base64Codec WireTexts WireModel DocumentTokens
open TokenRecords Envelope SignedArtifacts KeyedList Recipients RewrapPlan FileDocument FileRewrap
open RewrapOutcome FileAgreement HistoryRuns RewrapKeys SealedStores KvStore FileEncryption
open JsonSize ToyCrypto ToyDocuments ToyRewraps

variable {C : Crypto}

/-- One value, sealed for members. -/
abbrev FileStore := Store MasterKey String Unit Bytes

/-- The store of some bytes. -/
def fileStore (key : MasterKey) (members : List VerifiedRecipientKey) (content : Bytes) :
    FileStore where
  key := key
  holders := handlesOf members
  table := fun _ => some content

/-! ## What a document stands for -/

/-- A document stands for a store, for the members it was written for; whoever was served so far is
    among `served`. -/
structure FileStores (C : Crypto) (served members : List VerifiedRecipientKey)
    (doc : FileEncDocument) (store : FileStore) : Prop where
  known : members ⊆ served
  /-- every wrap seals the key -/
  seals : ∀ item ∈ doc.protect.wrap, WrapSeals C .file doc.protect.sid store.key served item
  /-- the wraps are for the members, and for nobody else -/
  recipients : (recipientTable doc.protect.wrap).Perm (targetTable members)
  holders : store.holders = handlesOf members
  /-- the proof of possession was made with the key -/
  possession : verifyFileKeyPossession C doc store.key = .ok ()
  payloadSid : doc.protect.payload.protect.sid = doc.protect.sid
  /-- the payload encrypts the value under the key -/
  encrypts : ∃ content nonce, store.table () = some content
    ∧ encryptFilePayloadContent C content (payloadKey C store.key doc.protect.sid)
      doc.protect.payload.protect nonce = .ok doc.protect.payload.encrypted

/-- Whatever a text is read as stands for a store. -/
def FileTextStores (C : Crypto) (served : List VerifiedRecipientKey) (written : WrappedText)
    (store : FileStore) : Prop :=
  ∀ doc, verifyFileContent C written.text = .ok doc → FileStores C served written.members doc store

variable {served members : List VerifiedRecipientKey}

/-- The holders of the key are those with a wrap. -/
theorem FileStores.mem_holders {doc : FileEncDocument} {store : FileStore}
    (h : FileStores C served members doc store) (handle : String) :
    handle ∈ store.holders ↔ handle ∈ doc.protect.wrap.map WrapItem.recipientHandle := by
  rw [h.holders, (handles_of_recipients h.recipients).mem_iff]
  rfl

/-- The key that opens a wrap of such a document is the key of the store. -/
theorem key_of_unwrap_file {doc : FileEncDocument} {store : FileStore}
    (h : FileStores C served members doc store) {handle : String} {keyCtx : CryptoContext}
    {masterKey : MasterKey}
    (hunwrap : unwrapMasterKeyWithContext C .file doc.protect.sid doc.protect.wrap handle keyCtx
      = .ok masterKey) : masterKey = store.key := by
  obtain ⟨item, hitem, kemSecret, hopens⟩ := opensTo_of_unwrap hunwrap
  exact (h.seals item hitem).only hopens

/-! ## Encryption -/

/-- **A NEW DOCUMENT** stands for its bytes, under the drawn key, for the members. -/
theorem stores_encrypted (hC : Ideal C) {content : Bytes} {signing : SigningContext}
    {entropy : Entropy} {doc : FileEncDocument} (hserved : members ⊆ served)
    (h : Encrypted C content members signing entropy doc) :
    FileStores C served members doc (fileStore entropy.masterKey members content) := by
  refine ⟨hserved, ?_, recipients_built h.wraps, rfl, h.possession, ?_, content, entropy.nonce 0,
    rfl, ?_⟩
  · rw [h.sid]
    exact fun item hitem => (seals_built hC h.wraps item hitem).mono hserved
  · rw [h.header, h.sid]
    rfl
  · rw [h.header, h.sid]
    exact h.payload

/-! ## Rewrap -/

/-- **A REWRAP IS A REGRANT**: the bytes stay; the key stays if nobody leaves, or is a drawn one. -/
theorem stores_fileRewrap (hC : Ideal C) {content text : String} {store : FileStore}
    {draws : RewrapDraws} {ctx : RewrapContext}
    (htarget : (ctx.targetMembers.map VerifiedRecipientKey.subjectHandle).Nodup)
    (hserved : ctx.targetMembers ⊆ served)
    (hbefore : FileTextStores C served ⟨members, content⟩ store)
    (h : rewrapFileDocument C draws content ctx = .ok text) :
    ∃ next, Step (.regrant (drawnKeys draws)) store next
      ∧ FileTextStores C served ⟨ctx.targetMembers, text⟩ next := by
  obtain ⟨run⟩ := file_run h
  have hstore := hbefore run.input run.verified
  obtain ⟨old, hold, hkeys⟩ := fileKeys_run run
  obtain rfl := key_of_unwrap_file hstore hold
  have hfor := wrappedFor_fileRun htarget run
  obtain ⟨bytes, nonce, htable, hencrypts⟩ := hstore.encrypts
  have hkey := rewrapsKey_of_fresh hstore.recipients hkeys.fresh
  let next : FileStore := ⟨run.masterKey, handlesOf ctx.targetMembers, store.table⟩
  refine ⟨next, hkey.step hstore.holders rfl rfl, ?_⟩
  intro after hverify
  obtain ⟨_, sourceName, hparse⟩ := wraps_of_verifyFile hverify
  obtain rfl := (spells_fileRun run).read hparse
  refine ⟨hserved, ?_, hfor.recipients, rfl, hkeys.possession, ?_, bytes, ?_⟩
  · intro item hitem
    rcases hkeys.wraps item hitem with hbuilt | ⟨hkept, hmem⟩
    · exact (wrapSeals_built hC hbuilt).mono hserved
    · rw [hkeys.sid, show next.key = store.key from hkeys.fresh.2 hkept]
      exact hstore.seals item hmem
  · rw [hkeys.header, hkeys.sid]
    exact hstore.payloadSid
  · cases hdrawn : renewalDraws draws (filePlan C ctx run.input) with
    | none =>
      refine ⟨nonce, htable, ?_⟩
      rw [hkeys.kept hdrawn, hkeys.sid, show next.key = store.key from hkeys.fresh.2 hdrawn]
      exact hencrypts
    | some renewal =>
      -- what was decrypted for the new key is what had been encrypted under the old one
      obtain ⟨plaintext, hread, hsealed⟩ := hkeys.payload renewal hdrawn
      obtain ⟨rfl, _⟩ := (decryptFilePayload_iff hC.toLawful hencrypts).mp hread
      exact ⟨renewal.nonce 0, htable, hsealed⟩

/-- Who a rewrap wraps for. -/
def fileRecipients (operation : FileOperation) : List VerifiedRecipientKey :=
  operation.ctx.targetMembers

/-- **A RUN OF REWRAPS IS A RUN OF STORES.** -/
theorem stores_of_fileRun (hC : Ideal C) {content : String} {store : FileStore}
    {operations : List FileOperation} {texts : List String}
    (hops : ∀ operation ∈ operations,
      ((fileRecipients operation).map VerifiedRecipientKey.subjectHandle).Nodup
        ∧ fileRecipients operation ⊆ served)
    (hbefore : FileTextStores C served ⟨members, content⟩ store)
    (h : runTexts (FileOperation.run C) content operations = .ok texts) :
    ∃ stores,
      Run store (operations.map fun operation => .regrant (drawnKeys operation.draws)) stores
      ∧ List.Forall₂ (FileTextStores C served) (wrappedTexts fileRecipients operations texts)
        stores := by
  refine Trace.simulated (fun hdoes hstands => ?_)
    (trace_of_runTexts fileRecipients ⟨members, content⟩ hops h) hbefore
  obtain ⟨⟨htarget, hserved⟩, hmembers, hrun⟩ := hdoes
  have hstep := stores_fileRewrap hC htarget hserved hstands hrun
  rw [show (_ : RewrapContext).targetMembers = _ from hmembers.symm] at hstep
  exact hstep

/-! ## Reading -/

/-- Whoever holds the key of a wrap decrypts to the bytes of the store, exactly within the limit. -/
theorem decrypt_stored_iff (hC : Lawful C) {text : String} {doc : FileEncDocument}
    {store : FileStore} {content plaintext : Bytes} (hstore : FileStores C served members doc store)
    (htable : store.table () = some content) (hverify : verifyFileContent C text = .ok doc)
    {handle : String} {keyCtx : CryptoContext}
    (hunwrap : unwrapMasterKeyWithContext C .file doc.protect.sid doc.protect.wrap handle keyCtx
      = .ok store.key) :
    decryptFileDocumentWithContext C doc handle keyCtx = .ok plaintext
      ↔ plaintext = content ∧ content.length ≤ maxPlaintextInputSize := by
  obtain ⟨stored, nonce, hstored, hencrypts⟩ := hstore.encrypts
  obtain rfl : stored = content := Option.some.inj (hstored.symm.trans htable)
  rw [← decryptFilePayload_iff hC hencrypts]
  constructor
  · intro h
    obtain ⟨_, _, h⟩ := bind_eq_ok.mp h
    obtain ⟨_, _, h⟩ := bind_eq_ok.mp h
    obtain ⟨_, h⟩ := throwIf_ok.mp h
    obtain ⟨opened, hopened, h⟩ := bind_eq_ok.mp h
    obtain ⟨_, _, h⟩ := bind_eq_ok.mp h
    obtain rfl := Except.ok.inj (hunwrap.symm.trans hopened)
    exact h
  · intro h
    obtain ⟨_, sourceName, hparse⟩ := wraps_of_verifyFile hverify
    obtain ⟨hformat, hpayload, haead⟩ := formats_of_parse hparse
    exact bind_eq_ok.mpr ⟨(), if_neg (not_not_intro hformat), bind_eq_ok.mpr
      ⟨(), (if_neg (not_not_intro hpayload)).trans (if_neg (not_not_intro haead)), throwIf_ok.mpr
        ⟨not_not_intro hstore.payloadSid, bind_eq_ok.mpr ⟨_, hunwrap, bind_eq_ok.mpr
          ⟨(), hstore.possession, h⟩⟩⟩⟩⟩

/-- Decryption opens a wrap. -/
theorem unwrap_of_decrypt {doc : FileEncDocument} {handle : String} {keyCtx : CryptoContext}
    {plaintext : Bytes} (h : decryptFileDocumentWithContext C doc handle keyCtx = .ok plaintext) :
    ∃ masterKey, unwrapMasterKeyWithContext C .file doc.protect.sid doc.protect.wrap handle keyCtx
      = .ok masterKey := by
  obtain ⟨_, _, h⟩ := bind_eq_ok.mp h
  obtain ⟨_, _, h⟩ := bind_eq_ok.mp h
  obtain ⟨_, h⟩ := throwIf_ok.mp h
  obtain ⟨masterKey, hunwrap, _⟩ := bind_eq_ok.mp h
  exact ⟨masterKey, hunwrap⟩

/-- A text reads as some bytes, for the members it was written for. -/
structure FileReadsAs (C : Crypto) (written : WrappedText) (content : Bytes) : Prop where
  /-- whoever decrypts it gets them -/
  sound : ∀ {doc handle keyCtx plaintext}, verifyFileContent C written.text = .ok doc →
    decryptFileDocumentWithContext C doc handle keyCtx = .ok plaintext → plaintext = content
  /-- it is wrapped for the members, and for nobody else -/
  recipients : ∀ {doc}, verifyFileContent C written.text = .ok doc →
    (recipientTable doc.protect.wrap).Perm (targetTable written.members)
  /-- and each of them can, with the secret behind the statement it was wrapped for, exactly within
      the input limit -/
  complete : ∀ {doc}, verifyFileContent C written.text = .ok doc → ∀ member ∈ written.members,
    ∀ {kemSecret keyCtx}, HoldsKey C member kemSecret →
      OpensOwn keyCtx member.subjectHandle member.kid kemSecret →
      (decryptFileDocumentWithContext C doc member.subjectHandle keyCtx = .ok content
        ↔ content.length ≤ maxPlaintextInputSize)

/-- **A TEXT READS AS THE VALUE OF ITS STORE.** -/
theorem fileReadsAs_of_stores (hC : Lawful C) {written : WrappedText} {store : FileStore}
    {content : Bytes} (hone : OneStatement served) (h : FileTextStores C served written store)
    (htable : store.table () = some content) : FileReadsAs C written content := by
  constructor
  · intro doc handle keyCtx plaintext hverify hdecrypt
    obtain ⟨masterKey, hunwrap⟩ := unwrap_of_decrypt hdecrypt
    have hstore := h doc hverify
    obtain rfl := key_of_unwrap_file hstore hunwrap
    exact ((decrypt_stored_iff hC hstore htable hverify hunwrap).mp hdecrypt).1
  · exact fun hverify => (h _ hverify).recipients
  · intro doc hverify member hmember kemSecret keyCtx hholds hown
    have hstore := h doc hverify
    -- the wrap of the member, which opens for it
    have hlisted := hstore.recipients.mem_iff.mpr (List.mem_map_of_mem hmember)
    obtain ⟨item, hitem, hidentity⟩ := List.mem_map.mp hlisted
    have hopens := (hstore.seals item hitem).opens hone (hstore.known hmember) hidentity.symm hholds
    obtain ⟨hhandle, hkid⟩ := Prod.mk.inj hidentity
    rw [← hhandle, ← hkid] at hown
    have hunwrap := unwrap_of_member (wraps_of_verifyFile hverify).1 hitem hown hopens
    rw [hhandle] at hunwrap
    rw [decrypt_stored_iff hC hstore htable hverify hunwrap]
    exact and_iff_right rfl

/-- A table that no change touches. -/
theorem tables_of_regrants (table : Unit → Option Bytes) (draws : List (List MasterKey)) :
    tablesAfter table (draws.map Change.regrant) = draws.map fun _ => table := by
  induction draws with
  | nil => rfl
  | cons drawn draws ih =>
    rw [List.map_cons, List.map_cons, tablesAfter]
    exact congrArg (table :: ·) ih

/-! ## The laws -/

section Laws

variable {content : Bytes} {signing : SigningContext} {entropy : Entropy} {text : String}
  {operations : List FileOperation} {texts : List String}

/-- What an encryption wrote: a document that verifies, is for one member of each handle, and reads
    as the bytes. -/
structure EncryptionOutcome (C : Crypto) (content : Bytes) (members : List VerifiedRecipientKey)
    (text : String) (kept : List VerifiedRecipientKey) (doc : FileEncDocument) : Prop where
  verifies : verifyFileContent C text = .ok doc
  /-- the wraps are for whoever is kept, in this order -/
  recipients : recipientTable doc.protect.wrap = targetTable kept
  /-- by handle, each once -/
  ordered : (kept.map VerifiedRecipientKey.subjectHandle).Pairwise (· < ·)
  handles : ∀ handle, handle ∈ kept.map VerifiedRecipientKey.subjectHandle
    ↔ handle ∈ members.map VerifiedRecipientKey.subjectHandle
  /-- of members with one handle, the first is kept -/
  first : ∀ member ∈ kept,
    members.find? (fun other => other.subjectHandle = member.subjectHandle) = some member
  reads : FileReadsAs C ⟨kept, text⟩ content

/-- An encrypted text stands for its bytes. -/
theorem textStores_encrypted (hC : Ideal C) (hserved : membersOrdered members ⊆ served)
    (h : encryptFileContent C content members signing entropy = .ok text) :
    FileTextStores C served ⟨membersOrdered members, text⟩
      (fileStore entropy.masterKey (membersOrdered members) content) := by
  obtain ⟨doc, rfl, henc⟩ := encrypted_of_encryptFileContent h
  intro other hother
  obtain ⟨_, _, hparse⟩ := wraps_of_verifyFile hother
  obtain rfl := henc.spells.read hparse
  exact stores_encrypted hC hserved henc

/-- The handles of the kept members are distinct. -/
theorem nodup_membersOrdered (members : List VerifiedRecipientKey) :
    ((membersOrdered members).map VerifiedRecipientKey.subjectHandle).Nodup :=
  (membersOrdered_spec members).1.imp fun hlt => ne_of_lt hlt

/-- **WHAT IS ENCRYPTED FOR SOMEBODY IS READ BACK**: the document verifies where the expiry its
    signer states is a time, is for each handle once, and each recipient reads the bytes exactly
    when these are within the input limit. -/
theorem encryption_laws (hC : Ideal C) {ctx : CryptoContext} (hmembers : members ≠ [])
    (hsigning : buildSigningContext C ctx = .ok signing)
    (hexpiry : C.checkKeyExpiry signing.signerPub.document.protect.expiresAt = .ok ())
    (h : encryptFileContent C content members signing entropy = .ok text) :
    ∃ kept doc, EncryptionOutcome C content members text kept doc := by
  have hstands := textStores_encrypted hC (List.Subset.refl _) h
  obtain ⟨doc, rfl, henc⟩ := encrypted_of_encryptFileContent h
  obtain ⟨hordered, _, hkept⟩ := membersOrdered_spec members
  have hdistinct := nodup_membersOrdered members
  have hnonempty : membersOrdered members ≠ [] := by
    obtain ⟨member, hmember⟩ := List.exists_mem_of_ne_nil members hmembers
    have hmem := (hkept member.subjectHandle).mpr (List.mem_map_of_mem hmember)
    intro hnil
    rw [hnil] at hmem
    cases hmem
  exact ⟨membersOrdered members, doc, {
    verifies := henc.verifies hC.toLawful hnonempty hdistinct hsigning hexpiry
    recipients := recipients_of_built henc.wraps
    ordered := hordered
    handles := hkept
    first := fun _ hmember => first_membersOrdered hmember
    reads := fileReadsAs_of_stores hC.toLawful (oneStatement_of_nodup hdistinct) hstands rfl }⟩

/-- Everybody a file is wrapped for in its life. -/
def fileServedBy (members : List VerifiedRecipientKey) (operations : List FileOperation) :
    List VerifiedRecipientKey :=
  membersOrdered members ++ operations.flatMap fileRecipients

theorem kept_fileServedBy (members : List VerifiedRecipientKey) (operations : List FileOperation) :
    membersOrdered members ⊆ fileServedBy members operations :=
  List.subset_append_left _ _

/-- What the operations of a life ask for, beside the list of those it serves. -/
theorem wellFormed_fileOperations (members : List VerifiedRecipientKey)
    (htargets : ∀ operation ∈ operations,
      (operation.ctx.targetMembers.map VerifiedRecipientKey.subjectHandle).Nodup) :
    ∀ operation ∈ operations,
      ((fileRecipients operation).map VerifiedRecipientKey.subjectHandle).Nodup
      ∧ fileRecipients operation ⊆ fileServedBy members operations :=
  fun operation hop => ⟨htargets operation hop, fun _ hmember =>
    List.mem_append_right _ (List.mem_flatMap.mpr ⟨operation, hop, hmember⟩)⟩

/-- **A FILE READS AS ITS BYTES ALL ITS LIFE**: so does the text of the encryption and that of every
    rewrap after it. -/
theorem fileLifetimes_read (hC : Ideal C)
    (htargets : ∀ operation ∈ operations,
      (operation.ctx.targetMembers.map VerifiedRecipientKey.subjectHandle).Nodup)
    (hone : OneStatement (fileServedBy members operations))
    (hencrypted : encryptFileContent C content members signing entropy = .ok text)
    (hrun : runTexts (FileOperation.run C) text operations = .ok texts) :
    ∀ written ∈ ⟨membersOrdered members, text⟩ :: wrappedTexts fileRecipients operations texts,
      FileReadsAs C written content := by
  have htext := textStores_encrypted hC (kept_fileServedBy members operations) hencrypted
  obtain ⟨stores, hstores, hall⟩ :=
    stores_of_fileRun hC (wellFormed_fileOperations members htargets) htext hrun
  intro written hwritten
  rcases List.mem_cons.mp hwritten with rfl | hwritten
  · exact fileReadsAs_of_stores hC.toLawful hone htext rfl
  · obtain ⟨store, hstore, hstands⟩ := exists_right_of_mem hall hwritten
    have htables := tables_of_run hstores
    rw [show (operations.map fun operation => Change.regrant (drawnKeys operation.draws))
      = (operations.map fun operation => drawnKeys operation.draws).map Change.regrant from
      (List.map_map ..).symm, tables_of_regrants] at htables
    have hmem : store.table ∈ stores.map Store.table := List.mem_map_of_mem hstore
    rw [htables] at hmem
    obtain ⟨_, _, htable⟩ := List.mem_map.mp hmem
    refine fileReadsAs_of_stores hC.toLawful hone hstands ?_
    rw [← htable]
    rfl

/-- Two texts share no key, once the later one is missing somebody. -/
def FileSevered (C : Crypto) (earlier later : String) : Prop :=
  ∀ before after, verifyFileContent C earlier = .ok before → verifyFileContent C later = .ok after →
    (∃ item ∈ before.protect.wrap,
      item.recipientHandle ∉ after.protect.wrap.map WrapItem.recipientHandle) →
    ∀ item ∈ before.protect.wrap, ∀ kemSecret opened,
      OpensTo C .file before.protect.sid item kemSecret opened →
      ∀ other ∈ after.protect.wrap, ∀ otherSecret current,
        OpensTo C .file after.protect.sid other otherSecret current → opened ≠ current

theorem fileSevered_of_revoked {earlier later : WrappedText} {before after : FileStore}
    (hearlier : FileTextStores C served earlier before)
    (hlater : FileTextStores C served later after) (h : Revoked before after) :
    FileSevered C earlier.text later.text := by
  rintro old new hold hnew ⟨gone, hgone, hmissing⟩ item hitem kemSecret opened hopens other hother
    otherSecret current hcurrent heq
  have hstoredOld := hearlier old hold
  have hstoredNew := hlater new hnew
  have hopenedKey := (hstoredOld.seals item hitem).only hopens
  have hcurrentKey := (hstoredNew.seals other hother).only hcurrent
  refine h (fun hsubset => hmissing ?_) (hcurrentKey.symm.trans (heq.symm.trans hopenedKey))
  exact (hstoredNew.mem_holders _).mp
    (hsubset ((hstoredOld.mem_holders _).mpr (List.mem_map_of_mem hgone)))

/-- **WHOEVER WAS LEFT OUT NEVER HAD THE KEY IN FORCE**: in the life of a file in which no key is
    drawn twice, a text shares no key with an earlier one of which it misses a recipient. -/
theorem fileLifetimes_revoke (hC : Ideal C)
    (htargets : ∀ operation ∈ operations,
      (operation.ctx.targetMembers.map VerifiedRecipientKey.subjectHandle).Nodup)
    (hdrawn : (entropy.masterKey
      :: operations.flatMap fun operation => drawnKeys operation.draws).Nodup)
    (hencrypted : encryptFileContent C content members signing entropy = .ok text)
    (hrun : runTexts (FileOperation.run C) text operations = .ok texts) :
    (text :: texts).Pairwise (FileSevered C) := by
  have htext := textStores_encrypted hC (kept_fileServedBy members operations) hencrypted
  obtain ⟨stores, hstores, hall⟩ :=
    stores_of_fileRun hC (wellFormed_fileOperations members htargets) htext hrun
  have hsevered := pairwise_of_forall₂ (.cons htext hall)
    (fun hearlier hlater hrevoked => fileSevered_of_revoked hearlier hlater hrevoked)
    (revoked hstores (by rw [List.flatMap_map]; exact hdrawn))
  rw [← texts_wrappedTexts fileRecipients hrun]
  exact List.pairwise_map.mpr hsevered

end Laws

/-! ## Alice's file -/

/-- The bytes alice encrypts. -/
def aliceBytes : Bytes := [1, 2, 3]

/-- Whom she names: bob twice, with the key he has and with the one he is going to have. -/
def aliceNames : List ToyPerson := [carolOnly, bobBefore, aliceOnly, bobOnly]

/-- The members she encrypts for: bob is kept as he was named first. -/
theorem membersOrdered_aliceNames :
    membersOrdered (aliceNames.map ToyPerson.member) = teamBefore.map ToyPerson.member := by
  decide

/-- **ALICE ENCRYPTS A FILE** for herself, bob and carol. -/
theorem encrypted_aliceFile :
    ∃ doc, encryptFileContent toyCrypto aliceBytes (aliceNames.map ToyPerson.member)
        (toySigning alice []) (toyDraws toySid (pad 32 [1])) = .ok (writeFileEnc doc)
      ∧ ToyFile toySid toySid ⟨teamBefore.map (ToyPerson.wrap (pad 32 [1])), none⟩ (pad 32 [1])
        aliceBytes alice [] doc := by
  have hbuilt := buildWrapsForRecipients_toy .file toySid (pad 32 [1]) (fun _ => [])
    course_change.before.length_le
  obtain ⟨signature, hsign⟩ := sign_toyProtected toySid toySid
    ⟨teamBefore.map (ToyPerson.wrap (pad 32 [1])), none⟩ (pad 32 [1]) aliceBytes alice []
  refine ⟨_, ?_, toyFile_of_sign (smallWraps_team course_change.before (pad 32 [1]))
    shortHistory_none hsign⟩
  rw [encryptFileContent, membersOrdered_aliceNames]
  refine bind_eq_ok.mpr ⟨_, bind_eq_ok.mpr ⟨(), by decide, bind_eq_ok.mpr ⟨_, rfl, bind_eq_ok.mpr
    ⟨_, bind_eq_ok.mpr ⟨_, hbuilt, rfl⟩, bind_eq_ok.mpr ⟨_, hsign, rfl⟩⟩⟩⟩, rfl⟩

/-- Alice's file verifies, and everybody she named reads it, bob with the key she named first. -/
theorem encryption_laws_toy :
    ∃ text kept doc, EncryptionOutcome toyCrypto aliceBytes
      (aliceNames.map ToyPerson.member) text kept
        doc
      ∧ ∀ p ∈ teamBefore,
        decryptFileDocumentWithContext toyCrypto doc p.handle.text p.context = .ok aliceBytes := by
  obtain ⟨written, hencrypted, _⟩ := encrypted_aliceFile
  obtain ⟨kept, doc, houtcome⟩ : ∃ kept doc, EncryptionOutcome toyCrypto aliceBytes
      (aliceNames.map ToyPerson.member) (writeFileEnc written) kept doc :=
    encryption_laws ideal_toyCrypto (List.cons_ne_nil _ _) (buildSigningContext_toy alice []) rfl
      hencrypted
  refine ⟨_, kept, doc, houtcome, fun p hp => ?_⟩
  have hnamed : ∀ p ∈ teamBefore, p.handle.text ∈ handleTexts aliceNames
      ∧ (aliceNames.find? fun q => q.handle.text = p.handle.text) = some p := by decide
  obtain ⟨hhandle, hfirst⟩ := hnamed p hp
  rw [← handles_members] at hhandle
  obtain ⟨member, hmember, hsame⟩ := List.mem_map.mp ((houtcome.handles p.handle.text).mpr hhandle)
  have hkept := houtcome.first member hmember
  rw [hsame, List.find?_map] at hkept
  obtain rfl : p.member = member := by
    have hfound : (aliceNames.find? fun q => q.handle.text = p.handle.text).map ToyPerson.member
      = some member := hkept
    rw [hfirst] at hfound
    exact Option.some.inj hfound
  exact (houtcome.reads.complete houtcome.verifies _ hmember (holdsKey_toy p.handle p.kid p.secret)
    (opensOwn_toy p.handle p.kid p.secret)).mpr (by decide)

/-- One member a handle, in each of alice's rewraps. -/
theorem nodup_aliceFileRun : ∀ operation ∈ aliceFileRun,
    (operation.ctx.targetMembers.map VerifiedRecipientKey.subjectHandle).Nodup := by
  intro operation hoperation
  rcases hoperation with _ | ⟨_, _ | ⟨_, _ | ⟨_, h⟩⟩⟩
  · exact nodup_teamAfter
  · decide
  · decide
  · cases h

/-- And one statement for each key. -/
theorem oneStatement_aliceFile :
    OneStatement (fileServedBy (aliceNames.map ToyPerson.member) aliceFileRun) := by
  refine oneStatement_everybody ?_
  show membersOrdered (aliceNames.map ToyPerson.member) ++ (teamAfter.map ToyPerson.member
    ++ (teamLater.map ToyPerson.member ++ (teamLater.map ToyPerson.member ++ []))) ⊆ _
  rw [membersOrdered_aliceNames, List.append_nil, ← List.map_append, ← List.map_append,
    ← List.map_append]
  exact List.map_subset _ (by decide)

/-- **A FILE OF A CHANGING TEAM**: before carol leaves and after she is back, everybody it is for
    reads alice's bytes. -/
theorem fileLifetimes_read_toy :
    ∃ text changed added renewed, runTexts (FileOperation.run toyCrypto) text aliceFileRun
        = .ok [changed, added, renewed]
      ∧ (∀ p ∈ teamBefore, ∃ doc, verifyFileContent toyCrypto text = .ok doc
        ∧ decryptFileDocumentWithContext toyCrypto doc p.handle.text p.context = .ok aliceBytes)
      ∧ (∀ p ∈ teamAfter, ∃ doc, verifyFileContent toyCrypto changed = .ok doc
        ∧ decryptFileDocumentWithContext toyCrypto doc p.handle.text p.context = .ok aliceBytes)
      ∧ ∀ p ∈ teamLater, ∃ doc, verifyFileContent toyCrypto renewed = .ok doc
        ∧ decryptFileDocumentWithContext toyCrypto doc p.handle.text p.context
          = .ok aliceBytes := by
  obtain ⟨written, hencrypted, hfile⟩ := encrypted_aliceFile
  obtain ⟨changed, added, renewed, hrun, hchanged, hadded, hrenewed⟩ :=
    run_toyFile (by decide) hfile
  have hreads := fileLifetimes_read ideal_toyCrypto nodup_aliceFileRun
    oneStatement_aliceFile hencrypted
    hrun
  have hdecrypts : ∀ {people : List ToyPerson} {text doc},
      FileReadsAs toyCrypto ⟨people.map ToyPerson.member, text⟩ aliceBytes →
      verifyFileContent toyCrypto text = .ok doc → ∀ p ∈ people, ∃ doc,
        verifyFileContent toyCrypto text = .ok doc
          ∧ decryptFileDocumentWithContext toyCrypto doc p.handle.text p.context = .ok aliceBytes :=
    fun hread hverify p hp => ⟨_, hverify, (hread.complete hverify _ (List.mem_map_of_mem hp)
      (holdsKey_toy p.handle p.kid p.secret) (opensOwn_toy p.handle p.kid p.secret)).mpr
      (by decide)⟩
  rw [membersOrdered_aliceNames] at hreads
  refine ⟨writeFileEnc written, writeFileEnc changed, writeFileEnc added,
    writeFileEnc renewed, hrun,
    hdecrypts (hreads _ ?_) hfile.verified, hdecrypts (hreads _ ?_) hchanged.verified,
    hdecrypts (hreads _ ?_) hrenewed.verified⟩
  · exact List.mem_cons_self
  · exact List.mem_cons_of_mem _ List.mem_cons_self
  · exact List.mem_cons_of_mem _
      (List.mem_cons_of_mem _ (List.mem_cons_of_mem _ List.mem_cons_self))

/-- Carol, who is left out and comes back, is never given the key in force without her. -/
theorem fileLifetimes_revoke_toy :
    ∃ text changed added renewed, runTexts (FileOperation.run toyCrypto) text aliceFileRun
        = .ok [changed, added, renewed]
      ∧ (text :: [changed, added, renewed]).Pairwise (FileSevered toyCrypto)
      ∧ ∃ before after, verifyFileContent toyCrypto text = .ok before
        ∧ verifyFileContent toyCrypto changed = .ok after
        ∧ "carol" ∈ before.protect.wrap.map WrapItem.recipientHandle
        ∧ "carol" ∉ after.protect.wrap.map WrapItem.recipientHandle := by
  obtain ⟨written, hencrypted, hfile⟩ := encrypted_aliceFile
  obtain ⟨changed, added, renewed, hrun, hchanged, _⟩ := run_toyFile (by decide) hfile
  have hdrawn : ((toyDraws toySid (pad 32 [1])).masterKey
      :: aliceFileRun.flatMap fun operation => drawnKeys operation.draws).Nodup := by
    show [pad 32 [1], pad 32 [2], pad 32 [5], pad 32 [9], pad 32 [10], pad 32 [11],
        pad 32 [12]].Nodup
    decide
  refine ⟨_, _, _, _, hrun, fileLifetimes_revoke ideal_toyCrypto nodup_aliceFileRun
    hdrawn hencrypted hrun, written, changed, hfile.verified, hchanged.verified, ?_, ?_⟩
  · rw [hfile.protect_eq]
    decide
  · rw [hchanged.protect_eq]
    decide

end FileLifetimes

import Kapsaro.HistoryRuns
import Kapsaro.RewrapKeys
import Kapsaro.SealedStores

/-!
# Kv store — a kv-enc document as a table under a key

A kv-enc document stands for a sealed store: its wraps seal one master key for their handles, and
under that key its entries are the values of a table.  Each operation on a text is a step of that
store, and a text that was just made stands for the entries it was made of.

* **`WrappedText`** — a text, and the members it was written for.
* **`Stores`** — a document stands for a store; **`TextStores`** — so does whatever a text is read
  as.
* **`opensAs_of_entries`**, **`entries_of_opensAs`** — a table entry by entry.
* **`stores_created`**, **`stores_set`**, **`stores_unset`**, **`stores_rewrap`** — the operations.
-/

namespace KvStore

open JsonText JsonMembers JsonLimits Limits TextLines Base64Codec WireTexts WireModel DocumentTokens
open KvLines TokenRecords Envelope KvDocument SignedArtifacts KeyedList KvDraft Recipients KvSession
open RewrapPlan KvRewrap KvDisclosure KvMutation RewrapOutcome HistoryRuns RewrapKeys SealedStores

variable {C : Crypto}

/-- A store of texts under names, sealed for members. -/
abbrev SecretStore := Store MasterKey String String String

/-- A change of such a store. -/
abbrev SecretChange := Change MasterKey String String

/-! ## What a document stands for -/

/-- Decryption under a key returns a table. -/
def OpensAs (C : Crypto) (doc : KvEncDocument) (masterKey : MasterKey)
    (table : String → Option String) : Prop :=
  ∃ values, kvValues C doc masterKey = .ok values
    ∧ ∀ key, values.lookup key = (table key).map utf8

/-- A text, and the members it was written for. -/
structure WrappedText where
  members : List VerifiedRecipientKey
  text : String

/-- The handles of some members. -/
def handlesOf (members : List VerifiedRecipientKey) : Set String :=
  {handle | handle ∈ members.map VerifiedRecipientKey.subjectHandle}

/-- A document stands for a store, for the members it was written for; whoever was served so far is
    among `served`. -/
structure Stores (C : Crypto) (served members : List VerifiedRecipientKey) (doc : KvEncDocument)
    (store : SecretStore) : Prop where
  known : members ⊆ served
  /-- every wrap seals the key -/
  seals : ∀ item ∈ doc.wrap.wrap, WrapSeals C .kv doc.head.sid store.key served item
  /-- the wraps are for the members, and for nobody else -/
  recipients : (recipientTable doc.wrap.wrap).Perm (targetTable members)
  holders : store.holders = handlesOf members
  /-- the proof of possession was made with the key -/
  possession : verifyKvKeyPossession C doc store.key = .ok ()
  aead : doc.head.alg.aead = aeadXChaCha20Poly1305
  /-- under the key, the entries are those of the table -/
  opens : OpensAs C doc store.key store.table

/-- Whatever a text is read as stands for a store. -/
def TextStores (C : Crypto) (served : List VerifiedRecipientKey) (written : WrappedText)
    (store : SecretStore) : Prop :=
  ∀ doc, verifyKvContent C written.text = .ok doc → Stores C served written.members doc store

/-- Wraps for some members have the handles of the members. -/
theorem handles_of_recipients {members : List VerifiedRecipientKey} {items : List WrapItem}
    (h : (recipientTable items).Perm (targetTable members)) :
    (items.map WrapItem.recipientHandle).Perm
      (members.map VerifiedRecipientKey.subjectHandle) := by
  have hperm := h.map Prod.fst
  rw [keys_recipientTable, keys_targetTable] at hperm
  exact hperm

/-- The holders of the key are those with a wrap. -/
theorem Stores.mem_holders {served members : List VerifiedRecipientKey} {doc : KvEncDocument}
    {store : SecretStore} (h : Stores C served members doc store) (handle : String) :
    handle ∈ store.holders ↔ handle ∈ doc.wrap.wrap.map WrapItem.recipientHandle := by
  rw [h.holders, (handles_of_recipients h.recipients).mem_iff]
  rfl

/-- The texts of a run, each with the members its step was for. -/
def wrappedTexts {A : Type} (recipients : A → List VerifiedRecipientKey) (steps : List A)
    (texts : List String) : List WrappedText :=
  List.zipWith (fun a text => ⟨recipients a, text⟩) steps texts

/-- Texts that follow from one another are a trace. -/
theorem trace_of_runTexts {A : Type} {step : A → String → Except Error String} {P : A → Prop}
    (recipients : A → List VerifiedRecipientKey) {steps : List A} (start : WrappedText)
    (hsteps : ∀ a ∈ steps, P a) {texts : List String}
    (h : runTexts step start.text steps = .ok texts) :
    Trace (fun a before after => P a ∧ after.members = recipients a
        ∧ step a before.text = .ok after.text)
      start steps (wrappedTexts recipients steps texts) := by
  induction steps generalizing start texts with
  | nil =>
    obtain rfl := Except.ok.inj h
    exact .nil start
  | cons a steps ih =>
    obtain ⟨text, htext, h⟩ := bind_eq_ok.mp h
    obtain ⟨rest, hrest, h⟩ := bind_eq_ok.mp h
    obtain rfl := Except.ok.inj h
    obtain ⟨hhead, htail⟩ := List.forall_mem_cons.mp hsteps
    exact .cons ⟨hhead, rfl, htext⟩ (ih ⟨recipients a, text⟩ htail hrest)

/-- The texts of a run are as many as its steps. -/
theorem texts_wrappedTexts {A : Type} {step : A → String → Except Error String}
    (recipients : A → List VerifiedRecipientKey) {steps : List A} {content : String}
    {texts : List String} (h : runTexts step content steps = .ok texts) :
    (wrappedTexts recipients steps texts).map WrappedText.text = texts := by
  induction steps generalizing content texts with
  | nil =>
    obtain rfl := Except.ok.inj h
    rfl
  | cons a steps ih =>
    obtain ⟨text, htext, h⟩ := bind_eq_ok.mp h
    obtain ⟨rest, hrest, h⟩ := bind_eq_ok.mp h
    obtain rfl := Except.ok.inj h
    exact congrArg (text :: ·) (ih hrest)

/-! ## Entries and values -/

/-- An entry of a document decrypts to a value. -/
def EntryOpens (C : Crypto) (doc : KvEncDocument) (masterKey : MasterKey) (entry : KvEncEntry)
    (value : Bytes) : Prop :=
  decryptEntry C entry.value entry.key doc.head.alg.aead (kvKeySchedule C masterKey doc.head.sid)
    doc.head.sid = .ok value

/-- Where each element has a counterpart, there is a list of counterparts. -/
theorem exists_forall₂ {α β : Type} {R : α → β → Prop} {xs : List α}
    (h : ∀ x ∈ xs, ∃ y, R x y) : ∃ ys, List.Forall₂ R xs ys := by
  induction xs with
  | nil => exact ⟨[], .nil⟩
  | cons x xs ih =>
    obtain ⟨y, hy⟩ := h x List.mem_cons_self
    obtain ⟨ys, hys⟩ := ih fun z hz => h z (List.mem_cons_of_mem _ hz)
    exact ⟨y :: ys, .cons hy hys⟩

/-- The value under a key is the one its entry decrypts to. -/
theorem lookup_of_decrypted {doc : KvEncDocument} {masterKey : MasterKey}
    {entries : List KvEncEntry} {values : List (String × Bytes)}
    (h : List.Forall₂ (fun entry value => value.1 = entry.key
      ∧ EntryOpens C doc masterKey entry value.2) entries values)
    (hdistinct : (entries.map KvEncEntry.key).Nodup) {entry : KvEncEntry} (hentry : entry ∈ entries)
    {value : Bytes} (hopens : EntryOpens C doc masterKey entry value) :
    values.lookup entry.key = some value := by
  have hkeys : values.map Prod.fst = entries.map KvEncEntry.key := by
    clear hentry hdistinct
    induction h with
    | nil => rfl
    | cons hpair _ ih => rw [List.map_cons, List.map_cons, ih, hpair.1]
  obtain ⟨pair, hpair, hkey, hvalue⟩ := exists_right_of_mem h hentry
  have hsame : pair = (entry.key, value) :=
    Prod.ext hkey (Except.ok.inj (hvalue.symm.trans hopens))
  rw [lookup_eq_some_iff_mem (hkeys ▸ hdistinct), ← hsame]
  exact hpair

/-- **ENTRY BY ENTRY**: a document opens as a table when its entries are for the keys of the table
    and each decrypts to its value. -/
theorem opensAs_of_entries {doc : KvEncDocument} {masterKey : MasterKey}
    {table : String → Option String} (hdistinct : (doc.entries.map KvEncEntry.key).Nodup)
    (hkeys : ∀ key, table key ≠ none → key ∈ doc.entries.map KvEncEntry.key)
    (hentries : ∀ entry ∈ doc.entries, ∃ value, table entry.key = some value
      ∧ EntryOpens C doc masterKey entry (utf8 value)) :
    OpensAs C doc masterKey table := by
  obtain ⟨values, hall⟩ := exists_forall₂ (R := fun entry (value : String × Bytes) =>
      value.1 = entry.key ∧ EntryOpens C doc masterKey entry value.2) fun entry hentry => by
    obtain ⟨value, _, hopens⟩ := hentries entry hentry
    exact ⟨(entry.key, utf8 value), rfl, hopens⟩
  have hdecrypt : kvValues C doc masterKey = .ok values := decryptKvEntries_ok.mpr hall
  refine ⟨values, hdecrypt, fun key => ?_⟩
  by_cases hkey : key ∈ doc.entries.map KvEncEntry.key
  · obtain ⟨entry, hentry, rfl⟩ := List.mem_map.mp hkey
    obtain ⟨value, htable, hopens⟩ := hentries entry hentry
    rw [lookup_of_decrypted hall hdistinct hentry hopens, htable]
    rfl
  · have hnone : table key = none := by
      by_contra hsome
      exact hkey (hkeys key hsome)
    rw [hnone, lookup_eq_none_iff_not_mem.mpr]
    · rfl
    · rw [keys_of_decryptKvEntries hdecrypt]
      exact hkey

/-- Each entry of a document that opens as a table decrypts to its value. -/
theorem entries_of_opensAs {doc : KvEncDocument} {masterKey : MasterKey}
    {table : String → Option String} (hdistinct : (doc.entries.map KvEncEntry.key).Nodup)
    (h : OpensAs C doc masterKey table) :
    (∀ key, table key ≠ none ↔ key ∈ doc.entries.map KvEncEntry.key)
      ∧ ∀ entry ∈ doc.entries, ∃ value, table entry.key = some value
        ∧ EntryOpens C doc masterKey entry (utf8 value) := by
  obtain ⟨values, hdecrypt, hlookup⟩ := h
  have hall := decryptKvEntries_ok.mp hdecrypt
  constructor
  · intro key
    rw [← keys_of_decryptKvEntries hdecrypt]
    have hnone := @lookup_eq_none_iff_not_mem _ _ _ values key
    rw [hlookup, Option.map_eq_none_iff] at hnone
    rw [ne_eq, hnone, not_not]
  · intro entry hentry
    obtain ⟨pair, _, _, hvalue⟩ := exists_right_of_mem hall hentry
    have hlook := lookup_of_decrypted (C := C) hall hdistinct hentry hvalue
    rw [hlookup] at hlook
    obtain ⟨value, htable, hbytes⟩ := Option.map_eq_some_iff.mp hlook
    refine ⟨value, htable, ?_⟩
    rw [hbytes]
    exact hvalue

/-- The keys of a verified document are distinct. -/
theorem distinct_of_verify {text : String} {doc : KvEncDocument}
    (h : verifyKvContent C text = .ok doc) : (doc.entries.map KvEncEntry.key).Nodup := by
  obtain ⟨_, _, haccepted⟩ := accepted_of_verify h
  exact haccepted.distinct

/-! ## A new document -/

/-- The pairs of a set operation. -/
def pairsOf (entries : List KvInputEntry) : List (String × String) :=
  entries.map fun entry => (entry.key, entry.value)

theorem lookup_textBytes (pairs : List (String × String)) (key : String) :
    (textBytes pairs).lookup key = (pairs.lookup key).map utf8 := by
  induction pairs with
  | nil => rfl
  | cons pair pairs ih =>
    show ((pair.1, utf8 pair.2) :: textBytes pairs).lookup key = _
    rw [List.lookup_cons, List.lookup_cons, ih]
    cases hkey : key == pair.1 <;> rfl

/-- Wraps that were built for members are for them. -/
theorem recipients_built {format : WrapFormat} {sid : Uuid} {masterKey : MasterKey}
    {members : List VerifiedRecipientKey} {items : List WrapItem}
    (h : List.Forall₂ (fun member item =>
      ∃ s, buildWrapItem C format member sid masterKey s = .ok item) members items) :
    (recipientTable items).Perm (targetTable members) :=
  .of_eq (recipients_of_built h)

/-- Wraps that were built for members seal the key. -/
theorem seals_built (hC : Ideal C) {format : WrapFormat} {sid : Uuid} {masterKey : MasterKey}
    {members : List VerifiedRecipientKey} {items : List WrapItem}
    (h : List.Forall₂ (fun member item =>
      ∃ s, buildWrapItem C format member sid masterKey s = .ok item) members items) :
    ∀ item ∈ items, WrapSeals C format sid masterKey members item := by
  intro item hitem
  obtain ⟨member, hmember, s, hs⟩ := exists_left_of_mem h hitem
  exact wrapSeals_built hC ⟨member, hmember, s, hs⟩

/-- The store a new document stands for. -/
def createdStore (entries : List KvInputEntry) (recipients : KvRecipientSnapshot)
    (entropy : Entropy) : SecretStore where
  key := entropy.masterKey
  holders := handlesOf recipients.verifiedMembers
  table := putAll (fun _ => none) (pairsOf entries)

@[simp] theorem table_createdStore (entries : List KvInputEntry) (recipients : KvRecipientSnapshot)
    (entropy : Entropy) :
    (createdStore entries recipients entropy).table = putAll (fun _ => none)
    (pairsOf entries) := rfl

/-- **A NEW DOCUMENT** stands for the entries it was made of, under the drawn key, for the
    recipients. -/
theorem stores_created (hC : Ideal C) {entries : List KvInputEntry}
    {recipients : KvRecipientSnapshot} {ctx : KvWriteContext} {entropy : Entropy} {text : String}
    {served : List VerifiedRecipientKey} (hserved : recipients.verifiedMembers ⊆ served)
    (hvalid : ∀ entry ∈ entries, isValidKeyName entry.key = true)
    (h : setKvEntryWithRecipients C none entries recipients ctx entropy = .ok text) :
    TextStores C served ⟨recipients.verifiedMembers, text⟩
      (createdStore entries recipients entropy) := by
  intro doc hverify
  obtain ⟨signing, _, h⟩ := bind_eq_ok.mp h
  obtain ⟨draft, hdraft, h⟩ := bind_eq_ok.mp h
  obtain ⟨written, henc⟩ := encryptedDraft_ok hC.toLawful hdraft
  obtain ⟨signature, hsigned⟩ := signUnsignedKvDocument_ok h
  obtain ⟨items, hitems, hwrap⟩ := henc.wraps
  -- The entries of the draft carry the names of the input, and no others.
  have hnames : ∀ entry ∈ draft.entries, isValidKeyName entry.key = true := by
    intro entry hentry
    have hmem : entry.key ∈ written.map KvEncEntry.key := by
      rw [← henc.stands.keys]
      exact List.mem_map_of_mem hentry
    obtain ⟨e, he, hkey⟩ := List.mem_map.mp hmem
    obtain ⟨pair, hpair, hpairKey, _⟩ := exists_left_of_mem henc.encrypts he
    have hcollected := mem_of_mem_collect ((perm_sortBy _ _).mem_iff.mp hpair)
    obtain ⟨input, hinput, heq⟩ := List.mem_map.mp hcollected
    rw [← hkey, hpairKey, ← heq]
    exact hvalid input hinput
  have hparse := parse_of_verify hverify
  rw [hsigned.text_eq] at hparse
  obtain ⟨rfl, _, hlimits⟩ := signed_parse henc.stands hsigned.checked hnames hparse
  have hitemsEq : (draft.document written signature).wrap.wrap = items := by
    show draft.wrap.data.wrap = items
    rw [hwrap]
    rfl
  have hsid : (draft.document written signature).head.sid = entropy.sid := henc.sid
  -- A token that was accepted is within the limit, and so it decodes.
  have htokens : ∀ entry ∈ written, entry.token.utf8ByteSize ≤ maxBase64TokenLength := by
    intro entry hentry
    have hall := hlimits.entryTokens
    rw [henc.stands.tokens] at hall
    exact hall _ (List.mem_map_of_mem hentry)
  refine ⟨hserved, ?_, ?_, rfl, verifyKvKeyPossession_document henc.stands hsigned, henc.aead, ?_⟩
  · rw [hitemsEq, hsid]
    exact fun item hitem => (seals_built hC hitems item hitem).mono hserved
  · rw [hitemsEq]
    exact recipients_built hitems
  · have hwritten : (draft.document written signature).entries = written := rfl
    have haead : (draft.document written signature).head.alg.aead = aeadXChaCha20Poly1305 :=
      henc.aead
    refine ⟨textBytes (sortBy Prod.fst (collect (pairsOf entries))), ?_, fun key => ?_⟩
    · rw [kvValues, hsid, haead, hwritten]
      exact henc.decrypts hC.toLawful htokens
    · rw [lookup_textBytes, table_createdStore, putAll_apply, Option.or_none,
        lookup_perm (perm_sortBy _ _)]
      exact ((perm_sortBy _ _).map _).nodup_iff.mpr (nodup_collect _)

/-! ## A rewrite of a document -/

/-- The key a member opens a stored document with is the key of the store. -/
theorem key_of_unwrap {served members : List VerifiedRecipientKey} {doc : KvEncDocument}
    {store : SecretStore} (h : Stores C served members doc store)
    {handle : String} {keyCtx : CryptoContext} {masterKey : MasterKey}
    (hunwrap : unwrapMasterKeyWithContext C .kv doc.head.sid doc.wrap.wrap handle keyCtx
      = .ok masterKey) : masterKey = store.key := by
  obtain ⟨item, hitem, kemSecret, hopens⟩ := opensTo_of_unwrap hunwrap
  exact (h.seals item hitem).only hopens

variable {content text : String} {recipients : KvRecipientSnapshot} {ctx : KvWriteContext}
variable {entropy : Entropy} {served members : List VerifiedRecipientKey}

/-- What a rewrite did: the key it opened, the wraps it built and the draft it signed. -/
theorem rewrite_ok {mutateUnsigned : KvDocumentDraft → VerifiedKvRewriteSession → MasterKey →
      Except Error KvDocumentDraft}
    (h : rewriteExistingKvContent C content recipients ctx entropy mutateUnsigned = .ok text) :
    ∃ doc masterKey draft mutated items signature,
      Rewritten C content ctx (entropy.clock 0) mutateUnsigned text doc masterKey draft mutated
          ⟨items, doc.wrap.removedRecipients⟩ signature
        ∧ unwrapMasterKeyWithContext C .kv doc.head.sid doc.wrap.wrap ctx.memberHandle ctx.keyCtx
          = .ok masterKey
        ∧ List.Forall₂ (fun member item =>
            ∃ s, buildWrapItem C .kv member doc.head.sid masterKey s = .ok item)
          recipients.verifiedMembers items := by
  obtain ⟨session, hload, h⟩ := bind_eq_ok.mp h
  obtain ⟨doc, hverified, hload⟩ := bind_eq_ok.mp hload
  obtain rfl := Except.ok.inj hload
  obtain ⟨masterKey, hunwrap, h⟩ := bind_eq_ok.mp h
  obtain ⟨draft, hdraft, h⟩ := bind_eq_ok.mp h
  obtain ⟨mutated, hmutated, h⟩ := bind_eq_ok.mp h
  obtain ⟨wrap, hwrap, h⟩ := bind_eq_ok.mp h
  obtain ⟨signing, _, h⟩ := bind_eq_ok.mp h
  obtain ⟨signature, hsigned⟩ := signUnsignedKvDocument_ok h
  obtain ⟨items, hitems, hwrap⟩ := bind_eq_ok.mp hwrap
  obtain rfl := Except.ok.inj hwrap
  obtain ⟨headToken, sigToken, haccepted⟩ := accepted_of_verify hverified
  obtain ⟨draft', hdraft', hhead', _, hrep⟩ := represents_fromDocument haccepted
    (wellFormed_updatedHeader haccepted (entropy.clock 0))
  obtain rfl : draft' = draft := Except.ok.inj (hdraft'.symm.trans hdraft)
  obtain ⟨source, _, hsource⟩ := bind_eq_ok.mp hdraft
  have hentries := congrArg KvDocumentDraft.entries (Except.ok.inj hsource)
  exact ⟨doc, masterKey, draft', mutated, items, signature, ⟨hverified, hrep, hhead',
    hentries.symm, hmutated, rfl, signing, hsigned⟩, unwrap_of_session hunwrap,
    (buildWrapsForRecipients_ok hitems).2⟩

/-- What a rewritten text is read as. -/
structure ReadBack (C : Crypto) (doc : KvEncDocument) (masterKey : MasterKey)
    (items : List WrapItem) (values : List KvEncEntry) (after : KvEncDocument) : Prop where
  sid : after.head.sid = doc.head.sid
  alg : after.head.alg = doc.head.alg
  items : after.wrap.wrap = items
  entries : after.entries = values
  possession : verifyKvKeyPossession C after masterKey = .ok ()
  sizes : ∀ entry ∈ values, entry.token.utf8ByteSize ≤ maxBase64TokenLength

/-- **WHOEVER READS A REWRITTEN TEXT** finds the wraps that were built and the entries of the
    draft. -/
theorem readBack_rewritten {mutateUnsigned : KvDocumentDraft → VerifiedKvRewriteSession →
      MasterKey → Except Error KvDocumentDraft} {now : Timestamp} {doc after : KvEncDocument}
    {masterKey : MasterKey} {draft mutated : KvDocumentDraft} {items : List WrapItem}
    {removed : Option (List RemovedRecipient)} {signature : ArtifactSignature}
    (hrun : Rewritten C content ctx now mutateUnsigned text doc masterKey draft mutated
      ⟨items, removed⟩ signature)
    (hhead : mutated.head = draft.head) {values : List KvEncEntry}
    (hvalues : List.Forall₂ Holds mutated.entries values)
    (hnames : ∀ entry ∈ mutated.entries, isValidKeyName entry.key = true)
    (hverify : verifyKvContent C text = .ok after) :
    ReadBack C doc masterKey items values after := by
  obtain ⟨signing, hsigned⟩ := hrun.signed
  have hstands : Stands (mutated.setWrap ⟨items, removed⟩) values :=
    ⟨fun _ htoken => (by cases htoken), hvalues⟩
  have hparse := parse_of_verify hverify
  rw [hsigned.text_eq] at hparse
  obtain ⟨rfl, _, hlimits⟩ := signed_parse hstands hsigned.checked hnames hparse
  have hheader : ((mutated.setWrap ⟨items, removed⟩).document values signature).head
      = buildUpdatedHeader doc now := hhead.trans hrun.head
  refine ⟨?_, ?_, rfl, rfl, verifyKvKeyPossession_document hstands hsigned, ?_⟩
  · rw [hheader]
    rfl
  · rw [hheader]
    rfl
  · intro entry hentry
    have hall := hlimits.entryTokens
    rw [hstands.tokens] at hall
    exact hall _ (List.mem_map_of_mem hentry)

/-- **A REWRITE KEEPS THE KEY**, for the recipients it was given; the table is up to the entries. -/
theorem stores_readBack (hC : Ideal C) {doc after : KvEncDocument} {store : SecretStore}
    (hstore : Stores C served members doc store)
    (hserved : recipients.verifiedMembers ⊆ served)
    {items : List WrapItem} {values : List KvEncEntry}
    (hbuilt : List.Forall₂ (fun member item =>
        ∃ s, buildWrapItem C .kv member doc.head.sid store.key s = .ok item)
      recipients.verifiedMembers items)
    (hread : ReadBack C doc store.key items values after)
    {table : String → Option String} (hopens : OpensAs C after store.key table) :
    Stores C served recipients.verifiedMembers after
      ⟨store.key, handlesOf recipients.verifiedMembers, table⟩ := by
  refine ⟨hserved, ?_, ?_, rfl, hread.possession, ?_, hopens⟩
  · rw [hread.items, hread.sid]
    exact fun item hitem => (seals_built hC hbuilt item hitem).mono hserved
  · rw [hread.items]
    exact recipients_built hbuilt
  · rw [hread.alg]
    exact hstore.aead

/-- An entry that stays as it is decrypts as before. -/
theorem entryOpens_readBack {doc after : KvEncDocument} {masterKey : MasterKey}
    {items : List WrapItem} {values : List KvEncEntry}
    (hread : ReadBack C doc masterKey items values after) {entry : KvEncEntry} {value : Bytes}
    (h : EntryOpens C doc masterKey entry value) : EntryOpens C after masterKey entry value := by
  rw [EntryOpens, hread.alg, hread.sid]
  exact h

/-! ## Set -/

/-- A token that was made for a value under a key. -/
def TokenFor (C : Crypto) (schedule : KeySchedule) (sid : Uuid) (token pair : String × String) :
    Prop :=
  token.1 = pair.1 ∧ ∃ nonce value,
    encryptEntry C pair.1 pair.2 schedule sid nonce false = .ok value
    ∧ token.2 = tokenText value.toJson

theorem tokens_encodeEntries (hC : Lawful C) {schedule : KeySchedule} {sid : Uuid}
    {nonce : Nat → FixedBytes 24} {i : Nat} {entries : List KvInputEntry}
    {tokens : List (String × String)}
    (h : encodeEntriesFrom C schedule sid nonce i entries = .ok tokens) :
    List.Forall₂ (TokenFor C schedule sid) tokens (pairsOf entries) := by
  induction entries generalizing i tokens with
  | nil =>
    obtain rfl := Except.ok.inj h
    exact .nil
  | cons entry entries ih =>
    obtain ⟨token, htoken, h⟩ := bind_eq_ok.mp h
    obtain ⟨rest, hrest, h⟩ := bind_eq_ok.mp h
    obtain rfl := Except.ok.inj h
    obtain ⟨value, hvalue, htoken⟩ := bind_eq_ok.mp htoken
    rw [encodeToken_eq (encodable_entry (wellFormed_encryptEntry hC hvalue).1).numbers] at htoken
    exact .cons ⟨rfl, nonce i, value, hvalue, (Except.ok.inj htoken).symm⟩ (ih hrest)

/-- An entry that holds a token made for a value decrypts to the value, within the limit. -/
theorem entryOpens_token (hC : Lawful C) {doc : KvEncDocument} {masterKey : MasterKey}
    {token pair : String × String} {entry : KvEncEntry}
    (haead : doc.head.alg.aead = aeadXChaCha20Poly1305)
    (hmade : TokenFor C (kvKeySchedule C masterKey doc.head.sid) doc.head.sid token pair)
    (hholds : Holds (.encoded token.1 token.2) entry)
    (hsize : entry.token.utf8ByteSize ≤ maxBase64TokenLength) :
    EntryOpens C doc masterKey entry (utf8 pair.2) := by
  obtain ⟨hkey, nonce, value, hencrypt, htoken⟩ := hmade
  obtain ⟨hentryKey, hentryToken, _, hencodes⟩ := hholds
  have hvalue : entry.value = value :=
    eq_of_tokenText (KvEntryValue.reads _) (KvEntryValue.reads _) (hencodes.symm.trans htoken)
  have hfits : computeEncodedLen (pair.2.utf8ByteSize + 16) ≤ maxBase64CiphertextLength := by
    rw [← (wellFormed_encryptEntry hC hencrypt).2.2]
    rw [hentryToken, htoken] at hsize
    exact Nat.le_trans (ct_le_token value) (Nat.le_trans hsize (by decide))
  rw [EntryOpens, hvalue, hentryKey, hkey]
  exact decrypt_encryptEntry hC haead hfits hencrypt

/-- The entries of a draft after a set: those with a new token, and those without. -/
theorem mem_setEntries {draft : KvDocumentDraft} {table : List (String × String)}
    (htable : (table.map Prod.fst).Nodup) {entry : KvDocumentEntry}
    (h : entry ∈ (draft.setEntries table).entries) :
    (∃ token ∈ table, entry = .encoded token.1 token.2)
      ∨ entry ∈ draft.entries ∧ table.lookup entry.key = none := by
  rw [KvDocumentDraft.setEntries] at h
  rcases List.mem_append.mp h with hold | hnew
  · obtain ⟨old, hmem, hentry⟩ := List.mem_map.mp hold
    cases hlook : table.lookup old.key with
    | none =>
      rw [hlook] at hentry
      exact Or.inr (hentry ▸ ⟨hmem, hlook⟩)
    | some token =>
      rw [hlook] at hentry
      exact Or.inl ⟨(old.key, token), (lookup_eq_some_iff_mem htable).mp hlook, hentry.symm⟩
  · obtain ⟨token, htoken, hentry⟩ := List.mem_map.mp hnew
    have hmem := (perm_sortBy _ _).mem_iff.mp htoken
    exact Or.inl ⟨token, (List.mem_filter.mp hmem).1, hentry.symm⟩

/-- The entries of a draft of a document are the document's. -/
theorem entry_of_draft {mutateUnsigned : KvDocumentDraft → VerifiedKvRewriteSession →
      MasterKey → Except Error KvDocumentDraft} {now : Timestamp} {doc : KvEncDocument}
    {masterKey : MasterKey} {draft mutated : KvDocumentDraft} {wrap : KvWrap}
    {signature : ArtifactSignature}
    (hrun : Rewritten C content ctx now mutateUnsigned text doc masterKey draft mutated wrap
      signature) {entry : KvDocumentEntry} (hentry : entry ∈ draft.entries) {value : KvEncEntry}
    (hholds : Holds entry value) : value ∈ doc.entries := by
  rw [hrun.entries] at hentry
  obtain ⟨old, hold, rfl⟩ := List.mem_map.mp hentry
  obtain ⟨rfl, _⟩ := hholds
  exact hold

/-- **SET IS A PUT**: the key stays, and the table takes the values of the entries. -/
theorem stores_set (hC : Ideal C) {store : SecretStore} {entries : List KvInputEntry}
    (hvalid : ∀ entry ∈ entries, isValidKeyName entry.key = true)
    (hserved : recipients.verifiedMembers ⊆ served)
    (hbefore : TextStores C served ⟨members, content⟩ store)
    (h : setKvEntryWithRecipients C (some content) entries recipients ctx entropy = .ok text) :
    TextStores C served ⟨recipients.verifiedMembers, text⟩ ⟨store.key,
      handlesOf recipients.verifiedMembers, putAll store.table (pairsOf entries)⟩ := by
  intro after hverify
  obtain ⟨doc, masterKey, draft, mutated, items, signature, hrun, hunwrap, hbuilt⟩ := rewrite_ok h
  have hstore := hbefore doc hrun.verified
  obtain rfl := key_of_unwrap hstore hunwrap
  obtain ⟨table, htable, hmutated⟩ := bind_eq_ok.mp hrun.ran
  obtain rfl := Except.ok.inj hmutated
  obtain ⟨hnodup, _, hencoded⟩ := buildEntryTokens_ok htable
  obtain ⟨tokens, htokens, hcollect⟩ := bind_eq_ok.mp htable
  have hmade : List.Forall₂ (TokenFor C (kvKeySchedule C store.key doc.head.sid) doc.head.sid)
      table (collect (pairsOf entries)) := by
    rw [← Except.ok.inj hcollect]
    exact forall₂_collect (fun _ _ hpair => hpair.1) (tokens_encodeEntries hC.toLawful htokens)
  have hdistinct := distinct_of_verify hrun.verified
  obtain ⟨hkeys, hopens⟩ := entries_of_opensAs hdistinct hstore.opens
  obtain ⟨values, hvalues⟩ := represents_setEntries hrun.represents (hencoded hC.toLawful)
  have hnames : ∀ entry ∈ (draft.setEntries table).entries, isValidKeyName entry.key = true := by
    intro entry hentry
    rcases mem_setEntries hnodup hentry with ⟨token, htoken, rfl⟩ | ⟨hold, _⟩
    · obtain ⟨pair, hpair, hkey, _⟩ := exists_right_of_mem hmade htoken
      obtain ⟨input, hinput, heq⟩ := List.mem_map.mp (mem_of_mem_collect hpair)
      show isValidKeyName token.1 = true
      rw [hkey, ← heq]
      exact hvalid input hinput
    · obtain ⟨headToken, sigToken, haccepted⟩ := accepted_of_verify hrun.verified
      rw [hrun.entries] at hold
      obtain ⟨old, hmem, rfl⟩ := List.mem_map.mp hold
      exact haccepted.keys old hmem
  have hread := readBack_rewritten hrun rfl hvalues.entries hnames hverify
  have haead : after.head.alg.aead = aeadXChaCha20Poly1305 := by
    rw [hread.alg]
    exact hstore.aead
  have hschedule : ∀ {token pair : String × String},
      TokenFor C (kvKeySchedule C store.key doc.head.sid) doc.head.sid token pair →
      TokenFor C (kvKeySchedule C store.key after.head.sid) after.head.sid token pair := by
    intro token pair hpair
    rw [hread.sid]
    exact hpair
  -- what is looked up among the new pairs is what the table was made of
  have hlookup : ∀ {token pair : String × String}, token ∈ table →
      pair ∈ collect (pairsOf entries) → token.1 = pair.1 →
      putAll store.table (pairsOf entries) token.1 = some pair.2 := by
    intro token pair _ hpair hkey
    rw [putAll_apply, hkey, (lookup_eq_some_iff_mem (nodup_collect _)).mpr hpair, Option.some_or]
  refine stores_readBack hC hstore hserved hbuilt hread
    (opensAs_of_entries (distinct_of_verify hverify) ?_ ?_)
  · intro key hkey
    have hmem : key ∈ table.map Prod.fst ∨ key ∈ draft.entries.map KvDocumentEntry.key := by
      rcases putAll_ne_none.mp hkey with hnew | hold
      · left
        rw [← mem_keys_collect] at hnew
        obtain ⟨pair, hpair, rfl⟩ := List.mem_map.mp hnew
        obtain ⟨token, htoken, hsame, _⟩ := exists_left_of_mem hmade hpair
        rw [← hsame]
        exact List.mem_map_of_mem htoken
      · right
        rw [hrun.represents.keys]
        exact (hkeys key).mp hold
    have hset := @entriesSet_setEntries draft table (hrun.represents.keys ▸ hdistinct) hnodup
    obtain ⟨added, hadded, _, hnew⟩ := hset.keys
    have hvaluesKeys : values.map KvEncEntry.key = (draft.setEntries table).entries.map
        KvDocumentEntry.key := hvalues.keys.symm
    rw [hread.entries, hvaluesKeys, hadded, List.mem_append]
    by_cases hold : key ∈ draft.entries.map KvDocumentEntry.key
    · exact Or.inl hold
    · exact Or.inr ((hnew key).mpr ⟨hmem.resolve_right hold, hold⟩)
  · rw [hread.entries]
    intro entry hentry
    obtain ⟨kept, hkept, hholds⟩ := exists_left_of_mem hvalues.entries hentry
    have hsize := hread.sizes entry hentry
    rcases mem_setEntries hnodup hkept with ⟨token, htoken, rfl⟩ | ⟨hold, hnone⟩
    · obtain ⟨pair, hpair, hmadePair⟩ := exists_right_of_mem hmade htoken
      refine ⟨pair.2, ?_, entryOpens_token hC.toLawful haead (hschedule hmadePair) hholds hsize⟩
      rw [show entry.key = token.1 from hholds.1]
      exact hlookup htoken hpair hmadePair.1
    · obtain ⟨value, hvalue, hopen⟩ := hopens entry (entry_of_draft hrun hold hholds)
      refine ⟨value, ?_, entryOpens_readBack hread hopen⟩
      have habsent : (collect (pairsOf entries)).lookup entry.key = none := by
        rw [lookup_eq_none_iff_not_mem] at hnone ⊢
        rw [hholds.key]
        intro hmem
        obtain ⟨pair, hpair, hkey⟩ := List.mem_map.mp hmem
        obtain ⟨token, htoken, hsame, _⟩ := exists_left_of_mem hmade hpair
        exact hnone (hkey ▸ hsame ▸ List.mem_map_of_mem htoken)
      rw [putAll_apply, habsent, Option.none_or]
      exact hvalue

/-! ## Unset -/

/-- **UNSET IS AN ERASE**: the key stays, and the table loses the value under the name. -/
theorem stores_unset (hC : Ideal C) {store : SecretStore} {key : String}
    (hserved : recipients.verifiedMembers ⊆ served)
    (hbefore : TextStores C served ⟨members, content⟩ store)
    (h : unsetKvEntryWithRecipients C content key recipients ctx entropy = .ok text) :
    TextStores C served ⟨recipients.verifiedMembers, text⟩ ⟨store.key,
      handlesOf recipients.verifiedMembers, Function.update store.table key none⟩ := by
  intro after hverify
  obtain ⟨doc, masterKey, draft, mutated, items, signature, hrun, hunwrap, hbuilt⟩ := rewrite_ok h
  have hstore := hbefore doc hrun.verified
  obtain rfl := key_of_unwrap hstore hunwrap
  have hmutated := hrun.ran
  split at hmutated
  · obtain rfl := Except.ok.inj hmutated
    obtain ⟨hkeys, hopens⟩ := entries_of_opensAs (distinct_of_verify hrun.verified) hstore.opens
    have hvalues := (represents_unsetEntry hrun.represents key).entries
    have hnames : ∀ entry ∈ (draft.unsetEntry key).entries, isValidKeyName entry.key = true := by
      intro entry hentry
      obtain ⟨headToken, sigToken, haccepted⟩ := accepted_of_verify hrun.verified
      have hold := (((entryUnset_unsetEntry draft key).kept entry).mp hentry).1
      rw [hrun.entries] at hold
      obtain ⟨old, hmem, rfl⟩ := List.mem_map.mp hold
      exact haccepted.keys old hmem
    have hread := readBack_rewritten hrun rfl hvalues hnames hverify
    refine stores_readBack hC hstore hserved hbuilt hread
      (opensAs_of_entries (distinct_of_verify hverify) ?_ ?_)
    · intro other hother
      rw [Function.update_apply] at hother
      have hne : other ≠ key := fun heq => hother (if_pos heq)
      rw [if_neg hne] at hother
      obtain ⟨entry, hentry, rfl⟩ := List.mem_map.mp ((hkeys other).mp hother)
      rw [hread.entries]
      exact List.mem_map_of_mem (List.mem_filter.mpr ⟨hentry, decide_eq_true hne⟩)
    · rw [hread.entries]
      intro entry hentry
      obtain ⟨hmem, hne⟩ := List.mem_filter.mp hentry
      obtain ⟨value, hvalue, hopen⟩ := hopens entry hmem
      refine ⟨value, ?_, entryOpens_readBack hread hopen⟩
      rw [Function.update_apply, if_neg (of_decide_eq_true hne)]
      exact hvalue
  · cases hmutated

/-! ## Rewrap -/

/-- The keys a rewrap draws. -/
def drawnKeys (draws : RewrapDraws) : List MasterKey :=
  [draws.remove.masterKey, draws.rotate.masterKey]

/-- The key a rewrap puts in force is one of those it draws. -/
theorem mem_drawnKeys {draws : RewrapDraws} {plan : RewrapOperationPlan} {entropy : Entropy}
    (h : renewalDraws draws plan = some entropy) : entropy.masterKey ∈ drawnKeys draws := by
  rw [renewalDraws] at h
  split at h
  · obtain rfl := Option.some.inj h
    exact List.mem_cons_self
  · split at h
    · obtain rfl := Option.some.inj h
      exact List.mem_cons_of_mem _ List.mem_cons_self
    · cases h

/-- The cipher of a rewritten kv-enc document. -/
theorem aead_kvRun {draws : RewrapDraws} {rewrapCtx : RewrapContext}
    (run : KvRun C draws content rewrapCtx text)
    (hinput : run.input.head.alg.aead = aeadXChaCha20Poly1305) :
    (run.draft.document run.entries run.signature).head.alg.aead = aeadXChaCha20Poly1305 := by
  have halg : (run.draft.document run.entries run.signature).head.alg
      = run.rotated.session.verified.head.alg := run.written.aead
  rw [halg]
  generalize hdrawn : renewalDraws draws (planFor (kvExecutor C) rewrapCtx.options
    run.input.wrap.wrap rewrapCtx.targetMembers run.start) = drawn
  have horigin := run.written.tracks.origin
  rw [hdrawn] at horigin
  cases horigin with
  | original _ hverified =>
    rw [hverified]
    exact hinput
  | rotated _ hfrom => exact hfrom.fresh.aead

/-- The store after a rewrap. -/
def rewrappedStore (store : SecretStore) (masterKey : MasterKey)
    (targetMembers : List VerifiedRecipientKey) : SecretStore where
  key := masterKey
  holders := handlesOf targetMembers
  table := store.table

/-- A rewrap removes one of the members a document was wrapped for, or rotates its key. -/
def RemovesOrRotates (members : List VerifiedRecipientKey) (rewrapCtx : RewrapContext) : Prop :=
  ¬handlesOf members ⊆ handlesOf rewrapCtx.targetMembers ∨ rewrapCtx.options.rotateKey = true

/-- A plan renews the key exactly then. -/
theorem renews_iff {items : List WrapItem} (rewrapCtx : RewrapContext) (stale : List String)
    (hitems : (recipientTable items).Perm (targetTable members)) :
    Renews (buildRewrapOperationPlan (items.map WrapItem.recipientHandle)
        (collectTargetMemberHandles rewrapCtx.targetMembers) stale rewrapCtx.options)
      ↔ RemovesOrRotates members rewrapCtx := by
  refine or_congr ?_ Iff.rfl
  have htarget : ∀ handle, handle ∈ collectTargetMemberHandles rewrapCtx.targetMembers
      ↔ handle ∈ handlesOf rewrapCtx.targetMembers := fun handle => by
    rw [mem_collectTargetMemberHandles, keys_targetTable]
    rfl
  rw [buildRewrapOperationPlan, ne_eq, List.filter_eq_nil_iff, not_iff_not]
  constructor
  · intro hall handle hhandle
    have hmem := (handles_of_recipients hitems).mem_iff.mpr hhandle
    have hkept := hall handle hmem
    rw [decide_eq_true_iff, not_not, htarget] at hkept
    exact hkept
  · intro hsubset handle hhandle
    rw [decide_eq_true_iff, not_not, htarget]
    exact hsubset ((handles_of_recipients hitems).mem_iff.mp hhandle)

/-- What a rewrap does to the key: it stays, and nobody is removed, or it is one of those drawn. -/
structure RewrapsKey (draws : RewrapDraws) (members : List VerifiedRecipientKey)
    (rewrapCtx : RewrapContext) (old masterKey : MasterKey) : Prop where
  kept : ¬RemovesOrRotates members rewrapCtx → masterKey = old
  renewed : RemovesOrRotates members rewrapCtx → masterKey ∈ drawnKeys draws

/-- The key of a run, by whether its plan renews. -/
theorem rewrapsKey_of_fresh {draws : RewrapDraws} {items : List WrapItem} {stale : List String}
    {rewrapCtx : RewrapContext} {old masterKey : MasterKey}
    (hitems : (recipientTable items).Perm (targetTable members))
    (h : FreshIffRenewed draws (buildRewrapOperationPlan (items.map WrapItem.recipientHandle)
      (collectTargetMemberHandles rewrapCtx.targetMembers) stale rewrapCtx.options) old
        masterKey) : RewrapsKey draws members rewrapCtx old masterKey := by
  constructor
  · intro hkeeps
    exact h.2 (renewalDraws_of_keeps fun hrenews => hkeeps ((renews_iff _ _ hitems).mp hrenews))
  · intro hrenews
    obtain ⟨entropy, hdrawn, _⟩ :=
      @renewalDraws_of_renews draws _ ((renews_iff rewrapCtx stale hitems).mpr hrenews)
    rw [h.1 entropy hdrawn]
    exact mem_drawnKeys hdrawn

/-- Nobody is removed where the key stays. -/
theorem not_removesOrRotates {rewrapCtx : RewrapContext}
    (h : ¬RemovesOrRotates members rewrapCtx) :
    handlesOf members ⊆ handlesOf rewrapCtx.targetMembers :=
  not_not.mp fun hremoves => h (Or.inl hremoves)

/-- Such a key is a step of a store for the members. -/
theorem RewrapsKey.step {V : Type} {κ : Type} [DecidableEq κ] {draws : RewrapDraws}
    {rewrapCtx : RewrapContext} {before after : Store MasterKey String κ V}
    (h : RewrapsKey draws members rewrapCtx before.key after.key)
    (hbefore : before.holders = handlesOf members)
    (hafter : after.holders = handlesOf rewrapCtx.targetMembers)
    (htable : after.table = before.table) : Step (.regrant (drawnKeys draws)) before after := by
  by_cases hrenews : RemovesOrRotates members rewrapCtx
  · exact .renewed (h.renewed hrenews) htable
  · refine .kept (h.kept hrenews) ?_ htable
    rw [hbefore, hafter]
    exact not_removesOrRotates hrenews

/-- **A REWRAP IS A REGRANT**: the table stays; the key stays if nobody leaves, or is a drawn
    one. -/
theorem stores_rewrap (hC : Ideal C) {store : SecretStore} {draws : RewrapDraws}
    {rewrapCtx : RewrapContext}
    (htarget : (rewrapCtx.targetMembers.map VerifiedRecipientKey.subjectHandle).Nodup)
    (hserved : rewrapCtx.targetMembers ⊆ served)
    (hbefore : TextStores C served ⟨members, content⟩ store)
    (h : rewrapKvDocument C draws content rewrapCtx = .ok text) :
    ∃ masterKey, RewrapsKey draws members rewrapCtx store.key masterKey
      ∧ store.holders = handlesOf members
      ∧ TextStores C served ⟨rewrapCtx.targetMembers, text⟩
        (rewrappedStore store masterKey rewrapCtx.targetMembers) := by
  obtain ⟨run⟩ := kv_run hC.toLawful h
  have hstore := hbefore run.input run.verified
  obtain ⟨old, hold, hkeys⟩ := kvKeys_run hC run
  obtain rfl := key_of_unwrap hstore hold
  have hfor := wrappedFor_kvRun hC.toLawful htarget run
  refine ⟨run.masterKey, rewrapsKey_of_fresh hstore.recipients hkeys.fresh, hstore.holders, ?_⟩
  intro after hverify
  obtain rfl := (spells_kvRun run).read (parse_of_verify hverify)
  refine ⟨hserved, ?_, hfor.recipients, rfl, hkeys.possession, aead_kvRun run hstore.aead, ?_⟩
  · intro item hitem
    rcases hkeys.wraps item hitem with hbuilt | ⟨hkept, hmem⟩
    · exact (wrapSeals_built hC hbuilt).mono hserved
    · show WrapSeals C .kv _ run.masterKey served item
      rw [hkeys.sid hkept, hkeys.fresh.2 hkept]
      exact hstore.seals item hmem
  · obtain ⟨values, hvalues, hlookup⟩ := hstore.opens
    obtain ⟨written, hwritten, hperm⟩ := hkeys.values values hvalues
    refine ⟨written, hwritten, fun key => ?_⟩
    have hdistinct : (written.map Prod.fst).Nodup := by
      rw [keys_of_decryptKvEntries hwritten]
      exact distinct_of_verify hverify
    rw [lookup_perm hperm hdistinct]
    exact hlookup key

end KvStore

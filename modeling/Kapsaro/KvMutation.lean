import Kapsaro.KvSession
import Kapsaro.ToyRewraps

/-!
# KV mutation — setting and unsetting entries of a kv-enc document

`feature/kv/mutate.rs`, over the drafts of `format/kv/document/draft.rs`: an entry is set or unset
in a verified document, which is then wrapped for the current recipients and signed again.

* **`setKvEntryWithRecipients`**, **`unsetKvEntryWithRecipients`** — the operations.
* **`KvView`** — a document as a sid, a creation time, a history and a map from keys to tokens.
* **`EntriesSet`**, **`EntryUnset`** — what the draft operations are meant to do to the map and to
  the order of the entries.
* **`Mutated`** — a signed text that differs from a document at the touched keys only.
* **`mutation_frame`** — the operations do that, and nothing else.
-/

namespace KvMutation

open Limits TextLines WireTexts WireModel DocumentTokens KvLines TokenRecords Envelope KvDocument
open SignedArtifacts KeyedList KvDraft Recipients KvSession KvRewrap JsonSize ToyCrypto ToyDocuments
open ToyRewraps

/-! ## The operations -/

/-- A value for a key. -/
structure KvInputEntry where
  key : String
  value : String

/-- The recipients a document is wrapped for. -/
structure KvRecipientSnapshot where
  memberHandles : List String
  verifiedMembers : List VerifiedRecipientKey

/-- Who writes. -/
structure KvWriteContext where
  memberHandle : String
  keyCtx : CryptoContext

section Operations

variable (C : Crypto)

/-- Encrypt a value into the token of an undisclosed entry. -/
def encodeEncryptedEntry (key value : String) (schedule : KeySchedule) (sid : Uuid)
    (nonce : FixedBytes 24) : Except Error String := do
  let entry ← encryptEntry C key value schedule sid nonce false
  encodeToken entry.toJson

/-- The tokens of some entries in order; the nonces are drawn in order. -/
def encodeEntriesFrom (schedule : KeySchedule) (sid : Uuid) (nonce : Nat → FixedBytes 24) :
    Nat → List KvInputEntry → Except Error (List (String × String))
  | _, [] => .ok []
  | i, entry :: rest => do
    let token ← encodeEncryptedEntry C entry.key entry.value schedule sid (nonce i)
    let tokens ← encodeEntriesFrom schedule sid nonce (i + 1) rest
    pure ((entry.key, token) :: tokens)

/-- The tokens of some entries as a table; a later entry of a key replaces an earlier one. -/
def buildEntryTokens (entries : List KvInputEntry) (masterKey : MasterKey) (sid : Uuid)
    (nonce : Nat → FixedBytes 24) : Except Error (List (String × String)) := do
  let tokens ← encodeEntriesFrom C (kvKeySchedule C masterKey sid) sid nonce 0 entries
  pure (collect tokens)

/-- A wrap for the recipients, with the history of the document. -/
def buildCurrentWrap (sid : Uuid) (recipients : KvRecipientSnapshot) (masterKey : MasterKey)
    (removedRecipients : Option (List RemovedRecipient)) (seed : Nat → Bytes) :
    Except Error KvWrap := do
  let wrap ← buildWrapsForRecipients C recipients.verifiedMembers sid masterKey .kv seed
  pure { wrap, removedRecipients }

/-- Change the draft of a verified document, wrap it for the recipients, and sign it. -/
def rewriteExistingKvContent (content : String) (recipients : KvRecipientSnapshot)
    (ctx : KvWriteContext) (entropy : Entropy)
    (mutateUnsigned : KvDocumentDraft → VerifiedKvRewriteSession → MasterKey →
      Except Error KvDocumentDraft) : Except Error String := do
  let session ← VerifiedKvRewriteSession.load C content ctx.memberHandle ctx.keyCtx
  let head := buildUpdatedHeader session.verified (entropy.clock 0)
  let sid := session.verified.head.sid
  let removedRecipients := session.verified.wrap.removedRecipients
  let masterKey ← session.unwrapMasterKey C
  let unsigned ← session.buildUnsigned head
  let unsigned ← mutateUnsigned unsigned session masterKey
  let wrap ← buildCurrentWrap C sid recipients masterKey removedRecipients entropy.seed
  session.sign C (unsigned.setWrap wrap) masterKey

/-- Encrypt the entries into a new document. -/
def setKvNewFile (entries : List KvInputEntry) (recipients : KvRecipientSnapshot)
    (ctx : KvWriteContext) (entropy : Entropy) : Except Error String :=
  encryptKvMapWithKeyContext C (collect (entries.map fun entry => (entry.key, entry.value)))
    recipients.verifiedMembers ctx.keyCtx false id entropy

/-- Set entries of a document. -/
def setKvExistingFile (content : String) (entries : List KvInputEntry)
    (recipients : KvRecipientSnapshot) (ctx : KvWriteContext) (entropy : Entropy) :
    Except Error String :=
  rewriteExistingKvContent C content recipients ctx entropy fun unsigned session masterKey => do
    let entryTokens ← buildEntryTokens C entries masterKey session.verified.head.sid entropy.nonce
    pure (unsigned.setEntries entryTokens)

def setKvEntryWithRecipients (existingContent : Option String) (entries : List KvInputEntry)
    (recipients : KvRecipientSnapshot) (ctx : KvWriteContext) (entropy : Entropy) :
    Except Error String :=
  match existingContent with
  | none => setKvNewFile C entries recipients ctx entropy
  | some content => setKvExistingFile C content entries recipients ctx entropy

def containsKey (lines : List KvEncLine) (key : String) : Bool :=
  lines.any fun
    | .kv existing _ => existing == key
    | _ => false

def buildKeyNotFoundError (key : String) : Error :=
  .invalidOperation s!"Key '{key}' not found"

/-- Unset an entry of a document, which has to be there. -/
def unsetKvEntryWithRecipients (content key : String) (recipients : KvRecipientSnapshot)
    (ctx : KvWriteContext) (entropy : Entropy) : Except Error String :=
  rewriteExistingKvContent C content recipients ctx entropy fun unsigned session _ =>
    if containsKey session.verified.lines key then .ok (unsigned.unsetEntry key)
    else .error (buildKeyNotFoundError key)

end Operations

/-! ## Documents as maps -/

/-- What a document says, apart from its wraps, its update time and the order of its entries. -/
structure KvView where
  sid : Uuid
  createdAt : String
  removedRecipients : Option (List RemovedRecipient)
  tokenOf : String → Option String

/-- The token under a key. -/
def tokenOf (draft : KvDocumentDraft) (key : String) : Option String :=
  (draft.entries.find? fun entry => entry.key = key).map KvDocumentEntry.token

def viewOfDraft (draft : KvDocumentDraft) : KvView where
  sid := draft.head.sid
  createdAt := draft.head.createdAt
  removedRecipients := draft.wrap.data.removedRecipients
  tokenOf := tokenOf draft

def viewOfDocument (doc : KvEncDocument) : KvView where
  sid := doc.head.sid
  createdAt := doc.head.createdAt
  removedRecipients := doc.wrap.removedRecipients
  tokenOf := fun key => (doc.entries.find? fun entry => entry.key = key).map KvEncEntry.token

/-- The token under a key of a document. -/
def documentToken (doc : KvEncDocument) : String → Option String :=
  (viewOfDocument doc).tokenOf

/-- A signed text that says what a document says, with these tokens under its keys. -/
def Mutated (doc : KvEncDocument) (tokens : String → Option String) (text : String) : Prop :=
  ∃ draft signature, text = KvDocumentDraft.signedWith draft signature
    ∧ viewOfDraft draft = { viewOfDocument doc with tokenOf := tokens }

/-- Whoever reads a text finds what a document says, with these tokens under its keys. -/
def ReadAs (doc : KvEncDocument) (tokens : String → Option String) (text : String) : Prop :=
  ∀ sourceName doc', parseKvDocumentWithSource text sourceName = .ok doc' →
    viewOfDocument doc' = { viewOfDocument doc with tokenOf := tokens }

/-! ## What the draft operations are meant to do -/

/-- Entries set in a draft: the map is updated, existing entries stay in their places, the new
    keys follow in order, and nothing else changes. -/
structure EntriesSet (before : KvDocumentDraft) (table : List (String × String))
    (after : KvDocumentDraft) : Prop where
  tokens : ∀ key, tokenOf after key = (table.lookup key).or (tokenOf before key)
  /-- An entry with a new token keeps its place. -/
  replaced : ∀ (i : Nat) (entry : KvDocumentEntry) (token : String),
    before.entries[i]? = some entry → table.lookup entry.key = some token →
    after.entries[i]? = some (.encoded entry.key token)
  /-- Any other entry keeps its place and its token. -/
  untouched : ∀ (i : Nat) (entry : KvDocumentEntry), before.entries[i]? = some entry →
    entry.key ∉ table.map Prod.fst → after.entries[i]? = some entry
  keys : ∃ added, after.entries.map KvDocumentEntry.key
      = before.entries.map KvDocumentEntry.key ++ added
    ∧ added.Pairwise (· ≤ ·)
    ∧ ∀ key, key ∈ added
      ↔ key ∈ table.map Prod.fst ∧ key ∉ before.entries.map KvDocumentEntry.key
  distinct : (after.entries.map KvDocumentEntry.key).Nodup
  head : after.head = before.head
  wrap : after.wrap = before.wrap

/-- An entry removed from a draft: the entries of all other keys stay, in their order. -/
structure EntryUnset (before : KvDocumentDraft) (key : String) (after : KvDocumentDraft) :
    Prop where
  tokens : ∀ other, tokenOf after other = if other = key then none else tokenOf before other
  kept : ∀ entry, entry ∈ after.entries ↔ entry ∈ before.entries ∧ entry.key ≠ key
  order : after.entries.Sublist before.entries
  head : after.head = before.head
  wrap : after.wrap = before.wrap

/-! ## The draft operations -/

section Drafts

theorem key_encoded (key token : String) : (KvDocumentEntry.encoded key token).key = key := rfl

/-- Setting entries is the general operation on the entries. -/
theorem entries_setEntries (draft : KvDocumentDraft) (table : List (String × String)) :
    (draft.setEntries table).entries
      = setAll KvDocumentEntry.key KvDocumentEntry.encoded table draft.entries := by
  have hfilter : (table.filter fun entry => entry.1 ∉
        (draft.entries.map KvDocumentEntry.key).filter fun key => (table.lookup key).isSome)
      = table.filter fun entry => entry.1 ∉ draft.entries.map KvDocumentEntry.key := by
    refine List.filter_congr fun entry hentry => ?_
    refine decide_eq_decide.mpr (not_congr ?_)
    rw [List.mem_filter]
    refine ⟨fun h => h.1, fun h => ⟨h, ?_⟩⟩
    rw [Option.isSome_iff_ne_none]
    intro hnone
    exact lookup_eq_none_iff_not_mem.mp hnone (List.mem_map_of_mem hentry)
  rw [setAll, additions, ← hfilter]
  refine congrArg (· ++ _) (List.map_congr_left fun entry _ => ?_)
  rw [renew]
  cases table.lookup entry.key <;> rfl

variable {draft : KvDocumentDraft} {table : List (String × String)}

/-- **ENTRIES ARE SET AS MEANT.** -/
theorem entriesSet_setEntries (hdraft : (draft.entries.map KvDocumentEntry.key).Nodup)
    (htable : (table.map Prod.fst).Nodup) : EntriesSet draft table (draft.setEntries table) where
  tokens := by
    intro key
    rw [tokenOf, tokenOf, entries_setEntries, find?_setAll key_encoded htable]
    cases table.lookup key <;> rfl
  replaced := by
    intro i entry token hentry hlook
    have hlength : i < draft.entries.length := (List.getElem?_eq_some_iff.mp hentry).1
    rw [entries_setEntries, setAll, List.getElem?_append_left (by rwa [List.length_map]),
      List.getElem?_map, hentry, Option.map_some, renew, hlook]
  untouched := by
    intro i entry hentry habsent
    have hlength : i < draft.entries.length := (List.getElem?_eq_some_iff.mp hentry).1
    rw [entries_setEntries, setAll, List.getElem?_append_left (by rwa [List.length_map]),
      List.getElem?_map, hentry, Option.map_some, renew, lookup_eq_none_iff_not_mem.mpr habsent]
  keys := by
    refine ⟨(additions KvDocumentEntry.key table draft.entries).map Prod.fst, ?_,
      pairwise_additions table draft.entries, ?_⟩
    · rw [entries_setEntries, keys_setAll key_encoded]
    · intro key
      constructor
      · intro hkey
        obtain ⟨pair, hpair, rfl⟩ := List.mem_map.mp hkey
        obtain ⟨hmem, habsent⟩ := mem_additions.mp hpair
        exact ⟨List.mem_map_of_mem hmem, habsent⟩
      · rintro ⟨hkey, habsent⟩
        obtain ⟨pair, hpair, rfl⟩ := List.mem_map.mp hkey
        exact List.mem_map_of_mem (mem_additions.mpr ⟨hpair, habsent⟩)
  distinct := by
    rw [entries_setEntries]
    exact nodup_setAll key_encoded htable hdraft
  head := rfl
  wrap := rfl

/-- The order of the new pairs does not matter. -/
theorem setEntries_perm {table' : List (String × String)} (hperm : table'.Perm table)
    (htable : (table.map Prod.fst).Nodup) : draft.setEntries table' = draft.setEntries table := by
  have htable' : (table'.map Prod.fst).Nodup := (hperm.map Prod.fst).nodup_iff.mpr htable
  have hentries : (draft.setEntries table').entries = (draft.setEntries table).entries := by
    rw [entries_setEntries, entries_setEntries, setAll_perm hperm htable']
  exact congrArg (fun entries => { draft with entries := entries }) hentries

/-- Setting the same entries again changes nothing. -/
theorem setEntries_setEntries (htable : (table.map Prod.fst).Nodup) :
    (draft.setEntries table).setEntries table = draft.setEntries table := by
  have hentries : ((draft.setEntries table).setEntries table).entries
      = (draft.setEntries table).entries := by
    rw [entries_setEntries, entries_setEntries, setAll_setAll key_encoded htable]
  exact congrArg (fun entries => { draft with entries := entries }) hentries

/-- **AN ENTRY IS UNSET AS MEANT.** -/
theorem entryUnset_unsetEntry (draft : KvDocumentDraft) (key : String) :
    EntryUnset draft key (draft.unsetEntry key) where
  tokens := by
    intro other
    rw [tokenOf, tokenOf, KvDocumentDraft.unsetEntry, List.find?_filter]
    by_cases hother : other = key
    · subst hother
      rw [if_pos rfl, Option.map_eq_none_iff, List.find?_eq_none]
      intro entry _ hboth
      simp at hboth
    · rw [if_neg hother]
      refine congrArg _ (congrArg (List.find? · draft.entries) (funext fun entry => ?_))
      by_cases hentry : entry.key = other
      · rw [hentry]
        simp [hother]
      · simp [hentry]
  kept := by
    intro entry
    rw [KvDocumentDraft.unsetEntry, List.mem_filter, decide_eq_true_iff]
  order := List.filter_sublist
  head := rfl
  wrap := rfl

end Drafts

/-! ## The mutations -/

section Mutations

variable {C : Crypto}

/-- Looking up a pair is finding the element it was made from. -/
theorem find?_map_eq_lookup {α : Type} (key token : α → String) (xs : List α) (k : String) :
    (xs.find? fun x => decide (key x = k)).map token
      = (xs.map fun x => (key x, token x)).lookup k := by
  induction xs with
  | nil => rfl
  | cons x xs ih =>
    rw [List.map_cons, List.lookup_cons, List.find?_cons]
    by_cases hx : key x = k
    · rw [hx, beq_self_eq_true, decide_eq_true rfl]
      rfl
    · rw [decide_eq_false hx, beq_eq_false_iff_ne.mpr (Ne.symm hx)]
      exact ih

/-- A draft that stands for some entries has the tokens of the document made from it. -/
theorem viewOfDocument_document {draft : KvDocumentDraft} {entries : List KvEncEntry}
    (h : Stands draft entries) (signature : ArtifactSignature) :
    viewOfDocument (draft.document entries signature) = viewOfDraft draft := by
  have htokens : (viewOfDocument (draft.document entries signature)).tokenOf = tokenOf draft := by
    funext key
    show (entries.find? fun entry => decide (entry.key = key)).map KvEncEntry.token
        = tokenOf draft key
    rw [tokenOf, find?_map_eq_lookup, find?_map_eq_lookup, ← h.tokens]
    rfl
  exact congrArg (KvView.mk draft.head.sid draft.head.createdAt draft.wrap.data.removedRecipients)
    htokens

/-- What a rewrite does: the draft of the verified document is changed, gets its new wrap and the
    old history, and is signed. -/
structure Rewritten (C : Crypto) (content : String) (ctx : KvWriteContext) (now : Timestamp)
    (mutateUnsigned : KvDocumentDraft → VerifiedKvRewriteSession → MasterKey →
      Except Error KvDocumentDraft) (text : String) (doc : KvEncDocument) (masterKey : MasterKey)
    (draft mutated : KvDocumentDraft) (wrap : KvWrap) (signature : ArtifactSignature) : Prop where
  verified : verifyKvContent C content = .ok doc
  represents : Represents draft doc.entries
  head : draft.head = buildUpdatedHeader doc now
  entries : draft.entries = doc.entries.map fun entry =>
    .preserved entry.key entry.token entry.value
  ran : mutateUnsigned draft ⟨doc, ctx.memberHandle, ctx.keyCtx⟩ masterKey = .ok mutated
  history : wrap.removedRecipients = doc.wrap.removedRecipients
  signed : ∃ signing, SignedBy C (mutated.setWrap wrap) masterKey signing signature text

/-- The header of a document stays well formed with a new time. -/
theorem wellFormed_updatedHeader {content headToken sigToken : String} {doc : KvEncDocument}
    (h : Accepted content doc headToken sigToken) (now : Timestamp) :
    (buildUpdatedHeader doc now).wellFormed = true := by
  have hdoc := wellFormed_of_parseHead h.head
  simp only [KvHeader.wellFormed, Bool.and_eq_true] at hdoc
  rw [KvHeader.wellFormed]
  show (doc.head.alg.wellFormed && isIso8601Text doc.head.createdAt && isIso8601Text now.text)
      = true
  rw [hdoc.1.1, hdoc.1.2, isIso8601Text_of_rfc3339Utc now.valid]
  rfl

/-- **WHAT A SUCCESSFUL REWRITE DID.** -/
theorem rewriteExistingKvContent_ok {content text : String} {recipients : KvRecipientSnapshot}
    {ctx : KvWriteContext} {entropy : Entropy}
    {mutateUnsigned : KvDocumentDraft → VerifiedKvRewriteSession → MasterKey →
      Except Error KvDocumentDraft}
    (h : rewriteExistingKvContent C content recipients ctx entropy mutateUnsigned = .ok text) :
    ∃ doc masterKey draft mutated wrap signature, Rewritten C content ctx (entropy.clock 0)
      mutateUnsigned text doc masterKey draft mutated wrap signature := by
  obtain ⟨session, hload, h⟩ := bind_eq_ok.mp h
  obtain ⟨doc, hverified, hload⟩ := bind_eq_ok.mp hload
  obtain rfl := Except.ok.inj hload
  obtain ⟨masterKey, _, h⟩ := bind_eq_ok.mp h
  obtain ⟨draft, hdraft, h⟩ := bind_eq_ok.mp h
  obtain ⟨mutated, hmutated, h⟩ := bind_eq_ok.mp h
  obtain ⟨wrap, hwrap, h⟩ := bind_eq_ok.mp h
  obtain ⟨signing, _, h⟩ := bind_eq_ok.mp h
  obtain ⟨signature, hsigned⟩ := signUnsignedKvDocument_ok h
  obtain ⟨items, _, hwrap⟩ := bind_eq_ok.mp hwrap
  obtain rfl := Except.ok.inj hwrap
  obtain ⟨headToken, sigToken, haccepted⟩ := accepted_of_verify hverified
  obtain ⟨draft', hdraft', hhead', _, hrep⟩ := represents_fromDocument haccepted
    (wellFormed_updatedHeader haccepted (entropy.clock 0))
  have heq : draft' = draft := Except.ok.inj (hdraft'.symm.trans hdraft)
  subst heq
  obtain ⟨source, _, hsource⟩ := bind_eq_ok.mp hdraft
  have hentries := congrArg KvDocumentDraft.entries (Except.ok.inj hsource)
  exact ⟨doc, masterKey, draft', mutated, ⟨items, doc.wrap.removedRecipients⟩, signature, hverified,
    hrep, hhead', hentries.symm, hmutated, rfl, signing, hsigned⟩

/-- The draft of a document has the tokens of the document. -/
theorem Rewritten.tokenOf_draft {content text : String} {ctx : KvWriteContext} {now : Timestamp}
    {mutateUnsigned : KvDocumentDraft → VerifiedKvRewriteSession → MasterKey →
      Except Error KvDocumentDraft} {doc : KvEncDocument} {masterKey : MasterKey}
    {draft mutated : KvDocumentDraft} {wrap : KvWrap} {signature : ArtifactSignature}
    (h : Rewritten C content ctx now mutateUnsigned text doc masterKey draft mutated wrap
      signature) : tokenOf draft = documentToken doc := by
  funext key
  show tokenOf draft key = (doc.entries.find? fun entry => decide (entry.key = key)).map _
  rw [tokenOf, find?_map_eq_lookup, find?_map_eq_lookup, h.entries, List.map_map]
  rfl

/-- The view of a rewritten draft, from the tokens the mutation left. -/
theorem Rewritten.view {content text : String} {ctx : KvWriteContext} {now : Timestamp}
    {mutateUnsigned : KvDocumentDraft → VerifiedKvRewriteSession → MasterKey →
      Except Error KvDocumentDraft} {doc : KvEncDocument} {masterKey : MasterKey}
    {draft mutated : KvDocumentDraft} {wrap : KvWrap} {signature : ArtifactSignature}
    (h : Rewritten C content ctx now mutateUnsigned text doc masterKey draft mutated wrap
      signature) (hhead : mutated.head = draft.head) {tokens : String → Option String}
    (htokens : tokenOf mutated = tokens) :
    viewOfDraft (mutated.setWrap wrap) = { viewOfDocument doc with tokenOf := tokens } := by
  have htokens' : tokenOf (mutated.setWrap wrap) = tokens := htokens
  rw [viewOfDraft, htokens']
  show KvView.mk mutated.head.sid mutated.head.createdAt wrap.removedRecipients tokens = _
  rw [hhead, h.head, h.history]
  rfl

/-- The tokens of encoded entries are the encoder's, under the keys of the entries. -/
theorem encodeEntriesFrom_ok {schedule : KeySchedule} {sid : Uuid} {nonce : Nat → FixedBytes 24}
    {i : Nat} {entries : List KvInputEntry} {tokens : List (String × String)}
    (h : encodeEntriesFrom C schedule sid nonce i entries = .ok tokens) :
    tokens.map Prod.fst = entries.map KvInputEntry.key
      ∧ (Lawful C → EncodedEntries tokens) := by
  induction entries generalizing i tokens with
  | nil =>
    obtain rfl := Except.ok.inj h
    exact ⟨rfl, fun _ entry hentry => absurd hentry List.not_mem_nil⟩
  | cons entry entries ih =>
    obtain ⟨token, htoken, h⟩ := bind_eq_ok.mp h
    obtain ⟨rest, hrest, h⟩ := bind_eq_ok.mp h
    obtain rfl := Except.ok.inj h
    obtain ⟨hkeys, hencoded⟩ := ih hrest
    refine ⟨?_, fun hC => ?_⟩
    · rw [List.map_cons, List.map_cons, hkeys]
    · obtain ⟨value, hvalue, htoken⟩ := bind_eq_ok.mp htoken
      have hwell := (wellFormed_encryptEntry hC hvalue).1
      rw [encodeToken_eq (encodable_entry hwell).numbers] at htoken
      intro pair hpair
      rcases List.mem_cons.mp hpair with rfl | hpair
      · exact ⟨value, hwell, (Except.ok.inj htoken).symm⟩
      · exact hencoded hC pair hpair

/-- What the entries of a set operation come to: one token for each key. -/
theorem buildEntryTokens_ok {entries : List KvInputEntry} {masterKey : MasterKey} {sid : Uuid}
    {nonce : Nat → FixedBytes 24} {table : List (String × String)}
    (h : buildEntryTokens C entries masterKey sid nonce = .ok table) :
    (table.map Prod.fst).Nodup
      ∧ (∀ key, key ∈ table.map Prod.fst ↔ key ∈ entries.map KvInputEntry.key)
      ∧ (Lawful C → EncodedEntries table) := by
  obtain ⟨tokens, htokens, h⟩ := bind_eq_ok.mp h
  obtain rfl := Except.ok.inj h
  obtain ⟨hkeys, hencoded⟩ := encodeEntriesFrom_ok htokens
  refine ⟨nodup_collect _, fun key => ?_, fun hC pair hpair => ?_⟩
  · rw [mem_keys_collect, hkeys]
  · exact hencoded hC pair (mem_of_mem_collect hpair)

/-- **SET CHANGES THE TOKENS OF THE SET KEYS ONLY**, in the text and for whoever reads it. -/
theorem mutated_of_set {content text : String} {entries : List KvInputEntry}
    {recipients : KvRecipientSnapshot} {ctx : KvWriteContext} {entropy : Entropy}
    (h : setKvExistingFile C content entries recipients ctx entropy = .ok text) :
    ∃ (doc : KvEncDocument) (table : List (String × String)), verifyKvContent C content = .ok doc
      ∧ (∀ key, key ∈ table.map Prod.fst ↔ key ∈ entries.map KvInputEntry.key)
      ∧ Mutated doc (fun key => (table.lookup key).or (documentToken doc key)) text
      ∧ (Lawful C → (∀ entry ∈ entries, isValidKeyName entry.key = true) →
          ReadAs doc (fun key => (table.lookup key).or (documentToken doc key)) text) := by
  obtain ⟨doc, masterKey, draft, mutated, wrap, signature, hrun⟩ := rewriteExistingKvContent_ok h
  obtain ⟨table, htable, hmutated⟩ := bind_eq_ok.mp hrun.ran
  obtain rfl := Except.ok.inj hmutated
  obtain ⟨hnodup, hkeys, hencoded⟩ := buildEntryTokens_ok htable
  obtain ⟨headToken, sigToken, haccepted⟩ := accepted_of_verify hrun.verified
  have hdistinct : (draft.entries.map KvDocumentEntry.key).Nodup := by
    rw [hrun.represents.keys]
    exact haccepted.distinct
  have hset := entriesSet_setEntries hdistinct hnodup
  have htokens : tokenOf (draft.setEntries table)
      = fun key => (table.lookup key).or (documentToken doc key) := by
    funext key
    rw [hset.tokens key, hrun.tokenOf_draft]
  have hview := hrun.view hset.head htokens
  obtain ⟨signing, hsigned⟩ := hrun.signed
  refine ⟨doc, table, hrun.verified, hkeys, ⟨_, signature, hsigned.text_eq, hview⟩, ?_⟩
  -- Read back, the text is the document that was made, so the view is the one computed.
  intro hC hvalid sourceName doc' hparse
  obtain ⟨values, hvalues⟩ := represents_setEntries hrun.represents (hencoded hC)
  have hstands : Stands ((draft.setEntries table).setWrap wrap) values :=
    ⟨fun _ htoken => (by cases htoken), hvalues.entries⟩
  have hnames : ∀ entry ∈ (draft.setEntries table).entries, isValidKeyName entry.key = true := by
    intro entry hentry
    obtain ⟨added, hadded, _, hnew⟩ := hset.keys
    have hmem : entry.key ∈ draft.entries.map KvDocumentEntry.key ++ added := by
      rw [← hadded]
      exact List.mem_map_of_mem hentry
    rcases List.mem_append.mp hmem with hold | hadd
    · rw [hrun.represents.keys] at hold
      obtain ⟨e, he, heq⟩ := List.mem_map.mp hold
      rw [← heq]
      exact haccepted.keys e he
    · obtain ⟨e, he, heq⟩ := List.mem_map.mp ((hkeys _).mp ((hnew _).mp hadd).1)
      rw [← heq]
      exact hvalid e he
  rw [hsigned.text_eq] at hparse
  obtain ⟨rfl, _, _⟩ := signed_parse hstands hsigned.checked hnames hparse
  rw [viewOfDocument_document hstands, hview]

/-- **UNSET REMOVES THE TOKEN OF ITS KEY ONLY**, in the text and for whoever reads it. -/
theorem mutated_of_unset {content key text : String} {recipients : KvRecipientSnapshot}
    {ctx : KvWriteContext} {entropy : Entropy}
    (h : unsetKvEntryWithRecipients C content key recipients ctx entropy = .ok text) :
    ∃ doc, verifyKvContent C content = .ok doc
      ∧ Mutated doc (fun other => if other = key then none else documentToken doc other) text
      ∧ ReadAs doc (fun other => if other = key then none else documentToken doc other) text := by
  obtain ⟨doc, masterKey, draft, mutated, wrap, signature, hrun⟩ := rewriteExistingKvContent_ok h
  have hmutated := hrun.ran
  split at hmutated
  · obtain rfl := Except.ok.inj hmutated
    obtain ⟨headToken, sigToken, haccepted⟩ := accepted_of_verify hrun.verified
    have hunset := entryUnset_unsetEntry draft key
    have htokens : tokenOf (draft.unsetEntry key)
        = fun other => if other = key then none else documentToken doc other := by
      funext other
      rw [hunset.tokens other, hrun.tokenOf_draft]
    have hview := hrun.view hunset.head htokens
    obtain ⟨signing, hsigned⟩ := hrun.signed
    refine ⟨doc, hrun.verified, ⟨_, signature, hsigned.text_eq, hview⟩, ?_⟩
    intro sourceName doc' hparse
    have hstands : Stands ((draft.unsetEntry key).setWrap wrap)
        (doc.entries.filter fun entry => entry.key ≠ key) :=
      ⟨fun _ htoken => (by cases htoken), (represents_unsetEntry hrun.represents key).entries⟩
    have hnames : ∀ entry ∈ (draft.unsetEntry key).entries, isValidKeyName entry.key = true := by
      intro entry hentry
      have hold : entry.key ∈ draft.entries.map KvDocumentEntry.key :=
        List.mem_map_of_mem ((hunset.kept entry).mp hentry).1
      rw [hrun.represents.keys] at hold
      obtain ⟨e, he, heq⟩ := List.mem_map.mp hold
      rw [← heq]
      exact haccepted.keys e he
    rw [hsigned.text_eq] at hparse
    obtain ⟨rfl, _, _⟩ := signed_parse hstands hsigned.checked hnames hparse
    rw [viewOfDocument_document hstands, hview]
  · cases hmutated

end Mutations

/-! ## Toy documents -/

section ToyDocuments

variable {sid : Uuid} {key : MasterKey} {marks : List (String × Bool)} {people : List ToyPerson}
variable {removed : Option (List RemovedRecipient)} {signer : MemberHandle} {secret : Bytes}
variable {content : String} {p : ToyPerson}

/-- Who writes for whom. -/
def writesFor (people : List ToyPerson) : KvRecipientSnapshot :=
  ⟨handleTexts people, people.map ToyPerson.member⟩

def writtenBy (p : ToyPerson) : KvWriteContext := ⟨p.handle.text, p.context⟩

/-- A rewrite of a toy document goes through, when the change of its draft does. -/
theorem rewrite_toyKv (hkid : p.kid = toyKid) (hp : p ∈ people) (hteam : Team people)
    (hremoved : ShortHistory removed) {changed : List (String × Bool)} (hchanged : ToyMarks changed)
    (hcontent : ToyText sid ⟨people.map (ToyPerson.wrap key), removed⟩ key marks signer
      secret content)
    {mutateUnsigned : KvDocumentDraft → VerifiedKvRewriteSession → MasterKey →
      Except Error KvDocumentDraft}
    (hmutate : ∀ {draft verified}, verified.head.sid = sid →
      (∀ mark ∈ marks, containsKey verified.lines mark.1 = true) →
      ToyMarked sid ⟨people.map (ToyPerson.wrap key), removed⟩ key marks draft →
      ∃ draft', mutateUnsigned draft ⟨verified, p.handle.text, p.context⟩ key = .ok draft'
        ∧ ToyMarked sid ⟨people.map (ToyPerson.wrap key), removed⟩ key changed draft')
    (newSid : Uuid) (newKey : MasterKey) :
    ∃ text, rewriteExistingKvContent toyCrypto content (writesFor people) (writtenBy p)
        (toyDraws newSid newKey) mutateUnsigned = .ok text
      ∧ ToyText sid ⟨people.map (ToyPerson.wrap key), removed⟩ key changed p.handle
        p.secret text := by
  have hsmall := (smallWraps_team hteam key).toSmallWrap hremoved
  have hsigning : buildSigningContext toyCrypto p.context = .ok (toySigning p.handle p.secret) := by
    rw [ToyPerson.context, hkid]
    exact buildSigningContext_toy p.handle p.secret
  obtain ⟨source, signature, hsource, hsigned, hverify⟩ := hcontent
  obtain ⟨draft, hdraft, hmarked⟩ := toyMarked_reread hsource hverify
  obtain ⟨hunwrap, hproof⟩ := unwrap_toyMarked hsmall.toWrapChecked hsource hsigned
    (List.mem_map_of_mem (f := ToyPerson.wrap key) hp)
  have hkeys : ∀ mark ∈ marks, containsKey
      (source.document (marks.map (markedEntry key)) signature).lines mark.1 = true := by
    intro mark hmark
    refine List.any_eq_true.mpr ⟨.kv mark.1 (markedEntry key mark).token, ?_, beq_self_eq_true _⟩
    refine List.mem_append_left _ (List.mem_append_right _ (List.mem_map.mpr
      ⟨(mark.1, (markedEntry key mark).token), ?_, rfl⟩))
    exact List.mem_map.mpr ⟨markedEntry key mark, List.mem_map_of_mem hmark, rfl⟩
  have hhead : buildUpdatedHeader (source.document (marks.map (markedEntry key)) signature) toyTime
      = (source.document (marks.map (markedEntry key)) signature).head := by
    have hsame : (source.document (marks.map (markedEntry key)) signature).head = toyHead sid :=
      hsource.head
    rw [buildUpdatedHeader, hsame]
    rfl
  obtain ⟨draft', hdraft', hmarked'⟩ := hmutate (congrArg KvHeader.sid hsource.head) hkeys hmarked
  have hwrapped : ToyMarked sid ⟨people.map (ToyPerson.wrap key), removed⟩ key changed
      (draft'.setWrap ⟨people.map (ToyPerson.wrap key), removed⟩) :=
    ⟨represents_setWrap hmarked'.represents hsmall.toWrapChecked, hmarked'.head, rfl, rfl⟩
  obtain ⟨text, htext, htoy⟩ := toyText_sign (p := p) hteam hremoved hchanged
    (hteam.2.2.2 _ (List.mem_map_of_mem hp)) hwrapped
  refine ⟨text, bind_eq_ok.mpr ⟨_, bind_eq_ok.mpr ⟨_, hverify, rfl⟩, bind_eq_ok.mpr ⟨key,
    bind_eq_ok.mpr ⟨key, hunwrap, bind_eq_ok.mpr ⟨(), hproof, rfl⟩⟩, bind_eq_ok.mpr ⟨draft, ?_,
      bind_eq_ok.mpr ⟨draft', hdraft', bind_eq_ok.mpr ⟨_, bind_eq_ok.mpr ⟨_,
        buildWrapsForRecipients_toy .kv _ key _ hteam.length_le, rfl⟩, bind_eq_ok.mpr
          ⟨_, hsigning, ?_⟩⟩⟩⟩⟩⟩, htoy⟩
  · show KvDocumentBuilder.fromDocument (buildUpdatedHeader _ toyTime) none _ = .ok draft
    rw [hhead]
    exact hdraft
  · have hhistory : (source.document (marks.map (markedEntry key)) signature).wrap.removedRecipients
        = removed := congrArg KvWrap.removedRecipients hsource.data
    dsimp only
    rw [hhistory]
    exact htext

/-- Unsetting goes through. -/
theorem unset_toyKv (name : String) (hkid : p.kid = toyKid) (hp : p ∈ people) (hteam : Team people)
    (hremoved : ShortHistory removed) (hmarks : ToyMarks marks)
    (hname : name ∈ marks.map Prod.fst)
    (hcontent : ToyText sid ⟨people.map (ToyPerson.wrap key), removed⟩ key marks signer
      secret content)
    (newSid : Uuid) (newKey : MasterKey) :
    ∃ text, unsetKvEntryWithRecipients toyCrypto content name (writesFor people) (writtenBy p)
        (toyDraws newSid newKey) = .ok text
      ∧ ToyText sid ⟨people.map (ToyPerson.wrap key), removed⟩ key
        (marks.filter fun mark => mark.1 ≠ name) p.handle p.secret text := by
  have hsub : (marks.filter fun mark => mark.1 ≠ name).Sublist marks := List.filter_sublist
  have hchanged : ToyMarks (marks.filter fun mark => mark.1 ≠ name) :=
    ⟨fun mark hmark => hmarks.names mark (hsub.subset hmark), hmarks.sorted.sublist (hsub.map _),
      Nat.le_trans hsub.length_le hmarks.few, fun mark hmark =>
        hmarks.short mark (hsub.subset hmark)⟩
  refine rewrite_toyKv hkid hp hteam hremoved hchanged hcontent (fun _ hkeys hmarked => ?_) newSid
    newKey
  obtain ⟨mark, hmark, rfl⟩ := List.mem_map.mp hname
  refine ⟨_, if_pos (hkeys mark hmark), ?_, hmarked.head, hmarked.data, hmarked.wrapToken⟩
  have hrepresents := represents_unsetEntry hmarked.represents mark.1
  rw [List.filter_map] at hrepresents
  exact hrepresents

/-- A token under a new key goes to the end. -/
theorem setEntries_new {name : String} {draft : KvDocumentDraft} {token : String}
    (hnew : name ∉ draft.entries.map KvDocumentEntry.key) :
    draft.setEntries [(name, token)]
      = { draft with entries := draft.entries ++ [.encoded name token] } := by
  have hlookup : ∀ entry ∈ draft.entries, [(name, token)].lookup entry.key = none := by
    intro entry hentry
    refine List.lookup_eq_none_iff.mpr fun pair hpair => ?_
    rw [List.mem_singleton.mp hpair, bne_iff_ne]
    rintro rfl
    exact hnew (List.mem_map_of_mem hentry)
  have hfound : (draft.entries.map KvDocumentEntry.key).filter
      (fun key => ([(name, token)].lookup key).isSome) = [] := by
    refine List.filter_eq_nil_iff.mpr fun key hkey => ?_
    obtain ⟨entry, hentry, rfl⟩ := List.mem_map.mp hkey
    rw [hlookup entry hentry]
    exact Bool.false_ne_true
  refine congrArg (fun entries => { draft with entries := entries }) (congrArg₂ (· ++ ·)
    ((List.map_congr_left fun entry hentry => ?_).trans (List.map_id _)) ?_)
  · rw [hlookup entry hentry]
    rfl
  · rw [hfound]
    rfl

/-- Setting a new key goes through. -/
theorem set_toyKv (name : String) (hkid : p.kid = toyKid) (hp : p ∈ people) (hteam : Team people)
    (hremoved : ShortHistory removed) (hchanged : ToyMarks (marks ++ [(name, false)]))
    (hcontent : ToyText sid ⟨people.map (ToyPerson.wrap key), removed⟩ key marks signer
      secret content)
    (newSid : Uuid) (newKey : MasterKey) :
    ∃ text, setKvEntryWithRecipients toyCrypto (some content) [⟨name, "value"⟩] (writesFor people)
        (writtenBy p) (toyDraws newSid newKey) = .ok text
      ∧ ToyText sid ⟨people.map (ToyPerson.wrap key), removed⟩ key
        (marks ++ [(name, false)]) p.handle
        p.secret text := by
  refine rewrite_toyKv hkid hp hteam hremoved hchanged hcontent (fun hsid _ hmarked => ?_)
    newSid newKey
  have htoken := encodeToken_eq (encodable_entry (wellFormed_markedValue key false)).numbers
  have hnew : name ∉ (marks.map Prod.fst) := by
    have hsorted := hchanged.distinct
    rw [List.map_append] at hsorted
    exact fun hmem => (List.nodup_append.mp hsorted).2.2 name hmem name
      (List.mem_singleton_self _) rfl
  have hkeys : _ = marks.map Prod.fst := hmarked.represents.toStands.keys.trans (List.map_map ..)
  refine ⟨_, bind_eq_ok.mpr ⟨_, bind_eq_ok.mpr ⟨_, bind_eq_ok.mpr ⟨_, bind_eq_ok.mpr
    ⟨_, encryptEntry_toy name "value" key _ false, htoken⟩, rfl⟩, rfl⟩, rfl⟩, ?_⟩
  show ToyMarked _ _ _ _ (KvDocumentDraft.setEntries _
      [(name, tokenText (markedValue key false).toJson)])
  rw [setEntries_new (hkeys ▸ hnew)]
  have hentry : List.Forall₂ Holds
      [KvDocumentEntry.encoded name (tokenText (markedValue key false).toJson)]
      ([(name, false)].map (markedEntry key)) :=
    .cons ⟨rfl, rfl, wellFormed_markedValue key false, rfl⟩ .nil
  refine ⟨⟨⟨hmarked.represents.raw, ?_⟩, hmarked.represents.head, hmarked.represents.wrap⟩,
    hmarked.head, hmarked.data, hmarked.wrapToken⟩
  rw [List.map_append]
  exact List.rel_append hmarked.represents.entries hentry

end ToyDocuments

/-! ## The laws -/

/-- **MUTATIONS DO WHAT THEY ARE MEANT TO DO, AND NOTHING ELSE**: setting a table of tokens in a
    draft with distinct keys, whatever the order of the table; setting it twice; unsetting a key;
    and, for a whole document, a set or an unset that succeeds leaves the sid, the creation time,
    the history and the tokens of all other keys as they were. -/
theorem mutation_frame :
    (∀ (draft : KvDocumentDraft) (table : List (String × String)),
        (draft.entries.map KvDocumentEntry.key).Nodup → (table.map Prod.fst).Nodup →
        EntriesSet draft table (draft.setEntries table)
          ∧ (∀ table' : List (String × String), table'.Perm table →
            draft.setEntries table' = draft.setEntries table)
          ∧ (draft.setEntries table).setEntries table = draft.setEntries table)
      ∧ (∀ draft key, EntryUnset draft key (draft.unsetEntry key))
      ∧ (∀ C content entries recipients ctx entropy text,
        setKvEntryWithRecipients C (some content) entries recipients ctx entropy = .ok text →
        ∃ (doc : KvEncDocument) (table : List (String × String)),
          verifyKvContent C content = .ok doc
          ∧ (∀ key, key ∈ table.map Prod.fst ↔ key ∈ entries.map KvInputEntry.key)
          ∧ Mutated doc (fun key => (table.lookup key).or (documentToken doc key)) text
          ∧ (Lawful C → (∀ entry ∈ entries, isValidKeyName entry.key = true) →
            ReadAs doc (fun key => (table.lookup key).or (documentToken doc key)) text))
      ∧ ∀ C content key recipients ctx entropy text,
        unsetKvEntryWithRecipients C content key recipients ctx entropy = .ok text →
        ∃ doc, verifyKvContent C content = .ok doc
          ∧ Mutated doc (fun other => if other = key then none else documentToken doc other) text
          ∧ ReadAs doc (fun other => if other = key then none else documentToken doc other)
            text := by
  refine ⟨?_, entryUnset_unsetEntry, ?_, ?_⟩
  · intro draft table hdraft htable
    exact ⟨entriesSet_setEntries hdraft htable, fun table' hperm => setEntries_perm hperm htable,
      setEntries_setEntries htable⟩
  · intro C content entries recipients ctx entropy text h
    exact mutated_of_set h
  · intro C content key recipients ctx entropy text h
    exact mutated_of_unset h

/-- Alice unsets one of three keys of a document for three people, and then sets a fourth; and a
    draft with two keys gets two tokens. -/
theorem mutation_frame_toy :
    (∃ content unset set doc after table, unsetKvEntryWithRecipients toyCrypto content "B"
          (writesFor teamAfter) (writtenBy aliceOnly) (toyDraws freshSid (pad 32 [7])) = .ok unset
        ∧ verifyKvContent toyCrypto content = .ok doc
        ∧ Mutated doc (fun other => if other = "B" then none else documentToken doc other) unset
        ∧ setKvEntryWithRecipients toyCrypto (some unset) [⟨"D", "value"⟩] (writesFor teamAfter)
          (writtenBy aliceOnly) (toyDraws freshSid (pad 32 [8])) = .ok set
        ∧ verifyKvContent toyCrypto unset = .ok after
        ∧ Mutated after (fun key => (List.lookup key table).or (documentToken after key)) set)
      ∧ EntriesSet { toyDraft toySid ⟨[], none⟩ (pad 32 [1]) with
            entries := [.encoded "B" "b", .encoded "A" "a"] } [("C", "c"), ("A", "new")]
          ({ toyDraft toySid ⟨[], none⟩ (pad 32 [1]) with
            entries := [.encoded "B" "b", .encoded "A" "a"] }.setEntries
              [("C", "c"), ("A", "new")]) := by
  constructor
  · obtain ⟨content, hcontent⟩ := toyText_people toySid course_change.after shortHistory_carol
      (pad 32 [1]) toyMarks_mixedMarks (List.mem_cons_self (a := aliceOnly))
    obtain ⟨unset, hunset, hunsetText⟩ := unset_toyKv (p := aliceOnly) "B" rfl
      List.mem_cons_self course_change.after shortHistory_carol toyMarks_mixedMarks
      (by decide) hcontent freshSid (pad 32 [7])
    obtain ⟨set, hset, _⟩ := set_toyKv (p := aliceOnly) "D" rfl List.mem_cons_self
      course_change.after shortHistory_carol ⟨by decide, by decide, by decide, by decide⟩ hunsetText
      freshSid (pad 32 [8])
    obtain ⟨doc, hdoc, hunsetMutated, _⟩ := mutation_frame.2.2.2 _ _ _ _ _ _ _ hunset
    obtain ⟨after, table, hafter, _, hsetMutated, _⟩ := mutation_frame.2.2.1 _ _ _ _ _ _ _ hset
    exact ⟨content, unset, set, doc, after, table, hunset, hdoc, hunsetMutated, hset, hafter,
      hsetMutated⟩
  · exact (mutation_frame.1 _ _ (by decide) (by decide)).1

end KvMutation
